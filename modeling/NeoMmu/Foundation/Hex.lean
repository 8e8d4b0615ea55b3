import Mathlib.Data.List.Basic
import Mathlib.Tactic.Ring

/-!
# Hexadecimal numerals

Writing a number with a fixed number of upper case digits, as `%02X` and `%04X` do, and reading the digits at the
front of a string up to the first other character, in either case. Reading gives back what was written, so
the numeral determines the number.
-/

namespace NeoMmu

/-- The upper case digit of a number below sixteen. -/
def hexDigit (d : Nat) : Char := Char.ofNat (if d < 10 then 48 + d else 55 + d)

/-- What a digit of either case stands for. -/
def hexValue (c : Char) : Option Nat :=
  if '0' ≤ c ∧ c ≤ '9' then some (c.toNat - 48)
  else if 'A' ≤ c ∧ c ≤ 'F' then some (c.toNat - 55)
  else if 'a' ≤ c ∧ c ≤ 'f' then some (c.toNat - 87)
  else none

/-- The last `width` digits of a number. -/
def hexDigits : Nat → Nat → List Char
  | 0, _ => []
  | width + 1, n => hexDigits width (n / 16) ++ [hexDigit (n % 16)]

/-- The digits at the front of a string, read behind a number that has been read. -/
def readHex (x : Nat) : List Char → Nat
  | [] => x
  | c :: cs =>
    match hexValue c with
    | some d => readHex (x * 16 + d) cs
    | none => x

@[simp] theorem hexValue_hexDigit {d : Nat} (hd : d < 16) : hexValue (hexDigit d) = some d := by
  have hall : ∀ d < 16, hexValue (hexDigit d) = some d := by decide
  exact hall d hd

@[simp] theorem length_hexDigits (width n : Nat) : (hexDigits width n).length = width := by
  induction width generalizing n with
  | zero => rfl
  | succ width ih => rw [hexDigits, List.length_append, ih, List.length_singleton]

theorem exists_of_mem_hexDigits {width n : Nat} {c : Char} (h : c ∈ hexDigits width n) :
    ∃ d < 16, c = hexDigit d := by
  induction width generalizing n with
  | zero => cases h
  | succ width ih =>
    rcases List.mem_append.1 h with h | h
    · exact ih h
    · exact ⟨n % 16, Nat.mod_lt n (by decide), List.mem_singleton.1 h⟩

/-- A character that is no digit is in no numeral. -/
theorem not_mem_hexDigits {width n : Nat} {c : Char} (hc : hexValue c = none) : c ∉ hexDigits width n := by
  intro h
  obtain ⟨d, hd, rfl⟩ := exists_of_mem_hexDigits h
  rw [hexValue_hexDigit hd] at hc
  cases hc

/-- Reading goes on behind digits. -/
theorem readHex_append_hexDigits {width n : Nat} (hn : n < 16 ^ width) (x : Nat) (rest : List Char) :
    readHex x (hexDigits width n ++ rest) = readHex (x * 16 ^ width + n) rest := by
  induction width generalizing n x rest with
  | zero =>
    rw [Nat.pow_zero, Nat.lt_one_iff] at hn
    rw [hn, hexDigits, List.nil_append, Nat.pow_zero, Nat.mul_one, Nat.add_zero]
  | succ width ih =>
    have hhigh : n / 16 < 16 ^ width := Nat.div_lt_of_lt_mul (by rwa [← Nat.pow_succ'])
    have hsplit := Nat.div_add_mod n 16
    have hvalue : (x * 16 ^ width + n / 16) * 16 + n % 16 = x * 16 ^ (width + 1) + n := by
      calc (x * 16 ^ width + n / 16) * 16 + n % 16 = x * 16 ^ (width + 1) + (16 * (n / 16) + n % 16) := by ring
        _ = x * 16 ^ (width + 1) + n := by rw [hsplit]
    rw [hexDigits, List.append_assoc, ih hhigh, List.singleton_append, readHex]
    simp only [hexValue_hexDigit (Nat.mod_lt n (by decide : 0 < 16)), hvalue]

/-- What is written is read again, up to a character that is no digit. -/
theorem readHex_hexDigits {width n : Nat} (hn : n < 16 ^ width) {rest : List Char}
    (hrest : ∀ c ∈ rest.head?, hexValue c = none) : readHex 0 (hexDigits width n ++ rest) = n := by
  rw [readHex_append_hexDigits hn, Nat.zero_mul, Nat.zero_add]
  cases rest with
  | nil => rfl
  | cons c rest => rw [readHex, hrest c rfl]

/-- Numerals of one width are different for different numbers. -/
theorem hexDigits_inj {width n n' : Nat} (hn : n < 16 ^ width) (hn' : n' < 16 ^ width)
    (h : hexDigits width n = hexDigits width n') : n = n' := by
  have hread : readHex 0 (hexDigits width n ++ []) = n := readHex_hexDigits hn (by simp)
  rw [h, readHex_hexDigits hn' (by simp)] at hread
  exact hread.symm

end NeoMmu
