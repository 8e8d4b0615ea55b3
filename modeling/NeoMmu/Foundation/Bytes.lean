import Mathlib.Data.Fintype.Basic
import Mathlib.Data.Fin.Tuple.Basic
import Mathlib.Data.List.Nodup

/-!
# Bytes and byte strings

A NUL-terminated string is the list of its bytes before the NUL. A property of one byte is decided by
its 256 instances.
-/

namespace NeoMmu

/-- A decidable property of bytes can be checked byte by byte. -/
instance decidableForallUInt8 {P : UInt8 → Prop} [DecidablePred P] : Decidable (∀ c, P c) :=
  decidable_of_iff (∀ n : Fin 256, P (UInt8.ofFin n))
    ⟨fun h c => UInt8.ofFin_toFin c ▸ h c.toFin, fun h n => h (UInt8.ofFin n)⟩

/-- A property of the members of a list is decided along the list, and not by all values of a finite type. -/
instance decidableForallMem {α : Type*} {P : α → Prop} [DecidablePred P] (l : List α) :
    Decidable (∀ a ∈ l, P a) :=
  List.decidableBAll P l

/-- The bytes of an ASCII literal. -/
def ascii (s : String) : List UInt8 := s.toList.map Char.toUInt8

/-- The bytes of a literal from its characters, without decoding it. -/
theorem ascii_ofList (l : List Char) : ascii (String.ofList l) = l.map Char.toUInt8 := by
  rw [ascii, String.toList_ofList]

/-- `copyTrunc()` into a buffer of `dstSize` bytes. -/
def copyTrunc (dstSize : Nat) (src : List UInt8) : List UInt8 := src.take (dstSize - 1)

/-- The bytes `0, 1, …` below `n`, as a loop over a `uint8_t` counter visits them. -/
def bytesBelow (n : UInt8) : List UInt8 := (List.range n.toNat).map UInt8.ofNat

@[simp] theorem mem_bytesBelow {n b : UInt8} : b ∈ bytesBelow n ↔ b < n := by
  simp only [bytesBelow, List.mem_map, List.mem_range, UInt8.lt_iff_toNat_lt]
  constructor
  · rintro ⟨i, hi, rfl⟩
    rwa [UInt8.toNat_ofNat_of_lt' (Nat.lt_trans hi n.toNat_lt)]
  · intro h
    exact ⟨b.toNat, h, UInt8.ofNat_toNat⟩

theorem bytesBelow_eq_cons {n : UInt8} (hn : n ≠ 0) : ∃ rest, bytesBelow n = 0 :: rest := by
  have hpos : n.toNat ≠ 0 := fun h => hn (UInt8.toNat_inj.1 h)
  obtain ⟨k, hk⟩ := Nat.exists_eq_succ_of_ne_zero hpos
  rw [bytesBelow, hk, List.range_succ_eq_map, List.map_cons]
  exact ⟨_, rfl⟩

theorem nodup_bytesBelow (n : UInt8) : (bytesBelow n).Nodup := by
  refine (List.nodup_range).map_on ?_
  intro i hi j hj h
  rw [List.mem_range] at hi hj
  have hij := congrArg UInt8.toNat h
  rwa [UInt8.toNat_ofNat_of_lt' (Nat.lt_trans hi n.toNat_lt),
    UInt8.toNat_ofNat_of_lt' (Nat.lt_trans hj n.toNat_lt)] at hij

/-- A word is put together again from its bytes. -/
theorem word_of_bytes (w : UInt16) :
    (w &&& 0xFF).toUInt8.toUInt16 ||| (((w >>> 8) &&& 0xFF).toUInt8.toUInt16 <<< 8) = w := by
  have hw := w.toNat_lt
  have hmask : (255 : Nat) = 2 ^ 8 - 1 := rfl
  have hlow : (w &&& 0xFF).toUInt8.toNat = w.toNat % 256 := by
    simp only [UInt16.toNat_toUInt8, UInt16.toNat_and, UInt16.reduceToNat, hmask,
      Nat.and_two_pow_sub_one_eq_mod]
    omega
  have hhigh : ((w >>> 8) &&& 0xFF).toUInt8.toNat = w.toNat / 256 := by
    simp only [UInt16.toNat_toUInt8, UInt16.toNat_and, UInt16.toNat_shiftRight, UInt16.reduceToNat, hmask,
      Nat.and_two_pow_sub_one_eq_mod, Nat.shiftRight_eq_div_pow, Nat.reduceMod]
    omega
  have hshift : (w.toNat / 256) <<< 8 < 2 ^ 16 := by
    rw [Nat.shiftLeft_eq]
    omega
  apply UInt16.toNat_inj.1
  simp only [UInt16.toNat_or, UInt16.toNat_shiftLeft, UInt8.toNat_toUInt16, hlow, hhigh,
    UInt16.reduceToNat, Nat.reduceMod]
  rw [Nat.mod_eq_of_lt hshift, Nat.or_comm, ← Nat.shiftLeft_add_eq_or_of_lt (by omega), Nat.shiftLeft_eq]
  omega

/-- The first byte of a word. -/
theorem low_of_bytes (lo hi : UInt8) : (lo.toUInt16 ||| (hi.toUInt16 <<< 8)).toUInt8 = lo := by
  apply UInt8.toBitVec_inj.1
  ext i hi
  simp

end NeoMmu
