import Mathlib.Data.List.Basic
import Mathlib.Data.List.DropRight
import Mathlib.Data.List.TakeWhile

/-!
# Separated strings

A string over an alphabet with separators is read as its list of nonempty pieces, `tokens`, and
written back by `joinSep`. The lemmas are the ones a scanner needs: a scanner that skips separators,
takes the longest run of other characters and goes on visits exactly the tokens, and dropping
everything from the last separator on drops the last token.
-/

namespace NeoMmu

variable {α : Type*} {p : α → Bool}

/-- The nonempty pieces of `s` between separators. -/
def tokens (p : α → Bool) (s : List α) : List (List α) :=
  (s.splitOnP p).filter (!·.isEmpty)

/-! ## Reading -/

@[simp] theorem tokens_nil : tokens p [] = [] := by
  simp [tokens]

/-- A leading separator adds no token. -/
theorem tokens_cons_of_sep {a : α} (ha : p a = true) (s : List α) :
    tokens p (a :: s) = tokens p s := by
  simp [tokens, List.splitOnP_cons_eq_if_modifyHead, ha]

theorem tokens_dropWhile (s : List α) : tokens p (s.dropWhile p) = tokens p s := by
  induction s with
  | nil => rfl
  | cons a s ih =>
    by_cases ha : p a = true
    · rw [List.dropWhile_cons_of_pos ha, ih, tokens_cons_of_sep ha]
    · rw [List.dropWhile_cons_of_neg ha]

/-- A nonempty run of ordinary characters up to a separator or the end is a token. -/
theorem tokens_append {w s : List α} (hw : w ≠ []) (hwp : ∀ a ∈ w, p a = false)
    (hs : ∀ a ∈ s.head?, p a = true) : tokens p (w ++ s) = w :: tokens p s := by
  have hwe : w.isEmpty = false := by simpa using hw
  cases s with
  | nil => simp [tokens, List.splitOnP_eq_singleton hwp, hwe]
  | cons a s =>
    have ha : p a = true := hs a rfl
    rw [tokens_cons_of_sep ha]
    simp [tokens, List.splitOnP_append_cons_of_forall_mem hwp a ha, hwe]

/-- One round of a scanner standing on an ordinary character. -/
theorem tokens_scan {s : List α} (hs : s ≠ []) (hhead : ∀ a ∈ s.head?, p a = false) :
    tokens p s = s.takeWhile (!p ·) :: tokens p (s.dropWhile (!p ·)) := by
  have htake : s.takeWhile (!p ·) ≠ [] := by
    cases s with
    | nil => exact absurd rfl hs
    | cons a s => simp [hhead a rfl]
  have hmem : ∀ a ∈ s.takeWhile (!p ·), p a = false := fun a ha => by
    simpa using List.mem_takeWhile_imp ha
  have hrest : ∀ a ∈ (s.dropWhile (!p ·)).head?, p a = true := fun a ha => by
    have h := List.head?_dropWhile_not (!p ·) s
    rw [Option.mem_def.1 ha] at h
    simpa using h
  conv_lhs => rw [← List.takeWhile_append_dropWhile (p := (!p ·)) (l := s)]
  exact tokens_append htake hmem hrest

/-- A scanner's round is over closer to the end than it began. -/
theorem length_scan_lt {s : List α} (hs : s.dropWhile p ≠ []) :
    ((s.dropWhile p).dropWhile (!p ·)).length < s.length := by
  have hle : (s.dropWhile p).length ≤ s.length := (List.dropWhile_suffix p).length_le
  cases hd : s.dropWhile p with
  | nil => exact absurd hd hs
  | cons a t =>
    have ha : p a = false := by
      have h := List.head?_dropWhile_not p s
      simpa [hd] using h
    have htail : (t.dropWhile (!p ·)).length ≤ t.length := (List.dropWhile_suffix _).length_le
    rw [hd, List.length_cons] at hle
    rw [List.dropWhile_cons_of_pos (by simp [ha])]
    omega

theorem mem_tokens {s t : List α} (ht : t ∈ tokens p s) : t ≠ [] := by
  simpa [tokens] using (List.mem_filter.1 ht).2

theorem subset_of_mem_splitOnP {s t : List α} (ht : t ∈ s.splitOnP p) : t ⊆ s := by
  induction s generalizing t with
  | nil =>
    rw [List.splitOnP_nil, List.mem_singleton] at ht
    rw [ht]
    exact List.Subset.refl _
  | cons a s ih =>
    rw [List.splitOnP_cons_eq_if_modifyHead] at ht
    split at ht
    · rcases List.mem_cons.1 ht with rfl | ht
      · exact List.nil_subset _
      · exact List.subset_cons_of_subset a (ih ht)
    · rcases hsplit : s.splitOnP p with - | ⟨head, rest⟩
      · rw [hsplit] at ht
        cases ht
      · rw [hsplit] at ht ih
        rcases List.mem_cons.1 ht with rfl | ht
        · exact List.cons_subset_cons a (ih List.mem_cons_self)
        · exact List.subset_cons_of_subset a (ih (List.mem_cons_of_mem head ht))

/-- A token is made of what it was cut from. -/
theorem subset_of_mem_tokens {s t : List α} (ht : t ∈ tokens p s) : t ⊆ s :=
  subset_of_mem_splitOnP (List.mem_filter.1 ht).1

/-! ## Writing -/

/-- The tokens with one separator between them. -/
def joinSep (a : α) (ts : List (List α)) : List α := [a].intercalate ts

@[simp] theorem joinSep_nil (a : α) : joinSep a [] = [] := rfl

theorem joinSep_append_singleton (a : α) (ts : List (List α)) (t : List α) :
    joinSep a (ts ++ [t]) = if ts = [] then t else joinSep a ts ++ a :: t := by
  induction ts with
  | nil => simp [joinSep]
  | cons u ts ih =>
    rw [if_neg (by simp)]
    by_cases hts : ts = []
    · subst hts
      simp [joinSep, List.intercalate]
    · have hne : ts ++ [t] ≠ [] := by simp
      rw [if_neg hts] at ih
      simp only [joinSep] at ih ⊢
      rw [List.cons_append, List.intercalate_cons_of_ne_nil hne, ih,
        List.intercalate_cons_of_ne_nil hts]
      simp

theorem joinSep_eq_nil_iff {a : α} {ts : List (List α)} (hts : ∀ t ∈ ts, t ≠ []) :
    joinSep a ts = [] ↔ ts = [] := by
  constructor
  · intro h
    cases ts with
    | nil => rfl
    | cons t ts =>
      have ht := hts t List.mem_cons_self
      cases ts with
      | nil => simp_all [joinSep]
      | cons u ts => simp [joinSep, List.intercalate_cons_of_ne_nil] at h
  · rintro rfl
    rfl

/-- The elements of a joined list are those of its tokens and the separator. -/
theorem mem_joinSep {a b : α} {ts : List (List α)} (h : b ∈ joinSep a ts) :
    b = a ∨ ∃ t ∈ ts, b ∈ t := by
  induction ts with
  | nil => simp at h
  | cons t ts ih =>
    rcases eq_or_ne ts [] with rfl | hts
    · exact .inr ⟨t, List.mem_cons_self, by simpa [joinSep] using h⟩
    · rw [joinSep, List.intercalate_cons_of_ne_nil hts] at h
      simp only [List.mem_append, List.mem_singleton] at h
      rcases h with (h | h) | h
      · exact .inr ⟨t, List.mem_cons_self, h⟩
      · exact .inl h
      · rcases ih h with h | ⟨u, hu, h⟩
        · exact .inl h
        · exact .inr ⟨u, List.mem_cons_of_mem t hu, h⟩

/-- More tokens make the joined list no shorter. -/
theorem length_joinSep_append (a : α) (ts us : List (List α)) :
    (joinSep a ts).length ≤ (joinSep a (ts ++ us)).length := by
  induction us generalizing ts with
  | nil => rw [List.append_nil]
  | cons u us ih =>
    have hone : (joinSep a ts).length ≤ (joinSep a (ts ++ [u])).length := by
      rw [joinSep_append_singleton]
      split
      · rename_i h
        rw [h]
        exact Nat.zero_le _
      · rw [List.length_append]
        exact Nat.le_add_right _ _
    have hmore := ih (ts ++ [u])
    rw [List.append_assoc, List.singleton_append] at hmore
    exact hone.trans hmore

/-- Reading what has been written. -/
theorem splitOn_joinSep [BEq α] [LawfulBEq α] {a : α} {ts : List (List α)} (hsep : ∀ t ∈ ts, a ∉ t)
    (hts : ts ≠ []) : (joinSep a ts).splitOn a = ts :=
  List.splitOn_intercalate a hsep hts

theorem tokens_joinSep [BEq α] [LawfulBEq α] {a : α} {ts : List (List α)} (hne : ∀ t ∈ ts, t ≠ [])
    (hsep : ∀ t ∈ ts, a ∉ t) : tokens (· == a) (joinSep a ts) = ts := by
  rcases eq_or_ne ts [] with rfl | hts
  · rw [joinSep_nil, tokens_nil]
  · rw [tokens, ← List.splitOn_eq_splitOnP, splitOn_joinSep hsep hts, List.filter_eq_self]
    intro t ht
    simpa using hne t ht

/-- Nonempty tokens are joined without a separator in front. -/
theorem head?_joinSep {a : α} {ts : List (List α)} (hne : ∀ t ∈ ts, t ≠ [])
    (hsep : ∀ t ∈ ts, a ∉ t) : (joinSep a ts).head? ≠ some a := by
  rcases ts with - | ⟨t, ts⟩
  · simp
  · have ht := hne t List.mem_cons_self
    have hat := hsep t List.mem_cons_self
    obtain ⟨b, t, rfl⟩ := List.exists_cons_of_ne_nil ht
    have hhead : (joinSep a ((b :: t) :: ts)).head? = some b := by
      rcases ts with - | ⟨u, ts⟩
      · simp [joinSep]
      · simp [joinSep, List.intercalate_cons_of_ne_nil]
    rw [hhead]
    rintro ⟨⟩
    exact hat List.mem_cons_self

/-- Nor is there one behind. -/
theorem getLast?_joinSep {a : α} {ts : List (List α)} (hne : ∀ t ∈ ts, t ≠ [])
    (hsep : ∀ t ∈ ts, a ∉ t) : (joinSep a ts).getLast? ≠ some a := by
  rcases List.eq_nil_or_concat' ts with rfl | ⟨ts, t, rfl⟩
  · simp
  · have ht := hne t (by simp)
    have hat := hsep t (by simp)
    have hlast : (joinSep a (ts ++ [t])).getLast? = t.getLast? := by
      rw [joinSep_append_singleton]
      split
      · rfl
      · rw [List.getLast?_append_of_ne_nil _ (List.cons_ne_nil a t), List.getLast?_cons_of_ne_nil ht]
    rw [hlast]
    intro hmem
    exact hat (List.mem_of_getLast? hmem)

/-- Everything before the last separator; nothing when there is none. -/
def dropLastToken [BEq α] (a : α) (s : List α) : List α := (s.rdropWhile (· != a)).dropLast

/-- Cutting at the last separator drops the last token. -/
theorem dropLastToken_joinSep [BEq α] [LawfulBEq α] {a : α} {ts : List (List α)}
    (hts : ∀ t ∈ ts, a ∉ t) : dropLastToken a (joinSep a ts) = joinSep a ts.dropLast := by
  rcases List.eq_nil_or_concat' ts with rfl | ⟨us, t, rfl⟩
  · rfl
  · have ht : ∀ b ∈ t.reverse, (b != a) = true := fun b hb => by
      have hat : a ∉ t := hts t (by simp)
      rw [bne_iff_ne]
      rintro rfl
      exact hat (List.mem_reverse.1 hb)
    rw [joinSep_append_singleton, List.dropLast_concat]
    by_cases hus : us = []
    · have hall : t.rdropWhile (· != a) = [] :=
        List.rdropWhile_eq_nil_iff.2 fun b hb => ht b (List.mem_reverse.2 hb)
      simp [hus, dropLastToken, hall]
    · have hcut : (joinSep a us ++ a :: t).rdropWhile (· != a) = joinSep a us ++ [a] := by
        simp [List.rdropWhile, List.dropWhile_append_of_pos ht]
      rw [if_neg hus, dropLastToken, hcut, List.dropLast_concat]

end NeoMmu
