import Mathlib.Data.List.Basic

/-!
# Lists in pieces

`chunksOf n l` cuts a list into pieces of `n`, as a loop over a buffer of `n` elements handles it. What
is lost when only `k` elements of every piece get through is said by `flatMap_take_eq_iff`.
-/

namespace NeoMmu

variable {α : Type}

/-- A list in pieces of `n`, the last one shorter. -/
def chunksOf (n : Nat) (l : List α) : List (List α) :=
  if _h : n = 0 ∨ l = [] then []
  else l.take n :: chunksOf n (l.drop n)
termination_by l.length
decreasing_by
  rw [not_or] at _h
  have := List.length_pos_iff.2 _h.2
  simp only [List.length_drop]
  omega

theorem chunksOf_nil (n : Nat) : chunksOf n ([] : List α) = [] := by
  rw [chunksOf, dif_pos (.inr rfl)]

theorem chunksOf_cons {n : Nat} {l : List α} (hn : n ≠ 0) (hl : l ≠ []) :
    chunksOf n l = l.take n :: chunksOf n (l.drop n) := by
  rw [chunksOf, dif_neg (not_or.2 ⟨hn, hl⟩)]

/-- A list that is no longer than a piece is one piece. -/
theorem chunksOf_short {n : Nat} {l : List α} (hl : l ≠ []) (hn : l.length ≤ n) :
    chunksOf n l = [l] := by
  have hpos := List.length_pos_iff.2 hl
  rw [chunksOf_cons (by omega) hl, List.take_of_length_le hn, List.drop_of_length_le hn, chunksOf_nil]

/-- The pieces make up the list. -/
theorem flatten_chunksOf {n : Nat} (hn : n ≠ 0) (l : List α) : (chunksOf n l).flatten = l := by
  fun_induction chunksOf n l with
  | case1 l h =>
    have hl : l = [] := h.resolve_left hn
    rw [hl, List.flatten_nil]
  | case2 l h ih => rw [List.flatten_cons, ih, List.take_append_drop]

/-- Taking at most `k` of every piece loses nothing exactly when no piece is longer. -/
theorem flatMap_take_eq_iff (k : Nat) (pieces : List (List α)) :
    pieces.flatMap (List.take k) = pieces.flatten ↔ ∀ piece ∈ pieces, piece.length ≤ k := by
  have hle : ∀ pieces : List (List α),
      (pieces.flatMap (List.take k)).length ≤ pieces.flatten.length := by
    intro pieces
    induction pieces with
    | nil => simp
    | cons piece pieces ih =>
      simp only [List.flatMap_cons, List.flatten_cons, List.length_append, List.length_take]
      omega
  induction pieces with
  | nil => simp
  | cons piece pieces ih =>
    rw [List.forall_mem_cons]
    constructor
    · intro h
      have hlen := congrArg List.length h
      have htail := hle pieces
      simp only [List.flatMap_cons, List.flatten_cons, List.length_append, List.length_take] at hlen
      have hpiece : piece.length ≤ k := by omega
      rw [List.flatMap_cons, List.flatten_cons, List.take_of_length_le hpiece] at h
      exact ⟨hpiece, ih.1 (List.append_cancel_left h)⟩
    · rintro ⟨hpiece, hpieces⟩
      rw [List.flatMap_cons, List.flatten_cons, List.take_of_length_le hpiece, ih.2 hpieces]

end NeoMmu
