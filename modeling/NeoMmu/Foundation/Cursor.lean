import Mathlib.Algebra.BigOperators.Group.List.Basic
import Mathlib.Algebra.GroupWithZero.Nat
import Mathlib.Data.List.Basic

/-!
# Sequences with a position

What an open file is for: a finite sequence that is read, overwritten and made longer at a position, which is never
behind its end. Pieces that are written one after the other are one piece, and so are pieces that are read; what was
written is read again from where the writing began.
-/

namespace NeoMmu

/-- A sequence, and a position in it or at its end. -/
@[ext] structure Cursor (α : Type*) where
  contents : List α
  position : Nat
  le : position ≤ contents.length

namespace Cursor

variable {α : Type*}

/-- The next `n` elements, as many as are left. -/
def next (c : Cursor α) (n : Nat) : List α := (c.contents.drop c.position).take n

theorem position_add_length_next (c : Cursor α) (n : Nat) :
    c.position + (c.next n).length ≤ c.contents.length := by
  have hle := c.le
  rw [next, List.length_take, List.length_drop]
  omega

/-- Behind the next `n` elements. -/
def skip (c : Cursor α) (n : Nat) : Cursor α :=
  ⟨c.contents, c.position + (c.next n).length, c.position_add_length_next n⟩

theorem skip_zero (c : Cursor α) : c.skip 0 = c := by
  ext1
  · rfl
  · rfl

/-- Some elements over those that are next, and behind the end. -/
def overlay (c : Cursor α) (src : List α) : List α :=
  c.contents.take c.position ++ src ++ c.contents.drop (c.position + src.length)

theorem length_overlay (c : Cursor α) (src : List α) :
    (c.overlay src).length = max c.contents.length (c.position + src.length) := by
  have hle := c.le
  simp only [overlay, List.length_append, List.length_take, List.length_drop]
  omega

/-- Behind elements that are written. -/
def write (c : Cursor α) (src : List α) : Cursor α :=
  ⟨c.overlay src, c.position + src.length, by rw [length_overlay]; exact Nat.le_max_right _ _⟩

/-- What a position is counted from. -/
inductive Origin
  | start
  | current
  | behind
  deriving DecidableEq, Repr

/-- The position that an origin is. -/
def base (c : Cursor α) : Origin → Nat
  | .start => 0
  | .current => c.position
  | .behind => c.contents.length

/-- A position of the sequence is reached. To reach one behind its end the sequence may be made longer, by elements
that nobody has written, and its end is reached. -/
structure Reaches (target : Nat) (c c' : Cursor α) : Prop where
  inside : target ≤ c.contents.length → c'.contents = c.contents ∧ c'.position = target
  beyond : c.contents.length < target →
    c.contents <+: c'.contents ∧ c'.position = c'.contents.length ∧ c'.position ≤ target

/-- What is done with a cursor: elements are read, of which so many were asked for, elements are written, and a
position is reached. -/
inductive Action (α : Type*)
  | read (n : Nat) (chunk : List α)
  | write (src : List α)
  | seek (origin : Origin) (offset : Int) (reached : Nat)

/-- What a cursor does. -/
inductive Step : Cursor α → Action α → Cursor α → Prop
  | read (c : Cursor α) (n : Nat) : Step c (.read n (c.next n)) (c.skip n)
  | write (c : Cursor α) (src : List α) : Step c (.write src) (c.write src)
  | seek {c c' : Cursor α} {origin : Origin} {offset : Int} {target : Nat} (sum : c.base origin + offset = target)
    (reaches : Reaches target c c') : Step c (.seek origin offset c'.position) c'

/-- Actions one after the other. -/
def Run : Cursor α → List (Action α) → Cursor α → Prop
  | c, [], c' => c' = c
  | c, a :: as, c' => ∃ d, Step c a d ∧ Run d as c'

theorem run_append {c c' : Cursor α} {as bs : List (Action α)} :
    Run c (as ++ bs) c' ↔ ∃ d, Run c as d ∧ Run d bs c' := by
  induction as generalizing c with
  | nil => exact ⟨fun h => ⟨c, rfl, h⟩, fun ⟨_, hd, h⟩ => hd ▸ h⟩
  | cons a as ih =>
    constructor
    · rintro ⟨d, hstep, hrest⟩
      obtain ⟨e, has, hbs⟩ := ih.1 hrest
      exact ⟨e, ⟨d, hstep, has⟩, hbs⟩
    · rintro ⟨e, ⟨d, hstep, has⟩, hbs⟩
      exact ⟨d, hstep, ih.2 ⟨e, has, hbs⟩⟩

theorem length_le_of_step {c c' : Cursor α} {a : Action α} (h : Step c a c') :
    c.contents.length ≤ c'.contents.length := by
  cases h with
  | read n => exact Nat.le_refl _
  | write src =>
    show _ ≤ (c.overlay src).length
    rw [length_overlay]
    exact Nat.le_max_left _ _
  | @seek _ _ _ target sum reaches =>
    rcases Nat.lt_or_ge c.contents.length target with hbeyond | hinside
    · exact (reaches.beyond hbeyond).1.length_le
    · exact Nat.le_of_eq (congrArg List.length (reaches.inside hinside).1).symm

/-- No action makes the sequence shorter. -/
theorem length_le_of_run {c c' : Cursor α} {as : List (Action α)} (h : Run c as c') :
    c.contents.length ≤ c'.contents.length := by
  induction as generalizing c with
  | nil =>
    obtain rfl : c' = c := h
    exact Nat.le_refl _
  | cons a as ih =>
    obtain ⟨d, hstep, hrest⟩ := h
    exact Nat.le_trans (length_le_of_step hstep) (ih hrest)

/-! ## Pieces -/

theorem write_nil (c : Cursor α) : c.write [] = c := by
  ext1
  · show c.contents.take c.position ++ [] ++ c.contents.drop (c.position + 0) = c.contents
    rw [List.append_nil, Nat.add_zero, List.take_append_drop]
  · rfl

/-- Writing goes on behind what was written. -/
theorem write_write (c : Cursor α) (s t : List α) : (c.write s).write t = c.write (s ++ t) := by
  have hle := c.le
  ext1
  · have hfront : (c.contents.take c.position ++ s).length = c.position + s.length := by
      rw [List.length_append, List.length_take, Nat.min_eq_left hle]
    show (c.overlay s).take (c.position + s.length) ++ t ++ (c.overlay s).drop (c.position + s.length + t.length) = _
    rw [overlay, List.take_left' hfront, ← List.drop_drop, List.drop_left' hfront, List.drop_drop]
    show _ = c.contents.take c.position ++ (s ++ t) ++ c.contents.drop (c.position + (s ++ t).length)
    simp only [List.append_assoc, List.length_append, Nat.add_assoc]
  · show c.position + s.length + t.length = c.position + (s ++ t).length
    rw [List.length_append, Nat.add_assoc]

/-- Pieces that are written are one piece. -/
theorem eq_of_run_writes {c c' : Cursor α} {srcs : List (List α)} (h : Run c (srcs.map .write) c') :
    c' = c.write srcs.flatten := by
  induction srcs generalizing c with
  | nil =>
    rw [List.flatten_nil, write_nil]
    exact h
  | cons src srcs ih =>
    obtain ⟨d, hstep, hrest⟩ := h
    cases hstep
    rw [ih hrest, write_write, List.flatten_cons]

theorem next_append_next (c : Cursor α) (m n : Nat) : c.next m ++ (c.skip m).next n = c.next (m + n) := by
  have hrest : ∀ l : List α, l.take m ++ (l.drop (l.take m).length).take n = l.take (m + n) := by
    intro l
    rw [List.take_add, List.length_take]
    rcases Nat.le_total m l.length with h | h
    · rw [Nat.min_eq_left h]
    · rw [Nat.min_eq_right h, List.drop_length, List.drop_eq_nil_of_le h]
  have hchunks := hrest (c.contents.drop c.position)
  rw [List.drop_drop] at hchunks
  exact hchunks

/-- Pieces that are read are one piece, and nothing is changed. -/
theorem of_run_reads {c c' : Cursor α} {chunks : List (Nat × List α)}
    (h : Run c (chunks.map fun r => .read r.1 r.2) c') :
    (chunks.map Prod.snd).flatten = c.next (chunks.map Prod.fst).sum ∧ c'.contents = c.contents := by
  induction chunks generalizing c with
  | nil =>
    obtain rfl : c' = c := h
    exact ⟨rfl, rfl⟩
  | cons r chunks ih =>
    obtain ⟨d, hstep, hrest⟩ := h
    obtain ⟨n, chunk⟩ := r
    change Step c (.read n chunk) d at hstep
    cases hstep
    obtain ⟨hchunks, hcontents⟩ := ih hrest
    refine ⟨?_, hcontents⟩
    rw [List.map_cons, List.flatten_cons, hchunks, List.map_cons, List.sum_cons]
    exact next_append_next c n _

/-! ## Reading what was written -/

/-- A position that the sequence had is reached without a change. -/
theorem Reaches.contents_eq {target : Nat} {c c' : Cursor α} (h : Reaches target c c')
    (hle : c'.position ≤ c.contents.length) : c'.contents = c.contents := by
  rcases Nat.lt_or_ge c.contents.length target with hbeyond | hinside
  · obtain ⟨hfront, hposition, -⟩ := h.beyond hbeyond
    exact (hfront.eq_of_length_le (hposition ▸ hle)).symm
  · exact (h.inside hinside).1

/-- What was written is read again behind the position where it began, and then what was there. -/
theorem read_back {c c' : Cursor α} {srcs : List (List α)} {origin : Origin} {offset : Int}
    {chunks : List (Nat × List α)}
    (h : Run c (srcs.map .write ++ .seek origin offset c.position :: chunks.map fun r => .read r.1 r.2) c') :
    (chunks.map Prod.snd).flatten =
      (srcs.flatten ++ c.contents.drop (c.position + srcs.flatten.length)).take (chunks.map Prod.fst).sum := by
  have hle := c.le
  obtain ⟨d, hwrites, e, hseek, hreads⟩ := run_append.1 h
  obtain rfl := eq_of_run_writes hwrites
  obtain ⟨hchunks, -⟩ := of_run_reads hreads
  generalize hposition : c.position = position at hseek
  cases hseek with
  | seek sum reaches =>
    have hcontents : e.contents = c.overlay srcs.flatten := by
      refine reaches.contents_eq ?_
      show e.position ≤ (c.overlay srcs.flatten).length
      rw [length_overlay, ← hposition]
      exact Nat.le_trans hle (Nat.le_max_left _ _)
    have hfront : (c.contents.take c.position).length = c.position := by
      rw [List.length_take, Nat.min_eq_left hle]
    rw [hchunks, next, hcontents, overlay, List.append_assoc, ← hposition, List.drop_left' hfront]

end Cursor

end NeoMmu
