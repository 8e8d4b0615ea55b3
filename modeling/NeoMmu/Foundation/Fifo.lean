import Mathlib.Algebra.Group.Fin.Basic
import Mathlib.Tactic.Abel
import Mathlib.Data.List.Basic
import Mathlib.Logic.Function.Basic

/-!
# Ring buffers as queues

A circular buffer with a head and a tail index, as `fifo.h` implements it: one cell is kept free to
tell a full buffer from an empty one, so a buffer of `size` cells holds `size - 1` values. `toList`
reads the queue off the cells, and every operation is the corresponding one on lists.
-/

namespace NeoMmu

/-- `FIFO<T, SIZE>`: indices count modulo the size. -/
structure Fifo (α : Type) (size : Nat) where
  head : Fin size
  tail : Fin size
  buffer : Fin size → α

namespace Fifo

variable {α : Type} {size : Nat} [NeZero size]

/-- `isEmpty()` -/
def isEmpty (q : Fifo α size) : Bool := q.head = q.tail

/-- `isFull()` -/
def isFull (q : Fifo α size) : Bool := q.head + 1 = q.tail

/-- `clear()` -/
def clear (q : Fifo α size) : Fifo α size := { q with head := 0, tail := 0 }

/-- `push()`, which leaves a full buffer alone. -/
def push (q : Fifo α size) (value : α) : Fifo α size :=
  if q.head + 1 = q.tail then q
  else { q with buffer := Function.update q.buffer q.head value, head := q.head + 1 }

/-- `pop()`; `none` when the buffer is empty. -/
def pop (q : Fifo α size) : Option (α × Fifo α size) :=
  if q.tail = q.head then none
  else some (q.buffer q.tail, { q with tail := q.tail + 1 })

/-- `peek()` -/
def peek (q : Fifo α size) : Option α := if q.head = q.tail then none else some (q.buffer q.tail)

/-- `unpush()`, which drops the newest value; `none` when the buffer is empty. -/
def unpush (q : Fifo α size) : Option (Fifo α size) :=
  if q.head = q.tail then none else some { q with head := q.head - 1 }

/-- `unpop()`, which puts a value in front of the oldest; `none` when the buffer is full. -/
def unpop (q : Fifo α size) (value : α) : Option (Fifo α size) :=
  if q.tail - 1 = q.head then none
  else some { q with buffer := Function.update q.buffer (q.tail - 1) value, tail := q.tail - 1 }

/-- `count()` -/
def count (q : Fifo α size) : Nat := (q.head - q.tail).val

/-- The values in the buffer, the oldest first. -/
def toList (q : Fifo α size) : List α :=
  (List.range q.count).map fun i => q.buffer (q.tail + Fin.ofNat size i)

/-! ## The operations on lists -/

@[simp] theorem length_toList (q : Fifo α size) : q.toList.length = q.count := by
  simp [toList]

omit [NeZero size] in
theorem count_lt (q : Fifo α size) : q.count < size := (q.head - q.tail).isLt

theorem isEmpty_iff (q : Fifo α size) : q.isEmpty = true ↔ q.toList = [] := by
  rw [← List.length_eq_zero_iff, length_toList, count, isEmpty, decide_eq_true_iff, Fin.val_eq_zero_iff,
    sub_eq_zero]

/-- The successor of an index that is not the last does not wrap. -/
private theorem val_succ {d : Fin size} (hd : d + 1 ≠ 0) : (d + 1).val = d.val + 1 := by
  have hlt := d.isLt
  rw [Fin.val_add]
  by_cases hone : size = 1
  · subst hone
    exact absurd (Subsingleton.elim _ _) hd
  have hval : (1 : Fin size).val = 1 := by
    rw [Fin.val_one']
    exact Nat.mod_eq_of_lt (by omega)
  rw [hval]
  refine Nat.mod_eq_of_lt (Nat.lt_of_le_of_ne hlt fun heq => hd ?_)
  apply Fin.ext
  rw [Fin.val_add, hval, heq, Nat.mod_self]
  rfl

theorem isFull_iff (q : Fifo α size) : q.isFull = true ↔ q.count + 1 = size := by
  rw [isFull, decide_eq_true_iff]
  constructor
  · intro hfull
    have hd : q.head - q.tail + 1 = 0 := by rw [sub_add_eq_add_sub, hfull, sub_self]
    have hval := congrArg Fin.val hd
    rw [Fin.val_add, Fin.val_one', Fin.val_zero, Nat.add_mod_mod] at hval
    have := Nat.le_of_dvd (Nat.succ_pos _) (Nat.dvd_of_mod_eq_zero hval)
    have := q.count_lt
    rw [count] at *
    omega
  · intro hcount
    by_contra hne
    have hd : q.head - q.tail + 1 ≠ 0 := by
      rw [sub_add_eq_add_sub, Ne, sub_eq_zero]
      exact hne
    have := (q.head - q.tail + 1).isLt
    rw [val_succ hd] at this
    rw [count] at hcount
    omega

/-- A push appends its value unless the buffer holds `size - 1` values already. -/
theorem toList_push (q : Fifo α size) (value : α) :
    (q.push value).toList = if q.count + 1 = size then q.toList else q.toList ++ [value] := by
  by_cases hfull : q.head + 1 = q.tail
  · rw [if_pos (q.isFull_iff.1 (by simpa [isFull] using hfull)), push, if_pos hfull]
  have hnot : q.count + 1 ≠ size := fun h => hfull (by simpa [isFull] using q.isFull_iff.2 h)
  have hd : q.head - q.tail + 1 ≠ 0 := by
    rw [sub_add_eq_add_sub, Ne, sub_eq_zero]
    exact hfull
  have hcount : (q.push value).count = q.count + 1 := by
    simp only [push, if_neg hfull, count]
    rw [← val_succ hd, sub_add_eq_add_sub]
  have hlast : q.tail + Fin.ofNat size q.count = q.head := by
    have : Fin.ofNat size q.count = q.head - q.tail := Fin.ext (Nat.mod_eq_of_lt q.count_lt)
    rw [this, add_sub_cancel]
  rw [if_neg hnot, toList, hcount, List.range_succ, List.map_append]
  simp only [push, if_neg hfull, List.map_cons, List.map_nil, hlast, Function.update_self]
  refine congrArg (· ++ [value]) (List.map_congr_left fun i hi => ?_)
  rw [List.mem_range] at hi
  refine Function.update_of_ne (fun heq => ?_) _ _
  -- The cell of an older value is not the one just filled.
  have hoff : Fin.ofNat size i = Fin.ofNat size q.count := add_left_cancel (heq.trans hlast.symm)
  have hval := congrArg Fin.val hoff
  simp only [Fin.val_ofNat, Nat.mod_eq_of_lt q.count_lt, Nat.mod_eq_of_lt (hi.trans q.count_lt)] at hval
  omega

/-- A pop takes the oldest value. -/
theorem toList_pop (q : Fifo α size) :
    (q.pop = none ∧ q.toList = []) ∨
      ∃ value q', q.pop = some (value, q') ∧ q.toList = value :: q'.toList := by
  by_cases hempty : q.tail = q.head
  · left
    exact ⟨if_pos hempty, q.isEmpty_iff.1 (by simp [isEmpty, hempty])⟩
  right
  refine ⟨_, _, if_neg hempty, ?_⟩
  have hd : q.head - (q.tail + 1) + 1 ≠ 0 := by
    rw [sub_add_eq_sub_sub, sub_add_cancel, Ne, sub_eq_zero]
    exact fun h => hempty h.symm
  have hcount : q.count = (Fifo.mk q.head (q.tail + 1) q.buffer).count + 1 := by
    simp only [count]
    rw [← val_succ hd, sub_add_eq_sub_sub, sub_add_cancel]
  rw [toList, hcount, List.range_succ_eq_map, List.map_cons, List.map_map]
  refine congrArg₂ List.cons ?_ (List.map_congr_left fun i _ => ?_)
  · rw [show Fin.ofNat size 0 = 0 from rfl, add_zero]
  · have hsucc : Fin.ofNat size (i + 1) = 1 + Fin.ofNat size i := by
      apply Fin.ext
      simp [Fin.val_add, Nat.add_comm]
    simp only [Function.comp_apply, hsucc, add_assoc]

/-- The oldest value is the one a peek shows. -/
theorem peek_eq_head? (q : Fifo α size) : q.peek = q.toList.head? := by
  obtain ⟨hpop, hlist⟩ | ⟨value, q', hpop, hlist⟩ := q.toList_pop
  · have hempty : q.tail = q.head := by
      by_contra hne
      rw [pop, if_neg hne] at hpop
      exact Option.some_ne_none _ hpop
    rw [hlist, peek, if_pos hempty.symm, List.head?_nil]
  · have hne : q.tail ≠ q.head := by
      intro hempty
      rw [pop, if_pos hempty] at hpop
      exact Option.some_ne_none _ hpop.symm
    rw [pop, if_neg hne] at hpop
    have hvalue : q.buffer q.tail = value := congrArg Prod.fst (Option.some_inj.1 hpop)
    rw [hlist, peek, if_neg hne.symm, hvalue, List.head?_cons]

/-- An unpush undoes a push: pushing the dropped value again gives the buffer back. -/
theorem toList_unpush (q : Fifo α size) :
    (q.unpush = none ∧ q.toList = []) ∨
      ∃ value q', q.unpush = some q' ∧ q.toList = q'.toList ++ [value] := by
  by_cases hempty : q.head = q.tail
  · left
    exact ⟨if_pos hempty, q.isEmpty_iff.1 (by simp [isEmpty, hempty])⟩
  right
  have hsucc : q.head - 1 + 1 = q.head := sub_add_cancel _ _
  have hroom : ({ q with head := q.head - 1 } : Fifo α size).head + 1 ≠ q.tail := by rwa [hsucc]
  refine ⟨q.buffer (q.head - 1), { q with head := q.head - 1 }, if_neg hempty, ?_⟩
  have hpush : ({ q with head := q.head - 1 } : Fifo α size).push (q.buffer (q.head - 1)) = q := by
    rw [push, if_neg hroom, Function.update_eq_self, hsucc]
  have hnot : ({ q with head := q.head - 1 } : Fifo α size).count + 1 ≠ size := by
    intro hfull
    rw [← isFull_iff, isFull, decide_eq_true_iff] at hfull
    exact hroom hfull
  have h := toList_push ({ q with head := q.head - 1 } : Fifo α size) (q.buffer (q.head - 1))
  rwa [hpush, if_neg hnot] at h

/-- An unpop puts its value in front unless the buffer is full. -/
theorem toList_unpop (q : Fifo α size) (value : α) :
    (q.unpop value = none ∧ q.count + 1 = size) ∨
      ∃ q', q.unpop value = some q' ∧ q.count + 1 ≠ size ∧ q'.toList = value :: q.toList := by
  have hfull : q.tail - 1 = q.head ↔ q.count + 1 = size := by
    rw [← isFull_iff, isFull, decide_eq_true_iff, sub_eq_iff_eq_add, eq_comm]
  by_cases heq : q.tail - 1 = q.head
  · exact .inl ⟨if_pos heq, hfull.1 heq⟩
  right
  have hne : q.count + 1 ≠ size := fun h => heq (hfull.2 h)
  refine ⟨_, if_neg heq, hne, ?_⟩
  have hcount : (Fifo.mk q.head (q.tail - 1) (Function.update q.buffer (q.tail - 1) value)).count =
      q.count + 1 := by
    have hd : q.head - q.tail + 1 ≠ 0 := by
      rw [sub_add_eq_add_sub, Ne, sub_eq_zero]
      intro h
      exact heq (by rw [← h, add_sub_cancel_right])
    simp only [count]
    rw [← val_succ hd, sub_sub_eq_add_sub, sub_add_eq_add_sub]
  have hlt := q.count_lt
  rw [toList, hcount, List.range_succ_eq_map, List.map_cons, List.map_map]
  refine congrArg₂ List.cons ?_ (List.map_congr_left fun i hi => ?_)
  · rw [show Fin.ofNat size 0 = 0 from rfl, add_zero]
    exact Function.update_self _ _ _
  rw [List.mem_range] at hi
  have hsucc : q.tail - 1 + Fin.ofNat size (i + 1) = q.tail + Fin.ofNat size i := by
    have : Fin.ofNat size (i + 1) = Fin.ofNat size i + 1 := by
      apply Fin.ext
      simp [Fin.val_add]
    rw [this]
    abel
  simp only [Function.comp_apply, hsucc]
  refine Function.update_of_ne (fun hcell => ?_) _ _
  -- The cell before the oldest value is `size - 1` cells after it, beyond the newest.
  have hlast : Fin.ofNat size i + 1 = 0 := by
    rw [← sub_eq_zero.2 hcell]
    abel
  have hval := congrArg Fin.val hlast
  rw [Fin.val_add, Fin.val_one', Fin.val_ofNat, Fin.val_zero, Nat.mod_eq_of_lt (hi.trans hlt),
    Nat.add_mod_mod] at hval
  have := Nat.le_of_dvd (Nat.succ_pos _) (Nat.dvd_of_mod_eq_zero hval)
  omega

theorem toList_clear (q : Fifo α size) : q.clear.toList = [] := by
  rw [← isEmpty_iff]
  simp [isEmpty, clear]

/-- Pushing some values keeps what fits. -/
theorem toList_foldl_push (q : Fifo α size) (values : List α) :
    (values.foldl push q).toList = q.toList ++ values.take (size - 1 - q.count) := by
  induction values generalizing q with
  | nil => simp
  | cons value values ih =>
    have hlt := q.count_lt
    rw [List.foldl_cons, ih, ← length_toList (q.push value), toList_push]
    by_cases hfull : q.count + 1 = size
    · have hroom : size - 1 - q.count = 0 := by omega
      simp [hfull, hroom]
    · have hroom : size - 1 - q.count = (size - 1 - (q.count + 1)) + 1 := by omega
      simp [hfull, hroom]

end Fifo

end NeoMmu
