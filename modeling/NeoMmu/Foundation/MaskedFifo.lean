import NeoMmu.Foundation.Fifo

/-!
# The 32-bit indices of a ring buffer

`FIFO<T, SIZE>` of `fifo.h` keeps its indices in 32-bit words and masks them after every step, which
is counting modulo a size that is a power of two. Below it stands the ring of `Foundation/Fifo.lean`,
whose indices cannot leave the buffer, and above it a queue with two ends and a capacity; every
sequence of calls answers as the queue does.
-/

namespace NeoMmu

variable {α : Type}

/-! ## A queue with two ends -/

/-- A list of at most `capacity` values, the oldest first. -/
structure Deque (α : Type) (capacity : Nat) where
  values : List α
  fits : values.length ≤ capacity

/-- The calls of a queue. -/
inductive QueueCall (α : Type) where
  | push (value : α)
  | pop
  | peek
  | unpush
  | unpop (value : α)
  | clear

/-- What a call returns, and the value it hands out. -/
structure QueueAnswer (α : Type) where
  ok : Bool
  value : Option α

namespace QueueAnswer

/-- The call failed. -/
def failed : QueueAnswer α := ⟨false, none⟩

/-- The call succeeded and hands nothing out. -/
def done : QueueAnswer α := ⟨true, none⟩

/-- The call succeeded with a value. -/
def found (value : α) : QueueAnswer α := ⟨true, some value⟩

end QueueAnswer

namespace Deque

open QueueAnswer

variable {capacity : Nat}

/-- No values. -/
def empty (α : Type) (capacity : Nat) : Deque α capacity := ⟨[], Nat.zero_le _⟩

theorem ext {d d' : Deque α capacity} (h : d.values = d'.values) : d = d' := by
  cases d
  cases d'
  congr

/-- What each call answers and leaves. -/
def apply (d : Deque α capacity) : QueueCall α → QueueAnswer α × Deque α capacity
  | .push value =>
    if h : d.values.length = capacity then (failed, d)
    else (done, ⟨d.values ++ [value], by have := d.fits; simp; omega⟩)
  | .pop =>
    match h : d.values with
    | [] => (failed, d)
    | value :: rest => (found value, ⟨rest, by have := d.fits; simp [h] at this; omega⟩)
  | .peek =>
    match d.values with
    | [] => (failed, d)
    | value :: _ => (found value, d)
  | .unpush =>
    if d.values = [] then (failed, d)
    else (done, ⟨d.values.dropLast, by have := d.fits; simp; omega⟩)
  | .unpop value =>
    if h : d.values.length = capacity then (failed, d)
    else (done, ⟨value :: d.values, by have := d.fits; simp; omega⟩)
  | .clear => (done, empty α capacity)

theorem apply_pop_of_eq {d : Deque α capacity} {value : α} {rest : List α} (h : d.values = value :: rest) :
    (d.apply .pop).1 = found value ∧ (d.apply .pop).2.values = rest := by
  obtain ⟨values, fits⟩ := d
  subst h
  exact ⟨rfl, rfl⟩

theorem apply_pop_of_nil {d : Deque α capacity} (h : d.values = []) : d.apply .pop = (failed, d) := by
  obtain ⟨values, fits⟩ := d
  subst h
  rfl

theorem apply_peek_eq (d : Deque α capacity) :
    d.apply .peek = (match d.values.head? with | none => failed | some value => found value, d) := by
  obtain ⟨values, fits⟩ := d
  cases values with
  | nil => rfl
  | cons value rest => rfl

/-- The queue after some calls. -/
def after (d : Deque α capacity) (calls : List (QueueCall α)) : Deque α capacity :=
  calls.foldl (fun d call => (d.apply call).2) d

end Deque

/-! ## The words -/

/-- `MASK` for `SIZE = 2 ^ k`. -/
def fifoMask (k : Fin 32) : UInt32 := UInt32.ofNat (2 ^ k.val) - 1

theorem two_pow_lt (k : Fin 32) : 2 ^ k.val < 2 ^ 32 := Nat.pow_lt_pow_right (by omega) k.isLt

/-- The size divides the range of a word, so masking survives a wrap of the word. -/
theorem two_pow_dvd (k : Fin 32) : 2 ^ k.val ∣ 2 ^ 32 := Nat.pow_dvd_pow 2 k.isLt.le

theorem toNat_and_fifoMask (k : Fin 32) (x : UInt32) : (x &&& fifoMask k).toNat = x.toNat % 2 ^ k.val := by
  have hsize : (UInt32.ofNat (2 ^ k.val)).toNat = 2 ^ k.val := UInt32.toNat_ofNat_of_lt' (two_pow_lt k)
  have hpos : 1 ≤ 2 ^ k.val := Nat.one_le_two_pow
  have hmask : (fifoMask k).toNat = 2 ^ k.val - 1 := by
    have hone : (1 : UInt32) ≤ UInt32.ofNat (2 ^ k.val) := by
      rwa [UInt32.le_iff_toNat_le, hsize]
    rw [fifoMask, UInt32.toNat_sub_of_le _ _ hone, hsize]
    rfl
  rw [UInt32.toNat_and, hmask, Nat.and_two_pow_sub_one_eq_mod]

theorem and_fifoMask_lt (k : Fin 32) (x : UInt32) : (x &&& fifoMask k).toNat < 2 ^ k.val := by
  rw [toNat_and_fifoMask]
  exact Nat.mod_lt _ (Nat.two_pow_pos _)

/-- `FIFO<T, SIZE>` for `SIZE = 2 ^ k`. -/
structure MaskedFifo (α : Type) (k : Fin 32) where
  head : UInt32
  tail : UInt32
  buffer : Fin (2 ^ k.val) → α
  head_lt : head.toNat < 2 ^ k.val
  tail_lt : tail.toNat < 2 ^ k.val

namespace MaskedFifo

open QueueAnswer

variable {k : Fin 32}

/-- The cell a masked word names. -/
def cell (k : Fin 32) (x : UInt32) : Fin (2 ^ k.val) := ⟨(x &&& fifoMask k).toNat, and_fifoMask_lt k x⟩

/-- The cell `buffer[head]`. -/
def headCell (q : MaskedFifo α k) : Fin (2 ^ k.val) := ⟨q.head.toNat, q.head_lt⟩

/-- The cell `buffer[tail]`. -/
def tailCell (q : MaskedFifo α k) : Fin (2 ^ k.val) := ⟨q.tail.toNat, q.tail_lt⟩

/-- A new FIFO: the indices are 0, and the cells hold what the memory held. -/
def initial (buffer : Fin (2 ^ k.val) → α) : MaskedFifo α k :=
  ⟨0, 0, buffer, Nat.two_pow_pos _, Nat.two_pow_pos _⟩

def clear (q : MaskedFifo α k) : MaskedFifo α k :=
  { q with head := 0, tail := 0, head_lt := Nat.two_pow_pos _, tail_lt := Nat.two_pow_pos _ }

def isEmpty (q : MaskedFifo α k) : Bool := q.head = q.tail

def isFull (q : MaskedFifo α k) : Bool := (q.head + 1) &&& fifoMask k = q.tail

def count (q : MaskedFifo α k) : UInt32 := (q.head - q.tail) &&& fifoMask k

/-- `EMPTY` -/
def statusEmpty : UInt8 := 1

/-- `FULL` -/
def statusFull : UInt8 := 2

/-- `DATA` -/
def statusData : UInt8 := 4

/-- `SPACE` -/
def statusSpace : UInt8 := 8

def status (q : MaskedFifo α k) : UInt8 :=
  (if q.head = q.tail then statusEmpty else statusData) |||
    (if (q.head + 1) &&& fifoMask k = q.tail then statusFull else statusSpace)

def push (q : MaskedFifo α k) (value : α) : QueueAnswer α × MaskedFifo α k :=
  let next := (q.head + 1) &&& fifoMask k
  if next = q.tail then (failed, q)
  else (done, { q with
    buffer := Function.update q.buffer q.headCell value
    head := next
    head_lt := and_fifoMask_lt k _ })

def pop (q : MaskedFifo α k) : QueueAnswer α × MaskedFifo α k :=
  if q.tail = q.head then (failed, q)
  else (found (q.buffer q.tailCell), { q with
    tail := (q.tail + 1) &&& fifoMask k
    tail_lt := and_fifoMask_lt k _ })

def peek (q : MaskedFifo α k) : QueueAnswer α :=
  if q.head = q.tail then failed else found (q.buffer q.tailCell)

def unpush (q : MaskedFifo α k) : QueueAnswer α × MaskedFifo α k :=
  if q.head = q.tail then (failed, q)
  else (done, { q with
    head := (q.head - 1) &&& fifoMask k
    head_lt := and_fifoMask_lt k _ })

def unpop (q : MaskedFifo α k) (value : α) : QueueAnswer α × MaskedFifo α k :=
  let prev := (q.tail - 1) &&& fifoMask k
  if prev = q.head then (failed, q)
  else (done, { q with
    tail := prev
    buffer := Function.update q.buffer (cell k (q.tail - 1)) value
    tail_lt := and_fifoMask_lt k _ })

/-- A call by its name. -/
def apply (q : MaskedFifo α k) : QueueCall α → QueueAnswer α × MaskedFifo α k
  | .push value => q.push value
  | .pop => q.pop
  | .peek => (q.peek, q)
  | .unpush => q.unpush
  | .unpop value => q.unpop value
  | .clear => (done, q.clear)

/-- The FIFO after some calls. -/
def after (q : MaskedFifo α k) (calls : List (QueueCall α)) : MaskedFifo α k :=
  calls.foldl (fun q call => (q.apply call).2) q

/-- The `count()` values from the tail to the head. -/
def contents (q : MaskedFifo α k) : List α :=
  (List.range q.count.toNat).map fun i => q.buffer (cell k (q.tail + UInt32.ofNat i))

/-! ## The ring under the words -/

/-- The indices as residues. -/
def ring (q : MaskedFifo α k) : Fifo α (2 ^ k.val) := ⟨q.headCell, q.tailCell, q.buffer⟩

@[simp] theorem val_cell (x : UInt32) : (cell k x).val = x.toNat % 2 ^ k.val := toNat_and_fifoMask k x

theorem cell_add (x y : UInt32) : cell k (x + y) = cell k x + cell k y := by
  apply Fin.ext
  rw [Fin.val_add, val_cell, val_cell, val_cell, UInt32.toNat_add, Nat.mod_mod_of_dvd _ (two_pow_dvd k),
    Nat.add_mod]

theorem cell_one : cell k 1 = 1 := by
  apply Fin.ext
  rw [Fin.val_one', val_cell]
  rfl

theorem cell_sub (x y : UInt32) : cell k (x - y) = cell k x - cell k y := by
  rw [eq_sub_iff_add_eq, ← cell_add, UInt32.sub_add_cancel]

theorem cell_of_lt {x : UInt32} (hx : x.toNat < 2 ^ k.val) : cell k x = ⟨x.toNat, hx⟩ := by
  apply Fin.ext
  rw [val_cell, Nat.mod_eq_of_lt hx]

theorem cell_head (q : MaskedFifo α k) : cell k q.head = q.headCell := cell_of_lt q.head_lt

theorem cell_tail (q : MaskedFifo α k) : cell k q.tail = q.tailCell := cell_of_lt q.tail_lt

/-- A masked word equals an index exactly when they name one cell. -/
theorem masked_eq_iff (x y : UInt32) (hy : y.toNat < 2 ^ k.val) : x &&& fifoMask k = y ↔ cell k x = ⟨y.toNat, hy⟩ := by
  rw [← UInt32.toNat_inj, Fin.ext_iff]
  rfl

theorem head_eq_tail_iff (q : MaskedFifo α k) : q.head = q.tail ↔ q.ring.head = q.ring.tail := by
  rw [← UInt32.toNat_inj, Fin.ext_iff]
  rfl

theorem next_eq_tail_iff (q : MaskedFifo α k) :
    (q.head + 1) &&& fifoMask k = q.tail ↔ q.ring.head + 1 = q.ring.tail := by
  rw [masked_eq_iff _ _ q.tail_lt, cell_add, cell_one, cell_head]
  rfl

theorem prev_eq_head_iff (q : MaskedFifo α k) :
    (q.tail - 1) &&& fifoMask k = q.head ↔ q.ring.tail - 1 = q.ring.head := by
  rw [masked_eq_iff _ _ q.head_lt, cell_sub, cell_one, cell_tail]
  rfl

theorem toNat_count (q : MaskedFifo α k) : q.count.toNat = q.ring.count := by
  have h := congrArg Fin.val (cell_sub (k := k) q.head q.tail)
  rw [cell_head, cell_tail] at h
  exact h

theorem contents_eq (q : MaskedFifo α k) : q.contents = q.ring.toList := by
  rw [contents, Fifo.toList, toNat_count]
  refine List.map_congr_left fun i hi => congrArg q.buffer ?_
  have hlt : i < 2 ^ 32 := (List.mem_range.1 hi).trans (q.ring.count_lt.trans (two_pow_lt k))
  have hcell : cell k (UInt32.ofNat i) = Fin.ofNat _ i := by
    apply Fin.ext
    rw [val_cell, UInt32.toNat_ofNat_of_lt' hlt, Fin.val_ofNat]
  rw [cell_add, cell_tail, hcell]
  rfl

theorem length_contents (q : MaskedFifo α k) : q.contents.length = q.ring.count := by
  rw [contents_eq, Fifo.length_toList]

/-- The queue the FIFO stands for. -/
def deque (q : MaskedFifo α k) : Deque α (2 ^ k.val - 1) :=
  ⟨q.contents, by rw [length_contents]; have := q.ring.count_lt; omega⟩

@[simp] theorem values_deque (q : MaskedFifo α k) : q.deque.values = q.ring.toList := q.contents_eq

theorem deque_eq_of_ring {q : MaskedFifo α k} {d : Deque α (2 ^ k.val - 1)} (h : q.ring.toList = d.values) :
    q.deque = d :=
  Deque.ext (q.contents_eq.trans h)

theorem full_iff_length (q : MaskedFifo α k) :
    q.ring.head + 1 = q.ring.tail ↔ q.deque.values.length = 2 ^ k.val - 1 := by
  have hfull := q.ring.isFull_iff
  rw [Fifo.isFull, decide_eq_true_iff] at hfull
  have hlt := q.ring.count_lt
  rw [hfull, values_deque, Fifo.length_toList]
  omega

theorem empty_iff_values (q : MaskedFifo α k) : q.ring.head = q.ring.tail ↔ q.deque.values = [] := by
  have hempty := q.ring.isEmpty_iff
  rw [Fifo.isEmpty, decide_eq_true_iff] at hempty
  rw [hempty, values_deque]

/-! ## The calls -/

theorem push_refines (q : MaskedFifo α k) (value : α) :
    (q.push value).1 = (q.deque.apply (.push value)).1 ∧
      (q.push value).2.deque = (q.deque.apply (.push value)).2 := by
  have hlist := q.ring.toList_push value
  by_cases hfull : q.deque.values.length = 2 ^ k.val - 1
  · rw [push, if_pos (q.next_eq_tail_iff.2 (q.full_iff_length.2 hfull)), Deque.apply, dif_pos hfull]
    exact ⟨rfl, rfl⟩
  have hroom := mt q.full_iff_length.1 hfull
  rw [push, if_neg (mt q.next_eq_tail_iff.1 hroom), Deque.apply, dif_neg hfull]
  refine ⟨rfl, deque_eq_of_ring ?_⟩
  have hnot : ¬ q.ring.count + 1 = 2 ^ k.val := fun h => hroom (by
    simpa [Fifo.isFull] using q.ring.isFull_iff.2 h)
  rw [if_neg hnot, ← values_deque] at hlist
  refine Eq.trans ?_ hlist
  rw [Fifo.push, if_neg hroom]
  refine congrArg Fifo.toList ?_
  simp only [ring, headCell]
  congr 1
  have hcell := cell_add (k := k) q.head 1
  rwa [cell_head, cell_one] at hcell

theorem pop_refines (q : MaskedFifo α k) :
    q.pop.1 = (q.deque.apply .pop).1 ∧ q.pop.2.deque = (q.deque.apply .pop).2 := by
  by_cases hempty : q.ring.head = q.ring.tail
  · rw [pop, if_pos (q.head_eq_tail_iff.2 hempty).symm, Deque.apply_pop_of_nil (q.empty_iff_values.1 hempty)]
    exact ⟨rfl, rfl⟩
  have hne : ¬ q.tail = q.head := fun h => hempty (q.head_eq_tail_iff.1 h.symm)
  have hpop : q.ring.pop = some (q.buffer q.tailCell, { q.ring with tail := q.ring.tail + 1 }) :=
    if_neg fun h => hempty h.symm
  obtain ⟨hnone, -⟩ | ⟨value, q', hsome, hlist⟩ := q.ring.toList_pop
  · rw [hpop] at hnone
    exact absurd hnone (Option.some_ne_none _)
  obtain ⟨rfl, rfl⟩ := Prod.mk.inj (Option.some_inj.1 (hpop.symm.trans hsome))
  obtain ⟨hfound, hrest⟩ := Deque.apply_pop_of_eq (d := q.deque) (q.values_deque.trans hlist)
  rw [pop, if_neg hne]
  refine ⟨hfound.symm, deque_eq_of_ring (Eq.trans (congrArg Fifo.toList ?_) hrest.symm)⟩
  have hcell := cell_add (k := k) q.tail 1
  rw [cell_tail, cell_one] at hcell
  exact congrArg (fun t => { q.ring with tail := t }) hcell

theorem peek_refines (q : MaskedFifo α k) : (q.peek, q.deque) = q.deque.apply .peek := by
  rw [Deque.apply_peek_eq, values_deque, ← Fifo.peek_eq_head?, Fifo.peek, peek]
  by_cases hempty : q.ring.head = q.ring.tail
  · rw [if_pos (q.head_eq_tail_iff.2 hempty), if_pos hempty]
  · rw [if_neg (mt q.head_eq_tail_iff.1 hempty), if_neg hempty]
    rfl

theorem unpush_refines (q : MaskedFifo α k) :
    q.unpush.1 = (q.deque.apply .unpush).1 ∧ q.unpush.2.deque = (q.deque.apply .unpush).2 := by
  by_cases hempty : q.ring.head = q.ring.tail
  · rw [unpush, if_pos (q.head_eq_tail_iff.2 hempty), Deque.apply, if_pos (q.empty_iff_values.1 hempty)]
    exact ⟨rfl, rfl⟩
  rw [unpush, if_neg (mt q.head_eq_tail_iff.1 hempty), Deque.apply, if_neg (mt q.empty_iff_values.2 hempty)]
  refine ⟨rfl, deque_eq_of_ring ?_⟩
  have hunpush : q.ring.unpush = some { q.ring with head := q.ring.head - 1 } := if_neg hempty
  obtain ⟨hnone, -⟩ | ⟨value, q', hsome, hlist⟩ := q.ring.toList_unpush
  · rw [hunpush] at hnone
    exact absurd hnone (Option.some_ne_none _)
  obtain rfl := Option.some_inj.1 (hunpush.symm.trans hsome)
  have hcell := cell_sub (k := k) q.head 1
  rw [cell_head, cell_one] at hcell
  have hvalues : q.deque.values.dropLast = Fifo.toList { q.ring with head := q.ring.head - 1 } := by
    rw [values_deque, hlist, List.dropLast_concat]
  exact (congrArg (fun h => Fifo.toList { q.ring with head := h }) hcell).trans hvalues.symm

theorem unpop_refines (q : MaskedFifo α k) (value : α) :
    (q.unpop value).1 = (q.deque.apply (.unpop value)).1 ∧
      (q.unpop value).2.deque = (q.deque.apply (.unpop value)).2 := by
  have hcell := cell_sub (k := k) q.tail 1
  rw [cell_tail, cell_one] at hcell
  have hiff : q.ring.tail - 1 = q.ring.head ↔ q.deque.values.length = 2 ^ k.val - 1 := by
    rw [← full_iff_length, sub_eq_iff_eq_add, eq_comm]
  by_cases hfull : q.ring.tail - 1 = q.ring.head
  · rw [unpop, if_pos (q.prev_eq_head_iff.2 hfull), Deque.apply, dif_pos (hiff.1 hfull)]
    exact ⟨rfl, rfl⟩
  rw [unpop, if_neg (mt q.prev_eq_head_iff.1 hfull), Deque.apply, dif_neg (mt hiff.2 hfull)]
  refine ⟨rfl, deque_eq_of_ring ?_⟩
  obtain ⟨hnone, -⟩ | ⟨q', hsome, -, hlist⟩ := q.ring.toList_unpop value
  · rw [Fifo.unpop, if_neg hfull] at hnone
    exact absurd hnone (Option.some_ne_none _)
  rw [Fifo.unpop, if_neg hfull] at hsome
  obtain rfl := Option.some_inj.1 hsome
  have hring : (⟨q.ring.head, cell k (q.tail - 1), Function.update q.buffer (cell k (q.tail - 1)) value⟩ :
      Fifo α (2 ^ k.val)).toList = value :: q.deque.values := by
    rw [values_deque, ← hlist, hcell]
    rfl
  exact hring

theorem clear_refines (q : MaskedFifo α k) : q.clear.deque = Deque.empty α _ :=
  deque_eq_of_ring q.ring.toList_clear

theorem apply_refines (q : MaskedFifo α k) (call : QueueCall α) :
    (q.apply call).1 = (q.deque.apply call).1 ∧ (q.apply call).2.deque = (q.deque.apply call).2 := by
  cases call with
  | push value => exact q.push_refines value
  | pop => exact q.pop_refines
  | peek => exact Prod.mk.inj q.peek_refines
  | unpush => exact q.unpush_refines
  | unpop value => exact q.unpop_refines value
  | clear => exact ⟨rfl, q.clear_refines⟩

/-- A call that fails leaves the words and the cells as they were. -/
theorem apply_of_failed (q : MaskedFifo α k) (call : QueueCall α) (h : (q.apply call).1.ok = false) :
    (q.apply call).2 = q := by
  cases call with
  | peek => rfl
  | clear => exact Bool.noConfusion h
  | push value | pop | unpush | unpop value =>
    simp only [apply, push, pop, unpush, unpop] at h ⊢
    split at h
    case isTrue hc => rw [if_pos hc]
    case isFalse => exact Bool.noConfusion h

theorem initial_refines (buffer : Fin (2 ^ k.val) → α) : (initial buffer).deque = Deque.empty α _ :=
  (initial buffer).clear_refines

theorem after_refines (q : MaskedFifo α k) (calls : List (QueueCall α)) :
    (q.after calls).deque = q.deque.after calls := by
  induction calls generalizing q with
  | nil => rfl
  | cons call calls ih =>
    rw [after, Deque.after, List.foldl_cons, List.foldl_cons, ← (q.apply_refines call).2]
    exact ih (q.apply call).2

end MaskedFifo

/-- From a new FIFO any sequence of calls answers as a queue of `SIZE - 1` values does, and leaves its values. -/
theorem fifo_refines_deque (k : Fin 32) (buffer : Fin (2 ^ k.val) → α) (calls : List (QueueCall α)) :
    let q := (MaskedFifo.initial buffer).after calls
    let d := (Deque.empty α (2 ^ k.val - 1)).after calls
    q.contents = d.values ∧
    (∀ call, (q.apply call).1 = (d.apply call).1 ∧ (q.apply call).2.contents = (d.apply call).2.values ∧
      ((q.apply call).1.ok = false → (q.apply call).2 = q)) ∧
    (q.isEmpty = true ↔ d.values = []) ∧
    (q.isFull = true ↔ d.values.length = 2 ^ k.val - 1) ∧
    q.count.toNat = d.values.length ∧
    q.status = (if d.values = [] then MaskedFifo.statusEmpty else MaskedFifo.statusData) |||
      (if d.values.length = 2 ^ k.val - 1 then MaskedFifo.statusFull else MaskedFifo.statusSpace) := by
  intro q d
  have hd : q.deque = d := by
    rw [MaskedFifo.after_refines, MaskedFifo.initial_refines]
  have hempty : q.head = q.tail ↔ d.values = [] := by
    rw [q.head_eq_tail_iff, q.empty_iff_values, hd]
  have hfull : (q.head + 1) &&& fifoMask k = q.tail ↔ d.values.length = 2 ^ k.val - 1 := by
    rw [q.next_eq_tail_iff, q.full_iff_length, hd]
  refine ⟨congrArg Deque.values hd, fun call => ?_, ?_, ?_, ?_, ?_⟩
  · obtain ⟨hanswer, hleft⟩ := q.apply_refines call
    rw [hd] at hanswer hleft
    exact ⟨hanswer, congrArg Deque.values hleft, q.apply_of_failed call⟩
  · rw [MaskedFifo.isEmpty, decide_eq_true_iff, hempty]
  · rw [MaskedFifo.isFull, decide_eq_true_iff, hfull]
  · rw [q.toNat_count, ← q.length_contents]
    exact congrArg (fun d => d.values.length) hd
  · rw [MaskedFifo.status, if_congr hempty rfl rfl, if_congr hfull rfl rfl]

/-- A FIFO of one cell has no room: it is empty and full at once. -/
example : (MaskedFifo.initial (k := 0) fun _ => ()).status = MaskedFifo.statusEmpty ||| MaskedFifo.statusFull := by
  decide

end NeoMmu
