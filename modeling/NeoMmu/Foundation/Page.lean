import Mathlib.Data.List.DropRight
import Mathlib.Data.List.Basic

/-!
# Pages of text

A page has `height` lines of `width` cells, a cursor inside it, and the choice whether a typed cell is inserted or
overwrites. The edits are those of lists: a line is changed by `List.set`, `List.insertIdx` and the like, a scroll
drops the first line. Lines and pages that are given cell by cell are lists `tabulate n f`.
-/

namespace NeoMmu

/-! ## Lists given by their elements -/

/-- `f 0`, …, `f (n - 1)` -/
def tabulate {α : Type*} (n : Nat) (f : Nat → α) : List α := (List.range n).map f

section Tabulate

variable {α : Type*} {n i : Nat} {f : Nat → α} {a : α}

@[simp] theorem length_tabulate (n : Nat) (f : Nat → α) : (tabulate n f).length = n := by
  rw [tabulate, List.length_map, List.length_range]

@[simp] theorem getElem_tabulate (h : i < (tabulate n f).length) : (tabulate n f)[i] = f i := by
  simp [tabulate]

theorem eq_tabulate {l : List α} (hlength : l.length = n) (h : ∀ i (hi : i < l.length), l[i] = f i) :
    l = tabulate n f :=
  List.ext_getElem (by rw [hlength, length_tabulate]) fun i hi hi' => by rw [h i hi, getElem_tabulate]

theorem tabulate_congr {g : Nat → α} (h : ∀ i < n, f i = g i) : tabulate n f = tabulate n g :=
  List.map_congr_left fun i hi => h i (List.mem_range.1 hi)

theorem tabulate_succ (n : Nat) (f : Nat → α) : tabulate (n + 1) f = tabulate n f ++ [f n] := by
  rw [tabulate, List.range_succ, List.map_append]
  rfl

theorem replicate_eq_tabulate (n : Nat) (a : α) : List.replicate n a = tabulate n fun _ => a := by
  apply eq_tabulate
  · rw [List.length_replicate]
  · simp

theorem set_tabulate : (tabulate n f).set i a = tabulate n fun j => if j = i then a else f j := by
  apply eq_tabulate
  · simp
  · intro j hj
    rw [List.getElem_set, getElem_tabulate]
    simp only [eq_comm]

theorem insertIdx_tabulate (hi : i < n) : ((tabulate n f).insertIdx i a).dropLast =
    tabulate n fun j => if j < i then f j else if j = i then a else f (j - 1) := by
  apply eq_tabulate
  · rw [List.length_dropLast, List.length_insertIdx_of_le_length, length_tabulate, Nat.add_sub_cancel]
    rw [length_tabulate]
    exact hi.le
  · intro j hj
    rw [List.getElem_dropLast, List.getElem_insertIdx]
    split
    · rw [getElem_tabulate]
    · split <;> simp

theorem eraseIdx_tabulate (hi : i < n) : (tabulate n f).eraseIdx i ++ [a] =
    tabulate n fun j => if j < i then f j else if j + 1 < n then f (j + 1) else a := by
  have hlength : ((tabulate n f).eraseIdx i).length = n - 1 := by
    rw [List.length_eraseIdx_of_lt (by rwa [length_tabulate]), length_tabulate]
  apply eq_tabulate
  · rw [List.length_append, hlength, List.length_singleton]
    omega
  · intro j hj
    rw [List.getElem_append]
    split
    · rename_i hj
      rw [List.getElem_eraseIdx]
      split
      · rw [getElem_tabulate]
      · rw [getElem_tabulate, if_pos (by omega)]
    · rw [if_neg (by omega), if_neg (by omega), List.getElem_singleton]

theorem take_tabulate (hi : i ≤ n) : (tabulate n f).take i ++ List.replicate (n - i) a =
    tabulate n fun j => if j < i then f j else a := by
  have hlength : ((tabulate n f).take i).length = i := by
    rw [List.length_take, length_tabulate, min_eq_left hi]
  apply eq_tabulate
  · rw [List.length_append, hlength, List.length_replicate]
    omega
  · intro j hj
    rw [List.getElem_append]
    split
    · rename_i hj
      rw [List.getElem_take, getElem_tabulate, if_pos (by omega)]
    · rw [if_neg (by omega), List.getElem_replicate]

theorem tail_tabulate (hn : 0 < n) : (tabulate n f).tail ++ [a] =
    tabulate n fun j => if j + 1 < n then f (j + 1) else a := by
  have herase := eraseIdx_tabulate (f := f) (a := a) hn
  rw [List.eraseIdx_zero] at herase
  rw [herase]
  exact tabulate_congr fun j _ => if_neg (Nat.not_lt_zero j)

theorem modify_tabulate (g : α → α) : (tabulate n f).modify i g =
    tabulate n fun j => if j = i then g (f j) else f j := by
  apply eq_tabulate
  · simp
  · intro j hj
    rw [List.getElem_modify, getElem_tabulate]
    simp only [eq_comm]

/-- The length of a list without the elements of `p` at its end. -/
theorem length_rdropWhile_tabulate_succ (p : α → Bool) (n : Nat) (f : Nat → α) :
    ((tabulate (n + 1) f).rdropWhile p).length =
      if p (f n) then ((tabulate n f).rdropWhile p).length else n + 1 := by
  rw [tabulate_succ, List.rdropWhile_concat]
  split
  · rfl
  · simp

end Tabulate

/-! ## Pages -/

/-- A page of text, with its cursor. -/
@[ext]
structure Page (α : Type*) (height width : Nat) where
  lines : List (List α)
  row : Nat
  col : Nat
  /-- What is typed is inserted. -/
  insert : Bool
  length_lines : lines.length = height
  length_line : ∀ line ∈ lines, line.length = width
  row_lt : row < height
  col_lt : col < width

namespace Page

variable {α : Type*} {height width : Nat} (p : Page α height width)

/-- The page with the cursor elsewhere. -/
def place (row col : Nat) (hrow : row < height) (hcol : col < width) : Page α height width where
  __ := p
  row := row
  col := col
  row_lt := hrow
  col_lt := hcol

/-- The page with an edit of the line under the cursor. -/
def editLine (f : List α → List α) (hf : ∀ line : List α, line.length = width → (f line).length = width) :
    Page α height width where
  __ := p
  lines := p.lines.modify p.row f
  length_lines := by rw [List.length_modify, p.length_lines]
  length_line line hline := by
    obtain ⟨i, hi, rfl⟩ := List.getElem_of_mem hline
    rw [List.length_modify] at hi
    rw [List.getElem_modify]
    split
    · exact hf _ (p.length_line _ (List.getElem_mem hi))
    · exact p.length_line _ (List.getElem_mem hi)

def left : Page α height width := p.place p.row (p.col - 1) p.row_lt ((Nat.sub_le _ 1).trans_lt p.col_lt)

def up : Page α height width := p.place (p.row - 1) p.col ((Nat.sub_le _ 1).trans_lt p.row_lt) p.col_lt

/-- To the right, at most to the last column. -/
def right : Page α height width :=
  p.place p.row (min (p.col + 1) (width - 1)) p.row_lt (by have := p.col_lt; omega)

/-- Down, at most to the last row. -/
def down : Page α height width :=
  p.place (min (p.row + 1) (height - 1)) p.col (by have := p.row_lt; omega) p.col_lt

def lineStart : Page α height width := p.place p.row 0 p.row_lt (by have := p.col_lt; omega)

/-- Behind the last cell of the line that is not blank, at most to the last column. -/
def lineEnd (isBlank : α → Bool) : Page α height width :=
  p.place p.row (min (((p.lines[p.row]?).getD []).rdropWhile isBlank).length (width - 1)) p.row_lt
    (by have := p.col_lt; omega)

def setInsert (insert : Bool) : Page α height width := { p with insert := insert }

/-- A cell instead of the one under the cursor. -/
def overwrite (a : α) : Page α height width :=
  p.editLine (fun line => line.set p.col a) fun line hline => by rw [List.length_set, hline]

/-- A cell before the one under the cursor. The line loses its last one. -/
def insertCell (a : α) : Page α height width :=
  p.editLine (fun line => (line.insertIdx p.col a).dropLast) fun line hline => by
    rw [List.length_dropLast, List.length_insertIdx_of_le_length (hline ▸ p.col_lt.le), hline, Nat.add_sub_cancel]

/-- The line without the cell under the cursor, with a blank one at its end. -/
def deleteCell (blank : α) : Page α height width :=
  p.editLine (fun line => line.eraseIdx p.col ++ [blank]) fun line hline => by
    have hcol := p.col_lt
    rw [List.length_append, List.length_eraseIdx_of_lt (hline ▸ hcol), hline, List.length_singleton]
    omega

/-- The line with blank cells from the cursor on. -/
def clearLineEnd (blank : α) : Page α height width :=
  p.editLine (fun line => line.take p.col ++ List.replicate (width - p.col) blank) fun line hline => by
    have hcol := p.col_lt
    rw [List.length_append, List.length_take, List.length_replicate, hline]
    omega

/-- A cell is typed. -/
def type (a : α) : Page α height width := ((if p.insert then p.insertCell a else p).overwrite a).right

/-- A blank page, with the cursor in its first cell. -/
def clear (blank : α) : Page α height width where
  __ := p
  lines := List.replicate height (List.replicate width blank)
  row := 0
  col := 0
  length_lines := List.length_replicate
  length_line line hline := by rw [List.eq_of_mem_replicate hline, List.length_replicate]
  row_lt := by have := p.row_lt; omega
  col_lt := by have := p.col_lt; omega

/-- The page without its first line, and with a blank one at its end. -/
def scroll (blank : α) : Page α height width where
  __ := p
  lines := p.lines.tail ++ [List.replicate width blank]
  length_lines := by
    have hrow := p.row_lt
    rw [List.length_append, List.length_tail, p.length_lines, List.length_singleton]
    omega
  length_line line hline := by
    rw [List.mem_append, List.mem_singleton] at hline
    rcases hline with hline | rfl
    · exact p.length_line line (List.mem_of_mem_tail hline)
    · exact List.length_replicate

/-- To the begin of the next row. In the last row a page that scrolls makes room for it. -/
def newline (scrolls : Bool) (blank : α) : Page α height width :=
  if p.row + 1 < height then p.down.lineStart
  else if scrolls then (p.scroll blank).lineStart else p.lineStart

end Page

end NeoMmu
