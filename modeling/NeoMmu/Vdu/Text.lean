import NeoMmu.Vdu.Display

/-!
# The text behind the display

What the functions of `vdu.cpp` do to the text buffer, the cursor and the scrolling, without what is drawn:
whether the cursor or the mouse pointer is on the screen makes no difference to them. Every function has its
effect on the text, as one equation.
-/

namespace NeoMmu

open Prog (now update event when Triple)

/-- The statics apart from those of the drawing. -/
structure VduText where
  mode : Fin NUMBER_OF_MODES
  row : Nat
  col : Nat
  savedRow : Nat
  savedCol : Nat
  gScreen : Nat → Nat → VduCell
  gInEditmode : Bool
  currentColor : UInt8
  currentBGColor : UInt8
  gInsertMode : Bool
  gAsScreenMode : Bool
  smoothScroll : Bool
  scrollActive : Bool
  scrollPixel : Nat
  pendingCursorRow : Int

/-- The text of a display. -/
def Vdu.text (s : Vdu) : VduText where
  mode := s.mode
  row := s.gCursor.row
  col := s.gCursor.col
  savedRow := s.gSaveCursor.row
  savedCol := s.gSaveCursor.col
  gScreen := s.gScreen
  gInEditmode := s.gInEditmode
  currentColor := s.currentColor
  currentBGColor := s.currentBGColor
  gInsertMode := s.gInsertMode
  gAsScreenMode := s.gAsScreenMode
  smoothScroll := s.smoothScroll
  scrollActive := s.scrollActive
  scrollPixel := s.scrollPixel
  pendingCursorRow := s.pendingCursorRow

/-! ## Effects on the text -/

namespace VduText

variable (x : VduText)

/-- `*vduMode` -/
def vduMode : VduMode := vduModes.get x.mode

/-- A space in the colors of the text. -/
def blank : VduCell := ⟨' '.toUInt8, x.currentColor, x.currentBGColor⟩

/-- Some cells of a row are written. -/
def fill (row col n : Nat) (cell : VduCell) : VduText := { x with
  gScreen := fun r c => if r = row ∧ col ≤ c ∧ c < col + n then cell else x.gScreen r c }

/-- Some cells of a row are copied. -/
def copy (dst src : Nat × Nat) (n : Nat) : VduText := { x with
  gScreen := fun r c =>
    if r = dst.1 ∧ dst.2 ≤ c ∧ c < dst.2 + n then x.gScreen src.1 (src.2 + (c - dst.2)) else x.gScreen r c }

/-- The screen with another buffer. -/
def withScreen (g : Nat → Nat → VduCell) : VduText := { x with gScreen := g }

/-- Every cell is blank. -/
def clear : VduText := { x with
  gScreen := fun r c => if r < ROWS ∧ c < COLS then x.blank else x.gScreen r c }

/-- The rows move up, and the last one is blank. -/
def rotate : VduText := { x with
  gScreen := fun r c =>
    if r < ROWS - 1 ∧ c < COLS then x.gScreen (r + 1) c
    else if r = ROWS - 1 ∧ c < COLS then x.blank else x.gScreen r c }

/-- The cursor is set, inside the screen. -/
def move (col row : Nat) : VduText := { x with
  col := if col < COLS then col else COLS - 1
  row := if row < ROWS then row else ROWS - 1 }

/-- A row that waits for the cursor is set. -/
def arrive : VduText :=
  if 0 ≤ x.pendingCursorRow then { x with row := x.pendingCursorRow.toNat, pendingCursorRow := -1 } else x

/-- The end of a scroll. -/
def scrollRow : VduText := x.rotate.arrive

/-- A scroll by a row, or the begin of one. -/
def scrollUp : VduText :=
  if x.smoothScroll then { x with scrollPixel := 0, scrollActive := true } else x.scrollRow

/-- A scanline of a smooth scroll. -/
def scrollStep : VduText :=
  if x.scrollPixel + 1 = FONT_CELL_HEIGHT then
    scrollRow { x with scrollPixel := 0, scrollActive := false }
  else { x with scrollPixel := x.scrollPixel + 1 }

/-- A new line. -/
def newline : VduText :=
  if x.row + 1 < ROWS then { x with col := 0, row := x.row + 1 }
  else if x.vduMode.autoScroll then
    scrollUp { x with col := 0, row := x.row + 1, pendingCursorRow := ROWS - 1 }
  else { x with col := 0, row := ROWS - 1 }

/-- The place of the cursor is saved. -/
def save : VduText := { x with savedRow := x.row, savedCol := x.col, gInEditmode := true }

/-- The cursor goes to the row behind the saved one, or to the saved one when it has left it. -/
def restore : VduText :=
  if x.gInEditmode then
    { (if x.savedRow = x.row then
        if x.savedRow = ROWS - 1 then x.scrollUp.move 0 (ROWS - 1) else x.move 0 (x.savedRow + 1)
      else x.move 0 x.savedRow) with gInEditmode := false }
  else x

/-- The cursor goes to the left. -/
def left : VduText := if 0 < x.col then { x with col := x.col - 1 } else x

/-- The cell under the cursor is taken out of its row. -/
def delete : VduText :=
  (x.copy (x.row, x.col) (x.row, x.col + 1) (COLS - x.col - 1)).fill x.row (COLS - 1) 1 x.blank

/-- A character is put into the row. -/
def insert (c : UInt8) : VduText :=
  (x.copy (x.row, x.col + 1) (x.row, x.col) (COLS - x.col - 1)).fill x.row x.col 1 { x.blank with ch := c }

/-- A character is written over the cell under the cursor. -/
def overwrite (c : UInt8) : VduText :=
  if 0x20 ≤ c then x.fill x.row x.col 1 { x.blank with ch := c } else x

/-- The column behind the last character before column `n` that is not a space. -/
def lineEnd : Nat → Nat
  | 0 => 0
  | c + 1 =>
    if (x.gScreen x.row c).ch ≠ ' '.toUInt8 then if COLS ≤ c + 1 then COLS - 1 else c + 1 else lineEnd c

/-- The cursor goes to the right behind a character. -/
def advance : VduText := { x with col := if COLS ≤ x.col + 1 then COLS - 1 else x.col + 1 }

/-- The commands of the control characters. -/
def control (c : UInt8) : VduText :=
  match c with
  | 0x01 => { x with col := 0 }
  | 0x02 => x.left
  | 0x04 => x.delete
  | 0x05 => { x with col := x.lineEnd COLS }
  | 0x06 => if x.col < COLS - 1 then { x with col := x.col + 1 } else x
  | 0x09 => { x with gInsertMode := true }
  | 0x0B => x.fill x.row x.col (COLS - x.col) x.blank
  | 0x0C => x.clear.move 0 0
  | 0x0E => if x.row < ROWS - 1 then { x with row := x.row + 1 } else x
  | 0x0F => { x with gInsertMode := false }
  | 0x10 => if 0 < x.row then { x with row := x.row - 1 } else x
  | 0x14 => { x with smoothScroll := false }
  | 0x15 => { x with smoothScroll := true }
  | _ => x

/-- A control character of the screen editor, or a character of the text. -/
def regular (c : UInt8) : VduText :=
  if c < 0x20 ∧ x.gAsScreenMode = true then x.control c
  else ((if x.gInsertMode = true ∧ x.gAsScreenMode = true then x.insert c else x).overwrite c).advance

/-- A byte in a text mode. -/
def putSwitch (c : UInt8) : VduText :=
  match c with
  | 0x00 => x
  | 0x0D | 0x0A => x.newline.save
  | 0x08 | 0x7F => x.left
  | c => x.regular c

/-- A byte. -/
def put (c : UInt8) : VduText := if x.vduMode.textMode then x.putSwitch c else x

end VduText

/-! ## Drawing -/

/-- The text has not changed. -/
def SameText (t t' : Traced Vdu (Nat × Nat)) : Prop := t'.now.text = t.now.text

instance : Std.Refl SameText := ⟨fun _ => rfl⟩

instance : IsTrans (Traced Vdu (Nat × Nat)) SameText := ⟨fun _ _ _ h h' => h'.trans h⟩

theorem sameText_event (cell : Nat × Nat) : Prog.Keeps SameText (event cell) := fun _ => rfl

theorem sameText_touchCells (cells : List (Nat × Nat)) : Prog.Keeps SameText (touchCells cells) :=
  Prog.Keeps.forM fun cell _ => sameText_event cell

theorem sameText_vduDrawCellPreservingCursor (col row : Nat) :
    Prog.Keeps SameText (vduDrawCellPreservingCursor col row) := by
  refine Prog.Keeps.now.bind fun s => Prog.Keeps.ite (fun _ => sameText_event _) fun _ => ?_
  refine (sameText_event _).bind fun _ => ?_
  cases s.gCursor.shape with
  | cBLOCK => exact Prog.Keeps.pure ()
  | cUNDERLINE => exact sameText_event _

theorem sameText_vduMouseHideOverlay : Prog.Keeps SameText vduMouseHideOverlay := by
  refine Prog.Keeps.now.bind fun s => Prog.Keeps.when fun _ => Prog.Keeps.bind ?_ fun _ => fun _ => rfl
  refine Prog.Keeps.now.bind fun s => Prog.Keeps.ite (fun _ => ?_) fun _ => Prog.Keeps.pure ()
  exact Prog.Keeps.forM fun row _ => Prog.Keeps.forM fun col _ => sameText_vduDrawCellPreservingCursor col row

theorem sameText_vduMouseDrawOverlay : Prog.Keeps SameText vduMouseDrawOverlay := by
  refine Prog.Keeps.update fun t => ?_
  show Vdu.text (if _ then _ else _) = _
  split <;> rfl

theorem sameText_vduMouseHideForVduUpdate : Prog.Keeps SameText vduMouseHideForVduUpdate := by
  refine Prog.Keeps.now.bind fun s => Prog.Keeps.bind (fun _ => rfl) fun _ => ?_
  exact Prog.Keeps.when fun _ => sameText_vduMouseHideOverlay

theorem sameText_vduMouseShowAfterVduUpdate : Prog.Keeps SameText vduMouseShowAfterVduUpdate := by
  refine Prog.Keeps.now.bind fun s => Prog.Keeps.when fun _ => Prog.Keeps.bind (fun _ => rfl) fun _ => ?_
  exact Prog.Keeps.when fun _ => sameText_vduMouseDrawOverlay

theorem sameText_showCursor : Prog.Keeps SameText showCursor :=
  Prog.Keeps.now.bind fun _ => Prog.Keeps.when fun _ => (sameText_event _).bind fun _ => fun _ => rfl

theorem sameText_hideCursor : Prog.Keeps SameText hideCursor :=
  Prog.Keeps.now.bind fun _ => Prog.Keeps.when fun _ =>
    (sameText_event _).bind fun _ => (sameText_event _).bind fun _ => fun _ => rfl

theorem sameText_setCursor (vShow : Bool) : Prog.Keeps SameText (setCursor vShow) := by
  refine sameText_vduMouseHideForVduUpdate.bind fun _ => Prog.Keeps.now.bind fun s => ?_
  refine Prog.Keeps.bind (Prog.Keeps.when fun _ => Prog.Keeps.bind (fun _ => rfl) fun _ => ?_) fun _ =>
    sameText_vduMouseShowAfterVduUpdate
  exact Prog.Keeps.ite (fun _ => sameText_showCursor) fun _ => sameText_hideCursor

/-! ## Effects of the functions -/

/-- From the text `x` the program comes to the text `y`. -/
abbrev Edits (x : VduText) (m : VduProg Unit) (y : VduText) : Prop :=
  Triple (fun _ => True) (fun s => s.text = x) m fun s => s.text = y

section Effects

variable {x y : VduText}

/-- What only draws leaves the text. -/
theorem edits_of_sameText {m : VduProg Unit} (h : Prog.Keeps SameText m) : Edits x m x :=
  fun t ht => ⟨(h t).trans ht, fun _ _ _ => trivial⟩

/-- It keeps every condition on the text. -/
theorem triple_and_text {α : Type} {P : Nat × Nat → Prop} {I J : Vdu → Prop} {m : VduProg α}
    (h : Triple P I m J) (hm : Prog.Keeps SameText m) (Q : VduText → Prop) :
    Triple P (fun s => I s ∧ Q s.text) m fun s => J s ∧ Q s.text := by
  intro t ht
  obtain ⟨hpost, hall⟩ := h t ht.1
  exact ⟨⟨hpost, (hm t).symm ▸ ht.2⟩, hall⟩

theorem edits_fillCells (row col n : Nat) (cell : VduCell) :
    Edits x (fillCells row col n cell) (x.fill row col n cell) := by
  refine (edits_of_sameText (sameText_touchCells _)).bind fun _ => Triple.update ?_
  rintro s rfl
  rfl

theorem edits_moveCells (dst src : Nat × Nat) (n : Nat) : Edits x (moveCells dst src n) (x.copy dst src n) := by
  refine (edits_of_sameText (sameText_touchCells _)).bind fun _ =>
    (edits_of_sameText (sameText_touchCells _)).bind fun _ => Triple.update ?_
  rintro s rfl
  rfl

/-- The effect of a loop is that of its bodies, one after the other. -/
theorem edits_forM {A : Type} {f : A → VduProg Unit} {F : VduText → A → VduText}
    (hf : ∀ a x, Edits x (f a) (F x a)) (l : List A) : Edits x (List.forM l f) (l.foldl F x) := by
  induction l generalizing x with
  | nil => exact edits_of_sameText (Prog.Keeps.pure ())
  | cons a l ih => exact (hf a x).bind fun _ => ih

/-- The first `n` rows are written. -/
theorem foldl_fill (x : VduText) (cell : VduCell) (n : Nat) :
    (List.range n).foldl (fun y r => y.fill r 0 COLS cell) x =
      x.withScreen fun r c => if r < n ∧ c < COLS then cell else x.gScreen r c := by
  induction n with
  | zero => simp [VduText.withScreen]
  | succ n ih =>
    rw [List.range_succ, List.foldl_append, ih, List.foldl_cons, List.foldl_nil]
    refine congrArg x.withScreen (funext fun r => funext fun c => ?_)
    simp only [VduText.withScreen]
    split_ifs <;> first | rfl | omega

/-- The first `n` rows are taken from those below. -/
theorem foldl_copy (x : VduText) (n : Nat) :
    (List.range n).foldl (fun y r => y.copy (r, 0) (r + 1, 0) COLS) x =
      x.withScreen fun r c => if r < n ∧ c < COLS then x.gScreen (r + 1) c else x.gScreen r c := by
  induction n with
  | zero => simp [VduText.withScreen]
  | succ n ih =>
    rw [List.range_succ, List.foldl_append, ih, List.foldl_cons, List.foldl_nil]
    refine congrArg x.withScreen (funext fun r => funext fun c => ?_)
    simp only [VduText.withScreen]
    split_ifs
    all_goals first
      | rfl
      | omega
      | obtain ⟨rfl, -, -⟩ := ‹r = n ∧ _›
        simp

theorem edits_initTextbuffer : Edits x initTextbuffer x.clear := by
  refine Triple.look fun s hs => ?_
  have h := edits_forM (fun r x => edits_fillCells (x := x) r 0 COLS s.blank) (List.range ROWS) (x := x)
  rw [foldl_fill] at h
  rw [← hs] at h ⊢
  exact h

theorem fill_rotate (x : VduText) :
    (x.withScreen fun r c => if r < ROWS - 1 ∧ c < COLS then x.gScreen (r + 1) c else x.gScreen r c).fill
      (ROWS - 1) 0 COLS x.blank = x.rotate := by
  refine congrArg x.withScreen (funext fun r => funext fun c => ?_)
  simp only [VduText.withScreen]
  split_ifs <;> first | rfl | omega

theorem edits_rotateTextbuffer : Edits x rotateTextbuffer x.rotate := by
  have h := edits_forM (fun r x => edits_moveCells (x := x) (r, 0) (r + 1, 0) COLS) (List.range (ROWS - 1))
    (x := x)
  rw [foldl_copy] at h
  refine h.bind fun _ => Triple.look fun s hs => ?_
  have hblank : s.blank = x.blank := congrArg VduText.blank hs
  rw [hblank, ← fill_rotate]
  exact edits_fillCells _ _ _ _

theorem edits_moveCursor (col row : Nat) : Edits x (moveCursor col row) (x.move col row) := by
  refine (edits_of_sameText sameText_vduMouseHideForVduUpdate).bind fun _ => Triple.look fun s hs => ?_
  refine (edits_of_sameText (Prog.Keeps.when fun _ => sameText_hideCursor)).bind fun _ => ?_
  refine Triple.bind (K := fun s => s.text = x.move col row) (Triple.update ?_) fun _ => ?_
  · rintro s rfl
    rfl
  exact (edits_of_sameText (Prog.Keeps.when fun _ => sameText_showCursor)).bind fun _ =>
    edits_of_sameText sameText_vduMouseShowAfterVduUpdate

theorem edits_scrollRow : Edits x scrollRow x.scrollRow := by
  refine edits_rotateTextbuffer.bind fun _ => ?_
  refine Triple.bind (K := fun s => s.text = x.scrollRow) (Triple.update fun s hs => ?_) fun _ => ?_
  · rw [VduText.scrollRow, ← hs, VduText.arrive]
    split <;> split <;> first | rfl | contradiction
  refine (edits_of_sameText (sameText_touchCells _)).bind fun _ => ?_
  refine Triple.bind (K := fun s => s.text = x.scrollRow) (Triple.update ?_) fun _ => ?_
  · rintro s hs
    exact hs
  · exact edits_of_sameText sameText_showCursor

theorem edits_scrollStep : Edits x scrollStep x.scrollStep := by
  refine (edits_of_sameText sameText_vduMouseHideForVduUpdate).bind fun _ => ?_
  refine Triple.bind (K := fun s => s.text = { x with scrollPixel := x.scrollPixel + 1 }) (Triple.update ?_)
    fun _ => Triple.look fun s hs => ?_
  · rintro s rfl
    rfl
  have hpixel : s.scrollPixel = x.scrollPixel + 1 := congrArg VduText.scrollPixel hs
  refine Triple.bind (K := fun s => s.text = x.scrollStep) (Triple.when (fun hlast => ?_) fun hmore s hs => ?_)
    fun _ => edits_of_sameText sameText_vduMouseShowAfterVduUpdate
  · rw [hpixel] at hlast
    rw [VduText.scrollStep, if_pos hlast]
    refine Triple.bind (Triple.update fun s hs => ?_) fun _ => edits_scrollRow
    exact congrArg (fun y : VduText => { y with scrollPixel := 0, scrollActive := false }) hs
  · rw [hpixel] at hmore
    rw [VduText.scrollStep, if_neg hmore]
    exact hs

theorem edits_cmdScrollUp : Edits x cmdScrollUp x.scrollUp := by
  refine (edits_of_sameText sameText_vduMouseHideForVduUpdate).bind fun _ => Triple.look fun s hs => ?_
  refine (edits_of_sameText (Prog.Keeps.when fun _ => sameText_hideCursor)).bind fun _ => Triple.look fun s hs => ?_
  refine Triple.bind (K := fun s => s.text = x.scrollUp) ?_ fun _ =>
    edits_of_sameText sameText_vduMouseShowAfterVduUpdate
  have hsmooth : s.smoothScroll = x.smoothScroll := congrArg VduText.smoothScroll hs
  rw [hsmooth, VduText.scrollUp]
  split
  · refine Triple.update ?_
    rintro s rfl
    rfl
  · exact edits_scrollRow

theorem edits_cmdNewline : Edits x cmdNewline x.newline := by
  refine Triple.bind (K := fun s => s.text = { x with col := 0 }) (Triple.update ?_) fun _ => ?_
  · rintro s rfl
    rfl
  refine Triple.bind (K := fun s => s.text = { x with col := 0, row := x.row + 1 })
    (Triple.update fun s hs => ?_) fun _ => Triple.look fun s hs => ?_
  · have hrow : s.gCursor.row = x.row := congrArg VduText.row hs
    rw [← hrow]
    exact congrArg (fun y : VduText => { y with row := s.gCursor.row + 1 }) hs
  have hrow : s.gCursor.row = x.row + 1 := congrArg VduText.row hs
  have hmode : s.vduMode = x.vduMode := congrArg VduText.vduMode hs
  rw [hrow, hmode]
  refine Triple.when (fun hbelow => ?_) fun habove s hs => ?_
  · rw [VduText.newline, if_neg (not_lt.2 hbelow)]
    split
    · refine Triple.bind (Triple.update fun s hs => ?_) fun _ => edits_cmdScrollUp
      exact congrArg (fun y : VduText => { y with pendingCursorRow := ROWS - 1 }) hs
    · refine Triple.update fun s hs => ?_
      exact congrArg (fun y : VduText => { y with row := ROWS - 1 }) hs
  · rw [VduText.newline, if_pos (not_le.1 habove)]
    exact hs

theorem edits_vduSaveCursor : Edits x vduSaveCursor x.save := by
  refine Triple.update ?_
  rintro s rfl
  rfl

theorem edits_vduRestoreCursor : Edits x vduRestoreCursor x.restore := by
  refine Triple.look fun s hs => ?_
  have hedit : s.gInEditmode = x.gInEditmode := congrArg VduText.gInEditmode hs
  have hsaved : s.gSaveCursor.row = x.savedRow := congrArg VduText.savedRow hs
  have hrow : s.gCursor.row = x.row := congrArg VduText.row hs
  rw [hedit, hsaved, hrow]
  refine Triple.when (fun hin => ?_) fun hout s hs => ?_
  · rw [VduText.restore, if_pos hin]
    refine Triple.bind (K := fun s => s.text = if x.savedRow = x.row then
        if x.savedRow = ROWS - 1 then x.scrollUp.move 0 (ROWS - 1) else x.move 0 (x.savedRow + 1)
      else x.move 0 x.savedRow) ?_ fun _ => Triple.update fun s hs => ?_
    · split
      · split
        · refine (edits_of_sameText sameText_hideCursor).bind fun _ => edits_cmdScrollUp.bind fun _ => ?_
          exact (edits_moveCursor 0 (ROWS - 1)).bind fun _ => edits_of_sameText sameText_showCursor
        · exact edits_moveCursor 0 _
      · exact edits_moveCursor 0 _
    · exact congrArg (fun y : VduText => { y with gInEditmode := false }) hs
  · rw [VduText.restore, if_neg hout]
    exact hs

/-- The task leaves the text, or steps a scroll that is active. -/
def VduText.Stepped (x y : VduText) : Prop := y = x ∨ x.scrollActive = true ∧ y = x.scrollStep

theorem stepped_taskVDU (ms : UInt32) :
    Triple (fun _ => True) (fun s => s.text = x) (taskVDU ms) fun s => x.Stepped s.text := by
  refine Triple.look fun s hs => ?_
  have hactive : s.scrollActive = x.scrollActive := congrArg VduText.scrollActive hs
  rw [hactive]
  refine Triple.bind (K := fun s => x.Stepped s.text) (Triple.when (fun hstep => ?_) fun _ _ => .inl) fun _ => ?_
  · refine edits_scrollStep.bind fun _ => Triple.update fun s hs => ?_
    exact .inr ⟨hstep.1, hs⟩
  -- The cursor blinks.
  refine Triple.look fun s hs => Triple.when_keep fun _ => ?_
  refine Triple.bind (Triple.when_keep fun _ => Triple.event trivial) fun _ => ?_
  exact Triple.update fun s hs => hs

/-! ## Output -/

theorem edits_left : Edits x cmdCursorLeft x.left := by
  refine Triple.update ?_
  rintro s rfl
  show Vdu.text (if _ then _ else _) = if _ then _ else _
  split <;> split <;> first | rfl | contradiction

theorem edits_vduDeletec : Edits x vduDeletec x.delete := by
  refine Triple.now fun s hs => ?_
  subst hs
  refine Triple.pre (I := fun s' => s'.text = s.text) ?_ fun _ h => h ▸ rfl
  exact (edits_moveCells _ _ _).bind fun _ => (edits_fillCells _ _ _ _).bind fun _ =>
    edits_of_sameText (sameText_touchCells _)

theorem edits_vduInsertc (c : UInt8) : Edits x (vduInsertc c) (x.insert c) := by
  refine Triple.now fun s hs => ?_
  subst hs
  refine Triple.pre (I := fun s' => s'.text = s.text) ?_ fun _ h => h ▸ rfl
  exact (edits_moveCells _ _ _).bind fun _ => (edits_fillCells _ _ _ _).bind fun _ =>
    edits_of_sameText (sameText_touchCells _)

theorem edits_vduDisplayc (c : UInt8) : Edits x (vduDisplayc c) (x.overwrite c) := by
  rw [VduText.overwrite]
  refine Triple.when (fun hc => Triple.look fun s hs => ?_) fun hc s hs => ?_
  · subst hs
    rw [if_pos hc]
    exact edits_fillCells _ _ _ _
  · rw [if_neg hc]
    exact hs

theorem edits_scanEOL (n : Nat) : Edits x (scanEOL n) { x with col := x.lineEnd n } := by
  induction n with
  | zero =>
    refine Triple.update ?_
    rintro s rfl
    rfl
  | succ c ih =>
    -- the program with the cell it has read
    have hscan : scanEOL (c + 1) = now >>= fun s => event (s.gCursor.row, c) >>= fun _ => now >>= fun s' =>
        if (s'.gScreen s.gCursor.row c).ch ≠ ' '.toUInt8 then
          update fun s => { s with gCursor.col := if COLS ≤ c + 1 then COLS - 1 else c + 1 }
        else scanEOL c := rfl
    rw [hscan]
    refine Triple.look fun s hs => (edits_of_sameText (sameText_event _)).bind fun _ => Triple.look fun s' hs' => ?_
    have hrow : s.gCursor.row = x.row := congrArg VduText.row hs
    have hcell : s'.gScreen = x.gScreen := congrArg VduText.gScreen hs'
    rw [hrow, hcell, VduText.lineEnd]
    split
    · refine Triple.update ?_
      rintro s rfl
      rfl
    · exact ih

theorem edits_cmdClearEOL : Edits x cmdClearEOL (x.fill x.row x.col (COLS - x.col) x.blank) := by
  refine Triple.look fun s hs => ?_
  subst hs
  exact edits_fillCells _ _ _ _

theorem edits_cmdClearScreen : Edits x cmdClearScreen (x.clear.move 0 0) :=
  (edits_of_sameText sameText_vduMouseHideForVduUpdate).bind fun _ =>
    (edits_of_sameText sameText_hideCursor).bind fun _ => edits_initTextbuffer.bind fun _ =>
      (edits_moveCursor 0 0).bind fun _ => (edits_of_sameText (sameText_setCursor true)).bind fun _ =>
        edits_of_sameText sameText_vduMouseShowAfterVduUpdate

/-- A command that changes one of the statics. -/
theorem edits_set {g : Vdu → Vdu} {F : VduText → VduText} (h : ∀ s, (g s).text = F s.text) :
    Edits x (update g) (F x) := by
  refine Triple.update ?_
  rintro s rfl
  exact h s

theorem edits_cmdCursorBOL : Edits x cmdCursorBOL { x with col := 0 } :=
  edits_set (F := fun x => { x with col := 0 }) fun _ => rfl

theorem edits_cmdCursorRight :
    Edits x cmdCursorRight (if x.col < COLS - 1 then { x with col := x.col + 1 } else x) := by
  refine edits_set (F := fun x => if x.col < COLS - 1 then { x with col := x.col + 1 } else x) fun s => ?_
  split <;> split <;> first | rfl | contradiction

theorem edits_cmdCursorDown :
    Edits x cmdCursorDown (if x.row < ROWS - 1 then { x with row := x.row + 1 } else x) := by
  refine edits_set (F := fun x => if x.row < ROWS - 1 then { x with row := x.row + 1 } else x) fun s => ?_
  split <;> split <;> first | rfl | contradiction

theorem edits_cmdCursorUp : Edits x cmdCursorUp (if 0 < x.row then { x with row := x.row - 1 } else x) := by
  refine edits_set (F := fun x => if 0 < x.row then { x with row := x.row - 1 } else x) fun s => ?_
  split <;> split <;> first | rfl | contradiction

theorem edits_cmdInsertMode : Edits x cmdInsertMode { x with gInsertMode := true } :=
  edits_set (F := fun x => { x with gInsertMode := true }) fun _ => rfl

theorem edits_cmdOverwriteMode : Edits x cmdOverwriteMode { x with gInsertMode := false } :=
  edits_set (F := fun x => { x with gInsertMode := false }) fun _ => rfl

theorem edits_cmdInstantScroll : Edits x cmdInstantScroll { x with smoothScroll := false } :=
  edits_set (F := fun x => { x with smoothScroll := false }) fun _ => rfl

theorem edits_cmdSmoothScroll : Edits x cmdSmoothScroll { x with smoothScroll := true } :=
  edits_set (F := fun x => { x with smoothScroll := true }) fun _ => rfl

theorem edits_ctrlTable (c : UInt8) : Edits x ((ctrlTable c).getD (pure ())) (x.control c) := by
  unfold ctrlTable
  split
  · exact edits_cmdCursorBOL
  · exact edits_left
  · exact edits_vduDeletec
  · exact edits_scanEOL COLS
  · exact edits_cmdCursorRight
  · exact edits_cmdInsertMode
  · exact edits_cmdClearEOL
  · exact edits_cmdClearScreen
  · exact edits_cmdCursorDown
  · exact edits_cmdOverwriteMode
  · exact edits_cmdCursorUp
  · exact edits_cmdInstantScroll
  · exact edits_cmdSmoothScroll
  · have hcontrol : x.control c = x := by
      unfold VduText.control
      split <;> first | rfl | exact absurd rfl ‹_ → False›
    rw [hcontrol]
    exact edits_of_sameText (Prog.Keeps.pure ())

theorem edits_putRegular (c : UInt8) : Edits x (putRegular c) (x.regular c) := by
  refine Triple.look fun s hs => ?_
  have hscreen : s.gAsScreenMode = x.gAsScreenMode := congrArg VduText.gAsScreenMode hs
  have hinsert : s.gInsertMode = x.gInsertMode := congrArg VduText.gInsertMode hs
  rw [hscreen, hinsert, VduText.regular]
  split
  · exact edits_ctrlTable c
  refine Triple.bind (K := fun s => s.text =
      if x.gInsertMode = true ∧ x.gAsScreenMode = true then x.insert c else x) ?_ fun _ => ?_
  · refine Triple.when (fun h => ?_) fun h s hs => ?_
    · rw [if_pos h]
      exact edits_vduInsertc c
    · rw [if_neg h]
      exact hs
  generalize (if x.gInsertMode = true ∧ x.gAsScreenMode = true then x.insert c else x) = x
  refine (edits_vduDisplayc c).bind fun _ => ?_
  generalize x.overwrite c = x
  refine Triple.bind (edits_set (F := fun x => { x with col := x.col + 1 }) fun _ => rfl) fun _ =>
    Triple.look fun s hs => ?_
  have hcol : s.gCursor.col = x.col + 1 := congrArg VduText.col hs
  rw [hcol, VduText.advance]
  refine Triple.when (fun hend => ?_) fun hmore s hs => ?_
  · rw [if_pos hend]
    refine Triple.ite (fun hwrap => absurd (s.textWrap_eq_false.symm.trans hwrap) Bool.false_ne_true) fun _ => ?_
    exact Triple.update fun s hs => congrArg (fun y : VduText => { y with col := COLS - 1 }) hs
  · rw [if_neg hmore]
    exact hs

theorem edits_putSwitch (c : UInt8) : Edits x (putSwitch c) (x.putSwitch c) := by
  unfold putSwitch
  split
  · exact edits_of_sameText (Prog.Keeps.pure ())
  · exact edits_cmdNewline.bind fun _ => edits_vduSaveCursor
  · exact edits_cmdNewline.bind fun _ => edits_vduSaveCursor
  · exact edits_left
  · exact edits_left
  · have hregular : x.putSwitch c = x.regular c := by
      unfold VduText.putSwitch
      split <;> first | rfl | exact absurd rfl ‹_ → False›
    rw [hregular]
    exact edits_putRegular c

theorem edits_putc (c : UInt8) : Edits x (putc c) (x.put c) := by
  refine (edits_of_sameText sameText_vduMouseHideForVduUpdate).bind fun _ => Triple.look fun s hs => ?_
  have hmode : s.vduMode = x.vduMode := congrArg VduText.vduMode hs
  rw [hmode, VduText.put]
  refine Triple.bind (Triple.when (fun htext => ?_) fun htext s hs => ?_) fun _ =>
    edits_of_sameText sameText_vduMouseShowAfterVduUpdate
  · rw [if_pos htext]
    exact (edits_of_sameText (sameText_setCursor false)).bind fun _ => (edits_putSwitch c).bind fun _ =>
      edits_of_sameText (sameText_setCursor true)
  · rw [if_neg htext]
    exact hs

end Effects

end NeoMmu
