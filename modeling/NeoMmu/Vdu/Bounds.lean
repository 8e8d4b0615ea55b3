import NeoMmu.Vdu.Text

/-!
# The bounds of the text buffer

Which cells of `gScreen` the functions of the display use. The cursor is inside the screen between two calls,
and the calls use cells inside the screen only, as long as no newline in the last row begins a smooth scroll:
that leaves the cursor below the screen until the scroll is over, and the cursor is drawn meanwhile.
-/

namespace NeoMmu

open Prog (now update event when Triple)

/-- The indices of a cell. -/
def InScreen (cell : Nat × Nat) : Prop := cell.1 < ROWS ∧ cell.2 < COLS

instance (cell : Nat × Nat) : Decidable (InScreen cell) :=
  inferInstanceAs (Decidable (_ ∧ _))

/-! ## Conditions on the state -/

/-- A condition that does not look at the text or at the mouse. -/
structure Framed (I : Vdu → Prop) : Prop where
  gScreen : ∀ s g, I s → I { s with gScreen := g }
  gMouse : ∀ s m, I s → I { s with gMouse := m }
  depth : ∀ s d, I s → I { s with gMouseVduUpdateDepth := d }

/-- The cursor is inside the screen once a row that waits for it is set. The modes whose screen is edited are
the only ones that scroll smoothly. -/
structure Nearly (s : Vdu) : Prop where
  col : s.gCursor.col < COLS
  row : s.pendingCursorRow < 0 → s.gCursor.row < ROWS
  pending : 0 ≤ s.pendingCursorRow → s.pendingCursorRow = ROWS - 1
  editing : s.gAsScreenMode = true → s.vduMode.screenMode = true
  smooth : s.smoothScroll = true → s.vduMode.screenMode = true

/-- The cursor is inside the screen. -/
structure CursorInside (s : Vdu) : Prop extends Nearly s where
  arrived : s.pendingCursorRow < 0

/-- The cursor is inside the screen, in a text mode, and not drawn. -/
structure Hidden (s : Vdu) : Prop extends CursorInside s where
  textMode : s.vduMode.textMode = true
  drawn : s.gCursor.drawn = false

theorem CursorInside.inScreen {s : Vdu} (h : CursorInside s) : InScreen (s.gCursor.row, s.gCursor.col) :=
  ⟨h.row h.arrived, h.col⟩

theorem framed_nearly : Framed Nearly where
  gScreen _ _ h := ⟨h.col, h.row, h.pending, h.editing, h.smooth⟩
  gMouse _ _ h := ⟨h.col, h.row, h.pending, h.editing, h.smooth⟩
  depth _ _ h := ⟨h.col, h.row, h.pending, h.editing, h.smooth⟩

theorem framed_inside : Framed CursorInside where
  gScreen s g h := ⟨framed_nearly.gScreen s g h.toNearly, h.arrived⟩
  gMouse s m h := ⟨framed_nearly.gMouse s m h.toNearly, h.arrived⟩
  depth s d h := ⟨framed_nearly.depth s d h.toNearly, h.arrived⟩

theorem framed_hidden : Framed Hidden where
  gScreen s g h := ⟨framed_inside.gScreen s g h.toCursorInside, h.textMode, h.drawn⟩
  gMouse s m h := ⟨framed_inside.gMouse s m h.toCursorInside, h.textMode, h.drawn⟩
  depth s d h := ⟨framed_inside.depth s d h.toCursorInside, h.textMode, h.drawn⟩

/-! ## Cells and the mouse pointer -/

section Framed

variable {I : Vdu → Prop}

theorem triple_touchCells {cells : List (Nat × Nat)} (hcells : ∀ cell ∈ cells, InScreen cell) :
    Triple InScreen I (touchCells cells) I :=
  Triple.forM fun cell hcell => Triple.event (hcells cell hcell)

/-- The cells of a part of a row. -/
theorem inScreen_cells {row col n : Nat} (hrow : row < ROWS) (hcol : col + n ≤ COLS) :
    ∀ cell ∈ (List.range n).map fun i => (row, col + i), InScreen cell := by
  intro cell hcell
  obtain ⟨i, hi, rfl⟩ := List.mem_map.1 hcell
  rw [List.mem_range] at hi
  exact ⟨hrow, by show col + i < COLS; omega⟩

theorem triple_vduRedrawLine {row : Nat} (hrow : row < ROWS) : Triple InScreen I (vduRedrawLine row) I := by
  refine triple_touchCells fun cell hcell => ?_
  obtain ⟨col, hcol, rfl⟩ := List.mem_map.1 hcell
  exact ⟨hrow, List.mem_range.1 hcol⟩

theorem triple_vduDrawCell {row col : Nat} (h : InScreen (row, col)) :
    Triple InScreen I (vduDrawCell col row) I :=
  Triple.event h

theorem triple_vduDrawCellPreservingCursor {row col : Nat} (h : InScreen (row, col)) :
    Triple InScreen I (vduDrawCellPreservingCursor col row) I := by
  refine Triple.look fun s hs => ?_
  refine Triple.ite (fun _ => triple_vduDrawCell h) fun _ => (Triple.event h).bind fun _ => ?_
  cases s.gCursor.shape with
  | cBLOCK => exact Triple.pure ()
  | cUNDERLINE => exact triple_vduDrawCell h

/-- The pointer lies over cells of the screen, wherever it is. -/
theorem triple_vduMouseRedrawUnderlyingText : Triple InScreen I vduMouseRedrawUnderlyingText I := by
  refine Triple.look fun s hs => ?_
  refine Triple.when_keep fun _ => ?_
  refine Triple.forM fun row hrow => Triple.forM fun col hcol => triple_vduDrawCellPreservingCursor ?_
  rw [List.mem_range'_1] at hrow hcol
  have hrows := ROWS_eq
  have hcols := COLS_eq
  constructor
  · show row < ROWS
    omega
  · show col < COLS
    omega

variable (hI : Framed I)

include hI

theorem triple_fillCells {row col n : Nat} (hrow : row < ROWS) (hcol : col + n ≤ COLS) (cell : VduCell) :
    Triple InScreen I (fillCells row col n cell) I :=
  (triple_touchCells (inScreen_cells hrow hcol)).bind fun _ => Triple.update fun s hs => hI.gScreen s _ hs

theorem triple_moveCells {dst src : Nat × Nat} {n : Nat} (hdst : dst.1 < ROWS) (hdst' : dst.2 + n ≤ COLS)
    (hsrc : src.1 < ROWS) (hsrc' : src.2 + n ≤ COLS) : Triple InScreen I (moveCells dst src n) I :=
  (triple_touchCells (inScreen_cells hsrc hsrc')).bind fun _ =>
    (triple_touchCells (inScreen_cells hdst hdst')).bind fun _ => Triple.update fun s hs => hI.gScreen s _ hs

theorem triple_rotateTextbuffer : Triple InScreen I rotateTextbuffer I := by
  have hrows := ROWS_eq
  refine Triple.bind (Triple.forM fun r hr => ?_) fun _ => Triple.look fun s hs => ?_
  · rw [List.mem_range] at hr
    refine triple_moveCells hI ?_ (Nat.zero_add _).le ?_ (Nat.zero_add _).le
    · show r < ROWS
      omega
    · show r + 1 < ROWS
      omega
  · exact triple_fillCells hI (by omega) (Nat.zero_add _).le _

theorem triple_initTextbuffer : Triple InScreen I initTextbuffer I := by
  refine Triple.look fun s hs => Triple.forM fun r hr => ?_
  exact triple_fillCells hI (List.mem_range.1 hr) (Nat.zero_add _).le _

theorem triple_vduMouseHideOverlay : Triple InScreen I vduMouseHideOverlay I := by
  refine Triple.look fun s hs => Triple.when_keep fun _ => ?_
  exact triple_vduMouseRedrawUnderlyingText.bind fun _ => Triple.update fun s hs => hI.gMouse s _ hs

theorem triple_vduMouseDrawOverlay : Triple InScreen I vduMouseDrawOverlay I := by
  refine Triple.update fun s hs => ?_
  split
  · exact hs
  · exact hI.gMouse s _ hs

theorem triple_vduMouseHideForVduUpdate : Triple InScreen I vduMouseHideForVduUpdate I := by
  refine Triple.look fun s hs => ?_
  refine Triple.bind (Triple.update fun s hs => hI.depth s _ hs) fun _ => ?_
  exact Triple.when_keep fun _ => triple_vduMouseHideOverlay hI

theorem triple_vduMouseShowAfterVduUpdate : Triple InScreen I vduMouseShowAfterVduUpdate I := by
  refine Triple.look fun s hs => ?_
  refine Triple.when_keep fun _ => ?_
  refine Triple.bind (Triple.update fun s hs => hI.depth s _ hs) fun _ => ?_
  exact Triple.when_keep fun _ => triple_vduMouseDrawOverlay hI

end Framed

/-! ## The cursor -/

theorem CursorInside.setDrawn {s : Vdu} (h : CursorInside s) (drawn : Bool) :
    CursorInside { s with gCursor.drawn := drawn } :=
  ⟨⟨h.col, h.row, h.pending, h.editing, h.smooth⟩, h.arrived⟩

theorem CursorInside.setEnabled {s : Vdu} (h : CursorInside s) (enabled : Bool) :
    CursorInside { s with gCursor.enabled := enabled } :=
  ⟨⟨h.col, h.row, h.pending, h.editing, h.smooth⟩, h.arrived⟩

/-- The cursor elsewhere in its row. -/
theorem CursorInside.setCol {s : Vdu} (h : CursorInside s) {col : Nat} (hcol : col < COLS) :
    CursorInside { s with gCursor.col := col } :=
  ⟨⟨hcol, h.row, h.pending, h.editing, h.smooth⟩, h.arrived⟩

/-- The cursor elsewhere in its column. -/
theorem CursorInside.setRow {s : Vdu} (h : CursorInside s) {row : Nat} (hrow : row < ROWS) :
    CursorInside { s with gCursor.row := row } :=
  ⟨⟨h.col, fun _ => hrow, h.pending, h.editing, h.smooth⟩, h.arrived⟩

/-- The cursor at another place. -/
theorem CursorInside.move {s : Vdu} (h : CursorInside s) {row col : Nat} (hrow : row < ROWS) (hcol : col < COLS) :
    CursorInside { s with gCursor.row := row, gCursor.col := col } :=
  ⟨⟨hcol, fun _ => hrow, h.pending, h.editing, h.smooth⟩, h.arrived⟩

theorem triple_showCursor : Triple InScreen CursorInside showCursor CursorInside := by
  refine Triple.look fun s hs => Triple.when_keep fun _ => ?_
  exact (Triple.event hs.inScreen).bind fun _ => Triple.update fun s hs => hs.setDrawn true

theorem triple_hideCursor : Triple InScreen CursorInside hideCursor CursorInside := by
  refine Triple.look fun s hs => Triple.when_keep fun _ => ?_
  refine (Triple.event hs.inScreen).bind fun _ => (triple_vduDrawCell hs.inScreen).bind fun _ => ?_
  exact Triple.update fun s hs => hs.setDrawn false

/-- In a text mode. -/
structure InText (s : Vdu) : Prop extends CursorInside s where
  textMode : s.vduMode.textMode = true

theorem framed_inText : Framed InText where
  gScreen s g h := ⟨framed_inside.gScreen s g h.toCursorInside, h.textMode⟩
  gMouse s m h := ⟨framed_inside.gMouse s m h.toCursorInside, h.textMode⟩
  depth s d h := ⟨framed_inside.depth s d h.toCursorInside, h.textMode⟩

theorem triple_hideCursor_text : Triple InScreen InText hideCursor Hidden := by
  refine Triple.now fun s hs => Triple.ite (fun _ => ?_) fun hdrawn => ?_
  · refine (Triple.event hs.inScreen).bind fun _ => (triple_vduDrawCell hs.inScreen).bind fun _ => ?_
    refine Triple.update ?_
    rintro _ rfl
    exact ⟨hs.toCursorInside.setDrawn false, hs.textMode, rfl⟩
  · refine (Triple.pure ()).post ?_
    rintro _ rfl
    exact ⟨hs.toCursorInside, hs.textMode, by simpa using hdrawn⟩

theorem triple_setCursor (vShow : Bool) : Triple InScreen CursorInside (setCursor vShow) CursorInside := by
  refine (triple_vduMouseHideForVduUpdate framed_inside).bind fun _ => Triple.look fun s hs => ?_
  refine Triple.bind (K := CursorInside) (Triple.when_keep fun _ => ?_) fun _ =>
    triple_vduMouseShowAfterVduUpdate framed_inside
  refine Triple.bind (Triple.update fun s hs => hs.setEnabled _) fun _ => ?_
  exact Triple.ite (fun _ => triple_showCursor) fun _ => triple_hideCursor

theorem triple_setCursor_false : Triple InScreen InText (setCursor false) Hidden := by
  refine (triple_vduMouseHideForVduUpdate framed_inText).bind fun _ => Triple.look fun s hs => ?_
  refine Triple.bind (K := Hidden) (Triple.ite (fun _ => ?_) fun htext => absurd hs.textMode htext) fun _ =>
    triple_vduMouseShowAfterVduUpdate framed_hidden
  refine Triple.bind (K := InText) (Triple.update fun s hs => ?_) fun _ => triple_hideCursor_text
  exact ⟨hs.toCursorInside.setEnabled _, hs.textMode⟩

theorem triple_moveCursor (x y : Nat) : Triple InScreen CursorInside (moveCursor x y) CursorInside := by
  have hrows := ROWS_eq
  have hcols := COLS_eq
  refine (triple_vduMouseHideForVduUpdate framed_inside).bind fun _ => Triple.look fun s hs => ?_
  refine Triple.bind (K := CursorInside) (Triple.when_keep fun _ => triple_hideCursor) fun _ => ?_
  refine Triple.bind (Triple.update fun s hs => hs.move ?_ ?_) fun _ => ?_
  · split <;> omega
  · split <;> omega
  refine Triple.bind (K := CursorInside) (Triple.when_keep fun _ => triple_showCursor) fun _ => ?_
  exact triple_vduMouseShowAfterVduUpdate framed_inside

theorem triple_cmdClearScreen : Triple InScreen CursorInside cmdClearScreen CursorInside :=
  (triple_vduMouseHideForVduUpdate framed_inside).bind fun _ => triple_hideCursor.bind fun _ =>
    (triple_initTextbuffer framed_inside).bind fun _ => (triple_moveCursor 0 0).bind fun _ =>
      (triple_setCursor true).bind fun _ => triple_vduMouseShowAfterVduUpdate framed_inside

theorem triple_vduMouseUpdate (dx dy : Int8) (buttons : UInt8) :
    Triple InScreen CursorInside (vduMouseUpdate dx dy buttons) CursorInside := by
  have hI := framed_inside
  refine Triple.look fun s hs => Triple.when_keep fun _ => ?_
  refine (triple_vduMouseHideForVduUpdate hI).bind fun _ => ?_
  refine Triple.bind (Triple.update fun s hs => hI.gMouse s _ hs) fun _ => ?_
  refine Triple.bind (K := CursorInside) (Triple.when_keep fun _ => ?_) fun _ => ?_
  · exact Triple.update fun s hs => hI.gMouse s _ hs
  refine Triple.bind (Triple.update fun s hs => hI.gMouse s _ hs) fun _ => Triple.look fun s hs => ?_
  refine Triple.bind (K := CursorInside) (Triple.when_keep fun _ => triple_moveCursor _ _) fun _ => ?_
  exact triple_vduMouseShowAfterVduUpdate hI

/-! ## Scrolling -/

/-- A row that waits for the cursor is set. -/
theorem triple_scrollRow : Triple InScreen Nearly scrollRow CursorInside := by
  have hrows := ROWS_eq
  refine (triple_rotateTextbuffer framed_nearly).bind fun _ => ?_
  refine Triple.bind (K := CursorInside) (Triple.update fun s hs => ?_) fun _ => ?_
  · split
    · rename_i hpending
      have heq := hs.pending hpending
      refine ⟨⟨hs.col, fun _ => ?_, fun h => ?_, hs.editing, hs.smooth⟩, ?_⟩
      · show s.pendingCursorRow.toNat < ROWS
        omega
      · exact absurd (show (0 : Int) ≤ -1 from h) (by decide)
      · exact show (-1 : Int) < 0 by decide
    · rename_i hpending
      exact ⟨hs, not_le.1 hpending⟩
  refine (triple_vduRedrawLine (by omega)).bind fun _ => ?_
  exact Triple.bind (Triple.update fun s hs => hs.setDrawn false) fun _ => triple_showCursor

theorem triple_scrollStep : Triple InScreen CursorInside scrollStep CursorInside := by
  refine (triple_vduMouseHideForVduUpdate framed_inside).bind fun _ => ?_
  refine Triple.bind (K := CursorInside) (Triple.update fun s hs => ?_) fun _ => Triple.look fun s hs => ?_
  · exact ⟨⟨hs.col, hs.row, hs.pending, hs.editing, hs.smooth⟩, hs.arrived⟩
  refine Triple.bind (K := CursorInside) (Triple.when_keep fun _ => ?_) fun _ =>
    triple_vduMouseShowAfterVduUpdate framed_inside
  refine Triple.bind (K := Nearly) (Triple.update fun s hs => ?_) fun _ => triple_scrollRow
  exact ⟨hs.col, hs.row, hs.pending, hs.editing, hs.smooth⟩

/-- A condition under which the display may scroll: the cursor may still be below the screen, when it is not
drawn and the scroll is an instant one. -/
structure Scrollable (s : Vdu) : Prop extends Nearly s where
  row_of_drawn : s.gCursor.drawn = true → s.pendingCursorRow < 0
  row_of_smooth : s.smoothScroll = true → s.pendingCursorRow < 0

theorem framed_scrollable : Framed Scrollable where
  gScreen s g h := ⟨framed_nearly.gScreen s g h.toNearly, h.row_of_drawn, h.row_of_smooth⟩
  gMouse s m h := ⟨framed_nearly.gMouse s m h.toNearly, h.row_of_drawn, h.row_of_smooth⟩
  depth s d h := ⟨framed_nearly.depth s d h.toNearly, h.row_of_drawn, h.row_of_smooth⟩

theorem CursorInside.scrollable {s : Vdu} (h : CursorInside s) : Scrollable s :=
  ⟨h.toNearly, fun _ => h.arrived, fun _ => h.arrived⟩

theorem triple_cmdScrollUp : Triple InScreen Scrollable cmdScrollUp CursorInside := by
  refine (triple_vduMouseHideForVduUpdate framed_scrollable).bind fun _ => Triple.now fun s hs => ?_
  refine Triple.bind (K := Scrollable) (Triple.ite (fun hdrawn => ?_) fun _ => ?_) fun _ => Triple.now fun s hs => ?_
  · have hinside : CursorInside s := ⟨hs.toNearly, hs.row_of_drawn hdrawn⟩
    refine triple_hideCursor.mono ?_ fun _ h => h.scrollable
    rintro _ rfl
    exact hinside
  · refine (Triple.pure ()).post ?_
    rintro _ rfl
    exact hs
  refine Triple.bind (K := CursorInside) (Triple.ite (fun hsmooth => Triple.update ?_) fun _ => ?_) fun _ =>
    triple_vduMouseShowAfterVduUpdate framed_inside
  · rintro _ rfl
    exact ⟨⟨hs.col, hs.row, hs.pending, hs.editing, hs.smooth⟩, hs.row_of_smooth hsmooth⟩
  · refine triple_scrollRow.pre ?_
    rintro _ rfl
    exact hs.toNearly

theorem triple_vduRestoreCursor : Triple InScreen CursorInside vduRestoreCursor CursorInside := by
  refine Triple.look fun s hs => Triple.when_keep fun _ => ?_
  refine Triple.bind (K := CursorInside) ?_ fun _ => Triple.update fun s hs => ?_
  · refine Triple.ite (fun _ => Triple.ite (fun _ => ?_) fun _ => triple_moveCursor _ _) fun _ => triple_moveCursor _ _
    refine triple_hideCursor.bind fun _ => (triple_cmdScrollUp.pre fun _ h => h.scrollable).bind fun _ => ?_
    exact (triple_moveCursor _ _).bind fun _ => triple_showCursor
  · exact ⟨⟨hs.col, hs.row, hs.pending, hs.editing, hs.smooth⟩, hs.arrived⟩

theorem triple_taskVDU (ms : UInt32) : Triple InScreen CursorInside (taskVDU ms) CursorInside := by
  have hkeep : ∀ s : Vdu, CursorInside s → ∀ last lastScroll,
      CursorInside { s with last := last, lastScroll := lastScroll } :=
    fun s hs _ _ => ⟨⟨hs.col, hs.row, hs.pending, hs.editing, hs.smooth⟩, hs.arrived⟩
  refine Triple.look fun s hs => ?_
  refine Triple.bind (K := CursorInside) (Triple.when_keep fun _ => ?_) fun _ => Triple.look fun s hs => ?_
  · exact triple_scrollStep.bind fun _ => Triple.update fun s hs => hkeep s hs _ _
  refine Triple.when_keep fun _ => ?_
  refine Triple.bind (K := CursorInside) (Triple.when_keep fun _ => Triple.event hs.inScreen) fun _ => ?_
  exact Triple.update fun s hs => hkeep s hs _ _

/-! ## Output -/

/-- A newline here begins a smooth scroll. -/
def Vdu.AtSmoothEdge (s : Vdu) : Prop := s.smoothScroll = true ∧ s.gCursor.row = ROWS - 1

/-- The cursor has gone down a row, and maybe left the screen. -/
structure Lowered (s : Vdu) : Prop where
  col : s.gCursor.col < COLS
  row : s.gCursor.row ≤ ROWS
  arrived : s.pendingCursorRow < 0
  editing : s.gAsScreenMode = true → s.vduMode.screenMode = true
  smooth : s.smoothScroll = true → s.vduMode.screenMode = true
  drawn : s.gCursor.drawn = false
  edge : s.smoothScroll = true → s.gCursor.row < ROWS

theorem Lowered.inside {s : Vdu} (h : Lowered s) (hrow : s.gCursor.row < ROWS) : CursorInside s :=
  ⟨⟨h.col, fun _ => hrow, fun h' => absurd h.arrived (not_lt.2 h'), h.editing, h.smooth⟩, h.arrived⟩

/-- Below the last row the cursor waits for an instant scroll. -/
theorem Lowered.scrollable {s : Vdu} (h : Lowered s) (hrow : ROWS ≤ s.gCursor.row) :
    Scrollable { s with pendingCursorRow := ROWS - 1 } := by
  have hpending : ¬ ((ROWS : Int) - 1 < 0) := by decide
  refine ⟨⟨h.col, fun h' => absurd h' hpending, fun _ => rfl, h.editing, h.smooth⟩, fun hdrawn => ?_,
    fun hsmooth => absurd (h.edge hsmooth) (not_lt.2 hrow)⟩
  exact absurd (h.drawn.symm.trans hdrawn) Bool.false_ne_true

theorem triple_cmdNewline : Triple InScreen (fun s => Hidden s ∧ ¬ s.AtSmoothEdge) cmdNewline CursorInside := by
  have hrows := ROWS_eq
  have hcols := COLS_eq
  refine Triple.bind (K := fun s => Hidden s ∧ ¬ s.AtSmoothEdge) (Triple.update fun s hs => ?_) fun _ => ?_
  · obtain ⟨hs, hedge⟩ := hs
    have hmove := hs.setCol (show 0 < COLS by omega)
    exact ⟨⟨hmove, hs.textMode, hs.drawn⟩, hedge⟩
  refine Triple.bind (K := Lowered) (Triple.update fun s hs => ?_) fun _ => Triple.now fun s hs => ?_
  · obtain ⟨hs, hedge⟩ := hs
    have hrow := hs.row hs.arrived
    refine ⟨hs.col, hrow, hs.arrived, hs.editing, hs.smooth, hs.drawn, fun hsmooth => ?_⟩
    have hne : s.gCursor.row ≠ ROWS - 1 := fun heq => hedge ⟨hsmooth, heq⟩
    show s.gCursor.row + 1 < ROWS
    omega
  refine Triple.when (fun hrow => Triple.ite (fun _ => ?_) fun _ => ?_) fun hrow => ?_
  · refine Triple.bind (K := Scrollable) (Triple.update ?_) fun _ => triple_cmdScrollUp
    rintro _ rfl
    exact hs.scrollable hrow
  · refine Triple.update ?_
    rintro _ rfl
    exact ⟨⟨hs.col, fun _ => by show ROWS - 1 < ROWS; omega, fun h => absurd hs.arrived (not_lt.2 h), hs.editing,
      hs.smooth⟩, hs.arrived⟩
  · rintro _ rfl
    exact hs.inside (not_le.1 hrow)

theorem triple_vduDeletec : Triple InScreen Hidden vduDeletec Hidden := by
  have hcols := COLS_eq
  refine Triple.look fun s hs => ?_
  have hrow := hs.row hs.arrived
  have hcol := hs.col
  refine (triple_moveCells framed_hidden hrow ?_ hrow ?_).bind fun _ => ?_
  · show s.gCursor.col + (COLS - s.gCursor.col - 1) ≤ COLS
    omega
  · show s.gCursor.col + 1 + (COLS - s.gCursor.col - 1) ≤ COLS
    omega
  exact (triple_fillCells framed_hidden hrow (by omega) _).bind fun _ => triple_vduRedrawLine hrow

theorem triple_vduInsertc (c : UInt8) : Triple InScreen Hidden (vduInsertc c) Hidden := by
  have hcols := COLS_eq
  refine Triple.look fun s hs => ?_
  have hrow := hs.row hs.arrived
  have hcol := hs.col
  refine (triple_moveCells framed_hidden hrow ?_ hrow ?_).bind fun _ => ?_
  · show s.gCursor.col + 1 + (COLS - s.gCursor.col - 1) ≤ COLS
    omega
  · show s.gCursor.col + (COLS - s.gCursor.col - 1) ≤ COLS
    omega
  exact (triple_fillCells framed_hidden hrow hcol _).bind fun _ => triple_vduRedrawLine hrow

theorem triple_vduDisplayc (c : UInt8) : Triple InScreen Hidden (vduDisplayc c) Hidden :=
  Triple.when_keep fun _ => Triple.look fun _ hs =>
    triple_fillCells framed_hidden (hs.row hs.arrived) hs.col _

theorem triple_cmdClearEOL : Triple InScreen Hidden cmdClearEOL Hidden := by
  refine Triple.look fun s hs => triple_fillCells framed_hidden (hs.row hs.arrived) ?_ _
  have hcol := hs.col
  omega

theorem triple_readCell {I : Vdu → Prop} {row col : Nat} (h : InScreen (row, col)) :
    Triple InScreen I (readCell row col) I :=
  (Triple.event h).bind fun _ => Triple.look fun _ _ => Triple.pure _

theorem triple_scanEOL {n : Nat} (hn : n ≤ COLS) : Triple InScreen Hidden (scanEOL n) CursorInside := by
  have hcols := COLS_eq
  induction n with
  | zero =>
    refine Triple.update fun s hs => hs.setCol (by omega)
  | succ c ih =>
    refine Triple.look fun s hs => (triple_readCell ⟨hs.row hs.arrived, hn⟩).bind fun cell => ?_
    refine Triple.ite (fun _ => Triple.update fun s hs => ?_) fun _ => ih (by omega)
    refine hs.setCol ?_
    split <;> omega

theorem triple_cmdCursorEOL : Triple InScreen Hidden cmdCursorEOL CursorInside := triple_scanEOL (le_refl COLS)

theorem triple_cmdCursorBOL : Triple InScreen Hidden cmdCursorBOL CursorInside :=
  Triple.update fun s hs => hs.setCol (by decide)

theorem triple_cmdCursorLeft : Triple InScreen Hidden cmdCursorLeft CursorInside := by
  refine Triple.update fun s hs => ?_
  split
  · exact hs.setCol ((Nat.sub_le _ 1).trans_lt hs.col)
  · exact hs.toCursorInside

theorem triple_cmdCursorRight : Triple InScreen Hidden cmdCursorRight CursorInside := by
  refine Triple.update fun s hs => ?_
  split
  · rename_i hcol
    exact hs.setCol (Nat.add_lt_of_lt_sub hcol)
  · exact hs.toCursorInside

theorem triple_cmdCursorUp : Triple InScreen Hidden cmdCursorUp CursorInside := by
  refine Triple.update fun s hs => ?_
  split
  · exact hs.setRow ((Nat.sub_le _ 1).trans_lt (hs.row hs.arrived))
  · exact hs.toCursorInside

theorem triple_cmdCursorDown : Triple InScreen Hidden cmdCursorDown CursorInside := by
  refine Triple.update fun s hs => ?_
  split
  · rename_i hrow
    exact hs.setRow (Nat.add_lt_of_lt_sub hrow)
  · exact hs.toCursorInside

theorem triple_cmdInsertMode : Triple InScreen Hidden cmdInsertMode CursorInside :=
  Triple.update fun _ hs => ⟨⟨hs.col, hs.row, hs.pending, hs.editing, hs.smooth⟩, hs.arrived⟩

theorem triple_cmdOverwriteMode : Triple InScreen Hidden cmdOverwriteMode CursorInside :=
  Triple.update fun _ hs => ⟨⟨hs.col, hs.row, hs.pending, hs.editing, hs.smooth⟩, hs.arrived⟩

theorem triple_cmdInstantScroll : Triple InScreen Hidden cmdInstantScroll CursorInside :=
  Triple.update fun _ hs => ⟨⟨hs.col, hs.row, hs.pending, hs.editing, nofun⟩, hs.arrived⟩

/-- The screen is edited, so the mode is one that may scroll smoothly. -/
theorem triple_cmdSmoothScroll :
    Triple InScreen (fun s => Hidden s ∧ s.gAsScreenMode = true) cmdSmoothScroll CursorInside :=
  Triple.update fun _ ⟨hs, hscreen⟩ =>
    ⟨⟨hs.col, hs.row, hs.pending, hs.editing, fun _ => hs.editing hscreen⟩, hs.arrived⟩

/-- The commands of the control characters. -/
theorem triple_ctrlTable (c : UInt8) :
    Triple InScreen (fun s => Hidden s ∧ s.gAsScreenMode = true) ((ctrlTable c).getD (pure ())) CursorInside := by
  have hhidden : ∀ {cmd : VduProg Unit}, Triple InScreen Hidden cmd CursorInside →
      Triple InScreen (fun s => Hidden s ∧ s.gAsScreenMode = true) cmd CursorInside :=
    fun hcmd => hcmd.pre fun _ hs => hs.1
  unfold ctrlTable
  split
  · exact hhidden triple_cmdCursorBOL
  · exact hhidden triple_cmdCursorLeft
  · exact hhidden (triple_vduDeletec.post fun _ hs => hs.toCursorInside)
  · exact hhidden triple_cmdCursorEOL
  · exact hhidden triple_cmdCursorRight
  · exact hhidden triple_cmdInsertMode
  · exact hhidden (triple_cmdClearEOL.post fun _ hs => hs.toCursorInside)
  · exact hhidden (triple_cmdClearScreen.pre fun _ hs => hs.toCursorInside)
  · exact hhidden triple_cmdCursorDown
  · exact hhidden triple_cmdOverwriteMode
  · exact hhidden triple_cmdCursorUp
  · exact hhidden triple_cmdInstantScroll
  · exact triple_cmdSmoothScroll
  · exact hhidden ((Triple.pure ()).post fun _ hs => hs.toCursorInside)

theorem triple_putRegular (c : UInt8) : Triple InScreen Hidden (putRegular c) CursorInside := by
  have hcols := COLS_eq
  refine Triple.now fun s hs => Triple.ite (fun hctrl => ?_) fun _ => ?_
  · refine (triple_ctrlTable c).pre ?_
    rintro _ rfl
    exact ⟨hs, hctrl.2⟩
  refine Triple.pre (I := Hidden) ?_ fun _ h => h ▸ hs
  refine (Triple.when_keep fun _ => triple_vduInsertc c).bind fun _ => (triple_vduDisplayc c).bind fun _ => ?_
  -- One step to the right, which is taken back behind the last column.
  refine Triple.bind (K := fun s => ∀ col < COLS, CursorInside { s with gCursor.col := col })
    (Triple.update fun s hs col hcol => hs.setCol hcol) fun _ => ?_
  refine Triple.now fun s' hs => Triple.when (fun _ => Triple.ite (fun hwrap => ?_) fun _ => ?_) fun hcol => ?_
  · exact absurd (s'.textWrap_eq_false.symm.trans hwrap) Bool.false_ne_true
  · refine Triple.update ?_
    rintro _ rfl
    exact hs (COLS - 1) (by omega)
  · rintro _ rfl
    exact hs _ (not_le.1 hcol)

theorem triple_putSwitch {c : UInt8} :
    Triple InScreen (fun s => Hidden s ∧ (c = 0x0D ∨ c = 0x0A → ¬ s.AtSmoothEdge)) (putSwitch c) CursorInside := by
  have hsave : Triple InScreen CursorInside vduSaveCursor CursorInside := Triple.update fun s hs =>
    ⟨⟨hs.col, hs.row, hs.pending, hs.editing, hs.smooth⟩, hs.arrived⟩
  unfold putSwitch
  split
  · exact (Triple.pure ()).post fun _ hs => hs.1.toCursorInside
  · exact (triple_cmdNewline.pre fun _ hs => ⟨hs.1, hs.2 (.inl rfl)⟩).bind fun _ => hsave
  · exact (triple_cmdNewline.pre fun _ hs => ⟨hs.1, hs.2 (.inr rfl)⟩).bind fun _ => hsave
  · exact triple_cmdCursorLeft.pre fun _ hs => hs.1
  · exact triple_cmdCursorLeft.pre fun _ hs => hs.1
  · exact (triple_putRegular c).pre fun _ hs => hs.1

/-- A byte is put where no newline begins a smooth scroll. -/
theorem triple_putc (c : UInt8) :
    Triple InScreen (fun s => CursorInside s ∧ (c = 0x0D ∨ c = 0x0A → ¬ s.AtSmoothEdge)) (putc c) CursorInside := by
  let Q : VduText → Prop := fun x => c = 0x0D ∨ c = 0x0A → ¬ (x.smoothScroll = true ∧ x.row = ROWS - 1)
  refine (triple_and_text (triple_vduMouseHideForVduUpdate framed_inside) sameText_vduMouseHideForVduUpdate
    Q).bind fun _ => Triple.now fun s hs => ?_
  refine Triple.bind (K := CursorInside) (Triple.when (fun htext => ?_) fun _ s' h => h ▸ hs.1) fun _ =>
    triple_vduMouseShowAfterVduUpdate framed_inside
  refine Triple.pre (I := fun s => InText s ∧ Q s.text) ?_ fun s' h => h ▸ ⟨⟨hs.1, htext⟩, hs.2⟩
  exact (triple_and_text triple_setCursor_false (sameText_setCursor false) Q).bind fun _ =>
    triple_putSwitch.bind fun _ => triple_setCursor true

theorem triple_vduSetMode (vMode : UInt8) : Triple InScreen CursorInside (vduSetMode vMode) CursorInside := by
  refine (triple_vduMouseHideForVduUpdate framed_inside).bind fun _ => ?_
  refine Triple.bind (K := fun s => s.gCursor.col < COLS ∧ s.gCursor.row < ROWS ∧ s.pendingCursorRow < 0)
    (Triple.update fun s hs => ⟨hs.col, hs.row hs.arrived, hs.arrived⟩) fun _ => ?_
  refine Triple.bind (K := CursorInside) (Triple.update fun s hs => ?_) fun _ =>
    triple_vduMouseShowAfterVduUpdate framed_inside
  obtain ⟨hcol, hrow, harrived⟩ := hs
  refine ⟨⟨hcol, fun _ => hrow, fun h => absurd harrived (not_lt.2 h), fun h => h, fun h => ?_⟩, harrived⟩
  exact (by decide : ∀ i : Fin NUMBER_OF_MODES, (vduModes.get i).smoothScroll = true →
    (vduModes.get i).screenMode = true) s.mode h

theorem triple_resetDisplay (vMode : UInt8) : Triple InScreen CursorInside (resetDisplay vMode) CursorInside := by
  have hset : ∀ s : Vdu, CursorInside s → ∀ fg bg, CursorInside { s with currentColor := fg, currentBGColor := bg } :=
    fun s hs _ _ => ⟨⟨hs.col, hs.row, hs.pending, hs.editing, hs.smooth⟩, hs.arrived⟩
  refine Triple.bind (Triple.update fun s hs => hset s hs _ _) fun _ => ?_
  refine Triple.bind (Triple.update fun s hs => hset s hs _ _) fun _ => ?_
  exact (triple_vduSetMode vMode).bind fun _ => triple_cmdClearScreen

/-! ## Runs -/

/-- A call of a function of the display. -/
inductive VduCall
  | resetDisplay (vMode : UInt8)
  | vduPutc (times : List UInt32) (c : UInt8)
  | moveCursor (x y : UInt16)
  | setCursor (vShow : Bool)
  | vduRestoreCursor
  | vduSetMode (vMode : UInt8)
  | cmdClearScreen
  | vduMouseUpdate (dx dy : Int8) (buttons : UInt8)
  | taskVDU (ms : UInt32)

/-- The function. -/
def VduCall.run : VduCall → VduProg Unit
  | .resetDisplay vMode => NeoMmu.resetDisplay vMode
  | .vduPutc times c => NeoMmu.vduPutc times c
  | .moveCursor x y => NeoMmu.moveCursor x.toNat y.toNat
  | .setCursor vShow => NeoMmu.setCursor vShow
  | .vduRestoreCursor => NeoMmu.vduRestoreCursor
  | .vduSetMode vMode => NeoMmu.vduSetMode vMode
  | .cmdClearScreen => NeoMmu.cmdClearScreen
  | .vduMouseUpdate dx dy buttons => NeoMmu.vduMouseUpdate dx dy buttons
  | .taskVDU ms => NeoMmu.taskVDU ms

/-- The state that a call leaves. -/
def Vdu.step (s : Vdu) (call : VduCall) : Vdu := (call.run.final (.start s)).now

/-- The cells that it uses. -/
def Vdu.cells (s : Vdu) (call : VduCall) : List (Nat × Nat) := (call.run.final (.start s)).log

/-- Its waiting, if it waits, comes to an end. -/
def Vdu.Returns (s : Vdu) : VduCall → Prop
  | .vduPutc times _ => ((waitForScroll times).final (.start s)).now.scrollActive = false
  | _ => True

/-- It does not put a newline where that begins a smooth scroll. -/
def Vdu.Allows (s : Vdu) : VduCall → Prop
  | .vduPutc _ c => c = 0x0D ∨ c = 0x0A → ¬ s.AtSmoothEdge
  | _ => True

/-- The text has its scrolling and the row of its cursor. -/
def VduText.Holds (Q : Bool → Nat → Prop) (x : VduText) : Prop := x.pendingCursorRow < 0 ∧ Q x.smoothScroll x.row

/-- A step of a scroll leaves the cursor in its row when no row waits for it. -/
theorem VduText.Holds.stepped {Q : Bool → Nat → Prop} {x y : VduText} (h : x.Holds Q) (hstep : x.Stepped y) :
    y.Holds Q := by
  rcases hstep with rfl | ⟨-, rfl⟩
  · exact h
  have harrive : ∀ y : VduText, y.pendingCursorRow < 0 → y.arrive = y := fun y hy => if_neg (not_le.2 hy)
  rw [VduText.scrollStep]
  split
  · have hrow := harrive (VduText.rotate { x with scrollPixel := 0, scrollActive := false }) h.1
    rw [VduText.scrollRow, hrow]
    exact h
  · exact h

theorem triple_waitForScroll_holds (times : List UInt32) (Q : Bool → Nat → Prop) :
    Triple InScreen (fun s => CursorInside s ∧ s.text.Holds Q) (waitForScroll times) fun s => CursorInside s ∧ s.text.Holds Q := by
  have htask : ∀ ms, Triple InScreen (fun s => CursorInside s ∧ s.text.Holds Q) (taskVDU ms) fun s =>
      CursorInside s ∧ s.text.Holds Q := fun ms => (triple_taskVDU ms).and fun t ht =>
    ⟨ht.stepped (stepped_taskVDU (x := t.now.text) ms t rfl).1, (stepped_taskVDU (x := t.now.text) ms t rfl).2⟩
  induction times with
  | nil => exact Triple.pure ()
  | cons ms rest ih => exact Triple.look fun s hs => Triple.when_keep fun _ => (htask ms).bind fun _ => ih

theorem triple_call (call : VduCall) :
    Triple InScreen (fun s => CursorInside s ∧ s.Allows call) call.run CursorInside := by
  have hinside : ∀ {m : VduProg Unit}, Triple InScreen CursorInside m CursorInside →
      Triple InScreen (fun s => CursorInside s ∧ s.Allows call) m CursorInside := fun hm => hm.pre fun _ h => h.1
  cases call with
  | resetDisplay vMode => exact hinside (triple_resetDisplay vMode)
  | vduPutc times c =>
    let Q : Bool → Nat → Prop := fun smooth row => c = 0x0D ∨ c = 0x0A → ¬ (smooth = true ∧ row = ROWS - 1)
    refine Triple.pre (I := fun s => CursorInside s ∧ s.text.Holds Q) ?_ fun s hs => ⟨hs.1, hs.1.arrived, hs.2⟩
    refine (triple_waitForScroll_holds times Q).bind fun _ => Triple.look fun s hs => ?_
    refine Triple.when (fun _ => ?_) fun _ s hs => hs.1
    exact (triple_putc c).pre fun s hs => ⟨hs.1, hs.2.2⟩
  | moveCursor x y => exact hinside (triple_moveCursor _ _)
  | setCursor vShow => exact hinside (triple_setCursor vShow)
  | vduRestoreCursor => exact hinside triple_vduRestoreCursor
  | vduSetMode vMode => exact hinside (triple_vduSetMode vMode)
  | cmdClearScreen => exact hinside triple_cmdClearScreen
  | vduMouseUpdate dx dy buttons => exact hinside (triple_vduMouseUpdate dx dy buttons)
  | taskVDU ms => exact hinside (triple_taskVDU ms)

/-! ## A newline that begins a smooth scroll -/

/-- The cursor waits below the screen, not drawn, for a smooth scroll. -/
structure Below (s : Vdu) : Prop where
  screenMode : s.vduMode.screenMode = true
  smooth : s.smoothScroll = true
  row : s.gCursor.row = ROWS
  drawn : s.gCursor.drawn = false

theorem framed_below : Framed Below where
  gScreen _ _ h := ⟨h.screenMode, h.smooth, h.row, h.drawn⟩
  gMouse _ _ h := ⟨h.screenMode, h.smooth, h.row, h.drawn⟩
  depth _ _ h := ⟨h.screenMode, h.smooth, h.row, h.drawn⟩

theorem below_cmdNewline : Triple InScreen (fun s => Hidden s ∧ s.AtSmoothEdge) cmdNewline Below := by
  refine Triple.bind (K := fun s => s.vduMode.screenMode = true ∧ s.gCursor.drawn = false ∧ s.AtSmoothEdge)
    (Triple.update fun s hs => ⟨hs.1.smooth hs.2.1, hs.1.drawn, hs.2⟩) fun _ => ?_
  refine Triple.bind (K := Below) (Triple.update fun s hs => ?_) fun _ => Triple.look fun s hs => ?_
  · obtain ⟨hmode, hdrawn, hsmooth, hrow⟩ := hs
    exact ⟨hmode, hsmooth, congrArg (· + 1) hrow, hdrawn⟩
  refine Triple.when (fun _ => ?_) fun h => absurd hs.row.ge h
  rw [if_pos (Vdu.mode_of_screenMode hs.screenMode).2.2]
  refine Triple.bind (K := Below) (Triple.update fun s hs => ⟨hs.screenMode, hs.smooth, hs.row, hs.drawn⟩) fun _ => ?_
  refine (triple_vduMouseHideForVduUpdate framed_below).bind fun _ => Triple.look fun s hs => ?_
  refine Triple.bind (K := Below) (Triple.when (fun h => ?_) fun _ _ h => h) fun _ => Triple.look fun s hs => ?_
  · exact absurd (hs.drawn.symm.trans h) Bool.false_ne_true
  rw [if_pos hs.smooth]
  exact Triple.bind (Triple.update fun s hs => ⟨hs.screenMode, hs.smooth, hs.row, hs.drawn⟩) fun _ =>
    triple_vduMouseShowAfterVduUpdate framed_below

/-- The pointer is drawn without a look at the text. -/
theorem log_vduMouseShowAfterVduUpdate (t : Traced Vdu (Nat × Nat)) :
    (vduMouseShowAfterVduUpdate.final t).log = t.log := by
  simp only [vduMouseShowAfterVduUpdate, vduMouseDrawOverlay, Prog.final_bind, Prog.final_now, Prog.final_when]
  split
  · split <;> rfl
  · rfl

theorem final_showCursor {t : Traced Vdu (Nat × Nat)} (henabled : t.now.gCursor.enabled = true)
    (hdrawn : t.now.gCursor.drawn = false) :
    showCursor.final t = (t.push (t.now.gCursor.row, t.now.gCursor.col)).put
      { t.now with gCursor.drawn := true } := by
  rw [showCursor, Prog.final_bind, Prog.final_now, Prog.result_now, Prog.final_when,
    if_pos ⟨henabled, hdrawn⟩]
  rfl

/-- The cursor is drawn where it waits. -/
theorem not_all_setCursor {t : Traced Vdu (Nat × Nat)} (h : Below t.now) :
    ¬ ((setCursor true).final t).All InScreen := by
  have hbelow := (triple_vduMouseHideForVduUpdate framed_below t h).1
  obtain ⟨htext, hvisible, -⟩ := Vdu.mode_of_screenMode hbelow.screenMode
  rw [setCursor, Prog.final_bind, Prog.final_bind, Prog.result_now, Prog.final_now, Prog.final_bind]
  generalize vduMouseHideForVduUpdate.final t = t' at hbelow htext hvisible ⊢
  rw [Prog.final_when, if_pos htext, Prog.final_bind, Prog.final_update, if_pos rfl, final_showCursor
    (t := t'.put { t'.now with gCursor.enabled := t'.now.vduMode.visibleCursor }) hvisible hbelow.drawn]
  intro hall
  rw [Traced.All, log_vduMouseShowAfterVduUpdate, ← Traced.All, Traced.all_put, Traced.all_push] at hall
  have hrow : t'.now.gCursor.row < ROWS := hall.2.1
  exact absurd hbelow.row hrow.ne

/-- A newline where it begins a smooth scroll draws the cursor below the screen. -/
theorem not_all_putc {t : Traced Vdu (Nat × Nat)} {c : UInt8} (h : CursorInside t.now) (hc : c = 0x0D ∨ c = 0x0A)
    (hedge : t.now.AtSmoothEdge) : ¬ ((putc c).final t).All InScreen := by
  let Q : VduText → Prop := fun x => x.smoothScroll = true ∧ x.row = ROWS - 1
  have hstart := (triple_and_text (triple_vduMouseHideForVduUpdate framed_inside) sameText_vduMouseHideForVduUpdate
    Q t ⟨h, hedge⟩).1
  rw [putc, Prog.final_bind, Prog.final_bind, Prog.result_now, Prog.final_now, Prog.final_bind]
  generalize vduMouseHideForVduUpdate.final t = t₁ at hstart ⊢
  have htext := (Vdu.mode_of_screenMode (hstart.1.smooth hstart.2.1)).1
  have hhidden := (triple_and_text triple_setCursor_false (sameText_setCursor false) Q t₁
    ⟨⟨hstart.1, htext⟩, hstart.2⟩).1
  rw [Prog.final_when, if_pos htext, Prog.final_bind, Prog.final_bind]
  generalize (setCursor false).final t₁ = t₂ at hhidden ⊢
  have hswitch : putSwitch c = (cmdNewline >>= fun _ => vduSaveCursor) := by
    rcases hc with rfl | rfl <;> rfl
  have hbelow : Below ((putSwitch c).final t₂).now := by
    rw [hswitch]
    refine (below_cmdNewline.bind (fun _ => Triple.update fun s hs => ?_) t₂ hhidden).1
    exact ⟨hs.screenMode, hs.smooth, hs.row, hs.drawn⟩
  intro hall
  rw [Traced.All, log_vduMouseShowAfterVduUpdate] at hall
  exact not_all_setCursor hbelow hall

/-- A call that returns uses cells of the screen only, exactly when it puts no newline that begins a smooth
scroll. -/
theorem cells_inScreen_iff {s : Vdu} {call : VduCall} (h : CursorInside s) (hreturns : s.Returns call) :
    (∀ cell ∈ s.cells call, InScreen cell) ↔ s.Allows call := by
  constructor
  · intro hcells
    cases call with
    | vduPutc times c =>
      intro hc hedge
      have hwait := (triple_waitForScroll_holds times (fun smooth row => smooth = true ∧ row = ROWS - 1)
        (.start s) ⟨h, h.arrived, hedge⟩).1
      have hend : ((waitForScroll times).final (.start s)).now.scrollActive = false := hreturns
      rw [Vdu.cells, VduCall.run, vduPutc, Prog.final_bind, Prog.final_bind, Prog.result_now, Prog.final_now,
        Prog.final_when, if_pos hend] at hcells
      exact not_all_putc hwait.1 hc hwait.2.2 hcells
    | _ => trivial
  · exact fun hallows => (triple_call call (.start s) ⟨h, hallows⟩).2 (Traced.all_start _ _)

theorem inside_step {s : Vdu} {call : VduCall} (h : CursorInside s) (hallows : s.Allows call) : CursorInside (s.step call) :=
  (triple_call call (.start s) ⟨h, hallows⟩).1

theorem inside_powerUp : CursorInside Vdu.powerUp := by
  refine ⟨⟨by decide, fun _ => by decide, fun h => ?_, nofun, nofun⟩, by decide⟩
  exact absurd (show (0 : Int) ≤ -1 from h) (by decide)

/-- The cells that the calls of a run use are in the screen, exactly when none of them puts a newline in the
last row while smooth scrolling is on. -/
theorem screen_bounds_iff {m : UInt8} {calls : List VduCall}
    (hreturns : Run.AtEveryStep Vdu.step Vdu.Returns Vdu.powerUp (.resetDisplay m :: calls)) :
    Run.AtEveryStep Vdu.step (fun s call => ∀ cell ∈ s.cells call, InScreen cell) Vdu.powerUp
        (.resetDisplay m :: calls) ↔
      Run.AtEveryStep Vdu.step Vdu.Allows Vdu.powerUp (.resetDisplay m :: calls) := by
  have hcalls : ∀ (s : Vdu) call, CursorInside s → ((s.Returns call ∧ ∀ cell ∈ s.cells call, InScreen cell) ↔
      s.Returns call ∧ s.Allows call) :=
    fun s call hs => and_congr_right fun hreturns => cells_inScreen_iff hs hreturns
  have hcongr : Run.AtEveryStep Vdu.step (fun s call => s.Returns call ∧ ∀ cell ∈ s.cells call, InScreen cell)
      Vdu.powerUp (.resetDisplay m :: calls) ↔ _ := Run.atEveryStep_congr
    (fun s call hs hcall => inside_step hs ((hcalls s call hs).1 hcall).2) hcalls inside_powerUp
  exact (Run.atEveryStep_and_iff hreturns).symm.trans (hcongr.trans (Run.atEveryStep_and_iff hreturns))

/-- In the modes after power-up a letter may be put anywhere. -/
theorem screen_bounds_letter :
    Run.AtEveryStep Vdu.step (fun s call => ∀ cell ∈ s.cells call, InScreen cell) Vdu.powerUp
      [.resetDisplay 0, .moveCursor 79 23, .vduPutc [] 0x41] := by
  refine (screen_bounds_iff ?_).2 ?_
  · simp only [Run.atEveryStep_cons, Run.atEveryStep_nil, Vdu.Returns, true_and, and_true]
    decide +kernel
  · simp only [Run.atEveryStep_cons, Run.atEveryStep_nil, Vdu.Allows, true_and, and_true]
    exact fun hc => absurd hc (by decide)

/-- In the default mode a newline in the last row draws the cursor in row 24. -/
theorem not_screen_bounds :
    ¬ Run.AtEveryStep Vdu.step (fun s call => ∀ cell ∈ s.cells call, InScreen cell) Vdu.powerUp
      [.resetDisplay 0, .moveCursor 0 23, .vduPutc [] 0x0A] := by
  intro h
  have hcell : (24, 0) ∈ ((Vdu.powerUp.step (.resetDisplay 0)).step (.moveCursor 0 23)).cells (.vduPutc [] 0x0A) := by
    decide +kernel
  have hrow := (h [.resetDisplay 0, .moveCursor 0 23] (.vduPutc [] 0x0A) [] rfl (24, 0) hcell).1
  exact absurd hrow (by decide)

end NeoMmu
