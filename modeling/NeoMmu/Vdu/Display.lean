import NeoMmu.Foundation.Bytes
import NeoMmu.Foundation.Traced

/-!
# The text display

`vdu.cpp` without its framebuffer: the text buffer, the text cursor, the scrolling and the mouse pointer, as far
as they decide what is in `gScreen` and which cells of it are used. Every index that is applied to `gScreen` is
an event, in program order.
-/

namespace NeoMmu

/-! ## The geometry -/

/-- `WIDTH` -/
abbrev WIDTH : Nat := 640

/-- `HEIGHT` -/
abbrev HEIGHT : Nat := 480

/-- `FONT_CELL_WIDTH` -/
abbrev FONT_CELL_WIDTH : Nat := 8

/-- `FONT_CELL_HEIGHT` -/
abbrev FONT_CELL_HEIGHT : Nat := 20

/-- `ROWS` -/
def ROWS : Nat := HEIGHT / FONT_CELL_HEIGHT

/-- `COLS` -/
def COLS : Nat := WIDTH / FONT_CELL_WIDTH

theorem ROWS_eq : ROWS = 24 := rfl

theorem COLS_eq : COLS = 80 := rfl

/-- `DEFAULT_COLOR` -/
def DEFAULT_COLOR : UInt8 := 15

/-- `DEFAULT_BG_COLOR` -/
def DEFAULT_BG_COLOR : UInt8 := 4

/-- `CURSOR_BLINK_INTERVAL_MS` -/
def CURSOR_BLINK_INTERVAL_MS : UInt32 := 400

/-- `SCROLL_INTERVAL_MS` -/
def SCROLL_INTERVAL_MS : UInt32 := 8

/-- `VDU_MOUSE_POINTER_WIDTH` -/
def VDU_MOUSE_POINTER_WIDTH : Int := 10

/-- `VDU_MOUSE_POINTER_HEIGHT` -/
def VDU_MOUSE_POINTER_HEIGHT : Int := 16

/-- `VDU_MOUSE_LEFT_BUTTON` -/
def VDU_MOUSE_LEFT_BUTTON : UInt8 := 0x01

/-! ## The modes -/

/-- `cursor_shape_t` -/
inductive CursorShape
  | cBLOCK
  | cUNDERLINE
  deriving DecidableEq, Repr

/-- `vdu_mode_t` -/
structure VduMode where
  visibleCursor : Bool
  cursorShape : CursorShape
  blinkCursor : Bool
  textMode : Bool
  autoScroll : Bool
  smoothScroll : Bool
  textWrap : Bool
  screenMode : Bool
  deriving DecidableEq, Repr

/-- `NUMBER_OF_MODES` -/
abbrev NUMBER_OF_MODES : Nat := 10

/-- `vduModes` -/
def vduModes : Vector VduMode NUMBER_OF_MODES := #v[
  ⟨true, .cBLOCK, true, true, true, true, false, true⟩,
  ⟨true, .cUNDERLINE, true, true, true, true, false, true⟩,
  ⟨true, .cBLOCK, true, true, true, false, false, false⟩,
  ⟨true, .cUNDERLINE, true, true, true, false, false, false⟩,
  ⟨false, .cUNDERLINE, false, true, true, false, false, false⟩,
  ⟨false, .cUNDERLINE, false, true, false, false, false, false⟩,
  ⟨false, .cUNDERLINE, false, false, false, false, false, false⟩,
  ⟨true, .cBLOCK, true, true, true, false, false, false⟩,
  ⟨false, .cUNDERLINE, false, false, false, false, false, false⟩,
  ⟨false, .cUNDERLINE, false, true, false, false, false, false⟩]

/-- `DEFAULT_MODE` -/
def DEFAULT_MODE : UInt8 := 0

/-! ## The state -/

/-- `vdu_cell_t` -/
structure VduCell where
  ch : UInt8
  fg : UInt8
  bg : UInt8
  deriving DecidableEq, Repr

/-- `cursor_def_t`. A column and a row are bytes, which no function brings above 80 and 24. -/
structure CursorDef where
  col : Nat
  row : Nat
  shape : CursorShape
  enabled : Bool
  drawn : Bool
  deriving DecidableEq, Repr

/-- `vdu_mouse_def_t`, and where the framebuffer has the pixels of the pointer, which no function reads. -/
structure VduMouse where
  enabled : Bool
  active : Bool
  drawn : Bool
  x : Int
  y : Int
  buttons : UInt8
  drawnAt : Int × Int

/-- The statics of `vdu.cpp`, and those of `taskVDU()`. -/
structure Vdu where
  /-- The index behind the pointer `vduMode`. -/
  mode : Fin NUMBER_OF_MODES
  gCursor : CursorDef
  gSaveCursor : CursorDef
  gScreen : Nat → Nat → VduCell
  gInEditmode : Bool
  currentColor : UInt8
  currentBGColor : UInt8
  gInsertMode : Bool
  gAsScreenMode : Bool
  smoothScroll : Bool
  scrollActive : Bool
  scrollPixel : Nat
  pendingCursorRow : Int
  gMouse : VduMouse
  gMouseVduUpdateDepth : UInt8
  last : UInt32
  lastScroll : UInt32

/-- `*vduMode` -/
def Vdu.vduMode (s : Vdu) : VduMode := vduModes.get s.mode

/-- What the modes whose screen is edited have in common. -/
theorem Vdu.mode_of_screenMode {s : Vdu} (h : s.vduMode.screenMode = true) :
    s.vduMode.textMode = true ∧ s.vduMode.visibleCursor = true ∧ s.vduMode.autoScroll = true :=
  (by decide : ∀ i : Fin NUMBER_OF_MODES, (vduModes.get i).screenMode = true →
    (vduModes.get i).textMode = true ∧ (vduModes.get i).visibleCursor = true ∧
      (vduModes.get i).autoScroll = true) s.mode h

/-- No mode wraps its text. -/
theorem Vdu.textWrap_eq_false (s : Vdu) : s.vduMode.textWrap = false :=
  (by decide : ∀ i : Fin NUMBER_OF_MODES, (vduModes.get i).textWrap = false) s.mode

/-- A space in the colors of the text. -/
def Vdu.blank (s : Vdu) : VduCell := ⟨' '.toUInt8, s.currentColor, s.currentBGColor⟩

/-- The statics at power-up. -/
def Vdu.powerUp : Vdu where
  mode := Fin.ofNat NUMBER_OF_MODES DEFAULT_MODE.toNat
  gCursor := ⟨0, 0, .cBLOCK, false, false⟩
  gSaveCursor := ⟨0, 0, .cBLOCK, false, false⟩
  gScreen _ _ := ⟨0, 0, 0⟩
  gInEditmode := false
  currentColor := DEFAULT_COLOR
  currentBGColor := DEFAULT_BG_COLOR
  gInsertMode := false
  gAsScreenMode := false
  smoothScroll := false
  scrollActive := false
  scrollPixel := 0
  pendingCursorRow := -1
  gMouse := ⟨true, false, false, WIDTH / 2, HEIGHT / 2, 0, (0, 0)⟩
  gMouseVduUpdateDepth := 0
  last := 0
  lastScroll := 0

/-- Programs whose events are the indices of `gScreen`, row before column. -/
abbrev VduProg := Prog (Traced Vdu (Nat × Nat))

open Prog (now update event when)

/-! ## Cells -/

/-- Apply some indices to `gScreen`. -/
def touchCells (cells : List (Nat × Nat)) : VduProg Unit := cells.forM event

/-- Read `gScreen[row][col]`. -/
def readCell (row col : Nat) : VduProg VduCell := do
  event (row, col)
  return (← now).gScreen row col

/-- Write `n` cells of a row, from a column on, with one value. -/
def fillCells (row col n : Nat) (cell : VduCell) : VduProg Unit := do
  touchCells ((List.range n).map fun i => (row, col + i))
  update fun s => { s with
    gScreen := fun r c => if r = row ∧ col ≤ c ∧ c < col + n then cell else s.gScreen r c }

/-- `memmove()` and `memcpy()` of `n` cells, from `src` on to `dst` on. -/
def moveCells (dst src : Nat × Nat) (n : Nat) : VduProg Unit := do
  touchCells ((List.range n).map fun i => (src.1, src.2 + i))
  touchCells ((List.range n).map fun i => (dst.1, dst.2 + i))
  update fun s => { s with
    gScreen := fun r c =>
      if r = dst.1 ∧ dst.2 ≤ c ∧ c < dst.2 + n then s.gScreen src.1 (src.2 + (c - dst.2))
      else s.gScreen r c }

/-- `initTextbuffer()` -/
def initTextbuffer : VduProg Unit := do
  let s ← now
  (List.range ROWS).forM fun r => fillCells r 0 COLS s.blank

/-- `vduDrawCell()`: the cell it draws. -/
def vduDrawCell (col row : Nat) : VduProg Unit := event (row, col)

/-- `vduDrawCellPreservingCursor()` -/
def vduDrawCellPreservingCursor (col row : Nat) : VduProg Unit := do
  let s ← now
  if s.gCursor.drawn = false ∨ col ≠ s.gCursor.col ∨ row ≠ s.gCursor.row then
    vduDrawCell col row
  else
    event (row, col)
    match s.gCursor.shape with
    | .cBLOCK => pure ()
    | .cUNDERLINE => vduDrawCell col row

/-- `vduRedrawLine()` -/
def vduRedrawLine (row : Nat) : VduProg Unit := touchCells ((List.range COLS).map fun col => (row, col))

/-! ## The mouse pointer -/

/-- `vduMouseRedrawUnderlyingText()` -/
def vduMouseRedrawUnderlyingText : VduProg Unit := do
  let s ← now
  if s.vduMode.textMode then
    let x0 := max s.gMouse.x 0
    let y0 := max s.gMouse.y 0
    let x1 := min (s.gMouse.x + VDU_MOUSE_POINTER_WIDTH - 1) (WIDTH - 1)
    let y1 := min (s.gMouse.y + VDU_MOUSE_POINTER_HEIGHT - 1) (HEIGHT - 1)
    let col0 := x0.toNat / FONT_CELL_WIDTH
    let row0 := y0.toNat / FONT_CELL_HEIGHT
    let col1 := min (x1.toNat / FONT_CELL_WIDTH) (COLS - 1)
    let row1 := min (y1.toNat / FONT_CELL_HEIGHT) (ROWS - 1)
    (List.range' row0 (row1 + 1 - row0)).forM fun row =>
      (List.range' col0 (col1 + 1 - col0)).forM fun col => vduDrawCellPreservingCursor col row

/-- `vduMouseHideOverlay()` -/
def vduMouseHideOverlay : VduProg Unit := do
  when (← now).gMouse.drawn do
    vduMouseRedrawUnderlyingText
    update fun s => { s with gMouse.drawn := false }

/-- `vduMouseDrawOverlay()` -/
def vduMouseDrawOverlay : VduProg Unit := update fun s =>
  if s.gMouse.enabled = false ∨ s.gMouse.active = false ∨ s.gMouse.drawn = true ∨
      s.vduMode.textMode = false ∨ s.scrollActive = true then s
  else { s with gMouse.drawn := true, gMouse.drawnAt := (s.gMouse.x, s.gMouse.y) }

/-- `vduMouseHideForVduUpdate()` -/
def vduMouseHideForVduUpdate : VduProg Unit := do
  let depth := (← now).gMouseVduUpdateDepth
  update fun s => { s with gMouseVduUpdateDepth := depth + 1 }
  when (depth = 0) vduMouseHideOverlay

/-- `vduMouseShowAfterVduUpdate()` -/
def vduMouseShowAfterVduUpdate : VduProg Unit := do
  let depth := (← now).gMouseVduUpdateDepth
  when (depth ≠ 0) do
    update fun s => { s with gMouseVduUpdateDepth := depth - 1 }
    when (depth - 1 = 0) vduMouseDrawOverlay

/-! ## The cursor -/

/-- `showCursor()` -/
def showCursor : VduProg Unit := do
  let s ← now
  when (s.gCursor.enabled = true ∧ s.gCursor.drawn = false) do
    event (s.gCursor.row, s.gCursor.col)
    update fun s => { s with gCursor.drawn := true }

/-- `hideCursor()` -/
def hideCursor : VduProg Unit := do
  let s ← now
  when s.gCursor.drawn do
    event (s.gCursor.row, s.gCursor.col)
    vduDrawCell s.gCursor.col s.gCursor.row
    update fun s => { s with gCursor.drawn := false }

/-- `setCursor()` -/
def setCursor (vShow : Bool) : VduProg Unit := do
  vduMouseHideForVduUpdate
  when (← now).vduMode.textMode do
    update fun s => { s with gCursor.enabled := s.vduMode.visibleCursor }
    if vShow then showCursor else hideCursor
  vduMouseShowAfterVduUpdate

/-- `moveCursor()` -/
def moveCursor (x y : Nat) : VduProg Unit := do
  vduMouseHideForVduUpdate
  let wasVisible := (← now).gCursor.drawn
  when wasVisible hideCursor
  update fun s => { s with
    gCursor.col := if x < COLS then x else COLS - 1
    gCursor.row := if y < ROWS then y else ROWS - 1 }
  when wasVisible showCursor
  vduMouseShowAfterVduUpdate

/-- `vduMouseClampCoordinate()` -/
def vduMouseClampCoordinate (value maximum : Int) : Int :=
  if value < 0 then 0 else if maximum < value then maximum else value

/-- `vduMouseEnable()` -/
def vduMouseEnable (enabled : Bool) : VduProg Unit := do
  vduMouseHideForVduUpdate
  update fun s => { s with gMouse.enabled := enabled }
  vduMouseShowAfterVduUpdate

/-- `vduMouseUpdate()` -/
def vduMouseUpdate (dx dy : Int8) (buttons : UInt8) : VduProg Unit := do
  let s ← now
  let movement := dx ≠ 0 ∨ dy ≠ 0
  let buttonsChanged := buttons ≠ s.gMouse.buttons
  let leftClick := buttons &&& VDU_MOUSE_LEFT_BUTTON ≠ 0 ∧ s.gMouse.buttons &&& VDU_MOUSE_LEFT_BUTTON = 0
  when (movement ∨ buttonsChanged) do
    vduMouseHideForVduUpdate
    update fun s => { s with gMouse.active := true }
    when movement do
      update fun s => { s with
        gMouse.x := vduMouseClampCoordinate (s.gMouse.x + dx.toInt) (WIDTH - 1)
        gMouse.y := vduMouseClampCoordinate (s.gMouse.y + dy.toInt) (HEIGHT - 1) }
    update fun s => { s with gMouse.buttons := buttons }
    let s ← now
    when (leftClick ∧ s.gMouse.enabled = true ∧ s.vduMode.textMode = true) do
      moveCursor (s.gMouse.x.toNat / FONT_CELL_WIDTH) (s.gMouse.y.toNat / FONT_CELL_HEIGHT)
    vduMouseShowAfterVduUpdate

/-! ## Scrolling -/

/-- The rows of the text buffer move up, and the last one is cleared. -/
def rotateTextbuffer : VduProg Unit := do
  (List.range (ROWS - 1)).forM fun r => moveCells (r, 0) (r + 1, 0) COLS
  fillCells (ROWS - 1) 0 COLS (← now).blank

/-- What `scrollStep()` and `cmdScrollUp()` do alike once the framebuffer has moved by a row. -/
def scrollRow : VduProg Unit := do
  rotateTextbuffer
  update fun s =>
    if 0 ≤ s.pendingCursorRow then
      { s with gCursor.row := s.pendingCursorRow.toNat, pendingCursorRow := -1 }
    else s
  vduRedrawLine (ROWS - 1)
  update fun s => { s with gCursor.drawn := false }
  showCursor

/-- `scrollStep()` -/
def scrollStep : VduProg Unit := do
  vduMouseHideForVduUpdate
  update fun s => { s with scrollPixel := s.scrollPixel + 1 }
  when ((← now).scrollPixel = FONT_CELL_HEIGHT) do
    update fun s => { s with scrollPixel := 0, scrollActive := false }
    scrollRow
  vduMouseShowAfterVduUpdate

/-- `cmdScrollUp()` -/
def cmdScrollUp : VduProg Unit := do
  vduMouseHideForVduUpdate
  when (← now).gCursor.drawn hideCursor
  (if (← now).smoothScroll then update fun s => { s with scrollPixel := 0, scrollActive := true } else scrollRow)
  vduMouseShowAfterVduUpdate

/-- `taskVDU()`, when `millis()` returns `ms`. -/
def taskVDU (ms : UInt32) : VduProg Unit := do
  let s ← now
  when (s.scrollActive = true ∧ SCROLL_INTERVAL_MS ≤ ms - s.lastScroll) do
    scrollStep
    update fun s => { s with lastScroll := ms }
  let s ← now
  when (s.scrollActive = false ∧ CURSOR_BLINK_INTERVAL_MS ≤ ms - s.last) do
    when (s.vduMode.blinkCursor = true ∧ s.gCursor.drawn = true) (event (s.gCursor.row, s.gCursor.col))
    update fun s => { s with last := ms }

/-- `vduSaveCursor()` -/
def vduSaveCursor : VduProg Unit := update fun s => { s with gSaveCursor := s.gCursor, gInEditmode := true }

/-- `vduRestoreCursor()` -/
def vduRestoreCursor : VduProg Unit := do
  let s ← now
  when s.gInEditmode do
    (if s.gSaveCursor.row = s.gCursor.row then
      if s.gSaveCursor.row = ROWS - 1 then do
        hideCursor
        cmdScrollUp
        moveCursor 0 (ROWS - 1)
        showCursor
      else
        moveCursor 0 (s.gSaveCursor.row + 1)
    else
      moveCursor 0 s.gSaveCursor.row)
    update fun s => { s with gInEditmode := false }

/-- `cmdNewline()` -/
def cmdNewline : VduProg Unit := do
  update fun s => { s with gCursor.col := 0 }
  update fun s => { s with gCursor.row := s.gCursor.row + 1 }
  let s ← now
  when (ROWS ≤ s.gCursor.row) do
    if s.vduMode.autoScroll then
      update fun s => { s with pendingCursorRow := ROWS - 1 }
      cmdScrollUp
    else
      update fun s => { s with gCursor.row := ROWS - 1 }

/-! ## Editing -/

/-- `vduDeletec()` -/
def vduDeletec : VduProg Unit := do
  let s ← now
  let row := s.gCursor.row
  moveCells (row, s.gCursor.col) (row, s.gCursor.col + 1) (COLS - s.gCursor.col - 1)
  fillCells row (COLS - 1) 1 s.blank
  vduRedrawLine row

/-- `vduInsertc()` -/
def vduInsertc (c : UInt8) : VduProg Unit := do
  let s ← now
  let row := s.gCursor.row
  moveCells (row, s.gCursor.col + 1) (row, s.gCursor.col) (COLS - s.gCursor.col - 1)
  fillCells row s.gCursor.col 1 { s.blank with ch := c }
  vduRedrawLine row

/-- `vduDisplayc()` -/
def vduDisplayc (c : UInt8) : VduProg Unit := do
  when (0x20 ≤ c) do
    let s ← now
    fillCells s.gCursor.row s.gCursor.col 1 { s.blank with ch := c }

/-- `cmdCursorLeft()` -/
def cmdCursorLeft : VduProg Unit := update fun s =>
  if 0 < s.gCursor.col then { s with gCursor.col := s.gCursor.col - 1 } else s

/-- `cmdCursorRight()` -/
def cmdCursorRight : VduProg Unit := update fun s =>
  if s.gCursor.col < COLS - 1 then { s with gCursor.col := s.gCursor.col + 1 } else s

/-- `cmdCursorUp()` -/
def cmdCursorUp : VduProg Unit := update fun s =>
  if 0 < s.gCursor.row then { s with gCursor.row := s.gCursor.row - 1 } else s

/-- `cmdCursorDown()` -/
def cmdCursorDown : VduProg Unit := update fun s =>
  if s.gCursor.row < ROWS - 1 then { s with gCursor.row := s.gCursor.row + 1 } else s

/-- `cmdCursorBOL()` -/
def cmdCursorBOL : VduProg Unit := update fun s => { s with gCursor.col := 0 }

/-- The scan of `cmdCursorEOL()`, from column `n - 1` down: the cursor stops behind the first character that is
not a space. -/
def scanEOL : Nat → VduProg Unit
  | 0 => update fun s => { s with gCursor.col := 0 }
  | c + 1 => do
    let cell ← readCell (← now).gCursor.row c
    if cell.ch ≠ ' '.toUInt8 then
      update fun s => { s with gCursor.col := if COLS ≤ c + 1 then COLS - 1 else c + 1 }
    else
      scanEOL c

/-- `cmdCursorEOL()` -/
def cmdCursorEOL : VduProg Unit := scanEOL COLS

/-- `cmdDelete()` -/
def cmdDelete : VduProg Unit := vduDeletec

/-- `cmdClearEOL()` -/
def cmdClearEOL : VduProg Unit := do
  let s ← now
  fillCells s.gCursor.row s.gCursor.col (COLS - s.gCursor.col) s.blank

/-- `cmdInsertMode()` -/
def cmdInsertMode : VduProg Unit := update fun s => { s with gInsertMode := true }

/-- `cmdOverwriteMode()` -/
def cmdOverwriteMode : VduProg Unit := update fun s => { s with gInsertMode := false }

/-- `cmdSmoothScroll()` -/
def cmdSmoothScroll : VduProg Unit := update fun s => { s with smoothScroll := true }

/-- `cmdInstantScroll()` -/
def cmdInstantScroll : VduProg Unit := update fun s => { s with smoothScroll := false }

/-- `cmdClearScreen()` -/
def cmdClearScreen : VduProg Unit := do
  vduMouseHideForVduUpdate
  hideCursor
  initTextbuffer
  moveCursor 0 0
  setCursor true
  vduMouseShowAfterVduUpdate

/-! ## Output -/

/-- `ctrlTable` -/
def ctrlTable (c : UInt8) : Option (VduProg Unit) :=
  match c with
  | 0x01 => some cmdCursorBOL
  | 0x02 => some cmdCursorLeft
  | 0x04 => some cmdDelete
  | 0x05 => some cmdCursorEOL
  | 0x06 => some cmdCursorRight
  | 0x09 => some cmdInsertMode
  | 0x0B => some cmdClearEOL
  | 0x0C => some cmdClearScreen
  | 0x0E => some cmdCursorDown
  | 0x0F => some cmdOverwriteMode
  | 0x10 => some cmdCursorUp
  | 0x14 => some cmdInstantScroll
  | 0x15 => some cmdSmoothScroll
  | _ => none

/-- The wait in `vduPutc()` for a scroll that is active: calls of `taskVDU()` at the times of the list. -/
def waitForScroll : List UInt32 → VduProg Unit
  | [] => pure ()
  | ms :: rest => do
    when (← now).scrollActive do
      taskVDU ms
      waitForScroll rest

/-- The default case of the switch in `vduPutc()`. -/
def putRegular (c : UInt8) : VduProg Unit := do
  let s ← now
  if c < 0x20 ∧ s.gAsScreenMode = true then
    (ctrlTable c).getD (pure ())
  else
    when (s.gInsertMode = true ∧ s.gAsScreenMode = true) (vduInsertc c)
    vduDisplayc c
    update fun s => { s with gCursor.col := s.gCursor.col + 1 }
    let s ← now
    when (COLS ≤ s.gCursor.col) do
      if s.vduMode.textWrap then
        cmdNewline
      else
        update fun s => { s with gCursor.col := COLS - 1 }

/-- The switch in `vduPutc()`. -/
def putSwitch (c : UInt8) : VduProg Unit :=
  match c with
  | 0x00 => pure ()
  | 0x0D | 0x0A => do
    cmdNewline
    vduSaveCursor
  | 0x08 | 0x7F => update fun s =>
    if 0 < s.gCursor.col then { s with gCursor.col := s.gCursor.col - 1 } else s
  | c => putRegular c

/-- `vduPutc()` behind the wait. -/
def putc (c : UInt8) : VduProg Unit := do
  vduMouseHideForVduUpdate
  when (← now).vduMode.textMode do
    setCursor false
    putSwitch c
    setCursor true
  vduMouseShowAfterVduUpdate

/-- `vduPutc()`. The call has not gone on when the scroll is still active after the times of the list. -/
def vduPutc (times : List UInt32) (c : UInt8) : VduProg Unit := do
  waitForScroll times
  when ((← now).scrollActive = false) (putc c)

/-! ## Modes -/

/-- `setTColor()` -/
def setTColor (vColor : UInt8) : VduProg Unit := update fun s => { s with currentColor := vColor }

/-- `setBGColor()` -/
def setBGColor (vColor : UInt8) : VduProg Unit := update fun s => { s with currentBGColor := vColor }

/-- `vduSetMode()` -/
def vduSetMode (vMode : UInt8) : VduProg Unit := do
  vduMouseHideForVduUpdate
  update fun s => { s with mode := Fin.ofNat NUMBER_OF_MODES vMode.toNat }
  update fun s => { s with
    gAsScreenMode := s.vduMode.screenMode
    smoothScroll := s.vduMode.smoothScroll
    gCursor.shape := s.vduMode.cursorShape
    gCursor.enabled := s.vduMode.visibleCursor }
  vduMouseShowAfterVduUpdate

/-- `resetDisplay()` -/
def resetDisplay (vMode : UInt8) : VduProg Unit := do
  setTColor DEFAULT_COLOR
  setBGColor DEFAULT_BG_COLOR
  vduSetMode vMode
  cmdClearScreen

end NeoMmu
