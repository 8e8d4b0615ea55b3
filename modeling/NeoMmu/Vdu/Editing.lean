import NeoMmu.Foundation.Page
import NeoMmu.Vdu.Scrolling

/-!
# The screen editor

In a screen mode with instant scrolling the screen is a page of text, and `vduPutc()` makes one edit of it for
every byte.
-/

namespace NeoMmu

/-- The edit of a byte. -/
def Page.put (p : Page VduCell ROWS COLS) (autoScroll : Bool) (blank : VduCell) (c : UInt8) :
    Page VduCell ROWS COLS :=
  match c with
  | 0x01 => p.lineStart
  | 0x02 | 0x08 | 0x7F => p.left
  | 0x04 => p.deleteCell blank
  | 0x05 => p.lineEnd fun cell => cell.ch == ' '.toUInt8
  | 0x06 => p.right
  | 0x09 => p.setInsert true
  | 0x0A | 0x0D => p.newline autoScroll blank
  | 0x0B => p.clearLineEnd blank
  | 0x0C => p.clear blank
  | 0x0E => p.down
  | 0x0F => p.setInsert false
  | 0x10 => p.up
  | c => if 0x20 ≤ c then p.type { blank with ch := c } else p

namespace VduText

/-- The lines of the text buffer. -/
def lines (x : VduText) : List (List VduCell) := tabulate ROWS fun row => tabulate COLS (x.gScreen row)

/-- The screen shows the page. -/
structure Shows (x : VduText) (p : Page VduCell ROWS COLS) : Prop where
  lines : p.lines = x.lines
  row : p.row = x.row
  col : p.col = x.col
  insert : p.insert = x.gInsertMode

variable {x y : VduText} {p : Page VduCell ROWS COLS}

theorem Shows.row_lt (h : x.Shows p) : x.row < ROWS := h.row ▸ p.row_lt

theorem Shows.col_lt (h : x.Shows p) : x.col < COLS := h.col ▸ p.col_lt

/-- The line under the cursor. -/
theorem Shows.line (h : x.Shows p) : p.lines[p.row]? = some (tabulate COLS (x.gScreen x.row)) := by
  rw [h.lines, h.row, List.getElem?_eq_getElem (by rw [VduText.lines, length_tabulate]; exact h.row_lt)]
  exact congrArg some (getElem_tabulate _)

/-- The cursor is elsewhere. -/
theorem Shows.place (h : x.Shows p) {row col row' col' : Nat} (hrow : row < ROWS) (hcol : col < COLS)
    (hrow' : row = row') (hcol' : col = col') :
    Shows { x with row := row', col := col' } (p.place row col hrow hcol) :=
  ⟨h.lines, hrow', hcol', h.insert⟩

/-- The line under the cursor is edited. -/
theorem Shows.editLine (h : x.Shows p) {f : List VduCell → List VduCell}
    {hf : ∀ line : List VduCell, line.length = COLS → (f line).length = COLS} {g : Nat → Nat → VduCell}
    (hline : f (tabulate COLS (x.gScreen x.row)) = tabulate COLS (g x.row))
    (hother : ∀ row ≠ x.row, g row = x.gScreen row) : (x.withScreen g).Shows (p.editLine f hf) := by
  refine ⟨?_, h.row, h.col, h.insert⟩
  show p.lines.modify p.row f = _
  rw [h.lines, h.row, VduText.lines, modify_tabulate]
  refine tabulate_congr fun row _ => ?_
  split
  · rename_i hrow
    rw [hrow, hline]
    rfl
  · rename_i hrow
    exact congrArg (tabulate COLS) (hother row hrow).symm

theorem Shows.overwrite (h : x.Shows p) (cell : VduCell) :
    (x.fill x.row x.col 1 cell).Shows (p.overwrite cell) := by
  refine h.editLine ?_ fun row hrow => funext fun c => if_neg fun hc => hrow hc.1
  rw [set_tabulate, h.col]
  refine tabulate_congr fun c _ => ?_
  split_ifs <;> first | rfl | omega

theorem Shows.insertCell (h : x.Shows p) (c : UInt8) :
    (x.insert c).Shows (p.insertCell { x.blank with ch := c }) := by
  have hcol := h.col_lt
  refine h.editLine (g := (x.insert c).gScreen) ?_ fun row hrow => funext fun col => ?_
  · rw [h.col, insertIdx_tabulate hcol]
    refine tabulate_congr fun col hlt => ?_
    simp only [VduText.insert, fill, copy, true_and]
    split_ifs <;> first | rfl | omega | exact congrArg _ (by omega)
  · simp only [VduText.insert, fill, copy, hrow, false_and, if_false]

theorem Shows.deleteCell (h : x.Shows p) : x.delete.Shows (p.deleteCell x.blank) := by
  have hcol := h.col_lt
  refine h.editLine (g := x.delete.gScreen) ?_ fun row hrow => funext fun col => ?_
  · rw [h.col, eraseIdx_tabulate hcol]
    refine tabulate_congr fun col hlt => ?_
    simp only [delete, fill, copy, true_and]
    split_ifs <;> first | rfl | omega | exact congrArg _ (by omega)
  · simp only [delete, fill, copy, hrow, false_and, if_false]

theorem Shows.clearLineEnd (h : x.Shows p) :
    (x.fill x.row x.col (COLS - x.col) x.blank).Shows (p.clearLineEnd x.blank) := by
  have hcol := h.col_lt
  refine h.editLine ?_ fun row hrow => funext fun c => if_neg fun hc => hrow hc.1
  rw [h.col, take_tabulate hcol.le]
  refine tabulate_congr fun c hc => ?_
  split_ifs <;> first | rfl | omega

theorem Shows.right (h : x.Shows p) : x.advance.Shows p.right := by
  have hcol := h.col_lt
  refine h.place _ _ h.row ?_
  rw [h.col]
  split <;> omega

theorem Shows.left (h : x.Shows p) : x.left.Shows p.left := by
  rw [VduText.left]
  split
  · exact h.place _ _ h.row (h.col ▸ rfl)
  · have hcol : p.col - 1 = x.col := by
      have := h.col
      omega
    exact ⟨h.lines, h.row, hcol, h.insert⟩

theorem Shows.lineEnd (h : x.Shows p) :
    Shows { x with col := x.lineEnd COLS } (p.lineEnd fun cell => cell.ch == ' '.toUInt8) := by
  have hend : ∀ n ≤ COLS, x.lineEnd n = min (((tabulate n (x.gScreen x.row)).rdropWhile fun cell =>
      cell.ch == ' '.toUInt8)).length (COLS - 1) := by
    intro n hn
    induction n with
    | zero => rfl
    | succ n ih =>
      rw [VduText.lineEnd, length_rdropWhile_tabulate_succ, ih (by omega)]
      by_cases hblank : (x.gScreen x.row n).ch = ' '.toUInt8
      · rw [if_neg (not_not.2 hblank), if_pos (beq_iff_eq.2 hblank)]
      · rw [if_pos hblank, if_neg (mt beq_iff_eq.1 hblank)]
        split <;> omega
  refine h.place _ _ h.row ?_
  rw [h.line, hend COLS le_rfl]
  rfl

theorem Shows.type (h : x.Shows p) {c : UInt8} (hc : 0x20 ≤ c) :
    ((if x.gInsertMode = true then x.insert c else x).overwrite c).advance.Shows (p.type { x.blank with ch := c }) := by
  rw [Page.type, h.insert, VduText.overwrite, if_pos hc]
  apply Shows.right
  split
  · exact (h.insertCell c).overwrite _
  · exact h.overwrite _

theorem Shows.clear (h : x.Shows p) : (x.clear.move 0 0).Shows (p.clear x.blank) := by
  refine ⟨?_, rfl, rfl, h.insert⟩
  show List.replicate ROWS (List.replicate COLS x.blank) = _
  rw [replicate_eq_tabulate, replicate_eq_tabulate]
  refine tabulate_congr fun row hrow => tabulate_congr fun col hcol => ?_
  exact (if_pos ⟨hrow, hcol⟩).symm

/-- The rows move up when a scroll is an instant one. -/
theorem Shows.scroll (h : x.Shows p) : x.rotate.Shows (p.scroll x.blank) := by
  refine ⟨?_, h.row, h.col, h.insert⟩
  show p.lines.tail ++ [List.replicate COLS x.blank] = _
  rw [h.lines, VduText.lines, tail_tabulate (by decide), replicate_eq_tabulate]
  refine tabulate_congr fun row hrow => ?_
  split
  · refine tabulate_congr fun col hcol => ?_
    exact (if_pos ⟨by omega, hcol⟩).symm
  · refine tabulate_congr fun col hcol => ?_
    have hlast : ¬ (row < ROWS - 1 ∧ col < COLS) := fun h => absurd h.1 (by omega)
    exact ((if_neg hlast).trans (if_pos ⟨by omega, hcol⟩)).symm

theorem Shows.newline (h : x.Shows p) (hinstant : x.smoothScroll = false) :
    x.newline.Shows (p.newline x.vduMode.autoScroll x.blank) := by
  have hcols : 0 < COLS := by decide
  have hrow := h.row_lt
  rw [VduText.newline, Page.newline, h.row]
  split
  · refine ⟨h.lines, ?_, rfl, h.insert⟩
    show min (p.row + 1) (ROWS - 1) = x.row + 1
    rw [h.row]
    omega
  · split
    · -- the row that waits for the cursor is the last one
      have hscroll : scrollUp { x with col := 0, row := x.row + 1, pendingCursorRow := ROWS - 1 } =
          { x.rotate with col := 0, row := ROWS - 1, pendingCursorRow := -1 } := by
        rw [scrollUp, if_neg (hinstant ▸ Bool.false_ne_true)]
        rfl
      rw [hscroll]
      refine ⟨h.scroll.lines, ?_, rfl, h.insert⟩
      show p.row = ROWS - 1
      rw [h.row]
      omega
    · refine ⟨h.lines, ?_, rfl, h.insert⟩
      show p.row = ROWS - 1
      rw [h.row]
      omega

theorem Shows.lineStart (h : x.Shows p) : Shows { x with col := 0 } p.lineStart := h.place _ _ h.row rfl

theorem Shows.cursorRight (h : x.Shows p) :
    Shows (if x.col < COLS - 1 then { x with col := x.col + 1 } else x) p.right := by
  have hcol := h.col
  have hlt := h.col_lt
  split
  · refine h.place _ _ h.row ?_
    omega
  · refine ⟨h.lines, h.row, ?_, h.insert⟩
    show min (p.col + 1) (COLS - 1) = x.col
    omega

theorem Shows.down (h : x.Shows p) : Shows (if x.row < ROWS - 1 then { x with row := x.row + 1 } else x) p.down := by
  have hrow := h.row
  have hlt := h.row_lt
  split
  · refine h.place _ _ ?_ h.col
    omega
  · refine ⟨h.lines, ?_, h.col, h.insert⟩
    show min (p.row + 1) (ROWS - 1) = x.row
    omega

theorem Shows.up (h : x.Shows p) : Shows (if 0 < x.row then { x with row := x.row - 1 } else x) p.up := by
  have hrow := h.row
  split
  · refine h.place _ _ ?_ h.col
    omega
  · refine ⟨h.lines, ?_, h.col, h.insert⟩
    show p.row - 1 = x.row
    omega

/-- The commands of the control characters. -/
theorem Shows.control (h : x.Shows p) {c : UInt8} (hlow : c < 0x20) (hleft : c ≠ 0x08)
    (hnewline : c ≠ 0x0A ∧ c ≠ 0x0D) : (x.control c).Shows (p.put x.vduMode.autoScroll x.blank c) := by
  unfold VduText.control
  split
  · exact h.lineStart
  · exact h.left
  · exact h.deleteCell
  · exact h.lineEnd
  · exact h.cursorRight
  · exact ⟨h.lines, h.row, h.col, rfl⟩
  · exact h.clearLineEnd
  · exact h.clear
  · exact h.down
  · exact ⟨h.lines, h.row, h.col, rfl⟩
  · exact h.up
  · exact ⟨h.lines, h.row, h.col, h.insert⟩
  · exact ⟨h.lines, h.row, h.col, h.insert⟩
  · have hput : p.put x.vduMode.autoScroll x.blank c = p := by
      unfold Page.put
      split
      all_goals first
        | exact absurd rfl ‹_ → False›
        | exact absurd hlow (by decide)
        | exact absurd rfl hleft
        | exact absurd rfl hnewline.1
        | exact absurd rfl hnewline.2
        | exact if_neg (UInt8.not_le.2 hlow)
    rw [hput]
    exact h

/-- A byte is an edit of the page. -/
theorem Shows.put (h : x.Shows p) (hscreen : x.gAsScreenMode = true) (htext : x.vduMode.textMode = true)
    (hinstant : x.smoothScroll = false) (c : UInt8) :
    (x.put c).Shows (p.put x.vduMode.autoScroll x.blank c) := by
  have hnewline : x.newline.save.Shows (p.newline x.vduMode.autoScroll x.blank) := by
    obtain ⟨hlines, hrow, hcol, hinsert⟩ := h.newline hinstant
    exact ⟨hlines, hrow, hcol, hinsert⟩
  rw [VduText.put, if_pos htext]
  unfold putSwitch
  split
  · exact h
  · exact hnewline
  · exact hnewline
  · exact h.left
  · exact h.left
  · rename_i hzero hcr hlf hbs hdel
    by_cases hlow : c < 0x20
    · rw [regular, if_pos ⟨hlow, hscreen⟩]
      exact h.control hlow hbs ⟨hlf, hcr⟩
    · have hput : p.put x.vduMode.autoScroll x.blank c = p.type { x.blank with ch := c } := by
        unfold Page.put
        split
        all_goals first
          | exact absurd (by decide) hlow
          | exact absurd rfl hdel
          | exact if_pos (UInt8.not_lt.1 hlow)
      rw [regular, if_neg fun hc => hlow hc.1, hput]
      have htype := h.type (UInt8.not_lt.1 hlow)
      simp only [hscreen, and_true]
      exact htype

/-- The page on the screen. -/
def page (x : VduText) (h : InScreen (x.row, x.col)) : Page VduCell ROWS COLS where
  lines := x.lines
  row := x.row
  col := x.col
  insert := x.gInsertMode
  length_lines := length_tabulate ROWS _
  length_line line hline := by
    obtain ⟨row, -, rfl⟩ := List.mem_map.1 hline
    exact length_tabulate COLS _
  row_lt := h.1
  col_lt := h.2

theorem shows_page (h : InScreen (x.row, x.col)) : x.Shows (x.page h) := ⟨rfl, rfl, rfl, rfl⟩

end VduText

/-- In a screen mode with instant scrolling, `vduPutc()` makes the edit of its byte. No scroll is active there in
any state that calls reach, as `text_sound_of_run` says. -/
theorem vduPutc_shows {s : Vdu} (hscreen : s.gAsScreenMode = true) (htext : s.vduMode.textMode = true)
    (hinstant : s.smoothScroll = false) (hidle : s.scrollActive = false)
    (hcursor : InScreen (s.gCursor.row, s.gCursor.col)) (times : List UInt32) (c : UInt8) :
    (s.step (.vduPutc times c)).text.Shows ((s.text.page hcursor).put s.vduMode.autoScroll s.blank c) := by
  rw [text_step_vduPutc hidle]
  exact (VduText.shows_page (x := s.text) hcursor).put hscreen htext hinstant c

/-- The display of the default mode, after instant scrolling is chosen. -/
def Vdu.instantScreen : Vdu := (Vdu.powerUp.step (.resetDisplay 0)).step (.vduPutc [] 0x14)

/-- A letter is typed there. -/
theorem vduPutc_shows_letter :
    ∃ hcursor, (Vdu.instantScreen.step (.vduPutc [] 0x41)).text.Shows
      ((Vdu.instantScreen.text.page hcursor).put Vdu.instantScreen.vduMode.autoScroll Vdu.instantScreen.blank 0x41) :=
  ⟨by decide +kernel, vduPutc_shows (by decide +kernel) (by decide +kernel) (by decide +kernel) (by decide +kernel)
    (by decide +kernel) [] 0x41⟩

/-! ## Runs of the screen editor -/

namespace VduText

variable {x : VduText}

/-- The screen is edited, with instant scrolling. -/
structure Editing (x : VduText) : Prop extends Sound x where
  screen : x.gAsScreenMode = true
  textMode : x.vduMode.textMode = true
  instantScroll : x.smoothScroll = false

theorem Editing.idle (h : x.Editing) : x.scrollActive = false := h.instant h.screen h.instantScroll

/-- Every byte but `^U` leaves the editor with its mode and its colors. -/
theorem Editing.put (h : x.Editing) {c : UInt8} (hc : c ≠ 0x15) :
    (x.put c).Editing ∧ (x.put c).vduMode = x.vduMode ∧ (x.put c).blank = x.blank := by
  have hsettings : (x.put c).settings = x.settings := by
    by_cases hinstant : c = 0x14
    · have hput : x.put c = { x with smoothScroll := false } := by
        rw [VduText.put, if_pos h.textMode, hinstant]
        exact if_pos ⟨by decide, h.screen⟩
      rw [hput, ← h.instantScroll]
    · have hfixed : (TextCall.vduPutc c).Fixed := ⟨hinstant, hc⟩
      exact settings_after hfixed
  have hmode : (x.put c).vduMode = x.vduMode := congrArg (fun t : Fin NUMBER_OF_MODES × Bool × VduCell × Bool => vduModes.get t.1) hsettings
  refine ⟨⟨h.toSound.put h.idle c, ?_, ?_, ?_⟩, hmode, congrArg (·.2.2.1) hsettings⟩
  · exact (congrArg (·.2.1) hsettings).trans h.screen
  · rw [hmode]
    exact h.textMode
  · exact (congrArg (·.2.2.2) hsettings).trans h.instantScroll

end VduText

/-- A run of bytes without `^U` makes their edits, one after the other. -/
theorem vduPutc_run_shows {s : Vdu} (hs : s.text.Editing) {p : Page VduCell ROWS COLS} (hp : s.text.Shows p)
    {bytes : List UInt8} (hbytes : 0x15 ∉ bytes) :
    (bytes.foldl (fun s c => s.step (.vduPutc [] c)) s).text.Shows
      (bytes.foldl (fun p c => p.put s.vduMode.autoScroll s.blank c) p) := by
  induction bytes generalizing s p with
  | nil => exact hp
  | cons c bytes ih =>
    rw [List.mem_cons, not_or] at hbytes
    have hput := text_step_vduPutc hs.idle [] c
    obtain ⟨hs', hmode, hblank⟩ := hs.put (Ne.symm hbytes.1)
    have hnext := hp.put hs.screen hs.textMode hs.instantScroll c
    rw [← hput] at hs' hmode hblank hnext
    have hrun := ih hs' hnext hbytes.2
    have hmode : (s.step (.vduPutc [] c)).vduMode = s.vduMode := hmode
    have hblank : (s.step (.vduPutc [] c)).blank = s.blank := hblank
    rw [hmode, hblank] at hrun
    exact hrun

end NeoMmu
