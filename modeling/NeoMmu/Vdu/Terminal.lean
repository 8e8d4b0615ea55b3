import NeoMmu.Foundation.Log
import NeoMmu.Vdu.Editing

/-!
# The terminal

In a text mode that scrolls, and while nothing is inserted, `vduPutc()` is a terminal: the screen shows the last lines
of what has been printed since it was cleared. No mode wraps its text, so that a line that is too long goes on in the
last column. It does not matter whether the scrolling is smooth or instant.
-/

namespace NeoMmu

/-- `\r` or `\n` -/
def isNewline (c : UInt8) : Bool := c = 0x0D || c = 0x0A

/-- A character of the text, or a newline. -/
def IsPrinted (c : UInt8) : Prop := 0x20 ≤ c ∧ c ≠ 0x7F ∨ isNewline c = true

theorem IsPrinted.fixed {c : UInt8} (h : IsPrinted c) : (TextCall.vduPutc c).Fixed := by
  constructor <;> rintro rfl <;> revert h <;> simp [IsPrinted, isNewline]

/-- A character in the colors of the text. -/
def VduText.cell (x : VduText) (c : UInt8) : VduCell := { x.blank with ch := c }

namespace VduText

variable {x : VduText}

/-- The text is printed: no scroll is active, the mode is one of text that scrolls, and nothing is inserted. -/
structure Printing (x : VduText) : Prop extends Sound x where
  idle : x.scrollActive = false
  textMode : x.vduMode.textMode = true
  autoScroll : x.vduMode.autoScroll = true
  overwrites : x.gInsertMode = false ∨ x.gAsScreenMode = false

theorem gInsertMode_finish (x : VduText) : x.finish.gInsertMode = x.gInsertMode := by
  rw [finish, scrollRow, arrive]
  split
  · split <;> rfl
  · rfl

theorem gInsertMode_newline (x : VduText) : x.newline.gInsertMode = x.gInsertMode := by
  rw [newline]
  split
  · rfl
  split
  · rw [scrollUp, scrollRow, arrive]
    split
    · rfl
    · split <;> rfl
  · rfl

/-- A character overwrites the cell under the cursor. -/
theorem Printing.put_char (h : x.Printing) {c : UInt8} (hlow : 0x20 ≤ c) (hdelete : c ≠ 0x7F) :
    x.put c = (x.fill x.row x.col 1 (x.cell c)).advance := by
  have hswitch : x.putSwitch c = x.regular c := by
    unfold putSwitch
    split
    all_goals first
      | exact absurd hlow (by decide)
      | exact absurd rfl hdelete
      | rfl
  have hinsert : ¬ (x.gInsertMode = true ∧ x.gAsScreenMode = true) := by
    rcases h.overwrites with h | h <;> simp [h]
  rw [put, if_pos h.textMode, hswitch, regular, if_neg fun hc => absurd hc.1 (UInt8.not_lt.2 hlow), if_neg hinsert,
    overwrite, if_pos hlow]
  rfl

theorem Printing.put_newline (h : x.Printing) {c : UInt8} (hc : isNewline c = true) : x.put c = x.newline.save := by
  have hc : c = 0x0D ∨ c = 0x0A := by simpa [isNewline] using hc
  rw [put, if_pos h.textMode]
  rcases hc with rfl | rfl <;> rfl

/-- What is printed leaves the mode, the colors and the choice of the scrolling. -/
theorem Printing.step (h : x.Printing) {c : UInt8} (hc : IsPrinted c) :
    (x.put c).finish.Printing ∧ (x.put c).finish.blank = x.blank := by
  have hsettings : (x.put c).finish.settings = x.settings := by
    rw [settings_finish]
    exact settings_after hc.fixed
  obtain ⟨hsound, hidle⟩ := (h.toSound.put h.idle c).finish
  have hmode : (x.put c).finish.vduMode = x.vduMode :=
    congrArg (fun t : Fin NUMBER_OF_MODES × Bool × VduCell × Bool => vduModes.get t.1) hsettings
  have hinsert : (x.put c).finish.gInsertMode = x.gInsertMode := by
    rw [gInsertMode_finish]
    rcases hc with ⟨hlow, hdelete⟩ | hnewline
    · rw [h.put_char hlow hdelete]
      rfl
    · rw [h.put_newline hnewline]
      exact gInsertMode_newline x
  refine ⟨⟨hsound, hidle, hmode ▸ h.textMode, hmode ▸ h.autoScroll, ?_⟩, congrArg (·.2.2.1) hsettings⟩
  rw [hinsert, show (x.put c).finish.gAsScreenMode = x.gAsScreenMode from congrArg (·.2.1) hsettings]
  exact h.overwrites

/-- The text of a newline once its scroll is over, be it smooth or instant. -/
theorem Printing.finish_newline (h : x.Printing) (hedge : ¬ x.row + 1 < ROWS) :
    x.newline.save.finish.gScreen = x.rotate.gScreen ∧ x.newline.save.finish.row = ROWS - 1 ∧
      x.newline.save.finish.col = 0 := by
  rw [newline, if_neg hedge, if_pos h.autoScroll, scrollUp]
  split
  · -- the scroll is smooth and ends here
    rw [finish_of_active rfl]
    exact ⟨rfl, rfl, rfl⟩
  · rw [finish_of_idle]
    · exact ⟨rfl, rfl, rfl⟩
    · exact h.idle

theorem Shows.finish_newline {p : Page VduCell ROWS COLS} (hp : x.Shows p) (h : x.Printing) :
    x.newline.save.finish.Shows (p.newline true x.blank) := by
  have hinsert : x.newline.save.finish.gInsertMode = x.gInsertMode :=
    (gInsertMode_finish _).trans (gInsertMode_newline x)
  have hrow := hp.row_lt
  by_cases hedge : x.row + 1 < ROWS
  · have hnewline : x.newline = { x with col := 0, row := x.row + 1 } := if_pos hedge
    rw [finish_of_idle (by rw [hnewline]; exact h.idle), hnewline, Page.newline, if_pos (hp.row ▸ hedge)]
    refine ⟨hp.lines, ?_, rfl, hp.insert⟩
    show min (p.row + 1) (ROWS - 1) = x.row + 1
    rw [hp.row]
    omega
  · obtain ⟨hscreen, hrow', hcol'⟩ := h.finish_newline hedge
    rw [Page.newline, if_neg (hp.row ▸ hedge), if_pos rfl]
    refine ⟨hp.scroll.lines.trans ?_, ?_, hcol'.symm, hp.insert.trans hinsert.symm⟩
    · rw [VduText.lines, VduText.lines, hscreen]
    · show p.row = _
      rw [hrow', hp.row]
      omega

/-- The screen shows a log, in the colors of the text. -/
def ShowsLog (x : VduText) (log : List (List UInt8)) : Prop :=
  ∃ p : Page VduCell ROWS COLS, x.Shows p ∧ p.ShowsLog x.blank (log.map (·.map x.cell))

variable {older : List (List UInt8)} {current : List UInt8}

theorem ShowsLog.put_char (hlog : x.ShowsLog (older ++ [current])) (h : x.Printing) {c : UInt8} (hlow : 0x20 ≤ c)
    (hdelete : c ≠ 0x7F) : (x.put c).finish.ShowsLog (older ++ [current ++ [c]]) := by
  obtain ⟨p, hp, hshows⟩ := hlog
  have hput := h.put_char hlow hdelete
  rw [finish_of_idle (by rw [hput]; exact h.idle), hput]
  refine ⟨_, (hp.overwrite (x.cell c)).right, ?_⟩
  rw [List.map_append, List.map_singleton] at hshows ⊢
  rw [List.map_append, List.map_singleton]
  exact hshows.write (x.cell c)

theorem ShowsLog.put_newline (hlog : x.ShowsLog (older ++ [current])) (h : x.Printing) {c : UInt8}
    (hc : isNewline c = true) : (x.put c).finish.ShowsLog (older ++ [current] ++ [[]]) := by
  obtain ⟨p, hp, hshows⟩ := hlog
  have hblank := (h.step (.inr hc)).2
  have hcell : (x.put c).finish.cell = x.cell := funext fun c => by rw [cell, cell, hblank]
  refine ⟨p.newline true x.blank, ?_, ?_⟩
  · rw [h.put_newline hc]
    exact hp.finish_newline h
  · rw [hblank, hcell, List.map_append, List.map_singleton, List.map_append, List.map_singleton, List.map_nil]
    rw [List.map_append, List.map_singleton] at hshows
    exact hshows.newline

/-- A run of characters and newlines adds its lines to the log. -/
theorem showsLog_perform (h : x.Printing) (hlog : x.ShowsLog (older ++ [current])) {bytes : List UInt8}
    (hbytes : ∀ c ∈ bytes, IsPrinted c) :
    (x.perform (bytes.map .vduPutc)).ShowsLog (older ++ (bytes.splitOnP isNewline).modifyHead (current ++ ·)) ∧
      (x.perform (bytes.map .vduPutc)).blank = x.blank := by
  induction bytes generalizing x older current with
  | nil =>
    rw [List.splitOnP_nil, List.modifyHead_cons, List.append_nil]
    exact ⟨hlog, rfl⟩
  | cons c bytes ih =>
    obtain ⟨hnext, hblank⟩ := h.step (hbytes c List.mem_cons_self)
    have hrest := fun c hc => hbytes c (List.mem_cons_of_mem _ hc)
    have hperform : x.perform ((c :: bytes).map .vduPutc) = (x.put c).finish.perform (bytes.map .vduPutc) := rfl
    rw [hperform, ← hblank, List.splitOnP_cons_eq_if_modifyHead]
    split
    · rename_i hnewline
      have hlog' := (ih hnext (hlog.put_newline h hnewline) hrest)
      refine ⟨?_, hlog'.2⟩
      have hlines : older ++ ([] :: bytes.splitOnP isNewline).modifyHead (current ++ ·) =
          older ++ [current] ++ (bytes.splitOnP isNewline).modifyHead ([] ++ ·) := by
        rcases hsplit : bytes.splitOnP isNewline with - | ⟨line, lines⟩ <;> simp
      rw [hlines]
      exact hlog'.1
    · rename_i hnewline
      obtain ⟨hlow, hdelete⟩ := (hbytes c List.mem_cons_self).resolve_right hnewline
      have hlog' := (ih hnext (hlog.put_char h hlow hdelete) hrest)
      refine ⟨?_, hlog'.2⟩
      have hlines : ((bytes.splitOnP isNewline).modifyHead (c :: ·)).modifyHead (current ++ ·) =
          (bytes.splitOnP isNewline).modifyHead (current ++ [c] ++ ·) := by
        rcases bytes.splitOnP isNewline with - | ⟨line, lines⟩ <;> simp
      rw [hlines]
      exact hlog'.1

end VduText

/-- The display is a terminal: its mode is one of text that scrolls, no scroll is active, and nothing is inserted. -/
structure Vdu.IsTerminal (s : Vdu) : Prop where
  idle : s.scrollActive = false
  textMode : s.vduMode.textMode = true
  autoScroll : s.vduMode.autoScroll = true
  overwrites : s.gInsertMode = false ∨ s.gAsScreenMode = false

/-- The screen shows the last lines of a text, with the cursor behind its end. -/
structure Vdu.ShowsText (s : Vdu) (log : List (List UInt8)) : Prop where
  lines : s.text.lines = screenLines ROWS COLS s.blank (log.map (·.map s.text.cell))
  row : s.gCursor.row = min log.length ROWS - 1
  col : s.gCursor.col = min (log.getLastD []).length (COLS - 1)

theorem VduText.ShowsLog.showsText {s : Vdu} {log : List (List UInt8)} (h : s.text.ShowsLog log) :
    s.ShowsText log := by
  obtain ⟨p, hp, hshows⟩ := h
  have hrow := hp.row.symm.trans hshows.row
  rw [List.length_map] at hrow
  refine ⟨hp.lines.symm.trans hshows.lines, hrow, (hp.col.symm.trans hshows.col).trans ?_⟩
  rw [List.getLastD_eq_getLast?, List.getLastD_eq_getLast?, List.getLast?_map]
  rcases log.getLast? with - | line
  · rfl
  · simp

/-- From any state that calls reach, a screen that is cleared and then printed on shows the last lines of what has been
printed, however long the text is. -/
theorem terminal_shows_text {calls : List VduCall} (hterminal : (calls.foldl Vdu.step Vdu.powerUp).IsTerminal)
    {bytes : List UInt8} (hbytes : ∀ c ∈ bytes, IsPrinted c) {s' : Vdu}
    (hrun : Performs ((calls.foldl Vdu.step Vdu.powerUp).step .cmdClearScreen) (bytes.map .vduPutc) s') :
    s'.ShowsText (bytes.splitOnP isNewline) := by
  have hsound := text_sound_of_run calls
  generalize calls.foldl Vdu.step Vdu.powerUp = s at hterminal hrun hsound
  obtain ⟨hidle, htext, hscroll, hinsert⟩ := hterminal
  have hclear : (s.step .cmdClearScreen).text = s.text.clear.move 0 0 := (edits_cmdClearScreen (.start s) rfl).1
  have hprinting : (s.step .cmdClearScreen).text.Printing := by
    rw [hclear]
    exact ⟨(hsound.withScreen _).move 0 0, hidle, htext, hscroll, hinsert⟩
  have hlog : (s.step .cmdClearScreen).text.ShowsLog ([] ++ [[]]) := by
    rw [hclear]
    have hcursor : InScreen (s.text.row, s.text.col) := ⟨hsound.row (hsound.arrived hidle), hsound.col⟩
    exact ⟨_, (VduText.shows_page hcursor).clear, Page.showsLog_clear⟩
  have hperform : s'.text = (s.step .cmdClearScreen).text.perform (bytes.map .vduPutc) := by
    rw [hrun.text, VduText.finish_of_idle hprinting.idle]
  have hshows := (VduText.showsLog_perform hprinting hlog hbytes).1
  have hlines : [] ++ (bytes.splitOnP isNewline).modifyHead ([] ++ ·) = bytes.splitOnP isNewline := by
    rcases hsplit : bytes.splitOnP isNewline with - | ⟨line, lines⟩ <;> simp
  rw [← hperform, hlines] at hshows
  exact hshows.showsText

theorem terminal_shows_text_ready : ∃ s' : Vdu,
    Performs ((Vdu.powerUp.step (.resetDisplay 0)).step .cmdClearScreen)
      ((ascii "READY" ++ [0x0D] ++ ascii "NEO").map .vduPutc) s' ∧ s'.ShowsText [ascii "READY", ascii "NEO"] := by
  obtain ⟨s', hrun⟩ := exists_performs (text_sound_of_run [.resetDisplay 0, .cmdClearScreen])
    ((ascii "READY" ++ [0x0D] ++ ascii "NEO").map .vduPutc)
  have hterminal : ([VduCall.resetDisplay 0].foldl Vdu.step Vdu.powerUp).IsTerminal := by
    constructor <;> decide +kernel
  have hbytes : ∀ c ∈ ascii "READY" ++ [0x0D] ++ ascii "NEO", IsPrinted c := by
    simp only [IsPrinted]
    decide +kernel
  have hlog : (ascii "READY" ++ [0x0D] ++ ascii "NEO").splitOnP isNewline = [ascii "READY", ascii "NEO"] := by
    decide +kernel
  exact ⟨s', hrun, hlog ▸ terminal_shows_text hterminal hbytes hrun⟩

end NeoMmu
