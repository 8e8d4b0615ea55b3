import NeoMmu.Vdu.Bounds

/-!
# Smooth and instant scrolling

A smooth scroll moves the rows of the text buffer at the end of its last scanline, an instant one at once. Apart
from the two variables of the scrolling, the text of a run is the same with both, as long as no newline scrolls:
a newline saves the place of the cursor, which is still below the screen when the scroll is a smooth one.
-/

namespace NeoMmu

open Prog (now update event when Triple)

namespace VduText

variable {x y : VduText}

/-! ## The states that calls reach -/

/-- The cursor is inside the screen, or a row waits for it. While the screen is edited with instant scrolling, no
scroll is active. -/
structure Due (x : VduText) : Prop where
  col : x.col < COLS
  row : x.pendingCursorRow < 0 → x.row < ROWS
  pending : 0 ≤ x.pendingCursorRow → x.pendingCursorRow = ROWS - 1
  pixel : x.scrollActive = true → x.scrollPixel < FONT_CELL_HEIGHT
  instant : x.gAsScreenMode = true → x.smoothScroll = false → x.scrollActive = false

/-- A row waits for the cursor only while a scroll is active. -/
structure Sound (x : VduText) : Prop extends Due x where
  active : 0 ≤ x.pendingCursorRow → x.scrollActive = true

theorem Sound.arrived (h : x.Sound) (hidle : x.scrollActive = false) : x.pendingCursorRow < 0 := by
  by_contra hpending
  exact absurd (hidle.symm.trans (h.active (not_lt.1 hpending))) Bool.false_ne_true

theorem Sound.withScreen (h : x.Sound) (g : Nat → Nat → VduCell) : (x.withScreen g).Sound :=
  ⟨⟨h.col, h.row, h.pending, h.pixel, h.instant⟩, h.active⟩

/-- The cursor is elsewhere in the screen. -/
theorem Sound.place (h : x.Sound) {row col : Nat} (hrow : row < ROWS) (hcol : col < COLS) :
    Sound { x with row := row, col := col } :=
  ⟨⟨hcol, fun _ => hrow, h.pending, h.pixel, h.instant⟩, h.active⟩

/-- The cursor is elsewhere in its row. -/
theorem Sound.setCol (h : x.Sound) {col : Nat} (hcol : col < COLS) : Sound { x with col := col } :=
  ⟨⟨hcol, h.row, h.pending, h.pixel, h.instant⟩, h.active⟩

theorem Sound.move (h : x.Sound) (col row : Nat) : (x.move col row).Sound := by
  have hrows := ROWS_eq
  have hcols := COLS_eq
  apply h.place
  · split <;> omega
  · split <;> omega

/-- After a scroll no row waits. -/
theorem Due.scrollRow (h : x.Due) : x.scrollRow.Sound := by
  have hrows := ROWS_eq
  rw [VduText.scrollRow, arrive]
  split
  · rename_i hpending
    have heq : x.pendingCursorRow = ROWS - 1 := h.pending hpending
    have hneg : ¬ (0 : Int) ≤ -1 := by decide
    refine ⟨⟨h.col, fun _ => ?_, fun h => absurd h hneg, h.pixel, h.instant⟩, fun h => absurd h hneg⟩
    show x.pendingCursorRow.toNat < ROWS
    omega
  · rename_i hpending
    exact ⟨⟨h.col, h.row, h.pending, h.pixel, h.instant⟩, fun h => absurd h hpending⟩

theorem Due.scrollUp (h : x.Due) : x.scrollUp.Sound := by
  rw [VduText.scrollUp]
  split
  · rename_i hsmooth
    refine ⟨⟨h.col, h.row, h.pending, fun _ => show 0 < FONT_CELL_HEIGHT by decide, fun _ hinstant => ?_⟩, fun _ => rfl⟩
    exact absurd (hsmooth.symm.trans hinstant) Bool.false_ne_true.symm
  · exact h.scrollRow

theorem Sound.scrollStep (h : x.Sound) (hactive : x.scrollActive = true) : x.scrollStep.Sound := by
  have hpixel := h.pixel hactive
  rw [VduText.scrollStep]
  split
  · exact Due.scrollRow ⟨h.col, h.row, h.pending, by rintro ⟨⟩, fun _ _ => rfl⟩
  · refine ⟨⟨h.col, h.row, h.pending, fun _ => ?_, h.instant⟩, h.active⟩
    show x.scrollPixel + 1 < FONT_CELL_HEIGHT
    omega

theorem Sound.stepped (h : x.Sound) (hstep : x.Stepped y) : y.Sound := by
  rcases hstep with rfl | ⟨hactive, rfl⟩
  · exact h
  · exact h.scrollStep hactive

theorem Sound.restore (h : x.Sound) : x.restore.Sound := by
  have hset : ∀ y : VduText, y.Sound → Sound { y with gInEditmode := false } :=
    fun y hy => ⟨⟨hy.col, hy.row, hy.pending, hy.pixel, hy.instant⟩, hy.active⟩
  rw [VduText.restore]
  split
  · apply hset
    split
    · split
      · exact h.toDue.scrollUp.move 0 _
      · exact h.move 0 _
    · exact h.move 0 _
  · exact h

theorem Sound.newline (h : x.Sound) : x.newline.Sound := by
  have hrows := ROWS_eq
  have hcol : 0 < COLS := by decide
  rw [VduText.newline]
  split
  · exact h.place ‹_› hcol
  · split
    · refine Due.scrollUp ⟨hcol, fun hneg => ?_, fun _ => rfl, h.pixel, h.instant⟩
      exact absurd hneg (show ¬ ((ROWS : Int) - 1 < 0) by decide)
    · exact h.place (by omega) hcol

theorem lineEnd_lt (x : VduText) (n : Nat) : x.lineEnd n < COLS := by
  have hcols := COLS_eq
  induction n with
  | zero =>
    rw [lineEnd]
    omega
  | succ n ih =>
    rw [lineEnd]
    split
    · split <;> omega
    · exact ih

theorem Sound.left (h : x.Sound) : x.left.Sound := by
  rw [VduText.left]
  split
  · exact h.setCol ((Nat.sub_le _ 1).trans_lt h.col)
  · exact h

theorem Sound.control (h : x.Sound) (hidle : x.scrollActive = false) (c : UInt8) : (x.control c).Sound := by
  have hcol := h.col
  have hrow := h.row (h.arrived hidle)
  have hset : ∀ insert smooth, Sound { x with gInsertMode := insert, smoothScroll := smooth } :=
    fun _ _ => ⟨⟨h.col, h.row, h.pending, h.pixel, fun _ _ => hidle⟩, h.active⟩
  unfold VduText.control
  split
  · exact h.setCol (by decide)
  · exact h.left
  · exact (h.withScreen _).withScreen _
  · exact h.setCol (x.lineEnd_lt COLS)
  · split
    · exact h.setCol (by omega)
    · exact h
  · exact hset _ _
  · exact h.withScreen _
  · exact (h.withScreen _).move 0 0
  · split
    · exact h.place (by omega) hcol
    · exact h
  · exact hset _ _
  · split
    · exact h.place (by omega) hcol
    · exact h
  · exact hset _ _
  · exact hset _ _
  · exact h

theorem Sound.regular (h : x.Sound) (hidle : x.scrollActive = false) (c : UInt8) : (x.regular c).Sound := by
  have hcols := COLS_eq
  have hadvance : ∀ y : VduText, y.Sound → y.advance.Sound := by
    intro y hy
    apply hy.setCol
    split <;> omega
  have hover : ∀ y : VduText, y.Sound → (y.overwrite c).Sound := by
    intro y hy
    rw [overwrite]
    split
    · exact hy.withScreen _
    · exact hy
  rw [VduText.regular]
  split
  · exact h.control hidle c
  · apply hadvance
    apply hover
    split
    · exact (h.withScreen _).withScreen _
    · exact h

theorem Sound.put (h : x.Sound) (hidle : x.scrollActive = false) (c : UInt8) : (x.put c).Sound := by
  have hsave : ∀ y : VduText, y.Sound → y.save.Sound :=
    fun y hy => ⟨⟨hy.col, hy.row, hy.pending, hy.pixel, hy.instant⟩, hy.active⟩
  rw [VduText.put]
  split
  · unfold VduText.putSwitch
    split
    · exact h
    · exact hsave _ h.newline
    · exact hsave _ h.newline
    · exact h.left
    · exact h.left
    · exact h.regular hidle c
  · exact h

end VduText

section Calls

/-- The text keeps what `I` says of it. -/
abbrev KeepsText (I : VduText → Prop) (m : VduProg Unit) : Prop :=
  Triple (fun _ => True) (fun s => I s.text) m fun s => I s.text

/-- What calls do to the text keeps `I`. -/
structure TextRules (I : VduText → Prop) : Prop where
  stepped : ∀ x y, I x → x.Stepped y → I y
  put : ∀ x c, I x → x.scrollActive = false → I (x.put c)
  move : ∀ x col row, I x → I (x.move col row)
  restore : ∀ x, I x → I x.restore
  clear : ∀ x, I x → I x.clear
  colors : ∀ (x : VduText) fg bg, I x → I { x with currentColor := fg, currentBGColor := bg }
  setMode : ∀ (x : VduText) mode, I x → I { x with
    mode := mode, gAsScreenMode := (vduModes.get mode).screenMode, smoothScroll := (vduModes.get mode).smoothScroll }

section Rules

variable {I : VduText → Prop}

/-- A program whose effect on the text keeps a property. -/
theorem Edits.keepsText {m : VduProg Unit} {F : VduText → VduText} (hm : ∀ x, Edits x m (F x))
    (hF : ∀ x, I x → I (F x)) : KeepsText I m := by
  intro t ht
  obtain ⟨htext, hall⟩ := hm t.now.text t rfl
  refine ⟨?_, hall⟩
  show I _
  rw [htext]
  exact hF _ ht

theorem keepsText_of_sameText {m : VduProg Unit} (hm : Prog.Keeps SameText m) : KeepsText I m :=
  Edits.keepsText (fun _ => edits_of_sameText hm) fun _ h => h

namespace TextRules

variable (rules : TextRules I)

include rules

theorem keeps_taskVDU (ms : UInt32) : KeepsText I (taskVDU ms) := by
  intro t ht
  have htask := stepped_taskVDU ms t rfl
  exact ⟨rules.stepped _ _ ht htask.1, htask.2⟩

theorem keeps_waitForScroll (times : List UInt32) : KeepsText I (waitForScroll times) := by
  induction times with
  | nil => exact Triple.pure ()
  | cons ms rest ih =>
    exact Triple.look fun s hs => Triple.when_keep fun _ => (rules.keeps_taskVDU ms).bind fun _ => ih

theorem keeps_vduSetMode (vMode : UInt8) : KeepsText I (vduSetMode vMode) := by
  refine (keepsText_of_sameText sameText_vduMouseHideForVduUpdate).bind fun _ => ?_
  -- The statics of the mode follow it at once.
  refine Triple.bind (K := fun s => I { s.text with
    gAsScreenMode := s.vduMode.screenMode, smoothScroll := s.vduMode.smoothScroll }) (Triple.update fun s hs => ?_)
    fun _ => ?_
  · exact rules.setMode s.text _ hs
  · refine Triple.bind (K := fun s => I s.text) (Triple.update fun s hs => hs) fun _ => ?_
    exact keepsText_of_sameText sameText_vduMouseShowAfterVduUpdate

theorem keeps_moveCursor (x y : Nat) : KeepsText I (moveCursor x y) :=
  Edits.keepsText (fun _ => edits_moveCursor x y) fun _ => rules.move _ x y

theorem keeps_cmdClearScreen : KeepsText I cmdClearScreen :=
  Edits.keepsText (fun _ => edits_cmdClearScreen) fun _ h => rules.move _ 0 0 (rules.clear _ h)

theorem keeps_resetDisplay (vMode : UInt8) : KeepsText I (resetDisplay vMode) := by
  refine Triple.bind (K := fun s => I s.text) (Triple.update fun s hs => ?_) fun _ => Triple.bind
    (K := fun s => I s.text) (Triple.update fun s hs => ?_) fun _ => ?_
  · exact rules.colors s.text _ s.currentBGColor hs
  · exact rules.colors s.text s.currentColor _ hs
  · exact (rules.keeps_vduSetMode vMode).bind fun _ => rules.keeps_cmdClearScreen

theorem keeps_vduMouseUpdate (dx dy : Int8) (buttons : UInt8) : KeepsText I (vduMouseUpdate dx dy buttons) := by
  refine Triple.look fun s hs => Triple.when_keep fun _ => ?_
  refine (keepsText_of_sameText sameText_vduMouseHideForVduUpdate).bind fun _ => ?_
  refine Triple.bind (keepsText_of_sameText fun _ => rfl) fun _ => ?_
  refine Triple.bind (keepsText_of_sameText (Prog.Keeps.when fun _ => fun _ => rfl)) fun _ => ?_
  refine Triple.bind (keepsText_of_sameText fun _ => rfl) fun _ => Triple.look fun s hs => ?_
  refine Triple.bind (Triple.when_keep fun _ => rules.keeps_moveCursor _ _) fun _ => ?_
  exact keepsText_of_sameText sameText_vduMouseShowAfterVduUpdate

theorem keeps_vduPutc (times : List UInt32) (c : UInt8) : KeepsText I (vduPutc times c) := by
  refine (rules.keeps_waitForScroll times).bind fun _ => Triple.now fun s hs => Triple.when (fun hidle => ?_) ?_
  · intro t ht
    have hidle' : t.now.text.scrollActive = false := ht ▸ hidle
    obtain ⟨htext, hall⟩ := edits_putc c t rfl
    refine ⟨?_, hall⟩
    show I _
    rw [htext]
    exact rules.put _ c (ht ▸ hs) hidle'
  · rintro - _ rfl
    exact hs

/-- Every call keeps what the rules keep. -/
theorem step {s : Vdu} (h : I s.text) (call : VduCall) : I (s.step call).text := by
  have hrun : KeepsText I call.run := by
    cases call with
    | resetDisplay vMode => exact rules.keeps_resetDisplay vMode
    | vduPutc times c => exact rules.keeps_vduPutc times c
    | moveCursor x y => exact rules.keeps_moveCursor _ _
    | setCursor vShow => exact keepsText_of_sameText (sameText_setCursor vShow)
    | vduRestoreCursor => exact Edits.keepsText (fun _ => edits_vduRestoreCursor) rules.restore
    | vduSetMode vMode => exact rules.keeps_vduSetMode vMode
    | cmdClearScreen => exact rules.keeps_cmdClearScreen
    | vduMouseUpdate dx dy buttons => exact rules.keeps_vduMouseUpdate dx dy buttons
    | taskVDU ms => exact rules.keeps_taskVDU ms
  exact (hrun (.start s) h).1

end TextRules

end Rules

/-- The modes whose screen is edited scroll smoothly. -/
theorem smooth_of_screenMode : ∀ mode : Fin NUMBER_OF_MODES, (vduModes.get mode).screenMode = true →
    (vduModes.get mode).smoothScroll = true := by decide

theorem textRules_sound : TextRules VduText.Sound where
  stepped _ _ h hstep := h.stepped hstep
  put _ c h hidle := h.put hidle c
  move _ col row h := h.move col row
  restore _ h := h.restore
  clear _ h := h.withScreen _
  colors _ _ _ h := ⟨⟨h.col, h.row, h.pending, h.pixel, h.instant⟩, h.active⟩
  setMode x mode h := by
    refine ⟨⟨h.col, h.row, h.pending, h.pixel, fun hscreen hinstant => ?_⟩, h.active⟩
    exact absurd ((smooth_of_screenMode mode hscreen).symm.trans hinstant) Bool.false_ne_true.symm

/-- Every call keeps the text sound. -/
theorem text_sound_step {s : Vdu} (h : s.text.Sound) (call : VduCall) : (s.step call).text.Sound :=
  textRules_sound.step h call

/-- The text is sound in every state that calls reach from power-up. -/
theorem text_sound_of_run (calls : List VduCall) : (calls.foldl Vdu.step Vdu.powerUp).text.Sound := by
  refine Run.invariant_foldl (I := fun s : Vdu => s.text.Sound) (fun s call h => text_sound_step h call) ?_ calls
  exact ⟨⟨by decide, fun _ => by decide, fun h => absurd h (by decide), nofun, nofun⟩, fun h => absurd h (by decide)⟩

end Calls

/-! ## The text behind the scrolling -/

namespace VduText

variable {x y : VduText}

/-- The text with instant scrolling. -/
def core (x : VduText) : VduText := { x with smoothScroll := false, scrollPixel := 0 }

/-- The mode, the colors and the choice of the scrolling. -/
def settings (x : VduText) : Fin NUMBER_OF_MODES × Bool × VduCell × Bool :=
  (x.mode, x.gAsScreenMode, x.blank, x.smoothScroll)

/-- The text once the scroll that is active is over. -/
def finish (x : VduText) : VduText :=
  if x.scrollActive then scrollRow { x with scrollPixel := 0, scrollActive := false } else x

theorem finish_of_idle (h : x.scrollActive = false) : x.finish = x := by
  rw [finish, h]
  rfl

theorem scrollRow_scrollActive (x : VduText) : x.scrollRow.scrollActive = x.scrollActive := by
  rw [scrollRow, arrive]
  split <;> rfl

/-- A step of a scroll brings it nearer to the same end. -/
theorem Stepped.finish (h : x.Stepped y) : y.finish = x.finish := by
  rcases h with rfl | ⟨hactive, rfl⟩
  · rfl
  have hfinish : x.finish = scrollRow { x with scrollPixel := 0, scrollActive := false } := if_pos hactive
  rw [hfinish, scrollStep]
  split
  · exact finish_of_idle (scrollRow_scrollActive _)
  · exact if_pos hactive

/-- A newline here scrolls. -/
def AtEdge (x : VduText) : Prop := x.row = ROWS - 1 ∧ x.vduMode.autoScroll = true

/-- A newline that does not scroll. -/
theorem newline_of_not_atEdge (hrow : x.row < ROWS) (h : ¬ x.AtEdge) :
    x.newline = { x with col := 0, row := if x.row + 1 < ROWS then x.row + 1 else ROWS - 1 } := by
  rw [newline]
  split
  · rfl
  · have heq : x.row = ROWS - 1 := by omega
    rw [if_neg fun hauto => h ⟨heq, hauto⟩]

/-- An effect that neither depends on the scrolling nor begins a scroll. -/
structure Indifferent (F : VduText → VduText) : Prop where
  core : ∀ x, (F x).core = F x.core
  settings : ∀ x, (F x).settings = x.settings
  scrollActive : ∀ x, (F x).scrollActive = x.scrollActive

theorem Indifferent.comp {F G : VduText → VduText} (hF : Indifferent F) (hG : Indifferent G) :
    Indifferent fun x => G (F x) where
  core x := by rw [hG.core, hF.core]
  settings x := by rw [hG.settings, hF.settings]
  scrollActive x := by rw [hG.scrollActive, hF.scrollActive]

/-- A case split on what the scrolling leaves alone. -/
theorem Indifferent.ite {F G : VduText → VduText} {C : VduText → Prop} [DecidablePred C]
    (hC : ∀ x : VduText, C x.core ↔ C x) (hF : Indifferent F) (hG : Indifferent G) :
    Indifferent fun x => if C x then F x else G x where
  core x := by
    by_cases h : C x
    · simp only [h, (hC x).2 h, if_true, hF.core]
    · simp only [h, mt (hC x).1 h, if_false, hG.core]
  settings x := by
    split
    · exact hF.settings x
    · exact hG.settings x
  scrollActive x := by
    split
    · exact hF.scrollActive x
    · exact hG.scrollActive x

theorem indifferent_id : Indifferent fun x => x := ⟨fun _ => rfl, fun _ => rfl, fun _ => rfl⟩

theorem indifferent_left : Indifferent left :=
  Indifferent.ite (C := fun x => 0 < x.col) (fun _ => .rfl) ⟨fun _ => rfl, fun _ => rfl, fun _ => rfl⟩ indifferent_id

theorem lineEnd_core (x : VduText) (n : Nat) : x.core.lineEnd n = x.lineEnd n := by
  induction n with
  | zero => rfl
  | succ n ih =>
    rw [lineEnd, lineEnd, ih]
    rfl

/-- The commands apart from those that choose the scrolling. -/
theorem indifferent_control {c : UInt8} (hinstant : c ≠ 0x14) (hsmooth : c ≠ 0x15) :
    Indifferent fun x => x.control c := by
  unfold control
  split
  · exact ⟨fun _ => rfl, fun _ => rfl, fun _ => rfl⟩
  · exact indifferent_left
  · exact ⟨fun _ => rfl, fun _ => rfl, fun _ => rfl⟩
  · refine ⟨fun x => ?_, fun _ => rfl, fun _ => rfl⟩
    rw [lineEnd_core]
    rfl
  · exact Indifferent.ite (C := fun x => x.col < COLS - 1) (fun _ => .rfl) ⟨fun _ => rfl, fun _ => rfl, fun _ => rfl⟩ indifferent_id
  · exact ⟨fun _ => rfl, fun _ => rfl, fun _ => rfl⟩
  · exact ⟨fun _ => rfl, fun _ => rfl, fun _ => rfl⟩
  · exact ⟨fun _ => rfl, fun _ => rfl, fun _ => rfl⟩
  · exact Indifferent.ite (C := fun x => x.row < ROWS - 1) (fun _ => .rfl) ⟨fun _ => rfl, fun _ => rfl, fun _ => rfl⟩ indifferent_id
  · exact ⟨fun _ => rfl, fun _ => rfl, fun _ => rfl⟩
  · exact Indifferent.ite (C := fun x => 0 < x.row) (fun _ => .rfl) ⟨fun _ => rfl, fun _ => rfl, fun _ => rfl⟩ indifferent_id
  · exact absurd rfl hinstant
  · exact absurd rfl hsmooth
  · exact indifferent_id

theorem indifferent_regular {c : UInt8} (hinstant : c ≠ 0x14) (hsmooth : c ≠ 0x15) :
    Indifferent fun x => x.regular c := by
  have hinsert : Indifferent fun x => x.insert c := ⟨fun _ => rfl, fun _ => rfl, fun _ => rfl⟩
  have hoverwrite : Indifferent fun x => x.overwrite c :=
    Indifferent.ite (C := fun _ => 0x20 ≤ c) (fun _ => .rfl) ⟨fun _ => rfl, fun _ => rfl, fun _ => rfl⟩ indifferent_id
  have hadvance : Indifferent advance := ⟨fun _ => rfl, fun _ => rfl, fun _ => rfl⟩
  refine Indifferent.ite (C := fun x => c < 0x20 ∧ x.gAsScreenMode = true) (fun _ => .rfl)
    (indifferent_control hinstant hsmooth) ?_
  refine Indifferent.comp (Indifferent.comp ?_ hoverwrite) hadvance
  exact Indifferent.ite (C := fun x => x.gInsertMode = true ∧ x.gAsScreenMode = true) (fun _ => .rfl) hinsert
    indifferent_id

/-- A newline that does not scroll, and the place of the cursor is saved. -/
theorem core_newline_save (hrow : x.row < ROWS) (hedge : ¬ x.AtEdge) :
    x.newline.save.core = x.core.newline.save ∧ x.newline.save.scrollActive = x.scrollActive := by
  rw [newline_of_not_atEdge hrow hedge, newline_of_not_atEdge (x := x.core) hrow hedge]
  exact ⟨rfl, rfl⟩

/-- A byte that is no newline at the edge begins no scroll. -/
theorem core_put {c : UInt8} (hrow : x.row < ROWS) (hinstant : c ≠ 0x14) (hsmooth : c ≠ 0x15)
    (hedge : c = 0x0D ∨ c = 0x0A → ¬ x.AtEdge) :
    (x.put c).core = x.core.put c ∧ (x.put c).scrollActive = x.scrollActive := by
  have hF : ∀ {F : VduText → VduText}, Indifferent F →
      (F x).core = F x.core ∧ (F x).scrollActive = x.scrollActive := fun hF => ⟨hF.core x, hF.scrollActive x⟩
  have hmode : x.core.vduMode = x.vduMode := rfl
  rw [put, put, hmode]
  split
  · unfold putSwitch
    split
    · exact hF indifferent_id
    · exact core_newline_save hrow (hedge (.inl rfl))
    · exact core_newline_save hrow (hedge (.inr rfl))
    · exact hF indifferent_left
    · exact hF indifferent_left
    · exact hF (indifferent_regular hinstant hsmooth)
  · exact ⟨rfl, rfl⟩

theorem scrollRow_of_neg (h : x.pendingCursorRow < 0) : x.scrollRow = x.rotate :=
  if_neg (not_le.2 h)

theorem finish_of_active (h : x.scrollActive = true) :
    x.finish = scrollRow { x with scrollPixel := 0, scrollActive := false } :=
  if_pos h

/-- A scroll for which no row waits moves the text alike, once it is over. -/
theorem core_finish_scrollUp (hidle : x.scrollActive = false) (harrived : x.pendingCursorRow < 0) (col row : Nat) :
    VduText.core (finish { x.scrollUp.move col row with gInEditmode := false }) =
      { x.core.scrollUp.move col row with gInEditmode := false } := by
  have hcore : x.core.scrollUp = x.core.rotate := scrollRow_of_neg harrived
  rw [hcore, scrollUp]
  split
  · rw [finish_of_active, scrollRow_of_neg]
    · exact (congrArg (fun active : Bool => ({ x.core.rotate.move col row with
        gInEditmode := false, scrollActive := active } : VduText)) hidle).symm
    · exact harrived
    · rfl
  · rw [scrollRow_of_neg harrived, finish_of_idle]
    · rfl
    · exact hidle

/-- The cursor is restored alike. -/
theorem core_restore (hidle : x.scrollActive = false) (harrived : x.pendingCursorRow < 0) :
    x.restore.finish.core = x.core.restore := by
  have hedit : x.core.gInEditmode = x.gInEditmode := rfl
  have hsaved : x.core.savedRow = x.savedRow := rfl
  have hrow : x.core.row = x.row := rfl
  rw [restore, restore, hedit, hsaved, hrow]
  split
  · split
    · split
      · exact core_finish_scrollUp hidle harrived 0 (ROWS - 1)
      · rw [finish_of_idle]
        · rfl
        · exact hidle
    · rw [finish_of_idle]
      · rfl
      · exact hidle
  · rw [finish_of_idle hidle]

theorem settings_scrollRow (x : VduText) : x.scrollRow.settings = x.settings := by
  rw [scrollRow, arrive]
  split <;> rfl

theorem settings_scrollUp (x : VduText) : x.scrollUp.settings = x.settings := by
  rw [scrollUp]
  split
  · rfl
  · exact settings_scrollRow x

theorem settings_finish (x : VduText) : x.finish.settings = x.settings := by
  rw [finish]
  split
  · exact settings_scrollRow _
  · rfl

theorem Sound.finish (h : x.Sound) : x.finish.Sound ∧ x.finish.scrollActive = false := by
  cases hactive : x.scrollActive with
  | true =>
    rw [finish_of_active hactive]
    exact ⟨Due.scrollRow ⟨h.col, h.row, h.pending, nofun, fun _ _ => rfl⟩, scrollRow_scrollActive _⟩
  | false =>
    rw [finish_of_idle hactive]
    exact ⟨h, hactive⟩

end VduText

/-! ## Calls with their scrolls stepped to the end -/

/-- A call that puts a byte or restores the cursor. -/
inductive TextCall
  | vduPutc (c : UInt8)
  | vduRestoreCursor

/-- The call of the display. No scroll is active, so that it does not wait. -/
def TextCall.call : TextCall → VduCall
  | .vduPutc c => .vduPutc [] c
  | .vduRestoreCursor => .vduRestoreCursor

/-- It does not choose the scrolling. -/
def TextCall.Fixed : TextCall → Prop
  | .vduPutc c => c ≠ 0x14 ∧ c ≠ 0x15
  | .vduRestoreCursor => True

/-- From `s` the calls lead to `s'`, where `taskVDU()` steps every scroll to its end before the next call. -/
inductive Performs : Vdu → List TextCall → Vdu → Prop
  | done {s : Vdu} (hidle : s.scrollActive = false) : Performs s [] s
  | task {s s' : Vdu} {calls : List TextCall} (ms : UInt32) (h : Performs (s.step (.taskVDU ms)) calls s') :
      Performs s calls s'
  | call {s s' : Vdu} {calls : List TextCall} (call : TextCall) (hidle : s.scrollActive = false)
      (h : Performs (s.step call.call) calls s') : Performs s (call :: calls) s'

namespace VduText

variable {x y : VduText}

/-- The effect of a call. -/
def after (x : VduText) : TextCall → VduText
  | .vduPutc c => x.put c
  | .vduRestoreCursor => x.restore

/-- The effect of calls whose scrolls come to their end. -/
def perform (x : VduText) (calls : List TextCall) : VduText := calls.foldl (fun x call => (x.after call).finish) x

theorem perform_snoc (x : VduText) (calls : List TextCall) (call : TextCall) :
    x.perform (calls ++ [call]) = ((x.perform calls).after call).finish := by
  rw [perform, List.foldl_append]
  rfl

theorem Sound.after (h : x.Sound) (hidle : x.scrollActive = false) (call : TextCall) : (x.after call).Sound := by
  cases call with
  | vduPutc c => exact h.put hidle c
  | vduRestoreCursor => exact h.restore

theorem Sound.perform (h : x.Sound) (hidle : x.scrollActive = false) (calls : List TextCall) :
    (x.perform calls).Sound ∧ (x.perform calls).scrollActive = false := by
  induction calls using List.reverseRecOn with
  | nil => exact ⟨h, hidle⟩
  | append_singleton calls call ih =>
    rw [perform_snoc]
    exact (ih.1.after ih.2 call).finish

theorem settings_after {call : TextCall} (hfixed : call.Fixed) : (x.after call).settings = x.settings := by
  cases call with
  | vduPutc c =>
    have hnewline : x.newline.save.settings = x.settings := by
      rw [newline]
      split
      · rfl
      · split
        · exact settings_scrollUp _
        · rfl
    rw [after, put]
    split
    · unfold putSwitch
      split
      · rfl
      · exact hnewline
      · exact hnewline
      · exact indifferent_left.settings x
      · exact indifferent_left.settings x
      · exact (indifferent_regular hfixed.1 hfixed.2).settings x
    · rfl
  | vduRestoreCursor =>
    rw [after, restore]
    split
    · split
      · split
        · exact settings_scrollUp x
        · rfl
      · rfl
    · rfl

theorem settings_perform {calls : List TextCall} (hfixed : ∀ call ∈ calls, call.Fixed) :
    (x.perform calls).settings = x.settings := by
  induction calls using List.reverseRecOn with
  | nil => rfl
  | append_singleton calls call ih =>
    rw [perform_snoc, settings_finish, settings_after (hfixed call (by simp)),
      ih fun call hcall => hfixed call (List.mem_append_left _ hcall)]

/-- It puts no newline that scrolls. -/
def Allows (x : VduText) : TextCall → Prop
  | .vduPutc c => c = 0x0D ∨ c = 0x0A → ¬ x.AtEdge
  | .vduRestoreCursor => True

theorem allows_core_iff (call : TextCall) : x.core.Allows call ↔ x.Allows call := by
  cases call with
  | vduPutc c => exact .rfl
  | vduRestoreCursor => exact .rfl

/-- Such a call, with the end of its scroll, does the same with both scrollings. -/
theorem core_after (h : x.Sound) (hidle : x.scrollActive = false) {call : TextCall} (hfixed : call.Fixed)
    (hallows : x.Allows call) : (x.after call).finish.core = x.core.after call := by
  have harrived := h.arrived hidle
  cases call with
  | vduPutc c =>
    obtain ⟨hcore, hactive⟩ := core_put (h.row harrived) hfixed.1 hfixed.2 hallows
    rw [after, finish_of_idle (hactive.trans hidle), hcore]
    rfl
  | vduRestoreCursor => exact core_restore hidle harrived

theorem savedRow_finish (x : VduText) : x.finish.savedRow = x.savedRow := by
  rw [finish, scrollRow, arrive]
  split
  · split <;> rfl
  · rfl

/-- A newline that scrolls saves the row behind the last one when the scroll is a smooth one. -/
theorem savedRow_newline {c : UInt8} (htext : x.vduMode.textMode = true) (hc : c = 0x0D ∨ c = 0x0A)
    (hedge : x.AtEdge) : (x.put c).finish.savedRow = if x.smoothScroll then ROWS else ROWS - 1 := by
  have hswitch : x.putSwitch c = x.newline.save := by
    rcases hc with rfl | rfl <;> rfl
  have hrow : x.row + 1 = ROWS := by
    rw [hedge.1]
    rfl
  rw [savedRow_finish, put, if_pos htext, hswitch, newline, if_neg hrow.not_lt, if_pos hedge.2, scrollUp]
  split
  · exact hrow
  · rfl

end VduText

/-- Without a scroll `vduPutc()` does not wait. -/
theorem text_step_vduPutc {s : Vdu} (hidle : s.scrollActive = false) (times : List UInt32) (c : UInt8) :
    (s.step (.vduPutc times c)).text = s.text.put c := by
  let t : Traced Vdu (Nat × Nat) := .start s
  have hidle : t.now.scrollActive = false := hidle
  have hwait : (waitForScroll times).final t = t := by
    cases times with
    | nil => rfl
    | cons ms rest =>
      rw [waitForScroll, Prog.final_bind, Prog.result_now, Prog.final_now, Prog.final_when,
        if_neg (hidle ▸ Bool.false_ne_true)]
  have hput : (vduPutc times c).final t = (putc c).final t := by
    rw [vduPutc, Prog.final_bind, hwait, Prog.final_bind, Prog.result_now, Prog.final_now, Prog.final_when,
      if_pos hidle]
  exact (congrArg (fun t => t.now.text) hput).trans (edits_putc c t rfl).1

/-- `vduPutc()` or `vduRestoreCursor()` without a scroll. -/
theorem text_step_call {s : Vdu} (hidle : s.scrollActive = false) (call : TextCall) :
    (s.step call.call).text = s.text.after call := by
  cases call with
  | vduPutc c => exact text_step_vduPutc hidle [] c
  | vduRestoreCursor => exact (edits_vduRestoreCursor (.start s) rfl).1

theorem text_step_taskVDU (s : Vdu) (ms : UInt32) : s.text.Stepped (s.step (.taskVDU ms)).text :=
  (stepped_taskVDU ms (.start s) rfl).1

/-- The text that calls lead to. -/
theorem Performs.text {s s' : Vdu} {calls : List TextCall} (h : Performs s calls s') :
    s'.text = s.text.finish.perform calls := by
  induction h with
  | done hidle => exact (VduText.finish_of_idle hidle).symm
  | task ms h ih => rw [ih, (text_step_taskVDU _ ms).finish]
  | call call hidle h ih =>
    rw [ih, text_step_call hidle call, VduText.finish_of_idle (x := Vdu.text _) hidle]
    rfl

/-- `taskVDU()` steps an active scroll when its interval is over. -/
theorem text_step_interval {s : Vdu} (hactive : s.scrollActive = true) :
    (s.step (.taskVDU (s.lastScroll + SCROLL_INTERVAL_MS))).text = s.text.scrollStep := by
  have htask : Triple (fun _ => True) (· = s) (taskVDU (s.lastScroll + SCROLL_INTERVAL_MS))
      fun s' => s'.text = s.text.scrollStep := by
    refine Triple.now fun s' hs => ?_
    rw [hs]
    refine Triple.bind (K := fun s' => s'.text = s.text.scrollStep) (Triple.when (fun _ => ?_) fun h => ?_) fun _ => ?_
    · refine Triple.bind (K := fun s' => s'.text = s.text.scrollStep) ?_ fun _ => Triple.update fun _ h => h
      exact edits_scrollStep.pre fun _ h => congrArg Vdu.text h
    · refine absurd ⟨hactive, ?_⟩ h
      rw [UInt32.add_comm, UInt32.add_sub_cancel]
      exact UInt32.le_refl _
    · refine Triple.look fun _ _ => Triple.when_keep fun _ => ?_
      exact Triple.bind (Triple.when_keep fun _ => Triple.event trivial) fun _ => Triple.update fun _ h => h
  exact (htask (.start s) rfl).1

/-- An active scroll can be stepped to its end. -/
theorem exists_performs_of_idle {calls : List TextCall}
    (hidle : ∀ s : Vdu, s.text.Sound → s.scrollActive = false → ∃ s', Performs s calls s') {s : Vdu}
    (h : s.text.Sound) : ∃ s', Performs s calls s' := by
  -- on the scanlines that are left
  induction hleft : FONT_CELL_HEIGHT - s.scrollPixel generalizing s with
  | zero =>
    cases hactive : s.scrollActive with
    | true =>
      have hpixel : s.scrollPixel < FONT_CELL_HEIGHT := h.pixel hactive
      omega
    | false => exact hidle s h hactive
  | succ left ih =>
    cases hactive : s.scrollActive with
    | true =>
      have hstep := text_step_interval hactive
      have hsound := text_sound_step h (.taskVDU (s.lastScroll + SCROLL_INTERVAL_MS))
      generalize hms : s.lastScroll + SCROLL_INTERVAL_MS = ms at hstep hsound
      suffices hnext : ∃ s', Performs (s.step (.taskVDU ms)) calls s' from ⟨_, .task ms hnext.choose_spec⟩
      by_cases hlast : s.text.scrollPixel + 1 = FONT_CELL_HEIGHT
      · apply hidle _ hsound
        have hdone := congrArg VduText.scrollActive hstep
        rw [VduText.scrollStep, if_pos hlast, VduText.scrollRow_scrollActive] at hdone
        exact hdone
      · apply ih hsound
        have hpixel := congrArg VduText.scrollPixel hstep
        rw [VduText.scrollStep, if_neg hlast] at hpixel
        have hpixel : (s.step (.taskVDU ms)).scrollPixel = s.scrollPixel + 1 := hpixel
        omega
    | false => exact hidle s h hactive

/-- Calls can be made, since their scrolls come to an end. -/
theorem exists_performs {s : Vdu} (h : s.text.Sound) (calls : List TextCall) : ∃ s', Performs s calls s' := by
  induction calls generalizing s with
  | nil => exact exists_performs_of_idle (fun s _ hidle => ⟨s, .done hidle⟩) h
  | cons call calls ih =>
    refine exists_performs_of_idle (fun s hs hidle => ?_) h
    obtain ⟨s', hs'⟩ := ih (text_sound_step hs call.call)
    exact ⟨s', .call call hidle hs'⟩

/-! ## The two scrollings -/

/-- The display with smooth or with instant scrolling. -/
def Vdu.scrolling (s : Vdu) (smooth : Bool) : Vdu := { s with smoothScroll := smooth }

/-- The screen, the cursor and the saved cursor are the same. -/
structure SameScreen (a b : Vdu) : Prop where
  gScreen : a.gScreen = b.gScreen
  row : a.gCursor.row = b.gCursor.row
  col : a.gCursor.col = b.gCursor.col
  savedRow : a.gSaveCursor.row = b.gSaveCursor.row
  savedCol : a.gSaveCursor.col = b.gSaveCursor.col

theorem sameScreen_of_core {a b : Vdu} (h : a.text.core = b.text.core) : SameScreen a b :=
  ⟨congrArg VduText.gScreen h, congrArg VduText.row h, congrArg VduText.col h, congrArg VduText.savedRow h,
    congrArg VduText.savedCol h⟩

/-- In `b` the call puts no newline that scrolls. -/
def Vdu.NoScroll (b : Vdu) : TextCall → Prop
  | .vduPutc c => c = 0x0D ∨ c = 0x0A → ¬ (b.gCursor.row = ROWS - 1 ∧ b.vduMode.autoScroll = true)
  | .vduRestoreCursor => True

theorem allows_of_noScroll {b : Vdu} {call : TextCall} (h : b.NoScroll call) : b.text.Allows call := by
  cases call with
  | vduPutc c => exact h
  | vduRestoreCursor => trivial

/-- The two runs come out the same. -/
def ScrollingsAgree (s : Vdu) (calls : List TextCall) : Prop :=
  ∀ a b, Performs (s.scrolling true) calls a → Performs (s.scrolling false) calls b → SameScreen a b

section Scrollings

variable {s : Vdu} {calls : List TextCall}

theorem Sound.scrolling (h : s.text.Sound) (hidle : s.scrollActive = false) (smooth : Bool) :
    (s.scrolling smooth).text.Sound :=
  ⟨⟨h.col, h.row, h.pending, h.pixel, fun _ _ => hidle⟩, h.active⟩

theorem Performs.text_scrolling {smooth : Bool} {s' : Vdu} (hidle : s.scrollActive = false)
    (h : Performs (s.scrolling smooth) calls s') : s'.text = (s.scrolling smooth).text.perform calls := by
  rw [h.text, VduText.finish_of_idle]
  exact hidle

/-- Where no newline scrolls, the texts of the two runs agree. -/
theorem core_perform (hs : s.text.Sound) (hidle : s.scrollActive = false)
    (hfixed : ∀ call ∈ calls, call.Fixed)
    (hcalls : ∀ pre call, pre ++ [call] <+: calls → ∀ b, Performs (s.scrolling false) pre b → b.NoScroll call)
    (smooth : Bool) {pre : List TextCall} (hpre : pre <+: calls) :
    ((s.scrolling smooth).text.perform pre).core = ((s.scrolling false).text.perform pre).core := by
  induction pre using List.reverseRecOn with
  | nil => rfl
  | append_singleton pre call ih =>
    have hcore := ih ((List.prefix_append pre [call]).trans hpre)
    obtain ⟨b, hb⟩ := exists_performs (Sound.scrolling hs hidle false) pre
    have hcall := allows_of_noScroll (hcalls pre call hpre b hb)
    rw [hb.text_scrolling hidle] at hcall
    have hfix := hfixed call (hpre.subset (List.mem_append_right pre (List.mem_singleton_self call)))
    obtain ⟨hx, hxidle⟩ := (Sound.scrolling hs hidle smooth).perform hidle pre
    obtain ⟨hy, hyidle⟩ := (Sound.scrolling hs hidle false).perform hidle pre
    have hcall' := (VduText.allows_core_iff call).1 (hcore ▸ (VduText.allows_core_iff call).2 hcall)
    rw [VduText.perform_snoc, VduText.perform_snoc, VduText.core_after hx hxidle hfix hcall',
      VduText.core_after hy hyidle hfix hcall, hcore]

/-- The two runs agree after every number of calls, exactly when none of the calls puts a newline in the last row
of a mode that scrolls. -/
theorem scrollings_agree_iff (hs : s.text.Sound) (hidle : s.scrollActive = false)
    (htext : s.vduMode.textMode = true) (hfixed : ∀ call ∈ calls, call.Fixed) :
    (∀ pre, pre <+: calls → ScrollingsAgree s pre) ↔
      ∀ pre call, pre ++ [call] <+: calls → ∀ b, Performs (s.scrolling false) pre b → b.NoScroll call := by
  constructor
  · intro hagree pre call hpre b hb
    cases call with
    | vduRestoreCursor => trivial
    | vduPutc c =>
      rintro hc hedge
      obtain ⟨a, ha⟩ := exists_performs (Sound.scrolling hs hidle true) pre
      obtain ⟨a', ha'⟩ := exists_performs (Sound.scrolling hs hidle true) (pre ++ [.vduPutc c])
      obtain ⟨b', hb'⟩ := exists_performs (Sound.scrolling hs hidle false) (pre ++ [.vduPutc c])
      have hsaved := (hagree _ hpre a' b' ha' hb').savedRow
      have hrow := (hagree pre ((List.prefix_append pre _).trans hpre) a b ha hb).row
      have hfix : ∀ call ∈ pre, call.Fixed :=
        fun call hcall => hfixed call (hpre.subset (List.mem_append_left _ hcall))
      -- the mode and the scrolling of both runs are those at the begin
      have hmode : ∀ smooth, ((s.scrolling smooth).text.perform pre).mode = s.mode :=
        fun smooth => congrArg Prod.fst (VduText.settings_perform hfix)
      have hsmooth : ∀ smooth, ((s.scrolling smooth).text.perform pre).smoothScroll = smooth :=
        fun smooth => congrArg (·.2.2.2) (VduText.settings_perform hfix)
      have hsave : ∀ smooth, ((s.scrolling smooth).text.perform pre).AtEdge →
          ((s.scrolling smooth).text.perform (pre ++ [.vduPutc c])).savedRow = if smooth then ROWS else ROWS - 1 := by
        intro smooth hedge
        have htext' : ((s.scrolling smooth).text.perform pre).vduMode.textMode = true := by
          rw [VduText.vduMode, hmode smooth]
          exact htext
        rw [VduText.perform_snoc]
        exact (VduText.savedRow_newline htext' hc hedge).trans (by rw [hsmooth])
      have hedge_b : ((s.scrolling false).text.perform pre).AtEdge := hb.text_scrolling hidle ▸ hedge
      have hedge_a : ((s.scrolling true).text.perform pre).AtEdge := by
        rw [← ha.text_scrolling hidle]
        refine ⟨hrow.trans hedge.1, ?_⟩
        rw [VduText.vduMode, ha.text_scrolling hidle, hmode true, ← hmode false]
        exact hedge_b.2
      have hrows : ROWS = ROWS - 1 := calc
        ROWS = a'.text.savedRow := by rw [ha'.text_scrolling hidle, hsave true hedge_a, if_pos rfl]
        _ = b'.text.savedRow := hsaved
        _ = ROWS - 1 := by rw [hb'.text_scrolling hidle, hsave false hedge_b, if_neg Bool.false_ne_true]
      exact absurd hrows (by decide)
  · intro hcalls pre hpre a b ha hb
    apply sameScreen_of_core
    rw [ha.text_scrolling hidle, hb.text_scrolling hidle]
    exact core_perform hs hidle hfixed hcalls true hpre

end Scrollings

/-- After power-up a letter and a restored cursor come out the same. -/
theorem scrollings_agree_letter :
    ScrollingsAgree (Vdu.powerUp.step (.resetDisplay 0)) [.vduPutc 0x41, .vduRestoreCursor] := by
  refine (scrollings_agree_iff (text_sound_of_run [.resetDisplay 0]) (by decide +kernel) (by decide +kernel) ?_).2 ?_ _
    List.prefix_rfl
  · simp [TextCall.Fixed]
  · intro pre call hpre b hb
    have hcall := hpre.subset (List.mem_append_right pre (List.mem_singleton_self call))
    rw [List.mem_pair] at hcall
    rcases hcall with rfl | rfl
    · exact fun hc => absurd hc (by decide)
    · trivial

/-- The display of the default mode with the cursor in the last row. -/
def Vdu.lastRow : Vdu := (Vdu.powerUp.step (.resetDisplay 0)).step (.moveCursor 0 23)

/-- A letter and a newline in the last row, and the screen editor goes to the next row: an instant scroll is
followed by a second one there, a smooth scroll is not. -/
theorem not_scrollings_agree :
    Vdu.lastRow.vduMode.textMode = true ∧ Vdu.lastRow.scrollActive = false ∧
      ¬ ScrollingsAgree Vdu.lastRow [.vduPutc 0x41, .vduPutc 0x0A, .vduRestoreCursor] := by
  have hidle : Vdu.lastRow.scrollActive = false := by decide +kernel
  refine ⟨by decide +kernel, hidle, fun hagree => ?_⟩
  have hsound : Vdu.lastRow.text.Sound := text_sound_of_run [.resetDisplay 0, .moveCursor 0 23]
  obtain ⟨a, ha⟩ := exists_performs (Sound.scrolling hsound hidle true) [.vduPutc 0x41, .vduPutc 0x0A, .vduRestoreCursor]
  obtain ⟨b, hb⟩ := exists_performs (Sound.scrolling hsound hidle false) [.vduPutc 0x41, .vduPutc 0x0A, .vduRestoreCursor]
  have hcell : (a.text.gScreen 22 0).ch = (b.text.gScreen 22 0).ch :=
    congrArg (fun g => (g 22 0).ch) (hagree a b ha hb).gScreen
  rw [ha.text_scrolling hidle, hb.text_scrolling hidle] at hcell
  revert hcell
  decide +kernel

end NeoMmu
