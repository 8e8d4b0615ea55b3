import NeoMmu.Vdu.Bounds

/-!
# The mouse pointer over the text

A function that draws hides the mouse pointer first and shows it again at its end. The calls are counted, and only
the outermost ones draw: inside them the pointer is hidden, and whatever it depends on may change. So a pointer
that is drawn stands where it was drawn.
-/

namespace NeoMmu

open Prog (now update event when Triple)

/-! ## Calls -/

/-- A call of a function of the display, or of the switch of the pointer. -/
inductive PointerCall
  | display (call : VduCall)
  | vduMouseEnable (enabled : Bool)

/-- The function. -/
def PointerCall.run : PointerCall → VduProg Unit
  | .display call => call.run
  | .vduMouseEnable enabled => NeoMmu.vduMouseEnable enabled

/-- The state that a call leaves. -/
def Vdu.pointerStep (s : Vdu) (call : PointerCall) : Vdu := (call.run.final (.start s)).now

/-! ## The pointer -/

/-- The pointer may be seen, and its pixels are where the mouse is. -/
structure Vdu.PointerShown (s : Vdu) : Prop where
  enabled : s.gMouse.enabled = true
  active : s.gMouse.active = true
  textMode : s.vduMode.textMode = true
  still : s.scrollActive = false
  drawnAt : s.gMouse.drawnAt = (s.gMouse.x, s.gMouse.y)

/-- No bracket is open, a pointer that is drawn may be seen where the mouse is, and the mouse is on the screen. -/
structure Vdu.NoTrail (s : Vdu) : Prop where
  depth : s.gMouseVduUpdateDepth = 0
  shown : s.gMouse.drawn = true → s.PointerShown
  x : 0 ≤ s.gMouse.x ∧ s.gMouse.x < WIDTH
  y : 0 ≤ s.gMouse.y ∧ s.gMouse.y < HEIGHT

/-- Inside `d` brackets. -/
structure AtDepth (d : Nat) (s : Vdu) : Prop where
  depth : s.gMouseVduUpdateDepth = UInt8.ofNat d
  hidden : 0 < d → s.gMouse.drawn = false
  shown : s.gMouse.drawn = true → s.PointerShown
  x : 0 ≤ s.gMouse.x ∧ s.gMouse.x < WIDTH
  y : 0 ≤ s.gMouse.y ∧ s.gMouse.y < HEIGHT

theorem atDepth_zero_iff {s : Vdu} : AtDepth 0 s ↔ s.NoTrail :=
  ⟨fun h => ⟨h.depth, h.shown, h.x, h.y⟩, fun h => ⟨h.depth, nofun, h.shown, h.x, h.y⟩⟩

/-- What decides about the pointer. -/
def Vdu.pointer (s : Vdu) : VduMouse × UInt8 × Bool × Bool :=
  (s.gMouse, s.gMouseVduUpdateDepth, s.vduMode.textMode, s.scrollActive)

theorem AtDepth.congr {d : Nat} {s s' : Vdu} (h : AtDepth d s) (heq : s'.pointer = s.pointer) : AtDepth d s' := by
  simp only [Vdu.pointer, Prod.mk.injEq] at heq
  obtain ⟨hmouse, hdepth, htext, hscroll⟩ := heq
  refine ⟨hdepth.trans h.depth, fun hd => ?_, fun hdrawn => ?_, ?_, ?_⟩
  · rw [hmouse]
    exact h.hidden hd
  · rw [hmouse] at hdrawn
    obtain ⟨henabled, hactive, htext', hstill, hat⟩ := h.shown hdrawn
    exact ⟨hmouse ▸ henabled, hmouse ▸ hactive, htext.trans htext', hscroll.trans hstill, hmouse ▸ hat⟩
  · rw [hmouse]
    exact h.x
  · rw [hmouse]
    exact h.y

/-! ## What leaves the pointer alone -/

/-- Nothing has changed that decides about the pointer. -/
abbrev SamePointer : Traced Vdu (Nat × Nat) → Traced Vdu (Nat × Nat) → Prop :=
  Order.Preimage (·.now.pointer) (· = ·)

theorem samePointer_event (cell : Nat × Nat) : Prog.Keeps SamePointer (event cell) := fun _ => rfl

theorem samePointer_update {g : Vdu → Vdu} (hg : ∀ s, (g s).pointer = s.pointer) :
    Prog.Keeps SamePointer (update g) :=
  fun t => (hg t.now).symm

theorem samePointer_touchCells (cells : List (Nat × Nat)) : Prog.Keeps SamePointer (touchCells cells) :=
  Prog.Keeps.forM fun cell _ => samePointer_event cell

theorem samePointer_fillCells (row col n : Nat) (cell : VduCell) :
    Prog.Keeps SamePointer (fillCells row col n cell) :=
  (samePointer_touchCells _).bind fun _ => samePointer_update fun _ => rfl

theorem samePointer_moveCells (dst src : Nat × Nat) (n : Nat) : Prog.Keeps SamePointer (moveCells dst src n) :=
  (samePointer_touchCells _).bind fun _ => (samePointer_touchCells _).bind fun _ => samePointer_update fun _ => rfl

theorem samePointer_initTextbuffer : Prog.Keeps SamePointer initTextbuffer :=
  Prog.Keeps.now.bind fun _ => Prog.Keeps.forM fun r _ => samePointer_fillCells r 0 COLS _

theorem samePointer_showCursor : Prog.Keeps SamePointer showCursor :=
  Prog.Keeps.now.bind fun _ => Prog.Keeps.when fun _ =>
    (samePointer_event _).bind fun _ => samePointer_update fun _ => rfl

theorem samePointer_hideCursor : Prog.Keeps SamePointer hideCursor :=
  Prog.Keeps.now.bind fun _ => Prog.Keeps.when fun _ =>
    (samePointer_event _).bind fun _ => (samePointer_event _).bind fun _ => samePointer_update fun _ => rfl

theorem samePointer_redrawUnderlyingText : Prog.Keeps SamePointer vduMouseRedrawUnderlyingText := by
  have hcell : ∀ col row, Prog.Keeps SamePointer (vduDrawCellPreservingCursor col row) := by
    intro col row
    refine Prog.Keeps.now.bind fun s => Prog.Keeps.ite (fun _ => samePointer_event _) fun _ => ?_
    apply (samePointer_event _).bind
    intro _
    cases s.gCursor.shape with
    | cBLOCK => exact Prog.Keeps.pure ()
    | cUNDERLINE => exact samePointer_event _
  refine Prog.Keeps.now.bind fun s => Prog.Keeps.ite (fun _ => ?_) fun _ => Prog.Keeps.pure ()
  exact Prog.Keeps.forM fun row _ => Prog.Keeps.forM fun col _ => hcell col row

theorem samePointer_scrollRow : Prog.Keeps SamePointer scrollRow := by
  have hrotate : Prog.Keeps SamePointer rotateTextbuffer :=
    Prog.Keeps.bind (Prog.Keeps.forM fun r _ => samePointer_moveCells _ _ _) fun _ =>
      Prog.Keeps.now.bind fun _ => samePointer_fillCells _ _ _ _
  refine hrotate.bind fun _ => (samePointer_update fun s => ?_).bind fun _ => ?_
  · split
    · rfl
    · rfl
  refine (samePointer_touchCells _).bind fun _ => Prog.Keeps.bind (fun _ => rfl) fun _ => ?_
  exact samePointer_showCursor

theorem samePointer_scanEOL (n : Nat) : Prog.Keeps SamePointer (scanEOL n) := by
  induction n with
  | zero => exact samePointer_update fun _ => rfl
  | succ n ih =>
    refine Prog.Keeps.now.bind fun s => Prog.Keeps.bind ?_ fun cell => ?_
    · exact (samePointer_event _).bind fun _ => Prog.Keeps.now.bind fun _ => Prog.Keeps.pure _
    · exact Prog.Keeps.ite (fun _ => samePointer_update fun _ => rfl) fun _ => ih

/-! ## Brackets -/

/-- A program that closes the brackets it opens, `n` deep at most. -/
def Balanced (n : Nat) (m : VduProg Unit) : Prop :=
  ∀ d, d + n < 256 → Triple (fun _ => True) (AtDepth d) m (AtDepth d)

section Brackets

variable {n d : Nat} {m m' : VduProg Unit}

theorem balanced_of_same (h : Prog.Keeps SamePointer m) : Balanced n m :=
  fun _ _ t ht => ⟨ht.congr (h t).symm, fun _ _ _ => trivial⟩

theorem balanced_update {g : Vdu → Vdu} (hg : ∀ s, (g s).pointer = s.pointer) : Balanced n (update g) :=
  balanced_of_same (samePointer_update hg)

theorem Balanced.mono (h : Balanced n m) {n' : Nat} (hn : n ≤ n') : Balanced n' m :=
  fun d hd => h d (by omega)

theorem Balanced.bind (h : Balanced n m) (h' : Balanced n m') : Balanced n (m >>= fun _ => m') :=
  fun d hd => (h d hd).bind fun _ => h' d hd

theorem Balanced.look {f : Vdu → VduProg Unit} (h : ∀ s, Balanced n (f s)) : Balanced n (now >>= f) :=
  fun d hd => Triple.look fun s _ => h s d hd

theorem Balanced.ite {c : Prop} [Decidable c] (h : Balanced n m) (h' : Balanced n m') :
    Balanced n (if c then m else m') :=
  fun d hd => Triple.ite (fun _ => h d hd) fun _ => h' d hd

theorem Balanced.when {c : Prop} [Decidable c] (h : Balanced n m) : Balanced n (when c m) :=
  h.ite (balanced_of_same (Prog.Keeps.pure ()))

/-- The first bracket hides the pointer. -/
theorem triple_hide (hd : d + 1 < 256) :
    Triple (fun _ => True) (AtDepth d) vduMouseHideForVduUpdate (AtDepth (d + 1)) := by
  refine Triple.now fun s hs => ?_
  -- Where it is not the first, the pointer is hidden already.
  let Opened (s' : Vdu) : Prop := s'.gMouseVduUpdateDepth = UInt8.ofNat (d + 1) ∧ s'.gMouse = s.gMouse
  have hdepth : s.gMouseVduUpdateDepth + 1 = UInt8.ofNat (d + 1) := by
    rw [hs.depth]
    exact (UInt8.ofNat_add d 1).symm
  refine Triple.bind (K := Opened) (Triple.update ?_) fun _ => ?_
  · rintro s' rfl
    exact ⟨hdepth, rfl⟩
  have hopened : ∀ s', Opened s' → s'.gMouse.drawn = false → AtDepth (d + 1) s' := by
    rintro s' ⟨hs', hmouse⟩ hdrawn
    refine ⟨hs', fun _ => hdrawn, fun h => absurd (hdrawn.symm.trans h) Bool.false_ne_true, ?_, ?_⟩
    · rw [hmouse]
      exact hs.x
    · rw [hmouse]
      exact hs.y
  refine Triple.when (fun _ => Triple.now fun s' hs' => ?_) fun hinner s' hs' => hopened s' hs' ?_
  · refine Triple.when (fun _ => ?_) fun hdrawn => ?_
    · have hredraw : Triple (fun _ => True) (fun s'' => s''.pointer = s'.pointer) vduMouseRedrawUnderlyingText
          fun s'' => s''.pointer = s'.pointer :=
        fun t ht => ⟨(samePointer_redrawUnderlyingText t).symm.trans ht, fun _ _ _ => trivial⟩
      refine Triple.pre (Triple.bind hredraw fun _ => Triple.update fun s'' hs'' => ?_) fun s'' h => h ▸ rfl
      simp only [Vdu.pointer, Prod.mk.injEq] at hs''
      refine ⟨hs''.2.1.trans hs'.1, fun _ => rfl, nofun, ?_, ?_⟩
      · show 0 ≤ s''.gMouse.x ∧ s''.gMouse.x < WIDTH
        rw [hs''.1, hs'.2]
        exact hs.x
      · show 0 ≤ s''.gMouse.y ∧ s''.gMouse.y < HEIGHT
        rw [hs''.1, hs'.2]
        exact hs.y
    · rintro _ rfl
      exact hopened _ hs' (Bool.not_eq_true _ ▸ hdrawn)
  · rw [hs'.2]
    apply hs.hidden
    apply Nat.pos_of_ne_zero
    rintro rfl
    exact hinner hs.depth

/-- The last bracket draws the pointer where the mouse is, if it may be seen. -/
theorem triple_show (hd : d + 1 < 256) :
    Triple (fun _ => True) (AtDepth (d + 1)) vduMouseShowAfterVduUpdate (AtDepth d) := by
  refine Triple.now fun s hs => ?_
  have hdepth : s.gMouseVduUpdateDepth - 1 = UInt8.ofNat d := by
    rw [hs.depth, UInt8.ofNat_add]
    exact UInt8.add_sub_cancel _ _
  have hhidden := hs.hidden (Nat.succ_pos d)
  have hopen : s.gMouseVduUpdateDepth ≠ 0 := by
    intro h
    have hzero := congrArg UInt8.toNat (hs.depth.symm.trans h)
    rw [UInt8.toNat_ofNat_of_lt' hd] at hzero
    exact Nat.succ_ne_zero d hzero
  have hclosed : ∀ s' : Vdu, s'.gMouse = s.gMouse → s'.gMouseVduUpdateDepth = UInt8.ofNat d → AtDepth d s' := by
    intro s' hmouse hs'
    have hdrawn : s'.gMouse.drawn = false := by rw [hmouse, hhidden]
    refine ⟨hs', fun _ => hdrawn, fun h => absurd (hdrawn.symm.trans h) Bool.false_ne_true, ?_, ?_⟩
    · rw [hmouse]
      exact hs.x
    · rw [hmouse]
      exact hs.y
  refine Triple.when (fun _ => ?_) fun h => absurd hopen h
  refine Triple.bind (K := fun s' => s'.gMouse = s.gMouse ∧ s'.gMouseVduUpdateDepth = UInt8.ofNat d)
    (Triple.update ?_) fun _ => ?_
  · rintro s' rfl
    exact ⟨rfl, hdepth⟩
  refine Triple.when (fun hlast => Triple.update fun s' hs' => ?_) fun _ s' hs' => hclosed s' hs'.1 hs'.2
  split
  · exact hclosed s' hs'.1 hs'.2
  · rename_i hseen
    simp only [not_or, Bool.not_eq_false, Bool.not_eq_true] at hseen
    obtain ⟨henabled, hactive, -, htext, hstill⟩ := hseen
    have hzero : d = 0 := by
      have hzero := congrArg UInt8.toNat (hdepth.symm.trans hlast)
      rwa [UInt8.toNat_ofNat_of_lt' (Nat.lt_of_succ_lt hd)] at hzero
    refine ⟨hs'.2, fun h => absurd hzero h.ne', fun _ => ⟨henabled, hactive, htext, hstill, rfl⟩, ?_, ?_⟩
    · show 0 ≤ s'.gMouse.x ∧ s'.gMouse.x < WIDTH
      rw [hs'.1]
      exact hs.x
    · show 0 ≤ s'.gMouse.y ∧ s'.gMouse.y < HEIGHT
      rw [hs'.1]
      exact hs.y

/-- A change inside a bracket that leaves the mouse and the count alone. -/
theorem triple_hidden_update {g : Vdu → Vdu} (hd : 0 < d) (hmouse : ∀ s, (g s).gMouse = s.gMouse)
    (hdepth : ∀ s, (g s).gMouseVduUpdateDepth = s.gMouseVduUpdateDepth) :
    Triple (fun _ => True) (AtDepth d) (update g : VduProg Unit) (AtDepth d) := by
  refine Triple.update fun s hs => ?_
  have hdrawn : (g s).gMouse.drawn = false := by rw [hmouse, hs.hidden hd]
  refine ⟨(hdepth s).trans hs.depth, fun _ => hdrawn, fun h => absurd (hdrawn.symm.trans h) Bool.false_ne_true, ?_, ?_⟩
  · rw [hmouse]
    exact hs.x
  · rw [hmouse]
    exact hs.y

/-! ## The functions of the display -/

theorem balanced_setCursor (vShow : Bool) : Balanced 1 (setCursor vShow) := by
  intro d hd
  refine (triple_hide hd).bind fun _ => Triple.look fun s _ => ?_
  refine Triple.bind (Triple.when_keep fun _ => ?_) fun _ => triple_show hd
  have hcursor : Balanced 0 (if vShow then showCursor else hideCursor) :=
    Balanced.ite (balanced_of_same samePointer_showCursor) (balanced_of_same samePointer_hideCursor)
  exact (balanced_update (n := 0) fun _ => by rfl).bind hcursor (d + 1) hd

theorem balanced_moveCursor (x y : Nat) : Balanced 1 (moveCursor x y) := by
  intro d hd
  have hhide : ∀ wasVisible : Bool, Balanced 0 (when wasVisible hideCursor) :=
    fun _ => (balanced_of_same samePointer_hideCursor).when
  have hshow : ∀ wasVisible : Bool, Balanced 0 (when wasVisible showCursor) :=
    fun _ => (balanced_of_same samePointer_showCursor).when
  refine (triple_hide hd).bind fun _ => Triple.look fun s _ => ?_
  refine (hhide s.gCursor.drawn (d + 1) hd).bind fun _ => ?_
  refine Triple.bind (balanced_update (n := 0) (fun _ => by rfl) (d + 1) hd) fun _ => ?_
  exact (hshow s.gCursor.drawn (d + 1) hd).bind fun _ => triple_show hd

/-- A scroll that is under way is stepped, and ends, with the pointer hidden. -/
theorem balanced_scrollStep : Balanced 1 scrollStep := by
  intro d hd
  refine (triple_hide hd).bind fun _ => ?_
  refine Triple.bind (balanced_update (n := 0) (fun _ => by rfl) (d + 1) hd) fun _ => ?_
  refine Triple.look fun s _ => Triple.bind (Triple.when_keep fun _ => ?_) fun _ => triple_show hd
  refine Triple.bind (triple_hidden_update (Nat.succ_pos d) (fun _ => by rfl) fun _ => by rfl) fun _ => ?_
  exact balanced_of_same (n := 0) samePointer_scrollRow (d + 1) hd

/-- So does one begin. -/
theorem balanced_cmdScrollUp : Balanced 1 cmdScrollUp := by
  intro d hd
  refine (triple_hide hd).bind fun _ => Triple.look fun s _ => ?_
  refine Triple.bind ((balanced_of_same (n := 0) samePointer_hideCursor).when (d + 1) hd) fun _ => ?_
  refine Triple.look fun s _ => Triple.bind (Triple.ite (fun _ => ?_) fun _ => ?_) fun _ => triple_show hd
  · exact triple_hidden_update (Nat.succ_pos d) (fun _ => by rfl) fun _ => by rfl
  · exact balanced_of_same (n := 0) samePointer_scrollRow (d + 1) hd

theorem balanced_taskVDU (ms : UInt32) : Balanced 1 (taskVDU ms) := by
  have hblink : Balanced 1 (do
      let s ← now
      when (s.scrollActive = false ∧ CURSOR_BLINK_INTERVAL_MS ≤ ms - s.last) do
        when (s.vduMode.blinkCursor = true ∧ s.gCursor.drawn = true) (event (s.gCursor.row, s.gCursor.col))
        update fun s => { s with last := ms }) := by
    refine balanced_of_same (Prog.Keeps.now.bind fun s => Prog.Keeps.when fun _ => ?_)
    exact (Prog.Keeps.when fun _ => samePointer_event _).bind fun _ => samePointer_update fun _ => by rfl
  refine Balanced.look fun s => Balanced.bind (Balanced.when ?_) hblink
  exact balanced_scrollStep.bind (balanced_update fun _ => by rfl)

theorem balanced_waitForScroll (times : List UInt32) : Balanced 1 (waitForScroll times) := by
  induction times with
  | nil => exact balanced_of_same (Prog.Keeps.pure ())
  | cons ms rest ih => exact Balanced.look fun s => Balanced.when ((balanced_taskVDU ms).bind ih)

theorem balanced_vduRestoreCursor : Balanced 1 vduRestoreCursor := by
  refine Balanced.look fun s => Balanced.when (Balanced.bind ?_ (balanced_update fun _ => by rfl))
  refine Balanced.ite (Balanced.ite ?_ (balanced_moveCursor _ _)) (balanced_moveCursor _ _)
  refine Balanced.bind (balanced_of_same samePointer_hideCursor) (balanced_cmdScrollUp.bind ?_)
  exact (balanced_moveCursor _ _).bind (balanced_of_same samePointer_showCursor)

theorem balanced_cmdNewline : Balanced 1 cmdNewline := by
  refine Balanced.bind (balanced_update fun _ => by rfl) (Balanced.bind (balanced_update fun _ => by rfl) ?_)
  refine Balanced.look fun s => Balanced.when (Balanced.ite ?_ (balanced_update fun _ => by rfl))
  exact Balanced.bind (balanced_update fun _ => by rfl) balanced_cmdScrollUp

theorem balanced_cmdClearScreen : Balanced 2 cmdClearScreen := by
  intro d hd
  have hd' : d + 1 < 256 := by omega
  refine (triple_hide hd').bind fun _ => ?_
  refine (balanced_of_same (n := 0) samePointer_hideCursor (d + 1) hd').bind fun _ => ?_
  refine (balanced_of_same (n := 0) samePointer_initTextbuffer (d + 1) hd').bind fun _ => ?_
  refine (balanced_moveCursor 0 0 (d + 1) (by omega)).bind fun _ => ?_
  exact (balanced_setCursor true (d + 1) (by omega)).bind fun _ => triple_show hd'

/-- A command that moves the cursor within the screen. -/
theorem balanced_move {c : Vdu → Prop} [DecidablePred c] {g : Vdu → Vdu} (hg : ∀ s, (g s).pointer = s.pointer) :
    Balanced n (update fun s => if c s then g s else s) := by
  refine balanced_update fun s => ?_
  split
  · exact hg s
  · rfl

theorem balanced_ctrlTable (c : UInt8) : Balanced 2 ((ctrlTable c).getD (pure ())) := by
  have hset : ∀ g : Vdu → Vdu, (∀ s, (g s).pointer = s.pointer) → Balanced 2 ((some (update g)).getD (pure ())) :=
    fun _ hg => balanced_update hg
  unfold ctrlTable
  split
  · exact hset _ fun _ => by rfl
  · exact (balanced_move fun _ => by rfl : Balanced 2 cmdCursorLeft)
  · refine Balanced.look fun s => Balanced.bind (balanced_of_same (samePointer_moveCells _ _ _)) ?_
    exact (balanced_of_same (samePointer_fillCells _ _ _ _)).bind (balanced_of_same (samePointer_touchCells _))
  · exact balanced_of_same (samePointer_scanEOL COLS)
  · exact (balanced_move fun _ => by rfl : Balanced 2 cmdCursorRight)
  · exact hset _ fun _ => by rfl
  · exact Balanced.look fun s => balanced_of_same (samePointer_fillCells _ _ _ _)
  · exact balanced_cmdClearScreen
  · exact (balanced_move fun _ => by rfl : Balanced 2 cmdCursorDown)
  · exact hset _ fun _ => by rfl
  · exact (balanced_move fun _ => by rfl : Balanced 2 cmdCursorUp)
  · exact hset _ fun _ => by rfl
  · exact hset _ fun _ => by rfl
  · exact balanced_of_same (Prog.Keeps.pure ())

theorem balanced_putRegular (c : UInt8) : Balanced 2 (putRegular c) := by
  have hinsert : Balanced 2 (vduInsertc c) := by
    refine Balanced.look fun s => Balanced.bind (balanced_of_same (samePointer_moveCells _ _ _)) ?_
    exact (balanced_of_same (samePointer_fillCells _ _ _ _)).bind (balanced_of_same (samePointer_touchCells _))
  have hdisplay : Balanced 2 (vduDisplayc c) :=
    Balanced.when (Balanced.look fun _ => balanced_of_same (samePointer_fillCells _ _ _ _))
  refine Balanced.look fun s => Balanced.ite (balanced_ctrlTable c) ?_
  refine hinsert.when.bind (hdisplay.bind (Balanced.bind (balanced_update fun _ => by rfl) ?_))
  refine Balanced.look fun s => Balanced.when ?_
  exact Balanced.ite (balanced_cmdNewline.mono (by decide)) (balanced_update fun _ => by rfl)

theorem balanced_putSwitch (c : UInt8) : Balanced 2 (putSwitch c) := by
  have hnewline : Balanced 2 (do cmdNewline; vduSaveCursor) :=
    (balanced_cmdNewline.mono (by decide)).bind (balanced_update fun _ => by rfl)
  unfold putSwitch
  split
  · exact balanced_of_same (Prog.Keeps.pure ())
  · exact hnewline
  · exact hnewline
  · exact balanced_move fun _ => by rfl
  · exact balanced_move fun _ => by rfl
  · exact balanced_putRegular c

theorem balanced_vduPutc (times : List UInt32) (c : UInt8) : Balanced 3 (vduPutc times c) := by
  have hput : Balanced 3 (putc c) := by
    intro d hd
    have hd' : d + 1 < 256 := by omega
    have hset : ∀ vShow, Balanced 2 (setCursor vShow) := fun vShow => (balanced_setCursor vShow).mono (by decide)
    refine (triple_hide hd').bind fun _ => Triple.look fun s _ => ?_
    refine Triple.bind (Triple.when_keep fun _ => ?_) fun _ => triple_show hd'
    exact ((hset false).bind ((balanced_putSwitch c).bind (hset true))) (d + 1) (by omega)
  refine ((balanced_waitForScroll times).mono (by decide)).bind ?_
  exact Balanced.look fun s => Balanced.when hput

/-- Inside the bracket the mode may change. -/
theorem balanced_vduSetMode (vMode : UInt8) : Balanced 1 (vduSetMode vMode) := by
  intro d hd
  refine (triple_hide hd).bind fun _ => ?_
  refine Triple.bind (triple_hidden_update (Nat.succ_pos d) (fun _ => by rfl) fun _ => by rfl) fun _ => ?_
  refine Triple.bind (triple_hidden_update (Nat.succ_pos d) (fun _ => by rfl) fun _ => by rfl) fun _ => ?_
  exact triple_show hd

theorem balanced_resetDisplay (vMode : UInt8) : Balanced 2 (resetDisplay vMode) := by
  refine Balanced.bind (balanced_update fun _ => by rfl) (Balanced.bind (balanced_update fun _ => by rfl) ?_)
  exact ((balanced_vduSetMode vMode).mono (by decide)).bind balanced_cmdClearScreen

/-! ## The mouse -/

/-- A change of the mouse inside a bracket that does not draw it and leaves it on the screen. -/
theorem triple_hidden_mouse {g : VduMouse → VduMouse} (hd : 0 < d) (hdrawn : ∀ m, (g m).drawn = m.drawn)
    (hx : ∀ m : VduMouse, 0 ≤ m.x ∧ m.x < WIDTH → 0 ≤ (g m).x ∧ (g m).x < WIDTH)
    (hy : ∀ m : VduMouse, 0 ≤ m.y ∧ m.y < HEIGHT → 0 ≤ (g m).y ∧ (g m).y < HEIGHT) :
    Triple (fun _ => True) (AtDepth d) (update fun s => { s with gMouse := g s.gMouse } : VduProg Unit) (AtDepth d) := by
  refine Triple.update fun s hs => ?_
  have hhidden : (g s.gMouse).drawn = false := by rw [hdrawn, hs.hidden hd]
  exact ⟨hs.depth, fun _ => hhidden, fun h => absurd (hhidden.symm.trans h) Bool.false_ne_true, hx _ hs.x, hy _ hs.y⟩

theorem balanced_vduMouseEnable (enabled : Bool) : Balanced 1 (vduMouseEnable enabled) := by
  intro d hd
  refine (triple_hide hd).bind fun _ => ?_
  refine Triple.bind (triple_hidden_mouse (g := fun m => { m with enabled := enabled }) (Nat.succ_pos d)
    (fun _ => rfl) (fun _ h => h) fun _ h => h) fun _ => triple_show hd

theorem clampCoordinate_range (value : Int) {maximum : Int} (hmaximum : 0 ≤ maximum) :
    0 ≤ vduMouseClampCoordinate value maximum ∧ vduMouseClampCoordinate value maximum ≤ maximum := by
  rw [vduMouseClampCoordinate]
  split
  · exact ⟨le_rfl, hmaximum⟩
  · split <;> omega

/-- Inside the bracket the mouse may move. -/
theorem balanced_vduMouseUpdate (dx dy : Int8) (buttons : UInt8) : Balanced 2 (vduMouseUpdate dx dy buttons) := by
  intro d hd
  have hd' : d + 1 < 256 := by omega
  have hkeep : ∀ g : VduMouse → VduMouse, (∀ m, (g m).drawn = m.drawn ∧ (g m).x = m.x ∧ (g m).y = m.y) →
      Triple (fun _ => True) (AtDepth (d + 1)) (update fun s => { s with gMouse := g s.gMouse } : VduProg Unit)
        (AtDepth (d + 1)) := by
    intro g hg
    refine triple_hidden_mouse (Nat.succ_pos d) (fun m => (hg m).1) (fun m h => ?_) fun m h => ?_
    · rw [(hg m).2.1]
      exact h
    · rw [(hg m).2.2]
      exact h
  refine Triple.look fun s _ => Triple.when_keep fun _ => (triple_hide hd').bind fun _ => ?_
  refine (hkeep (fun m => { m with active := true }) fun _ => ⟨rfl, rfl, rfl⟩).bind fun _ => ?_
  refine Triple.bind (Triple.when_keep fun _ => ?_) fun _ => ?_
  · refine triple_hidden_mouse (g := fun m => { m with
      x := vduMouseClampCoordinate (m.x + dx.toInt) (WIDTH - 1)
      y := vduMouseClampCoordinate (m.y + dy.toInt) (HEIGHT - 1) }) (Nat.succ_pos d) (fun _ => rfl) (fun m _ => ?_)
      fun m _ => ?_
    · have hrange := clampCoordinate_range (m.x + dx.toInt) (show (0 : Int) ≤ WIDTH - 1 by decide)
      exact ⟨hrange.1, Int.lt_of_le_sub_one hrange.2⟩
    · have hrange := clampCoordinate_range (m.y + dy.toInt) (show (0 : Int) ≤ HEIGHT - 1 by decide)
      exact ⟨hrange.1, Int.lt_of_le_sub_one hrange.2⟩
  refine (hkeep (fun m => { m with buttons := buttons }) fun _ => ⟨rfl, rfl, rfl⟩).bind fun _ => ?_
  refine Triple.look fun s _ => Triple.bind (Triple.when_keep fun _ => ?_) fun _ => triple_show hd'
  exact balanced_moveCursor _ _ (d + 1) (by omega)

end Brackets

/-! ## Runs -/

theorem balanced_run (call : PointerCall) : Balanced 3 call.run := by
  cases call with
  | vduMouseEnable enabled => exact (balanced_vduMouseEnable enabled).mono (by decide)
  | display call =>
    cases call with
    | resetDisplay vMode => exact (balanced_resetDisplay vMode).mono (by decide)
    | vduPutc times c => exact balanced_vduPutc times c
    | moveCursor x y => exact (balanced_moveCursor _ _).mono (by decide)
    | setCursor vShow => exact (balanced_setCursor vShow).mono (by decide)
    | vduRestoreCursor => exact balanced_vduRestoreCursor.mono (by decide)
    | vduSetMode vMode => exact (balanced_vduSetMode vMode).mono (by decide)
    | cmdClearScreen => exact balanced_cmdClearScreen.mono (by decide)
    | vduMouseUpdate dx dy buttons => exact (balanced_vduMouseUpdate dx dy buttons).mono (by decide)
    | taskVDU ms => exact (balanced_taskVDU ms).mono (by decide)

theorem noTrail_step {s : Vdu} (h : s.NoTrail) (call : PointerCall) : (s.pointerStep call).NoTrail := by
  rw [← atDepth_zero_iff] at h ⊢
  exact (balanced_run call 0 (by decide) (.start s) h).1

theorem noTrail_powerUp : Vdu.powerUp.NoTrail := ⟨rfl, nofun, by decide, by decide⟩

/-- Whatever is called, the pointer is shown where the mouse is or not at all. -/
theorem pointer_leaves_no_trail (calls : List PointerCall) : (calls.foldl Vdu.pointerStep Vdu.powerUp).NoTrail := by
  have hstep : ∀ (s : Vdu) (call : PointerCall), s.NoTrail → (s.pointerStep call).NoTrail :=
    fun _ call h => noTrail_step h call
  exact Run.invariant_foldl hstep noTrail_powerUp calls

end NeoMmu
