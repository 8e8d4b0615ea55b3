import NeoMmu.Mailbox.Loop

/-!
# The interrupt slot and the IRQ pin

A pending interrupt is `gIntrPending`, a low IRQ pin and `RP_IRQ_PENDING` in `RP_IRQ_STATE`. The pin is
driven by the interrupt functions and by every entry into `sBOOT` and `sRESET`, so also by a snooping access
that puts one of these states back. The three agree exactly as long as no step of a run parts them.
-/

namespace NeoMmu

variable {σ α : Type}

/-! ## The pin -/

/-- Entering the state drives the IRQ pin high. -/
def SysState.liftsIRQ : SysState → Bool
  | .sBOOT => true
  | .sRESET => true
  | _ => false

/-- The IRQ pin and the system state are left alone. -/
def SamePin (m m' : Machine) : Prop := m'.irqPin = m.irqPin ∧ m'.gSysState = m.gSysState

instance : Std.Refl SamePin where
  refl _ := ⟨rfl, rfl⟩

instance : IsTrans Machine SamePin where
  trans _ _ _ h h' := ⟨h'.1.trans h.1, h'.2.trans h.2⟩

theorem samePin_read6502Memory (a : UInt16) : Prog.Keeps SamePin (read6502Memory a) := by
  intro m
  simp only [read6502Memory, writeCPUAddress, Prog.final_bind, Prog.final_ite, result_getControlMode,
    final_getControlMode, Prog.final_pure]
  split
  · exact ⟨rfl, rfl⟩
  · exact ⟨rfl, rfl⟩

theorem samePin_write6502Memory (a : UInt16) (b : UInt8) : Prog.Keeps SamePin (write6502Memory a b) := by
  intro m
  by_cases hmode : m.gControlMode = .mRPI
  · rw [final_write6502Memory hmode]
    exact ⟨rfl, rfl⟩
  · simp only [write6502Memory, Prog.final_bind, result_getControlMode, final_getControlMode, hmode,
      if_false, Prog.final_pure]
    exact ⟨rfl, rfl⟩

theorem samePin_readBlock (a : UInt16) (n : Nat) : Prog.Keeps SamePin (readBlock a n) := by
  induction n generalizing a with
  | zero => exact Prog.Keeps.pure []
  | succ n ih =>
    exact (samePin_read6502Memory a).bind fun _ => (ih (a + 1)).bind fun _ => Prog.Keeps.pure _

theorem samePin_writeBlock (a : UInt16) (bs : List UInt8) : Prog.Keeps SamePin (writeBlock a bs) := by
  induction bs generalizing a with
  | nil => exact Prog.Keeps.pure ()
  | cons b bs ih => exact (samePin_write6502Memory a b).bind fun _ => ih (a + 1)

/-- A transition drives the pin high when it enters a state that does. -/
theorem irqPin_set6502State (m : Machine) (s : SysState) :
    ((set6502State s).final m).irqPin = (m.irqPin || (s != m.gSysState && s.liftsIRQ)) := by
  simp only [set6502State, Prog.final_bind, result_get6502State, final_get6502State, Prog.final_ite,
    Prog.final_pure]
  split
  · rename_i hsame
    simp [hsame]
  rename_i hother
  rw [bne_iff_ne.2 hother, Bool.true_and]
  cases s with
  | sSTARTUP => exact (Bool.or_false _).symm
  | sBOOT => exact (Bool.or_true _).symm
  | sRESET =>
    have hcontext : Prog.Keeps SamePin (setMMUContext DEFAULT_CONTEXT) := fun m => by
      simp only [setMMUContext, Prog.final_bind, Prog.final_ite, Prog.final_pure]
      split <;> exact ⟨rfl, rfl⟩
    refine Eq.trans ?_ (Bool.or_true _).symm
    exact (hcontext _).1
  | sHALTED => exact (Bool.or_false _).symm
  | sRUNNING => exact (Bool.or_false _).symm
  | sREAD => exact (Bool.or_false _).symm
  | sRPI => exact (Bool.or_false _).symm

/-- Snooping in `sBOOT` or `sRESET` enters the state again and drives the pin high. -/
theorem irqPin_snooping {cycles : Prog Machine α} (hc : Prog.Keeps SamePin cycles) {m : Machine}
    (hm : m.Settled) : ((snooping cycles).final m).irqPin = (m.irqPin || m.gSysState.liftsIRQ) := by
  obtain ⟨hview, -⟩ := set6502State_spec hm (s := .sRPI) nofun
  obtain ⟨hpin, hstate⟩ := hc ((set6502State .sRPI).final m)
  have hrpi : ((set6502State .sRPI).final m).gSysState = .sRPI := congrArg Machine.View.gSysState hview
  simp only [snooping, Prog.final_bind, result_get6502State, final_get6502State, Prog.final_pure,
    Prog.final_discard, irqPin_set6502State, hpin, hstate, hrpi]
  cases m.gSysState <;> simp [SysState.liftsIRQ]

/-- A snooping call writes what it is asked to. -/
theorem view_snoopCall {m : Machine} (hm : m.Settled) (call : SnoopCall) :
    (call.run.final m).view = m.view.writes call.asked ∧ (call.run.final m).Settled := by
  cases call with
  | readLoc a => exact (snoopRead6502MemoryLoc_spec hm a).2
  | read a n => exact (snoopRead6502Memory_spec hm a n).2
  | writeLoc a b => exact snoopWrite6502MemoryLoc_spec hm a b
  | write a bs => exact snoopWrite6502Memory_spec hm a bs

theorem irqPin_snoopCall {m : Machine} (hm : m.Settled) (call : SnoopCall) :
    (call.run.final m).irqPin = (m.irqPin || m.gSysState.liftsIRQ) := by
  cases call with
  | readLoc a => exact irqPin_snooping (samePin_read6502Memory a) hm
  | read a n => exact irqPin_snooping (samePin_readBlock a _) hm
  | writeLoc a b => exact irqPin_snooping (samePin_write6502Memory a b) hm
  | write a bs => exact irqPin_snooping (samePin_writeBlock a bs) hm

/-! ## The slot -/

/-- `genIRQ6502()` is refused while an interrupt is pending. Otherwise it looks at `RP_IRQ_STATE` and raises
the interrupt if that is free. -/
theorem genIRQ6502_spec {f : Firmware σ} (hf : f.hw.Settled) (vSrc : IrqSource) :
    let f' := (genIRQ6502 vSrc).final f
    f.gIntrPending = true ∧ (genIRQ6502 vSrc).result f = false ∧ f' = f ∨
      f.gIntrPending = false ∧ f'.hw.Settled ∧
        (f.hw.view.peek RP_IRQ_STATE = RP_IRQ_NONE ∧ (genIRQ6502 vSrc).result f = true ∧
            f' = { f with hw := f'.hw, gIntrPending := true } ∧ f'.hw.irqPin = false ∧
            f'.hw.view = f.hw.view.writes
              [(RP_IRQ_STATE, RP_IRQ_PENDING), (RP_IRQ_SOURCE, vSrc.toByte)] ∨
          f.hw.view.peek RP_IRQ_STATE ≠ RP_IRQ_NONE ∧ (genIRQ6502 vSrc).result f = false ∧
            f' = { f with hw := f'.hw } ∧ f'.hw.view = f.hw.view) := by
  intro f'
  obtain ⟨hstate, hread, hf₁⟩ := snoopRead6502MemoryLoc_spec hf RP_IRQ_STATE
  have hwrites : Stores (do
      snoopWrite6502MemoryLoc RP_IRQ_STATE RP_IRQ_PENDING
      snoopWrite6502MemoryLoc RP_IRQ_SOURCE vSrc.toByte) _ :=
    (stores_snoopWrite RP_IRQ_STATE RP_IRQ_PENDING).bind (stores_snoopWrite RP_IRQ_SOURCE vSrc.toByte)
  obtain ⟨hview₂, hf₂⟩ := hwrites _ hf₁
  rw [hread] at hview₂
  simp only [f', genIRQ6502, Prog.final_bind, Prog.result_bind, Prog.result_get, Prog.final_get,
    Prog.final_ite, Prog.result_ite, Prog.final_pure, Prog.result_pure, onHw, Prog.final_on,
    Prog.result_on, Prog.final_modify, hstate] at hview₂ hf₂ ⊢
  generalize (snoopRead6502MemoryLoc RP_IRQ_STATE).final f.hw = m₁ at hread hf₁ hview₂ hf₂ ⊢
  generalize (snoopWrite6502MemoryLoc RP_IRQ_SOURCE _).final _ = m₂ at hview₂ hf₂ ⊢
  rcases hpending : f.gIntrPending with - | -
  swap
  · exact .inl ⟨rfl, rfl, rfl⟩
  right
  simp only [Bool.false_eq_true, if_false]
  by_cases hnone : f.hw.view.peek RP_IRQ_STATE = RP_IRQ_NONE
  · rw [if_pos hnone, if_pos hnone]
    refine ⟨trivial, ?_, .inl ⟨hnone, rfl, rfl, rfl, hview₂⟩⟩
    exact hf₂.congr rfl rfl rfl rfl
  · rw [if_neg hnone, if_neg hnone]
    exact ⟨trivial, hf₁, .inr ⟨hnone, rfl, rfl, hread⟩⟩

/-- A pending interrupt holds the IRQ pin low and shows in `RP_IRQ_STATE`. -/
def Firmware.Asserted (f : Firmware σ) : Prop :=
  f.gIntrPending = true → f.hw.irqPin = false ∧ f.hw.view.peek RP_IRQ_STATE = RP_IRQ_PENDING

instance (f : Firmware σ) : Decidable f.Asserted :=
  inferInstanceAs (Decidable (_ → _))

/-- What is asserted stays asserted. -/
def Asserting (f f' : Firmware σ) : Prop :=
  f.hw.Settled → f.Asserted → f'.hw.Settled ∧ f'.Asserted

instance : Std.Refl (Asserting (σ := σ)) where
  refl _ := fun hf ha => ⟨hf, ha⟩

instance : IsTrans (Firmware σ) Asserting where
  trans f f' f'' h h' := by
    intro hf ha
    obtain ⟨hf', ha'⟩ := h hf ha
    exact h' hf' ha'

/-- Whatever raises an interrupt asserts it. -/
theorem asserting_genIRQ6502 (vSrc : IrqSource) : Prog.Keeps (Asserting (σ := σ)) (genIRQ6502 vSrc) := by
  intro f hf ha
  rcases genIRQ6502_spec hf vSrc with ⟨-, -, hsame⟩ | ⟨hpending, hsettled, hraised | hrefused⟩
  · rw [hsame]
    exact ⟨hf, ha⟩
  · obtain ⟨-, -, -, hpin, hview⟩ := hraised
    refine ⟨hsettled, fun _ => ⟨hpin, ?_⟩⟩
    rw [hview, Machine.View.writes_cons]
    refine (Machine.View.peek_writes_of_ne _ ?_).trans (Machine.View.peek_poke_self _ _ _)
    simp only [List.mem_singleton, forall_eq]
    decide
  · obtain ⟨-, -, hf', -⟩ := hrefused
    refine ⟨hsettled, fun h => ?_⟩
    rw [hf'] at h
    exact absurd (hpending.symm.trans h) Bool.false_ne_true

/-- An interrupt is released when its source is cleared, and is otherwise only looked at. -/
theorem releaseSlot_spec {f : Firmware σ} (hf : f.hw.Settled) :
    let f' := releaseSlot.final f
    f'.hw.Settled ∧
      (f.hw.view.peek RP_IRQ_SOURCE = IrqSource.RP_SRC_NONE.toByte ∧ f'.gIntrPending = false ∨
        f.hw.view.peek RP_IRQ_SOURCE ≠ IrqSource.RP_SRC_NONE.toByte ∧ f' = { f with hw := f'.hw } ∧
          f'.hw.view = f.hw.view ∧ f'.hw.irqPin = (f.hw.irqPin || f.hw.gSysState.liftsIRQ)) := by
  intro f'
  obtain ⟨hsrc, hread, hf₁⟩ := snoopRead6502MemoryLoc_spec hf RP_IRQ_SOURCE
  have hpin : ((snoopRead6502MemoryLoc RP_IRQ_SOURCE).final f.hw).irqPin = _ :=
    irqPin_snooping (samePin_read6502Memory RP_IRQ_SOURCE) hf
  simp only [f', releaseSlot, Prog.final_bind, Prog.final_ite, Prog.final_modify, Prog.final_pure, onHw,
    Prog.final_on, Prog.result_on, hsrc]
  generalize (snoopRead6502MemoryLoc RP_IRQ_SOURCE).final f.hw = m₁ at hread hf₁ hpin ⊢
  have hlifted : ((setIRQPin true).final m₁).Settled := hf₁.congr rfl rfl rfl rfl
  obtain ⟨-, hf₂⟩ := snoopWrite6502MemoryLoc_spec hlifted RP_IRQ_STATE RP_IRQ_NONE
  by_cases hnone : f.hw.view.peek RP_IRQ_SOURCE = IrqSource.RP_SRC_NONE.toByte
  · rw [if_pos hnone]
    exact ⟨hf₂, .inl ⟨hnone, rfl⟩⟩
  · rw [if_neg hnone]
    exact ⟨hf₁, .inr ⟨hnone, rfl, hread, hpin⟩⟩

/-! ## The steps -/

/-- What may happen to the slot, in any order. -/
inductive SlotStep
  /-- `taskIRQTimer()` runs; it may read the clock twice. -/
  | taskIRQTimer (now now' : UInt32)
  | genIRQ6502 (vSrc : IrqSource)
  /-- `startIRQTimer()` reads the clock at `now`. -/
  | startIRQTimer (vPeriod now : UInt32)
  | stopIRQTimer
  | set6502State (vSysState : SysState)
  | snoop (call : SnoopCall)
  | requestFSCompletionIRQ
  | requestConsoleBreakIRQ
  /-- The 6502 clears `RP_IRQ_SOURCE`. -/
  | acknowledge

/-- What a step does. -/
def SlotStep.program : SlotStep → Prog (Scheduler σ) Unit
  | .taskIRQTimer now now' => NeoMmu.taskIRQTimer now now'
  | .genIRQ6502 vSrc => onFirmware do discard <| NeoMmu.genIRQ6502 vSrc
  | .startIRQTimer vPeriod now => NeoMmu.startIRQTimer vPeriod now
  | .stopIRQTimer => NeoMmu.stopIRQTimer
  | .set6502State vSysState => onFirmware do discard <| onHw (NeoMmu.set6502State vSysState)
  | .snoop call => onFirmware (onHw call.run)
  | .requestFSCompletionIRQ => onFirmware NeoMmu.requestFSCompletionIRQ
  | .requestConsoleBreakIRQ => onFirmware NeoMmu.requestConsoleBreakIRQ
  | .acknowledge => onFirmware <| onHw <| modify fun m =>
      m.poke RP_IRQ_SOURCE IrqSource.RP_SRC_NONE.toByte

/-- The scheduler after a step. -/
def Scheduler.slotStep (s : Scheduler σ) (l : SlotStep) : Scheduler σ := l.program.final s

/-- While an interrupt is pending, the timer is not started, the states whose entry drives the pin high are
neither entered nor snooped in, and no access changes `RP_IRQ_STATE`. -/
def SlotStep.Meets (f : Firmware σ) : SlotStep → Prop
  | .taskIRQTimer _ _ => f.gIntrPending = true → f.hw.gSysState.liftsIRQ = false ∨
      f.hw.view.peek RP_IRQ_SOURCE = IrqSource.RP_SRC_NONE.toByte
  | .startIRQTimer vPeriod _ => f.gIntrPending = true → ¬ vPeriod < 65535
  | .set6502State vSysState => f.gIntrPending = true →
      vSysState.liftsIRQ = false ∨ vSysState = f.hw.gSysState
  | .snoop call => f.gIntrPending = true → f.hw.gSysState.liftsIRQ = false ∧
      (f.hw.view.writes call.asked).peek RP_IRQ_STATE = RP_IRQ_PENDING
  | _ => True

section Steps

variable {s : Scheduler σ}

theorem asserted_taskIRQTimer (hs : s.firmware.hw.Settled) (ha : s.firmware.Asserted) (now now' : UInt32) :
    let s' := s.slotStep (.taskIRQTimer now now')
    s'.firmware.hw.Settled ∧
      (s'.firmware.Asserted ↔ SlotStep.Meets s.firmware (.taskIRQTimer now now')) := by
  intro s'
  by_cases hpending : s.firmware.gIntrPending = true
  · have hs' : s'.firmware = releaseSlot.final s.firmware := by
      simp only [s', Scheduler.slotStep, SlotStep.program, taskIRQTimer, Prog.final_bind,
        Prog.result_get, Prog.final_get, hpending, if_true, onFirmware, Prog.final_on]
    obtain ⟨hpin, hstate⟩ := ha hpending
    obtain ⟨hsettled, hreleased | ⟨hsrc, hf', hview, hpin'⟩⟩ := releaseSlot_spec hs
    · rw [hs']
      refine ⟨hsettled, iff_of_true (fun h => ?_) fun _ => .inr hreleased.1⟩
      exact absurd (hreleased.2.symm.trans h) Bool.false_ne_true
    · rw [hs']
      refine ⟨hsettled, ?_⟩
      rw [hpin, Bool.false_or] at hpin'
      have hpending' : (releaseSlot.final s.firmware).gIntrPending = true := by
        rw [hf']
        exact hpending
      constructor
      · intro h _
        exact .inl (hpin'.symm.trans (h hpending').1)
      · intro h _
        rcases h hpending with hlifts | hnone
        · exact ⟨hpin'.trans hlifts, by rw [hview, hstate]⟩
        · exact absurd hnone hsrc
  · have hdrop : ∀ (vSrc : IrqSource) {g : Firmware σ → Firmware σ},
        (∀ f, (g f).hw = f.hw ∧ (g f).gIntrPending = f.gIntrPending) →
        Prog.Keeps Asserting (do
          if ← genIRQ6502 vSrc then
            modify g) := by
      intro vSrc g hg
      refine keeps_raise (asserting_genIRQ6502 vSrc) fun f hf ha => ?_
      obtain ⟨hhw, hintr⟩ := hg f
      rw [Firmware.Asserted, hhw, hintr]
      exact ⟨hf, ha⟩
    rw [show s' = (taskIRQTimer now now').final s from rfl, taskIRQTimer, Prog.final_bind,
      Prog.result_get, Prog.final_get, if_neg hpending]
    obtain ⟨hsettled, hasserted⟩ := keeps_raiseNext (hdrop .RP_SRC_CONSOLE_BREAK fun _ => ⟨rfl, rfl⟩)
      (hdrop .RP_SRC_FS_DONE fun _ => ⟨rfl, rfl⟩) (asserting_genIRQ6502 _) s.firmware now now' s hs ha
    exact ⟨hsettled, iff_of_true hasserted fun h => absurd h hpending⟩

/-- Stopping the timer frees the slot. -/
theorem settled_stopIRQTimer (hs : s.firmware.hw.Settled) :
    (s.slotStep .stopIRQTimer).firmware.hw.Settled ∧
      (s.slotStep .stopIRQTimer).firmware.gIntrPending = false := by
  have hlift : ((setIRQPin true).final s.firmware.hw).Settled := hs.congr rfl rfl rfl rfl
  exact ⟨(stores_clearSlot _ hlift).2, rfl⟩

/-- Starting the timer drives the pin high and leaves a pending interrupt pending. -/
theorem asserted_startIRQTimer (hs : s.firmware.hw.Settled)
    (vPeriod now : UInt32) :
    let s' := s.slotStep (.startIRQTimer vPeriod now)
    s'.firmware.hw.Settled ∧
      (s'.firmware.Asserted ↔ SlotStep.Meets s.firmware (.startIRQTimer vPeriod now)) := by
  intro s'
  have hs' : s' = (startIRQTimer vPeriod now).final s := rfl
  by_cases hperiod : vPeriod < 65535
  · obtain ⟨-, hclear⟩ := stores_clearSlot s.firmware.hw hs
    have hfirmware : s'.firmware = { s.firmware with
        hw := (setIRQPin true).final (clearSlot.final s.firmware.hw) } := by
      rw [hs', startIRQTimer, if_pos hperiod]
      rfl
    rw [hfirmware]
    generalize clearSlot.final s.firmware.hw = m at hclear
    refine ⟨hclear.congr rfl rfl rfl rfl, ?_⟩
    constructor
    · intro h hpending _
      exact Bool.false_ne_true (h hpending).1.symm
    · intro h hpending
      exact absurd hperiod (h hpending)
  · have hstop : s' = s.slotStep .stopIRQTimer := by
      rw [hs', startIRQTimer, if_neg hperiod]
      rfl
    rw [hstop]
    obtain ⟨hsettled, hidle⟩ := settled_stopIRQTimer hs
    exact ⟨hsettled, iff_of_true (fun h => absurd (hidle.symm.trans h) Bool.false_ne_true) fun _ => hperiod⟩

/-- The view of a state that is not `sRESET`, or is the one before, shows the same bytes. -/
theorem peek_enter {m : Machine} (hm : m.Settled) {vSysState : SysState}
    (h : vSysState.liftsIRQ = false ∨ vSysState = m.gSysState) (a : UInt16) :
    (m.view.enter vSysState).peek a = m.view.peek a := by
  rcases h with hlifts | rfl
  · have hreset : vSysState ≠ .sRESET := by
      rintro rfl
      cases hlifts
    rw [Machine.View.enter, if_neg hreset]
    rfl
  · rw [hm.view_enter_self]

theorem asserted_set6502State (hs : s.firmware.hw.Settled) (ha : s.firmware.Asserted)
    (vSysState : SysState) :
    let s' := s.slotStep (.set6502State vSysState)
    s'.firmware.hw.Settled ∧
      (s'.firmware.Asserted ↔ SlotStep.Meets s.firmware (.set6502State vSysState)) := by
  intro s'
  have hhw : s'.firmware.hw = (set6502State vSysState).final s.firmware.hw := rfl
  have hpin := irqPin_set6502State s.firmware.hw vSysState
  refine ⟨settled_set6502State hs vSysState, ?_⟩
  rw [← hhw] at hpin
  constructor
  · intro h hpending
    rw [(ha hpending).1, (h hpending).1, Bool.false_or] at hpin
    rcases (Bool.and_eq_false_iff.1 hpin.symm) with hsame | hlifts
    · exact .inr (by simpa using hsame)
    · exact .inl hlifts
  · intro h hpending
    obtain ⟨hlow, hstate⟩ := ha hpending
    have hkept := h hpending
    refine ⟨?_, ?_⟩
    · rw [hpin, hlow, Bool.false_or, Bool.and_eq_false_iff]
      rcases hkept with hlifts | hsame
      · exact .inr hlifts
      · exact .inl (by simp [hsame])
    · by_cases hstartup : vSysState = .sSTARTUP
      · rw [hhw, hstartup, final_set6502State_startup]
        exact hstate
      · rw [hhw, (set6502State_spec hs hstartup).1, peek_enter hs hkept]
        exact hstate

theorem asserted_snoop (hs : s.firmware.hw.Settled) (ha : s.firmware.Asserted) (call : SnoopCall) :
    let s' := s.slotStep (.snoop call)
    s'.firmware.hw.Settled ∧ (s'.firmware.Asserted ↔ SlotStep.Meets s.firmware (.snoop call)) := by
  intro s'
  have hhw : s'.firmware.hw = call.run.final s.firmware.hw := rfl
  obtain ⟨hview, hsettled⟩ := view_snoopCall hs call
  have hpin := irqPin_snoopCall hs call
  rw [← hhw] at hview hsettled hpin
  refine ⟨hsettled, forall_congr' fun hpending => ?_⟩
  rw [hview, hpin, (ha hpending).1, Bool.false_or]

/-- A step keeps a pending interrupt asserted exactly when it meets the condition. -/
theorem asserted_slotStep (hs : s.firmware.hw.Settled) (ha : s.firmware.Asserted) (l : SlotStep) :
    (s.slotStep l).firmware.hw.Settled ∧ ((s.slotStep l).firmware.Asserted ↔ l.Meets s.firmware) := by
  cases l with
  | taskIRQTimer now now' => exact asserted_taskIRQTimer hs ha now now'
  | genIRQ6502 vSrc =>
    obtain ⟨hsettled, hasserted⟩ := asserting_genIRQ6502 vSrc _ hs ha
    exact ⟨hsettled, iff_of_true hasserted trivial⟩
  | startIRQTimer vPeriod now => exact asserted_startIRQTimer hs vPeriod now
  | stopIRQTimer =>
    obtain ⟨hsettled, hidle⟩ := settled_stopIRQTimer hs
    exact ⟨hsettled, iff_of_true (fun h => absurd (hidle.symm.trans h) Bool.false_ne_true) trivial⟩
  | set6502State vSysState => exact asserted_set6502State hs ha vSysState
  | snoop call => exact asserted_snoop hs ha call
  | requestFSCompletionIRQ => exact ⟨hs, iff_of_true ha trivial⟩
  | requestConsoleBreakIRQ => exact ⟨hs, iff_of_true ha trivial⟩
  | acknowledge =>
    refine ⟨hs.congr rfl rfl rfl rfl, iff_of_true (fun hpending => ?_) trivial⟩
    obtain ⟨hlow, hstate⟩ := ha hpending
    exact ⟨hlow, (Machine.View.peek_poke_of_ne s.firmware.hw.view _ (by decide)).trans hstate⟩

end Steps

/-! ## Runs -/

section Runs

variable {ff : FatFs σ}

theorem asserted_run_iff {s : Scheduler σ} (hs : s.firmware.hw.Settled) (ha : s.firmware.Asserted)
    (run : List SlotStep) :
    Run.AtEveryStep Scheduler.slotStep (fun s l => (s.slotStep l).firmware.Asserted) s run ↔
      Run.AtEveryStep Scheduler.slotStep (fun s l => l.Meets s.firmware) s run := by
  refine Run.atEveryStep_congr (I := fun s : Scheduler σ => s.firmware.hw.Settled ∧ s.firmware.Asserted)
    (fun s l hI ha' => ?_) (fun s l hI => ?_) ⟨hs, ha⟩
  · exact ⟨(asserted_slotStep hI.1 hI.2 l).1, ha'⟩
  · exact (asserted_slotStep hI.1 hI.2 l).2

/-- From a state that `loop()` reaches with its interrupt asserted, if there is one, a run keeps pending
interrupts asserted exactly when every step meets the condition. -/
theorem irq_asserted_iff (ff : FatFs σ) (hread : ReadsAtMost ff) (flash : Flash) {s : System σ}
    (h : s.Reachable ff flash) (hasserted : s.scheduler.firmware.Asserted) (run : List SlotStep) :
    Run.AtEveryStep Scheduler.slotStep (fun s l => (s.slotStep l).firmware.Asserted) s.scheduler run ↔
      Run.AtEveryStep Scheduler.slotStep (fun s l => l.Meets s.firmware) s.scheduler run :=
  asserted_run_iff (h.settled hread) hasserted run

theorem asserted_of_idle {f : Firmware σ} (h : f.Idle) : f.Asserted :=
  fun hpending => absurd (h.gIntrPending.symm.trans hpending) Bool.false_ne_true

/-- The CPU is started, interrupted, halted and acknowledges the interrupt. -/
theorem irq_asserted_halted :
    Run.AtEveryStep Scheduler.slotStep (fun s l => (s.slotStep l).firmware.Asserted) freshSystem.scheduler
      [.set6502State .sRUNNING, .genIRQ6502 .RP_SRC_MONITOR, .set6502State .sHALTED, .acknowledge] := by
  have hmeets : ∀ s : Scheduler RamDisk,
      Run.AtEveryStep Scheduler.slotStep (fun s l => l.Meets s.firmware) s
        [.set6502State .sRUNNING, .genIRQ6502 .RP_SRC_MONITOR, .set6502State .sHALTED, .acknowledge] := by
    intro s
    refine Run.atEveryStep_cons.2 ⟨fun _ => .inl rfl, Run.atEveryStep_cons.2 ⟨trivial, ?_⟩⟩
    exact Run.atEveryStep_cons.2 ⟨fun _ => .inl rfl, Run.atEveryStep_cons.2 ⟨trivial, Run.atEveryStep_nil _⟩⟩
  exact (irq_asserted_iff RamDisk.fatFs readsAtMost_ramDisk (fun _ => none) (reachable_freshSystem _)
    (asserted_of_idle ready_freshSystem.idle) _).2 (hmeets freshSystem.scheduler)

/-- A free slot takes an interrupt, and starting the timer leaves it pending without its pin. -/
theorem not_asserted_timer {s : Scheduler σ} (hs : s.firmware.hw.Settled) (vSrc : IrqSource)
    {vPeriod : UInt32} (hperiod : vPeriod < 65535) (now : UInt32) :
    ¬ Run.AtEveryStep Scheduler.slotStep (fun s l => (s.slotStep l).firmware.Asserted) s
      [.stopIRQTimer, .genIRQ6502 vSrc, .startIRQTimer vPeriod now] := by
  have hlift : ((setIRQPin true).final s.firmware.hw).Settled := hs.congr rfl rfl rfl rfl
  obtain ⟨hview, hsettled⟩ := stores_clearSlot _ hlift
  generalize hs₁ : s.slotStep .stopIRQTimer = s₁
  have hhw : s₁.firmware.hw = clearSlot.final ((setIRQPin true).final s.firmware.hw) := by
    rw [← hs₁]
    rfl
  have hfree : s₁.firmware.gIntrPending = false := by
    rw [← hs₁]
    rfl
  rw [← hhw] at hview hsettled
  have hnone : s₁.firmware.hw.view.peek RP_IRQ_STATE = RP_IRQ_NONE := by
    rw [hview]
    exact Machine.View.peek_poke_self _ _ _
  obtain ⟨hsettled₂, -⟩ := asserting_genIRQ6502 vSrc s₁.firmware hsettled fun h =>
    absurd (hfree.symm.trans h) Bool.false_ne_true
  have hpending : ((genIRQ6502 vSrc).final s₁.firmware).gIntrPending = true := by
    rcases genIRQ6502_spec hsettled vSrc with ⟨h, -⟩ | ⟨-, -, ⟨-, -, h, -⟩ | ⟨h, -⟩⟩
    · exact absurd (hfree.symm.trans h) Bool.false_ne_true
    · rw [h]
    · exact absurd hnone h
  rw [Run.atEveryStep_cons, hs₁, Run.atEveryStep_cons, Run.atEveryStep_cons]
  rintro ⟨-, -, hstart, -⟩
  exact (asserted_startIRQTimer (s := s₁.slotStep (.genIRQ6502 vSrc)) hsettled₂ vPeriod now).2.1
    hstart hpending hperiod

/-- The timer is started while an interrupt of the monitor is pending. -/
theorem timer_hides_interrupt : freshSystem.Reachable RamDisk.fatFs (fun _ => none) ∧
    freshSystem.scheduler.firmware.Asserted ∧
    ¬ Run.AtEveryStep Scheduler.slotStep (fun s l => (s.slotStep l).firmware.Asserted) freshSystem.scheduler
      [.stopIRQTimer, .genIRQ6502 .RP_SRC_MONITOR, .startIRQTimer 100 0] := by
  have hready : ∀ s : System RamDisk, s.Ready → s.scheduler.firmware.Asserted ∧
      ¬ Run.AtEveryStep Scheduler.slotStep (fun s l => (s.slotStep l).firmware.Asserted) s.scheduler
        [.stopIRQTimer, .genIRQ6502 .RP_SRC_MONITOR, .startIRQTimer 100 0] :=
    fun s h => ⟨asserted_of_idle h.idle, not_asserted_timer h.settled .RP_SRC_MONITOR (by decide) 0⟩
  exact ⟨reachable_freshSystem _, hready _ ready_freshSystem⟩

end Runs

end NeoMmu
