import NeoMmu.Foundation.Run
import NeoMmu.Mailbox.Footprint

/-!
# The interrupt slot

The interrupts of `scheduler.cpp`: four sources share one slot, which is `gIntrPending` and the bytes at
`RP_IRQ_SOURCE` and `RP_IRQ_STATE`. A completion that waits for the slot or stands in it is not lost
until the 6502 takes it; starting or stopping the timer clears the slot under it.
-/

namespace NeoMmu

variable {σ α : Type}

/-! ## The functions -/

/-- `irq_source_t` -/
inductive IrqSource
  | RP_SRC_NONE
  | RP_SRC_TIMER
  | RP_SRC_MONITOR
  | RP_SRC_FS_DONE
  | RP_SRC_CONSOLE_BREAK
  deriving DecidableEq, Repr

/-- The byte of a source. -/
def IrqSource.toByte : IrqSource → UInt8
  | .RP_SRC_NONE => 0
  | .RP_SRC_TIMER => 1
  | .RP_SRC_MONITOR => 2
  | .RP_SRC_FS_DONE => 3
  | .RP_SRC_CONSOLE_BREAK => 4

/-- `RP_IRQ_NONE` -/
def RP_IRQ_NONE : UInt8 := 0

/-- `RP_IRQ_PENDING` -/
def RP_IRQ_PENDING : UInt8 := 1

/-- The firmware with the statics of the IRQ timer. -/
structure Scheduler (σ : Type) where
  firmware : Firmware σ
  irqTimerEnabled : Bool
  irqTimerInterval : UInt32
  irqLastTS : UInt32
  taskTimerCounter : UInt8

/-- A program on the firmware. -/
def onFirmware (p : Prog (Firmware σ) α) : Prog (Scheduler σ) α :=
  p.on (·.firmware) fun s f => { s with firmware := f }

/-- `genIRQ6502()` -/
def genIRQ6502 (vSrc : IrqSource) : Prog (Firmware σ) Bool := do
  if (← get).gIntrPending then
    return false
  else
    if (← onHw (snoopRead6502MemoryLoc RP_IRQ_STATE)) = RP_IRQ_NONE then
      onHw (snoopWrite6502MemoryLoc RP_IRQ_STATE RP_IRQ_PENDING)
      onHw (snoopWrite6502MemoryLoc RP_IRQ_SOURCE vSrc.toByte)
      onHw (setIRQPin false)
      modify fun f => { f with gIntrPending := true }
      return true
    else
      return false

/-- `requestConsoleBreakIRQ()` -/
def requestConsoleBreakIRQ : Prog (Firmware σ) Unit :=
  modify fun f => { f with gConsoleBreakPending := true }

/-- The slot as the timer control clears it. -/
def clearSlot : Prog Machine Unit := do
  snoopWrite6502MemoryLoc RP_IRQ_SOURCE IrqSource.RP_SRC_NONE.toByte
  snoopWrite6502MemoryLoc RP_IRQ_STATE RP_IRQ_NONE

/-- `stopIRQTimer()` -/
def stopIRQTimer : Prog (Scheduler σ) Unit := do
  modify fun s => { s with irqTimerEnabled := false }
  onFirmware do
    onHw (setIRQPin true)
    onHw clearSlot
    modify fun f => { f with gIntrPending := false }

/-- `startIRQTimer()`, which reads the clock at `now`. -/
def startIRQTimer (vPeriod now : UInt32) : Prog (Scheduler σ) Unit := do
  if vPeriod < 65535 then
    modify fun s => { s with irqTimerInterval := vPeriod, irqTimerEnabled := true, irqLastTS := now }
    onFirmware do
      onHw clearSlot
      onHw (setIRQPin true)
  else
    stopIRQTimer

/-- The part of `taskIRQTimer()` for an interrupt that is pending. -/
def releaseSlot : Prog (Firmware σ) Unit := do
  if (← onHw (snoopRead6502MemoryLoc RP_IRQ_SOURCE)) = IrqSource.RP_SRC_NONE.toByte then
    onHw (setIRQPin true)
    onHw (snoopWrite6502MemoryLoc RP_IRQ_STATE RP_IRQ_NONE)
    modify fun f => { f with gIntrPending := false }

/-- The part of `taskIRQTimer()` for the timer, which reads the clock at `now` and at `now'`. -/
def timerExpiry (now now' : UInt32) : Prog (Scheduler σ) Unit := do
  let s ← get
  if s.irqTimerEnabled ∧ s.irqLastTS + s.irqTimerInterval ≤ now then
    modify fun s => { s with irqLastTS := now' }
    if ← onFirmware (genIRQ6502 .RP_SRC_TIMER) then
      modify fun s => { s with taskTimerCounter := 0 }
    else
      modify fun s => { s with taskTimerCounter := s.taskTimerCounter + 1 }

/-- `taskIRQTimer()` -/
def taskIRQTimer (now now' : UInt32) : Prog (Scheduler σ) Unit := do
  let f := (← get).firmware
  if f.gIntrPending then
    onFirmware releaseSlot
  else if f.gConsoleBreakPending then
    onFirmware do
      if ← genIRQ6502 .RP_SRC_CONSOLE_BREAK then
        modify fun f => { f with gConsoleBreakPending := false }
  else if f.gFsCompletionPending then
    onFirmware do
      if ← genIRQ6502 .RP_SRC_FS_DONE then
        modify fun f => { f with gFsCompletionPending := false }
  else
    timerExpiry now now'

/-- `cmdTimerCallback()` with its interval. -/
def cmdTimer (lInterval now : UInt32) : Prog (Scheduler σ) Unit :=
  if lInterval < 1 then stopIRQTimer else startIRQTimer lInterval now

/-- `cmdBootCallback()`; the clock frequency is the CPU's own. -/
def cmdBoot (now : UInt32) : Prog (Scheduler σ) Unit := do
  onFirmware do discard <| onHw (set6502State .sRUNNING)
  startIRQTimer 10 now

/-! ## What the slot holds -/

/-- An interrupt for a completion stands in the slot. -/
def Firmware.Delivered (f : Firmware σ) : Prop :=
  f.gIntrPending = true ∧ f.hw.view.peek RP_IRQ_SOURCE = IrqSource.RP_SRC_FS_DONE.toByte

/-- A completion is waiting for the slot or stands in it. -/
def Firmware.Announced (f : Firmware σ) : Prop := f.gFsCompletionPending = true ∨ f.Delivered

instance (f : Firmware σ) : Decidable f.Delivered :=
  inferInstanceAs (Decidable (_ ∧ _))

instance (f : Firmware σ) : Decidable f.Announced :=
  inferInstanceAs (Decidable (_ ∨ _))

theorem Machine.Steady.setIRQPin {m : Machine} (hm : m.Steady) (level : Bool) :
    ((setIRQPin level).final m).Steady :=
  ⟨⟨hm.settled.started, hm.settled.rpi, hm.settled.reset, hm.settled.cached⟩, hm.selected⟩

theorem stores_clearSlot : Stores clearSlot
    [(RP_IRQ_SOURCE, IrqSource.RP_SRC_NONE.toByte), (RP_IRQ_STATE, RP_IRQ_NONE)] :=
  (stores_snoopWrite _ _).bind (stores_snoopWrite _ _)

/-- An announced completion stays announced, and no other is requested. -/
def Keeping (f f' : Firmware σ) : Prop :=
  f.hw.Steady → f'.hw.Steady ∧ f'.events = f.events ∧ (f.Announced → f'.Announced)

instance : Std.Refl (Keeping (σ := σ)) where
  refl _ := fun hf => ⟨hf, rfl, id⟩

instance : IsTrans (Firmware σ) Keeping where
  trans f f' f'' h h' := by
    intro hf
    obtain ⟨hf', hevents, hannounced⟩ := h hf
    obtain ⟨hf'', hevents', hannounced'⟩ := h' hf'
    exact ⟨hf'', hevents'.trans hevents, hannounced' ∘ hannounced⟩

/-- A source that gets the slot finds it free; otherwise the slot is as it was. -/
theorem genIRQ6502_cases {f : Firmware σ} (hf : f.hw.Steady) (vSrc : IrqSource) :
    let f' := (genIRQ6502 vSrc).final f
    f'.hw.Steady ∧ f'.events = f.events ∧ f'.gFsCompletionPending = f.gFsCompletionPending ∧
      ((genIRQ6502 vSrc).result f = true ∧ f.gIntrPending = false ∧ f'.gIntrPending = true ∧
          f'.hw.view.peek RP_IRQ_SOURCE = vSrc.toByte ∨
        (genIRQ6502 vSrc).result f = false ∧ f'.gIntrPending = f.gIntrPending ∧
          f'.hw.view.peek RP_IRQ_SOURCE = f.hw.view.peek RP_IRQ_SOURCE) := by
  intro f'
  obtain ⟨-, hread, hf₁⟩ := snoopRead6502MemoryLoc_spec hf.settled RP_IRQ_STATE
  have hsteady₁ : ((snoopRead6502MemoryLoc RP_IRQ_STATE).final f.hw).Steady := hf.of_view hf₁ hread
  have hwrites : Stores (do
      snoopWrite6502MemoryLoc RP_IRQ_STATE RP_IRQ_PENDING
      snoopWrite6502MemoryLoc RP_IRQ_SOURCE vSrc.toByte) _ :=
    (stores_snoopWrite RP_IRQ_STATE RP_IRQ_PENDING).bind (stores_snoopWrite RP_IRQ_SOURCE vSrc.toByte)
  obtain ⟨hsteady₂, hview₂⟩ := hwrites.steady hsteady₁
  simp only [f', genIRQ6502, Prog.final_bind, Prog.result_bind, Prog.result_get, Prog.final_get,
    Prog.final_ite, Prog.result_ite, Prog.final_pure, Prog.result_pure, onHw, Prog.final_on,
    Prog.result_on, Prog.final_modify] at hsteady₂ hview₂ ⊢
  generalize (snoopRead6502MemoryLoc RP_IRQ_STATE).final f.hw = m₁ at hread hsteady₁ hsteady₂ hview₂ ⊢
  generalize (snoopWrite6502MemoryLoc RP_IRQ_SOURCE _).final _ = m₂ at hsteady₂ hview₂ ⊢
  rcases hpending : f.gIntrPending with - | -
  swap
  · exact ⟨hf, rfl, rfl, .inr ⟨rfl, hpending, rfl⟩⟩
  simp only [Bool.false_eq_true, if_false]
  split
  · refine ⟨hsteady₂.setIRQPin false, rfl, rfl, .inl ⟨rfl, trivial, rfl, ?_⟩⟩
    show m₂.view.peek RP_IRQ_SOURCE = vSrc.toByte
    rw [hview₂, Machine.View.writes_append, Machine.View.writes_cons, Machine.View.writes_nil]
    exact Machine.View.peek_poke_self _ _ _
  · refine ⟨hsteady₁, rfl, rfl, .inr ⟨rfl, rfl, ?_⟩⟩
    show m₁.view.peek RP_IRQ_SOURCE = _
    rw [hread]

/-- A completion in the slot keeps it from every source. -/
theorem keeping_genIRQ6502 (vSrc : IrqSource) : Prog.Keeps (Keeping (σ := σ)) (genIRQ6502 vSrc) := by
  intro f hf
  obtain ⟨hsteady, hevents, hpending, hslot⟩ := genIRQ6502_cases hf vSrc
  refine ⟨hsteady, hevents, ?_⟩
  rintro (h | ⟨hintr, hsrc⟩)
  · exact .inl (hpending.trans h)
  rcases hslot with ⟨-, hfree, -⟩ | ⟨-, hintr', hsrc'⟩
  · rw [hfree] at hintr
    cases hintr
  · exact .inr ⟨hintr'.trans hintr, hsrc'.trans hsrc⟩

/-- A completion that leaves the queue stands in the slot. -/
theorem keeping_deliver : Prog.Keeps (Keeping (σ := σ)) (do
    if ← genIRQ6502 .RP_SRC_FS_DONE then
      modify fun f => { f with gFsCompletionPending := false }) := by
  intro f hf
  obtain ⟨hsteady, hevents, -, hslot⟩ := genIRQ6502_cases hf .RP_SRC_FS_DONE
  have hkeeping := keeping_genIRQ6502 .RP_SRC_FS_DONE f hf
  simp only [Prog.final_bind, Prog.final_ite, Prog.final_modify, Prog.final_pure]
  rcases hslot with ⟨hres, -, hintr, hsrc⟩ | ⟨hres, -⟩
  · rw [if_pos hres]
    exact ⟨hsteady, hevents, fun _ => .inr ⟨hintr, hsrc⟩⟩
  · rw [hres, if_neg Bool.false_ne_true]
    exact hkeeping

/-- The slot is released when the 6502 has cleared its source, which is then no completion. -/
theorem keeping_releaseSlot : Prog.Keeps (Keeping (σ := σ)) releaseSlot := by
  intro f hf
  obtain ⟨hsrc, hread, hf₁⟩ := snoopRead6502MemoryLoc_spec hf.settled RP_IRQ_SOURCE
  have hsteady₁ := hf.of_view hf₁ hread
  obtain ⟨hsteady₂, -⟩ :=
    (stores_snoopWrite RP_IRQ_STATE RP_IRQ_NONE).steady (hsteady₁.setIRQPin true)
  simp only [releaseSlot, Prog.final_bind, Prog.final_ite, Prog.final_modify, Prog.final_pure, onHw,
    Prog.final_on, Prog.result_on, hsrc] at hsteady₂ ⊢
  generalize (snoopRead6502MemoryLoc RP_IRQ_SOURCE).final f.hw = m₁ at hread hsteady₁ hsteady₂ ⊢
  generalize (snoopWrite6502MemoryLoc RP_IRQ_STATE RP_IRQ_NONE).final _ = m₂ at hsteady₂ ⊢
  split
  · rename_i hnone
    refine ⟨hsteady₂, rfl, ?_⟩
    rintro (h | ⟨-, h⟩)
    · exact .inl h
    · rw [hnone] at h
      cases h
  · refine ⟨hsteady₁, rfl, ?_⟩
    rintro (h | ⟨hintr, h⟩)
    · exact .inl h
    · refine .inr ⟨hintr, ?_⟩
      show m₁.view.peek RP_IRQ_SOURCE = _
      rw [hread, h]

section Task

variable {R : Firmware σ → Firmware σ → Prop} [Std.Refl R] [IsTrans (Firmware σ) R]

/-- A source whose request is dropped once it has the slot. -/
theorem keeps_raise {vSrc : IrqSource} {g : Firmware σ → Firmware σ}
    (hgen : Prog.Keeps R (genIRQ6502 vSrc)) (hg : ∀ f, R f (g f)) : Prog.Keeps R (do
      if ← genIRQ6502 vSrc then
        modify g) :=
  hgen.bind fun _ => Prog.Keeps.ite (fun _ => Prog.Keeps.modify hg) fun _ => Prog.Keeps.pure _

theorem keeps_timerExpiry (hgen : Prog.Keeps R (genIRQ6502 .RP_SRC_TIMER)) (now now' : UInt32) :
    Prog.Keeps (Order.Preimage (·.firmware) R) (timerExpiry now now') := by
  refine Prog.Keeps.get.bind fun s => Prog.Keeps.ite (fun _ => ?_) fun _ => Prog.Keeps.pure _
  refine Prog.Keeps.bind (Prog.Keeps.modify fun _ => refl _) fun _ => ?_
  have htimer : Prog.Keeps (Order.Preimage (·.firmware) R) (onFirmware (genIRQ6502 .RP_SRC_TIMER)) :=
    hgen.on fun _ _ h => h
  refine htimer.bind fun _ => ?_
  exact Prog.Keeps.ite (fun _ => Prog.Keeps.modify fun _ => refl _) fun _ =>
    Prog.Keeps.modify fun _ => refl _

/-- The part of `taskIRQTimer()` behind a slot that is free keeps what every way of raising keeps. -/
theorem keeps_raiseNext (hbreak : Prog.Keeps R (do
      if ← genIRQ6502 .RP_SRC_CONSOLE_BREAK then
        modify fun f => { f with gConsoleBreakPending := false }))
    (hdone : Prog.Keeps R (do
      if ← genIRQ6502 .RP_SRC_FS_DONE then
        modify fun f => { f with gFsCompletionPending := false }))
    (htimer : Prog.Keeps R (genIRQ6502 .RP_SRC_TIMER)) (f : Firmware σ) (now now' : UInt32) :
    Prog.Keeps (Order.Preimage (·.firmware) R) (do
      if f.gConsoleBreakPending then
        onFirmware do
          if ← genIRQ6502 .RP_SRC_CONSOLE_BREAK then
            modify fun f => { f with gConsoleBreakPending := false }
      else if f.gFsCompletionPending then
        onFirmware do
          if ← genIRQ6502 .RP_SRC_FS_DONE then
            modify fun f => { f with gFsCompletionPending := false }
      else
        timerExpiry now now') :=
  Prog.Keeps.ite (fun _ => hbreak.on fun _ _ h => h) fun _ =>
    Prog.Keeps.ite (fun _ => hdone.on fun _ _ h => h) fun _ => keeps_timerExpiry htimer now now'

theorem keeps_taskIRQTimer (hrelease : Prog.Keeps R releaseSlot) (hbreak : Prog.Keeps R (do
      if ← genIRQ6502 .RP_SRC_CONSOLE_BREAK then
        modify fun f => { f with gConsoleBreakPending := false }))
    (hdone : Prog.Keeps R (do
      if ← genIRQ6502 .RP_SRC_FS_DONE then
        modify fun f => { f with gFsCompletionPending := false }))
    (htimer : Prog.Keeps R (genIRQ6502 .RP_SRC_TIMER)) (now now' : UInt32) :
    Prog.Keeps (Order.Preimage (·.firmware) R) (taskIRQTimer now now') := by
  refine Prog.Keeps.get.bind fun s => Prog.Keeps.ite (fun _ => ?_) fun _ => ?_
  · exact hrelease.on fun _ _ h => h
  · exact keeps_raiseNext hbreak hdone htimer s.firmware now now'

end Task

/-- The task keeps what is announced, whatever the clock says. -/
theorem keeping_taskIRQTimer (now now' : UInt32) :
    Prog.Keeps (Order.Preimage (·.firmware) (Keeping (σ := σ))) (taskIRQTimer now now') := by
  refine keeps_taskIRQTimer keeping_releaseSlot ?_ keeping_deliver (keeping_genIRQ6502 _) now now'
  exact keeps_raise (keeping_genIRQ6502 _) fun _ hf => ⟨hf, rfl, id⟩

/-! ## Timer control -/

/-- The same completions wait and have been requested. -/
def SameQueue (f f' : Firmware σ) : Prop :=
  f.hw.Steady → f'.hw.Steady ∧ f'.events = f.events ∧
    f'.gFsCompletionPending = f.gFsCompletionPending

instance : Std.Refl (SameQueue (σ := σ)) where
  refl _ := fun hf => ⟨hf, rfl, rfl⟩

instance : IsTrans (Firmware σ) SameQueue where
  trans f f' f'' h h' := by
    intro hf
    obtain ⟨hf', hevents, hpending⟩ := h hf
    obtain ⟨hf'', hevents', hpending'⟩ := h' hf'
    exact ⟨hf'', hevents'.trans hevents, hpending'.trans hpending⟩

theorem sameQueue_onHw {p : Prog Machine α} (hp : ∀ m : Machine, m.Steady → (p.final m).Steady) :
    Prog.Keeps (SameQueue (σ := σ)) (onHw p) :=
  fun f hf => ⟨hp f.hw hf, rfl, rfl⟩

theorem sameQueue_stopIRQTimer :
    Prog.Keeps (Order.Preimage (·.firmware) (SameQueue (σ := σ))) stopIRQTimer := by
  refine Prog.Keeps.bind (Prog.Keeps.modify fun _ => refl _) fun _ => ?_
  have hstop : Prog.Keeps (SameQueue (σ := σ)) (do
      onHw (setIRQPin true)
      onHw clearSlot
      modify fun f => { f with gIntrPending := false }) := by
    refine (sameQueue_onHw fun _ hm => hm.setIRQPin true).bind fun _ => ?_
    refine (sameQueue_onHw fun _ hm => (stores_clearSlot.steady hm).1).bind fun _ => ?_
    exact Prog.Keeps.modify fun _ hf => ⟨hf, rfl, rfl⟩
  exact hstop.on fun _ _ h => h

theorem sameQueue_startIRQTimer (vPeriod now : UInt32) :
    Prog.Keeps (Order.Preimage (·.firmware) (SameQueue (σ := σ))) (startIRQTimer vPeriod now) := by
  refine Prog.Keeps.ite (fun _ => ?_) fun _ => sameQueue_stopIRQTimer
  refine Prog.Keeps.bind (Prog.Keeps.modify fun _ => refl _) fun _ => ?_
  have hstart : Prog.Keeps (SameQueue (σ := σ)) (do
      onHw clearSlot
      onHw (setIRQPin true)) :=
    (sameQueue_onHw fun _ hm => (stores_clearSlot.steady hm).1).bind fun _ =>
      sameQueue_onHw fun _ hm => hm.setIRQPin true
  exact hstart.on fun _ _ h => h

theorem sameQueue_cmdTimer (lInterval now : UInt32) :
    Prog.Keeps (Order.Preimage (·.firmware) (SameQueue (σ := σ))) (cmdTimer lInterval now) :=
  Prog.Keeps.ite (fun _ => sameQueue_stopIRQTimer) fun _ => sameQueue_startIRQTimer _ _

theorem sameQueue_cmdBoot (now : UInt32) :
    Prog.Keeps (Order.Preimage (·.firmware) (SameQueue (σ := σ))) (cmdBoot now) := by
  have hrun : Prog.Keeps (SameQueue (σ := σ)) (do discard <| onHw (set6502State .sRUNNING)) := by
    refine Prog.Keeps.discard (sameQueue_onHw fun m hm => ?_)
    obtain ⟨hview, hsettled⟩ := set6502State_spec hm.settled (s := .sRUNNING) nofun
    exact hm.of_view hsettled hview
  refine Prog.Keeps.bind ?_ fun _ => sameQueue_startIRQTimer 10 now
  exact hrun.on fun _ _ h => h

/-- The slot may be cleared: no completion stands in it, or another one waits. -/
def Firmware.Clearable (f : Firmware σ) : Prop := f.Delivered → f.gFsCompletionPending = true

instance (f : Firmware σ) : Decidable f.Clearable :=
  inferInstanceAs (Decidable (_ → _))

/-- A slot that may be cleared takes nothing with it. -/
theorem SameQueue.keeping {f f' : Firmware σ} (h : SameQueue f f') (hclear : f.Clearable) :
    Keeping f f' := by
  intro hf
  obtain ⟨hf', hevents, hpending⟩ := h hf
  refine ⟨hf', hevents, fun hannounced => .inl ?_⟩
  rw [hpending]
  exact hannounced.elim id hclear

/-! ## Runs -/

/-- What may happen in any order while the CPU is not reset. -/
inductive IrqStep
  /-- `taskIRQTimer()` runs; it may read the clock twice. -/
  | task (now now' : UInt32)
  /-- The filesystem request in the block is handled. -/
  | request
  /-- `requestConsoleBreakIRQ()` -/
  | consoleBreak
  /-- The monitor command `timer` with an interval. -/
  | timer (lInterval now : UInt32)
  /-- The monitor command `boot`. -/
  | boot (now : UInt32)
  /-- The monitor commands `irq` and `monitor`, with their source. -/
  | monitor (vSrc : IrqSource)
  /-- The memory changes, but not the byte at `RP_IRQ_SOURCE`. -/
  | memory (ram : UInt8 × UInt16 → UInt8)
  /-- The 6502 clears `RP_IRQ_SOURCE`. -/
  | acknowledge

/-- What a step does. -/
def IrqStep.program (ff : FatFs σ) : IrqStep → Prog (Scheduler σ) Unit
  | .task now now' => taskIRQTimer now now'
  | .request => onFirmware do discard <| rpFsMailboxHandleExec ff
  | .consoleBreak => onFirmware requestConsoleBreakIRQ
  | .timer lInterval now => cmdTimer lInterval now
  | .boot now => cmdBoot now
  | .monitor vSrc => onFirmware do discard <| genIRQ6502 vSrc
  | .memory ram => onFirmware <| onHw <| modify fun m => { m with
      ram := Function.update ram (m.view.physAddr RP_IRQ_SOURCE) (m.view.peek RP_IRQ_SOURCE) }
  | .acknowledge => onFirmware <| onHw <| modify fun m =>
      m.poke RP_IRQ_SOURCE IrqSource.RP_SRC_NONE.toByte

/-- The scheduler, and whether a completion has been requested that the 6502 has not taken yet. -/
structure Watched (σ : Type) where
  scheduler : Scheduler σ
  owed : Bool

/-- The 6502 clears `RP_IRQ_SOURCE` while it names a completion. -/
def IrqStep.Takes (f : Firmware σ) : IrqStep → Prop
  | .acknowledge => f.hw.view.peek RP_IRQ_SOURCE = IrqSource.RP_SRC_FS_DONE.toByte
  | _ => False

instance (f : Firmware σ) (l : IrqStep) : Decidable (l.Takes f) := by
  unfold IrqStep.Takes
  split <;> infer_instance

/-- The calls of `requestFSCompletionIRQ()` so far. -/
def Firmware.completionRequests (f : Firmware σ) : Nat := f.events.count .completionIRQ

/-- One step. -/
def Watched.step (ff : FatFs σ) (w : Watched σ) (l : IrqStep) : Watched σ :=
  let s := (l.program ff).final w.scheduler
  { scheduler := s
    owed := if l.Takes w.scheduler.firmware then false
      else w.owed || decide (w.scheduler.firmware.completionRequests < s.firmware.completionRequests) }

/-- What is owed is announced. -/
def Watched.NotLost (w : Watched σ) : Prop := w.owed = true → w.scheduler.firmware.Announced

/-- The timer is started or stopped only when the slot may be cleared, and while it may not a request
of PID 0, which asks for no completion of its own, writes elsewhere. -/
def IrqStep.Meets (ff : FatFs σ) (f : Firmware σ) : IrqStep → Prop
  | .timer _ _ => f.Clearable
  | .boot _ => f.Clearable
  | .request => f.Clearable ∨ f.hw.view.peek RP_ARG1L ≠ 0 ∨
      f.hw.view.Spares (f.hw.view.peek RP_ARG1H) (f.Writes ff) (f.hw.view.physAddr RP_IRQ_SOURCE)
  | _ => True

theorem count_closedAccesses (n : Nat) : (closedAccesses n).count .completionIRQ = 0 := by
  induction n with
  | zero => rfl
  | succ n ih => simp [closedAccesses, ih]

/-- A request of a process queues a completion, and one of PID 0 none. -/
theorem request_queue (ff : FatFs σ) {f : Firmware σ} (hf : f.hw.Settled) :
    let f' := (rpFsMailboxHandleExec ff).final f
    f'.gFsCompletionPending = (f.gFsCompletionPending || f.hw.view.peek RP_ARG1L != 0) ∧
      (f.hw.view.peek RP_ARG1L = 0 → f'.completionRequests = f.completionRequests) := by
  obtain ⟨m₀, op, pid, context, hblock, -, hfin⟩ := final_rpFsMailboxHandleExec ff f
  obtain ⟨-, -, -, hpid, -⟩ := hblock hf
  have hcompletes : Completes (checkedOperation ff op pid context) := completes_checkedOperation ff _ op
  obtain ⟨-, ⟨n, status, err, -, hevents, -⟩, hpending⟩ := hcompletes { f with hw := m₀ }
  rw [hfin, ← hpid]
  generalize (checkedOperation ff op pid context).final { f with hw := m₀ } = g at hevents hpending ⊢
  refine ⟨by rw [hpending], ?_⟩
  rintro rfl
  simp only [Firmware.completionRequests, completionEvents, if_true, List.nil_append, hevents]
  rw [List.count_cons_of_ne (fun h => Event.noConfusion h), List.count_append, count_closedAccesses,
    Nat.zero_add]

/-- What keeps the announced completions of a settled board. -/
structure Watched.Sound (w : Watched σ) : Prop where
  steady : w.scheduler.firmware.hw.Steady
  notLost : w.NotLost

/-- What is owed after a step without a request was owed before and has not been taken. -/
theorem Watched.owed_of_step {ff : FatFs σ} {w : Watched σ} {l : IrqStep}
    (howed : (w.step ff l).owed = true)
    (hsame : ((l.program ff).final w.scheduler).firmware.completionRequests =
      w.scheduler.firmware.completionRequests) :
    ¬ l.Takes w.scheduler.firmware ∧ w.owed = true := by
  simp only [step, hsame, Nat.lt_irrefl, decide_false, Bool.or_false] at howed
  split at howed
  · cases howed
  · rename_i hother
    exact ⟨hother, howed⟩

/-- A step that requests no completion and keeps what is announced. -/
theorem Watched.Sound.keeping {ff : FatFs σ} {w : Watched σ} {l : IrqStep} (h : w.Sound)
    (hkeeping : Keeping w.scheduler.firmware ((l.program ff).final w.scheduler).firmware) :
    (w.step ff l).Sound := by
  obtain ⟨hsteady, hevents, hannounced⟩ := hkeeping h.steady
  refine ⟨hsteady, fun howed => hannounced (h.notLost (owed_of_step howed ?_).2)⟩
  rw [Firmware.completionRequests, hevents, Firmware.completionRequests]

/-- A request that spares the slot keeps what stands in it. -/
theorem announced_request {ff : FatFs σ} (hread : ReadsAtMost ff) {f : Firmware σ} (hf : f.hw.Steady)
    (hmeets : IrqStep.Meets ff f .request) (hannounced : f.Announced) :
    ((rpFsMailboxHandleExec ff).final f).Announced := by
  obtain ⟨hpending, -⟩ := request_queue ff hf.settled
  have hqueued : f.gFsCompletionPending = true →
      ((rpFsMailboxHandleExec ff).final f).gFsCompletionPending = true := fun h => by
    rw [hpending, h, Bool.true_or]
  rcases hannounced with h | hdelivered
  · exact .inl (hqueued h)
  rcases hmeets with hclear | hpid | hspares
  · exact .inl (hqueued (hclear hdelivered))
  · refine .inl ?_
    rw [hpending, bne_iff_ne.2 hpid, Bool.or_true]
  · have hconfined := confined_request hread hf.settled
    obtain ⟨-, ram, hview, hram⟩ := hconfined.board hf.settled hf.selected
    refine .inr ⟨hconfined.gIntrPending.trans hdelivered.1, ?_⟩
    rw [hview, ← hdelivered.2]
    exact hram _ hspares

theorem Watched.Sound.request {ff : FatFs σ} (hread : ReadsAtMost ff) {w : Watched σ} (h : w.Sound)
    (hmeets : IrqStep.Meets ff w.scheduler.firmware .request) : (w.step ff .request).Sound := by
  obtain ⟨hpending, hrequests⟩ := request_queue ff h.steady.settled
  have hboard := (confined_request hread h.steady.settled).board h.steady.settled h.steady.selected
  obtain ⟨hsettled, ram, hview, -⟩ := hboard
  have hannounced := announced_request hread h.steady hmeets
  have hstep : (w.step ff .request).scheduler.firmware =
      (rpFsMailboxHandleExec ff).final w.scheduler.firmware := by
    simp only [step, IrqStep.program, onFirmware, Prog.final_on, Prog.final_discard]
  have hrequested : ((IrqStep.request.program ff).final w.scheduler).firmware.completionRequests = _ :=
    congrArg Firmware.completionRequests hstep
  rw [← hstep] at hpending hsettled hview hannounced
  refine ⟨h.steady.of_view hsettled hview, fun howed => ?_⟩
  by_cases hpid : w.scheduler.firmware.hw.view.peek RP_ARG1L = 0
  · exact hannounced (h.notLost (owed_of_step howed (hrequested.trans (hrequests hpid))).2)
  · refine .inl (hpending.trans ?_)
    rw [bne_iff_ne.2 hpid, Bool.or_true]

/-- The 6502 takes what stands in the slot; what waits for it goes on waiting. -/
theorem Watched.Sound.acknowledge {ff : FatFs σ} {w : Watched σ} (h : w.Sound) :
    (w.step ff .acknowledge).Sound := by
  have hsettled := h.steady.settled
  refine ⟨⟨⟨hsettled.started, hsettled.rpi, hsettled.reset, hsettled.cached⟩, h.steady.selected⟩, ?_⟩
  intro howed
  obtain ⟨hother, howed⟩ := owed_of_step howed rfl
  rcases h.notLost howed with hpending | hdelivered
  · exact .inl hpending
  · exact absurd hdelivered.2 hother

theorem keeping_memory (ff : FatFs σ) (ram : UInt8 × UInt16 → UInt8) (s : Scheduler σ) :
    Keeping s.firmware (((IrqStep.memory ram).program ff).final s).firmware := by
  intro hf
  have hsettled := hf.settled
  refine ⟨⟨⟨hsettled.started, hsettled.rpi, hsettled.reset, hsettled.cached⟩, hf.selected⟩, rfl, ?_⟩
  rintro (h | ⟨hintr, hsrc⟩)
  · exact .inl h
  · refine .inr ⟨hintr, ?_⟩
    rw [← hsrc]
    exact Function.update_self _ _ _

/-- Every step that meets its condition keeps what is owed announced. -/
theorem Watched.Sound.step {ff : FatFs σ} (hread : ReadsAtMost ff) {w : Watched σ} {l : IrqStep}
    (h : w.Sound) (hmeets : l.Meets ff w.scheduler.firmware) : (w.step ff l).Sound := by
  cases l with
  | task now now' => exact h.keeping (keeping_taskIRQTimer now now' _)
  | request => exact h.request hread hmeets
  | consoleBreak => exact h.keeping fun hf => ⟨hf, rfl, id⟩
  | timer lInterval now => exact h.keeping ((sameQueue_cmdTimer lInterval now _).keeping hmeets)
  | boot now => exact h.keeping ((sameQueue_cmdBoot now _).keeping hmeets)
  | monitor vSrc => exact h.keeping (keeping_genIRQ6502 vSrc _)
  | memory ram => exact h.keeping (keeping_memory ff ram _)
  | acknowledge => exact h.acknowledge

/-- No completion is lost in a run that starts with none owed, as long as the timer is started or stopped
only while no completion stands alone in the slot, and no request of PID 0 overwrites it there. -/
theorem completion_not_lost (ff : FatFs σ) (hread : ReadsAtMost ff) (s : Scheduler σ)
    (hs : s.firmware.hw.Settled) (hsel : s.firmware.hw.Selected) (run : List IrqStep)
    (hmeets : Run.AtEveryStep (Watched.step ff) (fun w l => l.Meets ff w.scheduler.firmware)
      ⟨s, false⟩ run) : (run.foldl (Watched.step ff) ⟨s, false⟩).NotLost := by
  have hsound : Watched.Sound (run.foldl (Watched.step ff) ⟨s, false⟩) :=
    hmeets.invariant (fun _ _ => Watched.Sound.step hread) ⟨⟨hs, hsel⟩, nofun⟩
  exact hsound.notLost

/-- The scheduler of a firmware whose block asks for the status on behalf of PID 1. -/
def statusScheduler : Scheduler RamDisk := ⟨statusFirmware, false, 0, 0, 0⟩

theorem delivered_completion_not_lost :
    (([.request, .task 0 0, .acknowledge, .task 1 1, .timer 100 2] : List IrqStep).foldl
      (Watched.step RamDisk.fatFs) ⟨statusScheduler, false⟩).NotLost :=
  completion_not_lost RamDisk.fatFs readsAtMost_ramDisk statusScheduler (Machine.settled_running _) rfl _
    (Run.atEveryStep_cons.2 ⟨.inl (by decide), Run.atEveryStep_cons.2 ⟨trivial,
      Run.atEveryStep_cons.2 ⟨trivial, Run.atEveryStep_cons.2 ⟨trivial,
        Run.atEveryStep_cons.2 ⟨show Firmware.Clearable _ by decide +kernel,
          Run.atEveryStep_nil _⟩⟩⟩⟩⟩)

/-- The timer is started while the completion of a request stands in the slot. -/
theorem timer_loses_completion :
    statusScheduler.firmware.hw.Settled ∧ statusScheduler.firmware.hw.Selected ∧
      ¬ (([.request, .task 0 0, .timer 100 1] : List IrqStep).foldl
        (Watched.step RamDisk.fatFs) ⟨statusScheduler, false⟩).NotLost := by
  refine ⟨Machine.settled_running _, rfl, fun h => ?_⟩
  have hlost :
      let w := ([.request, .task 0 0, .timer 100 1] : List IrqStep).foldl (Watched.step RamDisk.fatFs)
        ⟨statusScheduler, false⟩
      w.owed = true ∧ ¬ w.scheduler.firmware.Announced := by
    decide +kernel
  exact hlost.2 (h hlost.1)

end NeoMmu
