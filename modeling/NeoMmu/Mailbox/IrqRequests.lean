import NeoMmu.Mailbox.IrqSlot

/-!
# Requests for an interrupt

The requests that wait for the interrupt slot, over the whole `loop()`. Only a completed filesystem request
of a process and a console break ask for one, and `taskIRQTimer()` raises what has been asked for. The
monitor reset clears the slot but neither request, so that it forgets them exactly when there is none.
-/

namespace NeoMmu

variable {σ α : Type}

/-! ## What filesystem requests leave alone -/

/-- A request changes the board, the storage, the CWD table and the events. -/
def RequestOnly (f f' : Firmware σ) : Prop :=
  f' = { f with
    hw := f'.hw, storage := f'.storage, gRPFSProcessCwd := f'.gRPFSProcessCwd, events := f'.events }

instance : Std.Refl (RequestOnly (σ := σ)) where
  refl _ := rfl

instance : IsTrans (Firmware σ) RequestOnly where
  trans f f' f'' h h' := by
    rw [RequestOnly, h', h]

section RequestOnly

theorem requestOnly_onHw (p : Prog Machine α) : Prog.Keeps (RequestOnly (σ := σ)) (onHw p) :=
  fun _ => rfl

theorem requestOnly_onStorage (p : Prog (Storage σ) α) : Prog.Keeps RequestOnly (onStorage p) :=
  fun _ => rfl

theorem requestOnly_emit (e : Event) : Prog.Keeps (RequestOnly (σ := σ)) (emit e) :=
  Prog.Keeps.modify fun _ => rfl

theorem requestOnly_withContext {c : UInt8} {body : Prog (Firmware σ) α}
    (hbody : Prog.Keeps RequestOnly body) : Prog.Keeps RequestOnly (withContext c body) := by
  refine Prog.Keeps.ite (fun _ => Prog.Keeps.pure none) fun _ => (requestOnly_emit _).bind fun _ => ?_
  refine (requestOnly_onHw _).bind fun _ => hbody.bind fun _ => (requestOnly_onHw _).bind fun _ => ?_
  exact (requestOnly_emit _).bind fun _ => Prog.Keeps.pure _

theorem requestRules_requestOnly (context : UInt8) :
    RequestRules (RequestOnly (σ := σ)) (fun _ _ => True) context where
  storage p _ := requestOnly_onStorage p
  snoopRead _ := requestOnly_onHw _
  readBlock a n := by
    refine Prog.Keeps.ite (fun _ => Prog.Keeps.pure none) fun _ => ?_
    exact requestOnly_withContext (requestOnly_onHw _)
  readPath a n dst_len := by
    refine Prog.Keeps.ite (fun _ => Prog.Keeps.pure none) fun _ => ?_
    exact (requestOnly_withContext (requestOnly_onHw _)).bind fun _ => Prog.Keeps.pure _
  reply _ _ _ _ _ := (requestOnly_emit _).bind fun _ => requestOnly_onHw _
  writeBlock a src _ := by
    refine Prog.Keeps.ite (fun _ => Prog.Keeps.pure false) fun _ => ?_
    exact (requestOnly_withContext (requestOnly_onHw _)).bind fun _ => Prog.Keeps.pure _
  cwd _ := Prog.Keeps.modify fun _ => rfl

variable {ff : FatFs σ}

theorem requestOnly_checkedOperation (hread : ReadsAtMost ff) (op pid c : UInt8) :
    Prog.Keeps RequestOnly (checkedOperation ff op pid c) := by
  have hfiles := fileRules_true ff
  have : Std.Refl (fun _ _ : Storage σ => True) := ⟨fun _ => trivial⟩
  have hrules : RequestRules (RequestOnly (σ := σ)) (fun _ _ => True) c := requestRules_requestOnly c
  have hbulk : ∀ path mem_ptr size_word,
      Prog.Keeps RequestOnly (bulkOnPath ff op c path mem_ptr size_word) := by
    intro path mem_ptr size_word
    refine (requestOnly_onStorage _).bind fun opened => ?_
    rcases opened with ⟨- | handle, n⟩
    · exact hrules.deviceError _
    refine hrules.keeps_bulkTransfer (fun _ => trivial) fun _ => requestOnly_withContext ?_
    exact keeps_bulkLoop hread (fun _ => requestOnly_onStorage _) (fun _ _ => requestOnly_onStorage _)
      (fun _ _ => requestOnly_onHw _) (fun _ _ _ _ => requestOnly_onHw _) 0
  exact hrules.keeps_checkedOperation pid hfiles hread (fun _ _ => hrules.keeps_execBulk hbulk)
    fun _ _ _ _ _ => trivial

/-- A request and the completion it asks for leave the other statics alone. -/
theorem final_handleExec (hread : ReadsAtMost ff) (f : Firmware σ) :
    ∃ f' pid, RequestOnly f f' ∧ f.completionRequests ≤ f'.completionRequests ∧
      (rpFsMailboxHandleExec ff).final f = { f' with
        events := completionEvents pid ++ f'.events
        gFsCompletionPending := f'.gFsCompletionPending || pid != 0 } := by
  obtain ⟨m₀, op, pid, context, -, -, hfin⟩ := final_rpFsMailboxHandleExec ff f
  refine ⟨_, pid, ?_, ?_, hfin⟩
  · exact trans_of RequestOnly (requestOnly_onHw (fun _ => ((), m₀)) f)
      (requestOnly_checkedOperation hread op pid context _)
  · obtain ⟨-, ⟨n, status, err, -, hevents, -⟩, -⟩ :=
      (completes_checkedOperation ff pid op : Completes (checkedOperation ff op pid context))
        { f with hw := m₀ }
    rw [Firmware.completionRequests, Firmware.completionRequests, hevents,
      List.count_cons_of_ne (fun h => Event.noConfusion h), List.count_append]
    exact Nat.le_add_left _ _

end RequestOnly

/-! ## The queue of requests -/

/-- A request that waits behind some calls waited before them, or they have asked for it. -/
structure Queued (f f' : Firmware σ) : Prop where
  requests : f.completionRequests ≤ f'.completionRequests
  completion : f'.gFsCompletionPending = true →
    f.gFsCompletionPending = true ∨ f.completionRequests < f'.completionRequests
  consoleBreak : f'.gConsoleBreakPending = true → f.gConsoleBreakPending = true

instance : Std.Refl (Queued (σ := σ)) where
  refl _ := ⟨le_rfl, .inl, id⟩

instance : IsTrans (Firmware σ) Queued where
  trans f f' f'' h h' := by
    refine ⟨h.requests.trans h'.requests, fun hpending => ?_, h.consoleBreak ∘ h'.consoleBreak⟩
    rcases h'.completion hpending with hpending' | hlt
    · exact (h.completion hpending').imp_right (·.trans_le h'.requests)
    · exact .inr (h.requests.trans_lt hlt)

section Queued

variable {ff : FatFs σ}

theorem queued_onHw (p : Prog Machine α) : Prog.Keeps (Queued (σ := σ)) (onHw p) :=
  fun _ => ⟨le_rfl, .inl, id⟩

theorem queued_onStorage (p : Prog (Storage σ) α) : Prog.Keeps Queued (onStorage p) :=
  fun _ => ⟨le_rfl, .inl, id⟩

theorem queued_emit (e : Event) (he : e ≠ .completionIRQ) :
    Prog.Keeps (Queued (σ := σ)) (emit e) := by
  refine Prog.Keeps.modify fun f => ⟨?_, .inl, id⟩
  rw [Firmware.completionRequests, Firmware.completionRequests, List.count_cons_of_ne he]

/-- A change of other statics. -/
theorem queued_statics {g : Firmware σ → Firmware σ} (hg : ∀ f, (g f).events = f.events ∧
      ((g f).gFsCompletionPending = true → f.gFsCompletionPending = true) ∧
      ((g f).gConsoleBreakPending = true → f.gConsoleBreakPending = true)) :
    Prog.Keeps (Queued (σ := σ)) (modify g : Prog (Firmware σ) Unit) := by
  refine Prog.Keeps.modify fun f => ⟨?_, fun h => .inl ((hg f).2.1 h), (hg f).2.2⟩
  rw [Firmware.completionRequests, Firmware.completionRequests, (hg f).1]

theorem queued_handleExec (hread : ReadsAtMost ff) :
    Prog.Keeps Queued (rpFsMailboxHandleExec ff) := by
  intro f
  obtain ⟨f', pid, honly, hrequests, hfin⟩ := final_handleExec hread f
  have hcompletion : f'.gFsCompletionPending = f.gFsCompletionPending := by rw [honly]
  have hbreak : f'.gConsoleBreakPending = f.gConsoleBreakPending := by rw [honly]
  rw [hfin]
  by_cases hpid : pid = 0
  · refine ⟨?_, fun h => .inl ?_, fun h => hbreak.symm.trans h⟩
    · simpa [hpid, completionEvents, Firmware.completionRequests] using hrequests
    · simpa [hpid, hcompletion] using h
  · have hlt : f.completionRequests < Firmware.completionRequests { f' with
        events := completionEvents pid ++ f'.events
        gFsCompletionPending := f'.gFsCompletionPending || pid != 0 } := by
      simpa [hpid, completionEvents, Firmware.completionRequests, Nat.lt_succ_iff] using hrequests
    exact ⟨hlt.le, fun _ => .inr hlt, fun h => hbreak.symm.trans h⟩

theorem loopRules_queued (hread : ReadsAtMost ff) : LoopRules ff Queued where
  snoop _ := queued_onHw _
  ackMMUIO := queued_onHw _
  emit := queued_emit
  console f f' h := by
    rw [h]
    exact ⟨le_rfl, .inl, id⟩
  request := queued_handleExec hread
  close := (queued_onStorage _).bind fun _ => queued_statics fun _ => ⟨rfl, id, id⟩
  setIRQPin _ := queued_onHw _
  gIntrPending _ _ := ⟨le_rfl, .inl, id⟩
  dropBreak _ := ⟨le_rfl, .inl, nofun⟩
  dropCompletion _ := ⟨le_rfl, nofun, id⟩
  board _ := queued_onHw _
  taskInput := by
    refine queued_statics fun f => ?_
    obtain ⟨q, -, hdrained⟩ := processVDUoutQ_spec f
    rw [hdrained]
    exact ⟨rfl, id, id⟩
  storage _ _ := ⟨le_rfl, .inl, id⟩

end Queued

/-! ## What the task raises -/

section Raise

/-- The source that `taskIRQTimer()` looks for first. -/
def Firmware.nextSource (f : Firmware σ) : IrqSource :=
  if f.gConsoleBreakPending then .RP_SRC_CONSOLE_BREAK
  else if f.gFsCompletionPending then .RP_SRC_FS_DONE
  else .RP_SRC_TIMER

/-- A free slot is taken if the 6502 sees none either, and if it is taken the source says for whom. -/
def Raising (vSrc : IrqSource) (f f' : Firmware σ) : Prop :=
  f.hw.Settled → f.gIntrPending = false →
    (f.hw.view.peek RP_IRQ_STATE = RP_IRQ_NONE → f'.gIntrPending = true) ∧
      (f'.gIntrPending = true → f'.hw.view.peek RP_IRQ_SOURCE = vSrc.toByte)

theorem raising_genIRQ6502 (vSrc : IrqSource) :
    Prog.Keeps (Raising (σ := σ) vSrc) (genIRQ6502 vSrc) := by
  intro f hf hfree
  rcases genIRQ6502_spec hf vSrc with ⟨hpending, -⟩ | ⟨-, -, hraised | hrefused⟩
  · exact absurd (hfree.symm.trans hpending) Bool.false_ne_true
  · obtain ⟨-, -, hf', -, hview⟩ := hraised
    refine ⟨fun _ => by rw [hf'], fun _ => ?_⟩
    rw [hview]
    exact Machine.View.peek_poke_self _ _ _
  · obtain ⟨hused, -, hf', -⟩ := hrefused
    refine ⟨fun hnone => absurd hnone hused, fun hpending => ?_⟩
    rw [hf'] at hpending
    exact absurd (hfree.symm.trans hpending) Bool.false_ne_true

/-- Dropping the request behind the interrupt leaves the slot. -/
theorem raising_raise (vSrc : IrqSource) {g : Firmware σ → Firmware σ}
    (hg : ∀ f, (g f).hw = f.hw ∧ (g f).gIntrPending = f.gIntrPending) :
    Prog.Keeps (Raising vSrc) (do
      if ← genIRQ6502 vSrc then
        modify g) := by
  intro f hf hfree
  have hraised := raising_genIRQ6502 vSrc f hf hfree
  simp only [Prog.final_bind, Prog.final_ite, Prog.final_modify, Prog.final_pure]
  split
  · rw [(hg _).1, (hg _).2]
    exact hraised
  · exact hraised

theorem firmware_timerExpiry (now now' : UInt32) (s : Scheduler σ) :
    ((timerExpiry now now').final s).firmware =
      if s.irqTimerEnabled ∧ s.irqLastTS + s.irqTimerInterval ≤ now then
        (genIRQ6502 .RP_SRC_TIMER).final s.firmware
      else s.firmware := by
  simp only [timerExpiry, Prog.final_bind, Prog.result_get, Prog.final_get, Prog.final_ite,
    Prog.final_modify, Prog.final_pure, onFirmware, Prog.final_on, Prog.result_on]
  split
  · split <;> rfl
  · rfl

/-- In a free slot the task raises what it looks for first; the timer may have to wait. -/
theorem raised_taskIRQTimer {s : Scheduler σ} (hs : s.firmware.hw.Settled)
    (hfree : s.firmware.gIntrPending = false) (now now' : UInt32) :
    let s' := (taskIRQTimer now now').final s
    (s.firmware.nextSource ≠ .RP_SRC_TIMER → s.firmware.hw.view.peek RP_IRQ_STATE = RP_IRQ_NONE →
        s'.firmware.gIntrPending = true) ∧
      (s'.firmware.gIntrPending = true →
        s'.firmware.hw.view.peek RP_IRQ_SOURCE = s.firmware.nextSource.toByte) := by
  intro s'
  have hs' : s' = (taskIRQTimer now now').final s := rfl
  rw [hs', taskIRQTimer, Prog.final_bind, Prog.result_get, Prog.final_get,
    if_neg (by rw [hfree]; exact Bool.false_ne_true), Firmware.nextSource]
  by_cases hbreak : s.firmware.gConsoleBreakPending = true
  · rw [if_pos hbreak, if_pos hbreak, onFirmware, Prog.final_on]
    obtain ⟨hpending, hsrc⟩ := raising_raise .RP_SRC_CONSOLE_BREAK
      (g := fun f : Firmware σ => { f with gConsoleBreakPending := false }) (fun _ => ⟨rfl, rfl⟩)
      s.firmware hs hfree
    exact ⟨fun _ => hpending, hsrc⟩
  rw [if_neg hbreak, if_neg hbreak]
  by_cases hdone : s.firmware.gFsCompletionPending = true
  · rw [if_pos hdone, if_pos hdone, onFirmware, Prog.final_on]
    obtain ⟨hpending, hsrc⟩ := raising_raise .RP_SRC_FS_DONE
      (g := fun f : Firmware σ => { f with gFsCompletionPending := false }) (fun _ => ⟨rfl, rfl⟩)
      s.firmware hs hfree
    exact ⟨fun _ => hpending, hsrc⟩
  rw [if_neg hdone, if_neg hdone, firmware_timerExpiry]
  refine ⟨fun h => absurd rfl h, fun hpending => ?_⟩
  split at hpending
  · rename_i hexpired
    rw [if_pos hexpired]
    exact (raising_genIRQ6502 .RP_SRC_TIMER s.firmware hs hfree).2 hpending
  · exact absurd (hfree.symm.trans hpending) Bool.false_ne_true

end Raise

/-! ## Behind a reset -/

section Reset

variable (ff : FatFs σ)

theorem flags_initMailbox (f : Firmware σ) :
    let f' := (initMailbox ff).final f
    f'.gIntrPending = f.gIntrPending ∧ f'.gFsCompletionPending = f.gFsCompletionPending ∧
      f'.gConsoleBreakPending = f.gConsoleBreakPending := by
  simp only [initMailbox, rpFsMailboxReset, rpConsoleIoReset, emit, Prog.final_bind,
    Prog.final_modify, onHw, onStorage, Prog.final_on]
  exact ⟨trivial, trivial, trivial⟩

/-- The monitor reset initializes the mailbox, on the board that entering `sRESET` has left, with the slot
released and the command interface cleared. -/
theorem firmware_cmdReset {s : Scheduler σ} (hs : s.firmware.hw.Settled) :
    ∃ m : Machine, m.Settled ∧ ((cmdReset ff).final s).firmware =
      (initMailbox ff).final { s.firmware with hw := m, gIntrPending := false } := by
  have hlift : ((setIRQPin true).final ((set6502State .sRESET).final s.firmware.hw)).Settled :=
    (settled_set6502State hs .sRESET).congr rfl rfl rfl rfl
  obtain ⟨-, hstopped⟩ := stores_clearSlot _ hlift
  obtain ⟨-, hcleared⟩ := snoopWrite6502Memory_spec hstopped CMD_SLOT_BASE [0, 0, 0, 0]
  refine ⟨initCmdInterface.final (clearSlot.final
    ((setIRQPin true).final ((set6502State .sRESET).final s.firmware.hw))), hcleared, ?_⟩
  simp only [cmdReset, stopIRQTimer, Prog.final_bind, Prog.final_modify, onFirmware, onHw,
    Prog.final_on, Prog.final_discard]

/-- The monitor reset frees the slot on both sides and keeps what waits for it. -/
theorem cmdReset_spec {s : Scheduler σ} (hs : s.firmware.hw.Settled) :
    let f' := ((cmdReset ff).final s).firmware
    f'.hw.Settled ∧ f'.gIntrPending = false ∧ f'.hw.view.peek RP_IRQ_STATE = RP_IRQ_NONE ∧
      f'.gFsCompletionPending = s.firmware.gFsCompletionPending ∧
      f'.gConsoleBreakPending = s.firmware.gConsoleBreakPending := by
  obtain ⟨m, hcleared, hfinal⟩ := firmware_cmdReset ff hs
  rw [hfinal]
  obtain ⟨ws, hblock, -⟩ := stores_clearBlock
  obtain ⟨hview, hsettled⟩ := stores_resetBoard hblock m hcleared
  intro f'
  obtain ⟨hintr, hdone, hbreak⟩ := flags_initMailbox ff { s.firmware with
    hw := m, gIntrPending := false }
  have hhw : f'.hw = _ := hw_initMailbox ff _
  rw [← hhw] at hview hsettled
  refine ⟨hsettled, hintr, ?_, hdone, hbreak⟩
  rw [hview, ← List.append_assoc, ← List.append_assoc, Machine.View.writes_append]
  exact Machine.View.peek_poke_self _ _ _

end Reset

/-! ## Runs behind a reset -/

/-- The system behind a reset, and what has been requested since. -/
structure Requested (σ : Type) where
  system : System σ
  completion : Bool
  consoleBreak : Bool

/-- A console break is requested. -/
def LoopStep.isBreak : LoopStep σ → Bool
  | .consoleBreak => true
  | _ => false

section Runs

variable (ff : FatFs σ) (flash : Flash)

/-- One step. -/
def Requested.step (w : Requested σ) (l : LoopStep σ) : Requested σ :=
  let s := w.system.step ff flash l
  { system := s
    completion := w.completion || decide (w.system.scheduler.firmware.completionRequests <
      s.scheduler.firmware.completionRequests)
    consoleBreak := w.consoleBreak || l.isBreak }

/-- `taskIRQTimer()` raises an interrupt of the source. -/
def LoopStep.Raises (vSrc : IrqSource) (s : System σ) : LoopStep σ → Prop
  | .taskIRQTimer now now' =>
    let s' := s.step ff flash (.taskIRQTimer now now')
    s.scheduler.firmware.gIntrPending = false ∧ s'.scheduler.firmware.gIntrPending = true ∧
      s'.hw.view.peek RP_IRQ_SOURCE = vSrc.toByte
  | _ => False

/-- A completion or a console break that is raised has been requested since the reset. -/
def Requested.Justified (w : Requested σ) (l : LoopStep σ) : Prop :=
  (l.Raises ff flash .RP_SRC_FS_DONE w.system → w.completion = true) ∧
    (l.Raises ff flash .RP_SRC_CONSOLE_BREAK w.system → w.consoleBreak = true)

variable {ff flash}

/-- The system behind a reset, and no requests. -/
def System.resetNow (ff : FatFs σ) (flash : Flash) (s : System σ) : Requested σ :=
  ⟨s.step ff flash (.monitor .reset), false, false⟩

/-- What waits for the slot has been requested since the reset. -/
structure Requested.Fresh (w : Requested σ) : Prop where
  settled : w.system.hw.Settled
  completion : w.system.scheduler.firmware.gFsCompletionPending = true → w.completion = true
  consoleBreak : w.system.scheduler.firmware.gConsoleBreakPending = true → w.consoleBreak = true

theorem Requested.Fresh.step (hread : ReadsAtMost ff) {w : Requested σ} (h : w.Fresh) (l : LoopStep σ) :
    (w.step ff flash l).Fresh := by
  have hsettled := settled_step hread flash h.settled l
  by_cases hbreak : l = .consoleBreak
  · subst hbreak
    refine ⟨hsettled, fun hpending => ?_, fun _ => Bool.or_true _⟩
    rw [Requested.step, h.completion hpending, Bool.true_or]
  · obtain ⟨-, hcompletion, hconsole⟩ :=
      (loopRules_queued hread).program flash l (fun heq => absurd heq hbreak) w.system
    refine ⟨hsettled, fun hpending => ?_, fun hpending => ?_⟩
    · rw [Requested.step]
      rcases hcompletion hpending with hwaited | hrequested
      · simp [h.completion hwaited]
      · simp [System.step, hrequested]
    · rw [Requested.step, h.consoleBreak (hconsole hpending), Bool.true_or]

/-- What is raised waits for the slot before. -/
theorem Requested.Fresh.justified {w : Requested σ} (h : w.Fresh) (l : LoopStep σ) :
    w.Justified ff flash l := by
  have hraised : ∀ vSrc, l.Raises ff flash vSrc w.system →
      w.system.scheduler.firmware.nextSource.toByte = vSrc.toByte := by
    intro vSrc hl
    cases l with
    | taskIRQTimer now now' =>
      obtain ⟨hfree, hpending, hsrc⟩ := hl
      have hnext := (raised_taskIRQTimer h.settled hfree now now').2 hpending
      exact hnext.symm.trans hsrc
    | _ => exact hl.elim
  constructor
  · intro hl
    refine h.completion ?_
    have hnext := hraised _ hl
    rw [Firmware.nextSource] at hnext
    split at hnext
    · exact absurd hnext (by decide)
    · split at hnext
      · assumption
      · exact absurd hnext (by decide)
  · intro hl
    refine h.consoleBreak ?_
    have hnext := hraised _ hl
    rw [Firmware.nextSource] at hnext
    split at hnext
    · assumption
    · split at hnext
      · exact absurd hnext (by decide)
      · exact absurd hnext (by decide)

/-- A request from before the reset is raised by the first task behind it. -/
theorem not_justified_reset {s : System σ} (hs : s.hw.Settled)
    (hwaits : s.scheduler.firmware.gFsCompletionPending = true ∨
      s.scheduler.firmware.gConsoleBreakPending = true) (now now' : UInt32) :
    ¬ (s.resetNow ff flash).Justified ff flash (.taskIRQTimer now now') := by
  obtain ⟨hsettled, hfree, hnone, hdone, hbreak⟩ := cmdReset_spec ff hs
  rintro ⟨hcompletion, hconsole⟩
  obtain ⟨hpending, hsrc⟩ := raised_taskIRQTimer (s := (cmdReset ff).final s.scheduler) hsettled hfree now now'
  rw [Firmware.nextSource, hdone, hbreak] at hpending hsrc
  by_cases hb : s.scheduler.firmware.gConsoleBreakPending = true
  · rw [if_pos hb] at hpending hsrc
    have hraised := hpending nofun hnone
    exact Bool.false_ne_true (hconsole ⟨hfree, hraised, hsrc hraised⟩)
  · have hd := hwaits.resolve_right hb
    rw [if_neg hb, if_pos hd] at hpending hsrc
    have hraised := hpending nofun hnone
    exact Bool.false_ne_true (hcompletion ⟨hfree, hraised, hsrc hraised⟩)

/-- The monitor reset forgets the interrupt requests exactly when there are none. -/
theorem reset_forgets_iff (ff : FatFs σ) (hread : ReadsAtMost ff) (flash : Flash) {s : System σ}
    (h : s.Reachable ff flash) :
    (∀ run, Run.AtEveryStep (Requested.step ff flash) (Requested.Justified ff flash)
        (s.resetNow ff flash) run) ↔
      s.scheduler.firmware.gFsCompletionPending = false ∧
        s.scheduler.firmware.gConsoleBreakPending = false := by
  have hs := h.settled hread
  constructor
  · intro hrun
    by_contra hwaits
    rw [not_and_or, Bool.not_eq_false, Bool.not_eq_false] at hwaits
    exact not_justified_reset hs hwaits 0 0 (Run.atEveryStep_cons.1 (hrun [.taskIRQTimer 0 0])).1
  · rintro ⟨hdone, hbreak⟩ run
    obtain ⟨hsettled, -, -, hdone', hbreak'⟩ := cmdReset_spec ff hs
    have hfresh : (s.resetNow ff flash).Fresh :=
      ⟨hsettled, fun hpending => absurd (hdone.symm.trans (hdone'.symm.trans hpending)) Bool.false_ne_true,
        fun hpending => absurd (hbreak.symm.trans (hbreak'.symm.trans hpending)) Bool.false_ne_true⟩
    exact Run.atEveryStep_of_invariant (fun _ l h => h.step hread l) (fun _ l h => h.justified l) hfresh run

/-- Behind a reset without requests, a console break that is asked for is raised. -/
theorem fresh_reset_justified :
    Run.AtEveryStep (Requested.step RamDisk.fatFs fun _ => none)
      (Requested.Justified RamDisk.fatFs fun _ => none) (freshSystem.resetNow RamDisk.fatFs fun _ => none)
      [.taskIRQTimer 0 0, .consoleBreak, .taskIRQTimer 1 1] := by
  have hidle : ∀ s : System RamDisk, s.Ready → s.scheduler.firmware.gFsCompletionPending = false ∧
      s.scheduler.firmware.gConsoleBreakPending = false :=
    fun s h => ⟨h.idle.gFsCompletionPending, h.idle.gConsoleBreakPending⟩
  exact (reset_forgets_iff RamDisk.fatFs readsAtMost_ramDisk (fun _ => none) (reachable_freshSystem _)).2
    (hidle _ ready_freshSystem) _

/-- A console break is asked for and the CPU reset before the task has raised it. -/
theorem reset_keeps_break :
    let s := freshSystem.step RamDisk.fatFs (fun _ => none) .consoleBreak
    s.Reachable RamDisk.fatFs (fun _ => none) ∧
      ¬ Run.AtEveryStep (Requested.step RamDisk.fatFs fun _ => none)
        (Requested.Justified RamDisk.fatFs fun _ => none) (s.resetNow RamDisk.fatFs fun _ => none)
        [.taskIRQTimer 0 0] := by
  intro s
  have hbreak : ∀ s : System RamDisk, s.hw.Settled →
      ¬ ((s.step RamDisk.fatFs (fun _ => none) .consoleBreak).resetNow RamDisk.fatFs fun _ => none).Justified
        RamDisk.fatFs (fun _ => none) (.taskIRQTimer 0 0) :=
    fun s hs => not_justified_reset (settled_step readsAtMost_ramDisk _ hs .consoleBreak) (.inr rfl) 0 0
  refine ⟨⟨0, 0, 0, _, _, _, blankInput, [.consoleBreak], rfl⟩, fun h => ?_⟩
  exact hbreak _ ready_freshSystem.settled (Run.atEveryStep_cons.1 h).1

end Runs

end NeoMmu
