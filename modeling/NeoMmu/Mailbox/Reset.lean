import NeoMmu.Foundation.Run
import NeoMmu.Mailbox.Completion
import NeoMmu.Mailbox.Console

/-!
# The state machine across resets

A console transfer is spread over the state of the machine, the transfer variables and the trace of
dispatched requests. `Sound` ties them together; polls, console input and clients keep it. A reset
clears the variables and the block but not the state, so it keeps `Sound` exactly when no transfer is
under way.
-/

namespace NeoMmu

variable {σ : Type}

/-! ## The trace -/

/-- The request dispatched last, unless a result or a reset came after it. -/
def pendingRequest : List Event → Option (UInt8 × UInt8)
  | [] => none
  | .dispatch group cmd :: _ => some (group, cmd)
  | .reset :: _ => none
  | .result _ _ :: _ => none
  | .contextOpen :: es => pendingRequest es
  | .contextClose :: es => pendingRequest es
  | .completionIRQ :: es => pendingRequest es

/-- Every result completes a request that was pending. -/
def Answering : List Event → Prop
  | [] => True
  | .result _ _ :: es => (pendingRequest es).isSome = true ∧ Answering es
  | .dispatch _ _ :: es => Answering es
  | .reset :: es => Answering es
  | .contextOpen :: es => Answering es
  | .contextClose :: es => Answering es
  | .completionIRQ :: es => Answering es

/-- A console request is pending. -/
def ConsolePending (es : List Event) : Prop := ∃ cmd, pendingRequest es = some (RP_GROUP_CONSOLE, cmd)

theorem pendingRequest_closedAccesses (n : Nat) (es : List Event) :
    pendingRequest (closedAccesses n ++ es) = pendingRequest es := by
  induction n with
  | zero => rfl
  | succ n ih => exact ih

theorem answering_closedAccesses (n : Nat) (es : List Event) :
    Answering (closedAccesses n ++ es) ↔ Answering es := by
  induction n with
  | zero => rfl
  | succ n ih => exact ih

theorem answering_completionEvents (pid : UInt8) (es : List Event) :
    Answering (completionEvents pid ++ es) ↔ Answering es := by
  unfold completionEvents
  split <;> rfl

/-! ## Soundness -/

/-- A READ has room for its input, a transfer under way has its request pending, and results were
asked for. -/
structure Sound (f : Firmware σ) : Prop where
  length : f.mailbox_state = .mbREAD → 1 ≤ f.gConsoleLen ∧ f.gConsoleLen ≤ 256
  transfer : f.mailbox_state = .mbWRITE ∨ f.mailbox_state = .mbREAD → ConsolePending f.events
  answering : Answering f.events

/-- Outside of transfers only the trace matters. -/
theorem Sound.of_idle {f : Firmware σ} (h : f.mailbox_state ≠ .mbWRITE ∧ f.mailbox_state ≠ .mbREAD)
    (hanswering : Answering f.events) : Sound f :=
  ⟨fun hread => absurd hread h.2, fun htransfer => (htransfer.elim h.1 h.2).elim, hanswering⟩

/-- The trace, the state of the machine and the length of a READ are those before. -/
structure Silent (f f' : Firmware σ) : Prop where
  events : f'.events = f.events
  mailbox_state : f'.mailbox_state = f.mailbox_state
  gConsoleLen : f'.gConsoleLen = f.gConsoleLen

instance : Std.Refl (Silent (σ := σ)) where
  refl _ := ⟨rfl, rfl, rfl⟩

instance : IsTrans (Firmware σ) Silent where
  trans _ _ _ h h' := ⟨h'.events.trans h.events, h'.mailbox_state.trans h.mailbox_state,
    h'.gConsoleLen.trans h.gConsoleLen⟩

theorem Sound.of_silent {f f' : Firmware σ} (hf : Sound f) (h : Silent f f') : Sound f' := by
  refine ⟨?_, ?_, ?_⟩
  · rw [h.mailbox_state, h.gConsoleLen]
    exact hf.length
  · rw [h.mailbox_state, h.events]
    exact hf.transfer
  · rw [h.events]
    exact hf.answering

theorem silent_onHw {α : Type} (p : Prog Machine α) : Prog.Keeps (Silent (σ := σ)) (onHw p) :=
  fun _ => ⟨rfl, rfl, rfl⟩

theorem silent_updateConsoleReady : Prog.Keeps (Silent (σ := σ)) updateConsoleReady := by
  refine Prog.Keeps.get.bind fun f => Prog.Keeps.ite (fun _ => ?_) fun _ => Prog.Keeps.pure ()
  exact (silent_onHw _).bind fun _ => Prog.Keeps.modify fun _ => ⟨rfl, rfl, rfl⟩

theorem silent_readCPUQ : Prog.Keeps (Silent (σ := σ)) readCPUQ := by
  refine Prog.Keeps.get.bind fun f => ?_
  split
  · exact Prog.Keeps.pure 0
  · exact (Prog.Keeps.modify fun _ => ⟨rfl, rfl, rfl⟩).bind fun _ => Prog.Keeps.pure _

theorem silent_writeCPUQ (c : UInt8) : Prog.Keeps (Silent (σ := σ)) (writeCPUQ c) := by
  refine Prog.Keeps.get.bind fun f => Prog.Keeps.ite (fun _ => Prog.Keeps.pure false) fun _ => ?_
  exact (Prog.Keeps.modify fun _ => ⟨rfl, rfl, rfl⟩).bind fun _ => Prog.Keeps.pure true

theorem silent_writeVDUQ (c : UInt8) : Prog.Keeps (Silent (σ := σ)) (writeVDUQ c) := by
  refine Prog.Keeps.modify fun f => ?_
  split
  · exact ⟨rfl, rfl, rfl⟩
  · exact refl f

theorem silent_inputBytes (n : Nat) : Prog.Keeps (Silent (σ := σ)) (rpConsoleInputBytes n) := by
  induction n with
  | zero => exact Prog.Keeps.pure []
  | succ n ih =>
    refine silent_readCPUQ.bind fun c => Prog.Keeps.ite (fun _ => Prog.Keeps.pure []) fun _ => ?_
    exact ih.bind fun _ => Prog.Keeps.pure _

theorem silent_outputBytes (buffer : List UInt8) :
    Prog.Keeps (Silent (σ := σ)) (rpConsoleOutputBytes buffer) := by
  induction buffer with
  | nil => exact Prog.Keeps.pure ()
  | cons c buffer ih => exact (silent_writeVDUQ c).bind fun _ => ih

/-! ## Transfers -/

theorem events_setDone (result : UInt16) (flags : UInt8) (f : Firmware σ) :
    ((rpMailboxSetDone result flags).final f).events = .result RP_DONE RP_ERR_OK :: f.events := by
  simp only [rpMailboxSetDone, emit, Prog.final_bind, Prog.final_modify, onHw, Prog.final_on]

theorem events_setError (err : UInt8) (partialResult : UInt16) (f : Firmware σ) :
    ((rpMailboxSetError err partialResult).final f).events = .result RP_ERROR err :: f.events := by
  simp only [rpMailboxSetError, emit, Prog.final_bind, Prog.final_modify, onHw, Prog.final_on]

/-- A turn of a WRITE either goes on or publishes the result. -/
theorem processWrite_cases (f : Firmware σ) :
    (rpConsoleIoProcessWrite.result f = false ∧ Silent f (rpConsoleIoProcessWrite.final f)) ∨
      rpConsoleIoProcessWrite.result f = true ∧
        (rpConsoleIoProcessWrite.final f).events = .result RP_DONE RP_ERR_OK :: f.events := by
  by_cases hremaining : f.gConsoleRemaining ≠ 0
  · left
    simp only [rpConsoleIoProcessWrite, Prog.result_bind, Prog.final_bind, Prog.result_get,
      Prog.final_get, if_pos hremaining, Prog.result_pure,
      Prog.final_pure, Prog.final_modify]
    refine ⟨trivial, ?_⟩
    have hread := silent_onHw (σ := σ)
      (snoopRead6502Memory f.gConsoleCurrent (consoleChunk f.gConsoleRemaining)) f
    obtain ⟨hevents, hstate, hlen⟩ := trans_of Silent hread (silent_outputBytes _ _)
    exact ⟨hevents, hstate, hlen⟩
  · right
    simp only [rpConsoleIoProcessWrite, Prog.result_bind, Prog.final_bind, Prog.result_get,
      Prog.final_get, if_neg hremaining, Prog.result_pure,
      Prog.final_pure]
    exact ⟨trivial, events_setDone _ _ f⟩

/-- A turn of a READ either waits or publishes the result. -/
theorem processRead_cases (f : Firmware σ) :
    (rpConsoleIoProcessRead.result f = false ∧ Silent f (rpConsoleIoProcessRead.final f)) ∨
      rpConsoleIoProcessRead.result f = true ∧
        (rpConsoleIoProcessRead.final f).events = .result RP_DONE RP_ERR_OK :: f.events := by
  have hinput := silent_inputBytes f.gConsoleLen.toNat f
  by_cases hempty : (rpConsoleInputBytes f.gConsoleLen.toNat).result f = []
  · left
    simp only [rpConsoleIoProcessRead, Prog.result_bind, Prog.final_bind, Prog.result_get,
      Prog.final_get, if_pos hempty, Prog.result_pure,
      Prog.final_pure]
    exact ⟨trivial, hinput⟩
  · right
    simp only [rpConsoleIoProcessRead, Prog.result_bind, Prog.final_bind, Prog.result_get,
      Prog.final_get, if_neg hempty, Prog.result_pure,
      Prog.final_pure]
    refine ⟨trivial, (events_setDone _ _ _).trans ?_⟩
    exact congrArg _ hinput.events

/-! ## Dispatch -/

section Dispatch

variable (ff : FatFs σ) {f : Firmware σ} {group cmd : UInt8}

/-- A result for a pending request, and the machine in `mbDONE`. -/
theorem Sound.done {f' : Firmware σ} {es : List Event} {status err : UInt8}
    (hevents : f'.events = .result status err :: es) (hanswering : Answering es)
    (hpending : (pendingRequest es).isSome = true) : Sound { f' with mailbox_state := .mbDONE } := by
  refine Sound.of_idle ⟨nofun, nofun⟩ ?_
  dsimp only
  rw [hevents]
  exact ⟨hpending, hanswering⟩

theorem ConsolePending.isSome {es : List Event} (h : ConsolePending es) :
    (pendingRequest es).isSome = true := by
  obtain ⟨cmd, h⟩ := h
  rw [h]
  rfl

/-- The command is one of the console's. -/
def IsConsole (group cmd : UInt8) : Prop :=
  group = RP_GROUP_CONSOLE ∧ (cmd = RP_CON_CMD_WRITE ∨ cmd = RP_CON_CMD_READ)

theorem rpFindMailboxCommand_cases (group cmd : UInt8) :
    (IsConsole group cmd ∧ (rpFindMailboxCommand ff group cmd = some rpConsoleIoHandleWrite ∨
        rpFindMailboxCommand ff group cmd = some rpConsoleIoHandleRead)) ∨
      ¬ IsConsole group cmd ∧ (rpFindMailboxCommand ff group cmd = some (rpFsMailboxHandleExec ff) ∨
        rpFindMailboxCommand ff group cmd = none) := by
  simp only [rpFindMailboxCommand, gMailboxCommands, List.lookup_cons, List.lookup_nil]
  split
  · rename_i h
    simp only [beq_iff_eq, Prod.mk.injEq] at h
    exact .inl ⟨⟨h.1, .inl h.2⟩, .inl rfl⟩
  rename_i hwrite
  split
  · rename_i h
    simp only [beq_iff_eq, Prod.mk.injEq] at h
    exact .inl ⟨⟨h.1, .inr h.2⟩, .inr rfl⟩
  rename_i hread
  have hother : ¬ IsConsole group cmd := by
    rintro ⟨rfl, rfl | rfl⟩
    · simp at hwrite
    · simp at hread
  split
  · exact .inr ⟨hother, .inl rfl⟩
  · exact .inr ⟨hother, .inr rfl⟩

/-- A WRITE begins with its request pending. -/
theorem sound_handleWrite (hanswering : Answering f.events)
    (hpending : ConsolePending f.events) :
    Sound { rpConsoleIoHandleWrite.final f with
      mailbox_state := rpConsoleIoHandleWrite.result f } := by
  simp only [rpConsoleIoHandleWrite, Prog.result_bind, Prog.final_bind, Prog.result_ite,
    Prog.final_ite, Prog.result_pure, Prog.final_pure, onHw, Prog.result_on, Prog.final_on,
    Prog.final_modify]
  generalize hlen : (rpRead16 RP_ARG1L).result _ = len
  by_cases hzero : len = 0
  · simp only [hzero, if_true]
    exact Sound.done (events_setDone _ _ _) hanswering hpending.isSome
  · simp only [hzero, if_false]
    exact ⟨by rintro ⟨⟩, fun _ => hpending, hanswering⟩

/-- A READ begins with its request pending and room for 1 to 256 bytes. -/
theorem sound_handleRead (hanswering : Answering f.events) (hpending : ConsolePending f.events) :
    Sound { rpConsoleIoHandleRead.final f with
      mailbox_state := rpConsoleIoHandleRead.result f } := by
  simp only [rpConsoleIoHandleRead, Prog.result_bind, Prog.final_bind, Prog.result_ite,
    Prog.final_ite, Prog.result_pure, Prog.final_pure, onHw, Prog.result_on, Prog.final_on,
    Prog.final_modify]
  generalize hlen : (rpRead16 RP_ARG1L).result _ = len
  by_cases hzero : len = 0
  · simp only [hzero, if_true]
    exact Sound.done (events_setDone _ _ _) hanswering hpending.isSome
  · simp only [hzero, if_false]
    refine ⟨fun _ => ?_, fun _ => hpending, hanswering⟩
    have hpos : 0 < len.toNat := by
      rw [Nat.pos_iff_ne_zero]
      exact fun h => hzero (UInt16.toNat_inj.1 h)
    dsimp only
    split
    · decide
    · rename_i h
      exact ⟨hpos, UInt16.not_lt.1 h⟩

/-- A filesystem request is completed at once. -/
theorem sound_handleExec (hanswering : Answering f.events)
    (hpending : (pendingRequest f.events).isSome = true) :
    Sound { (rpFsMailboxHandleExec ff).final f with
      mailbox_state := (rpFsMailboxHandleExec ff).result f } := by
  obtain ⟨m₀, op, pid, context, -, hres, hfin⟩ := final_rpFsMailboxHandleExec ff f
  obtain ⟨hdone, ⟨n, status, err, -, hevents, -⟩, -⟩ :=
    (completes_checkedOperation ff pid op : Completes (checkedOperation ff op pid context))
      { f with hw := m₀ }
  refine Sound.of_idle ?_ ?_
  · dsimp only
    rw [hres, hdone]
    exact ⟨nofun, nofun⟩
  · rw [hfin, hevents]
    refine (answering_completionEvents pid _).2 ⟨?_, ?_⟩
    · rw [pendingRequest_closedAccesses]
      exact hpending
    · rw [answering_closedAccesses]
      exact hanswering

/-- Whatever is dispatched, the state it leads to is sound. -/
theorem sound_dispatch (hanswering : Answering f.events) :
    Sound { (rpMailboxDispatchCurrentRequest ff).final f with
      mailbox_state := (rpMailboxDispatchCurrentRequest ff).result f } := by
  simp only [rpMailboxDispatchCurrentRequest, Prog.result_bind, Prog.final_bind, onHw,
    Prog.result_on, Prog.final_on, emit, Prog.final_modify]
  generalize (snoopRead6502MemoryLoc RP_GROUP).result _ = group
  generalize (snoopRead6502MemoryLoc RP_CMD).result _ = cmd
  generalize (snoopRead6502MemoryLoc RP_CMD).final _ = m₁
  unfold rpDispatchMailboxCommand
  have hclear : ∀ f : Firmware σ, (onHw rpMailboxClearResultFields).final f =
    { f with hw := rpMailboxClearResultFields.final f.hw } := fun _ => rfl
  rcases rpFindMailboxCommand_cases ff group cmd with
    ⟨⟨rfl, -⟩, hfind | hfind⟩ | ⟨-, hfind | hfind⟩
  · simp only [hfind, Prog.result_bind, Prog.final_bind, hclear]
    exact sound_handleWrite hanswering ⟨cmd, rfl⟩
  · simp only [hfind, Prog.result_bind, Prog.final_bind, hclear]
    exact sound_handleRead hanswering ⟨cmd, rfl⟩
  · simp only [hfind, Prog.result_bind, Prog.final_bind, hclear]
    exact sound_handleExec ff hanswering rfl
  · simp only [hfind, Prog.result_bind, Prog.final_bind, Prog.result_pure, Prog.final_pure]
    refine Sound.done (events_setError _ _ _) ?_ ?_
    · exact hanswering
    · rfl

theorem sound_pollIdle (hf : Sound f) (hstate : f.mailbox_state = .mbIDLE) :
    Sound ((pollIdle ff).final f) := by
  have hidle : f.mailbox_state ≠ .mbWRITE ∧ f.mailbox_state ≠ .mbREAD := by
    rw [hstate]
    exact ⟨nofun, nofun⟩
  simp only [pollIdle, Prog.final_bind, Prog.result_get, Prog.final_get, Prog.final_ite,
    Prog.final_modify, Prog.final_pure, onHw, Prog.final_on, Prog.result_on]
  split
  · exact Sound.of_idle hidle hf.answering
  split
  · exact sound_dispatch ff hf.answering
  · exact Sound.of_idle hidle hf.answering

/-- Every branch of the state machine leads to a sound state. -/
theorem sound_mailboxFsm (hf : Sound f) : Sound ((mailboxFsm ff).final f) := by
  simp only [mailboxFsm, Prog.final_bind, Prog.result_get, Prog.final_get]
  split
  · exact Sound.of_idle ⟨nofun, nofun⟩ hf.answering
  · rename_i hstate
    exact sound_pollIdle ff hf hstate
  · rename_i hstate
    have hpending := hf.transfer (.inl hstate)
    simp only [Prog.final_bind, Prog.final_ite, Prog.final_modify, Prog.final_pure]
    rcases processWrite_cases f with ⟨hres, hsilent⟩ | ⟨hres, hevents⟩
    · rw [hres, if_neg Bool.false_ne_true]
      exact hf.of_silent hsilent
    · rw [hres, if_pos rfl]
      exact Sound.done hevents hf.answering hpending.isSome
  · rename_i hstate
    have hpending := hf.transfer (.inr hstate)
    simp only [Prog.final_bind, Prog.final_ite, Prog.final_modify, Prog.final_pure]
    rcases processRead_cases f with ⟨hres, hsilent⟩ | ⟨hres, hevents⟩
    · rw [hres, if_neg Bool.false_ne_true]
      exact hf.of_silent hsilent
    · rw [hres, if_pos rfl]
      exact Sound.done hevents hf.answering hpending.isSome
  · exact Sound.of_idle ⟨nofun, nofun⟩ hf.answering

theorem sound_taskMailbox (hf : Sound f) : Sound ((taskMailbox ff).final f) :=
  sound_mailboxFsm ff (hf.of_silent (silent_updateConsoleReady f))

/-! ## Runs -/

/-- A reset is recorded, and the state of the machine stays. -/
theorem initMailbox_spec (f : Firmware σ) :
    ((initMailbox ff).final f).events = .reset :: f.events ∧
      ((initMailbox ff).final f).mailbox_state = f.mailbox_state := by
  simp only [initMailbox, rpFsMailboxReset, rpConsoleIoReset, emit, Prog.final_bind,
    Prog.final_modify, onHw, onStorage, Prog.final_on]
  exact ⟨trivial, trivial⟩

/-- A reset does nothing to the board but store. -/
theorem hw_initMailbox (f : Firmware σ) :
    ((initMailbox ff).final f).hw = (do
      clearBlock
      snoopWrite6502MemoryLoc RP_CONSOLE_RDY 0x00
      snoopWrite6502MemoryLoc RP_IRQ_SOURCE 0x00
      snoopWrite6502MemoryLoc RP_IRQ_STATE 0x00 : Prog Machine Unit).final f.hw := by
  simp only [initMailbox, rpFsMailboxReset, rpConsoleIoReset, emit, Prog.final_bind,
    Prog.final_modify, onHw, onStorage, Prog.final_on]

end Dispatch

/-- What happens to the mailbox between two polls, and the polls. -/
inductive MailboxStep
  /-- `taskMailbox()` -/
  | poll
  /-- Console input arrives. -/
  | input (c : UInt8)
  /-- The CPU and the other tasks leave some board, with requests in its memory. -/
  | client (board : Machine)
  /-- `initMailbox()` -/
  | reset

/-- The firmware after a step. -/
def mailboxStep (ff : FatFs σ) (f : Firmware σ) : MailboxStep → Firmware σ
  | .poll => (taskMailbox ff).final f
  | .input c => (writeCPUQ c).final f
  | .client board => { f with hw := board }
  | .reset => (initMailbox ff).final f

/-- A reset comes while no console transfer is under way. -/
def ResetOutsideTransfer (f : Firmware σ) : MailboxStep → Prop
  | .reset => f.mailbox_state ≠ .mbWRITE ∧ f.mailbox_state ≠ .mbREAD
  | _ => True

section Runs

variable (ff : FatFs σ) {f : Firmware σ}

theorem sound_step (hf : Sound f) {l : MailboxStep} (hl : ResetOutsideTransfer f l) :
    Sound (mailboxStep ff f l) := by
  cases l with
  | poll => exact sound_taskMailbox ff hf
  | input c => exact hf.of_silent (silent_writeCPUQ c f)
  | client board => exact hf.of_silent ⟨rfl, rfl, rfl⟩
  | reset =>
    obtain ⟨hevents, hstate⟩ := initMailbox_spec ff f
    refine Sound.of_idle ?_ ?_
    · rw [mailboxStep, hstate]
      exact hl
    · rw [mailboxStep, hevents]
      exact hf.answering

/-- A reset in the middle of a transfer leaves a transfer that no request is pending for. -/
theorem not_sound_reset (h : f.mailbox_state = .mbWRITE ∨ f.mailbox_state = .mbREAD) :
    ¬ Sound (mailboxStep ff f .reset) := by
  intro hsound
  obtain ⟨hevents, hstate⟩ := initMailbox_spec ff f
  obtain ⟨cmd, hpending⟩ := hsound.transfer (by rw [mailboxStep, hstate]; exact h)
  rw [mailboxStep, hevents] at hpending
  cases hpending

/-- Every state a run of the mailbox reaches is sound exactly when every reset of the run comes outside
of transfers. -/
theorem run_sound_iff (hw : Machine) (storage : Storage σ) (run : List MailboxStep) :
    (∀ part, part <+: run → Sound (part.foldl (mailboxStep ff) (.start hw storage))) ↔
      Run.AtEveryStep (mailboxStep ff) ResetOutsideTransfer (.start hw storage) run := by
  constructor
  · rintro hsound part l rest rfl
    have hafter := hsound (part ++ [l]) ⟨rest, by simp⟩
    rw [List.foldl_append, List.foldl_cons, List.foldl_nil] at hafter
    cases l with
    | reset =>
      by_contra h
      refine not_sound_reset ff ?_ hafter
      rw [ResetOutsideTransfer] at h
      tauto
    | poll => trivial
    | input c => trivial
    | client board => trivial
  · rintro hreset part ⟨rest, rfl⟩
    have hstart : Sound (Firmware.start hw storage) := Sound.of_idle ⟨nofun, nofun⟩ trivial
    exact Run.AtEveryStep.invariant (I := Sound) (fun f l hf hl => sound_step ff hf hl) hstart
      hreset.of_append

end Runs

/-- A client asks for 10 bytes of console input and rings the doorbell. -/
def readRequestBoard : Machine :=
  { Machine.running fun cell => (List.lookup cell
      [((0x0E, 0x010), 1), ((0x0B, 0x000), RP_GROUP_CONSOLE), ((0x0B, 0x001), RP_CON_CMD_READ),
       ((0x0B, 0x007), 0x20), ((0x0B, 0x008), 10)]).getD 0 with gMMUIOTrigger := true }

/-- The request is dispatched, and a reset comes while it waits for input. -/
def resetDuringRead : List MailboxStep := [.poll, .client readRequestBoard, .poll, .reset]

/-- The firmware the run starts from. -/
def blankFirmware : Firmware RamDisk :=
  .start (.running fun _ => 0) (RamDisk.mounted fun _ => none)

/-- The machine is left in `mbREAD` with no room for input, so nothing that is typed ends the READ. -/
theorem resetDuringRead_not_sound : ¬ ∀ part, part <+: resetDuringRead →
    Sound (part.foldl (mailboxStep RamDisk.fatFs) blankFirmware) := by
  intro hsound
  have hread : (resetDuringRead.foldl (mailboxStep RamDisk.fatFs) blankFirmware).mailbox_state =
      .mbREAD := by
    decide +kernel
  have hlength : (resetDuringRead.foldl (mailboxStep RamDisk.fatFs) blankFirmware).gConsoleLen =
      0 := by
    decide
  have hsome := (hsound resetDuringRead (List.prefix_refl _)).length hread
  rw [hlength] at hsome
  exact absurd hsome (by decide)

end NeoMmu
