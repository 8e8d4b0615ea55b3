import NeoMmu.Mailbox.ConsoleWrite
import NeoMmu.Mailbox.Footprint
import NeoMmu.Mailbox.Reset

/-!
# The two triggers of a request

A client posts a request with two writes, `RP_STATUS` and `RP_DOORBELL`, and a poll that finds either
of them dispatches it. `Exchange` is what the two sides see of each other; a poll passes, dispatches,
completes, or does both. A request is dispatched once as long as no poll completes it between the two
writes of its client.
-/

namespace NeoMmu

variable {σ α : Type}

/-! ## The exchange -/

/-- The event is a dispatch. -/
def Event.isDispatch : Event → Bool
  | .dispatch _ _ => true
  | _ => false

/-- The event is a result. -/
def Event.isResult : Event → Bool
  | .result _ _ => true
  | _ => false

/-- The triggers, and how many requests have been dispatched and completed. -/
structure Exchange where
  status : UInt8
  doorbell : UInt8
  dispatches : Nat
  results : Nat

/-- The exchange as the firmware is in it. -/
def Firmware.exchange (f : Firmware σ) : Exchange where
  status := f.hw.view.peek RP_STATUS
  doorbell := f.hw.view.peek RP_DOORBELL
  dispatches := f.events.countP Event.isDispatch
  results := f.events.countP Event.isResult

namespace Exchange

/-- A trigger is set. -/
def Rings (x : Exchange) : Prop := x.doorbell ≠ RP_DOORBELL_NONE ∨ x.status = RP_BUSY

instance (x : Exchange) : Decidable x.Rings := inferInstanceAs (Decidable (_ ∨ _))

/-- A request is dispatched. -/
def dispatched (x : Exchange) : Exchange := { x with dispatches := x.dispatches + 1 }

/-- A request is completed. -/
def answered (x : Exchange) (status : UInt8) : Exchange :=
  { x with status := status, doorbell := RP_DOORBELL_NONE, results := x.results + 1 }

end Exchange

/-- The status of a completed request. -/
def Answer (status : UInt8) : Prop := status = RP_DONE ∨ status = RP_ERROR

/-- The board stays steady, and no trigger and no count changes. -/
def Same (f f' : Firmware σ) : Prop :=
  f.hw.Steady → f'.hw.Steady ∧ f'.exchange = f.exchange

/-- The board stays steady, and one request is completed. -/
def Answers (f f' : Firmware σ) : Prop :=
  f.hw.Steady → f'.hw.Steady ∧ ∃ status, Answer status ∧ f'.exchange = f.exchange.answered status

instance : Std.Refl (Same (σ := σ)) where
  refl _ := fun hf => ⟨hf, rfl⟩

instance : IsTrans (Firmware σ) Same where
  trans f f' f'' h h' := by
    intro hf
    obtain ⟨hf', hsame⟩ := h hf
    obtain ⟨hf'', hsame'⟩ := h' hf'
    exact ⟨hf'', hsame'.trans hsame⟩

theorem Answers.of_same {f f' f'' : Firmware σ} (h : Same f f') (h' : Answers f' f'') :
    Answers f f'' := by
  intro hf
  obtain ⟨hf', hsame⟩ := h hf
  rw [← hsame]
  exact h' hf'

/-- Whatever happened to the memory in front of a result, the result sets the triggers. -/
theorem Answers.of_events {f f' f'' : Firmware σ} (hsteady : f.hw.Steady → f'.hw.Steady)
    (hevents : f'.events = f.events) (h' : Answers f' f'') : Answers f f'' := by
  intro hf
  obtain ⟨hf'', status, hstatus, heq⟩ := h' (hsteady hf)
  refine ⟨hf'', status, hstatus, heq.trans ?_⟩
  rw [Firmware.exchange, Firmware.exchange, hevents]
  rfl

/-! ## What leaves the triggers alone -/

/-- The address is in neither trigger's cell, whatever the mapping. -/
def Aside (a : UInt16) : Prop :=
  RP_STATUS &&& 0x0FFF ≠ a &&& 0x0FFF ∧ RP_DOORBELL &&& 0x0FFF ≠ a &&& 0x0FFF

instance (a : UInt16) : Decidable (Aside a) := inferInstanceAs (Decidable (_ ∧ _))

/-- A byte that is there already stays, whether or not its cell is written again. -/
theorem Machine.View.peek_poke_eq {v : Machine.View} {a a' : UInt16} {b : UInt8} (h : v.peek a' = b) :
    (v.poke a b).peek a' = b := by
  refine (Function.update_apply v.ram (v.physAddr a) b (v.physAddr a')).trans ?_
  split
  · rfl
  · exact h

/-- Writes aside of the triggers. -/
theorem same_of_writes {f f' : Firmware σ} (hevents : f'.events = f.events)
    (h : f.hw.Settled → f'.hw.Settled ∧ ∃ ws, (∀ w ∈ ws, Aside w.1) ∧
      f'.hw.view = f.hw.view.writes ws) : Same f f' := by
  intro hf
  obtain ⟨hf', ws, hws, hview⟩ := h hf.settled
  refine ⟨hf.of_view hf' (hview.trans (f.hw.view.writes_eq_self ws)), ?_⟩
  rw [Firmware.exchange, Firmware.exchange, hevents, hview,
    f.hw.view.peek_writes_of_ne fun w hw => (hws w hw).1,
    f.hw.view.peek_writes_of_ne fun w hw => (hws w hw).2]

theorem same_onHw {p : Prog Machine α} (h : ∀ m : Machine, m.Settled →
    (p.final m).view = m.view ∧ (p.final m).Settled) : Prog.Keeps (Same (σ := σ)) (onHw p) :=
  fun f => same_of_writes rfl fun hf => ⟨(h f.hw hf).2, [], by simp, (h f.hw hf).1⟩

theorem same_stores {p : Prog Machine Unit} {ws : List (UInt16 × UInt8)} (hp : Stores p ws)
    (hws : ∀ w ∈ ws, Aside w.1) : Prog.Keeps (Same (σ := σ)) (onHw p) :=
  fun f => same_of_writes rfl fun hf => ⟨(hp f.hw hf).2, ws, hws, (hp f.hw hf).1⟩

/-- The board and the trace are those before. -/
theorem same_of_eq {f f' : Firmware σ} (hhw : f'.hw = f.hw) (hevents : f'.events = f.events) :
    Same f f' := by
  intro hf
  rw [Firmware.exchange, Firmware.exchange, hhw, hevents]
  exact ⟨hf, rfl⟩

theorem same_updateConsoleReady : Prog.Keeps (Same (σ := σ)) updateConsoleReady := by
  refine Prog.Keeps.get.bind fun f => Prog.Keeps.ite (fun _ => ?_) fun _ => Prog.Keeps.pure ()
  refine (same_stores (stores_snoopWrite RP_CONSOLE_RDY _) ?_).bind fun _ =>
    Prog.Keeps.modify fun _ => same_of_eq rfl rfl
  intro w hw
  obtain rfl := List.mem_singleton.1 hw
  show Aside RP_CONSOLE_RDY
  decide

theorem same_clearResultFields : Prog.Keeps (Same (σ := σ)) (onHw rpMailboxClearResultFields) :=
  same_stores stores_clearResultFields (by decide)

/-- A board that only the queues and the transfer variables leave. -/
theorem hw_inputBytes (n : Nat) (f : Firmware σ) : ((rpConsoleInputBytes n).final f).hw = f.hw := by
  have hkeeps : Prog.Keeps (Order.Preimage (fun f : Firmware σ => f.hw) Eq) (rpConsoleInputBytes n) := by
    induction n with
    | zero => exact Prog.Keeps.pure []
    | succ n ih =>
      have hread : Prog.Keeps (Order.Preimage (fun f : Firmware σ => f.hw) Eq) readCPUQ := by
        refine Prog.Keeps.get.bind fun f => ?_
        split
        · exact Prog.Keeps.pure 0
        · exact Prog.Keeps.bind (Prog.Keeps.modify fun _ => rfl) fun _ => Prog.Keeps.pure _
      refine hread.bind fun c => Prog.Keeps.ite (fun _ => Prog.Keeps.pure []) fun _ => ?_
      exact ih.bind fun _ => Prog.Keeps.pure _
  exact (hkeeps f).symm

theorem same_inputBytes (n : Nat) : Prog.Keeps (Same (σ := σ)) (rpConsoleInputBytes n) :=
  fun f => same_of_eq (hw_inputBytes n f) (silent_inputBytes n f).events

/-! ## Results -/

/-- Publishing a result answers whatever the triggers were. -/
theorem answers_publish {status : UInt8} (h : Answer status) (res0 res1 : UInt16) (err flags : UInt8)
    {f f' : Firmware σ}
    (hf' : f' = (do emit (.result status err); onHw (rpMailboxPublish res0 res1 err flags status) :
      Prog (Firmware σ) Unit).final f) : Answers f f' := by
  intro hf
  obtain ⟨-, hstatus, -, hdoorbell⟩ := rpMailboxPublish_spec hf.settled res0 res1 err flags status
  obtain ⟨ws, hstores⟩ := stores_publish res0 res1 err flags status
  have hsteady := (hstores.steady hf).1
  simp only [Prog.final_bind, emit, Prog.final_modify, onHw, Prog.final_on] at hf'
  generalize (rpMailboxPublish res0 res1 err flags status).final f.hw = m at hf' hstatus hdoorbell hsteady
  subst hf'
  refine ⟨hsteady, status, h, ?_⟩
  simp only [Firmware.exchange, hstatus, hdoorbell, Exchange.answered]
  rw [List.countP_cons_of_neg Bool.false_ne_true, List.countP_cons_of_pos rfl]

theorem answers_setDone (result : UInt16) (flags : UInt8) (f : Firmware σ) :
    Answers f ((rpMailboxSetDone result flags).final f) :=
  answers_publish (.inl rfl) _ _ _ _ rfl

theorem answers_setError (err : UInt8) (partialResult : UInt16) (f : Firmware σ) :
    Answers f ((rpMailboxSetError err partialResult).final f) :=
  answers_publish (.inr rfl) _ _ _ _ rfl

/-- Accesses are neither dispatches nor results. -/
theorem countP_closedAccesses {p : Event → Bool} (hopen : p .contextOpen = false)
    (hclose : p .contextClose = false) (n : Nat) : (closedAccesses n).countP p = 0 := by
  induction n with
  | zero => rfl
  | succ n ih => simp [closedAccesses, hopen, hclose, ih]

theorem countP_completionEvents {p : Event → Bool} (h : p .completionIRQ = false) (pid : UInt8) :
    (completionEvents pid).countP p = 0 := by
  unfold completionEvents
  split
  · rfl
  · simp [h]

/-- A filesystem request is answered at once. -/
theorem answers_handleExec {ff : FatFs σ} (hread : ReadsAtMost ff) (f : Firmware σ) :
    Answers f ((rpFsMailboxHandleExec ff).final f) := by
  intro hf
  obtain ⟨m₀, op, pid, context, hblock, -, hfin⟩ := final_rpFsMailboxHandleExec ff f
  obtain ⟨hm₀, -⟩ := hblock hf.settled
  have hcompletes : Completes (checkedOperation ff op pid context) := completes_checkedOperation ff _ op
  obtain ⟨-, ⟨n, status, err, houtcome, hevents, hboard⟩, -⟩ := hcompletes { f with hw := m₀ }
  obtain ⟨-, hstatus, -, hdoorbell⟩ := hboard hm₀
  obtain ⟨hsettled, ram, hview, -⟩ :=
    (confined_request hread hf.settled).board hf.settled hf.selected
  have hanswer : Answer status := by
    rcases houtcome with ⟨h, -⟩ | ⟨h, -⟩
    · exact .inl h
    · exact .inr h
  refine ⟨hf.of_view hsettled hview, status, hanswer, ?_⟩
  rw [hfin]
  generalize (checkedOperation ff op pid context).final { f with hw := m₀ } = g at hevents hstatus hdoorbell ⊢
  simp only [Firmware.exchange, hstatus, hdoorbell, hevents, Exchange.answered, List.countP_append]
  rw [countP_completionEvents rfl, countP_completionEvents rfl, List.countP_cons_of_neg Bool.false_ne_true,
    List.countP_cons_of_pos rfl, List.countP_append, List.countP_append, countP_closedAccesses rfl rfl,
    countP_closedAccesses rfl rfl]
  simp only [Nat.zero_add]

theorem result_handleExec (ff : FatFs σ) (f : Firmware σ) :
    (rpFsMailboxHandleExec ff).result f = .mbDONE := by
  obtain ⟨m₀, op, pid, context, -, hres, -⟩ := final_rpFsMailboxHandleExec ff f
  have hcompletes : Completes (checkedOperation ff op pid context) := completes_checkedOperation ff _ op
  exact hres.trans (hcompletes _).1

/-! ## Dispatch -/

/-- The block asks for a console transfer of some bytes, which takes several polls. -/
def Firmware.AsksTransfer (f : Firmware σ) : Prop :=
  IsConsole (f.hw.view.peek RP_GROUP) (f.hw.view.peek RP_CMD) ∧ f.hw.view.peek16 RP_ARG1L ≠ 0

/-- A console request of no bytes is answered; another one begins a transfer. -/
theorem handleConsole_cases {m : Prog (Firmware σ) MailboxState} {f : Firmware σ}
    (hm : m = rpConsoleIoHandleWrite ∨ m = rpConsoleIoHandleRead) (hf : f.hw.Steady) :
    (f.hw.view.peek16 RP_ARG1L = 0 ∧ m.result f = .mbDONE ∧ Answers f (m.final f)) ∨
      f.hw.view.peek16 RP_ARG1L ≠ 0 ∧ (m.result f = .mbWRITE ∨ m.result f = .mbREAD) ∧
        Same f (m.final f) := by
  obtain ⟨-, hview₁, h₁⟩ := rpRead16_spec hf.settled RP_ARG0L
  obtain ⟨hlen, hview₂, h₂⟩ := rpRead16_spec h₁ RP_ARG1L
  rw [hview₁] at hlen
  have hreads : ∀ g : Firmware σ, g.hw = (rpRead16 RP_ARG1L).final ((rpRead16 RP_ARG0L).final f.hw) →
      g.events = f.events → Same f g := fun g hhw hevents => same_of_writes hevents fun _ =>
    ⟨hhw ▸ h₂, [], by simp, by rw [hhw, hview₂, hview₁]; rfl⟩
  generalize hm₂ : (rpRead16 RP_ARG1L).final ((rpRead16 RP_ARG0L).final f.hw) = m₂ at hreads
  rcases hm with rfl | rfl
  all_goals
    simp only [rpConsoleIoHandleWrite, rpConsoleIoHandleRead, Prog.result_bind, Prog.final_bind, onHw,
      Prog.result_on, Prog.final_on, Prog.final_modify, hlen, hm₂, Prog.result_ite, Prog.final_ite,
      Prog.result_pure, Prog.final_pure]
    by_cases hzero : f.hw.view.peek16 RP_ARG1L = 0
  · rw [if_pos hzero, if_pos hzero]
    refine .inl ⟨hzero, rfl, Answers.of_same ?_ (answers_setDone 0 0 _)⟩
    exact hreads _ rfl rfl
  · rw [if_neg hzero, if_neg hzero]
    exact .inr ⟨hzero, .inl rfl, hreads _ rfl rfl⟩
  · rw [if_pos hzero, if_pos hzero]
    refine .inl ⟨hzero, rfl, Answers.of_same ?_ (answers_setDone 0 0 _)⟩
    exact hreads _ rfl rfl
  · rw [if_neg hzero, if_neg hzero]
    exact .inr ⟨hzero, .inr rfl, hreads _ rfl rfl⟩

/-- The handler of a command, behind the clearing of the result fields. -/
theorem dispatchCommand_cases {ff : FatFs σ} (hread : ReadsAtMost ff) {f : Firmware σ} (hf : f.hw.Steady)
    (group cmd : UInt8) :
    let m := rpDispatchMailboxCommand ff group cmd
    (¬ (IsConsole group cmd ∧ f.hw.view.peek16 RP_ARG1L ≠ 0) ∧ m.result f = .mbDONE ∧
        Answers f (m.final f)) ∨
      (IsConsole group cmd ∧ f.hw.view.peek16 RP_ARG1L ≠ 0) ∧
        (m.result f = .mbWRITE ∨ m.result f = .mbREAD) ∧ Same f (m.final f) := by
  intro m
  have hclear := same_clearResultFields (σ := σ) f
  obtain ⟨-, -, harg1⟩ := clearResultFields_spec hf.settled
  have hhw : ((onHw rpMailboxClearResultFields).final f).hw = rpMailboxClearResultFields.final f.hw := by
    rw [onHw, Prog.final_on]
  rw [← hhw] at harg1
  rcases rpFindMailboxCommand_cases ff group cmd with ⟨hconsole, hfind⟩ | ⟨hother, hfind | hfind⟩
  · obtain ⟨handler, hhandler, hfind⟩ : ∃ handler,
        (handler = rpConsoleIoHandleWrite ∨ handler = rpConsoleIoHandleRead) ∧
          rpFindMailboxCommand ff group cmd = some handler := by
      rcases hfind with h | h
      · exact ⟨_, .inl rfl, h⟩
      · exact ⟨_, .inr rfl, h⟩
    simp only [m, rpDispatchMailboxCommand, hfind, Prog.result_bind, Prog.final_bind, hconsole, true_and]
    generalize (onHw rpMailboxClearResultFields).final f = g at hclear harg1 ⊢
    rcases handleConsole_cases hhandler (hclear hf).1 with ⟨hzero, hres, hanswers⟩ | ⟨hlong, hres, hsame⟩
    · exact .inl ⟨fun hne => hne (harg1.symm.trans hzero), hres, hanswers.of_same hclear⟩
    · exact .inr ⟨fun hzero => hlong (harg1.trans hzero), hres, trans_of Same hclear hsame⟩
  · refine .inl ⟨fun h => hother h.1, ?_⟩
    simp only [m, rpDispatchMailboxCommand, hfind, Prog.result_bind, Prog.final_bind]
    generalize (onHw rpMailboxClearResultFields).final f = g at hclear ⊢
    exact ⟨result_handleExec ff g, Answers.of_same hclear (answers_handleExec hread g)⟩
  · refine .inl ⟨fun h => hother h.1, ?_⟩
    simp only [m, rpDispatchMailboxCommand, hfind, Prog.result_bind, Prog.final_bind, Prog.result_pure,
      Prog.final_pure]
    exact ⟨trivial, answers_setError _ _ f⟩

/-- What a dispatch leads to: an answer, or a transfer. -/
theorem dispatch_cases {ff : FatFs σ} (hread : ReadsAtMost ff) {f : Firmware σ} (hf : f.hw.Steady) :
    let f' := (rpMailboxDispatchCurrentRequest ff).final f
    let next := (rpMailboxDispatchCurrentRequest ff).result f
    f'.hw.Steady ∧
      ((¬ f.AsksTransfer ∧ next = .mbDONE ∧
          ∃ status, Answer status ∧ f'.exchange = f.exchange.dispatched.answered status) ∨
        f.AsksTransfer ∧ (next = .mbWRITE ∨ next = .mbREAD) ∧ f'.exchange = f.exchange.dispatched) := by
  obtain ⟨hgroup, hview₁, h₁⟩ := snoopRead6502MemoryLoc_spec hf.settled RP_GROUP
  obtain ⟨hcmd, hview₂, h₂⟩ := snoopRead6502MemoryLoc_spec h₁ RP_CMD
  rw [hview₁] at hcmd
  have hview := hview₂.trans hview₁
  have hsteady := hf.of_view h₂ hview
  simp only [rpMailboxDispatchCurrentRequest, Prog.result_bind, Prog.final_bind, onHw, Prog.result_on,
    Prog.final_on, emit, Prog.final_modify, hgroup, hcmd]
  generalize (snoopRead6502MemoryLoc RP_CMD).final _ = m₂ at hview hsteady ⊢
  generalize hg : Firmware.mk m₂ _ _ _ _ _ _ _ _ _ _ _ _ _ _ _ _ = g
  have hhw : g.hw = m₂ := by rw [← hg]
  have hexchange : g.exchange = f.exchange.dispatched := by
    rw [← hg]
    simp only [Firmware.exchange, Exchange.dispatched, hview]
    rw [List.countP_cons_of_pos rfl, List.countP_cons_of_neg Bool.false_ne_true]
  rw [← hhw] at hview hsteady
  rcases dispatchCommand_cases hread hsteady (f.hw.view.peek RP_GROUP) (f.hw.view.peek RP_CMD) with
    ⟨hshort, hres, hanswers⟩ | ⟨hlong, hres, hsame⟩
  · obtain ⟨hsteady', status, hstatus, heq⟩ := hanswers hsteady
    rw [hview] at hshort
    exact ⟨hsteady', .inl ⟨hshort, hres, status, hstatus, by rw [heq, hexchange]⟩⟩
  · obtain ⟨hsteady', heq⟩ := hsame hsteady
    rw [hview] at hlong
    exact ⟨hsteady', .inr ⟨hlong, hres, heq.trans hexchange⟩⟩

/-! ## Polls -/

/-- A console transfer is under way. -/
def Firmware.Transferring (f : Firmware σ) : Prop :=
  f.mailbox_state = .mbWRITE ∨ f.mailbox_state = .mbREAD

theorem Firmware.not_transferring {f : Firmware σ} (state : MailboxState) (hstate : f.mailbox_state = state)
    (hwrite : state ≠ .mbWRITE) (hread : state ≠ .mbREAD) : ¬ f.Transferring := by
  rw [Firmware.Transferring, hstate]
  exact not_or.2 ⟨hwrite, hread⟩

/-- The state machine looks at the triggers. -/
def Firmware.Looks (f : Firmware σ) : Prop := f.hw.gMMUIOTrigger = true ∨ 250 ≤ f.lCount

/-- The state machine completes a request in this turn. -/
def Firmware.CompletesNow (f : Firmware σ) : Prop :=
  match f.mailbox_state with
  | .mbIDLE => f.Looks ∧ f.exchange.Rings ∧ ¬ f.AsksTransfer
  | .mbWRITE => f.gConsoleRemaining = 0
  | .mbREAD => (rpConsoleInputBytes f.gConsoleLen.toNat).result f ≠ []
  | _ => False

/-- The turns until the state machine looks at the triggers at the latest. -/
def Firmware.patience (f : Firmware σ) : Nat :=
  if f.mailbox_state = .mbIDLE then 250 - f.lCount.toNat else 251

/-- What a turn of the state machine is for the exchange. -/
inductive Turn (f f' : Firmware σ) : Prop
  /-- It passes, and if there is something to find it comes closer to it. -/
  | pass (now : ¬ f.CompletesNow) (exchange : f'.exchange = f.exchange)
      (transferring : f'.Transferring ↔ f.Transferring)
      (patience : ¬ f.Transferring → f.exchange.Rings → f'.patience < f.patience)
  /-- It begins a transfer. -/
  | begin (now : ¬ f.CompletesNow) (free : ¬ f.Transferring) (rings : f.exchange.Rings)
      (exchange : f'.exchange = f.exchange.dispatched) (transferring : f'.Transferring)
  /-- It dispatches a request and completes it. -/
  | answer (now : f.CompletesNow) (free : ¬ f.Transferring) (rings : f.exchange.Rings)
      {status : UInt8} (hstatus : Answer status)
      (exchange : f'.exchange = f.exchange.dispatched.answered status)
      (transferring : ¬ f'.Transferring)
  /-- It completes a transfer. -/
  | finish (now : f.CompletesNow) (busy : f.Transferring) {status : UInt8} (hstatus : Answer status)
      (exchange : f'.exchange = f.exchange.answered status) (transferring : ¬ f'.Transferring)

/-- A turn of a WRITE answers when nothing remains. -/
theorem processWrite_exchange (f : Firmware σ) :
    (f.gConsoleRemaining ≠ 0 ∧ rpConsoleIoProcessWrite.result f = false ∧
        Same f (rpConsoleIoProcessWrite.final f) ∧
        (rpConsoleIoProcessWrite.final f).mailbox_state = f.mailbox_state) ∨
      f.gConsoleRemaining = 0 ∧ rpConsoleIoProcessWrite.result f = true ∧
        Answers f (rpConsoleIoProcessWrite.final f) := by
  by_cases hremaining : f.gConsoleRemaining ≠ 0
  · left
    have hread : Prog.Keeps Same (onHw (σ := σ) (snoopRead6502Memory f.gConsoleCurrent
        (consoleChunk f.gConsoleRemaining))) := same_onHw fun _ hm => (snoopRead6502Memory_spec hm _ _).2
    simp only [rpConsoleIoProcessWrite, Prog.result_bind, Prog.final_bind, Prog.result_get,
      Prog.final_get, if_pos hremaining, Prog.result_pure, Prog.final_pure, Prog.final_modify,
      final_outputBytes]
    refine ⟨hremaining, trivial, ?_, rfl⟩
    refine trans_of Same (hread f) ?_
    exact same_of_eq rfl rfl
  · right
    rw [not_not] at hremaining
    simp only [rpConsoleIoProcessWrite, Prog.result_bind, Prog.final_bind, Prog.result_get,
      Prog.final_get, hremaining, ne_eq, not_true_eq_false, if_false, Prog.result_pure, Prog.final_pure]
    exact ⟨trivial, trivial, answers_setDone _ _ f⟩

/-- A turn of a READ answers when there is input. -/
theorem processRead_exchange (f : Firmware σ) :
    ((rpConsoleInputBytes f.gConsoleLen.toNat).result f = [] ∧
        rpConsoleIoProcessRead.result f = false ∧ Same f (rpConsoleIoProcessRead.final f) ∧
        (rpConsoleIoProcessRead.final f).mailbox_state = f.mailbox_state) ∨
      (rpConsoleInputBytes f.gConsoleLen.toNat).result f ≠ [] ∧
        rpConsoleIoProcessRead.result f = true ∧ Answers f (rpConsoleIoProcessRead.final f) := by
  have hinput := same_inputBytes f.gConsoleLen.toNat f
  have hsilent := silent_inputBytes f.gConsoleLen.toNat f
  simp only [rpConsoleIoProcessRead, Prog.result_bind, Prog.final_bind, Prog.result_get, Prog.final_get,
    Prog.result_ite, Prog.final_ite, Prog.result_pure, Prog.final_pure]
  generalize (rpConsoleInputBytes f.gConsoleLen.toNat).result f = buffer
  generalize (rpConsoleInputBytes f.gConsoleLen.toNat).final f = g at hinput hsilent ⊢
  by_cases hempty : buffer = []
  · left
    rw [if_pos hempty, if_pos hempty]
    exact ⟨hempty, rfl, hinput, hsilent.mailbox_state⟩
  · right
    rw [if_neg hempty, if_neg hempty]
    have hwrite : Stores (snoopWrite6502Memory f.gConsoleTarget buffer) _ :=
      fun _ hm => snoopWrite6502Memory_spec hm f.gConsoleTarget buffer
    refine ⟨hempty, rfl, Answers.of_events (fun hf => ?_) ?_ (answers_setDone _ _ _)⟩
    · exact (hwrite.steady (hinput hf).1).1
    · exact hsilent.events

theorem completesNow_idle {f : Firmware σ} (hstate : f.mailbox_state = .mbIDLE) :
    f.CompletesNow ↔ f.Looks ∧ f.exchange.Rings ∧ ¬ f.AsksTransfer := by
  rw [Firmware.CompletesNow, hstate]

/-- What the poll of `mbIDLE` does. -/
theorem turn_pollIdle {ff : FatFs σ} (hread : ReadsAtMost ff) {f : Firmware σ} (hf : f.hw.Steady)
    (hstate : f.mailbox_state = .mbIDLE) :
    ((pollIdle ff).final f).hw.Steady ∧ Turn f ((pollIdle ff).final f) := by
  have hfree : ¬ f.Transferring := by
    rintro (h | h)
    · rw [hstate] at h
      cases h
    · rw [hstate] at h
      cases h
  obtain ⟨hpending, hview, hsettled⟩ := requestPending_spec (settled_acknowledge hf.settled)
  have hack : (Prog.final ackMMUIO f.hw).view = f.hw.view := rfl
  rw [hack] at hpending hview
  have hsteady := hf.of_view hsettled hview
  simp only [pollIdle, Prog.final_bind, Prog.result_get, Prog.final_get, Prog.final_ite,
    Prog.final_modify, Prog.final_pure, onHw, Prog.final_on, Prog.result_on, hpending]
  generalize requestPending.final (Prog.final ackMMUIO f.hw) = m at hview hsteady ⊢
  split
  · rename_i hquiet
    have hlooks : ¬ f.Looks := by
      rintro (h | h)
      · rw [hquiet.1] at h
        cases h
      · exact UInt16.not_lt.2 h hquiet.2
    refine ⟨hf, .pass (fun h => hlooks ((completesNow_idle hstate).1 h).1) rfl Iff.rfl fun _ _ => ?_⟩
    have hcount : f.lCount.toNat < 250 := hquiet.2
    have hnext : (f.lCount + 1).toNat = f.lCount.toNat + 1 := by
      rw [UInt16.toNat_add]
      exact Nat.mod_eq_of_lt (show f.lCount.toNat + 1 < 2 ^ 16 by omega)
    simp only [Firmware.patience, hstate, if_true, hnext]
    omega
  rename_i hlooks
  replace hlooks : f.Looks := by
    by_contra h
    rw [Firmware.Looks, not_or, UInt16.not_le, Bool.not_eq_true] at h
    exact hlooks h
  generalize hg : Firmware.mk m _ _ _ _ _ _ _ _ _ _ _ _ _ _ _ _ = g
  have hhw : g.hw = m := by rw [← hg]
  have hexchange : g.exchange = f.exchange := by
    rw [← hg, Firmware.exchange, Firmware.exchange, hview]
  have hasks : g.AsksTransfer ↔ f.AsksTransfer := by
    rw [Firmware.AsksTransfer, Firmware.AsksTransfer, hhw, hview]
  rw [← hhw] at hsteady
  split
  · rename_i hrings
    replace hrings : f.exchange.Rings := of_decide_eq_true hrings
    obtain ⟨hsteady', hcases⟩ := dispatch_cases hread hsteady
    rw [hasks, hexchange] at hcases
    rcases hcases with ⟨hshort, hnext, status, hstatus, heq⟩ | ⟨hlong, hnext, heq⟩
    · refine ⟨hsteady', .answer ((completesNow_idle hstate).2 ⟨hlooks, hrings, hshort⟩) hfree hrings
        hstatus heq ?_⟩
      rintro (h | h)
      · cases hnext.symm.trans h
      · cases hnext.symm.trans h
    · refine ⟨hsteady', .begin (fun h => ((completesNow_idle hstate).1 h).2.2 hlong) hfree hrings heq ?_⟩
      exact hnext
  · rename_i hrings
    replace hrings : ¬ f.exchange.Rings := fun h => hrings (decide_eq_true h)
    refine ⟨hsteady, .pass (fun h => hrings ((completesNow_idle hstate).1 h).2.1) hexchange ?_
      fun _ h => absurd h hrings⟩
    rw [← hg]
    exact Iff.rfl

/-- What a turn of the state machine does. -/
theorem turn_mailboxFsm {ff : FatFs σ} (hread : ReadsAtMost ff) {f : Firmware σ} (hf : f.hw.Steady) :
    ((mailboxFsm ff).final f).hw.Steady ∧ Turn f ((mailboxFsm ff).final f) := by
  simp only [mailboxFsm, Prog.final_bind, Prog.result_get, Prog.final_get]
  -- `mbINIT` and `mbDONE` go on to `mbIDLE`, which looks before its patience of 250 turns ends.
  have hidle : f.mailbox_state = .mbINIT ∨ f.mailbox_state = .mbDONE →
      Turn f { f with mailbox_state := .mbIDLE } := by
    intro hstate
    have hfree : ¬ f.Transferring := by
      rcases hstate with hstate | hstate
      · exact Firmware.not_transferring _ hstate (by decide) (by decide)
      · exact Firmware.not_transferring _ hstate (by decide) (by decide)
    refine .pass ?_ rfl (iff_of_false (Firmware.not_transferring .mbIDLE rfl (by decide) (by decide)) hfree) fun _ _ => ?_
    · rcases hstate with hstate | hstate
      · rw [Firmware.CompletesNow, hstate]
        exact id
      · rw [Firmware.CompletesNow, hstate]
        exact id
    · have hwaits : f.patience = 251 := by
        rw [Firmware.patience, if_neg]
        rcases hstate with hstate | hstate
        · rw [hstate]
          decide
        · rw [hstate]
          decide
      rw [hwaits, Firmware.patience, if_pos rfl]
      omega
  rcases hstate : f.mailbox_state
  · exact ⟨hf, hidle (.inl hstate)⟩
  · exact turn_pollIdle hread hf hstate
  · have hbusy : f.Transferring := .inl hstate
    simp only [Prog.final_bind, Prog.final_ite, Prog.final_modify, Prog.final_pure]
    rcases processWrite_exchange f with ⟨hremaining, hres, hsame, hkept⟩ | ⟨hremaining, hres, hanswers⟩
    · obtain ⟨hsteady, heq⟩ := hsame hf
      rw [hres, if_neg Bool.false_ne_true]
      refine ⟨hsteady, .pass ?_ heq ?_ fun h => absurd hbusy h⟩
      · rw [Firmware.CompletesNow, hstate]
        exact hremaining
      · rw [Firmware.Transferring, hkept]
        exact Iff.rfl
    · obtain ⟨hsteady, status, hstatus, heq⟩ := hanswers hf
      rw [hres, if_pos rfl]
      refine ⟨hsteady, .finish ?_ hbusy hstatus heq (Firmware.not_transferring .mbDONE rfl (by decide) (by decide))⟩
      rw [Firmware.CompletesNow, hstate]
      exact hremaining
  · have hbusy : f.Transferring := .inr hstate
    simp only [Prog.final_bind, Prog.final_ite, Prog.final_modify, Prog.final_pure]
    rcases processRead_exchange f with ⟨hempty, hres, hsame, hkept⟩ | ⟨hinput, hres, hanswers⟩
    · obtain ⟨hsteady, heq⟩ := hsame hf
      rw [hres, if_neg Bool.false_ne_true]
      refine ⟨hsteady, .pass ?_ heq ?_ fun h => absurd hbusy h⟩
      · rw [Firmware.CompletesNow, hstate]
        exact not_not.2 hempty
      · rw [Firmware.Transferring, hkept]
        exact Iff.rfl
    · obtain ⟨hsteady, status, hstatus, heq⟩ := hanswers hf
      rw [hres, if_pos rfl]
      refine ⟨hsteady, .finish ?_ hbusy hstatus heq (Firmware.not_transferring .mbDONE rfl (by decide) (by decide))⟩
      rw [Firmware.CompletesNow, hstate]
      exact hinput
  · exact ⟨hf, hidle (.inr hstate)⟩

/-- A poll is a turn behind the update of `RP_CONSOLE_RDY`, which the exchange does not see. -/
theorem turn_taskMailbox {ff : FatFs σ} (hread : ReadsAtMost ff) {f : Firmware σ} (hf : f.hw.Steady) :
    ∃ f₁, f₁ = updateConsoleReady.final f ∧ f₁.exchange = f.exchange ∧
      (f₁.Transferring ↔ f.Transferring) ∧ f₁.patience = f.patience ∧
      ((taskMailbox ff).final f).hw.Steady ∧ Turn f₁ ((taskMailbox ff).final f) := by
  obtain ⟨hsteady, heq⟩ := same_updateConsoleReady f hf
  obtain ⟨m, last, -, hfin⟩ := updateConsoleReady_spec f
  refine ⟨_, rfl, heq, ?_, ?_, turn_mailboxFsm hread hsteady⟩
  · rw [hfin]
    exact Iff.rfl
  · rw [hfin]
    rfl

/-! ## The client -/

/-- Which trigger a client writes first. -/
inductive TriggerOrder
  | statusFirst
  | doorbellFirst
  deriving DecidableEq, Repr

/-- Where the client is with its request. -/
inductive ClientPhase
  /-- It waits until `RP_STATUS` is not `RP_BUSY`. -/
  | resting
  /-- It writes the request fields. -/
  | preparing
  /-- It has written one of the triggers. -/
  | posting
  /-- It has written both and waits for `RP_DONE` or `RP_ERROR`. -/
  | waiting
  deriving DecidableEq, Repr

/-- The firmware and its client, how many requests the client has begun to post, and whether the
completion of the last poll has still to clear the doorbell. -/
structure Conversation (σ : Type) where
  firmware : Firmware σ
  phase : ClientPhase
  posts : Nat
  clearing : Bool

/-- What happens between the firmware and its client, in any order. A byte that the client writes inside
of a poll is one it writes before the poll or after it, except between the last two writes of a
completion: those have `clear` behind them. -/
inductive TalkStep
  /-- `taskMailbox()` runs. -/
  | poll
  /-- The last poll clears the doorbell after what the client did since it set the status. -/
  | clear
  /-- The client reads `RP_STATUS`. -/
  | look
  /-- The memory changes, but not the triggers: the client writes its fields. -/
  | memory (ram : UInt8 × UInt16 → UInt8)
  /-- The client writes its next trigger. -/
  | trigger
  /-- An access to the IO page raises the interrupt, or another task acknowledges it. -/
  | mmuio (raised : Bool)
  /-- Console input arrives. -/
  | input (c : UInt8)

/-- The step is a poll. -/
def TalkStep.isPoll : TalkStep → Bool
  | .poll => true
  | _ => false

/-- A byte written by the 6502. -/
def Firmware.poke (f : Firmware σ) (a : UInt16) (b : UInt8) : Firmware σ := { f with hw := f.hw.poke a b }

/-- The client's first trigger. -/
def TriggerOrder.first (order : TriggerOrder) (f : Firmware σ) : Firmware σ :=
  match order with
  | .statusFirst => f.poke RP_STATUS RP_BUSY
  | .doorbellFirst => f.poke RP_DOORBELL 1

/-- The client's second trigger. -/
def TriggerOrder.second (order : TriggerOrder) (f : Firmware σ) : Firmware σ :=
  match order with
  | .statusFirst => f.poke RP_DOORBELL 1
  | .doorbellFirst => f.poke RP_STATUS RP_BUSY

/-- The memory with the triggers of the board kept. -/
def Machine.keepTriggers (m : Machine) (ram : UInt8 × UInt16 → UInt8) : UInt8 × UInt16 → UInt8 :=
  Function.update (Function.update ram (m.view.physAddr RP_STATUS) (m.view.peek RP_STATUS))
    (m.view.physAddr RP_DOORBELL) (m.view.peek RP_DOORBELL)

/-- One step of the conversation. -/
def Conversation.step (ff : FatFs σ) (order : TriggerOrder) (c : Conversation σ) :
    TalkStep → Conversation σ
  | .poll =>
    let f := (taskMailbox ff).final c.firmware
    { c with firmware := f, clearing := decide (c.firmware.exchange.results < f.exchange.results) }
  | .clear =>
    if c.clearing then
      { c with firmware := c.firmware.poke RP_DOORBELL RP_DOORBELL_NONE, clearing := false }
    else c
  | .look =>
    let status := c.firmware.exchange.status
    if c.phase = .resting ∧ status ≠ RP_BUSY then { c with phase := .preparing }
    else if c.phase = .waiting ∧ (status = RP_DONE ∨ status = RP_ERROR) then { c with phase := .resting }
    else c
  | .memory ram => { c with firmware := { c.firmware with
      hw := { c.firmware.hw with ram := c.firmware.hw.keepTriggers ram } } }
  | .trigger =>
    match c.phase with
    | .preparing =>
      { c with firmware := order.first c.firmware, phase := .posting, posts := c.posts + 1 }
    | .posting => { c with firmware := order.second c.firmware, phase := .waiting }
    | _ => c
  | .mmuio raised => { c with firmware := { c.firmware with
      hw := { c.firmware.hw with gMMUIOTrigger := raised } } }
  | .input b => { c with firmware := (writeCPUQ b).final c.firmware }

/-! ## Exactly once -/

/-- Every request whose client has seen its end has been dispatched once, the last one once or not yet,
and nothing but the requests before it has been completed while it is not dispatched. -/
structure Conversation.ExactlyOnce (c : Conversation σ) : Prop where
  atMost : c.firmware.exchange.dispatches ≤ c.posts
  atLeast : c.posts ≤ c.firmware.exchange.dispatches + 1
  ended : c.phase = .resting ∨ c.phase = .preparing → c.firmware.exchange.dispatches = c.posts
  completed : c.firmware.exchange.dispatches < c.posts → c.firmware.exchange.results + 1 = c.posts

/-- No poll completes a request between the two triggers of its client. -/
def Conversation.Meets (c : Conversation σ) : TalkStep → Prop
  | .poll => c.phase = .posting → ¬ (updateConsoleReady.final c.firmware).CompletesNow
  | _ => True

/-- Every request has been dispatched and completed. -/
structure Exchange.Even (x : Exchange) (posts : Nat) (busy : Prop) : Prop where
  dispatches : x.dispatches = posts
  results : x.results = posts
  free : ¬ busy
  status : x.status ≠ RP_BUSY
  doorbell : x.doorbell = RP_DOORBELL_NONE

/-- The last request has not been completed. -/
structure Exchange.Open (x : Exchange) (posts : Nat) (busy : Prop) : Prop where
  results : x.results + 1 = posts
  dispatches : x.dispatches + 1 = posts ∧ ¬ busy ∨ x.dispatches = posts ∧ busy

/-- How the exchange stands in a phase of the client. -/
def ClientPhase.Fits (order : TriggerOrder) (x : Exchange) (posts : Nat) (busy : Prop) :
    ClientPhase → Prop
  | .resting | .preparing => x.Even posts busy
  | .posting => x.Open posts busy ∧ (order = .statusFirst → x.status = RP_BUSY)
  | .waiting => x.Even posts busy ∨ x.Open posts busy ∧ x.status = RP_BUSY

/-- The board is steady and the exchange stands as the client expects. -/
structure Conversation.Sound (order : TriggerOrder) (c : Conversation σ) : Prop where
  steady : c.firmware.hw.Steady
  fits : c.phase.Fits order c.firmware.exchange c.posts c.firmware.Transferring

namespace Exchange

variable {x : Exchange} {n : Nat} {busy : Prop}

theorem Even.not_rings (h : x.Even n busy) : ¬ x.Rings := by
  rintro (hdoorbell | hstatus)
  · exact hdoorbell h.doorbell
  · exact h.status hstatus

theorem Open.dispatched_of_free (h : x.Open n busy) (hfree : ¬ busy) {busy' : Prop} (hbusy' : busy') :
    x.dispatched.Open n busy' := by
  rcases h.dispatches with ⟨hd, -⟩ | ⟨-, hbusy⟩
  · exact ⟨h.results, .inr ⟨hd, hbusy'⟩⟩
  · exact absurd hbusy hfree

/-- The end of the last request. -/
theorem Even.of_answered {status : UInt8} (hstatus : Answer status) (hresults : x.results + 1 = n)
    (hdispatches : x.dispatches = n) (hfree : ¬ busy) : (x.answered status).Even n busy := by
  refine ⟨hdispatches, hresults, hfree, ?_, rfl⟩
  show status ≠ RP_BUSY
  rcases hstatus with rfl | rfl
  · decide
  · decide

end Exchange

theorem ClientPhase.Fits.congr {order : TriggerOrder} {x : Exchange} {n : Nat} {busy busy' : Prop}
    {phase : ClientPhase} (h : phase.Fits order x n busy) (hbusy : busy' ↔ busy) :
    phase.Fits order x n busy' := by
  rw [propext hbusy]
  exact h

/-- Every state of the client satisfies the property. -/
theorem Conversation.Sound.exactlyOnce {order : TriggerOrder} {c : Conversation σ} (h : c.Sound order) :
    c.ExactlyOnce := by
  have hfits := h.fits
  have heven : c.firmware.exchange.Even c.posts c.firmware.Transferring → c.ExactlyOnce := fun he =>
    ⟨he.dispatches.le, by rw [he.dispatches]; omega, fun _ => he.dispatches,
      fun hlt => absurd he.dispatches hlt.ne⟩
  have hopen : ¬ (c.phase = .resting ∨ c.phase = .preparing) →
      c.firmware.exchange.Open c.posts c.firmware.Transferring → c.ExactlyOnce := fun hphase ho => by
    refine ⟨?_, ?_, fun hended => absurd hended hphase, fun _ => ho.results⟩
    · rcases ho.dispatches with ⟨hd, -⟩ | ⟨hd, -⟩
      · omega
      · omega
    · rcases ho.dispatches with ⟨hd, -⟩ | ⟨hd, -⟩
      · omega
      · omega
  rcases hphase : c.phase
  · rw [hphase] at hfits
    exact heven hfits
  · rw [hphase] at hfits
    exact heven hfits
  · rw [hphase] at hfits hopen
    exact hopen (fun h => h.elim nofun nofun) hfits.1
  · rw [hphase] at hfits hopen
    rcases hfits with he | ⟨ho, -⟩
    · exact heven he
    · exact hopen (fun h => h.elim nofun nofun) ho

/-- A poll keeps the client's expectation. -/
theorem Conversation.Sound.poll {ff : FatFs σ} (hread : ReadsAtMost ff) {order : TriggerOrder}
    {c : Conversation σ} (h : c.Sound order) (hmeets : c.Meets .poll) :
    (c.step ff order .poll).Sound order := by
  obtain ⟨f₁, hf₁, heq, htransferring, -, hsteady, hturn⟩ := turn_taskMailbox hread h.steady
  have hfits : c.phase.Fits order f₁.exchange c.posts f₁.Transferring := by
    rw [heq]
    exact h.fits.congr htransferring
  have hmeets : c.phase = .posting → ¬ f₁.CompletesNow := hf₁ ▸ hmeets
  refine ⟨hsteady, ?_⟩
  show c.phase.Fits order ((taskMailbox ff).final c.firmware).exchange c.posts
    ((taskMailbox ff).final c.firmware).Transferring
  generalize (taskMailbox ff).final c.firmware = f' at hturn
  generalize c.phase = phase at hfits hmeets
  have heven : f₁.exchange.Even c.posts f₁.Transferring → f'.exchange.Even c.posts f'.Transferring := by
    intro he
    rcases hturn with ⟨-, hsame, htr, -⟩ | ⟨-, -, hrings, -, -⟩ | ⟨-, -, hrings, -, -, -⟩ |
      ⟨-, hbusy, -, -, -⟩
    · rw [hsame, propext htr]
      exact he
    · exact absurd hrings he.not_rings
    · exact absurd hrings he.not_rings
    · exact absurd hbusy he.free
  -- An unfinished request is finished by the polls that complete one, and by no other.
  have hopen : f₁.exchange.Open c.posts f₁.Transferring →
      (¬ f₁.CompletesNow → f'.exchange.Open c.posts f'.Transferring ∧
        f'.exchange.status = f₁.exchange.status) ∧
      (f₁.CompletesNow → f'.exchange.Even c.posts f'.Transferring) := by
    intro ho
    rcases hturn with ⟨hnow, hsame, htr, -⟩ | ⟨hnow, hfree, hrings, hd, htr⟩ |
      ⟨hnow, hfree, -, hstatus, ha, htr⟩ | ⟨hnow, hbusy, hstatus, ha, htr⟩
    · rw [hsame, propext htr]
      exact ⟨fun _ => ⟨ho, rfl⟩, fun h => absurd h hnow⟩
    · rw [hd]
      exact ⟨fun _ => ⟨ho.dispatched_of_free hfree htr, rfl⟩, fun h => absurd h hnow⟩
    · rw [ha]
      refine ⟨fun h => absurd hnow h, fun _ => .of_answered hstatus ho.results ?_ htr⟩
      rcases ho.dispatches with ⟨hd, -⟩ | ⟨-, hbusy⟩
      · exact hd
      · exact absurd hbusy hfree
    · rw [ha]
      refine ⟨fun h => absurd hnow h, fun _ => .of_answered hstatus ho.results ?_ htr⟩
      rcases ho.dispatches with ⟨-, hfree⟩ | ⟨hd, -⟩
      · exact absurd hbusy hfree
      · exact hd
  cases phase with
  | resting => exact heven hfits
  | preparing => exact heven hfits
  | posting =>
    obtain ⟨ho, hstatus⟩ := hfits
    obtain ⟨hgoes, -⟩ := hopen ho
    obtain ⟨ho', hkept⟩ := hgoes (hmeets rfl)
    exact ⟨ho', fun h => hkept.trans (hstatus h)⟩
  | waiting =>
    rcases hfits with he | ⟨ho, hstatus⟩
    · exact .inl (heven he)
    · obtain ⟨hgoes, hends⟩ := hopen ho
      by_cases hnow : f₁.CompletesNow
      · exact .inl (hends hnow)
      · obtain ⟨ho', hkept⟩ := hgoes hnow
        exact .inr ⟨ho', hkept.trans hstatus⟩

/-- A board that differs in its memory and in the interrupt is as steady as before. -/
theorem Machine.Steady.withMemory {m : Machine} (hm : m.Steady) (ram : UInt8 × UInt16 → UInt8)
    (raised : Bool) : { m with ram := ram, gMMUIOTrigger := raised }.Steady :=
  ⟨⟨hm.settled.started, hm.settled.rpi, hm.settled.reset, hm.settled.cached⟩, hm.selected⟩

theorem exchange_poke_status (f : Firmware σ) (b : UInt8) :
    (f.poke RP_STATUS b).exchange = { f.exchange with status := b } := by
  simp only [Firmware.exchange, Firmware.poke, Machine.view_poke, Machine.View.peek_poke_self]
  rw [Machine.View.peek_poke_of_ne _ _ (by decide)]

theorem exchange_poke_doorbell (f : Firmware σ) (b : UInt8) :
    (f.poke RP_DOORBELL b).exchange = { f.exchange with doorbell := b } := by
  simp only [Firmware.exchange, Firmware.poke, Machine.view_poke, Machine.View.peek_poke_self]
  rw [Machine.View.peek_poke_of_ne _ _ (by decide)]

theorem exchange_memory (f : Firmware σ) (ram : UInt8 × UInt16 → UInt8) :
    Firmware.exchange { f with hw := { f.hw with ram := f.hw.keepTriggers ram } } = f.exchange := by
  have hcells : f.hw.view.physAddr RP_STATUS ≠ f.hw.view.physAddr RP_DOORBELL := fun h =>
    absurd (congrArg Prod.snd h) (show RP_STATUS &&& 0x0FFF ≠ RP_DOORBELL &&& 0x0FFF by decide)
  simp only [Firmware.exchange]
  congr 1
  · refine (Function.update_of_ne hcells _ _).trans ?_
    exact Function.update_self _ _ _
  · exact Function.update_self _ _ _

namespace Conversation

variable {order : TriggerOrder} {c : Conversation σ}

theorem Sound.clear (ff : FatFs σ) (h : c.Sound order) : (c.step ff order .clear).Sound order := by
  simp only [step]
  split
  · refine ⟨h.steady.withMemory _ _, ?_⟩
    have hfits := h.fits
    show c.phase.Fits order (c.firmware.poke RP_DOORBELL RP_DOORBELL_NONE).exchange c.posts
      c.firmware.Transferring
    rw [exchange_poke_doorbell]
    generalize c.phase = phase at hfits ⊢
    have heven : c.firmware.exchange.Even c.posts c.firmware.Transferring →
        Exchange.Even { c.firmware.exchange with doorbell := RP_DOORBELL_NONE } c.posts
          c.firmware.Transferring := fun he => ⟨he.dispatches, he.results, he.free, he.status, rfl⟩
    cases phase with
    | resting => exact heven hfits
    | preparing => exact heven hfits
    | posting => exact ⟨⟨hfits.1.results, hfits.1.dispatches⟩, hfits.2⟩
    | waiting =>
      rcases hfits with he | ⟨ho, hstatus⟩
      · exact .inl (heven he)
      · exact .inr ⟨⟨ho.results, ho.dispatches⟩, hstatus⟩
  · exact h

theorem Sound.look (ff : FatFs σ) (h : c.Sound order) : (c.step ff order .look).Sound order := by
  have hfits := h.fits
  simp only [step]
  split
  · rename_i hresting
    rw [hresting.1] at hfits
    exact ⟨h.steady, hfits⟩
  split
  · rename_i hanswer
    rw [hanswer.1] at hfits
    refine ⟨h.steady, ?_⟩
    rcases hfits with he | ⟨-, hstatus⟩
    · exact he
    · rw [hstatus] at hanswer
      exact absurd hanswer.2 (by decide)
  · exact h

/-- The first trigger opens a request, the second one leaves it open with `RP_BUSY` standing. -/
theorem Sound.trigger (ff : FatFs σ) (h : c.Sound order) : (c.step ff order .trigger).Sound order := by
  have hfits := h.fits
  simp only [step]
  split
  · rename_i hphase
    rw [hphase] at hfits
    obtain ⟨hdispatches, hresults, hfree, -, -⟩ := hfits
    cases order with
    | statusFirst =>
      refine ⟨h.steady.withMemory _ _, ?_⟩
      show ClientPhase.Fits _ (c.firmware.poke RP_STATUS RP_BUSY).exchange _ c.firmware.Transferring _
      rw [exchange_poke_status]
      exact ⟨⟨congrArg (· + 1) hresults, .inl ⟨congrArg (· + 1) hdispatches, hfree⟩⟩, fun _ => rfl⟩
    | doorbellFirst =>
      refine ⟨h.steady.withMemory _ _, ?_⟩
      show ClientPhase.Fits _ (c.firmware.poke RP_DOORBELL 1).exchange _ c.firmware.Transferring _
      rw [exchange_poke_doorbell]
      exact ⟨⟨congrArg (· + 1) hresults, .inl ⟨congrArg (· + 1) hdispatches, hfree⟩⟩, nofun⟩
  · rename_i hphase
    rw [hphase] at hfits
    obtain ⟨ho, hstatus⟩ := hfits
    cases order with
    | statusFirst =>
      refine ⟨h.steady.withMemory _ _, .inr ?_⟩
      show Exchange.Open (c.firmware.poke RP_DOORBELL 1).exchange _ c.firmware.Transferring ∧
        (c.firmware.poke RP_DOORBELL 1).exchange.status = RP_BUSY
      rw [exchange_poke_doorbell]
      exact ⟨⟨ho.results, ho.dispatches⟩, hstatus rfl⟩
    | doorbellFirst =>
      refine ⟨h.steady.withMemory _ _, .inr ?_⟩
      show Exchange.Open (c.firmware.poke RP_STATUS RP_BUSY).exchange _ c.firmware.Transferring ∧
        (c.firmware.poke RP_STATUS RP_BUSY).exchange.status = RP_BUSY
      rw [exchange_poke_status]
      exact ⟨⟨ho.results, ho.dispatches⟩, rfl⟩
  · exact h

/-- What neither the triggers nor the trace see. -/
theorem Sound.of_exchange (h : c.Sound order) {f : Firmware σ} (hsteady : f.hw.Steady)
    (hexchange : f.exchange = c.firmware.exchange) (hstate : f.mailbox_state = c.firmware.mailbox_state) :
    Sound order { c with firmware := f } := by
  refine ⟨hsteady, ?_⟩
  show c.phase.Fits order f.exchange c.posts f.Transferring
  rw [hexchange]
  refine h.fits.congr ?_
  rw [Firmware.Transferring, hstate]
  exact Iff.rfl

/-- Every step that meets its condition keeps the client's expectation. -/
theorem Sound.step {ff : FatFs σ} (hread : ReadsAtMost ff) {l : TalkStep} (h : c.Sound order)
    (hmeets : c.Meets l) : (c.step ff order l).Sound order := by
  cases l with
  | poll => exact h.poll hread hmeets
  | clear => exact h.clear ff
  | look => exact h.look ff
  | memory ram =>
    exact h.of_exchange (h.steady.withMemory _ _) (exchange_memory c.firmware ram) rfl
  | trigger => exact h.trigger ff
  | mmuio raised => exact h.of_exchange (h.steady.withMemory _ _) rfl rfl
  | input b =>
    obtain ⟨q, hq⟩ := final_writeCPUQ b c.firmware
    have hstep : c.step ff order (.input b) =
        { c with firmware := { c.firmware with cpu_tx_fifo := q } } := by
      rw [Conversation.step, hq]
    rw [hstep]
    exact h.of_exchange h.steady rfl rfl

/-! ## Runs -/

/-- While a request waits for its dispatch, a step dispatches it or leaves the client waiting, a poll
with less patience than before. -/
theorem Sound.waits {ff : FatFs σ} (hread : ReadsAtMost ff) (h : c.Sound order)
    (hphase : c.phase = .waiting) (hlate : c.firmware.exchange.dispatches ≠ c.posts) (l : TalkStep) :
    let c' := c.step ff order l
    c'.posts = c.posts ∧ (c'.firmware.exchange.dispatches = c.posts ∨
      c'.phase = .waiting ∧ c'.firmware.patience + [l].countP TalkStep.isPoll ≤ c.firmware.patience) := by
  intro c'
  have hfits := h.fits
  rw [hphase] at hfits
  rcases hfits with he | ⟨ho, hstatus⟩
  · exact absurd he.dispatches hlate
  obtain ⟨hdispatches, hfree⟩ := ho.dispatches.resolve_right fun h => hlate h.1
  cases l with
  | poll =>
    refine ⟨rfl, ?_⟩
    obtain ⟨f₁, -, heq, htransferring, hpatience, -, hturn⟩ := turn_taskMailbox hread h.steady
    show ((taskMailbox ff).final c.firmware).exchange.dispatches = c.posts ∨
      c.phase = .waiting ∧ ((taskMailbox ff).final c.firmware).patience + 1 ≤ c.firmware.patience
    generalize (taskMailbox ff).final c.firmware = f' at hturn
    rw [← heq] at hdispatches hstatus
    rw [← htransferring] at hfree
    rcases hturn with ⟨-, -, -, hless⟩ | ⟨-, -, -, hd, -⟩ | ⟨-, -, -, -, ha, -⟩ | ⟨-, hbusy, -, -, -⟩
    · refine .inr ⟨hphase, ?_⟩
      rw [← hpatience]
      exact hless hfree (.inr hstatus)
    · left
      rw [hd]
      exact hdispatches
    · left
      rw [ha]
      exact hdispatches
    · exact absurd hbusy hfree
  | clear =>
    simp only [c', Conversation.step]
    split
    · exact ⟨rfl, .inr ⟨hphase, le_rfl⟩⟩
    · exact ⟨rfl, .inr ⟨hphase, le_rfl⟩⟩
  | look =>
    have hstep : c' = c := by
      simp only [c', Conversation.step, hphase, hstatus]
      rfl
    rw [hstep]
    exact ⟨rfl, .inr ⟨hphase, le_rfl⟩⟩
  | memory ram => exact ⟨rfl, .inr ⟨hphase, le_rfl⟩⟩
  | trigger =>
    have hstep : c' = c := by simp only [c', Conversation.step, hphase]
    rw [hstep]
    exact ⟨rfl, .inr ⟨hphase, le_rfl⟩⟩
  | mmuio raised => exact ⟨rfl, .inr ⟨hphase, le_rfl⟩⟩
  | input b =>
    obtain ⟨q, hq⟩ := final_writeCPUQ b c.firmware
    refine ⟨rfl, .inr ⟨hphase, ?_⟩⟩
    show ((writeCPUQ b).final c.firmware).patience ≤ c.firmware.patience
    rw [hq]
    exact le_rfl

/-- A waiting request is dispatched before the patience of the state machine ends, whatever else happens
between the polls. -/
theorem Sound.dispatched {ff : FatFs σ} (hread : ReadsAtMost ff) (h : c.Sound order)
    (hphase : c.phase = .waiting) {later : List TalkStep}
    (hpolls : c.firmware.patience < later.countP TalkStep.isPoll) :
    ∃ soon, soon <+: later ∧ (soon.foldl (Conversation.step ff order) c).posts = c.posts ∧
      (soon.foldl (Conversation.step ff order) c).firmware.exchange.dispatches = c.posts := by
  induction later generalizing c with
  | nil => exact absurd hpolls (Nat.not_lt_zero _)
  | cons l later ih =>
    by_cases hlate : c.firmware.exchange.dispatches = c.posts
    · exact ⟨[], List.nil_prefix, rfl, hlate⟩
    obtain ⟨hposts, hnext⟩ := h.waits hread hphase hlate l
    rcases hnext with hdispatches | ⟨hphase', hpatience⟩
    · exact ⟨[l], List.prefix_append [l] later, hposts, hdispatches⟩
    have hmeets : c.Meets l := by
      cases l with
      | poll =>
        intro hposting
        rw [hphase] at hposting
        cases hposting
      | _ => trivial
    rw [List.countP_cons, ← List.countP_singleton] at hpolls
    obtain ⟨soon, hsoon, hposts', hdispatches⟩ := ih (h.step hread hmeets) hphase' (by omega)
    rw [hposts] at hposts' hdispatches
    exact ⟨l :: soon, (List.prefix_cons_inj l).2 hsoon, hposts', hdispatches⟩

end Conversation

/-- Nothing is outstanding: no trigger is set, and no transfer is under way. -/
structure Firmware.Quiet (f : Firmware σ) : Prop where
  steady : f.hw.Steady
  even : f.exchange.Even f.exchange.dispatches f.Transferring

theorem stores_clearBlock : ∃ ws, Stores clearBlock
    ((RP_DOORBELL, RP_DOORBELL_NONE) :: (RP_GROUP, RP_GROUP_NONE) :: (RP_CMD, RP_CON_CMD_NONE) ::
      (RP_STATUS, RP_IDLE) :: ws) ∧ ∀ w ∈ ws, Aside w.1 := by
  have hblock : Stores clearBlock _ :=
    (stores_snoopWrite RP_DOORBELL RP_DOORBELL_NONE).bind <|
      (stores_snoopWrite RP_GROUP RP_GROUP_NONE).bind <| (stores_snoopWrite RP_CMD RP_CON_CMD_NONE).bind <|
      (stores_snoopWrite RP_STATUS RP_IDLE).bind <| (stores_snoopWrite RP_ERR RP_ERR_OK).bind <|
      (stores_snoopWrite RP_FLAGS 0).bind <| (stores_snoopWrite RP_STATE 0).bind <|
      (stores_snoopWrite RP_ARG0L 0).bind <| (stores_snoopWrite RP_ARG0H 0).bind <|
      (stores_snoopWrite RP_ARG1L 0).bind <| (stores_snoopWrite RP_ARG1H 0).bind <|
      (stores_snoopWrite RP_ARG2L 0).bind <| (stores_snoopWrite RP_ARG2H 0).bind <|
      (stores_rpWrite16 RP_RES0L 0).bind (stores_rpWrite16 RP_RES1L 0)
  exact ⟨_, hblock, by decide⟩

/-- What a reset stores behind the block. -/
theorem stores_resetBoard {ws : List (UInt16 × UInt8)} (h : Stores clearBlock ws) : Stores (do
      clearBlock
      snoopWrite6502MemoryLoc RP_CONSOLE_RDY 0x00
      snoopWrite6502MemoryLoc RP_IRQ_SOURCE 0x00
      snoopWrite6502MemoryLoc RP_IRQ_STATE 0x00)
    (ws ++ ([(RP_CONSOLE_RDY, 0x00)] ++ ([(RP_IRQ_SOURCE, 0x00)] ++ [(RP_IRQ_STATE, 0x00)]))) :=
  h.bind <| (stores_snoopWrite RP_CONSOLE_RDY 0x00).bind <|
    (stores_snoopWrite RP_IRQ_SOURCE 0x00).bind (stores_snoopWrite RP_IRQ_STATE 0x00)

theorem settled_initMailbox (ff : FatFs σ) {f : Firmware σ} (hf : f.hw.Settled) :
    ((initMailbox ff).final f).hw.Settled := by
  obtain ⟨ws, hblock, -⟩ := stores_clearBlock
  rw [hw_initMailbox]
  exact (stores_resetBoard hblock f.hw hf).2

/-- An initialized mailbox has no trigger set. -/
theorem triggers_initMailbox (ff : FatFs σ) {f : Firmware σ} (hf : f.hw.Settled) :
    ((initMailbox ff).final f).exchange.status = RP_IDLE ∧
      ((initMailbox ff).final f).exchange.doorbell = RP_DOORBELL_NONE := by
  obtain ⟨ws, hblock, haside⟩ := stores_clearBlock
  obtain ⟨hview, -⟩ := stores_resetBoard hblock f.hw hf
  rw [← hw_initMailbox ff] at hview
  generalize (initMailbox ff).final f = f' at hview ⊢
  rw [← List.append_assoc, ← List.append_assoc, Machine.View.writes_append,
    Machine.View.writes_append, List.cons_append, List.cons_append, List.cons_append, List.cons_append] at hview
  simp only [Machine.View.writes_cons, Machine.View.writes_nil] at hview
  have hrest : ∀ w ∈ ws ++ [(RP_CONSOLE_RDY, 0x00)], Aside w.1 := by
    intro w hw
    rcases List.mem_append.1 hw with hw | hw
    · exact haside w hw
    · obtain rfl := List.mem_singleton.1 hw
      show Aside RP_CONSOLE_RDY
      decide
  constructor
  · show f'.hw.view.peek RP_STATUS = _
    rw [hview, Machine.View.peek_poke_of_ne _ _ (by decide),
      Machine.View.peek_poke_of_ne _ _ (by decide),
      Machine.View.peek_writes_of_ne _ fun w hw => (hrest w hw).1, Machine.View.peek_poke_self]
  · show f'.hw.view.peek RP_DOORBELL = _
    rw [hview, Machine.View.peek_poke_of_ne _ _ (by decide)]
    -- `RP_IRQ_SOURCE` may be the same cell, but it is cleared with the same byte.
    refine Machine.View.peek_poke_eq ?_
    rw [Machine.View.peek_writes_of_ne _ fun w hw => (hrest w hw).2,
      Machine.View.peek_poke_of_ne _ _ (by decide), Machine.View.peek_poke_of_ne _ _ (by decide),
      Machine.View.peek_poke_of_ne _ _ (by decide), Machine.View.peek_poke_self]
    rfl

/-- The mailbox is quiet when it has been initialized, unless a transfer is under way. -/
theorem quiet_initMailbox (ff : FatFs σ) {f : Firmware σ} (hf : f.hw.Steady) (hfree : ¬ f.Transferring)
    (heven : f.exchange.results = f.exchange.dispatches) : ((initMailbox ff).final f).Quiet := by
  obtain ⟨ws, hblock, -⟩ := stores_clearBlock
  obtain ⟨hsteady, -⟩ := (stores_resetBoard hblock).steady hf
  obtain ⟨hevents, hstate⟩ := initMailbox_spec ff f
  obtain ⟨hstatus, hdoorbell⟩ := triggers_initMailbox ff hf.settled
  rw [← hw_initMailbox ff] at hsteady
  generalize (initMailbox ff).final f = f' at hsteady hevents hstate hstatus hdoorbell ⊢
  refine ⟨hsteady, rfl, ?_, ?_, ?_, hdoorbell⟩
  · rw [Firmware.exchange, hevents]
    exact heven
  · rw [Firmware.Transferring, hstate]
    exact hfree
  · rw [hstatus]
    decide

/-- The client in front of its first request. -/
def Conversation.start (f : Firmware σ) : Conversation σ where
  firmware := f
  phase := .resting
  posts := f.exchange.dispatches
  clearing := false

/-- As long as no poll completes a request between the two triggers of its client, every request is
dispatched exactly once, and nothing is completed in its place: a client that waits for its request
sees it dispatched within the 252 polls that follow. -/
theorem request_dispatched_once (ff : FatFs σ) (hread : ReadsAtMost ff) (order : TriggerOrder)
    (f : Firmware σ) (hf : f.Quiet) (run : List TalkStep)
    (hmeets : Run.AtEveryStep (Conversation.step ff order) Conversation.Meets (.start f) run) :
    let c := run.foldl (Conversation.step ff order) (.start f)
    c.ExactlyOnce ∧ (c.phase = .waiting → ∀ later, 252 ≤ later.countP TalkStep.isPoll →
      ∃ soon, soon <+: later ∧ (soon.foldl (Conversation.step ff order) c).posts = c.posts ∧
        (soon.foldl (Conversation.step ff order) c).firmware.exchange.dispatches = c.posts) := by
  intro c
  have hsound : c.Sound order :=
    hmeets.invariant (fun _ _ h hm => h.step hread hm) ⟨hf.steady, hf.even⟩
  refine ⟨hsound.exactlyOnce, fun hphase later hpolls => hsound.dispatched hread hphase ?_⟩
  have hpatience : c.firmware.patience ≤ 251 := by
    rw [Firmware.patience]
    split
    · omega
    · exact le_rfl
  omega

/-- A quiet firmware about to look at the triggers, whose block asks for the status. -/
def idleFirmware : Firmware RamDisk :=
  { Firmware.start
      (.running fun cell => (List.lookup cell
        [((0x0B, 0x000), RP_GROUP_FS), ((0x0B, 0x001), RP_FS_CMD_EXEC),
         ((0x0B, 0x005), RP_FS_OP_STATUS), ((0x0B, 0x008), 1)]).getD 0)
      (RamDisk.mounted fun _ => none) with
    mailbox_state := .mbIDLE
    lCount := 250 }

theorem quiet_idleFirmware : idleFirmware.Quiet := by
  refine ⟨⟨Machine.settled_running _, rfl⟩, rfl, rfl, ?_, ?_, rfl⟩
  · exact fun h => h.elim nofun nofun
  · decide

theorem posted_request_dispatched_once :
    let c := ([.look, .trigger, .trigger, .poll] : List TalkStep).foldl
      (Conversation.step RamDisk.fatFs .statusFirst) (.start idleFirmware)
    c.ExactlyOnce ∧ (c.phase = .waiting → ∀ later, 252 ≤ later.countP TalkStep.isPoll →
      ∃ soon, soon <+: later ∧
        (soon.foldl (Conversation.step RamDisk.fatFs .statusFirst) c).posts = c.posts ∧
        (soon.foldl (Conversation.step RamDisk.fatFs .statusFirst) c).firmware.exchange.dispatches =
          c.posts) :=
  request_dispatched_once RamDisk.fatFs readsAtMost_ramDisk .statusFirst idleFirmware quiet_idleFirmware _
    (Run.atEveryStep_cons.2 ⟨trivial, Run.atEveryStep_cons.2 ⟨trivial, Run.atEveryStep_cons.2 ⟨trivial,
      Run.atEveryStep_cons.2 ⟨fun h => absurd h (by decide), Run.atEveryStep_nil _⟩⟩⟩⟩)

/-- A poll between the two triggers executes the request; the second trigger executes it again. -/
theorem request_dispatched_twice :
    idleFirmware.Quiet ∧ ∀ order : TriggerOrder,
      ¬ (([.look, .trigger, .poll, .trigger, .poll, .mmuio true, .poll] : List TalkStep).foldl
        (Conversation.step RamDisk.fatFs order) (.start idleFirmware)).ExactlyOnce := by
  refine ⟨quiet_idleFirmware, fun order h => absurd h.atMost ?_⟩
  cases order
  · decide +kernel
  · decide +kernel

end NeoMmu
