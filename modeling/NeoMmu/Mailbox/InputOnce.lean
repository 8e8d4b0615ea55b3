import NeoMmu.Mailbox.Handles
import NeoMmu.Mailbox.InputLedger

/-!
# Console input is delivered once

Runs of input, output to the display, polls of the mailbox and of the simple I/O, and a 6502 that writes to the
memory and rings. Every byte that is accepted is stored once, in order, or still waits; and a console READ
completes at the first poll that finds the queue filled, with the oldest bytes of it.
-/

namespace NeoMmu

open Prog (quiet Erases)

variable {σ α : Type}

/-! ## Runs -/

/-- What happens to the firmware and its display. -/
inductive InputStep
  /-- A byte of input. -/
  | input (c : UInt8) (allowReturnToICM : Bool)
  /-- A call of the display. -/
  | output (call : VduCall)
  | taskMailbox
  | taskSimpleIO
  | taskInput
  /-- The memory changes under the firmware. -/
  | memory (ram : UInt8 × UInt16 → UInt8)
  /-- The falling edge of `pMMUIO`. -/
  | edge

/-- What a step does. -/
def InputStep.program (ff : FatFs σ) : InputStep → Prog (Terminal σ) Unit
  | .input c allowReturnToICM => do discard <| monitorConsoleInput c allowReturnToICM
  | .output call => onVdu call.run
  | .taskMailbox => onConsole (NeoMmu.taskMailbox ff)
  | InputStep.taskSimpleIO => onConsole NeoMmu.taskSimpleIO
  | .taskInput => onConsole NeoMmu.taskInput
  | .memory ram => onConsole <| onHw <| modify fun m => { m with ram := ram }
  | .edge => onConsole (onHw intrMMUIO)

/-- What a step does, with its entries in the ledger. -/
def InputStep.watched (ff : FatFs σ) : InputStep → Prog (InputLedger σ) Unit
  | .input c allowReturnToICM => do discard <| watchedConsoleInput c allowReturnToICM
  | .taskMailbox => watchedTaskMailbox ff
  | InputStep.taskSimpleIO => watchedTaskSimpleIO
  | l => quiet (l.program ff)

/-- The terminal after a step. -/
def Terminal.step (ff : FatFs σ) (t : Terminal σ) (l : InputStep) : Terminal σ := (l.program ff).final t

/-- The terminal and the ledger after a step. -/
def ledgerStep (ff : FatFs σ) (t : InputLedger σ) (l : InputStep) : InputLedger σ := (l.watched ff).final t

/-- A byte of input is not zero, and comes with the cursor in a row of the screen. -/
def InputStep.Typed (t : Terminal σ) : InputStep → Prop
  | .input c _ => c ≠ 0 ∧ t.vdu.gCursor.row < ROWS
  | _ => True

section Ledger

variable {ff : FatFs σ}

theorem erases_watched (l : InputStep) : Erases (l.watched ff) (l.program ff) := by
  cases l with
  | input c allowReturnToICM => exact (erases_consoleInput c allowReturnToICM).bind fun _ => Erases.pure ()
  | output call => exact Erases.quiet _
  | taskMailbox => exact erases_taskMailbox ff
  | taskSimpleIO => exact erases_taskSimpleIO
  | taskInput => exact Erases.quiet _
  | memory ram => exact Erases.quiet _
  | edge => exact Erases.quiet _

theorem now_ledgerStep (t : InputLedger σ) (l : InputStep) : (ledgerStep ff t l).now = t.now.step ff l :=
  (erases_watched l).now_final t

/-- The ledger makes no difference to a run. -/
theorem now_ledgerRun (t : InputLedger σ) (run : List InputStep) :
    (run.foldl (ledgerStep ff) t).now = run.foldl (Terminal.step ff) t.now :=
  (List.foldl_hom Traced.now fun t l => (now_ledgerStep t l).symm).symm

theorem accounting_step (hread : ReadsAtMost ff) {t : InputLedger σ} (hscreen : t.now.vdu.text.Printable)
    {l : InputStep} (hl : l.Typed t.now) : Accounting t (ledgerStep ff t l) := by
  cases l with
  | input c allowReturnToICM =>
    rw [ledgerStep, InputStep.watched, Prog.final_discard]
    exact accounting_consoleInput hl.1 allowReturnToICM hscreen hl.2
  | output call => exact fun h => h.put rfl
  | taskMailbox => exact accounting_taskMailbox hread t
  | taskSimpleIO => exact accounting_taskSimpleIO hread t
  | taskInput =>
    refine accounting_onConsole (fun f => ?_) t
    obtain ⟨q, -, hdrained⟩ := processVDUoutQ_spec f
    show f.cpu_tx_fifo = (processVDUoutQ f).cpu_tx_fifo
    rw [hdrained]
  | memory ram => exact fun h => h.put rfl
  | edge => exact fun h => h.put (by rfl)

end Ledger

/-! ## What every step keeps -/

/-- The board is settled, and no cell of the screen holds a control character. -/
structure Terminal.Served (t : Terminal σ) : Prop where
  settled : t.firmware.hw.Settled
  screen : t.vdu.text.Printable

/-- A screen without control characters stays one. -/
def StaysPrintable (t t' : Terminal σ) : Prop := t.vdu.text.Printable → t'.vdu.text.Printable

instance : Std.Refl (StaysPrintable (σ := σ)) where
  refl _ := id

instance : IsTrans (Terminal σ) StaysPrintable where
  trans _ _ _ h h' := h' ∘ h

theorem keeps_onConsole {R : Firmware σ → Firmware σ → Prop} {p : Prog (Firmware σ) α} (hp : Prog.Keeps R p) :
    Prog.Keeps (Order.Preimage Terminal.firmware R) (onConsole p) :=
  fun t => hp t.firmware

section Kept

variable {ff : FatFs σ}

theorem staysPrintable_onConsole (p : Prog (Firmware σ) α) : Prog.Keeps StaysPrintable (onConsole p) :=
  fun _ h => h

theorem inputRules_printable : InputRules (StaysPrintable (σ := σ)) where
  writeCPUQ _ := staysPrintable_onConsole _
  writeVDUQ _ := staysPrintable_onConsole _
  restoreCursor _ h := textRules_printable.step h .vduRestoreCursor
  returnToICM _ h := h

theorem staysPrintable_program (l : InputStep) : Prog.Keeps StaysPrintable (l.program ff) := by
  cases l with
  | input c allowReturnToICM =>
    exact (inputRules_printable.monitorConsoleInput (fun _ => staysPrintable_onConsole _) allowReturnToICM).discard
  | output call => exact fun _ h => textRules_printable.step h call
  | taskMailbox => exact staysPrintable_onConsole _
  | taskSimpleIO => exact staysPrintable_onConsole _
  | taskInput => exact staysPrintable_onConsole _
  | memory ram => exact staysPrintable_onConsole _
  | edge => exact staysPrintable_onConsole _

/-- A step keeps what the parts of the loop keep. -/
theorem LoopRules.inputStep {R : Firmware σ → Firmware σ → Prop} [Std.Refl R] [IsTrans (Firmware σ) R]
    (rules : LoopRules ff R) (hbreak : Prog.Keeps R requestConsoleBreakIRQ) (l : InputStep) :
    Prog.Keeps (Order.Preimage Terminal.firmware R) (l.program ff) := by
  have hinput : InputRules (Order.Preimage Terminal.firmware R) := {
    writeCPUQ := fun c => keeps_onConsole (rules.toMailboxRules.writeCPUQ c)
    writeVDUQ := fun c => keeps_onConsole (rules.toMailboxRules.dispatchRules.writeVDUQ c)
    restoreCursor := fun t => refl t.firmware
    returnToICM := fun t => refl t.firmware }
  cases l with
  | input c allowReturnToICM =>
    exact (hinput.monitorConsoleInput (fun _ => keeps_onConsole hbreak) allowReturnToICM).discard
  | output call => exact fun t => refl t.firmware
  | taskMailbox => exact keeps_onConsole rules.toMailboxRules.taskMailbox
  | taskSimpleIO => exact keeps_onConsole rules.toMailboxRules.taskSimpleIO
  | taskInput => exact keeps_onConsole rules.taskInput
  | memory ram => exact keeps_onConsole (rules.board (.memory ram))
  | edge => exact keeps_onConsole (rules.board BoardCall.intrMMUIO)

theorem Terminal.Served.step (hread : ReadsAtMost ff) {t : Terminal σ} (h : t.Served) (l : InputStep) :
    (t.step ff l).Served where
  settled := settled_of_called hread
    ((loopRules_called hread).inputStep (called_statics fun _ => rfl) l t) h.settled
  screen := staysPrintable_program l t h.screen

end Kept

/-! ## The transfer that is under way -/

/-- The state of the machine and the transfer are left as they were. -/
abbrev SameTransfer : Firmware σ → Firmware σ → Prop :=
  Order.Preimage (fun f => (f.mailbox_state, f.gConsoleTarget, f.gConsoleLen)) (· = ·)

section Transfer

variable {ff : FatFs σ}

theorem sameTransfer_readCPUQ : Prog.Keeps (SameTransfer (σ := σ)) readCPUQ := by
  refine Prog.Keeps.get.bind fun f => ?_
  split
  · exact Prog.Keeps.pure 0
  · exact Prog.Keeps.bind (Prog.Keeps.modify fun _ => rfl) fun _ => Prog.Keeps.pure _

theorem sameTransfer_writeCPUQ (c : UInt8) : Prog.Keeps (SameTransfer (σ := σ)) (writeCPUQ c) := by
  intro f
  obtain ⟨q, hq⟩ := final_writeCPUQ c f
  rw [hq]
  rfl

theorem sameTransfer_writeVDUQ (c : UInt8) : Prog.Keeps (SameTransfer (σ := σ)) (writeVDUQ c) := by
  refine Prog.Keeps.modify fun f => ?_
  split
  · rfl
  · rfl

theorem sameTransfer_onHw (p : Prog Machine α) : Prog.Keeps (SameTransfer (σ := σ)) (onHw p) := fun _ => rfl

theorem sameTransfer_taskSimpleIO : Prog.Keeps (SameTransfer (σ := σ)) taskSimpleIO := by
  have hget : Prog.Keeps (SameTransfer (σ := σ)) simpleGetchar := by
    refine (sameTransfer_onHw _).bind fun _ => Prog.Keeps.ite (fun _ => ?_) fun _ => Prog.Keeps.pure _
    exact sameTransfer_readCPUQ.bind fun _ => Prog.Keeps.ite (fun _ => sameTransfer_onHw _) fun _ => Prog.Keeps.pure _
  have hput : Prog.Keeps (SameTransfer (σ := σ)) simplePutchar := by
    refine Prog.Keeps.get.bind fun f => Prog.Keeps.ite (fun _ => ?_) fun _ => Prog.Keeps.pure _
    refine (sameTransfer_onHw _).bind fun _ => Prog.Keeps.ite (fun _ => ?_) fun _ => Prog.Keeps.pure _
    exact (sameTransfer_writeVDUQ _).bind fun _ => sameTransfer_onHw _
  exact Prog.Keeps.get.bind fun f => Prog.Keeps.ite (fun _ => hget.bind fun _ => hput) fun _ => Prog.Keeps.pure _

theorem inputRules_sameTransfer : InputRules (Order.Preimage Terminal.firmware (SameTransfer (σ := σ))) where
  writeCPUQ c := keeps_onConsole (sameTransfer_writeCPUQ c)
  writeVDUQ c := keeps_onConsole (sameTransfer_writeVDUQ c)
  restoreCursor _ := rfl
  returnToICM _ := rfl

/-- Only a poll of the mailbox goes on with a transfer. -/
theorem sameTransfer_program {l : InputStep} (hl : l ≠ .taskMailbox) :
    Prog.Keeps (Order.Preimage Terminal.firmware SameTransfer) (l.program ff) := by
  cases l with
  | input c allowReturnToICM =>
    exact (inputRules_sameTransfer.monitorConsoleInput (fun _ => keeps_onConsole fun _ => rfl) allowReturnToICM).discard
  | output call => exact fun _ => rfl
  | taskMailbox => exact absurd rfl hl
  | taskSimpleIO => exact keeps_onConsole sameTransfer_taskSimpleIO
  | taskInput =>
    refine keeps_onConsole (Prog.Keeps.modify fun f => ?_)
    obtain ⟨q, -, hdrained⟩ := processVDUoutQ_spec f
    rw [hdrained]
    rfl
  | memory ram => exact keeps_onConsole (sameTransfer_onHw _)
  | edge => exact keeps_onConsole (sameTransfer_onHw _)

end Transfer

/-! ## A READ -/

/-- A READ waits for input. -/
structure Firmware.Waits (target len : UInt16) (f : Firmware σ) : Prop where
  mailbox_state : f.mailbox_state = .mbREAD
  gConsoleTarget : f.gConsoleTarget = target
  gConsoleLen : f.gConsoleLen.toNat = min len.toNat 256

/-- A READ is answered: its bytes are those of the front of the queue, it has stored them from its target on, and
it replies with their number. -/
structure ReadDone (target : UInt16) (bytes : List UInt8) (f f' : Firmware σ) : Prop where
  mailbox_state : f'.mailbox_state = .mbDONE
  queue : f.cpu_tx_fifo.toList = bytes ++ f'.cpu_tx_fifo.toList
  status : f'.hw.view.peek RP_STATUS = RP_DONE
  result : f'.hw.view.peek16 RP_RES0L = UInt16.ofNat bytes.length
  memory : ∃ ready reply, (∀ w ∈ ready, w.1 = RP_CONSOLE_RDY) ∧ (∀ w ∈ reply, w.1 ∈ replyAddresses) ∧
    f'.hw.view = f.hw.view.writes (ready ++ blockWrites target bytes ++ reply)

section Read

variable {ff : FatFs σ} {f : Firmware σ} {target len : UInt16}

theorem Firmware.Waits.of_same {f' : Firmware σ} (h : f.Waits target len) (hsame : SameTransfer f f') :
    f'.Waits target len := by
  obtain ⟨hstate, htarget, hlen⟩ := h
  have hs : f.mailbox_state = f'.mailbox_state := congrArg Prod.fst hsame
  have ht : f.gConsoleTarget = f'.gConsoleTarget := congrArg (fun p => p.2.1) hsame
  have hl : f.gConsoleLen = f'.gConsoleLen := congrArg (fun p => p.2.2) hsame
  rw [hs] at hstate
  rw [ht] at htarget
  rw [hl] at hlen
  exact ⟨hstate, htarget, hlen⟩

/-- The length of a READ is cut to the size of the buffer. -/
theorem toNat_readLength (len : UInt16) :
    (if RP_CONSOLE_CHUNK_SIZE < len then RP_CONSOLE_CHUNK_SIZE else len).toNat = min len.toNat 256 := by
  have hsize : RP_CONSOLE_CHUNK_SIZE.toNat = 256 := rfl
  split
  · rename_i hlong
    have hlt := UInt16.lt_iff_toNat_lt.1 hlong
    omega
  · rename_i hshort
    have hle := UInt16.le_iff_toNat_le.1 (UInt16.not_lt.1 hshort)
    omega

/-- A poll takes a READ of some bytes from the block. -/
theorem dispatch_read (h : ConsoleRequested RP_CON_CMD_READ target len (updateConsoleReady.final f))
    (hlen : len ≠ 0) : ((taskMailbox ff).final f).Waits target len := by
  obtain ⟨m, hm, harg0, harg1, hfinal⟩ := pollIdle_console ff rfl h
  obtain ⟨htarget, hview, h₁⟩ := rpRead16_spec hm RP_ARG0L
  obtain ⟨hcount, -, -⟩ := rpRead16_spec h₁ RP_ARG1L
  rw [harg0] at htarget
  rw [hview, harg1] at hcount
  rw [taskMailbox, Prog.final_bind, hfinal]
  simp only [rpConsoleIoHandleRead, Prog.result_bind, Prog.final_bind, onHw, Prog.result_on, Prog.final_on, htarget,
    hcount, Prog.final_modify, if_neg hlen, Prog.result_pure, Prog.final_pure]
  exact ⟨rfl, rfl, toNat_readLength len⟩

/-- What a poll does with a READ, behind the update of `RP_CONSOLE_RDY`. -/
theorem final_mailboxFsm_read (hstate : f.mailbox_state = .mbREAD) : (mailboxFsm ff).final f =
    (do
      if ← rpConsoleIoProcessRead then
        modify fun f => { f with mailbox_state := .mbDONE } : Prog (Firmware σ) Unit).final f := by
  rw [mailboxFsm, Prog.final_bind, Prog.result_get, Prog.final_get, hstate]

/-- `rp_console_io_process_read()` takes the oldest bytes of the queue, where none is a zero. -/
theorem processRead_spec (hclean : ∀ c ∈ f.cpu_tx_fifo.toList, c ≠ 0) :
    let bytes := f.cpu_tx_fifo.toList.take f.gConsoleLen.toNat
    ∃ q, q.toList = f.cpu_tx_fifo.toList.drop f.gConsoleLen.toNat ∧
      rpConsoleIoProcessRead.result f = decide (bytes ≠ []) ∧
      rpConsoleIoProcessRead.final f = if bytes = [] then { f with cpu_tx_fifo := q } else
        (rpMailboxSetDone (UInt16.ofNat bytes.length) 0).final { f with
          cpu_tx_fifo := q, hw := (snoopWrite6502Memory f.gConsoleTarget bytes).final f.hw } := by
  intro bytes
  obtain ⟨q, hq, hfinal⟩ := final_inputBytes f.gConsoleLen.toNat f hclean
  have hbytes : (rpConsoleInputBytes f.gConsoleLen.toNat).result f = bytes := by
    rw [result_inputBytes, List.takeWhile_eq_self_iff]
    exact fun c hc => decide_eq_true (hclean c (List.mem_of_mem_take hc))
  refine ⟨q, hq, ?_⟩
  simp only [rpConsoleIoProcessRead, Prog.result_bind, Prog.final_bind, Prog.result_get, Prog.final_get, hbytes, hfinal,
    Prog.result_ite, Prog.final_ite, Prog.result_pure, Prog.final_pure]
  by_cases hnone : bytes = []
  · rw [if_pos hnone, if_pos hnone, if_pos hnone, hnone]
    exact ⟨rfl, rfl⟩
  · rw [if_neg hnone, if_neg hnone, if_neg hnone]
    exact ⟨(decide_eq_true hnone).symm, rfl⟩

/-- A poll that finds the queue empty waits on. -/
theorem poll_waits (hf : f.hw.Settled) (h : f.Waits target len) (hempty : f.cpu_tx_fifo.toList = []) :
    ((taskMailbox ff).final f).Waits target len ∧ ((taskMailbox ff).final f).cpu_tx_fifo.toList = [] := by
  obtain ⟨m, -, -, -, hready⟩ := updateConsoleReady_ready hf
  rw [taskMailbox, Prog.final_bind, hready, final_mailboxFsm_read (by exact h.mailbox_state)]
  generalize hg : ({ f with hw := m, lastCheck := f.cpu_tx_fifo.isEmpty } : Firmware σ) = g
  have hnone : g.cpu_tx_fifo.toList = [] := by rw [← hg]; exact hempty
  have hwaits : g.Waits target len := by rw [← hg]; exact ⟨h.mailbox_state, h.gConsoleTarget, h.gConsoleLen⟩
  obtain ⟨q, hq, hresult, hfinal⟩ := processRead_spec (f := g) (by rw [hnone]; simp)
  rw [hnone, List.take_nil] at hresult hfinal
  rw [hnone, List.drop_nil] at hq
  rw [if_pos rfl] at hfinal
  simp only [Prog.final_bind, hresult, hfinal]
  exact ⟨⟨hwaits.mailbox_state, hwaits.gConsoleTarget, hwaits.gConsoleLen⟩, hq⟩

theorem setDone_spec (hf : f.hw.Settled) (result : UInt16) (flags : UInt8) :
    let f' := (rpMailboxSetDone result flags).final f
    (∃ reply, (∀ w ∈ reply, w.1 ∈ replyAddresses) ∧ f'.hw.view = f.hw.view.writes reply) ∧
      f'.hw.view.peek RP_STATUS = RP_DONE ∧ f'.hw.view.peek16 RP_RES0L = result ∧ f'.cpu_tx_fifo = f.cpu_tx_fifo := by
  obtain ⟨reply, hstores, hreply⟩ := stores_reply result 0 RP_ERR_OK flags RP_DONE
  obtain ⟨-, hstatus, hresult, -⟩ := reply_spec hf result 0 RP_ERR_OK flags RP_DONE
  simp only [rpMailboxSetDone]
  refine ⟨⟨reply, hreply, ?_⟩, hstatus, hresult, ?_⟩
  · simp only [emit, onHw, Prog.final_bind, Prog.final_modify, Prog.final_on]
    exact (hstores f.hw hf).1
  · simp only [emit, onHw, Prog.final_bind, Prog.final_modify, Prog.final_on]

/-- A poll that finds bytes in the queue answers. -/
theorem poll_answers (hf : f.hw.Settled) (h : f.Waits target len) (hlen : len ≠ 0)
    (hclean : ∀ c ∈ f.cpu_tx_fifo.toList, c ≠ 0) (hsome : f.cpu_tx_fifo.toList ≠ []) :
    ReadDone target (f.cpu_tx_fifo.toList.take (min len.toNat 256)) f ((taskMailbox ff).final f) := by
  obtain ⟨m, hm, ⟨ready, hview, hready⟩, -, hupdate⟩ := updateConsoleReady_ready hf
  rw [taskMailbox, Prog.final_bind, hupdate, final_mailboxFsm_read (by exact h.mailbox_state)]
  generalize hg : ({ f with hw := m, lastCheck := f.cpu_tx_fifo.isEmpty } : Firmware σ) = g
  have hqueue : g.cpu_tx_fifo = f.cpu_tx_fifo := by rw [← hg]
  have htarget : g.gConsoleTarget = target := by rw [← hg]; exact h.gConsoleTarget
  have hcount : g.gConsoleLen.toNat = min len.toNat 256 := by rw [← hg]; exact h.gConsoleLen
  have hhw : g.hw = m := by rw [← hg]
  obtain ⟨q, hq, hresult, hfinal⟩ := processRead_spec (f := g) (by rwa [hqueue])
  rw [hqueue, hcount] at hq
  rw [hqueue, hcount] at hresult
  rw [hqueue, hcount, hhw] at hfinal
  generalize hbytes : f.cpu_tx_fifo.toList.take (min len.toNat 256) = bytes at hresult hfinal ⊢
  have hne : bytes ≠ [] := by
    have hpos : len.toNat ≠ 0 := fun h => hlen (UInt16.toNat_inj.1 h)
    rw [← hbytes, Ne, List.take_eq_nil_iff, not_or]
    exact ⟨by omega, hsome⟩
  rw [if_neg hne] at hfinal
  rw [decide_eq_true hne] at hresult
  obtain ⟨hstored, hsettled⟩ := snoopWrite6502Memory_spec hm g.gConsoleTarget bytes
  obtain ⟨⟨reply, hreply, hreplied⟩, hstatus, hcount, hfifo⟩ := setDone_spec (f := { g with
    cpu_tx_fifo := q, hw := (snoopWrite6502Memory g.gConsoleTarget bytes).final m }) hsettled (UInt16.ofNat bytes.length) 0
  rw [← hfinal] at hreplied hstatus hcount hfifo
  simp only [Prog.final_bind, hresult, if_true, Prog.final_modify]
  refine ⟨rfl, ?_, hstatus, hcount, ready, reply, hready, hreply, ?_⟩
  · show f.cpu_tx_fifo.toList = bytes ++ (rpConsoleIoProcessRead.final g).cpu_tx_fifo.toList
    rw [hfifo, hq, ← hbytes, List.take_append_drop]
  · show (rpConsoleIoProcessRead.final g).hw.view = _
    rw [hreplied, hstored, hview, htarget, Machine.View.writes_append, Machine.View.writes_append]

end Read

/-! ## Whole runs -/

/-- The terminal behind `setup()` and a reset of the display. -/
def Terminal.behindSetup (ff : FatFs σ) (input : SetupInput) (aregH aregL ctxReg : UInt8)
    (mmuRam : UInt8 × UInt8 → UInt8) (ram : UInt8 × UInt16 → UInt8) (storage : Storage σ) (vdu : Vdu) (vMode : UInt8)
    (gInterface : UInt8) (gInMonitor : Bool) : Terminal σ where
  firmware := ((setup ff input).final
    (.start (.setup6502 aregH aregL ctxReg mmuRam ram) storage)).scheduler.firmware
  vdu := vdu.step (.resetDisplay vMode)
  gInterface := gInterface
  gInMonitor := gInMonitor

/-- The whole state of a run: the terminal is served, and its accounts are balanced. -/
structure InputLedger.Sound (t : InputLedger σ) : Prop where
  served : t.now.Served
  accounted : Accounted [] t

section Run

variable {ff : FatFs σ}

/-- Behind `setup()` nothing has been accepted, and nothing waits. -/
theorem sound_behindSetup (input : SetupInput) (aregH aregL ctxReg : UInt8) (mmuRam : UInt8 × UInt8 → UInt8)
    (ram : UInt8 × UInt16 → UInt8) (storage : Storage σ) (vdu : Vdu) (vMode gInterface : UInt8) (gInMonitor : Bool) :
    InputLedger.Sound (.start
      (.behindSetup ff input aregH aregL ctxReg mmuRam ram storage vdu vMode gInterface gInMonitor)) := by
  have hready := ready_setup ff input aregH aregL ctxReg mmuRam ram storage
  have hscreen := printable_resetDisplay vdu vMode
  rw [Terminal.behindSetup]
  generalize (setup ff input).final _ = s at hready ⊢
  generalize vdu.step _ = shown at hscreen ⊢
  have hnone : s.scheduler.firmware.cpu_tx_fifo.toList = [] := (Fifo.isEmpty_iff _).1 hready.idle.cpu_tx_fifo
  refine ⟨⟨hready.settled, hscreen⟩, hnone.symm, rfl, fun c hc => ?_⟩
  rw [Traced.start, Terminal.queue, hnone] at hc
  cases hc

variable (hread : ReadsAtMost ff)

include hread

theorem sound_ledgerStep {t : InputLedger σ} (h : InputLedger.Sound t) {l : InputStep} (hl : l.Typed t.now) :
    InputLedger.Sound (ledgerStep ff t l) where
  served := by
    rw [now_ledgerStep]
    exact h.served.step hread l
  accounted := accounting_step hread h.served.screen hl h.accounted

theorem sound_ledgerRun {t : InputLedger σ} (h : InputLedger.Sound t) {run : List InputStep}
    (hrun : Run.AtEveryStep (Terminal.step ff) InputStep.Typed t.now run) :
    InputLedger.Sound (run.foldl (ledgerStep ff) t) := by
  have htyped : Run.AtEveryStep (ledgerStep ff) (fun t l => InputStep.Typed t.now l) t run :=
    (Run.atEveryStep_map Traced.now now_ledgerStep t run).2 hrun
  have hstep : ∀ (t : InputLedger σ) l, InputLedger.Sound t → InputStep.Typed t.now l →
      InputLedger.Sound (ledgerStep ff t l) := fun t l ht hl => sound_ledgerStep hread ht hl
  exact htyped.invariant hstep h

/-- A READ that has been taken waits as long as the polls find the queue empty. -/
theorem waits_run {target len : UInt16} {t : Terminal σ} (ht : t.Served) (hwaits : t.firmware.Waits target len)
    {waiting : List InputStep}
    (hempty : Run.AtEveryStep (Terminal.step ff) (fun t l => l = .taskMailbox → t.queue = []) t waiting) :
    (waiting.foldl (Terminal.step ff) t).firmware.Waits target len := by
  have hstep : ∀ (t : Terminal σ) l, (t.Served ∧ t.firmware.Waits target len) → (l = .taskMailbox → t.queue = []) →
      (t.step ff l).Served ∧ (t.step ff l).firmware.Waits target len := by
    rintro t l ⟨hserved, hwaits⟩ hempty
    refine ⟨hserved.step hread l, ?_⟩
    by_cases hl : l = .taskMailbox
    · subst hl
      exact (poll_waits hserved.settled hwaits (hempty rfl)).1
    · exact hwaits.of_same (sameTransfer_program hl t)
  exact (hempty.invariant hstep ⟨ht, hwaits⟩).2

/-- In every run behind `setup()` with no zero among the input, which comes with the cursor in the screen, the
queue holds no zero and no break, and the bytes that `writeCPUQ()` accepts are, in order, those that READs and
`RP_GETCHAR` have been given and those of the queue. A READ of some bytes completes at the first poll that finds
the queue filled: it stores the oldest bytes, as many as there are, as it asks for and as the buffer takes. -/
theorem input_delivered_once (input : SetupInput) (aregH aregL ctxReg : UInt8) (mmuRam : UInt8 × UInt8 → UInt8)
    (ram : UInt8 × UInt16 → UInt8) (storage : Storage σ) (vdu : Vdu) (vMode gInterface : UInt8) (gInMonitor : Bool)
    (run : List InputStep) :
    let start : Terminal σ := .behindSetup ff input aregH aregL ctxReg mmuRam ram storage vdu vMode gInterface gInMonitor
    let after := fun steps => List.foldl (Terminal.step ff) start steps
    Run.AtEveryStep (Terminal.step ff) InputStep.Typed start run →
      let t := run.foldl (ledgerStep ff) (.start start)
      t.now = after run ∧ (∀ c ∈ t.now.queue, c ≠ 0 ∧ c ≠ 0x03) ∧
        t.acceptedBytes = t.poppedBytes ++ t.now.queue ∧ t.poppedBytes = t.deliveredBytes ∧
        ∀ before waiting later target len, run = before ++ .taskMailbox :: waiting ++ .taskMailbox :: later →
          ConsoleRequested RP_CON_CMD_READ target len (updateConsoleReady.final (after before).firmware) → len ≠ 0 →
          Run.AtEveryStep (Terminal.step ff) (fun t l => l = .taskMailbox → t.queue = [])
            (after (before ++ [.taskMailbox])) waiting →
          let s := after (before ++ .taskMailbox :: waiting)
          let s' := s.step ff .taskMailbox
          s.firmware.mailbox_state = .mbREAD ∧
            (s.queue = [] → s'.firmware.mailbox_state = .mbREAD ∧ s'.queue = []) ∧
            (s.queue ≠ [] → ReadDone target (s.queue.take (min len.toNat 256)) s.firmware s'.firmware) := by
  intro start after hrun t
  have hstart : InputLedger.Sound (.start start) := sound_behindSetup input _ _ _ _ _ _ _ _ _ _
  clear_value start
  have hsound : ∀ steps rest, run = steps ++ rest →
      InputLedger.Sound (steps.foldl (ledgerStep ff) (.start start)) := by
    rintro steps rest rfl
    exact sound_ledgerRun hread hstart hrun.of_append
  have hnow : ∀ steps, (List.foldl (ledgerStep ff) (.start start) steps).now = after steps :=
    fun steps => now_ledgerRun _ steps
  obtain ⟨-, haccepted, hpopped, hclean⟩ := hsound run [] (List.append_nil run).symm
  rw [List.append_nil] at hpopped
  refine ⟨hnow run, hclean, haccepted, hpopped, fun before waiting later target len hparts hrequested hlen hempty => ?_⟩
  have htaken := hsound (before ++ [.taskMailbox]) (waiting ++ .taskMailbox :: later) (by rw [hparts]; simp)
  have hpolled := hsound (before ++ .taskMailbox :: waiting) (.taskMailbox :: later) hparts
  have hdispatched : (after (before ++ [.taskMailbox])).firmware.Waits target len := by
    show Firmware.Waits target len (List.foldl (Terminal.step ff) start (before ++ [.taskMailbox])).firmware
    rw [List.foldl_append]
    exact dispatch_read hrequested hlen
  have hwaits : (after (before ++ .taskMailbox :: waiting)).firmware.Waits target len := by
    have hrest := waits_run hread (hnow _ ▸ htaken.served) hdispatched hempty
    rw [← List.foldl_append, List.append_assoc] at hrest
    exact hrest
  have hserved := hpolled.served
  have hqueue := hpolled.accounted.clean
  rw [hnow] at hserved hqueue
  refine ⟨hwaits.mailbox_state, fun hnone => ?_, fun hsome => ?_⟩
  · obtain ⟨hstill, hnone'⟩ : Firmware.Waits target len _ ∧ _ := poll_waits hserved.settled hwaits hnone
    exact ⟨hstill.mailbox_state, hnone'⟩
  · exact poll_answers hserved.settled hwaits hlen (fun c hc => (hqueue c hc).1) hsome

omit hread

/-- A display that has been reset for graphics has its cursor in the screen. -/
theorem row_resetDisplay_graphics : (Vdu.powerUp.step (.resetDisplay 2)).gCursor.row < ROWS := by decide +kernel

/-- A terminal with its display in a graphics mode, behind `setup()`. -/
def graphicsTerminal : Terminal RamDisk :=
  .behindSetup RamDisk.fatFs blankInput 0 0 0 (fun _ => 0) (fun _ => 0) (RamDisk.mounted fun _ => none) Vdu.powerUp 2 0
    false

theorem input_delivered_once_letter :
    let t : InputLedger RamDisk := List.foldl (ledgerStep RamDisk.fatFs) (.start graphicsTerminal)
      [.input 65 false, InputStep.taskSimpleIO]
    t.acceptedBytes = t.deliveredBytes ++ t.now.queue := by
  intro t
  have hrow : graphicsTerminal.vdu.gCursor.row < ROWS := by
    have hvdu : graphicsTerminal.vdu = Vdu.powerUp.step (.resetDisplay 2) := by
      simp only [graphicsTerminal, Terminal.behindSetup]
    rw [hvdu]
    exact row_resetDisplay_graphics
  have htyped : Run.AtEveryStep (Terminal.step RamDisk.fatFs) InputStep.Typed graphicsTerminal
      [.input 65 false, InputStep.taskSimpleIO] := by
    exact Run.atEveryStep_cons.2 ⟨⟨by decide, hrow⟩, Run.atEveryStep_cons.2 ⟨trivial, Run.atEveryStep_nil _⟩⟩
  obtain ⟨-, -, haccepted, hpopped, -⟩ := input_delivered_once readsAtMost_ramDisk blankInput 0 0 0 (fun _ => 0)
    (fun _ => 0) (RamDisk.mounted fun _ => none) Vdu.powerUp 2 0 false [.input 65 false, InputStep.taskSimpleIO] htyped
  exact haccepted.trans (congrArg (· ++ t.now.queue) hpopped)

end Run

end NeoMmu
