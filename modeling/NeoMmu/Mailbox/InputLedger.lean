import NeoMmu.Mailbox.ConsoleReady
import NeoMmu.Mailbox.ScreenLine
import NeoMmu.Vdu.Printable

/-!
# The ledger of the input

The functions that fill and empty the CPU queue, with an entry in a ledger for each byte that `writeCPUQ()` takes,
each that `readCPUQ()` gives, and each store of such bytes into the memory. Without the ledger they are the
functions of the model. What is accepted is, in order, what has been taken out and what still waits, and what has
been taken out has been stored.
-/

namespace NeoMmu

open Prog (now event when quiet Erases)

variable {σ α β : Type}

/-- What happens to the bytes of the CPU queue. -/
inductive InputEvent
  /-- `writeCPUQ()` took a byte. -/
  | accepted (c : UInt8)
  /-- `readCPUQ()` gave a byte. -/
  | popped (c : UInt8)
  /-- A console READ stored bytes from an address on. -/
  | stored (target : UInt16) (bytes : List UInt8)
  /-- A byte was stored at `RP_GETCHAR`. -/
  | getchar (c : UInt8)
  deriving DecidableEq, Repr

namespace InputEvent

/-- The bytes that are accepted. -/
def accepts : InputEvent → List UInt8
  | .accepted c => [c]
  | _ => []

/-- The bytes that are taken out of the queue. -/
def pops : InputEvent → List UInt8
  | .popped c => [c]
  | _ => []

/-- The bytes that are stored into the memory. -/
def delivers : InputEvent → List UInt8
  | .stored _ bytes => bytes
  | .getchar c => [c]
  | _ => []

end InputEvent

/-- The terminal and its ledger. -/
abbrev InputLedger (σ : Type) := Traced (Terminal σ) InputEvent

namespace Traced

variable {S : Type} (t : Traced S InputEvent)

/-- The bytes that `writeCPUQ()` has accepted. -/
def acceptedBytes : List UInt8 := t.log.flatMap InputEvent.accepts

/-- The bytes that `readCPUQ()` has given. -/
def poppedBytes : List UInt8 := t.log.flatMap InputEvent.pops

/-- The bytes that have been stored into the memory. -/
def deliveredBytes : List UInt8 := t.log.flatMap InputEvent.delivers

end Traced

/-! ## The functions with their ledger -/

/-- `writeCPUQ()` -/
def watchedWriteCPUQ (c : UInt8) : Prog (InputLedger σ) Bool := do
  let written ← quiet (onConsole (writeCPUQ c))
  when (written = true) (event (.accepted c))
  return written

/-- `readCPUQ()` -/
def watchedReadCPUQ : Prog (InputLedger σ) UInt8 := do
  let t ← now
  let c ← quiet (onConsole readCPUQ)
  when (t.firmware.cpu_tx_fifo.isEmpty = false) (event (.popped c))
  return c

/-- `rp_console_input_bytes()` -/
def watchedInputBytes : Nat → Prog (InputLedger σ) (List UInt8)
  | 0 => return []
  | length + 1 => do
    let c ← watchedReadCPUQ
    if c = 0 then
      return []
    else
      return c :: (← watchedInputBytes length)

/-- `rp_console_io_process_read()` -/
def watchedProcessRead : Prog (InputLedger σ) Bool := do
  let t ← now
  let buffer ← watchedInputBytes t.firmware.gConsoleLen.toNat
  if buffer = [] then
    return false
  else
    quiet (onConsole (onHw (snoopWrite6502Memory t.firmware.gConsoleTarget buffer)))
    event (.stored t.firmware.gConsoleTarget buffer)
    quiet (onConsole (rpMailboxSetDone (UInt16.ofNat buffer.length) 0))
    return true

/-- `taskMailbox()` -/
def watchedTaskMailbox (ff : FatFs σ) : Prog (InputLedger σ) Unit := do
  quiet (onConsole updateConsoleReady)
  if (← now).firmware.mailbox_state = .mbREAD then
    if ← watchedProcessRead then
      quiet (onConsole (modify fun f => { f with mailbox_state := .mbDONE }))
  else
    quiet (onConsole (mailboxFsm ff))

/-- `simple_getchar()` -/
def watchedGetchar : Prog (InputLedger σ) Unit := do
  if (← quiet (onConsole (onHw (snoopRead6502MemoryLoc RP_GETCHAR)))) = 0 then
    let c ← watchedReadCPUQ
    if c ≠ 0 then
      quiet (onConsole (onHw (snoopWrite6502MemoryLoc RP_GETCHAR c)))
      event (.getchar c)

/-- `taskSimpleIO()` -/
def watchedTaskSimpleIO : Prog (InputLedger σ) Unit := do
  if (← now).firmware.hw.getMMUContext = 0 then
    watchedGetchar
    quiet (onConsole simplePutchar)

/-- The loop of `monitorConsoleInput()` that queues a line. -/
def watchedWriteScreenline : List UInt8 → Prog (InputLedger σ) Bool
  | [] => return true
  | c :: line => do
    if c = 0 then
      return true
    else if ← watchedWriteCPUQ c then
      watchedWriteScreenline line
    else
      return false

/-- The last byte of an input. -/
def watchedFinishInput (c : UInt8) (allowReturnToICM : Bool) : Prog (InputLedger σ) Bool := do
  if ← watchedWriteCPUQ c then
    return true
  else
    quiet (inputFailed allowReturnToICM)

/-- The part of `monitorConsoleInput()` that enters a line of the screen. -/
def watchedEnterScreenline (allowReturnToICM : Bool) : Prog (InputLedger σ) Bool := do
  let s := (← now).vdu
  let lBuffer := s.vduGetScreenline s.gCursor.row
  quiet (onVdu vduRestoreCursor)
  if ← watchedWriteScreenline lBuffer then
    watchedFinishInput '\r'.toUInt8 allowReturnToICM
  else
    quiet (inputFailed allowReturnToICM)

/-- `monitorConsoleInput()` -/
def watchedConsoleInput (c : UInt8) (allowReturnToICM : Bool) : Prog (InputLedger σ) Bool := do
  if c = 0x03 then
    quiet (onConsole requestConsoleBreakIRQ)
    return true
  else if c = 0x1A ∧ allowReturnToICM then
    quiet returnToICM
    return true
  else if c = '\n'.toUInt8 ∨ c = '\r'.toUInt8 then
    quiet (onConsole (writeVDUQ '\r'.toUInt8))
    if (← now).vdu.gAsScreenMode then
      watchedEnterScreenline allowReturnToICM
    else
      watchedFinishInput c allowReturnToICM
  else
    quiet (onConsole (writeVDUQ c))
    if (← now).vdu.gAsScreenMode then
      return true
    else
      watchedFinishInput c allowReturnToICM

/-! ## Without the ledger -/

section OnConsole

theorem onConsole_bind (p : Prog (Firmware σ) α) (f : α → Prog (Firmware σ) β) :
    onConsole (p >>= f) = onConsole p >>= fun a => onConsole (f a) := rfl

theorem onConsole_get_bind (f : Firmware σ → Prog (Firmware σ) α) :
    onConsole (get >>= f) = (get : Prog (Terminal σ) _) >>= fun t => onConsole (f t.firmware) := rfl

theorem onConsole_ite (c : Prop) [Decidable c] (p q : Prog (Firmware σ) α) :
    onConsole (if c then p else q) = if c then onConsole p else onConsole q := by
  split
  · rfl
  · rfl

end OnConsole

section Erasure

/-- An entry that depends on what has been done. -/
theorem erases_when {c : Prop} [Decidable c] {e : InputEvent} {p : Prog (InputLedger σ) α} {q : Prog (Terminal σ) α}
    (h : Erases p q) : Erases (when c (event e) >>= fun _ => p) q := by
  refine Erases.silent (fun t => ?_) fun _ => h
  rw [Prog.final_when]
  split
  · rfl
  · rfl

theorem erases_event {e : InputEvent} {p : Prog (InputLedger σ) α} {q : Prog (Terminal σ) α} (h : Erases p q) :
    Erases (event e >>= fun _ => p) q :=
  Erases.silent (fun _ => rfl) fun _ => h

/-- A function that is watched, and entries behind it. -/
theorem erases_entry {q : Prog (Terminal σ) α} {c : α → Prop} [DecidablePred c] {e : α → InputEvent} :
    Erases (do
      let a ← quiet q
      when (c a) (event (e a))
      return a) q := by
  have h : Erases (quiet q >>= fun a => when (c a) (event (e a)) >>= fun _ => pure a) (q >>= pure) :=
    (Erases.quiet q).bind fun a => erases_when (Erases.pure a)
  rwa [bind_pure] at h

theorem erases_writeCPUQ (c : UInt8) : Erases (watchedWriteCPUQ c) (onConsole (writeCPUQ c) : Prog (Terminal σ) Bool) :=
  erases_entry

theorem erases_readCPUQ : Erases watchedReadCPUQ (onConsole readCPUQ : Prog (Terminal σ) UInt8) :=
  Erases.silent (fun _ => rfl) fun _ => erases_entry

theorem erases_inputBytes (n : Nat) :
    Erases (watchedInputBytes n) (onConsole (rpConsoleInputBytes n) : Prog (Terminal σ) (List UInt8)) := by
  induction n with
  | zero => exact Erases.pure []
  | succ n ih =>
    rw [rpConsoleInputBytes, onConsole_bind]
    refine erases_readCPUQ.bind fun c => ?_
    rw [onConsole_ite]
    exact Erases.ite (fun _ => Erases.pure []) fun _ => ih.bind fun _ => Erases.pure _

theorem erases_processRead :
    Erases watchedProcessRead (onConsole rpConsoleIoProcessRead : Prog (Terminal σ) Bool) := by
  rw [rpConsoleIoProcessRead, onConsole_get_bind]
  refine Erases.now.bind fun t => ?_
  rw [onConsole_bind]
  refine (erases_inputBytes _).bind fun buffer => ?_
  rw [onConsole_ite]
  refine Erases.ite (fun _ => Erases.pure _) fun _ => ?_
  rw [onConsole_bind]
  refine (Erases.quiet _).bind fun _ => erases_event ?_
  rw [onConsole_bind]
  exact (Erases.quiet _).bind fun _ => Erases.pure _

theorem erases_taskMailbox (ff : FatFs σ) : Erases (watchedTaskMailbox ff) (onConsole (taskMailbox ff)) := by
  rw [taskMailbox, onConsole_bind]
  refine (Erases.quiet _).bind fun _ t _ => ?_
  rw [Prog.result_bind, Prog.final_bind]
  by_cases hstate : t.now.firmware.mailbox_state = .mbREAD
  · have hread : Erases (do
          if ← watchedProcessRead then
            quiet (onConsole (modify fun f => { f with mailbox_state := .mbDONE }))) (onConsole do
          if ← rpConsoleIoProcessRead then
            modify fun f => { f with mailbox_state := .mbDONE } : Prog (Terminal σ) Unit) := by
      rw [onConsole_bind]
      refine erases_processRead.bind fun done => ?_
      rw [onConsole_ite]
      exact Erases.ite (fun _ => Erases.quiet _) fun _ => Erases.pure ()
    have hfsm : (onConsole (mailboxFsm ff)).final t.now = (onConsole do
        if ← rpConsoleIoProcessRead then
          modify fun f => { f with mailbox_state := .mbDONE }).final t.now := by
      rw [mailboxFsm, onConsole_get_bind, Prog.final_bind, Prog.result_get, Prog.final_get, hstate]
    simp only [Prog.result_now, Prog.final_now, hstate, if_true, hfsm]
    exact ⟨trivial, hread.now_final t⟩
  · simp only [Prog.result_now, Prog.final_now, hstate, if_false]
    exact ⟨trivial, rfl⟩

theorem erases_getchar : Erases watchedGetchar (onConsole simpleGetchar : Prog (Terminal σ) Unit) := by
  rw [simpleGetchar, onConsole_bind]
  refine (Erases.quiet _).bind fun ready => ?_
  rw [onConsole_ite]
  refine Erases.ite (fun _ => ?_) fun _ => Erases.pure ()
  rw [onConsole_bind]
  refine erases_readCPUQ.bind fun c => ?_
  rw [onConsole_ite]
  refine Erases.ite (fun _ => ?_) fun _ => Erases.pure ()
  have hstore := (Erases.quiet (E := InputEvent) (onConsole (σ := σ) (onHw (snoopWrite6502MemoryLoc RP_GETCHAR c)))).bind
    fun _ => erases_event (e := .getchar c) (Erases.pure ())
  exact hstore

theorem erases_taskSimpleIO : Erases watchedTaskSimpleIO (onConsole taskSimpleIO : Prog (Terminal σ) Unit) := by
  unfold taskSimpleIO
  rw [onConsole_get_bind]
  refine Erases.now.bind fun t => ?_
  rw [onConsole_ite]
  refine Erases.ite (fun _ => ?_) fun _ => Erases.pure ()
  rw [onConsole_bind]
  exact erases_getchar.bind fun _ => Erases.quiet _

theorem erases_writeScreenline (line : List UInt8) :
    Erases (watchedWriteScreenline line) (writeScreenline line : Prog (Terminal σ) Bool) := by
  induction line with
  | nil => exact Erases.pure true
  | cons c line ih =>
    refine Erases.ite (fun _ => Erases.pure true) fun _ => (erases_writeCPUQ c).bind fun written => ?_
    exact Erases.ite (fun _ => ih) fun _ => Erases.pure false

theorem erases_finishInput (c : UInt8) (allowReturnToICM : Bool) :
    Erases (watchedFinishInput c allowReturnToICM) (finishInput c allowReturnToICM : Prog (Terminal σ) Bool) :=
  (erases_writeCPUQ c).bind fun _ => Erases.ite (fun _ => Erases.pure true) fun _ => Erases.quiet _

theorem erases_enterScreenline (allowReturnToICM : Bool) :
    Erases (watchedEnterScreenline allowReturnToICM) (enterScreenline allowReturnToICM : Prog (Terminal σ) Bool) := by
  refine Erases.now.bind fun t => (Erases.quiet _).bind fun _ => ?_
  refine (erases_writeScreenline _).bind fun written => ?_
  exact Erases.ite (fun _ => erases_finishInput _ _) fun _ => Erases.quiet _

theorem erases_consoleInput (c : UInt8) (allowReturnToICM : Bool) :
    Erases (watchedConsoleInput c allowReturnToICM) (monitorConsoleInput c allowReturnToICM : Prog (Terminal σ) Bool) := by
  refine Erases.ite (fun _ => (Erases.quiet _).bind fun _ => Erases.pure true) fun _ => ?_
  refine Erases.ite (fun _ => (Erases.quiet _).bind fun _ => Erases.pure true) fun _ => ?_
  refine Erases.ite (fun _ => ?_) fun _ => ?_
  · refine (Erases.quiet _).bind fun _ => Erases.now.bind fun t => ?_
    exact Erases.ite (fun _ => erases_enterScreenline _) fun _ => erases_finishInput _ _
  · refine (Erases.quiet _).bind fun _ => Erases.now.bind fun t => ?_
    exact Erases.ite (fun _ => Erases.pure true) fun _ => erases_finishInput _ _

end Erasure

/-! ## What the ledger says -/

/-- What has been accepted has been taken out or waits, no byte that waits is a zero or a break, and what has been
taken out has been stored, but for the bytes that are held. -/
structure Accounted (held : List UInt8) (t : InputLedger σ) : Prop where
  accepted : t.acceptedBytes = t.poppedBytes ++ t.now.queue
  popped : t.poppedBytes = t.deliveredBytes ++ held
  clean : ∀ c ∈ t.now.queue, c ≠ 0 ∧ c ≠ 0x03

section Accounted

variable {held : List UInt8} {t : InputLedger σ}

theorem Traced.bytes_push {S : Type} (t : Traced S InputEvent) (e : InputEvent) :
    (t.push e).acceptedBytes = t.acceptedBytes ++ e.accepts ∧ (t.push e).poppedBytes = t.poppedBytes ++ e.pops ∧
      (t.push e).deliveredBytes = t.deliveredBytes ++ e.delivers := by
  simp only [acceptedBytes, poppedBytes, deliveredBytes, Traced.push, List.flatMap_append, List.flatMap_cons,
    List.flatMap_nil, List.append_nil, and_self]

/-- What leaves the queue alone. -/
theorem Accounted.put (h : Accounted held t) {s : Terminal σ} (hqueue : s.queue = t.now.queue) :
    Accounted held (t.put s) := by
  obtain ⟨haccepted, hpopped, hclean⟩ := h
  rw [← hqueue] at haccepted hclean
  exact ⟨haccepted, hpopped, hclean⟩

theorem Accounted.quiet (h : Accounted held t) {p : Prog (Terminal σ) α} (hp : Prog.Keeps SameInput p) :
    Accounted held ((quiet p).final t) :=
  h.put (hp t.now).symm

theorem Accounted.writeCPUQ (h : Accounted held t) {c : UInt8} (hc : c ≠ 0 ∧ c ≠ 0x03) :
    Accounted held ((watchedWriteCPUQ c).final t) := by
  obtain ⟨haccepted, hpopped, hclean⟩ := h
  simp only [watchedWriteCPUQ, Prog.final_bind, Prog.result_quiet, Prog.final_quiet, Prog.final_when, Prog.final_event,
    Prog.final_pure]
  rcases writeCPUQ_spec c t.now.firmware with ⟨-, hresult, hfinal⟩ | ⟨-, hresult, q, hq, hfinal⟩
  · have hkept : (onConsole (NeoMmu.writeCPUQ c)).final t.now = t.now := by
      rw [onConsole, Prog.final_on, hfinal]
    rw [if_neg (by rw [onConsole, Prog.result_on, hresult]; decide), hkept]
    exact ⟨haccepted, hpopped, hclean⟩
  · rw [if_pos (by rw [onConsole, Prog.result_on, hresult])]
    have hqueue : ((onConsole (NeoMmu.writeCPUQ c)).final t.now).queue = t.now.queue ++ [c] := by
      rw [onConsole, Prog.final_on, hfinal]
      exact hq
    generalize (onConsole (NeoMmu.writeCPUQ c)).final t.now = s at hqueue
    obtain ⟨ha, hp, hd⟩ := (t.put s).bytes_push (.accepted c)
    refine ⟨?_, ?_, ?_⟩
    · rw [ha, hp, Traced.now_push, Traced.now_put, hqueue]
      show t.acceptedBytes ++ [c] = t.poppedBytes ++ [] ++ (t.now.queue ++ [c])
      rw [haccepted, List.append_nil, List.append_assoc]
    · rw [hp, hd]
      show t.poppedBytes ++ [] = t.deliveredBytes ++ [] ++ held
      rw [List.append_nil, List.append_nil, hpopped]
    · rw [Traced.now_push, Traced.now_put, hqueue]
      intro b hb
      rcases List.mem_append.1 hb with hb | hb
      · exact hclean b hb
      · rw [List.mem_singleton.1 hb]
        exact hc

/-- A byte that is taken out is held; a zero says that there was none. -/
theorem Accounted.readCPUQ (h : Accounted held t) :
    Accounted (held ++ if watchedReadCPUQ.result t = 0 then [] else [watchedReadCPUQ.result t])
      (watchedReadCPUQ.final t) := by
  obtain ⟨haccepted, hpopped, hclean⟩ := h
  simp only [watchedReadCPUQ, Prog.result_bind, Prog.final_bind, Prog.result_now, Prog.final_now, Prog.result_quiet,
    Prog.final_quiet, Prog.final_when, Prog.final_event, Prog.result_pure, Prog.final_pure]
  have hempty := t.now.firmware.cpu_tx_fifo.isEmpty_iff
  rcases readCPUQ_spec t.now.firmware with ⟨hnone, hresult, hfinal⟩ | ⟨c, q, hlist, hresult, hfinal⟩
  · have hkept : (onConsole NeoMmu.readCPUQ).final t.now = t.now := by
      rw [onConsole, Prog.final_on, hfinal]
    have hzero : (onConsole NeoMmu.readCPUQ).result t.now = 0 := hresult
    rw [if_pos hzero, List.append_nil, if_neg (by rw [hempty.2 hnone]; decide), hkept]
    exact ⟨haccepted, hpopped, hclean⟩
  · have hbyte : (onConsole NeoMmu.readCPUQ).result t.now = c := hresult
    have hfirst : t.now.queue = c :: q.toList := hlist
    have hqueue : ((onConsole NeoMmu.readCPUQ).final t.now).queue = q.toList := by
      rw [onConsole, Prog.final_on, hfinal]
      rfl
    have hsome : t.now.firmware.cpu_tx_fifo.isEmpty = false := by
      rw [← Bool.not_eq_true, hempty, hlist]
      exact List.cons_ne_nil _ _
    rw [hfirst, List.forall_mem_cons] at hclean
    rw [hbyte, if_neg hclean.1.1, if_pos hsome]
    generalize (onConsole NeoMmu.readCPUQ).final t.now = s at hqueue
    obtain ⟨ha, hp, hd⟩ := (t.put s).bytes_push (.popped c)
    refine ⟨?_, ?_, ?_⟩
    · rw [ha, hp, Traced.now_push, Traced.now_put, hqueue]
      show t.acceptedBytes ++ [] = t.poppedBytes ++ [c] ++ q.toList
      rw [haccepted, hfirst, List.append_nil, List.append_assoc, List.singleton_append]
    · rw [hp, hd]
      show t.poppedBytes ++ [c] = t.deliveredBytes ++ [] ++ (held ++ [c])
      rw [hpopped, List.append_nil, List.append_assoc]
    · rw [Traced.now_push, Traced.now_put, hqueue]
      exact hclean.2

/-- The bytes of a READ are held. -/
theorem Accounted.inputBytes (h : Accounted held t) (n : Nat) :
    Accounted (held ++ (watchedInputBytes n).result t) ((watchedInputBytes n).final t) := by
  induction n generalizing held t with
  | zero =>
    show Accounted (held ++ []) t
    rwa [List.append_nil]
  | succ n ih =>
    have hread := h.readCPUQ
    rw [watchedInputBytes, Prog.result_bind, Prog.final_bind, Prog.result_ite, Prog.final_ite]
    generalize watchedReadCPUQ.result t = c at hread
    generalize watchedReadCPUQ.final t = t' at hread
    by_cases hc : c = 0
    · rw [if_pos hc] at hread
      rw [if_pos hc, if_pos hc]
      exact hread
    · rw [if_neg hc] at hread
      rw [if_neg hc, if_neg hc]
      have hrest := ih hread
      rwa [List.append_assoc, List.singleton_append] at hrest

/-- Bytes that are stored are held no longer. -/
theorem Accounted.delivered {e : InputEvent} (h : Accounted e.delivers t) (haccepts : e.accepts = [])
    (hpops : e.pops = []) : Accounted [] (t.push e) := by
  obtain ⟨haccepted, hpopped, hclean⟩ := h
  obtain ⟨ha, hp, hd⟩ := t.bytes_push e
  rw [haccepts, List.append_nil] at ha
  rw [hpops, List.append_nil] at hp
  refine ⟨?_, ?_, hclean⟩
  · rw [ha, hp]
    exact haccepted
  · rw [hp, hd, List.append_nil]
    exact hpopped

end Accounted

/-! ## The functions balance it -/

/-- Nothing is held before and after. -/
def Accounting (t t' : InputLedger σ) : Prop := Accounted [] t → Accounted [] t'

instance : Std.Refl (Accounting (σ := σ)) where
  refl _ := id

instance : IsTrans (InputLedger σ) Accounting where
  trans _ _ _ h h' := h' ∘ h

/-- The queue of the firmware is left as it was. -/
abbrev SameFifo : Firmware σ → Firmware σ → Prop := Order.Preimage (·.cpu_tx_fifo) (· = ·)

section Accounting

variable {ff : FatFs σ}

theorem accounting_quiet {p : Prog (Terminal σ) α} (hp : Prog.Keeps SameInput p) :
    Prog.Keeps Accounting (quiet p : Prog (InputLedger σ) α) :=
  fun _ h => h.quiet hp

theorem accounting_onConsole {p : Prog (Firmware σ) α} (hp : Prog.Keeps SameFifo p) :
    Prog.Keeps Accounting (quiet (onConsole p) : Prog (InputLedger σ) α) := by
  refine accounting_quiet fun t => ?_
  exact congrArg Fifo.toList (hp t.firmware)

theorem dispatchRules_sameFifo (hread : ReadsAtMost ff) : DispatchRules ff SameFifo where
  snoop _ _ := rfl
  ackMMUIO _ := rfl
  emit _ _ _ := rfl
  transfer f f' h := by
    show f.cpu_tx_fifo = f'.cpu_tx_fifo
    rw [h]
  request f := by
    obtain ⟨f', pid, honly, -, hfinal⟩ := final_handleExec hread f
    show f.cpu_tx_fifo = ((rpFsMailboxHandleExec ff).final f).cpu_tx_fifo
    rw [hfinal]
    show f.cpu_tx_fifo = f'.cpu_tx_fifo
    rw [honly]

theorem sameFifo_writeVDUQ (c : UInt8) : Prog.Keeps (SameFifo (σ := σ)) (writeVDUQ c) := by
  refine Prog.Keeps.modify fun f => ?_
  show f.cpu_tx_fifo = (if _ then _ else _ : Firmware σ).cpu_tx_fifo
  split
  · rfl
  · rfl

theorem accounting_processRead (hread : ReadsAtMost ff) : Prog.Keeps (Accounting (σ := σ)) watchedProcessRead := by
  intro t h
  have hinput := h.inputBytes t.now.firmware.gConsoleLen.toNat
  simp only [watchedProcessRead, Prog.final_bind, Prog.result_now, Prog.final_now, Prog.final_ite, Prog.final_pure]
  generalize (watchedInputBytes t.now.firmware.gConsoleLen.toNat).result t = buffer at hinput
  generalize (watchedInputBytes t.now.firmware.gConsoleLen.toNat).final t = t₁ at hinput
  rw [List.nil_append] at hinput
  by_cases hnone : buffer = []
  · rw [if_pos hnone]
    rwa [hnone] at hinput
  · rw [if_neg hnone]
    have hstored := hinput.quiet (p := onConsole (onHw (snoopWrite6502Memory t.now.firmware.gConsoleTarget buffer)))
      fun _ => rfl
    generalize (quiet (onConsole (onHw _))).final t₁ = t₂ at hstored
    exact accounting_onConsole ((dispatchRules_sameFifo hread).setDone _ 0) _
      (Accounted.delivered (e := .stored t.now.firmware.gConsoleTarget buffer) hstored rfl rfl)

theorem accounting_taskMailbox (hread : ReadsAtMost ff) : Prog.Keeps Accounting (watchedTaskMailbox ff) := by
  have hrules := dispatchRules_sameFifo hread
  refine (accounting_onConsole hrules.updateConsoleReady).bind fun _ t => ?_
  have hdone : Prog.Keeps (Accounting (σ := σ)) (do
      if ← watchedProcessRead then
        quiet (onConsole (modify fun f => { f with mailbox_state := .mbDONE }))) :=
    (accounting_processRead hread).bind fun _ => Prog.Keeps.ite (fun _ => accounting_onConsole fun _ => rfl) fun _ =>
      Prog.Keeps.pure ()
  simp only [Prog.final_bind, Prog.result_now, Prog.final_now]
  by_cases hstate : t.now.firmware.mailbox_state = .mbREAD
  · rw [if_pos hstate]
    exact hdone t
  · rw [if_neg hstate]
    intro h
    exact h.put (congrArg Fifo.toList (hrules.mailboxFsm hstate)).symm

theorem accounting_getchar : Prog.Keeps (Accounting (σ := σ)) watchedGetchar := by
  refine (accounting_onConsole fun _ => by rfl).bind fun _ => Prog.Keeps.ite (fun _ t h => ?_) fun _ => Prog.Keeps.pure ()
  have hinput := h.readCPUQ
  rw [Prog.final_bind, Prog.final_ite]
  generalize watchedReadCPUQ.result t = c at hinput
  generalize watchedReadCPUQ.final t = t' at hinput
  by_cases hc : c = 0
  · rw [if_pos hc] at hinput
    rw [if_neg (not_not.2 hc)]
    exact hinput
  · rw [if_neg hc] at hinput
    rw [if_pos hc]
    have hstored := hinput.quiet (p := onConsole (onHw (snoopWrite6502MemoryLoc RP_GETCHAR c))) fun _ => rfl
    exact Accounted.delivered (e := .getchar c) hstored rfl rfl

theorem accounting_taskSimpleIO (hread : ReadsAtMost ff) : Prog.Keeps (Accounting (σ := σ)) watchedTaskSimpleIO :=
  Prog.Keeps.now.bind fun _ => Prog.Keeps.ite (fun _ => accounting_getchar.bind fun _ =>
    accounting_onConsole (dispatchRules_sameFifo hread).simplePutchar) fun _ => Prog.Keeps.pure ()

/-! ### Input -/

theorem accounting_writeCPUQ {c : UInt8} (hc : c ≠ 0 ∧ c ≠ 0x03) :
    Prog.Keeps (Accounting (σ := σ)) (watchedWriteCPUQ c) :=
  fun _ h => h.writeCPUQ hc

/-- A line is queued up to its first NUL. -/
theorem accounting_writeScreenline {line : List UInt8} (hline : ∀ c ∈ line, c ≠ 0x03) :
    Prog.Keeps (Accounting (σ := σ)) (watchedWriteScreenline line) := by
  induction line with
  | nil => exact Prog.Keeps.pure true
  | cons c line ih =>
    rw [List.forall_mem_cons] at hline
    refine Prog.Keeps.ite (fun _ => Prog.Keeps.pure true) fun hc => ?_
    refine (accounting_writeCPUQ ⟨hc, hline.1⟩).bind fun _ => ?_
    exact Prog.Keeps.ite (fun _ => ih hline.2) fun _ => Prog.Keeps.pure false

theorem accounting_inputFailed (allowReturnToICM : Bool) :
    Prog.Keeps (Accounting (σ := σ)) (quiet (inputFailed allowReturnToICM)) :=
  accounting_quiet fun t => (refuses_inputFailed allowReturnToICM t).2.symm

theorem accounting_finishInput {c : UInt8} (hc : c ≠ 0 ∧ c ≠ 0x03) (allowReturnToICM : Bool) :
    Prog.Keeps (Accounting (σ := σ)) (watchedFinishInput c allowReturnToICM) :=
  (accounting_writeCPUQ hc).bind fun _ => Prog.Keeps.ite (fun _ => Prog.Keeps.pure true) fun _ =>
    accounting_inputFailed allowReturnToICM

/-- A line of the screen has no control characters. -/
theorem le_screenline {s : Vdu} (hs : s.text.Printable) {row : Nat} (hrow : row < ROWS) :
    ∀ c ∈ s.vduGetScreenline row, 0x20 ≤ c := by
  intro c hc
  have hmem := (List.rdropWhile_prefix _ _).subset hc
  obtain ⟨col, hcol, rfl⟩ := List.mem_map.1 hmem
  exact hs row hrow col (List.mem_range.1 hcol)

theorem accounting_enterScreenline (allowReturnToICM : Bool) {t : InputLedger σ}
    (hscreen : t.now.vdu.text.Printable) (hrow : t.now.vdu.gCursor.row < ROWS) :
    Accounting t ((watchedEnterScreenline allowReturnToICM).final t) := by
  have hline : ∀ c ∈ t.now.vdu.vduGetScreenline t.now.vdu.gCursor.row, c ≠ 0x03 := by
    rintro c hc rfl
    exact absurd (le_screenline hscreen hrow _ hc) (by decide)
  have hcr : '\r'.toUInt8 ≠ 0 ∧ '\r'.toUInt8 ≠ 0x03 := by decide
  have hrest : Prog.Keeps (Accounting (σ := σ)) (do
      quiet (onVdu vduRestoreCursor)
      if ← watchedWriteScreenline (t.now.vdu.vduGetScreenline t.now.vdu.gCursor.row) then
        watchedFinishInput '\r'.toUInt8 allowReturnToICM
      else
        quiet (inputFailed allowReturnToICM)) :=
    (accounting_quiet fun _ => by rfl).bind fun _ => (accounting_writeScreenline hline).bind fun _ =>
      Prog.Keeps.ite (fun _ => accounting_finishInput hcr _) fun _ => accounting_inputFailed _
  exact hrest t

/-- A byte of input, with the cursor inside the screen. -/
theorem accounting_consoleInput {c : UInt8} (hc : c ≠ 0) (allowReturnToICM : Bool) {t : InputLedger σ}
    (hscreen : t.now.vdu.text.Printable) (hrow : t.now.vdu.gCursor.row < ROWS) :
    Accounting t ((watchedConsoleInput c allowReturnToICM).final t) := by
  rw [watchedConsoleInput]
  split
  · exact (accounting_onConsole fun _ => by rfl).bind (fun _ => Prog.Keeps.pure true) t
  rename_i hbreak
  have hfinish := accounting_finishInput (σ := σ) ⟨hc, hbreak⟩ allowReturnToICM
  split
  · exact (accounting_quiet fun _ => by rfl).bind (fun _ => Prog.Keeps.pure true) t
  split
  · -- The echo leaves the display alone.
    rw [Prog.final_bind]
    refine trans_of Accounting (accounting_onConsole (sameFifo_writeVDUQ '\r'.toUInt8) t) ?_
    simp only [Prog.final_bind, Prog.result_now, Prog.final_now, Prog.final_ite]
    split
    · exact accounting_enterScreenline allowReturnToICM hscreen hrow
    · exact hfinish _
  · refine (accounting_onConsole (sameFifo_writeVDUQ c)).bind (fun _ => Prog.Keeps.now.bind fun u => ?_) t
    exact Prog.Keeps.ite (fun _ => Prog.Keeps.pure true) fun _ => hfinish

end Accounting

end NeoMmu
