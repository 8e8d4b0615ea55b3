import Mathlib.Logic.Relation
import NeoMmu.Mailbox.Handshake
import NeoMmu.Mailbox.Monitor

/-!
# What the firmware is made of on the 6502 side

Every task and every monitor command is a sequence of a few kinds of calls on the board, with changes of
the other statics in between. `Called` says that one state of the firmware leads to another by such
calls; what one call keeps, whole operations keep, and so do all the states in the middle of them.
-/

namespace NeoMmu

variable {σ α : Type}

/-! ## The calls -/

/-- The snooping functions of `neobus.cpp`. -/
inductive SnoopCall
  | readLoc (vAddress : UInt16)
  | read (vAddress vBytes : UInt16)
  | writeLoc (vAddress : UInt16) (vData : UInt8)
  | write (vAddress : UInt16) (vBuffer : List UInt8)

/-- What a snooping function does. -/
def SnoopCall.run : SnoopCall → Prog Machine Unit
  | .readLoc vAddress => discard <| snoopRead6502MemoryLoc vAddress
  | .read vAddress vBytes => discard <| snoopRead6502Memory vAddress vBytes
  | .writeLoc vAddress vData => snoopWrite6502MemoryLoc vAddress vData
  | .write vAddress vBuffer => snoopWrite6502Memory vAddress vBuffer

/-- The bytes a snooping function is asked to write. -/
def SnoopCall.asked : SnoopCall → List (UInt16 × UInt8)
  | .readLoc _ => []
  | .read _ _ => []
  | .writeLoc vAddress vData => [(vAddress, vData)]
  | .write vAddress vBuffer => blockWrites vAddress vBuffer

/-- A block that is written has at most 65535 bytes. -/
def SnoopCall.Fits : SnoopCall → Prop
  | .write _ vBuffer => vBuffer.length ≤ 65535
  | _ => True

/-- What the filesystem requests do between `rp_fs_mb_begin_context_access()` and
`rp_fs_mb_end_context_access()`. -/
inductive ContextCall
  | readBlock (context : UInt8) (address length : UInt16)
  | writeBlock (context : UInt8) (address : UInt16) (src : List UInt8)
  | readPath (context : UInt8) (address max_len : UInt16) (dst_len : Nat)
  | transfer (operation handle context : UInt8) (mem_ptr : UInt16) (transfer_size : Nat)

/-- The access, with the checks in front of it. -/
def ContextCall.run (ff : FatFs σ) : ContextCall → Prog (Firmware σ) Unit
  | .readBlock context address length => discard <| rpFsMbReadContextBlock context address length
  | .writeBlock context address src => discard <| rpFsMbWriteContextBlock context address src
  | .readPath context address max_len dst_len =>
    discard <| rpFsMbReadContextPath context address max_len dst_len
  | .transfer operation handle context mem_ptr transfer_size =>
    discard <| withContext context (bulkLoop ff operation handle mem_ptr transfer_size 0)

/-- The context an access names. -/
def ContextCall.context : ContextCall → UInt8
  | .readBlock context _ _ => context
  | .writeBlock context _ _ => context
  | .readPath context _ _ _ => context
  | .transfer _ _ context _ _ => context

/-- The addresses an access is asked to write. -/
def ContextCall.Asked : ContextCall → UInt16 → Prop
  | .readBlock _ _ _, _ => False
  | .writeBlock _ address src, a => ∃ i < src.length, a = address + UInt16.ofNat i
  | .readPath _ _ _ _, _ => False
  | .transfer operation _ _ mem_ptr transfer_size, a =>
    operation = RP_FS_OP_LOAD ∧ ∃ i < transfer_size, a = mem_ptr + UInt16.ofNat i

/-- What the firmware, the 6502 and its devices do to the board outside of filesystem requests. -/
inductive BoardCall
  | snoop (call : SnoopCall)
  | set6502State (vSysState : SysState)
  | schedSwitchcontext (vContext : UInt8)
  | singleCycle6502 (vSteps : UInt8)
  | singleStep6502
  | setIRQPin (level : Bool)
  | ackMMUIO
  | cmdMMU
  | cmdPage (lIndex lPage : UInt8)
  | cmdZero
  | fsbulkPrepareContext (context device : UInt8) (save_args : Bool) (byte_count : UInt16)
  | fsbulkCompareContext (context : UInt8)
  | bootSystemWithMenu (flash : Flash) (tables : SystemTables) (boot_context : UInt8)
      (lines : List (Option Int))
  /-- The memory changes under the firmware. -/
  | memory (ram : UInt8 × UInt16 → UInt8)
  /-- The falling edge of `pMMUIO`. -/
  | intrMMUIO

/-- What a call does. -/
def BoardCall.run : BoardCall → Prog Machine Unit
  | .snoop call => call.run
  | .set6502State vSysState => discard <| NeoMmu.set6502State vSysState
  | .schedSwitchcontext vContext => NeoMmu.schedSwitchcontext vContext
  | .singleCycle6502 vSteps => NeoMmu.singleCycle6502 vSteps
  | .singleStep6502 => NeoMmu.singleStep6502
  | .setIRQPin level => NeoMmu.setIRQPin level
  | BoardCall.ackMMUIO => NeoMmu.ackMMUIO
  | .cmdMMU => NeoMmu.cmdMMU
  | .cmdPage lIndex lPage => NeoMmu.cmdPage lIndex lPage
  | .cmdZero => NeoMmu.cmdZero
  | .fsbulkPrepareContext context device save_args byte_count =>
    discard <| NeoMmu.fsbulkPrepareContext context device save_args byte_count
  | .fsbulkCompareContext context => discard <| NeoMmu.fsbulkCompareContext context
  | .bootSystemWithMenu flash tables boot_context lines =>
    discard <| NeoMmu.bootSystemWithMenu flash tables boot_context lines
  | .memory ram => modify fun m => { m with ram := ram }
  | BoardCall.intrMMUIO => NeoMmu.intrMMUIO

/-- One step of the firmware. -/
inductive Call (σ : Type)
  | board (call : BoardCall)
  | context (call : ContextCall)
  /-- The other statics and the storage become those of `f`. -/
  | statics (f : Firmware σ)

/-- The firmware after a step. -/
def Call.next (ff : FatFs σ) (f : Firmware σ) : Call σ → Firmware σ
  | .board call => (onHw call.run).final f
  | .context call => (call.run ff).final f
  | .statics f' => { f' with hw := f.hw }

/-- The firmware gets from one state to the other by calls. -/
def Called (ff : FatFs σ) : Firmware σ → Firmware σ → Prop :=
  Relation.ReflTransGen fun f f' => ∃ call : Call σ, f' = call.next ff f

/-- The board gets from one state to the other by calls. -/
def BoardCalled : Machine → Machine → Prop :=
  Relation.ReflTransGen fun m m' => ∃ call : BoardCall, m' = call.run.final m

/-- The board gets from one state to the other by snooping. -/
def SnoopCalled : Machine → Machine → Prop :=
  Relation.ReflTransGen fun m m' => ∃ call : SnoopCall, m' = call.run.final m

instance (ff : FatFs σ) : Std.Refl (Called ff) where
  refl _ := .refl

instance (ff : FatFs σ) : IsTrans (Firmware σ) (Called ff) where
  trans _ _ _ := .trans

instance : Std.Refl BoardCalled where
  refl _ := .refl

instance : IsTrans Machine BoardCalled where
  trans _ _ _ := .trans

instance : Std.Refl SnoopCalled where
  refl _ := .refl

instance : IsTrans Machine SnoopCalled where
  trans _ _ _ := .trans

/-! ## Calls on the board -/

section Board

theorem snoopCalled_run (call : SnoopCall) : Prog.Keeps SnoopCalled call.run :=
  fun _ => .single ⟨call, rfl⟩

theorem snoopCalled_read (a : UInt16) : Prog.Keeps SnoopCalled (snoopRead6502MemoryLoc a) :=
  snoopCalled_run (.readLoc a)

theorem snoopCalled_readBlock (a n : UInt16) : Prog.Keeps SnoopCalled (snoopRead6502Memory a n) :=
  snoopCalled_run (.read a n)

theorem snoopCalled_write (a : UInt16) (b : UInt8) :
    Prog.Keeps SnoopCalled (snoopWrite6502MemoryLoc a b) :=
  snoopCalled_run (.writeLoc a b)

theorem snoopCalled_writeBlock (a : UInt16) (bs : List UInt8) :
    Prog.Keeps SnoopCalled (snoopWrite6502Memory a bs) :=
  snoopCalled_run (.write a bs)

theorem snoopCalled_rpRead16 (a : UInt16) : Prog.Keeps SnoopCalled (rpRead16 a) :=
  (snoopCalled_read a).bind fun _ => (snoopCalled_read (a + 1)).bind fun _ => Prog.Keeps.pure _

theorem snoopCalled_rpWrite16 (a v : UInt16) : Prog.Keeps SnoopCalled (rpWrite16 a v) :=
  (snoopCalled_write a _).bind fun _ => snoopCalled_write (a + 1) _

theorem snoopCalled_clearResultFields : Prog.Keeps SnoopCalled rpMailboxClearResultFields :=
  (snoopCalled_rpWrite16 _ _).bind fun _ => (snoopCalled_rpWrite16 _ _).bind fun _ =>
    (snoopCalled_write _ _).bind fun _ => snoopCalled_write _ _

theorem snoopCalled_publish (res0 res1 : UInt16) (err flags status : UInt8) :
    Prog.Keeps SnoopCalled (rpMailboxPublish res0 res1 err flags status) :=
  (snoopCalled_rpWrite16 _ _).bind fun _ => (snoopCalled_rpWrite16 _ _).bind fun _ =>
    (snoopCalled_write _ _).bind fun _ => (snoopCalled_write _ _).bind fun _ =>
      (snoopCalled_write _ _).bind fun _ => snoopCalled_write _ _

theorem snoopCalled_requestPending : Prog.Keeps SnoopCalled requestPending :=
  (snoopCalled_read _).bind fun _ => Prog.Keeps.ite (fun _ => Prog.Keeps.pure _) fun _ =>
    (snoopCalled_read _).bind fun _ => Prog.Keeps.pure _

theorem snoopCalled_clearSlot : Prog.Keeps SnoopCalled clearSlot :=
  (snoopCalled_write _ _).bind fun _ => snoopCalled_write _ _

theorem snoopCalled_ackCommand6502 : Prog.Keeps SnoopCalled ackCommand6502 :=
  (snoopCalled_read _).bind fun _ => Prog.Keeps.ite (fun _ => snoopCalled_write _ _) fun _ =>
    Prog.Keeps.pure ()

theorem snoopCalled_disasm6502 (addr : UInt16) : Prog.Keeps SnoopCalled (disasm6502 addr) :=
  (snoopCalled_readBlock _ _).discard.bind fun _ =>
    (snoopCalled_readBlock _ _).discard.bind fun _ =>
      (snoopCalled_readBlock _ _).discard.bind fun _ =>
        (snoopCalled_readBlock _ _).discard.bind fun _ => (snoopCalled_readBlock _ _).discard

theorem snoopCalled_clearBlock : Prog.Keeps SnoopCalled clearBlock := by
  iterate 13 refine (snoopCalled_write _ _).bind fun _ => ?_
  exact (snoopCalled_rpWrite16 _ _).bind fun _ => snoopCalled_rpWrite16 _ _

theorem snoopCalled_fsbulkPrepareMailbox (operation context : UInt8) :
    Prog.Keeps SnoopCalled (fsbulkPrepareMailbox operation context) := by
  refine snoopCalled_clearResultFields.bind fun _ => ?_
  iterate 4 refine (snoopCalled_write _ _).bind fun _ => ?_
  refine (snoopCalled_rpWrite16 _ _).bind fun _ => ?_
  iterate 2 refine (snoopCalled_write _ _).bind fun _ => ?_
  exact snoopCalled_rpWrite16 _ _

theorem snoopCalled_fsbulkPrintResult : Prog.Keeps SnoopCalled fsbulkPrintResult :=
  (snoopCalled_read _).bind fun _ => (snoopCalled_read _).discard.bind fun _ =>
    (snoopCalled_rpRead16 _).discard.bind fun _ => (snoopCalled_read _).discard.bind fun _ =>
      Prog.Keeps.pure _

/-- What is made of snooping calls keeps what they keep. -/
theorem keeps_of_snoopCalled {R : Machine → Machine → Prop} [Std.Refl R] [IsTrans Machine R]
    (hR : ∀ call : SnoopCall, Prog.Keeps R call.run) {p : Prog Machine α} (hp : Prog.Keeps SnoopCalled p) :
    Prog.Keeps R p := by
  refine hp.mono fun m m' h => ?_
  induction h with
  | refl => exact refl m
  | tail _ hcall ih =>
    obtain ⟨call, rfl⟩ := hcall
    exact trans_of R ih (hR call _)

theorem boardCalled_run (call : BoardCall) : Prog.Keeps BoardCalled call.run :=
  fun _ => .single ⟨call, rfl⟩

theorem boardCalled_of_snoop {m m' : Machine} (h : SnoopCalled m m') : BoardCalled m m' :=
  Relation.ReflTransGen.mono (fun _ _ ⟨call, heq⟩ => ⟨.snoop call, heq⟩) _ _ h

theorem boardCalled_cmdSS (addresses : List UInt16) : Prog.Keeps BoardCalled (cmdSS addresses) :=
  Prog.Keeps.forM fun addr _ => (boardCalled_run .singleStep6502).bind fun _ =>
    (snoopCalled_disasm6502 addr).mono fun _ _ => boardCalled_of_snoop

end Board

/-! ## Calls of the firmware -/

section Firmware

variable {ff : FatFs σ}

theorem called_of_board {f : Firmware σ} {m : Machine} (h : BoardCalled f.hw m) :
    Called ff f { f with hw := m } := by
  induction h with
  | refl => exact refl f
  | tail _ hcall ih =>
    obtain ⟨call, rfl⟩ := hcall
    exact ih.tail ⟨.board call, rfl⟩

theorem called_onHw {p : Prog Machine α} (hp : Prog.Keeps BoardCalled p) :
    Prog.Keeps (Called ff) (onHw p) :=
  fun f => called_of_board (hp f.hw)

theorem called_of_hw {f f' : Firmware σ} (h : f'.hw = f.hw) : Called ff f f' := by
  refine .single ⟨.statics f', ?_⟩
  rw [Call.next, ← h]

theorem called_statics {g : Firmware σ → Firmware σ} (hg : ∀ f, (g f).hw = f.hw) :
    Prog.Keeps (Called ff) (modify g : Prog (Firmware σ) Unit) :=
  Prog.Keeps.modify fun f => called_of_hw (hg f)

theorem called_onStorage (p : Prog (Storage σ) α) : Prog.Keeps (Called ff) (onStorage p) :=
  fun _ => called_of_hw rfl

theorem called_emit (e : Event) : Prog.Keeps (Called ff) (emit e) := called_statics fun _ => rfl

theorem called_snoop {p : Prog Machine α} (hp : Prog.Keeps SnoopCalled p) :
    Prog.Keeps (Called ff) (onHw p) :=
  called_onHw (hp.mono fun _ _ => boardCalled_of_snoop)

theorem called_context (call : ContextCall) : Prog.Keeps (Called ff) (call.run ff) :=
  fun _ => .single ⟨.context call, rfl⟩

/-! ### Filesystem requests -/

theorem requestRules_called (context : UInt8) :
    RequestRules (Called ff) (fun _ _ => True) context where
  storage p _ := called_onStorage p
  snoopRead a := called_snoop (snoopCalled_read a)
  readBlock a n := called_context (.readBlock context a n)
  readPath a n dst_len := called_context (.readPath context a n dst_len)
  reply _ _ _ _ _ := (called_emit _).bind fun _ => called_snoop (snoopCalled_publish _ _ _ _ _)
  writeBlock a src _ := called_context (.writeBlock context a src)
  cwd _ := called_statics fun _ => rfl

theorem called_bulkOnPath (op c : UInt8) (path : RPFSResolvedPath) (mem_ptr size_word : UInt16) :
    Prog.Keeps (Called ff) (bulkOnPath ff op c path mem_ptr size_word) := by
  have hrules : RequestRules (Called ff) (fun _ _ => True) c := requestRules_called c
  refine (called_onStorage _).bind fun opened => ?_
  rcases opened with ⟨- | handle, n⟩
  · exact hrules.deviceError _
  · exact hrules.keeps_bulkTransfer (fun _ => trivial) fun _ =>
      called_context (.transfer op handle c mem_ptr n)

/-- A request is a run of snooping calls, context accesses and storage calls. -/
theorem called_handleExec (hread : ReadsAtMost ff) :
    Prog.Keeps (Called ff) (rpFsMailboxHandleExec ff) := by
  have hfiles := fileRules_true ff
  have : Std.Refl (fun _ _ : Storage σ => True) := ⟨fun _ => trivial⟩
  refine (called_snoop (snoopCalled_read _)).bind fun op =>
    (called_snoop (snoopCalled_read _)).bind fun pid =>
      (called_snoop (snoopCalled_read _)).bind fun c => ?_
  have hrules : RequestRules (Called ff) (fun _ _ => True) c := requestRules_called c
  have hoperation : Prog.Keeps (Called ff) (checkedOperation ff op pid c) :=
    hrules.keeps_checkedOperation pid hfiles hread
      (fun _ _ => hrules.keeps_execBulk (called_bulkOnPath op c)) fun _ _ _ _ _ => trivial
  refine hoperation.bind fun _ => Prog.Keeps.ite (fun _ => ?_) fun _ => Prog.Keeps.pure _
  refine Prog.Keeps.bind ?_ fun _ => Prog.Keeps.pure _
  exact (called_emit _).bind fun _ => called_statics fun _ => rfl

end Firmware

/-! ## Tasks and monitor commands

What keeps a relation between firmware states in every part of `loop()`, from what keeps it in the board, the
queues, the flags of the interrupts and the requests.
-/

section System

variable {R : Firmware σ → Firmware σ → Prop}

theorem keeps_onScheduler {p : Prog (Scheduler σ) α}
    (hp : Prog.Keeps (Order.Preimage (·.firmware) R) p) :
    Prog.Keeps (Order.Preimage (·.scheduler.firmware) R) (onScheduler p) :=
  hp.on fun _ _ h => h

theorem keeps_onFirmware {p : Prog (Firmware σ) α} (hp : Prog.Keeps R p) :
    Prog.Keeps (Order.Preimage (·.scheduler.firmware) R) (onScheduler (onFirmware p)) :=
  keeps_onScheduler (hp.on fun _ _ h => h)

theorem keeps_statics [Std.Refl R] {g : System σ → System σ} (hg : ∀ s, (g s).scheduler = s.scheduler) :
    Prog.Keeps (Order.Preimage (·.scheduler.firmware) R) (modify g : Prog (System σ) Unit) := by
  refine Prog.Keeps.modify fun s => ?_
  show R s.scheduler.firmware (g s).scheduler.firmware
  rw [hg]
  exact refl _

end System

/-- Only the statics of the mailbox and of the queues differ. -/
def ConsoleOnly (f f' : Firmware σ) : Prop :=
  f' = { f with
    mailbox_state := f'.mailbox_state, lastCheck := f'.lastCheck, lCount := f'.lCount,
    gConsoleTarget := f'.gConsoleTarget, gConsoleLen := f'.gConsoleLen,
    gConsoleCurrent := f'.gConsoleCurrent, gConsoleRemaining := f'.gConsoleRemaining,
    cpu_tx_fifo := f'.cpu_tx_fifo, vdu_tx_fifo := f'.vdu_tx_fifo }

/-- As `ConsoleOnly`, and the queue of input is left as it was. -/
def TransferOnly (f f' : Firmware σ) : Prop :=
  f' = { f with
    mailbox_state := f'.mailbox_state, lastCheck := f'.lastCheck, lCount := f'.lCount,
    gConsoleTarget := f'.gConsoleTarget, gConsoleLen := f'.gConsoleLen,
    gConsoleCurrent := f'.gConsoleCurrent, gConsoleRemaining := f'.gConsoleRemaining,
    vdu_tx_fifo := f'.vdu_tx_fifo }

theorem TransferOnly.console {f f' : Firmware σ} (h : TransferOnly f f') : ConsoleOnly f f' := by
  have hqueue : f'.cpu_tx_fifo = f.cpu_tx_fifo := by rw [h]
  rw [ConsoleOnly, hqueue]
  exact h

/-- What the mailbox task is made of, but for the taking of input, keeps `R`. -/
structure DispatchRules (ff : FatFs σ) (R : Firmware σ → Firmware σ → Prop) : Prop where
  snoop : ∀ call : SnoopCall, Prog.Keeps R (onHw call.run)
  ackMMUIO : Prog.Keeps R (onHw NeoMmu.ackMMUIO)
  emit : ∀ e, e ≠ .completionIRQ → Prog.Keeps R (emit e)
  transfer : ∀ f f', TransferOnly f f' → R f f'
  request : Prog.Keeps R (rpFsMailboxHandleExec ff)

/-- What the mailbox task is made of keeps `R`. -/
structure MailboxRules (ff : FatFs σ) (R : Firmware σ → Firmware σ → Prop) : Prop where
  snoop : ∀ call : SnoopCall, Prog.Keeps R (onHw call.run)
  ackMMUIO : Prog.Keeps R (onHw NeoMmu.ackMMUIO)
  emit : ∀ e, e ≠ .completionIRQ → Prog.Keeps R (emit e)
  console : ∀ f f', ConsoleOnly f f' → R f f'
  request : Prog.Keeps R (rpFsMailboxHandleExec ff)
  close : Prog.Keeps R (rpFsMailboxReset ff)

/-- What the tasks are made of keeps `R`. -/
structure TaskRules (ff : FatFs σ) (R : Firmware σ → Firmware σ → Prop) : Prop extends
    MailboxRules ff R where
  setIRQPin : ∀ level, Prog.Keeps R (onHw (setIRQPin level))
  gIntrPending : ∀ b f, R f { f with gIntrPending := b }
  dropBreak : ∀ f, R f { f with gConsoleBreakPending := false }
  dropCompletion : ∀ f, R f { f with gFsCompletionPending := false }

namespace DispatchRules

variable {ff : FatFs σ} {R : Firmware σ → Firmware σ → Prop}

theorem statics (rules : DispatchRules ff R) {g : Firmware σ → Firmware σ} (hg : ∀ f, TransferOnly f (g f)) :
    Prog.Keeps R (modify g : Prog (Firmware σ) Unit) :=
  Prog.Keeps.modify fun f => rules.transfer f _ (hg f)

theorem snoopWrite (rules : DispatchRules ff R) (a : UInt16) (b : UInt8) :
    Prog.Keeps R (onHw (snoopWrite6502MemoryLoc a b)) :=
  rules.snoop (.writeLoc a b)

theorem writeVDUQ (rules : DispatchRules ff R) (c : UInt8) : Prog.Keeps R (writeVDUQ c) := by
  refine rules.statics fun f => ?_
  split <;> rfl

variable [Std.Refl R] [IsTrans (Firmware σ) R]

/-- What is made of snooping calls. -/
theorem snooping (rules : DispatchRules ff R) {p : Prog Machine α} (hp : Prog.Keeps SnoopCalled p) :
    Prog.Keeps R (onHw p) := by
  intro f
  have hcalled : SnoopCalled f.hw (p.final f.hw) := hp f.hw
  have hlift : ∀ m, SnoopCalled f.hw m → R f { f with hw := m } := by
    intro m h
    induction h with
    | refl => exact refl f
    | tail _ hcall ih =>
      obtain ⟨call, rfl⟩ := hcall
      exact trans_of R ih (rules.snoop call _)
  exact hlift _ hcalled

theorem snoopRead (rules : DispatchRules ff R) (a : UInt16) :
    Prog.Keeps R (onHw (snoopRead6502MemoryLoc a)) :=
  rules.snooping (snoopCalled_read a)

theorem setDone (rules : DispatchRules ff R) (result : UInt16) (flags : UInt8) :
    Prog.Keeps R (rpMailboxSetDone result flags) :=
  (rules.emit (.result RP_DONE RP_ERR_OK) nofun).bind fun _ =>
    rules.snooping (snoopCalled_publish _ _ _ _ _)

theorem setError (rules : DispatchRules ff R) (err : UInt8) (partialResult : UInt16) :
    Prog.Keeps R (rpMailboxSetError err partialResult) :=
  (rules.emit (.result RP_ERROR err) nofun).bind fun _ => rules.snooping (snoopCalled_publish _ _ _ _ _)

theorem outputBytes (rules : DispatchRules ff R) (buffer : List UInt8) :
    Prog.Keeps R (rpConsoleOutputBytes buffer) := by
  induction buffer with
  | nil => exact Prog.Keeps.pure ()
  | cons c buffer ih => exact (rules.writeVDUQ c).bind fun _ => ih

theorem handleWrite (rules : DispatchRules ff R) : Prog.Keeps R rpConsoleIoHandleWrite := by
  refine (rules.snooping (snoopCalled_rpRead16 _)).bind fun _ =>
    (rules.snooping (snoopCalled_rpRead16 _)).bind fun _ =>
      Prog.Keeps.bind (rules.statics fun _ => rfl) fun _ => ?_
  refine Prog.Keeps.ite (fun _ => ?_) fun _ => ?_
  · exact (rules.setDone _ _).bind fun _ => Prog.Keeps.pure _
  · exact Prog.Keeps.bind (rules.statics fun _ => rfl) fun _ => Prog.Keeps.pure _

theorem handleRead (rules : DispatchRules ff R) : Prog.Keeps R rpConsoleIoHandleRead := by
  refine (rules.snooping (snoopCalled_rpRead16 _)).bind fun _ =>
    (rules.snooping (snoopCalled_rpRead16 _)).bind fun _ =>
      Prog.Keeps.bind (rules.statics fun _ => rfl) fun _ => ?_
  refine Prog.Keeps.ite (fun _ => ?_) fun _ => ?_
  · exact (rules.setDone _ _).bind fun _ => Prog.Keeps.pure _
  · exact Prog.Keeps.bind (rules.statics fun _ => rfl) fun _ => Prog.Keeps.pure _

theorem processWrite (rules : DispatchRules ff R) : Prog.Keeps R rpConsoleIoProcessWrite := by
  refine Prog.Keeps.get.bind fun f => Prog.Keeps.ite (fun _ => ?_) fun _ => ?_
  · refine (rules.snooping (snoopCalled_readBlock _ _)).bind fun _ => ?_
    refine (rules.outputBytes _).bind fun _ => ?_
    exact Prog.Keeps.bind (rules.statics fun _ => rfl) fun _ => Prog.Keeps.pure _
  · exact (rules.setDone _ _).bind fun _ => Prog.Keeps.pure _

theorem dispatch (rules : DispatchRules ff R) (group cmd : UInt8) :
    Prog.Keeps R (rpDispatchMailboxCommand ff group cmd) := by
  have hcommand : ∀ handler : Prog (Firmware σ) MailboxState, Prog.Keeps R handler →
      Prog.Keeps R (do onHw rpMailboxClearResultFields; handler) :=
    fun _ hhandler => (rules.snooping snoopCalled_clearResultFields).bind fun _ => hhandler
  unfold rpDispatchMailboxCommand
  rcases rpFindMailboxCommand_cases ff group cmd with ⟨-, h | h⟩ | ⟨-, h | h⟩
  · rw [h]
    exact hcommand _ rules.handleWrite
  · rw [h]
    exact hcommand _ rules.handleRead
  · rw [h]
    exact hcommand _ rules.request
  · rw [h]
    exact (rules.setError _ _).bind fun _ => Prog.Keeps.pure _

theorem pollIdle (rules : DispatchRules ff R) : Prog.Keeps R (pollIdle ff) := by
  refine Prog.Keeps.get.bind fun f => Prog.Keeps.ite (fun _ => rules.statics fun _ => rfl) fun _ => ?_
  refine rules.ackMMUIO.bind fun _ => Prog.Keeps.bind (rules.statics fun _ => rfl) fun _ => ?_
  refine (rules.snooping snoopCalled_requestPending).bind fun _ => ?_
  refine Prog.Keeps.ite (fun _ => ?_) fun _ => Prog.Keeps.pure ()
  refine Prog.Keeps.bind ?_ fun _ => rules.statics fun _ => rfl
  exact (rules.snoopRead _).bind fun group => (rules.snoopRead _).bind fun cmd =>
    (rules.emit (.dispatch group cmd) nofun).bind fun _ => rules.dispatch group cmd

theorem updateConsoleReady (rules : DispatchRules ff R) : Prog.Keeps R updateConsoleReady := by
  refine Prog.Keeps.get.bind fun f => Prog.Keeps.ite (fun _ => ?_) fun _ => Prog.Keeps.pure ()
  exact (rules.snoopWrite _ _).bind fun _ => rules.statics fun _ => rfl

theorem simplePutchar (rules : DispatchRules ff R) : Prog.Keeps R simplePutchar := by
  refine Prog.Keeps.get.bind fun f => Prog.Keeps.ite (fun _ => ?_) fun _ => Prog.Keeps.pure _
  refine (rules.snoopRead _).bind fun _ => Prog.Keeps.ite (fun _ => ?_) fun _ => Prog.Keeps.pure _
  exact (rules.writeVDUQ _).bind fun _ => rules.snoopWrite _ _

/-- A poll that finds no READ. -/
theorem mailboxFsm (rules : DispatchRules ff R) {f : Firmware σ} (hstate : f.mailbox_state ≠ .mbREAD) :
    R f ((mailboxFsm ff).final f) := by
  simp only [NeoMmu.mailboxFsm, Prog.final_bind, Prog.result_get, Prog.final_get]
  split
  · exact rules.transfer _ _ rfl
  · exact rules.pollIdle f
  · refine Prog.Keeps.bind rules.processWrite (fun _ => ?_) f
    exact Prog.Keeps.ite (fun _ => rules.statics fun _ => rfl) fun _ => Prog.Keeps.pure ()
  · exact absurd ‹_› hstate
  · exact rules.transfer _ _ rfl

end DispatchRules

namespace MailboxRules

variable {ff : FatFs σ} {R : Firmware σ → Firmware σ → Prop}

theorem dispatchRules (rules : MailboxRules ff R) : DispatchRules ff R where
  snoop := rules.snoop
  ackMMUIO := rules.ackMMUIO
  emit := rules.emit
  transfer f f' h := rules.console f f' h.console
  request := rules.request

theorem statics (rules : MailboxRules ff R) {g : Firmware σ → Firmware σ} (hg : ∀ f, ConsoleOnly f (g f)) :
    Prog.Keeps R (modify g : Prog (Firmware σ) Unit) :=
  Prog.Keeps.modify fun f => rules.console f _ (hg f)

theorem snoopWrite (rules : MailboxRules ff R) (a : UInt16) (b : UInt8) :
    Prog.Keeps R (onHw (snoopWrite6502MemoryLoc a b)) :=
  rules.dispatchRules.snoopWrite a b

variable [Std.Refl R] [IsTrans (Firmware σ) R]

theorem snooping (rules : MailboxRules ff R) {p : Prog Machine α} (hp : Prog.Keeps SnoopCalled p) :
    Prog.Keeps R (onHw p) :=
  rules.dispatchRules.snooping hp

theorem snoopRead (rules : MailboxRules ff R) (a : UInt16) :
    Prog.Keeps R (onHw (snoopRead6502MemoryLoc a)) :=
  rules.dispatchRules.snoopRead a

/-! ### The mailbox task -/

theorem readCPUQ (rules : MailboxRules ff R) : Prog.Keeps R readCPUQ := by
  refine Prog.Keeps.get.bind fun f => ?_
  split
  · exact Prog.Keeps.pure 0
  · exact Prog.Keeps.bind (rules.statics fun _ => rfl) fun _ => Prog.Keeps.pure _

theorem writeCPUQ (rules : MailboxRules ff R) (c : UInt8) : Prog.Keeps R (writeCPUQ c) := by
  refine Prog.Keeps.get.bind fun f => Prog.Keeps.ite (fun _ => Prog.Keeps.pure _) fun _ => ?_
  exact Prog.Keeps.bind (rules.statics fun _ => rfl) fun _ => Prog.Keeps.pure _

theorem inputBytes (rules : MailboxRules ff R) (n : Nat) : Prog.Keeps R (rpConsoleInputBytes n) := by
  induction n with
  | zero => exact Prog.Keeps.pure []
  | succ n ih =>
    refine rules.readCPUQ.bind fun c => Prog.Keeps.ite (fun _ => Prog.Keeps.pure []) fun _ => ?_
    exact ih.bind fun _ => Prog.Keeps.pure _

theorem processRead (rules : MailboxRules ff R) : Prog.Keeps R rpConsoleIoProcessRead := by
  refine Prog.Keeps.get.bind fun f => (rules.inputBytes _).bind fun buffer => ?_
  refine Prog.Keeps.ite (fun _ => Prog.Keeps.pure _) fun _ => ?_
  exact (rules.snoop (.write _ _)).bind fun _ => (rules.dispatchRules.setDone _ _).bind fun _ => Prog.Keeps.pure _

theorem taskMailbox (rules : MailboxRules ff R) : Prog.Keeps R (taskMailbox ff) := by
  refine rules.dispatchRules.updateConsoleReady.bind fun _ f => ?_
  by_cases hstate : f.mailbox_state = .mbREAD
  · have hread : Prog.Keeps R (do
        if ← rpConsoleIoProcessRead then
          modify fun f => { f with mailbox_state := .mbDONE } : Prog (Firmware σ) Unit) :=
      rules.processRead.bind fun _ => Prog.Keeps.ite (fun _ => rules.statics fun _ => rfl) fun _ => Prog.Keeps.pure ()
    rw [mailboxFsm, Prog.final_bind, Prog.result_get, Prog.final_get, hstate]
    exact hread f
  · exact rules.dispatchRules.mailboxFsm hstate

theorem initMailbox (rules : MailboxRules ff R) : Prog.Keeps R (initMailbox ff) := by
  refine (rules.emit .reset nofun).bind fun _ => (rules.snooping snoopCalled_clearBlock).bind fun _ => ?_
  refine Prog.Keeps.bind (rules.statics fun _ => rfl) fun _ => rules.close.bind fun _ => ?_
  exact (rules.snoopWrite _ _).bind fun _ => (rules.snoopWrite _ _).bind fun _ => rules.snoopWrite _ _

theorem taskSimpleIO (rules : MailboxRules ff R) : Prog.Keeps R taskSimpleIO := by
  have hget : Prog.Keeps R simpleGetchar := by
    refine (rules.snoopRead _).bind fun _ => Prog.Keeps.ite (fun _ => ?_) fun _ => Prog.Keeps.pure _
    exact rules.readCPUQ.bind fun _ => Prog.Keeps.ite (fun _ => rules.snoopWrite _ _) fun _ =>
      Prog.Keeps.pure _
  exact Prog.Keeps.get.bind fun f => Prog.Keeps.ite (fun _ => hget.bind fun _ => rules.dispatchRules.simplePutchar)
    fun _ => Prog.Keeps.pure _

theorem getCommand6502 (rules : MailboxRules ff R) :
    Prog.Keeps (Order.Preimage (·.scheduler.firmware) R) getCommand6502 := by
  have hread : ∀ vSlot, Prog.Keeps (Order.Preimage (·.scheduler.firmware) R)
      (onBoard (readCmdSlot vSlot)) := fun _ => keeps_onFirmware (rules.snoopRead _)
  refine Prog.Keeps.bind (keeps_statics fun _ => rfl) fun _ => ?_
  refine Prog.Keeps.bind (keeps_onFirmware (rules.snooping (Prog.Keeps.gets _))) fun _ =>
    Prog.Keeps.get.bind fun s => ?_
  refine Prog.Keeps.ite (fun _ => ?_) fun _ => Prog.Keeps.pure _
  refine (hread _).bind fun _ => Prog.Keeps.ite (fun _ => ?_) fun _ => Prog.Keeps.pure _
  exact (hread _).bind fun _ => (keeps_onFirmware rules.ackMMUIO).bind fun _ => Prog.Keeps.pure _

/-- The test of bulk transfers, from what keeps `R` in its accesses to another context. -/
theorem cmdFSBulk (rules : MailboxRules ff R)
    (hprepare : ∀ c device save_args n,
      Prog.Keeps R (onHw (fsbulkPrepareContext c device save_args n)))
    (hcompare : ∀ c, Prog.Keeps R (onHw (fsbulkCompareContext c))) (device : UInt8)
    (context_arg : Option UInt8) : Prog.Keeps R (cmdFSBulk ff device context_arg) := by
  have hphase : ∀ operation context save_args n,
      Prog.Keeps R (fsbulkPhase ff operation context device save_args n) := by
    intro operation context save_args n
    refine (hprepare _ _ _ _).bind fun _ => Prog.Keeps.ite (fun _ => ?_) fun _ => Prog.Keeps.pure _
    exact (rules.snooping (snoopCalled_fsbulkPrepareMailbox _ _)).bind fun _ =>
      rules.request.discard.bind fun _ => rules.snooping snoopCalled_fsbulkPrintResult
  refine Prog.Keeps.get.bind fun f => Prog.Keeps.ite (fun _ => Prog.Keeps.pure _) fun _ => ?_
  refine (hphase _ _ _ _).bind fun _ => Prog.Keeps.ite (fun _ => ?_) fun _ => rules.snoopWrite _ _
  refine (hphase _ _ _ _).bind fun _ => Prog.Keeps.ite (fun _ => ?_) fun _ => rules.snoopWrite _ _
  exact (hcompare _).discard.bind fun _ => rules.snoopWrite _ _

end MailboxRules

/-! ### The interrupts -/

namespace TaskRules

variable {ff : FatFs σ} {R : Firmware σ → Firmware σ → Prop} [Std.Refl R] [IsTrans (Firmware σ) R]

theorem genIRQ6502 (rules : TaskRules ff R) (vSrc : IrqSource) : Prog.Keeps R (genIRQ6502 vSrc) := by
  refine Prog.Keeps.get.bind fun f => Prog.Keeps.ite (fun _ => Prog.Keeps.pure _) fun _ => ?_
  refine (rules.snoopRead _).bind fun _ => Prog.Keeps.ite (fun _ => ?_) fun _ => Prog.Keeps.pure _
  refine (rules.snoopWrite _ _).bind fun _ => (rules.snoopWrite _ _).bind fun _ => ?_
  refine (rules.setIRQPin _).bind fun _ => Prog.Keeps.bind ?_ fun _ => Prog.Keeps.pure _
  exact Prog.Keeps.modify (rules.gIntrPending true)

theorem releaseSlot (rules : TaskRules ff R) : Prog.Keeps R releaseSlot := by
  refine (rules.snoopRead _).bind fun _ => Prog.Keeps.ite (fun _ => ?_) fun _ => Prog.Keeps.pure _
  refine (rules.setIRQPin _).bind fun _ => (rules.snoopWrite _ _).bind fun _ => ?_
  exact Prog.Keeps.modify (rules.gIntrPending false)

theorem taskIRQTimer (rules : TaskRules ff R) (now now' : UInt32) :
    Prog.Keeps (Order.Preimage (·.firmware) R) (taskIRQTimer now now') :=
  keeps_taskIRQTimer rules.releaseSlot (keeps_raise (rules.genIRQ6502 _) rules.dropBreak)
    (keeps_raise (rules.genIRQ6502 _) rules.dropCompletion) (rules.genIRQ6502 _) now now'

theorem stopIRQTimer (rules : TaskRules ff R) :
    Prog.Keeps (Order.Preimage (·.firmware) R) stopIRQTimer := by
  refine Prog.Keeps.bind (Prog.Keeps.modify fun _ => refl _) fun _ => ?_
  have hstop : Prog.Keeps R (do
      onHw (NeoMmu.setIRQPin true)
      onHw clearSlot
      modify fun f => { f with gIntrPending := false }) :=
    (rules.setIRQPin true).bind fun _ => (rules.snooping snoopCalled_clearSlot).bind fun _ =>
      Prog.Keeps.modify (rules.gIntrPending false)
  exact hstop.on fun _ _ h => h

theorem startIRQTimer (rules : TaskRules ff R) (vPeriod now : UInt32) :
    Prog.Keeps (Order.Preimage (·.firmware) R) (startIRQTimer vPeriod now) := by
  refine Prog.Keeps.ite (fun _ => ?_) fun _ => rules.stopIRQTimer
  refine Prog.Keeps.bind (Prog.Keeps.modify fun _ => refl _) fun _ => ?_
  have hstart : Prog.Keeps R (do
      onHw clearSlot
      onHw (NeoMmu.setIRQPin true)) :=
    (rules.snooping snoopCalled_clearSlot).bind fun _ => rules.setIRQPin true
  exact hstart.on fun _ _ h => h

theorem cmdTimer (rules : TaskRules ff R) (lInterval now : UInt32) :
    Prog.Keeps (Order.Preimage (·.firmware) R) (cmdTimer lInterval now) :=
  Prog.Keeps.ite (fun _ => rules.stopIRQTimer) fun _ => rules.startIRQTimer lInterval now

end TaskRules

theorem taskRules_called {ff : FatFs σ} (hread : ReadsAtMost ff) : TaskRules ff (Called ff) where
  snoop call := called_snoop (snoopCalled_run call)
  ackMMUIO := called_onHw (boardCalled_run BoardCall.ackMMUIO)
  emit e _ := called_emit e
  console f f' h := by
    have hboard : f'.hw = f.hw := by rw [h]
    exact called_of_hw hboard
  request := called_handleExec hread
  close := (called_onStorage _).bind fun _ => called_statics fun _ => rfl
  setIRQPin level := called_onHw (boardCalled_run (.setIRQPin level))
  gIntrPending _ _ := called_of_hw rfl
  dropBreak _ := called_of_hw rfl
  dropCompletion _ := called_of_hw rfl

/-! ### The monitor commands -/

/-- What the tasks and the monitor commands are made of keeps `R`. -/
structure CommandRules (ff : FatFs σ) (R : Firmware σ → Firmware σ → Prop) : Prop extends
    TaskRules ff R where
  board : ∀ call : BoardCall, Prog.Keeps R (onHw call.run)

namespace CommandRules

variable {ff : FatFs σ} {R : Firmware σ → Firmware σ → Prop} [Std.Refl R] [IsTrans (Firmware σ) R]

theorem onBoard (rules : CommandRules ff R) {p : Prog Machine α} (hp : Prog.Keeps BoardCalled p) :
    Prog.Keeps (Order.Preimage (·.scheduler.firmware) R) (onBoard p) := by
  refine keeps_onFirmware fun f => ?_
  have hcalled : ∀ m, BoardCalled f.hw m → R f { f with hw := m } := by
    intro m h
    induction h with
    | refl => exact refl f
    | tail _ hcall ih =>
      obtain ⟨call, rfl⟩ := hcall
      exact trans_of R ih (rules.board call _)
  exact hcalled _ (hp f.hw)

theorem taskScheduler (rules : CommandRules ff R) :
    Prog.Keeps (Order.Preimage (·.scheduler.firmware) R) taskScheduler := by
  refine rules.toMailboxRules.getCommand6502.bind fun command => ?_
  rcases command with - | ⟨lCmd, lParam⟩
  · exact Prog.Keeps.pure _
  · refine Prog.Keeps.ite (fun _ => ?_) fun _ => Prog.Keeps.pure _
    exact (rules.onBoard (boardCalled_run (.schedSwitchcontext lParam))).bind fun _ =>
      keeps_onFirmware (rules.toMailboxRules.snooping snoopCalled_ackCommand6502)

theorem cmdReset (rules : CommandRules ff R) :
    Prog.Keeps (Order.Preimage (·.firmware) R) (cmdReset ff) := by
  have henter : Prog.Keeps R (do discard <| onHw (set6502State .sRESET)) :=
    rules.board (.set6502State .sRESET)
  have hclear : Prog.Keeps R (do onHw initCmdInterface; initMailbox ff) :=
    (rules.snoop (.write _ _)).bind fun _ => rules.toMailboxRules.initMailbox
  refine Prog.Keeps.bind (henter.on fun _ _ h => h) fun _ => rules.toTaskRules.stopIRQTimer.bind fun _ => ?_
  exact hclear.on fun _ _ h => h

theorem cmdBoot (rules : CommandRules ff R) (now : UInt32) :
    Prog.Keeps (Order.Preimage (·.firmware) R) (cmdBoot now) := by
  have hrun : Prog.Keeps R (do discard <| onHw (set6502State .sRUNNING)) :=
    rules.board (.set6502State .sRUNNING)
  exact Prog.Keeps.bind (hrun.on fun _ _ h => h) fun _ => rules.toTaskRules.startIRQTimer 10 now

theorem cmdSysConfig (rules : CommandRules ff R) (flash : Flash) (lines : List (Option Int)) :
    Prog.Keeps (Order.Preimage (·.scheduler.firmware) R) (cmdSysConfig flash lines) := by
  refine Prog.Keeps.get.bind fun s => Prog.Keeps.bind ?_ fun _ => keeps_statics fun _ => rfl
  exact rules.onBoard
    (boardCalled_run (.bootSystemWithMenu flash s.tables s.memoryConfig.boot_context lines))

theorem cmdFSBulk (rules : CommandRules ff R) (device : UInt8) (context_arg : Option UInt8) :
    Prog.Keeps R (cmdFSBulk ff device context_arg) :=
  rules.toMailboxRules.cmdFSBulk (fun c d save_args n => rules.board (.fsbulkPrepareContext c d save_args n))
    (fun c => rules.board (.fsbulkCompareContext c)) device context_arg

theorem monitor (rules : CommandRules ff R) (flash : Flash) (command : MonitorCommand) :
    Prog.Keeps (Order.Preimage (·.scheduler.firmware) R) (command.run ff flash) := by
  cases command with
  | reset => exact keeps_onScheduler rules.cmdReset
  | go => exact rules.onBoard (boardCalled_run (.set6502State .sRUNNING))
  | stop => exact rules.onBoard (boardCalled_run (.set6502State .sHALTED))
  | sc lStep => exact rules.onBoard (boardCalled_run (.singleCycle6502 lStep))
  | ss addresses => exact rules.onBoard (boardCalled_cmdSS addresses)
  | ctx => exact rules.onBoard (boardCalled_run .cmdMMU)
  | page lIndex lPage => exact rules.onBoard (boardCalled_run (.cmdPage lIndex lPage))
  | zero => exact rules.onBoard (boardCalled_run .cmdZero)
  | syscfg lines => exact rules.cmdSysConfig flash lines
  | boot now => exact keeps_onScheduler (rules.cmdBoot now)
  | irq vSrc => exact keeps_onFirmware (rules.toTaskRules.genIRQ6502 vSrc).discard
  | timer lInterval now => exact keeps_onScheduler (rules.toTaskRules.cmdTimer lInterval now)
  | fsbulk device context_arg => exact keeps_onFirmware (rules.cmdFSBulk device context_arg)

end CommandRules

theorem commandRules_called {ff : FatFs σ} (hread : ReadsAtMost ff) : CommandRules ff (Called ff) where
  toTaskRules := taskRules_called hread
  board call := called_onHw (boardCalled_run call)

end NeoMmu
