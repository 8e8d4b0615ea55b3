import NeoMmu.Foundation.Fifo
import NeoMmu.Fs.Storage
import NeoMmu.Hardware.Snoop

/-!
# The firmware state and the mailbox block

The statics the tasks of `loop()` share, and the helpers of `mailbox.cpp` that read requests from and
write results to the block at `RP_REQ_BASE`. `events` records, the newest first, what the firmware
does towards its clients; no function reads it.
-/

namespace NeoMmu

/-! ## Addresses and codes -/

/-- `RP_DOORBELL` -/
def RP_DOORBELL : UInt16 := 0xE010

/-- `RP_DOORBELL_NONE` -/
def RP_DOORBELL_NONE : UInt8 := 0x00

/-- `RP_REQ_BASE` -/
def RP_REQ_BASE : UInt16 := 0xB000

/-- `RP_GROUP` -/
def RP_GROUP : UInt16 := RP_REQ_BASE + 0x00

/-- `RP_CMD` -/
def RP_CMD : UInt16 := RP_REQ_BASE + 0x01

/-- `RP_STATUS` -/
def RP_STATUS : UInt16 := RP_REQ_BASE + 0x02

/-- `RP_ERR` -/
def RP_ERR : UInt16 := RP_REQ_BASE + 0x03

/-- `RP_FLAGS` -/
def RP_FLAGS : UInt16 := RP_REQ_BASE + 0x04

/-- `RP_STATE` -/
def RP_STATE : UInt16 := RP_REQ_BASE + 0x05

/-- `RP_ARG0L` -/
def RP_ARG0L : UInt16 := RP_REQ_BASE + 0x06

/-- `RP_ARG1L` -/
def RP_ARG1L : UInt16 := RP_REQ_BASE + 0x08

/-- `RP_ARG1H` -/
def RP_ARG1H : UInt16 := RP_REQ_BASE + 0x09

/-- `RP_ARG2L` -/
def RP_ARG2L : UInt16 := RP_REQ_BASE + 0x0A

/-- `RP_ARG2H` -/
def RP_ARG2H : UInt16 := RP_REQ_BASE + 0x0B

/-- `RP_RES0L` -/
def RP_RES0L : UInt16 := RP_REQ_BASE + 0x0C

/-- `RP_RES1L` -/
def RP_RES1L : UInt16 := RP_REQ_BASE + 0x0E

/-- `RP_IRQ_SOURCE` -/
def RP_IRQ_SOURCE : UInt16 := 0xB010

/-- `RP_CONSOLE_RDY` -/
def RP_CONSOLE_RDY : UInt16 := 0xB012

/-- `RP_IRQ_STATE` -/
def RP_IRQ_STATE : UInt16 := 0xB013

/-- `RP_IDLE` -/
def RP_IDLE : UInt8 := 0

/-- `RP_BUSY` -/
def RP_BUSY : UInt8 := 1

/-- `RP_DONE` -/
def RP_DONE : UInt8 := 2

/-- `RP_ERROR` -/
def RP_ERROR : UInt8 := 3

/-- `RP_ERR_OK` -/
def RP_ERR_OK : UInt8 := 0

/-- `RP_ERR_ENOENT` -/
def RP_ERR_ENOENT : UInt8 := 2

/-- `RP_ERR_EIO` -/
def RP_ERR_EIO : UInt8 := 3

/-- `RP_ERR_ENOMEM` -/
def RP_ERR_ENOMEM : UInt8 := 4

/-- `RP_ERR_EINVAL` -/
def RP_ERR_EINVAL : UInt8 := 6

/-! ## The state -/

/-- `mailbox_state_t` -/
inductive MailboxState
  | mbINIT
  | mbIDLE
  | mbWRITE
  | mbREAD
  | mbDONE
  deriving DecidableEq, Repr

/-- What the firmware does towards its clients. -/
inductive Event
  /-- `initMailbox()` ran. -/
  | reset
  /-- A request was taken from the block. -/
  | dispatch (group cmd : UInt8)
  /-- A context access was begun. -/
  | contextOpen
  /-- A context access was ended. -/
  | contextClose
  /-- `RP_STATUS` was set to `RP_DONE` or `RP_ERROR`, with `RP_ERR`. -/
  | result (status err : UInt8)
  /-- A completion interrupt was requested. -/
  | completionIRQ
  deriving DecidableEq, Repr

/-- The rings of `input.h` have cells. -/
instance neZero_fifoSize : NeZero (128 : Nat) := ⟨by decide⟩

/-- The board, the storage and the statics of `mailbox.cpp`, `rp_console_io.cpp`, `input.cpp`,
`rp_fs_path.cpp` and `scheduler.cpp`. -/
structure Firmware (σ : Type) where
  hw : Machine
  storage : Storage σ
  gRPFSProcessCwd : CwdTable
  mailbox_state : MailboxState
  lastCheck : Bool
  lCount : UInt16
  gConsoleTarget : UInt16
  gConsoleLen : UInt16
  gConsoleCurrent : UInt16
  gConsoleRemaining : UInt16
  cpu_tx_fifo : Fifo UInt8 128
  vdu_tx_fifo : Fifo UInt8 128
  /-- The bytes handed to `vduPutc()`. -/
  vduOut : List UInt8
  gIntrPending : Bool
  gFsCompletionPending : Bool
  gConsoleBreakPending : Bool
  events : List Event

variable {σ α : Type}

/-- The statics at their initial values. -/
def Firmware.start (hw : Machine) (storage : Storage σ) : Firmware σ where
  hw := hw
  storage := storage
  gRPFSProcessCwd := .initial
  mailbox_state := .mbINIT
  lastCheck := true
  lCount := 0
  gConsoleTarget := 0
  gConsoleLen := 0
  gConsoleCurrent := 0
  gConsoleRemaining := 0
  cpu_tx_fifo := ⟨0, 0, fun _ => 0⟩
  vdu_tx_fifo := ⟨0, 0, fun _ => 0⟩
  vduOut := []
  gIntrPending := false
  gFsCompletionPending := false
  gConsoleBreakPending := false
  events := []

/-- A program on the board. -/
def onHw (p : Prog Machine α) : Prog (Firmware σ) α := p.on (·.hw) fun f m => { f with hw := m }

/-- A program on the storage. -/
def onStorage (p : Prog (Storage σ) α) : Prog (Firmware σ) α :=
  p.on (·.storage) fun f s => { f with storage := s }

/-- Record an event. -/
def emit (e : Event) : Prog (Firmware σ) Unit := modify fun f => { f with events := e :: f.events }

/-! ## The mailbox block -/

/-- `rp_read16()` -/
def rpRead16 (addr : UInt16) : Prog Machine UInt16 := do
  let lo ← snoopRead6502MemoryLoc addr
  let hi ← snoopRead6502MemoryLoc (addr + 1)
  return lo.toUInt16 ||| (hi.toUInt16 <<< 8)

/-- A 16-bit word of the view. -/
def Machine.View.peek16 (v : Machine.View) (a : UInt16) : UInt16 :=
  (v.peek a).toUInt16 ||| ((v.peek (a + 1)).toUInt16 <<< 8)

theorem rpRead16_spec {m : Machine} (hm : m.Settled) (a : UInt16) :
    (rpRead16 a).result m = m.view.peek16 a ∧ ((rpRead16 a).final m).view = m.view ∧
      ((rpRead16 a).final m).Settled := by
  obtain ⟨hlo, hview₁, h₁⟩ := snoopRead6502MemoryLoc_spec hm a
  obtain ⟨hhi, hview₂, h₂⟩ := snoopRead6502MemoryLoc_spec h₁ (a + 1)
  rw [hview₁] at hhi
  refine ⟨?_, hview₂.trans hview₁, h₂⟩
  simp only [rpRead16, Prog.result_bind, Prog.result_pure, hlo, hhi, Machine.View.peek16]

/-- `rp_write16()` -/
def rpWrite16 (addr value : UInt16) : Prog Machine Unit := do
  snoopWrite6502MemoryLoc addr (value &&& 0xFF).toUInt8
  snoopWrite6502MemoryLoc (addr + 1) ((value >>> 8) &&& 0xFF).toUInt8

/-- `rp_clear_doorbell()` -/
def rpClearDoorbell : Prog Machine Unit := snoopWrite6502MemoryLoc RP_DOORBELL RP_DOORBELL_NONE

/-- `rp_mailbox_clear_result_fields()` -/
def rpMailboxClearResultFields : Prog Machine Unit := do
  rpWrite16 RP_RES0L 0
  rpWrite16 RP_RES1L 0
  snoopWrite6502MemoryLoc RP_ERR RP_ERR_OK
  snoopWrite6502MemoryLoc RP_FLAGS 0

/-- The result block, its status last, and the doorbell cleared. -/
def rpMailboxPublish (res0 res1 : UInt16) (err flags status : UInt8) : Prog Machine Unit := do
  rpWrite16 RP_RES0L res0
  rpWrite16 RP_RES1L res1
  snoopWrite6502MemoryLoc RP_ERR err
  snoopWrite6502MemoryLoc RP_FLAGS flags
  snoopWrite6502MemoryLoc RP_STATUS status
  rpClearDoorbell

/-- `rp_mailbox_set_done()` -/
def rpMailboxSetDone (result : UInt16) (flags : UInt8) : Prog (Firmware σ) Unit := do
  emit (.result RP_DONE RP_ERR_OK)
  onHw (rpMailboxPublish result 0 RP_ERR_OK flags RP_DONE)

/-- `rp_mailbox_set_done32()` -/
def rpMailboxSetDone32 (result : UInt32) (flags : UInt8) : Prog (Firmware σ) Unit := do
  emit (.result RP_DONE RP_ERR_OK)
  onHw (rpMailboxPublish (result &&& 0xFFFF).toUInt16 ((result >>> 16) &&& 0xFFFF).toUInt16 RP_ERR_OK
    flags RP_DONE)

/-- `rp_mailbox_set_error()` -/
def rpMailboxSetError (err : UInt8) (partialResult : UInt16) : Prog (Firmware σ) Unit := do
  emit (.result RP_ERROR err)
  onHw (rpMailboxPublish partialResult 0 err 0 RP_ERROR)

/-! ## Console queues -/

/-- `writeCPUQ()` -/
def writeCPUQ (c : UInt8) : Prog (Firmware σ) Bool := do
  if (← get).cpu_tx_fifo.isFull then
    return false
  else
    modify fun f => { f with cpu_tx_fifo := f.cpu_tx_fifo.push c }
    return true

/-- `readCPUQ()` -/
def readCPUQ : Prog (Firmware σ) UInt8 := do
  match (← get).cpu_tx_fifo.pop with
  | none => return 0
  | some (c, q) =>
    modify fun f => { f with cpu_tx_fifo := q }
    return c

/-- `writeVDUQ()`; nobody looks at the result of `push()`. -/
def writeVDUQ (c : UInt8) : Prog (Firmware σ) Unit :=
  modify fun f => if c ≠ 0 then { f with vdu_tx_fifo := f.vdu_tx_fifo.push c } else f

/-- Input comes into the queue and nowhere else. -/
theorem final_writeCPUQ (b : UInt8) (f : Firmware σ) :
    ∃ q, (writeCPUQ b).final f = { f with cpu_tx_fifo := q } := by
  simp only [writeCPUQ, Prog.final_bind, Prog.result_get, Prog.final_get, Prog.final_ite,
    Prog.final_pure, Prog.final_modify]
  split
  · exact ⟨f.cpu_tx_fifo, rfl⟩
  · exact ⟨_, rfl⟩

end NeoMmu
