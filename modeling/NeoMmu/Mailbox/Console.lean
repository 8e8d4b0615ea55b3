import NeoMmu.Mailbox.FsMailbox

/-!
# Console requests and the mailbox task

The console commands of `rp_console_io.cpp`, which run over several polls, and the state machine of
`mailbox.cpp` that dispatches requests, continues transfers and is reset by `initMailbox()`. The VDU
side of the console queue is `taskInput()` of `input.cpp`.
-/

namespace NeoMmu

variable {σ : Type}

/-- `RP_CONSOLE_CHUNK_SIZE` -/
def RP_CONSOLE_CHUNK_SIZE : UInt16 := 256

/-- `RP_GROUP_NONE` -/
def RP_GROUP_NONE : UInt8 := 0x00

/-- `RP_GROUP_CONSOLE` -/
def RP_GROUP_CONSOLE : UInt8 := 0x01

/-- `RP_GROUP_FS` -/
def RP_GROUP_FS : UInt8 := 0x02

/-- `RP_CON_CMD_NONE` -/
def RP_CON_CMD_NONE : UInt8 := 0x00

/-- `RP_CON_CMD_WRITE` -/
def RP_CON_CMD_WRITE : UInt8 := 0x01

/-- `RP_CON_CMD_READ` -/
def RP_CON_CMD_READ : UInt8 := 0x02

/-- `RP_FS_CMD_EXEC` -/
def RP_FS_CMD_EXEC : UInt8 := 0x11

/-- `RP_ARG0H` -/
def RP_ARG0H : UInt16 := RP_REQ_BASE + 0x07

/-! ## Console transfers -/

/-- `rp_console_input_bytes()`: up to `length` bytes of the queue, the first zero byte ends them. -/
def rpConsoleInputBytes : Nat → Prog (Firmware σ) (List UInt8)
  | 0 => return []
  | length + 1 => do
    let c ← readCPUQ
    if c = 0 then
      return []
    else
      return c :: (← rpConsoleInputBytes length)

/-- `rp_console_output_bytes()` -/
def rpConsoleOutputBytes : List UInt8 → Prog (Firmware σ) Unit
  | [] => return
  | c :: buffer => do
    writeVDUQ c
    rpConsoleOutputBytes buffer

/-- `rp_console_io_handle_write()` -/
def rpConsoleIoHandleWrite : Prog (Firmware σ) MailboxState := do
  let target ← onHw (rpRead16 RP_ARG0L)
  let len ← onHw (rpRead16 RP_ARG1L)
  modify fun f => { f with gConsoleTarget := target, gConsoleLen := len }
  if len = 0 then
    rpMailboxSetDone 0 0
    return .mbDONE
  else
    modify fun f => { f with gConsoleRemaining := len, gConsoleCurrent := target }
    return .mbWRITE

/-- `rp_console_io_handle_read()` -/
def rpConsoleIoHandleRead : Prog (Firmware σ) MailboxState := do
  let target ← onHw (rpRead16 RP_ARG0L)
  let len ← onHw (rpRead16 RP_ARG1L)
  modify fun f => { f with gConsoleTarget := target, gConsoleLen := len }
  if len = 0 then
    rpMailboxSetDone 0 0
    return .mbDONE
  else
    modify fun f => { f with
      gConsoleLen := if RP_CONSOLE_CHUNK_SIZE < len then RP_CONSOLE_CHUNK_SIZE else len }
    return .mbREAD

/-- The chunk `rp_console_io_process_write()` takes of what remains. -/
def consoleChunk (remaining : UInt16) : UInt16 :=
  if RP_CONSOLE_CHUNK_SIZE < remaining then RP_CONSOLE_CHUNK_SIZE else remaining

/-- `rp_console_io_process_write()` -/
def rpConsoleIoProcessWrite : Prog (Firmware σ) Bool := do
  let f ← get
  if f.gConsoleRemaining ≠ 0 then
    let chunk := consoleChunk f.gConsoleRemaining
    let buffer ← onHw (snoopRead6502Memory f.gConsoleCurrent chunk)
    rpConsoleOutputBytes buffer
    modify fun f => { f with
      gConsoleCurrent := f.gConsoleCurrent + chunk, gConsoleRemaining := f.gConsoleRemaining - chunk }
    return false
  else
    rpMailboxSetDone f.gConsoleLen 0
    return true

/-- `rp_console_io_process_read()` -/
def rpConsoleIoProcessRead : Prog (Firmware σ) Bool := do
  let f ← get
  let buffer ← rpConsoleInputBytes f.gConsoleLen.toNat
  if buffer = [] then
    return false
  else
    onHw (snoopWrite6502Memory f.gConsoleTarget buffer)
    rpMailboxSetDone (UInt16.ofNat buffer.length) 0
    return true

/-- `rp_console_io_reset()` -/
def rpConsoleIoReset : Prog (Firmware σ) Unit :=
  modify fun f => { f with
    gConsoleTarget := 0, gConsoleLen := 0, gConsoleCurrent := 0, gConsoleRemaining := 0 }

/-! ## The VDU side -/

/-- The loop of `processVDUoutQ()`, with a number of turns it may take. -/
def drainVDUQ : Nat → Firmware σ → Firmware σ
  | 0, f => f
  | turns + 1, f =>
    match f.vdu_tx_fifo.pop with
    | none => f
    | some (data, q) => drainVDUQ turns { f with vdu_tx_fifo := q, vduOut := f.vduOut ++ [data] }

/-- `processVDUoutQ()`, whose queue holds less values than it has cells. -/
def processVDUoutQ (f : Firmware σ) : Firmware σ := drainVDUQ 128 f

/-- `taskInput()` -/
def taskInput : Prog (Firmware σ) Unit := modify processVDUoutQ

/-! ## Dispatch -/

section Dispatch

variable (ff : FatFs σ)

/-- `gMailboxCommands` -/
def gMailboxCommands : List ((UInt8 × UInt8) × Prog (Firmware σ) MailboxState) :=
  [((RP_GROUP_CONSOLE, RP_CON_CMD_WRITE), rpConsoleIoHandleWrite),
   ((RP_GROUP_CONSOLE, RP_CON_CMD_READ), rpConsoleIoHandleRead),
   ((RP_GROUP_FS, RP_FS_CMD_EXEC), rpFsMailboxHandleExec ff)]

/-- `rp_find_mailbox_command()` -/
def rpFindMailboxCommand (group cmd : UInt8) : Option (Prog (Firmware σ) MailboxState) :=
  List.lookup (group, cmd) (gMailboxCommands ff)

/-- `rp_dispatch_mailbox_command()`, with `rp_handle_unknown_command()` -/
def rpDispatchMailboxCommand (group cmd : UInt8) : Prog (Firmware σ) MailboxState := do
  match rpFindMailboxCommand ff group cmd with
  | none =>
    rpMailboxSetError RP_ERR_EINVAL 0
    return .mbDONE
  | some handler =>
    onHw rpMailboxClearResultFields
    handler

/-- `rp_mailbox_dispatch_current_request()` -/
def rpMailboxDispatchCurrentRequest : Prog (Firmware σ) MailboxState := do
  let group ← onHw (snoopRead6502MemoryLoc RP_GROUP)
  let cmd ← onHw (snoopRead6502MemoryLoc RP_CMD)
  emit (.dispatch group cmd)
  rpDispatchMailboxCommand ff group cmd

/-! ## The task -/

/-- The update of `RP_CONSOLE_RDY` in front of the state machine. -/
def updateConsoleReady : Prog (Firmware σ) Unit := do
  let f ← get
  let lCheck := f.cpu_tx_fifo.isEmpty
  if lCheck ≠ f.lastCheck then
    onHw (snoopWrite6502MemoryLoc RP_CONSOLE_RDY (if lCheck then 0 else 1))
    modify fun f => { f with lastCheck := lCheck }

/-- `RP_DOORBELL` is rung, or else `RP_STATUS` is `RP_BUSY`. -/
def requestPending : Prog Machine Bool := do
  if (← snoopRead6502MemoryLoc RP_DOORBELL) ≠ RP_DOORBELL_NONE then
    return true
  else
    return (← snoopRead6502MemoryLoc RP_STATUS) = RP_BUSY

/-- The poll of `mbIDLE`: without a trigger only every 251st looks at the doorbell. -/
def pollIdle : Prog (Firmware σ) Unit := do
  let f ← get
  if f.hw.gMMUIOTrigger = false ∧ f.lCount < 250 then
    modify fun f => { f with lCount := f.lCount + 1 }
  else
    onHw ackMMUIO
    modify fun f => { f with lCount := 0 }
    if ← onHw requestPending then
      let next_state ← rpMailboxDispatchCurrentRequest ff
      modify fun f => { f with mailbox_state := next_state }

/-- The `switch` of `taskMailbox()`. -/
def mailboxFsm : Prog (Firmware σ) Unit := do
  match (← get).mailbox_state with
  | .mbINIT => modify fun f => { f with mailbox_state := .mbIDLE }
  | .mbIDLE => pollIdle ff
  | .mbWRITE =>
    if ← rpConsoleIoProcessWrite then
      modify fun f => { f with mailbox_state := .mbDONE }
  | .mbREAD =>
    if ← rpConsoleIoProcessRead then
      modify fun f => { f with mailbox_state := .mbDONE }
  | .mbDONE => modify fun f => { f with mailbox_state := .mbIDLE }

/-- `taskMailbox()` -/
def taskMailbox : Prog (Firmware σ) Unit := do
  updateConsoleReady
  mailboxFsm ff

/-! ## Initialization -/

/-- The block as `initMailbox()` clears it. -/
def clearBlock : Prog Machine Unit := do
  snoopWrite6502MemoryLoc RP_DOORBELL RP_DOORBELL_NONE
  snoopWrite6502MemoryLoc RP_GROUP RP_GROUP_NONE
  snoopWrite6502MemoryLoc RP_CMD RP_CON_CMD_NONE
  snoopWrite6502MemoryLoc RP_STATUS RP_IDLE
  snoopWrite6502MemoryLoc RP_ERR RP_ERR_OK
  snoopWrite6502MemoryLoc RP_FLAGS 0
  snoopWrite6502MemoryLoc RP_STATE 0
  snoopWrite6502MemoryLoc RP_ARG0L 0
  snoopWrite6502MemoryLoc RP_ARG0H 0
  snoopWrite6502MemoryLoc RP_ARG1L 0
  snoopWrite6502MemoryLoc RP_ARG1H 0
  snoopWrite6502MemoryLoc RP_ARG2L 0
  snoopWrite6502MemoryLoc RP_ARG2H 0
  rpWrite16 RP_RES0L 0
  rpWrite16 RP_RES1L 0

/-- `initMailbox()`; it leaves `mailbox_state` alone. -/
def initMailbox : Prog (Firmware σ) Unit := do
  emit .reset
  onHw clearBlock
  rpConsoleIoReset
  rpFsMailboxReset ff
  onHw (snoopWrite6502MemoryLoc RP_CONSOLE_RDY 0x00)
  onHw (snoopWrite6502MemoryLoc RP_IRQ_SOURCE 0x00)
  onHw (snoopWrite6502MemoryLoc RP_IRQ_STATE 0x00)

end Dispatch

end NeoMmu
