import NeoMmu.Boot.Menu
import NeoMmu.Mailbox.Console
import NeoMmu.Mailbox.Scheduler

/-!
# The command interface and the monitor

The remaining parts of `loop()` that reach the 6502 side: the commands of `cmd.cpp`, of which
`taskScheduler()` knows the context switch, the simple I/O of `simple_io.cpp`, and the monitor commands of
`monitor.cpp`. Everything they do to the board is made of transitions, snooping, and work in a state
other than `sRESET`.
-/

namespace NeoMmu

variable {σ α : Type}

/-! ## The whole firmware -/

/-- The scheduler with the statics of `cmd.cpp`, `sys_config.cpp` and `memory_config.cpp`. -/
structure System (σ : Type) where
  scheduler : Scheduler σ
  inCount : UInt16
  tables : SystemTables
  memoryConfig : MemoryConfig

/-- The board. -/
def System.hw (s : System σ) : Machine := s.scheduler.firmware.hw

/-- A program on the scheduler. -/
def onScheduler (p : Prog (Scheduler σ) α) : Prog (System σ) α :=
  p.on (·.scheduler) fun s sched => { s with scheduler := sched }

/-- A program on the board of the whole firmware. -/
def onBoard (p : Prog Machine α) : Prog (System σ) α := onScheduler (onFirmware (onHw p))

/-! ## Commands of the 6502 -/

/-- `CMD_SLOT_BASE` -/
def CMD_SLOT_BASE : UInt16 := 0xE000

/-- `CMD_SLOT_CMD` -/
def CMD_SLOT_CMD : UInt8 := 2

/-- `CMD_SLOT_PARAM` -/
def CMD_SLOT_PARAM : UInt8 := 3

/-- `CMD6502_NONE` -/
def CMD6502_NONE : UInt8 := 0

/-- `CMD6502_CONTEXT_SWITCH` -/
def CMD6502_CONTEXT_SWITCH : UInt8 := 2

/-- `readCmdSlot()` -/
def readCmdSlot (vSlot : UInt8) : Prog Machine UInt8 :=
  snoopRead6502MemoryLoc (CMD_SLOT_BASE + vSlot.toUInt16)

/-- `writeCmdSlot()` -/
def writeCmdSlot (vSlot vData : UInt8) : Prog Machine Unit :=
  snoopWrite6502MemoryLoc (CMD_SLOT_BASE + vSlot.toUInt16) vData

/-- `getCommand6502()`: the command and its parameter. -/
def getCommand6502 : Prog (System σ) (Option (UInt8 × UInt8)) := do
  modify fun s => { s with inCount := s.inCount + 1 }
  let trigger ← onBoard triggerMMUIO
  if trigger ∨ (← get).inCount % 10 = 0 then
    let cmd ← onBoard (readCmdSlot CMD_SLOT_CMD)
    if cmd ≠ CMD6502_NONE then
      let vParam ← onBoard (readCmdSlot CMD_SLOT_PARAM)
      onBoard ackMMUIO
      return some (cmd, vParam)
    else
      return none
  else
    return none

/-- `ackCommand6502()` -/
def ackCommand6502 : Prog Machine Unit := do
  if (← readCmdSlot CMD_SLOT_CMD) ≠ CMD6502_NONE then
    writeCmdSlot CMD_SLOT_CMD CMD6502_NONE

/-- `initCmdInterface()` -/
def initCmdInterface : Prog Machine Unit := snoopWrite6502Memory CMD_SLOT_BASE [0, 0, 0, 0]

/-- `schedSwitchcontext()` -/
def schedSwitchcontext (vContext : UInt8) : Prog Machine Unit := do
  disableMMUInterrupt
  let s ← get6502State
  discard <| set6502State .sHALTED
  setMMUContext vContext
  discard <| set6502State s
  enableMMUInterrupt

/-- `taskScheduler()` -/
def taskScheduler : Prog (System σ) Unit := do
  match ← getCommand6502 with
  | none => return
  | some (lCmd, lParam) =>
    if lCmd = CMD6502_CONTEXT_SWITCH then
      onBoard (schedSwitchcontext lParam)
      onBoard ackCommand6502

/-- `initScheduler()` -/
def initScheduler : Prog (Firmware σ) Unit := do
  modify fun f => { f with gFsCompletionPending := false, gConsoleBreakPending := false }
  onHw clearSlot

/-! ## Simple I/O -/

/-- `RP_GETCHAR` -/
def RP_GETCHAR : UInt16 := 0xE000

/-- `RP_PUTCHAR` -/
def RP_PUTCHAR : UInt16 := 0xE001

/-- `simple_getchar()` -/
def simpleGetchar : Prog (Firmware σ) Unit := do
  if (← onHw (snoopRead6502MemoryLoc RP_GETCHAR)) = 0 then
    let c ← readCPUQ
    if c ≠ 0 then
      onHw (snoopWrite6502MemoryLoc RP_GETCHAR c)

/-- `simple_putchar()` -/
def simplePutchar : Prog (Firmware σ) Unit := do
  if (← get).vdu_tx_fifo.isFull = false then
    let c ← onHw (snoopRead6502MemoryLoc RP_PUTCHAR)
    if c ≠ 0 then
      writeVDUQ c
      onHw (snoopWrite6502MemoryLoc RP_PUTCHAR 0)

/-- `taskSimpleIO()` -/
def taskSimpleIO : Prog (Firmware σ) Unit := do
  if (← get).hw.getMMUContext = 0 then
    simpleGetchar
    simplePutchar

/-- `initSimpleIO()` -/
def initSimpleIO : Prog Machine Unit := do
  snoopWrite6502MemoryLoc RP_GETCHAR 0
  snoopWrite6502MemoryLoc RP_PUTCHAR 0

/-! ## Monitor commands -/

/-- `dumpMMUPageMap()` -/
def dumpMMUPageMap (context : UInt8) : Prog Machine Unit :=
  if maxContexts ≤ context then return
  else (List.range NUM_CONTEXT_PAGES).forM fun page => discard <| readMMUPage context (UInt8.ofNat page)

/-- `cmdMMUCallback()` -/
def cmdMMU : Prog Machine Unit := do
  let lContext := (← get).getMMUContext
  let lState ← get6502State
  discard <| set6502State .sRPI
  dumpMMUPageMap lContext
  discard <| set6502State lState

/-- `cmdPageCallback()` -/
def cmdPage (lIndex lPage : UInt8) : Prog Machine Unit := do
  let lContext := (← get).getMMUContext
  let lState ← get6502State
  discard <| set6502State .sRPI
  discard <| readMMUPage lContext lIndex
  discard <| writeMMUPage lContext lIndex lPage
  discard <| set6502State lState

/-- `fillMemory()` -/
def fillMemory (vVal : UInt8) : Prog Machine Unit :=
  (List.range 65536).forM fun m => write6502Memory (UInt16.ofNat m) vVal

/-- `cmdZeroCallback()` -/
def cmdZero : Prog Machine Unit := do
  let save_state ← get6502State
  discard <| set6502State .sBOOT
  fillMemory 0x00
  discard <| set6502State save_state

/-- What `disasm6502()` reads for one line: the vectors, then the instruction, once for the labels and once
for the text. -/
def disasm6502 (addr : UInt16) : Prog Machine Unit := do
  discard <| snoopRead6502Memory 0xFFFA 2
  discard <| snoopRead6502Memory 0xFFFC 2
  discard <| snoopRead6502Memory 0xFFFE 2
  discard <| snoopRead6502Memory addr 3
  discard <| snoopRead6502Memory addr 3

/-- `cmdSSCallback()` with the addresses the CPU stands at after each step. -/
def cmdSS (addresses : List UInt16) : Prog Machine Unit :=
  addresses.forM fun addr => do
    singleStep6502
    disasm6502 addr

/-- `cmdResetCallback()` -/
def cmdReset (ff : FatFs σ) : Prog (Scheduler σ) Unit := do
  onFirmware do discard <| onHw (set6502State .sRESET)
  stopIRQTimer
  onFirmware do
    onHw initCmdInterface
    initMailbox ff

/-- `cmdSysConfigCallback()` with the lines typed at its menu. -/
def cmdSysConfig (flash : Flash) (lines : List (Option Int)) : Prog (System σ) Unit := do
  let s ← get
  let tables ← onBoard (bootSystemWithMenu flash s.tables s.memoryConfig.boot_context lines)
  modify fun s => { s with tables := tables }

/-! ### The bulk transfer test -/

/-- `FSBULK_ARG_ADDR` -/
def FSBULK_ARG_ADDR : UInt16 := 0x0200

/-- `FSBULK_PATH_ADDR` -/
def FSBULK_PATH_ADDR : UInt16 := 0x0210

/-- `FSBULK_SRC_ADDR` -/
def FSBULK_SRC_ADDR : UInt16 := 0x0300

/-- `FSBULK_DST_ADDR` -/
def FSBULK_DST_ADDR : UInt16 := 0x0380

/-- `FSBULK_FILENAME` -/
def FSBULK_FILENAME : List UInt8 := ascii "BULKTEST.TXT"

/-- `FSBULK_TEXT` -/
def FSBULK_TEXT : List UInt8 := ascii "NEOX V31 BULK TEST"

/-- A computation between `fsbulk_begin_context()` and `fsbulk_end_context()`, which do what the calls of
`rp_fs_mailbox.cpp` do; `none` when the context is refused. -/
def fsbulkInContext (context : UInt8) (body : Prog Machine α) : Prog Machine (Option α) := do
  if maxContexts ≤ context then
    return none
  else
    let access ← beginContextAccess context
    let r ← body
    endContextAccess access
    return some r

/-- `fsbulk_write16()` -/
def fsbulkWrite16 (addr value : UInt16) : Prog Machine Unit := do
  write6502Memory addr (value &&& 0xFF).toUInt8
  write6502Memory (addr + 1) ((value >>> 8) &&& 0xFF).toUInt8

/-- `fsbulk_prepare_context()` -/
def fsbulkPrepareContext (context device : UInt8) (save_args : Bool) (byte_count : UInt16) :
    Prog Machine Bool := do
  let prepared ← fsbulkInContext context do
    writeBlock FSBULK_PATH_ADDR (FSBULK_FILENAME ++ [0])
    writeBlock FSBULK_SRC_ADDR FSBULK_TEXT
    writeBlock FSBULK_DST_ADDR (List.replicate 64 0)
    fsbulkWrite16 FSBULK_ARG_ADDR FSBULK_PATH_ADDR
    fsbulkWrite16 (FSBULK_ARG_ADDR + 2) (if save_args then FSBULK_SRC_ADDR else FSBULK_DST_ADDR)
    fsbulkWrite16 (FSBULK_ARG_ADDR + 4) byte_count
    write6502Memory (FSBULK_ARG_ADDR + 6) device
    write6502Memory (FSBULK_ARG_ADDR + 7) 0
  return prepared.isSome

/-- The loop of `fsbulk_compare_context()`, up to the first difference. -/
def compareBlock (vAddress : UInt16) : List UInt8 → Prog Machine Bool
  | [] => return true
  | b :: bs => do
    if (← read6502Memory vAddress) ≠ b then
      return false
    else
      compareBlock (vAddress + 1) bs

/-- `fsbulk_compare_context()` -/
def fsbulkCompareContext (context : UInt8) : Prog Machine Bool := do
  return (← fsbulkInContext context (compareBlock FSBULK_DST_ADDR FSBULK_TEXT)) == some true

/-- `fsbulk_prepare_mailbox()` -/
def fsbulkPrepareMailbox (operation context : UInt8) : Prog Machine Unit := do
  rpMailboxClearResultFields
  snoopWrite6502MemoryLoc RP_GROUP RP_GROUP_FS
  snoopWrite6502MemoryLoc RP_CMD RP_FS_CMD_EXEC
  snoopWrite6502MemoryLoc RP_STATE operation
  snoopWrite6502MemoryLoc RP_STATUS RP_BUSY
  rpWrite16 RP_ARG0L FSBULK_ARG_ADDR
  snoopWrite6502MemoryLoc RP_ARG1L 0
  snoopWrite6502MemoryLoc RP_ARG1H context
  rpWrite16 RP_ARG2L 0

/-- `fsbulk_print_result()` -/
def fsbulkPrintResult : Prog Machine Bool := do
  let status ← snoopRead6502MemoryLoc RP_STATUS
  discard <| snoopRead6502MemoryLoc RP_ERR
  discard <| rpRead16 RP_RES0L
  discard <| snoopRead6502MemoryLoc RP_FLAGS
  return status == RP_DONE

/-- One phase of `cmdFSBulkCallback()`: whether it went on to the next. -/
def fsbulkPhase (ff : FatFs σ) (operation context device : UInt8) (save_args : Bool)
    (byte_count : UInt16) : Prog (Firmware σ) Bool := do
  if ← onHw (fsbulkPrepareContext context device save_args byte_count) then
    onHw (fsbulkPrepareMailbox operation context)
    discard <| rpFsMailboxHandleExec ff
    onHw fsbulkPrintResult
  else
    return false

/-- `cmdFSBulkCallback()` on a device that is ready; the context is the current one when none is given. -/
def cmdFSBulk (ff : FatFs σ) (device : UInt8) (context_arg : Option UInt8) : Prog (Firmware σ) Unit := do
  let context := context_arg.getD (← get).hw.getMMUContext
  if maxContexts ≤ context then
    return
  else
    if ← fsbulkPhase ff RP_FS_OP_SAVE context device true (UInt16.ofNat FSBULK_TEXT.length) then
      if ← fsbulkPhase ff RP_FS_OP_LOAD context device false 64 then
        discard <| onHw (fsbulkCompareContext context)
    onHw (snoopWrite6502MemoryLoc RP_STATUS RP_IDLE)

/-- The monitor commands that do more to the board than snoop. -/
inductive MonitorCommand
  | reset
  | go
  | stop
  | sc (lStep : UInt8)
  | ss (addresses : List UInt16)
  | ctx
  | page (lIndex lPage : UInt8)
  | zero
  | syscfg (lines : List (Option Int))
  | boot (now : UInt32)
  | irq (vSrc : IrqSource)
  | timer (lInterval now : UInt32)
  | fsbulk (device : UInt8) (context_arg : Option UInt8)

/-- The callback of a command. -/
def MonitorCommand.run (ff : FatFs σ) (flash : Flash) : MonitorCommand → Prog (System σ) Unit
  | .reset => onScheduler (cmdReset ff)
  | .go => onBoard do discard <| set6502State .sRUNNING
  | .stop => onBoard do discard <| set6502State .sHALTED
  | .sc lStep => onBoard (singleCycle6502 lStep)
  | .ss addresses => onBoard (cmdSS addresses)
  | .ctx => onBoard cmdMMU
  | .page lIndex lPage => onBoard (cmdPage lIndex lPage)
  | .zero => onBoard cmdZero
  | .syscfg lines => cmdSysConfig flash lines
  | .boot now => onScheduler (cmdBoot now)
  | .irq vSrc => onScheduler <| onFirmware do discard <| genIRQ6502 vSrc
  | .timer lInterval now => onScheduler (cmdTimer lInterval now)
  | .fsbulk device context_arg => onScheduler <| onFirmware (cmdFSBulk ff device context_arg)

end NeoMmu
