import NeoMmu.Foundation.Run
import NeoMmu.Foundation.Traced
import NeoMmu.Hardware.Settling

/-!
# The pins of the 6502, write by write

`p6502.cpp` once more, at the level of single writes to pins and to the statics that mirror them, in program
order. The CPU is a sequence of read and write cycles, one for each clock, and `cycle` is the one it is in.
-/

namespace NeoMmu

/-- The cycles of a CPU: whether a cycle reads, and whether it shows `SYNC`. -/
structure Cpu where
  reads : Nat → Bool
  sync : Nat → Bool

/-- The CPU never writes in more than seven cycles in a row. -/
def Cpu.Yields (cpu : Cpu) : Prop := ∀ t, ∃ i ≤ 7, cpu.reads (t + i) = true

/-- The levels of the pins, and the statics of `p6502.cpp` and `control.cpp`. -/
structure Pins where
  irqPin : Bool
  resetPin : Bool
  rdyPin : Bool
  bePin : Bool
  phi2Pin : Bool
  /-- The RP's side of the R/W pin: whether it is an output, and the level to put there. -/
  rwOut : Bool
  rwLevel : Bool
  gControlMode : ControlMode
  gSysState : SysState
  gDir6502RW : Direction
  gClockState : ClockState
  /-- The cycle the CPU is in. -/
  cycle : Nat

/-- Programs whose events are the writes, each with the pins before and after. -/
abbrev PinProg := Prog (Traced Pins (Pins × Pins))

open Prog (now drive)

section Programs

variable (cpu : Cpu)

namespace Pins

/-! ## The R/W pin and the clock -/

/-- `set6502RW()` -/
def set6502RW (vHL : Bool) : PinProg Unit := do
  if (← now).gDir6502RW = .mOUTPUT then
    drive fun p => { p with rwLevel := vHL }

/-- The level of the R/W pin, which is pulled up when the CPU's bus is off. -/
def rw (p : Pins) : Bool := if p.bePin then cpu.reads p.cycle else true

/-- `get6502RW()` -/
def get6502RW : PinProg Bool := do
  let p ← now
  if p.gDir6502RW = .mINPUT then
    return p.rw cpu
  else
    return true

/-- `dir6502RW()` -/
def dir6502RW (vDir : Direction) : PinProg Unit := do
  match vDir with
  | .mINPUT =>
    if (← now).gDir6502RW ≠ .mINPUT then
      drive fun p => { p with rwOut := false }
      drive fun p => { p with gDir6502RW := .mINPUT }
  | .mOUTPUT =>
    if (← now).gDir6502RW ≠ .mOUTPUT then
      drive fun p => { p with gDir6502RW := .mOUTPUT }
      set6502RW true
      drive fun p => { p with rwOut := true }
      set6502RW true
  | .mUNKNOWN => return

/-- `set6502Clock()` -/
def set6502Clock : PinProg Unit := drive fun p => { p with gClockState := .eON }

/-- `ss6502ClockStep()`: the next cycle begins with the low level. -/
def ss6502ClockStep : PinProg Unit := do
  drive fun p => { p with phi2Pin := false, cycle := p.cycle + 1 }
  drive fun p => { p with phi2Pin := true }

/-- The loop of `advance6502clock()`, with the steps it may still make. -/
def advance6502clock : Nat → PinProg Bool
  | 0 => return false
  | tries + 1 => do
    if ← get6502RW cpu then
      return true
    else
      ss6502ClockStep
      advance6502clock tries

/-- `halt6502clock(true)` -/
def halt6502clock : PinProg Bool := do
  if (← now).gClockState = .eOFF then
    return true
  else
    drive fun p => { p with phi2Pin := true }
    drive fun p => { p with gClockState := .eOFF }
    advance6502clock cpu 8

/-! ## States -/

/-- `IRQPin` -/
def setIRQPin (level : Bool) : PinProg Unit := drive fun p => { p with irqPin := level }

/-- `RESETPin` -/
def setRESETPin (level : Bool) : PinProg Unit := drive fun p => { p with resetPin := level }

/-- `RDYPin` -/
def setRDYPin (level : Bool) : PinProg Unit := drive fun p => { p with rdyPin := level }

/-- `BEPin` -/
def setBEPin (level : Bool) : PinProg Unit := drive fun p => { p with bePin := level }

/-- `setControlMode()` -/
def setControlMode (vMode : ControlMode) : PinProg Unit := drive fun p => { p with gControlMode := vMode }

/-- The `switch` of `set6502State()`; `false` is the state that must not be selected. -/
def enterState : SysState → PinProg Bool
  | .sSTARTUP => return false
  | .sBOOT => do
    setIRQPin true
    setRESETPin false
    discard <| halt6502clock cpu
    setRDYPin false
    setBEPin false
    dir6502RW .mOUTPUT
    setControlMode .mRPI
    return true
  | .sRESET => do
    setIRQPin true
    setRESETPin false
    set6502Clock
    setRDYPin false
    setBEPin true
    dir6502RW .mINPUT
    setControlMode .mCPU
    return true
  | .sHALTED => do
    discard <| halt6502clock cpu
    setRDYPin false
    setBEPin true
    dir6502RW .mINPUT
    setControlMode .mCPU
    return true
  | .sRUNNING => do
    dir6502RW .mINPUT
    setBEPin true
    set6502Clock
    setRDYPin true
    setRESETPin true
    setControlMode .mCPU
    return true
  | .sREAD => do
    setRESETPin true
    discard <| halt6502clock cpu
    setRDYPin true
    setBEPin true
    dir6502RW .mINPUT
    setControlMode .mRPI
    return true
  | .sRPI => do
    discard <| halt6502clock cpu
    setRDYPin false
    setBEPin false
    dir6502RW .mOUTPUT
    setControlMode .mRPI
    return true

/-- `set6502State()` -/
def set6502State (vSysState : SysState) : PinProg Bool := do
  if vSysState = (← now).gSysState then
    return true
  else
    if ← enterState cpu vSysState then
      drive fun p => { p with gSysState := vSysState }
      return true
    else
      return false

/-- `setup6502()` -/
def setup6502 : PinProg Unit := do
  setRESETPin false
  setBEPin false
  setRDYPin false
  drive fun p => { p with rwOut := true }
  drive fun p => { p with gDir6502RW := .mOUTPUT }
  set6502RW true
  setIRQPin true
  drive fun p => { p with phi2Pin := true }
  drive fun p => { p with gClockState := .eOFF }
  drive fun p => { p with gSysState := .sSTARTUP }

/-! ## What steps the CPU or takes its bus -/

/-- The clock steps of `singleCycle6502()`. -/
def clockSteps : Nat → PinProg Unit
  | 0 => return
  | n + 1 => do
    ss6502ClockStep
    clockSteps n

/-- `singleCycle6502()` -/
def singleCycle6502 (vSteps : UInt8) : PinProg Unit := do
  let lState := (← now).gSysState
  discard <| set6502State cpu .sREAD
  if vSteps = 0 then
    return
  else
    clockSteps vSteps.toNat
    discard <| set6502State cpu lState

/-- The loop of `singleStep6502()`, up to the next opcode fetch, with the steps it may still make. -/
def stepToSync : Nat → PinProg Unit
  | 0 => return
  | tries + 1 => do
    ss6502ClockStep
    if cpu.sync (← now).cycle then
      return
    else
      stepToSync tries

/-- `singleStep6502()` -/
def singleStep6502 : PinProg Unit := do
  let lState := (← now).gSysState
  discard <| set6502State cpu .sHALTED
  discard <| set6502State cpu .sREAD
  stepToSync cpu 8
  discard <| set6502State cpu lState

/-- The levels that bus cycles put on the R/W pin, one after the other. -/
def busCycles : List Bool → PinProg Unit
  | [] => return
  | vHL :: rest => do
    set6502RW vHL
    busCycles rest

/-- A snooping access. -/
def snoop (levels : List Bool) : PinProg Unit := do
  let lState := (← now).gSysState
  discard <| set6502State cpu .sRPI
  busCycles levels
  discard <| set6502State cpu lState

end Pins

/-! ## Runs -/

/-- What happens to the pins. -/
inductive PinStep
  | set6502State (vSysState : SysState)
  | singleCycle6502 (vSteps : UInt8)
  | singleStep6502
  | snoop (levels : List Bool)
  /-- So many cycles pass, if the clock runs. -/
  | elapse (cycles : Nat)

/-- What a step does. -/
def PinStep.program : PinStep → PinProg Unit
  | .set6502State vSysState => discard <| Pins.set6502State cpu vSysState
  | .singleCycle6502 vSteps => Pins.singleCycle6502 cpu vSteps
  | .singleStep6502 => Pins.singleStep6502 cpu
  | .snoop levels => Pins.snoop cpu levels
  | .elapse cycles => do
    if (← now).gClockState = .eON then
      drive fun p => { p with cycle := p.cycle + cycles }

/-- The pins after a step, and the writes up to there. -/
def pinStep (t : Traced Pins (Pins × Pins)) (l : PinStep) : Traced Pins (Pins × Pins) :=
  (l.program cpu).final t

/-- What `setup6502()` makes of pins at any level. -/
def pinSetup (p : Pins) : Traced Pins (Pins × Pins) := Pins.setup6502.final (.start p)

end Programs

end NeoMmu
