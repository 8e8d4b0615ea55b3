import Mathlib.Logic.Function.Basic
import NeoMmu.Foundation.Prog

/-!
# The board and the firmware's hardware state

`Machine` is what the bus drivers read and write: the latches, the MMU RAM and the 6502 RAM of the
board, the levels of the 6502 control pins, and the firmware statics that mirror them. The CPU's own
bus cycles are not part of the model; every step here is one the RP makes.
-/

namespace NeoMmu

/-- Who drives the 6502 buses (`controlmode_t`). -/
inductive ControlMode
  | mRPI
  | mCPU
  deriving DecidableEq, Repr

/-- The system states of the 6502 side (`sysstate_t`). -/
inductive SysState
  | sSTARTUP
  | sBOOT
  | sRESET
  | sHALTED
  | sRUNNING
  | sREAD
  | sRPI
  deriving DecidableEq, Repr

/-- Direction of the 6502 R/W pin as the RP sees it (`direction_t`). -/
inductive Direction
  | mOUTPUT
  | mINPUT
  | mUNKNOWN
  deriving DecidableEq, Repr

/-- State of the PHI2 clock (`clockstate_t`). -/
inductive ClockState
  | eOFF
  | eON
  deriving DecidableEq, Repr

/-- `DEFAULT_CONTEXT` -/
def DEFAULT_CONTEXT : UInt8 := 0

/-- The board and the statics of `control.cpp`, `p6502.cpp` and `mmu.cpp`. -/
structure Machine where
  /-- The 6502 address latch AREG, bits 15..8. -/
  aregH : UInt8
  /-- AREG bits 7..0. -/
  aregL : UInt8
  /-- The MMU context latch. -/
  ctxReg : UInt8
  /-- MMU RAM, addressed by the context latch and AREG bits 15..12. -/
  mmuRam : UInt8 × UInt8 → UInt8
  /-- 6502 RAM, addressed by a 4K physical page and the offset in it. -/
  ram : UInt8 × UInt16 → UInt8
  irqPin : Bool
  resetPin : Bool
  rdyPin : Bool
  bePin : Bool
  gControlMode : ControlMode
  gSysState : SysState
  gDir6502RW : Direction
  gClockState : ClockState
  gCurrentContext : Int
  gCurrentIndex : Int
  /-- Whether the falling edge of `pMMUIO` raises `intrMMUIO`. -/
  mmuIrqEnabled : Bool
  gMMUIOTrigger : Bool

/-- The machine when `setup6502()` has run: statics at their initial values, latches and memories
holding whatever they hold. -/
def Machine.setup6502 (aregH aregL ctxReg : UInt8) (mmuRam : UInt8 × UInt8 → UInt8)
    (ram : UInt8 × UInt16 → UInt8) : Machine where
  aregH := aregH
  aregL := aregL
  ctxReg := ctxReg
  mmuRam := mmuRam
  ram := ram
  irqPin := true
  resetPin := false
  rdyPin := false
  bePin := false
  gControlMode := .mRPI
  gSysState := .sSTARTUP
  gDir6502RW := .mOUTPUT
  gClockState := .eOFF
  gCurrentContext := -1
  gCurrentIndex := -1
  mmuIrqEnabled := false
  gMMUIOTrigger := false

namespace Machine

/-- The address AREG puts on the bus. -/
def areg (m : Machine) : UInt16 := m.aregH.toUInt16 * 256 + m.aregL.toUInt16

/-- Bits 15..12 of an address, the index into a context's sixteen MMU entries. -/
def index (vAddress : UInt16) : UInt8 := (vAddress >>> 12).toUInt8

/-- The RAM cell an address selects: the MMU entry under the context latch names the page, and its
bit 7, the IO trap, is no address line. -/
def physAddr (m : Machine) (vAddress : UInt16) : UInt8 × UInt16 :=
  (m.mmuRam (m.ctxReg, index vAddress) &&& 0x7F, vAddress &&& 0x0FFF)

/-- The byte the 6502 bus shows at an address. -/
def peek (m : Machine) (vAddress : UInt16) : UInt8 := m.ram (m.physAddr vAddress)

/-- The machine after a bus write of `vData` at an address. -/
def poke (m : Machine) (vAddress : UInt16) (vData : UInt8) : Machine :=
  { m with ram := Function.update m.ram (m.physAddr vAddress) vData }

end Machine

/-! ## Control mode and the interrupt of the IO page -/

/-- `getControlMode()` -/
def getControlMode : Prog Machine ControlMode := .gets (·.gControlMode)

/-- `setControlMode()` -/
def setControlMode (vMode : ControlMode) : Prog Machine Unit :=
  modify fun m => { m with gControlMode := vMode }

/-- `intrMMUIO()`, the handler of the falling edge of `pMMUIO`. -/
def intrMMUIO : Prog Machine Unit :=
  modify fun m => if m.mmuIrqEnabled then { m with gMMUIOTrigger := true } else m

/-- `ackMMUIO()` -/
def ackMMUIO : Prog Machine Unit := modify fun m => { m with gMMUIOTrigger := false }

/-- `triggerMMUIO()` -/
def triggerMMUIO : Prog Machine Bool := .gets (·.gMMUIOTrigger)

/-- `enableMMUInterrupt()` -/
def enableMMUInterrupt : Prog Machine Unit := do
  ackMMUIO
  modify fun m => { m with mmuIrqEnabled := true }

/-- `disableMMUInterrupt()` -/
def disableMMUInterrupt : Prog Machine Unit := do
  ackMMUIO
  modify fun m => { m with mmuIrqEnabled := false }

end NeoMmu
