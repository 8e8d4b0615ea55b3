import NeoMmu.Hardware.Machine

/-!
# Memory cycles on the NEObus

The bus driver of `neobus.cpp`: latching an address in AREG and one read or write cycle on the 6502
bus. Both cycles leave the address they used in AREG.
-/

namespace NeoMmu

/-! ## The address latch -/

/-- `writeCPUAddressH()`: latch A08..15. -/
def writeCPUAddressH (vAddress : UInt8) : Prog Machine Unit :=
  modify fun m => { m with aregH := vAddress }

/-- `writeCPUAddressL()`: latch A00..07. -/
def writeCPUAddressL (vAddress : UInt8) : Prog Machine Unit :=
  modify fun m => { m with aregL := vAddress }

/-- `writeCPUAddress()` -/
def writeCPUAddress (vAddress : UInt16) : Prog Machine Unit := do
  if (← getControlMode) = .mRPI then
    writeCPUAddressH (vAddress >>> 8).toUInt8
    writeCPUAddressL (vAddress &&& 0xFF).toUInt8

/-! ## Bus cycles -/

/-- `read6502Data()`: the byte the RAM drives while AREG is on the address bus. -/
def read6502Data : Prog Machine UInt8 := .gets fun m => m.peek m.areg

/-- `read6502Memory()` -/
def read6502Memory (vAddress : UInt16) : Prog Machine UInt8 := do
  if (← getControlMode) = .mRPI then
    writeCPUAddress vAddress
    read6502Data
  else
    return 0

/-- The write cycle of `write6502Memory()`, from `writeNEOBus()` to `MRWPin::high()`. -/
def writeCycle (vData : UInt8) : Prog Machine Unit := modify fun m => m.poke m.areg vData

/-- `write6502Memory()` -/
def write6502Memory (vAddress : UInt16) (vData : UInt8) : Prog Machine Unit := do
  if (← getControlMode) = .mRPI then
    disableMMUInterrupt
    writeCPUAddress vAddress
    writeCycle vData
    enableMMUInterrupt

/-! ## What a cycle does

Latching an address puts exactly that address in AREG, so a cycle acts on the byte its caller named.
-/

namespace Machine

/-- The machine with an address latched in AREG. -/
def latch (m : Machine) (vAddress : UInt16) : Machine :=
  { m with aregH := (vAddress >>> 8).toUInt8, aregL := (vAddress &&& 0xFF).toUInt8 }

theorem areg_latch (m : Machine) (vAddress : UInt16) : (m.latch vAddress).areg = vAddress := by
  apply UInt16.toNat_inj.1
  simp only [areg, latch, UInt16.toNat_add, UInt16.toNat_mul, UInt8.toNat_toUInt16,
    UInt16.toNat_toUInt8, UInt16.toNat_shiftRight, UInt16.toNat_and, UInt16.toNat_ofNat]
  simp only [Nat.shiftRight_eq_div_pow, Nat.and_two_pow_sub_one_eq_mod _ 8, Nat.reducePow,
    Nat.reduceMod]
  have := vAddress.toNat_lt
  omega

/-- AREG bits 15..12 are the high half of the high latch. -/
theorem index_areg (m : Machine) : index m.areg = m.aregH >>> 4 := by
  apply UInt8.toNat_inj.1
  simp only [index, areg, UInt16.toNat_toUInt8, UInt16.toNat_shiftRight, UInt16.toNat_add,
    UInt16.toNat_mul, UInt8.toNat_toUInt16, UInt8.toNat_shiftRight, UInt16.toNat_ofNat,
    UInt8.toNat_ofNat, Nat.shiftRight_eq_div_pow, Nat.reducePow, Nat.reduceMod]
  have := m.aregH.toNat_lt
  have := m.aregL.toNat_lt
  omega

@[simp] theorem peek_latch (m : Machine) (a b : UInt16) : (m.latch a).peek b = m.peek b := rfl

@[simp] theorem poke_latch (m : Machine) (a b : UInt16) (v : UInt8) :
    (m.latch a).poke b v = (m.poke b v).latch a := rfl

/-- The machine with the IO page interrupt acknowledged and enabled. -/
def irqOn (m : Machine) : Machine := { m with gMMUIOTrigger := false, mmuIrqEnabled := true }

end Machine

section Cycles

variable {m : Machine}

@[simp] theorem result_getControlMode : getControlMode.result m = m.gControlMode := by
  rfl

@[simp] theorem final_getControlMode : getControlMode.final m = m := by rfl

theorem final_writeCPUAddress (hm : m.gControlMode = .mRPI) (a : UInt16) :
    (writeCPUAddress a).final m = m.latch a := by
  simp only [writeCPUAddress, Prog.final_bind, result_getControlMode, final_getControlMode, hm,
    if_true]
  rfl

theorem result_read6502Memory (hm : m.gControlMode = .mRPI) (a : UInt16) :
    (read6502Memory a).result m = m.peek a := by
  simp only [read6502Memory, Prog.result_bind, result_getControlMode, final_getControlMode, hm,
    if_true, final_writeCPUAddress hm]
  exact congrArg m.peek (m.areg_latch a)

theorem final_read6502Memory (hm : m.gControlMode = .mRPI) (a : UInt16) :
    (read6502Memory a).final m = m.latch a := by
  simp only [read6502Memory, Prog.final_bind, result_getControlMode, final_getControlMode, hm,
    if_true, final_writeCPUAddress hm]
  rfl

theorem final_write6502Memory (hm : m.gControlMode = .mRPI) (a : UInt16) (v : UInt8) :
    (write6502Memory a v).final m = ((m.poke a v).latch a).irqOn := by
  have hd : (disableMMUInterrupt.final m).gControlMode = .mRPI := hm
  simp only [write6502Memory, Prog.final_bind, result_getControlMode, final_getControlMode, hm,
    if_true, final_writeCPUAddress hd]
  have ha := (disableMMUInterrupt.final m).areg_latch a
  change enableMMUInterrupt.final (((disableMMUInterrupt.final m).latch a).poke _ v) = _
  rw [ha]
  rfl

end Cycles

end NeoMmu
