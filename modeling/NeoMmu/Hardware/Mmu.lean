import NeoMmu.Hardware.Bus

/-!
# The MMU driver

`mmu.cpp`: selecting a context and an entry, and reading or writing the entry. `setMMUContext` and
`writeMMUIndex` skip the latch when the cached `gCurrentContext` or `gCurrentIndex` already names the
value.
-/

namespace NeoMmu

/-- `NUM_CONTEXTS` -/
def NUM_CONTEXTS : Nat := 128

/-- `NUM_TOTAL_PAGES` -/
def NUM_TOTAL_PAGES : Nat := 128

/-- `NUM_CONTEXT_PAGES` -/
def NUM_CONTEXT_PAGES : Nat := 16

/-- `getMMUContext()`: the cached context, cut to a byte. -/
def Machine.getMMUContext (m : Machine) : UInt8 := UInt8.ofInt m.gCurrentContext

/-- `writeMMUIndex()` -/
def writeMMUIndex (vIndex : UInt8) : Prog Machine Unit := do
  if (vIndex.toNat : Int) ≠ (← get).gCurrentIndex then
    writeCPUAddressH ((vIndex &&& 0x0F) <<< 4)
    modify fun m => { m with gCurrentIndex := vIndex.toNat }

/-- `setMMUContext()` -/
def setMMUContext (vContext : UInt8) : Prog Machine Unit := do
  if (vContext.toNat : Int) ≠ (← get).gCurrentContext then
    modify fun m => { m with ctxReg := vContext }
    modify fun m => { m with gCurrentContext := vContext.toNat }

/-- The entry the context latch and AREG bits 15..12 select. -/
def Machine.entry (m : Machine) : UInt8 × UInt8 := (m.ctxReg, Machine.index m.areg)

/-- `readMMUPage()` -/
def readMMUPage (vContext vIndex : UInt8) : Prog Machine UInt8 := do
  setMMUContext vContext
  writeMMUIndex vIndex
  Prog.gets fun m => m.mmuRam m.entry

/-- `writeMMUPage()`, which always succeeds as `USE_VALIDATION` is 0. -/
def writeMMUPage (vContext vIndex vPage : UInt8) : Prog Machine Bool := do
  setMMUContext vContext
  writeMMUIndex vIndex
  modify fun m => { m with mmuRam := Function.update m.mmuRam m.entry vPage }
  return true

/-- `gDefaultMMU`: a straight 64K space with the IO page on `E000`. -/
def gDefaultMMU : List UInt8 :=
  [0x00, 0x01, 0x02, 0x03, 0x04, 0x05, 0x06, 0x07, 0x08, 0x09, 0x0A, 0x0B, 0x0C, 0x0D, 0x8E, 0x0F]

/-- `defMMUContext()` -/
def defMMUContext (vContext : UInt8) (vMMU : List UInt8) : Prog Machine Bool := do
  let ok ← (vMMU.zipIdx.take NUM_CONTEXT_PAGES).mapM fun (vPage, lPage) =>
    writeMMUPage vContext (UInt8.ofNat lPage) vPage
  return ok.all id

/-- `mapMMUPage()` -/
def mapMMUPage (vContext vIndex : UInt8) : Prog Machine Unit := do
  let lPage ← readMMUPage vContext vIndex
  discard <| writeMMUPage DEFAULT_CONTEXT vIndex lPage

/-- `initMMU()` -/
def initMMU : Prog Machine Bool := do
  disableMMUInterrupt
  let ok ← (List.range NUM_CONTEXTS).mapM fun lContext =>
    defMMUContext (UInt8.ofNat lContext) gDefaultMMU
  setMMUContext DEFAULT_CONTEXT
  if ok.all id then
    enableMMUInterrupt
  return ok.all id

end NeoMmu
