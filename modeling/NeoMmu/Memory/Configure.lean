import NeoMmu.Foundation.Prog
import NeoMmu.Hardware.Mmu
import NeoMmu.Memory.Parse

/-!
# Configuring the MMU from the active model

`configureMMUFromActiveModel()`: a first pass assigns a physical page to every slot of every context of
the active model, a second one writes the MMU entries. `touched` records every index the code applies
to its two static arrays, so that being in bounds is a property of a run.
-/

namespace NeoMmu

/-- `SharedPage` -/
structure SharedPage where
  model : Name
  region : Name
  offset : UInt8
  phys : UInt8
  deriving DecidableEq, Repr

/-- An index applied to a static array of `memory_config.cpp`. -/
inductive ArrayIndex
  /-- `phys_map[ctx][logical]` -/
  | physMap (ctx logical : UInt8)
  /-- `shared_pages[i]` -/
  | sharedPages (i : Nat)
  deriving DecidableEq, Repr

/-- The index lies inside its array. -/
def ArrayIndex.InBounds : ArrayIndex → Prop
  | .physMap ctx logical => ctx < 16 ∧ logical < 16
  | .sharedPages i => i < NUM_TOTAL_PAGES

/-- The statics and locals of the configuration, and the MMU entries it writes. -/
structure PhysState where
  phys_map : UInt8 × UInt8 → UInt8
  /-- `shared_pages` below `shared_page_count`. -/
  shared_pages : List SharedPage
  nextPhysical : UInt8
  /-- The MMU entries, as `writeMMUPage()` stores them. -/
  mmu : UInt8 × UInt8 → UInt8
  /-- Every array index applied so far, the newest first. -/
  touched : List ArrayIndex

/-- Apply some array indices. -/
def touch (indices : List ArrayIndex) : Prog PhysState Unit :=
  modify fun st => { st with touched := indices ++ st.touched }

/-- The test of the scan in `getSharedPhysical()`. -/
def SharedPage.isFor (model region : Name) (offset : UInt8) (e : SharedPage) : Bool :=
  e.model = model ∧ e.region = region ∧ e.offset = offset

/-- `getSharedPhysical()` -/
def getSharedPhysical (model region : Name) (offset : UInt8) : Prog PhysState UInt8 := do
  let st ← get
  let count := st.shared_pages.length
  -- The scan reads the entries up to the one it returns.
  let scanned := min (st.shared_pages.findIdx (SharedPage.isFor model region offset) + 1) count
  touch ((List.range scanned).map .sharedPages)
  match st.shared_pages.find? (SharedPage.isFor model region offset) with
  | some e => return e.phys
  | none =>
    if NUM_TOTAL_PAGES ≤ st.nextPhysical.toNat ∨ NUM_TOTAL_PAGES ≤ count then
      return 0xFF
    else
      touch [.sharedPages count]
      let entry : SharedPage :=
        ⟨copyName model.val, copyName region.val, offset, st.nextPhysical⟩
      modify fun st => { st with
        shared_pages := st.shared_pages ++ [entry], nextPhysical := st.nextPhysical + 1 }
      return st.nextPhysical

/-- The physical page of page `p` of a region; `none` is the source's `return false`. -/
def allocPhysical (model : MemoryModel) (region : MemoryLayoutRegion) (p : UInt8) :
    Prog PhysState (Option UInt8) := do
  if region.shared then
    let phys ← getSharedPhysical model.name region.name p
    return if phys = 0xFF then none else some phys
  else
    let st ← get
    if NUM_TOTAL_PAGES ≤ st.nextPhysical.toNat then
      return none
    else
      modify fun st => { st with nextPhysical := st.nextPhysical + 1 }
      return some st.nextPhysical

/-- The body of the innermost allocation loop. -/
def placePage (model : MemoryModel) (ctx : UInt8) (region : MemoryLayoutRegion) (p : UInt8) :
    Prog PhysState Bool := do
  let logical := region.start + p
  match ← allocPhysical model region p with
  | none => return false
  | some phys =>
    touch [.physMap ctx logical]
    modify fun st => { st with phys_map := Function.update st.phys_map (ctx, logical) phys }
    return true

/-- The allocation pass for one context. -/
def placeContext (cfg : MemoryConfig) (model : MemoryModel) (ctx : UInt8) : Prog PhysState Bool :=
  match cfg.resolveLayoutForContext model ctx with
  | none => return false
  | some layout =>
    layout.regions.allM fun region => (bytesBelow region.pages).allM (placePage model ctx region)

/-- Whether accesses to a region trap. -/
def MemoryLayoutRegion.traps (region : MemoryLayoutRegion) : Bool :=
  region.type = MemoryRegionType.MEMORY_REGION_IO || region.trap_write

/-- The body of the inner loop of the second pass. -/
def writeSlot (layout : MemoryLayout) (ctx slot : UInt8) : Prog PhysState Bool := do
  touch [.physMap ctx slot]
  let st ← get
  let phys := st.phys_map (ctx, slot)
  match layout.regions.find? (·.covers slot) with
  | none => return false
  | some region =>
    let phys := if region.traps then phys ||| 0x80 else phys
    modify fun st => { st with mmu := Function.update st.mmu (ctx, slot) phys }
    return true

/-- The second pass for one context. -/
def writeContext (cfg : MemoryConfig) (model : MemoryModel) (ctx : UInt8) : Prog PhysState Bool :=
  match cfg.resolveLayoutForContext model ctx with
  | none => return false
  | some layout => (bytesBelow 16).allM (writeSlot layout ctx)

/-- `configureMMUFromActiveModel()` -/
def configureMMUFromActiveModel (cfg : MemoryConfig) : Prog PhysState Bool := do
  match cfg.findModel cfg.active_model.val with
  | none => return false
  | some model =>
    if model.contexts = 0 ∨ 16 < model.contexts then
      return false
    else
      modify fun st => { st with phys_map := fun _ => 0, shared_pages := [], nextPhysical := 0 }
      let placed ← (bytesBelow model.contexts).allM (placeContext cfg model)
      if placed then
        (bytesBelow model.contexts).allM (writeContext cfg model)
      else
        return false

end NeoMmu
