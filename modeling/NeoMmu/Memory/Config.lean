import NeoMmu.Foundation.Bytes

/-!
# The memory configuration

The data of `memory_config.h`, the look-ups by name and `validateConfig()`. An array with its count is
a list, and a name buffer holds at most sixteen bytes before its NUL.
-/

namespace NeoMmu

/-- `MAX_MEMORY_NAME` -/
def MAX_MEMORY_NAME : Nat := 16

/-- `MAX_MEMORY_MODELS` -/
def MAX_MEMORY_MODELS : Nat := 4

/-- `MAX_MEMORY_LAYOUTS` -/
def MAX_MEMORY_LAYOUTS : Nat := 8

/-- `MAX_MEMORY_REGIONS` -/
def MAX_MEMORY_REGIONS : Nat := 16

/-- `MAX_MEMORY_CONTEXTS` -/
def MAX_MEMORY_CONTEXTS : Nat := 16

/-- The string in a `char[MAX_MEMORY_NAME + 1]`. -/
abbrev Name := { s : List UInt8 // s.length ≤ MAX_MEMORY_NAME }

/-- `copyTrunc()` into a name buffer. -/
def copyName (src : List UInt8) : Name :=
  ⟨copyTrunc (MAX_MEMORY_NAME + 1) src, List.length_take_le MAX_MEMORY_NAME src⟩

/-- A stored name is copied unchanged. -/
@[simp] theorem copyName_val (name : Name) : copyName name.val = name :=
  Subtype.ext (List.take_of_length_le name.property)

/-- A name buffer cleared by `memset`. -/
def Name.empty : Name := ⟨[], Nat.zero_le _⟩

/-- `MemoryRegionType` -/
inductive MemoryRegionType
  | MEMORY_REGION_NORMAL
  | MEMORY_REGION_IO
  deriving DecidableEq, Repr

/-- `MemoryIniErrorCode` -/
inductive MemoryIniErrorCode
  | MEMORY_INI_OK
  | MEMORY_INI_OPEN_FAILED
  | MEMORY_INI_SYNTAX
  | MEMORY_INI_UNKNOWN_SECTION
  | MEMORY_INI_UNKNOWN_KEY
  | MEMORY_INI_DUPLICATE_MODEL
  | MEMORY_INI_DUPLICATE_LAYOUT
  | MEMORY_INI_DUPLICATE_REGION
  | MEMORY_INI_DUPLICATE_CONTEXT
  | MEMORY_INI_INVALID_CONTEXT
  | MEMORY_INI_INVALID_VALUE
  | MEMORY_INI_INVALID_RANGE
  | MEMORY_INI_MODEL_NOT_FOUND
  | MEMORY_INI_LAYOUT_NOT_FOUND
  | MEMORY_INI_LAYOUT_INCOMPLETE
  | MEMORY_INI_OVERLAPPING_REGIONS
  deriving DecidableEq, Repr

/-- `MemoryIniError` -/
structure MemoryIniError where
  code : MemoryIniErrorCode
  line : Nat
  sectionText : List UInt8
  key : List UInt8
  value : List UInt8
  deriving DecidableEq, Repr

/-- `MemoryModel` -/
structure MemoryModel where
  name : Name
  contexts : UInt8
  deriving DecidableEq, Repr

/-- `MemoryLayoutRegion` -/
structure MemoryLayoutRegion where
  name : Name
  start : UInt8
  pages : UInt8
  shared : Bool
  type : MemoryRegionType
  trap_write : Bool
  deriving DecidableEq, Repr

/-- `MemoryLayout` -/
structure MemoryLayout where
  model : Name
  name : Name
  regions : List MemoryLayoutRegion
  deriving DecidableEq, Repr

/-- `MemoryContextBinding` -/
structure MemoryContextBinding where
  model : Name
  context : UInt8
  layout : Name
  deriving DecidableEq, Repr

/-- `MemoryConfig` -/
structure MemoryConfig where
  version : UInt8
  active_model : Name
  boot_context : UInt8
  models : List MemoryModel
  layouts : List MemoryLayout
  contexts : List MemoryContextBinding
  deriving DecidableEq, Repr

/-- The configuration after `memset(&memoryConfig, 0, …)`. -/
def MemoryConfig.empty : MemoryConfig := ⟨0, Name.empty, 0, [], [], []⟩

/-- `failMemoryIni()`: the error it stores. -/
def failMemoryIni (code : MemoryIniErrorCode) (line : Nat) (sectionText key value : Option (List UInt8)) :
    MemoryIniError where
  code := code
  line := line
  sectionText := copyTrunc 48 (sectionText.getD [])
  key := copyTrunc 32 (key.getD [])
  value := copyTrunc 64 (value.getD [])

namespace MemoryConfig

variable (cfg : MemoryConfig)

/-- `findModel()` -/
def findModel (name : List UInt8) : Option MemoryModel := cfg.models.find? (·.name.val = name)

/-- `findLayout()` -/
def findLayout (model name : List UInt8) : Option MemoryLayout :=
  cfg.layouts.find? fun layout => layout.model.val = model ∧ layout.name.val = name

/-- `findContextBinding()` -/
def findContextBinding (model : List UInt8) (context : UInt8) : Option MemoryContextBinding :=
  cfg.contexts.find? fun binding => binding.model.val = model ∧ binding.context = context

/-- `resolveLayoutForContext()` -/
def resolveLayoutForContext (model : MemoryModel) (ctx : UInt8) : Option MemoryLayout :=
  match cfg.findContextBinding model.name.val ctx with
  | none => none
  | some binding => cfg.findLayout model.name.val binding.layout.val

end MemoryConfig

/-- `findRegion()` -/
def MemoryLayout.findRegion (layout : MemoryLayout) (name : List UInt8) :
    Option MemoryLayoutRegion :=
  layout.regions.find? (·.name.val = name)

/-- Whether a region covers a slot, in `int` arithmetic. -/
def MemoryLayoutRegion.covers (region : MemoryLayoutRegion) (slot : UInt8) : Bool :=
  region.start ≤ slot && slot.toNat < region.start.toNat + region.pages.toNat

/-- `isValidRegionRange()` -/
def isValidRegionRange (reg : MemoryLayoutRegion) : Bool :=
  if reg.pages = 0 then false
  else if 16 ≤ reg.start then false
  else if 16 < reg.start.toUInt16 + reg.pages.toUInt16 then false
  else true

/-- `layoutHasOverlaps()`, each region against those after it. -/
def layoutHasOverlaps : List MemoryLayoutRegion → Bool
  | [] => false
  | a :: rest =>
    rest.any (fun b => a.start < b.start + b.pages && b.start < a.start + a.pages) ||
      layoutHasOverlaps rest

/-- `layoutIsComplete()`: every slot is some region's `start + p`. -/
def layoutIsComplete (layout : MemoryLayout) : Bool :=
  (bytesBelow 16).all fun i => layout.regions.any fun reg =>
    (bytesBelow reg.pages).any fun p => reg.start.toNat + p.toNat = i.toNat

/-! ## Validation -/

/-- The checks `validateConfig()` makes of one layout. -/
def validateLayout (cfg : MemoryConfig) (layout : MemoryLayout) : Except MemoryIniError Unit := do
  if (cfg.findModel layout.model.val).isNone then
    throw (failMemoryIni .MEMORY_INI_MODEL_NOT_FOUND 0 layout.name.val (ascii "model") layout.model.val)
  if layout.regions.length = 0 then
    throw (failMemoryIni .MEMORY_INI_LAYOUT_INCOMPLETE 0 layout.name.val none none)
  layout.regions.forM fun reg => do
    if isValidRegionRange reg = false then
      throw (failMemoryIni .MEMORY_INI_INVALID_RANGE 0 layout.name.val reg.name.val none)
  if layoutHasOverlaps layout.regions then
    throw (failMemoryIni .MEMORY_INI_OVERLAPPING_REGIONS 0 layout.name.val none none)
  if layoutIsComplete layout = false then
    throw (failMemoryIni .MEMORY_INI_LAYOUT_INCOMPLETE 0 layout.name.val none none)

/-- The checks `validateConfig()` makes of one context of the active model. -/
def validateContext (cfg : MemoryConfig) (active : MemoryModel) (i : UInt8) :
    Except MemoryIniError Unit :=
  match cfg.findContextBinding active.name.val i with
  | none =>
    throw (failMemoryIni .MEMORY_INI_INVALID_CONTEXT 0 (ascii "context") (ascii "missing")
      (ascii (toString i.toNat)))
  | some ctx => do
    if (cfg.findLayout active.name.val ctx.layout.val).isNone then
      throw (failMemoryIni .MEMORY_INI_LAYOUT_NOT_FOUND 0 (ascii "context") (ascii "layout")
        ctx.layout.val)

/-- `validateConfig()` -/
def validateConfig (cfg : MemoryConfig) : Except MemoryIniError Unit := do
  if cfg.version = 0 then
    throw (failMemoryIni .MEMORY_INI_INVALID_VALUE 0 (ascii "system") (ascii "config_version") none)
  if cfg.active_model.val = [] then
    throw (failMemoryIni .MEMORY_INI_INVALID_VALUE 0 (ascii "system") (ascii "active_model") none)
  match cfg.findModel cfg.active_model.val with
  | none =>
    throw (failMemoryIni .MEMORY_INI_MODEL_NOT_FOUND 0 (ascii "system") (ascii "active_model")
      cfg.active_model.val)
  | some active => do
    if active.contexts ≤ cfg.boot_context then
      throw (failMemoryIni .MEMORY_INI_INVALID_CONTEXT 0 (ascii "system") (ascii "boot_context") none)
    cfg.models.forM fun model => do
      if model.contexts = 0 ∨ 16 < model.contexts then
        throw (failMemoryIni .MEMORY_INI_INVALID_VALUE 0 model.name.val (ascii "contexts") none)
    cfg.layouts.forM (validateLayout cfg)
    (bytesBelow active.contexts).forM (validateContext cfg active)

end NeoMmu
