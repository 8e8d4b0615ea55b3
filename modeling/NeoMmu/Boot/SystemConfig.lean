import Mathlib.Algebra.GroupWithZero.Nat
import Mathlib.Data.Fintype.Basic
import NeoMmu.Memory.Config

/-!
# The system configuration

The tables of `sys_config.cpp`: the cartridges, and the configurations that say which of them to load
into which context. An index of a table lies inside it.
-/

namespace NeoMmu

/-- `MAX_CART` -/
abbrev MAX_CART : Nat := 16

/-- `MAX_CONFIG` -/
abbrev MAX_CONFIG : Nat := 16

instance neZero_maxConfig : NeZero MAX_CONFIG := ⟨by decide⟩

/-- A configuration index that passes its check lies inside the table. -/
theorem configIndex_lt {cfgIndex : Int} (h : 0 ≤ cfgIndex ∧ cfgIndex < MAX_CONFIG) :
    cfgIndex.toNat < MAX_CONFIG := by
  omega

/-- `MAX_FILE_LENGTH` -/
def MAX_FILE_LENGTH : Nat := 32

/-- `SUPPORTED_VERSION` -/
def SUPPORTED_VERSION : UInt8 := 1

/-- The string in a `char[MAX_FILE_LENGTH + 1]`. -/
abbrev FileName := { s : List UInt8 // s.length ≤ MAX_FILE_LENGTH }

/-- `copyFile()` -/
def copyFile (src : List UInt8) : FileName :=
  ⟨src.take MAX_FILE_LENGTH, List.length_take_le MAX_FILE_LENGTH src⟩

/-- `Cartridge` -/
structure Cartridge where
  name : Name
  file : FileName
  defined : Bool
  deriving DecidableEq, Repr

/-- `ConfigEntry` -/
structure ConfigEntry where
  cartIndex : Fin MAX_CART
  context : UInt8
  deriving DecidableEq, Repr

/-- `Config`; `entries` are those below `count`. -/
structure Config where
  name : Name
  memory : Name
  defined : Bool
  memoryDefined : Bool
  contextDefined : UInt8 → Bool
  entries : List ConfigEntry

/-- `SystemConfig` -/
structure SystemConfig where
  version : UInt8
  defaultConfig : Int
  defaultName : Name
  deriving DecidableEq, Repr

/-- `cartridges`, `configs` and `systemConfig`. -/
structure SystemTables where
  cartridges : Fin MAX_CART → Cartridge
  configs : Fin MAX_CONFIG → Config
  systemConfig : SystemConfig

/-- `resetTables()` -/
def resetTables : SystemTables where
  cartridges := fun _ => ⟨Name.empty, ⟨[], Nat.zero_le _⟩, false⟩
  configs := fun _ => ⟨Name.empty, Name.empty, false, false, fun _ => false, []⟩
  systemConfig := ⟨0, -1, Name.empty⟩

/-- `loadFallbackProfile()` -/
def loadFallbackProfile : SystemTables where
  cartridges := Function.update resetTables.cartridges 0
    ⟨copyName (ascii "boot"), copyFile (ascii "boot.rom"), true⟩
  configs := Function.update resetTables.configs 0
    { name := copyName (ascii "SAFE")
      memory := copyName (ascii "default")
      defined := true
      memoryDefined := true
      contextDefined := fun ctx => ctx = 0
      entries := [⟨0, 0⟩] }
  systemConfig := { resetTables.systemConfig with version := SUPPORTED_VERSION, defaultConfig := 0 }

/-- The configurations the menu shows, in the order of the table (`visibleConfigs`). -/
def SystemTables.visibleConfigs (tables : SystemTables) : List (Fin MAX_CONFIG) :=
  (List.finRange MAX_CONFIG).filter fun i => (tables.configs i).defined

end NeoMmu
