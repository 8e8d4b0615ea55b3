import NeoMmu.Boot.Rom
import NeoMmu.Boot.SystemConfig

/-!
# Booting a configuration

`boot.cpp`: the menu picks a configuration, and its cartridges are loaded in `sBOOT`, each in its
context. When that fails the fallback profile is loaded instead. Either way the boot context is selected
in `sBOOT`, whatever the state was before.
-/

namespace NeoMmu

/-- `waitForUserSelection()`. A line typed before the timeout is `none` when it is empty, and otherwise
the number that `toInt()` makes of it. -/
def waitForUserSelection (tables : SystemTables) : List (Option Int) → Int
  | [] => tables.systemConfig.defaultConfig
  | none :: _ => tables.systemConfig.defaultConfig
  | some selection :: rest =>
    if selection < 0 then waitForUserSelection tables rest
    else
      match tables.visibleConfigs[selection.toNat]? with
      | some cfgIndex => cfgIndex.val
      | none => waitForUserSelection tables rest

/-- The path of a cartridge file, `"/system/%s"`. -/
def cartridgePath (file : FileName) : List UInt8 := ascii "/system/" ++ file.val

/-- `activateConfiguration()` -/
def activateConfiguration (flash : Flash) (tables : SystemTables) (cfgIndex : Int) :
    Prog Machine Bool := do
  if h : 0 ≤ cfgIndex ∧ cfgIndex < MAX_CONFIG then
    let cfg := tables.configs ⟨cfgIndex.toNat, configIndex_lt h⟩
    if cfg.defined then
      discard <| set6502State .sBOOT
      cfg.entries.allM fun entry => do
        setMMUContext entry.context
        loadROMCartridgeFile flash (cartridgePath (tables.cartridges entry.cartIndex).file)
    else
      return false
  else
    return false

/-- `bootSystemWithMenu()`, which returns the tables it leaves. -/
def bootSystemWithMenu (flash : Flash) (tables : SystemTables) (boot_context : UInt8)
    (lines : List (Option Int)) : Prog Machine SystemTables := do
  let activated ← activateConfiguration flash tables (waitForUserSelection tables lines)
  if activated then
    setMMUContext boot_context
    return tables
  else
    discard <| activateConfiguration flash loadFallbackProfile
      loadFallbackProfile.systemConfig.defaultConfig
    setMMUContext boot_context
    return loadFallbackProfile

/-! ## Booting ends in `sBOOT` -/

section Boot

variable {m : Machine} (flash : Flash) (tables : SystemTables)

/-- An activation that finds its configuration ends in `sBOOT`, also when a cartridge fails. -/
theorem activateConfiguration_cases (hm : m.Settled) (cfgIndex : Int) :
    ((activateConfiguration flash tables cfgIndex).final m).Settled ∧
      (((activateConfiguration flash tables cfgIndex).final m).gSysState = .sBOOT ∨
        (activateConfiguration flash tables cfgIndex).result m = false ∧
          ∀ h : 0 ≤ cfgIndex ∧ cfgIndex < MAX_CONFIG,
            (tables.configs ⟨cfgIndex.toNat, configIndex_lt h⟩).defined = false) := by
  unfold activateConfiguration
  split
  swap
  · rename_i hrange
    exact ⟨hm, .inr ⟨rfl, fun h => absurd h hrange⟩⟩
  rename_i hrange
  dsimp only
  split
  swap
  · rename_i hundefined
    exact ⟨hm, .inr ⟨rfl, fun _ => Bool.not_eq_true _ ▸ hundefined⟩⟩
  obtain ⟨hview, hsettled⟩ := set6502State_spec hm (s := .sBOOT) nofun
  have hboot : ((set6502State .sBOOT).final m).gSysState = .sBOOT :=
    congrArg Machine.View.gSysState hview
  have hload : Prog.Keeps Selecting
      ((tables.configs ⟨cfgIndex.toNat, configIndex_lt hrange⟩).entries.allM fun entry => do
        setMMUContext entry.context
        loadROMCartridgeFile flash (cartridgePath (tables.cartridges entry.cartIndex).file)) :=
    Prog.Keeps.allM fun entry _ => (selecting_setMMUContext _).bind fun _ =>
      selecting_loadROMCartridgeFile flash _
  obtain ⟨hsettled', hstate⟩ := hload _ hsettled (by rw [hboot]; nofun)
  rw [Prog.final_bind, Prog.final_discard]
  exact ⟨hsettled', .inl (hstate.trans hboot)⟩

/-- The fallback profile can always be activated, so booting ends in `sBOOT`. -/
theorem bootSystemWithMenu_spec (hm : m.Settled) (boot_context : UInt8) (lines : List (Option Int)) :
    ((bootSystemWithMenu flash tables boot_context lines).final m).Settled ∧
      ((bootSystemWithMenu flash tables boot_context lines).final m).gSysState = .sBOOT := by
  have hselect : ∀ {m : Machine}, m.Settled → m.gSysState = .sBOOT →
      ((setMMUContext boot_context).final m).Settled ∧
        ((setMMUContext boot_context).final m).gSysState = .sBOOT := by
    intro m hm hboot
    obtain ⟨hm', hstate⟩ := selecting_setMMUContext boot_context m hm (by rw [hboot]; nofun)
    exact ⟨hm', hstate.trans hboot⟩
  obtain ⟨hsettled, hcases⟩ :=
    activateConfiguration_cases flash tables hm (waitForUserSelection tables lines)
  simp only [bootSystemWithMenu, Prog.final_bind, Prog.final_ite, Prog.final_pure, Prog.final_discard]
  split
  · rename_i hactivated
    rcases hcases with hboot | ⟨hfailed, -⟩
    · exact hselect hsettled hboot
    · rw [hfailed] at hactivated
      cases hactivated
  · obtain ⟨hsettled', hcases'⟩ := activateConfiguration_cases flash loadFallbackProfile hsettled
      loadFallbackProfile.systemConfig.defaultConfig
    rcases hcases' with hboot | ⟨-, hundefined⟩
    · exact hselect hsettled' hboot
    · exact absurd (hundefined ⟨by decide, by decide⟩) (by decide)

theorem settling_bootSystemWithMenu (boot_context : UInt8) (lines : List (Option Int)) :
    Prog.Keeps Settling (bootSystemWithMenu flash tables boot_context lines) :=
  fun _ hm => (bootSystemWithMenu_spec flash tables hm boot_context lines).1

end Boot

end NeoMmu
