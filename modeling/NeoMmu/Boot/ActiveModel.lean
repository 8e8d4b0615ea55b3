import NeoMmu.Boot.Menu
import NeoMmu.Boot.RomLoad
import NeoMmu.Boot.SystemLoads
import NeoMmu.Memory.Sharing

/-!
# Which configurations booting activates

`validateSystemAgainstMemoryConfig()` compares the memory name of the default configuration with the active
model. The menu lets the user pick any configuration of the table, and the fallback profile is loaded whatever
the active model is, so other configurations are activated too.
-/

namespace NeoMmu

/-- The tables and the index of each call of `activateConfiguration()` that `bootSystemWithMenu()` makes. -/
def bootActivations (flash : Flash) (tables : SystemTables) (lines : List (Option Int)) (m : Machine) :
    List (SystemTables × Int) :=
  let cfgIndex := waitForUserSelection tables lines
  if (activateConfiguration flash tables cfgIndex).result m then
    [(tables, cfgIndex)]
  else
    [(tables, cfgIndex), (loadFallbackProfile, loadFallbackProfile.systemConfig.defaultConfig)]

/-- The configuration whose cartridges an activation starts to load. -/
def SystemTables.startsLoading (tables : SystemTables) (cfgIndex : Int) : Option Config :=
  if h : 0 ≤ cfgIndex ∧ cfgIndex < MAX_CONFIG then
    let cfg := tables.configs ⟨cfgIndex.toNat, configIndex_lt h⟩
    if cfg.defined ∧ cfg.entries ≠ [] then some cfg else none
  else
    none

/-- Every cartridge of a configuration loads. -/
def SystemTables.Loadable (tables : SystemTables) (flash : Flash) (i : Fin MAX_CONFIG) : Prop :=
  ∀ entry ∈ (tables.configs i).entries, ∃ file,
    flash (cartridgePath (tables.cartridges entry.cartIndex).file) = some file ∧ file.Loads

section Activations

variable (flash : Flash) (tables : SystemTables) (lines : List (Option Int))

/-- Booting makes these calls, in order, and then selects the boot context. -/
theorem final_bootSystemWithMenu (boot_context : UInt8) (m : Machine) :
    (bootSystemWithMenu flash tables boot_context lines).final m = (setMMUContext boot_context).final
      ((bootActivations flash tables lines m).foldl
        (fun m call => (activateConfiguration flash call.1 call.2).final m) m) := by
  rw [bootSystemWithMenu, Prog.final_bind, bootActivations]
  cases (activateConfiguration flash tables (waitForUserSelection tables lines)).result m <;> rfl

variable {tables}

theorem startsLoading_fin (i : Fin MAX_CONFIG) : tables.startsLoading i.val =
    if (tables.configs i).defined ∧ (tables.configs i).entries ≠ [] then some (tables.configs i)
    else none := by
  have hrange : (0 : Int) ≤ i.val ∧ (i.val : Int) < MAX_CONFIG :=
    ⟨Int.natCast_nonneg _, Int.ofNat_lt.2 i.isLt⟩
  rw [SystemTables.startsLoading, dif_pos hrange]
  rfl

/-- Whether a configuration is activated depends on the flash alone. -/
theorem result_activateConfiguration {i : Fin MAX_CONFIG} (hi : (tables.configs i).defined = true)
    (m : Machine) :
    (activateConfiguration flash tables i.val).result m = true ↔ tables.Loadable flash i := by
  have hrange : (0 : Int) ≤ i.val ∧ (i.val : Int) < MAX_CONFIG :=
    ⟨Int.natCast_nonneg _, Int.ofNat_lt.2 i.isLt⟩
  have hindex : (⟨(i.val : Int).toNat, configIndex_lt hrange⟩ : Fin MAX_CONFIG) = i := rfl
  rw [activateConfiguration, dif_pos hrange]
  dsimp only
  rw [hindex, if_pos hi, Prog.result_bind]
  refine Prog.result_allM_iff (fun entry _ m => ?_) _
  rw [Prog.result_bind]
  exact result_loadROMCartridgeFile flash _ _

/-- A menu that shows defined configurations, and a default among them, lets a defined one be picked. -/
theorem waitForUserSelection_defined (hdefault : ∃ i : Fin MAX_CONFIG,
      tables.systemConfig.defaultConfig = i.val ∧ (tables.configs i).defined = true) :
    ∃ i : Fin MAX_CONFIG, waitForUserSelection tables lines = i.val ∧ (tables.configs i).defined = true := by
  induction lines with
  | nil => exact hdefault
  | cons line rest ih =>
    rcases line with - | selection
    · exact hdefault
    rw [waitForUserSelection]
    split
    · exact ih
    split
    · rename_i i hi
      refine ⟨i, rfl, ?_⟩
      have hmem := List.mem_of_getElem? hi
      rw [SystemTables.visibleConfigs, List.mem_filter] at hmem
      exact hmem.2
    · exact ih

end Activations

section ActiveModel

variable {present : List UInt8 → Bool} {memoryConfig : MemoryConfig} {file : List UInt8}
  {tables : SystemTables}

/-- Only configurations of the active model start loading exactly when the picked one is of that model, and
either it loads or the fallback profile is of that model too. -/
theorem activated_for_active_model_iff (hsystem : parseSystemIni present memoryConfig file = .ok tables)
    (flash : Flash) (lines : List (Option Int)) (m : Machine) :
    (∀ call ∈ bootActivations flash tables lines m, ∀ cfg, call.1.startsLoading call.2 = some cfg →
        cfg.memory = memoryConfig.active_model) ↔
      ∃ i : Fin MAX_CONFIG, waitForUserSelection tables lines = i.val ∧
        (tables.configs i).memory = memoryConfig.active_model ∧
        (tables.Loadable flash i ∨ memoryConfig.active_model.val = ascii "default") := by
  have hwell := wellFormed_of_parseSystemIni hsystem
  obtain ⟨d, hd, hdefined, -⟩ := hwell.default
  obtain ⟨i, hi, hpicked⟩ := waitForUserSelection_defined lines ⟨d, hd, hdefined⟩
  have hentries : (tables.configs i).entries ≠ [] :=
    List.ne_nil_of_length_pos (hwell.entry_count i hpicked).1
  have hstart : ∀ cfg, tables.startsLoading i.val = some cfg ↔ tables.configs i = cfg := by
    intro cfg
    rw [startsLoading_fin, if_pos ⟨hpicked, hentries⟩, Option.some.injEq]
  have hfallback : ∀ cfg, loadFallbackProfile.startsLoading loadFallbackProfile.systemConfig.defaultConfig =
      some cfg → cfg.memory = copyName (ascii "default") := by
    intro cfg hcfg
    obtain rfl := Option.some.inj hcfg
    rfl
  have hname : copyName (ascii "default") = memoryConfig.active_model ↔
      memoryConfig.active_model.val = ascii "default" := by
    have hval : (copyName (ascii "default")).val = ascii "default" := by decide
    rw [← Subtype.val_inj, hval, eq_comm]
  have hunique : ∀ {P : Fin MAX_CONFIG → Prop},
      (∃ j : Fin MAX_CONFIG, waitForUserSelection tables lines = j.val ∧ P j) ↔ P i := by
    intro P
    rw [hi]
    refine ⟨?_, fun h => ⟨i, rfl, h⟩⟩
    rintro ⟨j, hj, hP⟩
    obtain rfl : i = j := Fin.ext (Int.ofNat.inj hj)
    exact hP
  rw [hunique, bootActivations, hi]
  by_cases hloads : tables.Loadable flash i
  · rw [if_pos ((result_activateConfiguration flash hpicked m).2 hloads), List.forall_mem_singleton]
    constructor
    · exact fun h => ⟨h _ ((hstart _).2 rfl), .inl hloads⟩
    · rintro ⟨hmemory, -⟩ cfg hcfg
      rw [← (hstart cfg).1 hcfg, hmemory]
  · rw [if_neg fun h => hloads ((result_activateConfiguration flash hpicked m).1 h), List.forall_mem_cons,
      List.forall_mem_singleton]
    constructor
    · rintro ⟨hfirst, hsecond⟩
      exact ⟨hfirst _ ((hstart _).2 rfl), .inr (hname.1 (hsecond _ rfl))⟩
    · rintro ⟨hmemory, hall | hdefault⟩
      · exact absurd hall hloads
      refine ⟨fun cfg hcfg => ?_, fun cfg hcfg => ?_⟩
      · rw [← (hstart cfg).1 hcfg, hmemory]
      · rw [hfallback cfg hcfg, hname.2 hdefault]

end ActiveModel

/-! ## A configuration for another model -/

/-- A configuration for the model that is active, and one for a model that is not. -/
def twoModelsIni : List UInt8 :=
  ascii "[system]\nversion=1\ndefault=A\n[cartridge.c]\nfile=c.rom\n" ++
    ascii "[config.A]\nmemory=m\n[config.A.context.0]\nload=c\n" ++
    ascii "[config.B]\nmemory=n\n[config.B.context.0]\nload=c\n"

/-- What an accepted file must say for the runs here. -/
def twoModelsTables (tables : SystemTables) : Bool :=
  tables.systemConfig.defaultConfig = 0 && (tables.configs 0).defined && (tables.configs 1).defined &&
    (tables.configs 0).memory.val = [109] && (tables.configs 1).memory.val = [110] &&
    tables.visibleConfigs = [0, 1]

set_option maxRecDepth 4000 in
theorem twoModelsIni_parsed :
    ∃ tables, parseSystemIni (fun _ => true) (parseMemoryIni twoContextsIni).2 twoModelsIni = .ok tables ∧
      twoModelsTables tables = true := by
  have hbytes : twoModelsIni = _ :=
    congrArg₂ (· ++ ·) (congrArg₂ (· ++ ·) (ascii_ofList _) (ascii_ofList _)) (ascii_ofList _)
  rw [twoContextsIni_parsed.2]
  have hchecked : (match parseSystemIni (fun _ => true) twoContexts twoModelsIni with
      | .ok tables => twoModelsTables tables
      | .error _ => false) = true := by
    rw [hbytes]
    decide +kernel
  split at hchecked
  · exact ⟨_, ‹_›, hchecked⟩
  · cases hchecked

/-- The menu picks what its number names. -/
theorem waitForUserSelection_twoModels {tables : SystemTables} (h : twoModelsTables tables = true) :
    waitForUserSelection tables [some 1] = 1 ∧ waitForUserSelection tables [] = 0 := by
  simp only [twoModelsTables, Bool.and_eq_true, decide_eq_true_eq] at h
  obtain ⟨⟨⟨⟨⟨hdefault, -⟩, -⟩, -⟩, -⟩, hvisible⟩ := h
  refine ⟨?_, hdefault⟩
  rw [waitForUserSelection, if_neg (by decide), hvisible]
  rfl

/-- The configuration of the other model is picked at the menu, and its cartridges are loaded. -/
theorem bootActivations_otherModel : (parseMemoryIni twoContextsIni).1 = .ok () ∧
    ∃ tables, parseSystemIni (fun _ => true) (parseMemoryIni twoContextsIni).2 twoModelsIni = .ok tables ∧
      ¬ ∀ call ∈ bootActivations (fun _ => none) tables [some 1] (.setup6502 0 0 0 (fun _ => 0) fun _ => 0),
        ∀ cfg, call.1.startsLoading call.2 = some cfg →
          cfg.memory = (parseMemoryIni twoContextsIni).2.active_model := by
  obtain ⟨tables, hparsed, htables⟩ := twoModelsIni_parsed
  refine ⟨twoContextsIni_parsed.1, tables, hparsed, fun hall => ?_⟩
  have hpicked := (waitForUserSelection_twoModels htables).1
  have hcount := ((wellFormed_of_parseSystemIni hparsed).entry_count 1)
  simp only [twoModelsTables, Bool.and_eq_true, decide_eq_true_eq] at htables
  obtain ⟨⟨⟨⟨-, hdefined⟩, -⟩, hmemory⟩, -⟩ := htables
  have hstart : tables.startsLoading (1 : Fin MAX_CONFIG).val = some (tables.configs 1) := by
    rw [startsLoading_fin, if_pos ⟨hdefined, List.ne_nil_of_length_pos (hcount hdefined).1⟩]
  have hfirst : (tables, waitForUserSelection tables [some 1]) ∈ bootActivations (fun _ => none) tables
      [some 1] (.setup6502 0 0 0 (fun _ => 0) fun _ => 0) := by
    rw [bootActivations]
    split <;> exact List.mem_cons_self
  rw [hpicked] at hfirst
  have hname := congrArg Subtype.val (hall _ hfirst _ hstart)
  rw [hmemory, twoContextsIni_parsed.2] at hname
  exact absurd hname (by decide)

/-- The default configuration is of the active model, and its cartridge loads. -/
theorem bootActivations_default :
    ∃ tables, parseSystemIni (fun _ => true) (parseMemoryIni twoContextsIni).2 twoModelsIni = .ok tables ∧
      ∀ call ∈ bootActivations (fun _ => some ⟨[0x5A, 0, 1, 0, 0, 0, 0, 0, 0, 0, 0, 0, 0, 0, 0, 0xA5], 16⟩)
          tables [] (.setup6502 0 0 0 (fun _ => 0) fun _ => 0),
        ∀ cfg, call.1.startsLoading call.2 = some cfg →
          cfg.memory = (parseMemoryIni twoContextsIni).2.active_model := by
  obtain ⟨tables, hparsed, htables⟩ := twoModelsIni_parsed
  refine ⟨tables, hparsed, (activated_for_active_model_iff hparsed _ [] _).2 ⟨0, ?_, ?_, .inl ?_⟩⟩
  · exact (waitForUserSelection_twoModels htables).2
  · simp only [twoModelsTables, Bool.and_eq_true, decide_eq_true_eq] at htables
    refine Subtype.ext (htables.1.1.2.trans ?_)
    rw [twoContextsIni_parsed.2]
    decide
  · exact fun _ _ => ⟨_, rfl, by decide⟩

end NeoMmu
