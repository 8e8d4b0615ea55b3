import NeoMmu.Memory.Regions
import NeoMmu.Memory.Sharing

/-!
# An accepted memory.ini

Three properties of the configuration hold while a file is read: the counts stay within their arrays, no two
models have the same name nor two layouts of a model, and the strings that are stored end in their buffers.
With what `validateConfig()` checks at the end they make the configuration complete.
-/

namespace NeoMmu

/-! ## While the file is read -/

namespace MemoryConfig

/-- Every count is within its array. -/
structure Bounded (cfg : MemoryConfig) : Prop where
  models : cfg.models.length ≤ MAX_MEMORY_MODELS
  layouts : cfg.layouts.length ≤ MAX_MEMORY_LAYOUTS
  contexts : cfg.contexts.length ≤ MAX_MEMORY_CONTEXTS
  regions : ∀ layout ∈ cfg.layouts, layout.regions.length ≤ MAX_MEMORY_REGIONS

/-- The models differ in their names, and the layouts in their models and names. -/
structure Named (cfg : MemoryConfig) : Prop where
  models : (cfg.models.map (·.name)).Nodup
  layouts : (cfg.layouts.map fun layout => (layout.model, layout.name)).Nodup

/-- No stored string has a NUL in it. -/
structure Plain (cfg : MemoryConfig) : Prop where
  active_model : 0 ∉ cfg.active_model.val
  models : ∀ model ∈ cfg.models, 0 ∉ model.name.val
  layouts : ∀ layout ∈ cfg.layouts, 0 ∉ layout.model.val ∧ 0 ∉ layout.name.val ∧
    ∀ region ∈ layout.regions, 0 ∉ region.name.val
  contexts : ∀ binding ∈ cfg.contexts, 0 ∉ binding.model.val ∧ 0 ∉ binding.layout.val

end MemoryConfig

/-- Every element is appended behind the check of its count. -/
theorem parserRules_bounded : ParserRules MemoryConfig.Bounded where
  version _ h := ⟨h.models, h.layouts, h.contexts, h.regions⟩
  active_model _ h := ⟨h.models, h.layouts, h.contexts, h.regions⟩
  boot_context _ h := ⟨h.models, h.layouts, h.contexts, h.regions⟩
  model := by
    intro cfg name _ _ hroom h
    refine ⟨?_, h.layouts, h.contexts, h.regions⟩
    rw [List.length_append]
    exact hroom
  model_contexts := by
    intro cfg i v h
    refine ⟨?_, h.layouts, h.contexts, h.regions⟩
    rw [List.length_modify]
    exact h.models
  layout := by
    intro cfg model name _ _ _ hroom h
    refine ⟨h.models, ?_, h.contexts, forall_mem_concat h.regions (Nat.zero_le _)⟩
    rw [List.length_append]
    exact hroom
  region := by
    intro cfg i region _ hroom h
    refine ⟨h.models, ?_, h.contexts, forall_mem_modify (fun layout hlayout _ => ?_) h.regions⟩
    · rw [List.length_modify]
      exact h.layouts
    · rw [List.length_append]
      exact (hroom layout hlayout).2
  region_key := by
    intro cfg f i j _ h
    refine ⟨h.models, ?_, h.contexts, forall_mem_modify (fun layout _ hregions => ?_) h.regions⟩
    · rw [List.length_modify]
      exact h.layouts
    · rw [List.length_modify]
      exact hregions
  context := by
    intro cfg model ctx _ hroom h
    refine ⟨h.models, h.layouts, ?_, h.regions⟩
    rw [List.length_append]
    exact hroom
  context_layout := by
    intro cfg name i _ h
    refine ⟨h.models, h.layouts, ?_, h.regions⟩
    rw [List.length_modify]
    exact h.contexts

/-- A model or a layout is appended when its name, cut to sixteen characters, is not found. -/
theorem parserRules_named : ParserRules MemoryConfig.Named where
  version _ h := ⟨h.models, h.layouts⟩
  active_model _ h := ⟨h.models, h.layouts⟩
  boot_context _ h := ⟨h.models, h.layouts⟩
  model := by
    intro cfg name _ hnew _ h
    refine ⟨nodup_map_concat h.models fun model hmem heq => ?_, h.layouts⟩
    refine hnew (List.find?_isSome.2 ⟨model, hmem, ?_⟩)
    rw [heq]
    exact decide_eq_true rfl
  model_contexts := by
    intro cfg i v h
    exact ⟨nodup_map_modify h.models fun _ => rfl, h.layouts⟩
  layout := by
    intro cfg model name _ _ hnew _ h
    refine ⟨h.models, nodup_map_concat h.layouts fun layout hmem heq => ?_⟩
    exact hnew layout hmem (Prod.mk.inj heq)
  region := by
    intro cfg i region _ _ h
    exact ⟨h.models, nodup_map_modify h.layouts fun _ => rfl⟩
  region_key := by
    intro cfg f i j _ h
    exact ⟨h.models, nodup_map_modify h.layouts fun _ => rfl⟩
  context _ _ _ h := ⟨h.models, h.layouts⟩
  context_layout _ _ h := ⟨h.models, h.layouts⟩

/-- What is stored is a part of a line, and a line is a C string. -/
theorem parserRules_plain : ParserRules MemoryConfig.Plain where
  version _ h := ⟨h.active_model, h.models, h.layouts, h.contexts⟩
  active_model hname h := ⟨hname, h.models, h.layouts, h.contexts⟩
  boot_context _ h := ⟨h.active_model, h.models, h.layouts, h.contexts⟩
  model hname _ _ h := ⟨h.active_model, forall_mem_concat h.models hname, h.layouts, h.contexts⟩
  model_contexts _ _ h :=
    ⟨h.active_model, forall_mem_modify (fun _ _ hmodel => hmodel) h.models, h.layouts, h.contexts⟩
  layout hmodel hname _ _ h :=
    ⟨h.active_model, h.models, forall_mem_concat h.layouts ⟨hmodel, hname, fun _ hregion => nomatch hregion⟩,
      h.contexts⟩
  region := by
    intro cfg i region hname _ h
    refine ⟨h.active_model, h.models, forall_mem_modify (fun layout _ hlayout => ?_) h.layouts, h.contexts⟩
    exact ⟨hlayout.1, hlayout.2.1, forall_mem_concat hlayout.2.2 hname⟩
  region_key := by
    intro cfg f i j hname h
    refine ⟨h.active_model, h.models, forall_mem_modify (fun layout _ hlayout => ?_) h.layouts, h.contexts⟩
    refine ⟨hlayout.1, hlayout.2.1, forall_mem_modify (fun region _ hregion => ?_) hlayout.2.2⟩
    rw [hname]
    exact hregion
  context ctx hmodel _ h :=
    ⟨h.active_model, h.models, h.layouts, forall_mem_concat h.contexts ⟨hmodel, List.not_mem_nil⟩⟩
  context_layout i hname h :=
    ⟨h.active_model, h.models, h.layouts,
      forall_mem_modify (fun _ _ hbinding => ⟨hbinding.1, hname⟩) h.contexts⟩

/-! ## The regions of a layout -/

/-- The regions are sets of slots among the sixteen, and every slot is in exactly one of them. -/
structure MemoryLayout.Partitions (layout : MemoryLayout) : Prop where
  within : ∀ region ∈ layout.regions, ∀ slot, region.covers slot = true → slot < 16
  exactly_one : ∀ slot : UInt8, slot < 16 → layout.regions.countP (·.covers slot) = 1

theorem MemoryLayout.Tiles.partitions {layout : MemoryLayout} (h : layout.Tiles) : layout.Partitions := by
  constructor
  · intro region hmem slot hcovers
    have hrange := (h.range region hmem).2
    have hend := (MemoryLayoutRegion.covers_iff.1 hcovers).2
    rw [UInt8.lt_iff_toNat_lt]
    exact lt_of_lt_of_le hend hrange
  · intro slot hslot
    obtain ⟨region, hmem, hcovers⟩ := h.complete slot hslot
    have hdisjoint := h.disjoint.filter (·.covers slot)
    have hall : ∀ r ∈ layout.regions.filter (·.covers slot), r.covers slot = true :=
      fun r hr => (List.mem_filter.1 hr).2
    have hregion : region ∈ layout.regions.filter (·.covers slot) := List.mem_filter.2 ⟨hmem, hcovers⟩
    rw [List.countP_eq_length_filter]
    generalize layout.regions.filter (·.covers slot) = covering at hdisjoint hall hregion ⊢
    -- Two regions with the slot would overlap.
    rcases covering with - | ⟨a, - | ⟨b, rest⟩⟩
    · cases hregion
    · rfl
    · have hoff := (List.pairwise_cons.1 hdisjoint).1 b List.mem_cons_self slot (hall a List.mem_cons_self)
      rw [hall b (List.mem_cons_of_mem a List.mem_cons_self)] at hoff
      cases hoff

/-! ## The configuration -/

/-- The strings a configuration stores. -/
def MemoryConfig.names (cfg : MemoryConfig) : List Name :=
  cfg.active_model :: cfg.models.map (·.name) ++
    cfg.layouts.flatMap (fun layout => layout.model :: layout.name :: layout.regions.map (·.name)) ++
    cfg.contexts.flatMap fun binding => [binding.model, binding.layout]

/-- What an accepted file leaves in `memoryConfig`. -/
structure MemoryConfig.Complete (cfg : MemoryConfig) : Prop where
  bounded : cfg.Bounded
  terminated : ∀ name ∈ cfg.names, name.val.length ≤ MAX_MEMORY_NAME ∧ 0 ∉ name.val
  named : cfg.Named
  distinct : cfg.Distinct
  defined : ∀ layout ∈ cfg.layouts, ∃ model ∈ cfg.models, model.name = layout.model
  partitions : ∀ layout ∈ cfg.layouts, layout.Partitions
  active : ∃ model, cfg.findModel cfg.active_model.val = some model ∧
    1 ≤ model.contexts ∧ model.contexts ≤ 16 ∧ cfg.boot_context < model.contexts ∧
    ∀ ctx < model.contexts, ∃ binding layout,
      cfg.findContextBinding model.name.val ctx = some binding ∧
        cfg.findLayout model.name.val binding.layout.val = some layout

theorem MemoryConfig.Plain.terminated {cfg : MemoryConfig} (h : cfg.Plain) {name : Name}
    (hname : name ∈ cfg.names) : name.val.length ≤ MAX_MEMORY_NAME ∧ 0 ∉ name.val := by
  refine ⟨name.property, ?_⟩
  simp only [MemoryConfig.names, List.mem_append, List.mem_cons, List.mem_map, List.mem_flatMap,
    List.not_mem_nil, or_false] at hname
  rcases hname with (((rfl | ⟨model, hmem, rfl⟩) | ⟨layout, hmem, rfl | rfl | ⟨region, hregion, rfl⟩⟩) |
    ⟨binding, hmem, rfl | rfl⟩)
  · exact h.active_model
  · exact h.models model hmem
  · exact (h.layouts layout hmem).1
  · exact (h.layouts layout hmem).2.1
  · exact (h.layouts layout hmem).2.2 region hregion
  · exact (h.contexts binding hmem).1
  · exact (h.contexts binding hmem).2

/-- A layout that passes its checks belongs to a model. -/
theorem defined_of_validateLayout {cfg : MemoryConfig} {layout : MemoryLayout}
    (h : validateLayout cfg layout = .ok ()) : ∃ model ∈ cfg.models, model.name = layout.model := by
  unfold validateLayout at h
  simp only [except_throw_bind, except_guard_ok] at h
  rw [Option.isNone_iff_eq_none, ← Ne, Option.ne_none_iff_exists'] at h
  obtain ⟨⟨model, hfind⟩, -⟩ := h
  have hname := List.find?_some hfind
  exact ⟨model, List.mem_of_find?_eq_some hfind, Subtype.ext (of_decide_eq_true hname)⟩

/-- A memory.ini that `parseMemoryIni()` accepts leaves a complete configuration. -/
theorem complete_of_parseMemoryIni {file : List UInt8} (h : (parseMemoryIni file).1 = .ok ()) :
    (parseMemoryIni file).2.Complete := by
  obtain ⟨model, hvalid⟩ := validated_of_validateConfig (validateConfig_of_parseMemoryIni h)
  have hempty : MemoryConfig.empty.Plain := by
    refine ⟨List.not_mem_nil, ?_, ?_, ?_⟩
    · exact List.forall_mem_nil _
    · exact List.forall_mem_nil _
    · exact List.forall_mem_nil _
  have hplain := parserRules_plain.parseMemoryIni file hempty
  refine ⟨?_, fun _ => hplain.terminated, ?_, distinct_parseMemoryIni file, ?_, ?_, model, hvalid.active, ?_⟩
  · exact parserRules_bounded.parseMemoryIni file
      ⟨Nat.zero_le _, Nat.zero_le _, Nat.zero_le _, List.forall_mem_nil _⟩
  · exact parserRules_named.parseMemoryIni file ⟨List.nodup_nil, List.nodup_nil⟩
  · exact fun layout hmem => defined_of_validateLayout (hvalid.layouts layout hmem)
  · exact fun layout hmem => (tiles_of_validateLayout (hvalid.layouts layout hmem)).partitions
  · obtain ⟨hpos, hle⟩ := hvalid.contexts model (List.mem_of_find?_eq_some hvalid.active)
    exact ⟨hpos, hle, hvalid.boot_context, fun ctx hctx => binding_of_validateContext (hvalid.bindings ctx hctx)⟩

theorem complete_twoContextsIni : (parseMemoryIni twoContextsIni).2.Complete :=
  complete_of_parseMemoryIni twoContextsIni_parsed.1

end NeoMmu
