import NeoMmu.Memory.ParserRules

/-!
# The names of the regions

The parser refuses a region whose name its layout has already, so the regions of a layout differ in
their names, whatever file is read.
-/

namespace NeoMmu

/-- The regions of the layout differ in their names. -/
def MemoryLayout.Distinct (layout : MemoryLayout) : Prop := (layout.regions.map (·.name)).Nodup

/-- So do those of every layout of the configuration. -/
def MemoryConfig.Distinct (cfg : MemoryConfig) : Prop := ∀ layout ∈ cfg.layouts, layout.Distinct

/-- A region may be appended under a name that is not found. -/
theorem MemoryLayout.Distinct.append {layout : MemoryLayout} (h : layout.Distinct)
    {region : MemoryLayoutRegion} (hnew : ¬ (layout.findRegion region.name.val).isSome = true) :
    MemoryLayout.Distinct { layout with regions := layout.regions ++ [region] } := by
  refine nodup_map_concat h fun r hr heq => ?_
  refine hnew (List.find?_isSome.2 ⟨r, hr, ?_⟩)
  rw [heq]
  exact decide_eq_true rfl

/-- The parser keeps the names of regions apart. -/
theorem parserRules_distinct : ParserRules MemoryConfig.Distinct where
  version _ h := h
  active_model _ h := h
  boot_context _ h := h
  model _ _ _ h := h
  model_contexts _ _ h := h
  layout _ _ _ _ h := forall_mem_concat h List.nodup_nil
  region _ hnew h := forall_mem_modify (fun layout hlayout hdistinct =>
    hdistinct.append (hnew layout hlayout).1) h
  region_key := by
    intro cfg f i j hname h
    exact forall_mem_modify (fun layout _ hdistinct => nodup_map_modify hdistinct hname) h
  context _ _ _ h := h
  context_layout _ _ h := h

/-- Whatever file is read, the regions of each layout differ in their names. -/
theorem distinct_parseMemoryIni (file : List UInt8) : (parseMemoryIni file).2.Distinct :=
  parserRules_distinct.parseMemoryIni file fun _ h => nomatch h

end NeoMmu
