import NeoMmu.Memory.Allocation
import NeoMmu.Memory.Validation

/-!
# The sharing rule and the array bounds

What `configureMMUFromActiveModel()` makes of a configuration. For an accepted file the MMU entries
follow the sharing rule of `memory.ini`. For the configuration any file leaves behind, the indices stay
in bounds exactly when the slots of the requests that still fit are below 16.
-/

namespace NeoMmu

open PageAlloc

/-! ## The allocation pass is a run of page requests -/

section Requests

variable {cfg : MemoryConfig} {model : MemoryModel} {ctx : UInt8}

theorem placeContext_eq {layout : MemoryLayout}
    (h : cfg.resolveLayoutForContext model ctx = some layout) :
    placeContext cfg model ctx = (layoutRequests layout ctx).allM (placeRequest model) := by
  simp only [placeContext, h, layoutRequests, Prog.allM_flatMap, Prog.allM_map]
  rfl

theorem contextRequests_eq {layout : MemoryLayout}
    (h : cfg.resolveLayoutForContext model ctx = some layout) :
    contextRequests cfg model ctx = layoutRequests layout ctx := by
  simp only [contextRequests, h]

theorem placeContext_eq_false (h : (cfg.resolveLayoutForContext model ctx).isSome = false) :
    placeContext cfg model ctx = pure false := by
  rw [Option.isSome_eq_false_iff, Option.isNone_iff_eq_none] at h
  simp only [placeContext, h]

theorem allM_placedContexts (cfg : MemoryConfig) (model : MemoryModel) :
    (placedContexts cfg model).allM (placeContext cfg model) =
      (pageRequests cfg model).allM (placeRequest model) := by
  rw [pageRequests, Prog.allM_flatMap]
  refine Prog.allM_congr fun ctx hctx => ?_
  have hsome : (cfg.resolveLayoutForContext model ctx).isSome = true :=
    List.mem_takeWhile_imp (p := fun ctx => (cfg.resolveLayoutForContext model ctx).isSome) hctx
  obtain ⟨layout, hlayout⟩ := Option.isSome_iff_exists.1 hsome
  rw [placeContext_eq hlayout, contextRequests_eq hlayout]

/-- The first pass leaves the state its page requests leave. -/
theorem final_placeContexts (st : PhysState) :
    ((bytesBelow model.contexts).allM (placeContext cfg model)).final st =
      ((pageRequests cfg model).allM (placeRequest model)).final st := by
  rw [Prog.final_allM_takeWhile (fun ctx h => placeContext_eq_false h), ← allM_placedContexts]
  rfl

theorem result_placeContexts (st : PhysState)
    (h : ((bytesBelow model.contexts).allM (placeContext cfg model)).result st = true) :
    ((pageRequests cfg model).allM (placeRequest model)).result st = true := by
  rw [Prog.result_allM_takeWhile (fun ctx h => placeContext_eq_false h), Bool.and_eq_true] at h
  rw [← allM_placedContexts]
  exact h.1

theorem ctx_lt_of_mem_pageRequests {r : PageRequest} (hr : r ∈ pageRequests cfg model) :
    r.ctx < model.contexts := by
  obtain ⟨ctx, hctx, hr⟩ := List.mem_flatMap.1 hr
  have hlt : ctx < model.contexts := mem_bytesBelow.1 ((List.takeWhile_prefix _).subset hctx)
  unfold contextRequests at hr
  split at hr
  · simp at hr
  · obtain ⟨region, -, hr⟩ := List.mem_flatMap.1 hr
    obtain ⟨p, -, rfl⟩ := List.mem_map.1 hr
    exact hlt

end Requests

/-! ## The second pass -/

/-- The region that covers a slot in a context's layout. -/
def regionAt (cfg : MemoryConfig) (model : MemoryModel) (ctx slot : UInt8) :
    Option MemoryLayoutRegion :=
  match cfg.resolveLayoutForContext model ctx with
  | none => none
  | some layout => layout.regions.find? (·.covers slot)

/-- The MMU entry of a slot holds its page, with bit 7 set when the slot traps. -/
def Written (cfg : MemoryConfig) (model : MemoryModel) (st : PhysState) (ctx slot : UInt8) : Prop :=
  ∃ region, regionAt cfg model ctx slot = some region ∧
    st.mmu (ctx, slot) =
      if region.traps then st.phys_map (ctx, slot) ||| 0x80 else st.phys_map (ctx, slot)

/-- What the second pass does apart from its own entry. -/
structure WriteFrame (cfg : MemoryConfig) (model : MemoryModel) (st st' : PhysState) : Prop where
  phys_map : st'.phys_map = st.phys_map
  written : ∀ ctx slot, Written cfg model st ctx slot → Written cfg model st' ctx slot
  safe : st'.Safe ↔ st.Safe

section Writes

variable {cfg : MemoryConfig} {model : MemoryModel}

instance : Std.Refl (WriteFrame cfg model) := ⟨fun _ => ⟨rfl, fun _ _ => id, Iff.rfl⟩⟩

instance : IsTrans PhysState (WriteFrame cfg model) where
  trans _ _ _ h h' := ⟨h'.phys_map.trans h.phys_map, fun ctx slot hw =>
    h'.written ctx slot (h.written ctx slot hw), h'.safe.trans h.safe⟩

variable {ctx : UInt8} {layout : MemoryLayout}

theorem writeSlot_keeps (hlayout : cfg.resolveLayoutForContext model ctx = some layout)
    (hctx : ctx < 16) {slot : UInt8} (hslot : slot < 16) :
    Prog.Keeps (WriteFrame cfg model) (writeSlot layout ctx slot) := by
  intro st
  have hsafe : ∀ mmu, PhysState.Safe { st with
      touched := .physMap ctx slot :: st.touched, mmu := mmu } ↔ st.Safe := by
    intro mmu
    simp [PhysState.Safe, ArrayIndex.InBounds, hctx, hslot]
  simp only [writeSlot, touch, Prog.final_bind, Prog.final_modify, Prog.final_get, Prog.result_get]
  split
  · exact ⟨rfl, fun _ _ => id, hsafe st.mmu⟩
  rename_i region hregion
  refine ⟨rfl, fun c s hw => ?_, hsafe _⟩
  obtain ⟨r, hr, hmmu⟩ := hw
  refine ⟨r, hr, ?_⟩
  by_cases hsame : (c, s) = (ctx, slot)
  · -- The entry is written again, from the same region.
    obtain ⟨rfl, rfl⟩ := Prod.mk.inj hsame
    have hat : regionAt cfg model c s = some region := by
      simp only [regionAt, hlayout]
      exact hregion
    cases Option.some.inj (hr.symm.trans hat)
    simp
  · simpa [Function.update_of_ne hsame] using hmmu

theorem writeSlot_written (hlayout : cfg.resolveLayoutForContext model ctx = some layout)
    {slot : UInt8} {st : PhysState} (h : (writeSlot layout ctx slot).result st = true) :
    Written cfg model ((writeSlot layout ctx slot).final st) ctx slot := by
  simp only [writeSlot, touch, Prog.result_bind, Prog.final_bind, Prog.final_modify, Prog.final_get,
    Prog.result_get] at h ⊢
  split at h
  · cases h
  rename_i region hregion
  refine ⟨region, ?_, ?_⟩
  · simp only [regionAt, hlayout]
    exact hregion
  · simp

theorem writeContext_keeps (hctx : ctx < 16) :
    Prog.Keeps (WriteFrame cfg model) (writeContext cfg model ctx) := by
  unfold writeContext
  split
  · exact Prog.Keeps.pure false
  · rename_i layout hlayout
    exact Prog.Keeps.allM fun slot hslot => writeSlot_keeps hlayout hctx (mem_bytesBelow.1 hslot)

theorem writeContext_written (hctx : ctx < 16) {st : PhysState}
    (h : (writeContext cfg model ctx).result st = true) :
    ∀ slot < 16, Written cfg model ((writeContext cfg model ctx).final st) ctx slot := by
  unfold writeContext at h ⊢
  split at h
  · cases h
  rename_i layout hlayout
  intro slot hslot
  exact Prog.Keeps.allM_post (P := fun slot st => Written cfg model st ctx slot)
    (fun slot hslot => writeSlot_keeps hlayout hctx (mem_bytesBelow.1 hslot))
    (fun slot _ _ hw hR => hR.written ctx slot hw) (fun _ _ _ => writeSlot_written hlayout) h slot
    (mem_bytesBelow.2 hslot)

variable {st : PhysState}

theorem writeContexts_keeps (hcontexts : model.contexts ≤ 16) :
    Prog.Keeps (WriteFrame cfg model) ((bytesBelow model.contexts).allM (writeContext cfg model)) :=
  Prog.Keeps.allM fun _ hctx =>
    writeContext_keeps (UInt8.lt_of_lt_of_le (mem_bytesBelow.1 hctx) hcontexts)

/-- A second pass that succeeds has written every entry of every context. -/
theorem writeContexts_written (hcontexts : model.contexts ≤ 16)
    (h : ((bytesBelow model.contexts).allM (writeContext cfg model)).result st = true) :
    ∀ ctx < model.contexts, ∀ slot < 16, Written cfg model
      (((bytesBelow model.contexts).allM (writeContext cfg model)).final st) ctx slot := by
  have hlt : ∀ ctx ∈ bytesBelow model.contexts, ctx < 16 := fun ctx hctx =>
    UInt8.lt_of_lt_of_le (mem_bytesBelow.1 hctx) hcontexts
  intro ctx hctx slot hslot
  exact Prog.Keeps.allM_post (P := fun ctx st => ∀ slot < 16, Written cfg model st ctx slot)
    (fun ctx hctx => writeContext_keeps (hlt ctx hctx))
    (fun ctx _ _ hw hR slot hslot => hR.written ctx slot (hw slot hslot))
    (fun ctx hctx _ => writeContext_written (hlt ctx hctx)) h ctx (mem_bytesBelow.2 hctx) slot hslot

end Writes

/-! ## The whole configuration -/

/-- The statics as the configuration clears them. -/
def PhysState.cleared (st : PhysState) : PhysState :=
  { st with phys_map := fun _ => 0, shared_pages := [], nextPhysical := 0 }

theorem mirrors_cleared (name : Name) (st : PhysState) : Mirrors name st.cleared Pool.empty :=
  ⟨rfl, Nat.zero_le _, fun _ _ => rfl, Nat.zero_le _⟩

section Configure

variable {cfg : MemoryConfig} {model : MemoryModel} {st : PhysState}

/-- The state the first pass leaves. -/
def afterPlacement (cfg : MemoryConfig) (model : MemoryModel) (st : PhysState) : PhysState :=
  ((pageRequests cfg model).allM (placeRequest model)).final st.cleared

theorem final_configure_of_none (h : cfg.findModel cfg.active_model.val = none) :
    (configureMMUFromActiveModel cfg).final st = st := by
  simp [configureMMUFromActiveModel, h]

theorem final_configure_of_contexts (h : cfg.findModel cfg.active_model.val = some model)
    (hcontexts : model.contexts = 0 ∨ 16 < model.contexts) :
    (configureMMUFromActiveModel cfg).final st = st := by
  simp [configureMMUFromActiveModel, h, hcontexts]

theorem final_configure (h : cfg.findModel cfg.active_model.val = some model)
    (hcontexts : ¬ (model.contexts = 0 ∨ 16 < model.contexts)) :
    (configureMMUFromActiveModel cfg).final st =
      if ((bytesBelow model.contexts).allM (placeContext cfg model)).result st.cleared = true then
        ((bytesBelow model.contexts).allM (writeContext cfg model)).final
          (afterPlacement cfg model st)
      else afterPlacement cfg model st := by
  simp only [configureMMUFromActiveModel, h, if_neg hcontexts, Prog.final_bind, Prog.final_modify,
    Prog.final_ite, Prog.final_pure, afterPlacement]
  rw [← final_placeContexts]
  rfl

theorem result_configure (h : cfg.findModel cfg.active_model.val = some model)
    (hcontexts : ¬ (model.contexts = 0 ∨ 16 < model.contexts)) :
    (configureMMUFromActiveModel cfg).result st = true ↔
      ((bytesBelow model.contexts).allM (placeContext cfg model)).result st.cleared = true ∧
        ((bytesBelow model.contexts).allM (writeContext cfg model)).result
          (afterPlacement cfg model st) = true := by
  simp only [configureMMUFromActiveModel, h, if_neg hcontexts, Prog.result_bind, Prog.final_modify,
    Prog.result_ite, Prog.result_pure, afterPlacement]
  rw [← final_placeContexts, Bool.ite_eq_true_distrib]
  simp only [Bool.false_eq_true, if_false_right]
  exact Iff.rfl

/-- The configuration stays in bounds exactly when its first pass does. -/
theorem safe_configure_iff (h : cfg.findModel cfg.active_model.val = some model)
    (hcontexts : ¬ (model.contexts = 0 ∨ 16 < model.contexts)) :
    ((configureMMUFromActiveModel cfg).final st).Safe ↔
      st.Safe ∧ InBoundsWhileFitting (pageRequests cfg model) := by
  have hle : model.contexts ≤ 16 := UInt8.not_lt.1 (not_or.1 hcontexts).2
  have hctx : ∀ r ∈ pageRequests cfg model, r.ctx < 16 := fun r hr =>
    UInt8.lt_of_lt_of_le (ctx_lt_of_mem_pageRequests hr) hle
  have hpass : (afterPlacement cfg model st).Safe ↔
      st.cleared.Safe ∧ InBoundsWhileFitting (pageRequests cfg model) :=
    placeRequests_safe_iff_fitting (mirrors_cleared model.name st) hctx
  rw [final_configure h hcontexts]
  split
  · rw [(writeContexts_keeps hle _).safe, hpass]
    exact Iff.rfl
  · rw [hpass]
    exact Iff.rfl

end Configure

/-! ## Array bounds -/

/-- The statics as `setup()` finds them, with some MMU entries. -/
def PhysState.atSetup (mmu : UInt8 × UInt8 → UInt8) : PhysState := ⟨fun _ => 0, [], 0, mmu, []⟩

/-- The slots the configuration of the active model asks pages for, as long as the pages last, are
below 16. A model that is missing or has no valid context count asks for none. -/
def MemoryConfig.SlotsInRange (cfg : MemoryConfig) : Prop :=
  ∀ model, cfg.findModel cfg.active_model.val = some model →
    ¬ (model.contexts = 0 ∨ 16 < model.contexts) → InBoundsWhileFitting (pageRequests cfg model)

/-- Whatever file is read, accepted or not, the configuration that follows stays inside its arrays
exactly when the slots it asks pages for are in range. -/
theorem configureMMU_safe_iff (file : Option (List UInt8)) (mmu : UInt8 × UInt8 → UInt8) :
    ((configureMMUFromActiveModel (initializeMemoryConfig file).2).final (.atSetup mmu)).Safe ↔
      (initializeMemoryConfig file).2.SlotsInRange := by
  generalize (initializeMemoryConfig file).2 = cfg
  have hstart : (PhysState.atSetup mmu).Safe := fun a ha => absurd ha List.not_mem_nil
  cases hactive : cfg.findModel cfg.active_model.val with
  | none =>
    rw [final_configure_of_none hactive]
    exact iff_of_true hstart fun model hmodel => absurd (hactive.symm.trans hmodel) nofun
  | some model =>
    by_cases hcontexts : model.contexts = 0 ∨ 16 < model.contexts
    · rw [final_configure_of_contexts hactive hcontexts]
      refine iff_of_true hstart fun model' hmodel hvalid => ?_
      cases Option.some.inj (hactive.symm.trans hmodel)
      exact absurd hcontexts hvalid
    · rw [safe_configure_iff hactive hcontexts, and_iff_right hstart]
      constructor
      · intro hfits model' hmodel _
        cases Option.some.inj (hactive.symm.trans hmodel)
        exact hfits
      · intro h
        exact h model hactive hcontexts

/-- A region that starts at slot 200, in a file that validation rejects for it. -/
def strayRegionIni : List UInt8 :=
  ascii "[system]\nconfig_version=1\nactive_model=m\n[model.m]\ncontexts=1\n" ++
    ascii "[layout.m.l.region.r]\nstart=200\npages=1\n[context.m.0]\nlayout=l\n"

set_option maxRecDepth 2000 in
theorem strayRegionIni_not_safe :
    ¬ ((configureMMUFromActiveModel (initializeMemoryConfig (some strayRegionIni)).2).final
      (.atSetup fun _ => 0)).Safe := by
  have hbytes : strayRegionIni = _ := congrArg₂ (· ++ ·) (ascii_ofList _) (ascii_ofList _)
  have htouched : ArrayIndex.physMap 0 200 ∈
      ((configureMMUFromActiveModel (initializeMemoryConfig (some strayRegionIni)).2).final
        (.atSetup fun _ => 0)).touched := by
    rw [hbytes]
    decide +kernel
  intro hsafe
  exact absurd (hsafe _ htouched).2 (by decide)

/-! ## The sharing rule -/

section Slots

variable {cfg : MemoryConfig} {model : MemoryModel} {layout : MemoryLayout}
  {region : MemoryLayoutRegion}

theorem placedContexts_eq (h : cfg.Usable model) :
    placedContexts cfg model = bytesBelow model.contexts := by
  refine List.takeWhile_eq_self_iff.2 fun ctx hctx => ?_
  obtain ⟨layout, hlayout, -⟩ := h.layout ctx (mem_bytesBelow.1 hctx)
  rw [hlayout]
  rfl

theorem covers_start_add (hrange : region.start.toNat + region.pages.toNat ≤ 16) {p : UInt8}
    (hp : p < region.pages) : region.covers (region.start + p) = true := by
  rw [UInt8.lt_iff_toNat_lt] at hp
  rw [MemoryLayoutRegion.covers_iff, UInt8.toNat_add]
  omega

/-- The slots requested for a context lie in its layout, none of them twice. -/
theorem nodup_layoutSlots (h : layout.Tiles) (ctx : UInt8) :
    ((layoutRequests layout ctx).map PageRequest.slot).Nodup := by
  rw [layoutRequests, List.map_flatMap, List.nodup_flatMap]
  refine ⟨fun region hregion => ?_, ?_⟩
  · rw [List.map_map]
    refine (nodup_bytesBelow region.pages).map fun p q hpq => ?_
    exact UInt8.add_right_inj _ |>.1 (Prod.mk.inj hpq).2
  · refine h.disjoint.imp_of_mem fun {a b} ha hb hdisjoint => ?_
    rw [Function.onFun_apply, List.disjoint_left]
    intro x hxa hxb
    simp only [List.map_map, List.mem_map, Function.comp_apply, mem_bytesBelow] at hxa hxb
    obtain ⟨p, hp, rfl⟩ := hxa
    obtain ⟨q, hq, heq⟩ := hxb
    have hqa : b.start + q = a.start + p := (Prod.mk.inj heq).2
    have hb' := covers_start_add (h.range b hb).2 hq
    rw [hqa, hdisjoint _ (covers_start_add (h.range a ha).2 hp)] at hb'
    cases hb'

theorem nodup_slots (h : cfg.Usable model) :
    ((pageRequests cfg model).map PageRequest.slot).Nodup := by
  have hctx : ∀ ctx, ∀ x ∈ (contextRequests cfg model ctx).map PageRequest.slot, x.1 = ctx := by
    intro ctx x hx
    obtain ⟨r, hr, rfl⟩ := List.mem_map.1 hx
    unfold contextRequests at hr
    split at hr
    · simp at hr
    · obtain ⟨region, -, hr⟩ := List.mem_flatMap.1 hr
      obtain ⟨p, -, rfl⟩ := List.mem_map.1 hr
      rfl
  rw [pageRequests, List.map_flatMap, List.nodup_flatMap, placedContexts_eq h]
  constructor
  · intro ctx hlt
    obtain ⟨layout, hlayout, htiles⟩ := h.layout ctx (mem_bytesBelow.1 hlt)
    rw [contextRequests_eq hlayout]
    exact nodup_layoutSlots htiles ctx
  · refine (nodup_bytesBelow model.contexts).imp fun {a b} hab => ?_
    rw [Function.onFun_apply, List.disjoint_left]
    intro x hxa hxb
    exact hab ((hctx a x hxa).symm.trans (hctx b x hxb))

/-- Every slot of a context is requested for the region that covers it. -/
theorem mem_contextRequests {ctx : UInt8} (hlayout : cfg.resolveLayoutForContext model ctx = some layout)
    (hregion : region ∈ layout.regions) {slot : UInt8} (hcovers : region.covers slot = true) :
    (⟨ctx, region, slot - region.start⟩ : PageRequest) ∈ contextRequests cfg model ctx := by
  rw [MemoryLayoutRegion.covers_iff] at hcovers
  have hp : slot - region.start < region.pages := by
    rw [UInt8.lt_iff_toNat_lt, UInt8.toNat_sub_of_le _ _ (UInt8.le_iff_toNat_le.2 hcovers.1)]
    omega
  rw [contextRequests_eq hlayout]
  exact List.mem_flatMap.2 ⟨region, hregion, List.mem_map.2 ⟨_, mem_bytesBelow.2 hp, rfl⟩⟩

theorem mem_pageRequests (h : cfg.Usable model) {ctx : UInt8} (hctx : ctx < model.contexts)
    (hlayout : cfg.resolveLayoutForContext model ctx = some layout)
    (hregion : region ∈ layout.regions) {slot : UInt8} (hcovers : region.covers slot = true) :
    (⟨ctx, region, slot - region.start⟩ : PageRequest) ∈ pageRequests cfg model := by
  refine List.mem_flatMap.2 ⟨ctx, ?_, mem_contextRequests hlayout hregion hcovers⟩
  rw [placedContexts_eq h]
  exact mem_bytesBelow.2 hctx

end Slots

/-- `region` covers `slot` in the layout of `ctx`. -/
def MemoryConfig.Covers (cfg : MemoryConfig) (model : MemoryModel) (ctx slot : UInt8)
    (region : MemoryLayoutRegion) : Prop :=
  ∃ layout, cfg.resolveLayoutForContext model ctx = some layout ∧ region ∈ layout.regions ∧
    region.covers slot = true

/-- The rules of `memory.ini` for the MMU entries of the active model. -/
structure SharingRule (cfg : MemoryConfig) (model : MemoryModel)
    (phys_map mmu : UInt8 × UInt8 → UInt8) : Prop where
  covered : ∀ ctx < model.contexts, ∀ slot < 16, ∃! region, cfg.Covers model ctx slot region
  /-- The base page of an entry, in its low seven bits. -/
  base : ∀ ctx < model.contexts, ∀ slot < 16,
    phys_map (ctx, slot) < 128 ∧ mmu (ctx, slot) &&& 0x7F = phys_map (ctx, slot)
  /-- SHARED RULE and PRIVATE RULE. -/
  shares : ∀ ctx < model.contexts, ∀ slot < 16, ∀ ctx' < model.contexts, ∀ slot' < 16,
    ∀ region region', cfg.Covers model ctx slot region → cfg.Covers model ctx' slot' region' →
      (mmu (ctx, slot) &&& 0x7F = mmu (ctx', slot') &&& 0x7F ↔
        (ctx, slot) = (ctx', slot') ∨
          region.shared = true ∧ region'.shared = true ∧ region.name = region'.name ∧
            slot - region.start = slot' - region'.start)
  /-- IO TRAP. -/
  traps : ∀ ctx < model.contexts, ∀ slot < 16, ∀ region, cfg.Covers model ctx slot region →
    (mmu (ctx, slot) &&& 0x80 ≠ 0 ↔ region.type = MemoryRegionType.MEMORY_REGION_IO ∨ region.trap_write = true)

section Sharing

variable {cfg : MemoryConfig} {model : MemoryModel}

theorem mem_of_resolveLayout {ctx : UInt8} {layout : MemoryLayout}
    (h : cfg.resolveLayoutForContext model ctx = some layout) : layout ∈ cfg.layouts := by
  unfold MemoryConfig.resolveLayoutForContext at h
  split at h
  · cases h
  · exact List.mem_of_find?_eq_some h

theorem covers_regionAt (h : cfg.Usable model) {ctx slot : UInt8} (hctx : ctx < model.contexts)
    {region : MemoryLayoutRegion} (hcovers : cfg.Covers model ctx slot region) :
    regionAt cfg model ctx slot = some region := by
  obtain ⟨layout, hlayout, hmem, hslot⟩ := hcovers
  obtain ⟨layout', hlayout', htiles⟩ := h.layout ctx hctx
  cases Option.some.inj (hlayout.symm.trans hlayout')
  simp only [regionAt, hlayout]
  exact htiles.find?_covers hmem hslot

theorem covers_existsUnique (h : cfg.Usable model) {ctx slot : UInt8} (hctx : ctx < model.contexts)
    (hslot : slot < 16) : ∃! region, cfg.Covers model ctx slot region := by
  obtain ⟨layout, hlayout, htiles⟩ := h.layout ctx hctx
  obtain ⟨region, hmem, hcovers⟩ := htiles.complete slot hslot
  refine ⟨region, ⟨layout, hlayout, hmem, hcovers⟩, fun region' hregion' => ?_⟩
  have hat := covers_regionAt h hctx ⟨layout, hlayout, hmem, hcovers⟩
  exact Option.some.inj ((covers_regionAt h hctx hregion').symm.trans hat)

/-- The page of a slot after the first pass is below 128, and two slots got one page exactly when they
are one slot or were requested under one key. -/
theorem placed_pages (h : cfg.Usable model) {st : PhysState}
    (hres : ((pageRequests cfg model).allM (placeRequest model)).result st.cleared = true) :
    (∀ r ∈ pageRequests cfg model, (afterPlacement cfg model st).phys_map r.slot < 128) ∧
      ∀ r ∈ pageRequests cfg model, ∀ r' ∈ pageRequests cfg model,
        ((afterPlacement cfg model st).phys_map r.slot =
            (afterPlacement cfg model st).phys_map r'.slot ↔
          r.slot = r'.slot ∨ ∃ k, r.key = some k ∧ r'.key = some k) := by
  obtain ⟨pool, done, hmirrors, hgranted, -, -, hall, hmap⟩ := placeRequests_true
    (mirrors_cleared model.name st) granted_empty (nodup_slots h) (by simp) (by simp) hres
  constructor
  · intro r hr
    obtain ⟨g, hg, hslot, -⟩ := hall r hr
    rw [← hslot, UInt8.lt_iff_toNat_lt]
    exact (hmap g hg).trans_lt ((hgranted.below g hg).trans_le hmirrors.next_le)
  · intro r hr r' hr'
    obtain ⟨g, hg, hslot, hkey⟩ := hall r hr
    obtain ⟨g', hg', hslot', hkey'⟩ := hall r' hr'
    rw [← hslot, ← hslot', ← hkey, ← hkey']
    constructor
    · intro heq
      have hpage : g.page = g'.page := by
        rw [← hmap g hg, ← hmap g' hg']
        exact congrArg UInt8.toNat heq
      rcases (hgranted.page_eq_iff hg hg').1 hpage with rfl | hshared
      · exact .inl rfl
      · exact .inr hshared
    · rintro (heq | hshared)
      · exact congrArg _ heq
      · have hpage := (hgranted.page_eq_iff hg hg').2 (.inr hshared)
        exact UInt8.toNat_inj.1 ((hmap g hg).trans (hpage.trans (hmap g' hg').symm))

theorem exists_key_iff {r r' : PageRequest} : (∃ k, r.key = some k ∧ r'.key = some k) ↔
    r.region.shared = true ∧ r'.region.shared = true ∧ r.region.name = r'.region.name ∧
      r.p = r'.p := by
  unfold PageRequest.key
  constructor
  · rintro ⟨k, hk, hk'⟩
    rw [Option.ite_none_right_eq_some] at hk hk'
    have heq := Prod.mk.inj (Option.some.inj (hk.2.trans hk'.2.symm))
    exact ⟨hk.1, hk'.1, heq.1, heq.2⟩
  · rintro ⟨hs, hs', hname, hp⟩
    exact ⟨(r.region.name, r.p), if_pos hs, by rw [if_pos hs', hname, hp]⟩

/-- The base page and the trap bit of an entry. -/
private theorem entry_bits (phys : UInt8) (hphys : phys < 128) (trap : Bool) :
    (if trap then phys ||| 0x80 else phys) &&& 0x7F = phys ∧
      ((if trap then phys ||| 0x80 else phys) &&& 0x80 ≠ 0 ↔ trap = true) := by
  have hbits : ∀ phys : UInt8, phys < 128 → (phys ||| 0x80) &&& 0x7F = phys ∧
      phys &&& 0x7F = phys ∧ (phys ||| 0x80) &&& 0x80 ≠ 0 ∧ phys &&& 0x80 = 0 := by
    decide +kernel
  obtain ⟨hlow, hlow', htrap, hno⟩ := hbits phys hphys
  cases trap
  · simp [hlow', hno]
  · simp [hlow, htrap]

theorem MemoryConfig.Usable.contexts_valid (h : cfg.Usable model) :
    ¬ (model.contexts = 0 ∨ 16 < model.contexts) :=
  not_or.2 ⟨h.contexts_ne, UInt8.not_lt.2 h.contexts_le⟩

/-- The second pass leaves the pages where the first one has put them. -/
theorem phys_map_configure (h : cfg.Usable model) {st : PhysState}
    (hplaced : ((bytesBelow model.contexts).allM (placeContext cfg model)).result st.cleared = true) :
    ((configureMMUFromActiveModel cfg).final st).phys_map = (afterPlacement cfg model st).phys_map := by
  rw [final_configure h.active h.contexts_valid, if_pos hplaced]
  exact (writeContexts_keeps h.contexts_le _).phys_map

/-- A configuration that succeeds on a usable configuration follows the sharing rule. -/
theorem sharingRule_of_usable (h : cfg.Usable model) {st : PhysState}
    (hres : (configureMMUFromActiveModel cfg).result st = true) :
    SharingRule cfg model ((configureMMUFromActiveModel cfg).final st).phys_map
      ((configureMMUFromActiveModel cfg).final st).mmu := by
  obtain ⟨hplaced, hwritten⟩ := (result_configure h.active h.contexts_valid).1 hres
  have hphys := phys_map_configure h hplaced
  have hentries := writeContexts_written h.contexts_le hwritten
  rw [← (final_configure h.active h.contexts_valid).trans (if_pos hplaced)] at hentries
  obtain ⟨hbelow, hpages⟩ := placed_pages h (result_placeContexts st.cleared hplaced)
  -- The request made for a slot, and the entry that came of it.
  have hrequest : ∀ {ctx slot : UInt8} {region : MemoryLayoutRegion}, ctx < model.contexts →
      cfg.Covers model ctx slot region → ∃ r ∈ pageRequests cfg model,
        r.slot = (ctx, slot) ∧ r.region = region ∧ r.p = slot - region.start := by
    rintro ctx slot region hctx ⟨layout, hlayout, hmem, hslot⟩
    refine ⟨_, mem_pageRequests h hctx hlayout hmem hslot, ?_, rfl, rfl⟩
    rw [PageRequest.slot, UInt8.add_comm, UInt8.sub_add_cancel]
  have hentry : ∀ {ctx slot : UInt8} {region : MemoryLayoutRegion}, ctx < model.contexts →
      slot < 16 → cfg.Covers model ctx slot region →
        ((configureMMUFromActiveModel cfg).final st).mmu (ctx, slot) =
          if region.traps then ((configureMMUFromActiveModel cfg).final st).phys_map (ctx, slot) ||| 0x80
          else ((configureMMUFromActiveModel cfg).final st).phys_map (ctx, slot) := by
    intro ctx slot region hctx hslot hcovers
    obtain ⟨region', hat, hmmu⟩ := hentries ctx hctx slot hslot
    cases Option.some.inj (hat.symm.trans (covers_regionAt h hctx hcovers))
    exact hmmu
  have hbase : ∀ ctx < model.contexts, ∀ slot < 16,
      ((configureMMUFromActiveModel cfg).final st).phys_map (ctx, slot) < 128 := by
    intro ctx hctx slot hslot
    obtain ⟨region, hcovers, -⟩ := covers_existsUnique h hctx hslot
    obtain ⟨r, hr, hrslot, -⟩ := hrequest hctx hcovers
    rw [hphys, ← hrslot]
    exact hbelow r hr
  refine ⟨fun ctx hctx slot hslot => covers_existsUnique h hctx hslot, ?_, ?_, ?_⟩
  · intro ctx hctx slot hslot
    obtain ⟨region, hcovers, -⟩ := covers_existsUnique h hctx hslot
    rw [hentry hctx hslot hcovers]
    exact ⟨hbase ctx hctx slot hslot, (entry_bits _ (hbase ctx hctx slot hslot) _).1⟩
  · intro ctx hctx slot hslot ctx' hctx' slot' hslot' region region' hcovers hcovers'
    rw [hentry hctx hslot hcovers, hentry hctx' hslot' hcovers',
      (entry_bits _ (hbase ctx hctx slot hslot) _).1,
      (entry_bits _ (hbase ctx' hctx' slot' hslot') _).1, hphys]
    obtain ⟨r, hr, hrslot, rfl, hp⟩ := hrequest hctx hcovers
    obtain ⟨r', hr', hrslot', rfl, hp'⟩ := hrequest hctx' hcovers'
    rw [← hrslot, ← hrslot', hpages r hr r' hr', exists_key_iff, hp, hp']
  · intro ctx hctx slot hslot region hcovers
    rw [hentry hctx hslot hcovers, (entry_bits _ (hbase ctx hctx slot hslot) _).2]
    simp [MemoryLayoutRegion.traps]

/-- An accepted file that can be configured gives MMU entries that follow the sharing rule. -/
theorem configureMMU_sharingRule {file : List UInt8} {st : PhysState}
    (haccepted : (parseMemoryIni file).1 = .ok ())
    (hconfigured : (configureMMUFromActiveModel (parseMemoryIni file).2).result st = true) :
    ∃ model, (parseMemoryIni file).2.findModel (parseMemoryIni file).2.active_model.val = some model ∧
      SharingRule (parseMemoryIni file).2 model
        ((configureMMUFromActiveModel (parseMemoryIni file).2).final st).phys_map
        ((configureMMUFromActiveModel (parseMemoryIni file).2).final st).mmu := by
  obtain ⟨model, husable⟩ := usable_of_validateConfig (validateConfig_of_parseMemoryIni haccepted)
  exact ⟨model, husable.active, sharingRule_of_usable husable hconfigured⟩

end Sharing

/-- Two contexts that share their first twelve slots and have four trapping slots each. -/
def twoContextsIni : List UInt8 :=
  ascii "[system]\nconfig_version=1\nactive_model=m\nboot_context=0\n[model.m]\ncontexts=2\n" ++
    ascii "[layout.m.l.region.ram]\nstart=0\npages=12\nshared=true\n" ++
    ascii "[layout.m.l.region.io]\nstart=12\npages=4\ntype=io\n" ++
    ascii "[context.m.0]\nlayout=l\n[context.m.1]\nlayout=l\n"

/-- The configuration it describes. -/
def twoContexts : MemoryConfig where
  version := 1
  active_model := copyName (ascii "m")
  boot_context := 0
  models := [⟨copyName (ascii "m"), 2⟩]
  layouts := [⟨copyName (ascii "m"), copyName (ascii "l"),
    [⟨copyName (ascii "ram"), 0, 12, true, .MEMORY_REGION_NORMAL, false⟩,
      ⟨copyName (ascii "io"), 12, 4, false, MemoryRegionType.MEMORY_REGION_IO, false⟩]⟩]
  contexts := [⟨copyName (ascii "m"), 0, copyName (ascii "l")⟩,
    ⟨copyName (ascii "m"), 1, copyName (ascii "l")⟩]

set_option maxRecDepth 2000 in
theorem twoContextsIni_parsed :
    (parseMemoryIni twoContextsIni).1 = .ok () ∧ (parseMemoryIni twoContextsIni).2 = twoContexts := by
  have hbytes : twoContextsIni = _ := congrArg₂ (· ++ ·) (congrArg₂ (· ++ ·)
    (congrArg₂ (· ++ ·) (ascii_ofList _) (ascii_ofList _)) (ascii_ofList _)) (ascii_ofList _)
  rw [hbytes]
  decide +kernel

theorem twoContextsIni_sharingRule : ∃ model,
    (parseMemoryIni twoContextsIni).2.findModel
      (parseMemoryIni twoContextsIni).2.active_model.val = some model ∧
    SharingRule (parseMemoryIni twoContextsIni).2 model
      ((configureMMUFromActiveModel (parseMemoryIni twoContextsIni).2).final
        (.atSetup fun _ => 0)).phys_map
      ((configureMMUFromActiveModel (parseMemoryIni twoContextsIni).2).final
        (.atSetup fun _ => 0)).mmu :=
  configureMMU_sharingRule twoContextsIni_parsed.1 (by
    rw [twoContextsIni_parsed.2]
    decide +kernel)

end NeoMmu
