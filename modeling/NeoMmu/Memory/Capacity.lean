import Mathlib.Algebra.GroupWithZero.Nat
import NeoMmu.Memory.Sharing

/-!
# All or nothing

The first pass of `configureMMUFromActiveModel()` fails exactly when the slots of the active model need
more pages than there are, and then no MMU entry has been written. Behind it nothing can fail.
-/

namespace NeoMmu

open PageAlloc

/-! ## The pages a model needs -/

/-- Whether a slot of a context lies in a region that is not shared. -/
def isPrivateSlot (cfg : MemoryConfig) (model : MemoryModel) (ctx slot : UInt8) : Bool :=
  (regionAt cfg model ctx slot).any (!·.shared)

/-- The shared region that a slot lies in, by its name, and the offset of the slot in it. -/
def sharedPageAt (cfg : MemoryConfig) (model : MemoryModel) (ctx slot : UInt8) : Option (Name × UInt8) :=
  ((regionAt cfg model ctx slot).filter (·.shared)).map fun region => (region.name, slot - region.start)

/-- The number of slots that are not shared, over the contexts of the model. -/
def privateSlots (cfg : MemoryConfig) (model : MemoryModel) : Nat :=
  ((bytesBelow model.contexts).map fun ctx => (bytesBelow 16).countP (isPrivateSlot cfg model ctx)).sum

/-- The pages of shared regions that the contexts of the model use. -/
def sharedPages (cfg : MemoryConfig) (model : MemoryModel) : Finset (Name × UInt8) :=
  ((bytesBelow model.contexts).flatMap fun ctx =>
    (bytesBelow 16).filterMap (sharedPageAt cfg model ctx)).toFinset

/-! ## What the first pass asks for -/

section Demand

variable {cfg : MemoryConfig} {model : MemoryModel}

/-- The slots of the contexts. -/
def contextSlots (model : MemoryModel) : List (UInt8 × UInt8) :=
  (bytesBelow model.contexts).flatMap fun ctx => (bytesBelow 16).map (ctx, ·)

theorem mem_contextSlots {x : UInt8 × UInt8} : x ∈ contextSlots model ↔ x.1 < model.contexts ∧ x.2 < 16 := by
  obtain ⟨ctx, slot⟩ := x
  simp [contextSlots]

theorem nodup_contextSlots : (contextSlots model).Nodup := by
  rw [contextSlots, List.nodup_flatMap]
  constructor
  · intro ctx _
    exact (nodup_bytesBelow 16).map fun slot slot' h => (Prod.mk.inj h).2
  · refine (nodup_bytesBelow model.contexts).imp fun {a b} hab => ?_
    rw [Function.onFun_apply, List.disjoint_left]
    intro x hxa hxb
    obtain ⟨slot, -, rfl⟩ := List.mem_map.1 hxa
    obtain ⟨slot', -, heq⟩ := List.mem_map.1 hxb
    exact hab (Prod.mk.inj heq).1.symm

/-- A request is made for a slot that its region covers. -/
theorem covers_of_mem_pageRequests (h : cfg.Usable model) {r : PageRequest} (hr : r ∈ pageRequests cfg model) :
    r.slot ∈ contextSlots model ∧ cfg.Covers model r.slot.1 r.slot.2 r.region := by
  obtain ⟨ctx, hctx, hr⟩ := List.mem_flatMap.1 hr
  rw [placedContexts_eq h, mem_bytesBelow] at hctx
  obtain ⟨layout, hlayout, htiles⟩ := h.layout ctx hctx
  rw [contextRequests_eq hlayout] at hr
  obtain ⟨region, hregion, hr⟩ := List.mem_flatMap.1 hr
  obtain ⟨p, hp, rfl⟩ := List.mem_map.1 hr
  have hrange := (htiles.range region hregion).2
  have hcovers := covers_start_add hrange (mem_bytesBelow.1 hp)
  refine ⟨mem_contextSlots.2 ⟨hctx, ?_⟩, layout, hlayout, hregion, hcovers⟩
  exact UInt8.lt_iff_toNat_lt.2 ((MemoryLayoutRegion.covers_iff.1 hcovers).2.trans_le hrange)

/-- The first pass asks for each slot once. -/
theorem perm_contextSlots (h : cfg.Usable model) :
    ((pageRequests cfg model).map PageRequest.slot).Perm (contextSlots model) := by
  refine (List.perm_ext_iff_of_nodup (nodup_slots h) nodup_contextSlots).2 fun x => ?_
  constructor
  · intro hx
    obtain ⟨r, hr, rfl⟩ := List.mem_map.1 hx
    exact (covers_of_mem_pageRequests h hr).1
  · intro hx
    obtain ⟨hctx, hslot⟩ := mem_contextSlots.1 hx
    obtain ⟨region, ⟨layout, hlayout, hmem, hcovers⟩, -⟩ := covers_existsUnique h hctx hslot
    refine List.mem_map.2 ⟨_, mem_pageRequests h hctx hlayout hmem hcovers, ?_⟩
    rw [PageRequest.slot, UInt8.add_comm, UInt8.sub_add_cancel]

/-- It asks for the shared page that the slot lies on. -/
theorem key_eq_sharedPageAt (h : cfg.Usable model) {r : PageRequest} (hr : r ∈ pageRequests cfg model) :
    r.key = sharedPageAt cfg model r.slot.1 r.slot.2 := by
  obtain ⟨hslot, hcovers⟩ := covers_of_mem_pageRequests h hr
  have hp : r.region.start + r.p - r.region.start = r.p := by
    rw [UInt8.add_comm, UInt8.add_sub_cancel]
  rw [sharedPageAt, covers_regionAt h (mem_contextSlots.1 hslot).1 hcovers, PageRequest.key]
  by_cases hshared : r.region.shared = true
  · simp [hshared, PageRequest.slot, hp]
  · simp [hshared]

theorem isNone_sharedPageAt (h : cfg.Usable model) {ctx slot : UInt8} (hctx : ctx < model.contexts)
    (hslot : slot < 16) : (sharedPageAt cfg model ctx slot).isNone = isPrivateSlot cfg model ctx slot := by
  obtain ⟨region, hcovers, -⟩ := covers_existsUnique h hctx hslot
  rw [sharedPageAt, isPrivateSlot, covers_regionAt h hctx hcovers]
  cases hshared : region.shared with
  | true => simp [hshared]
  | false => simp [hshared]

/-- The pages needed are one for each slot that is not shared, and the shared ones. -/
theorem demand_pageRequests (h : cfg.Usable model) :
    demand ((pageRequests cfg model).map PageRequest.key) =
      privateSlots cfg model + (sharedPages cfg model).card := by
  have hkeys : (pageRequests cfg model).map PageRequest.key =
      ((pageRequests cfg model).map PageRequest.slot).map fun x => sharedPageAt cfg model x.1 x.2 := by
    rw [List.map_map]
    exact List.map_congr_left fun r hr => key_eq_sharedPageAt h hr
  rw [hkeys, demand_perm ((perm_contextSlots h).map _), demand_eq_countP]
  congr 1
  · rw [List.countP_map, contextSlots, List.countP_flatMap, privateSlots]
    refine congrArg List.sum (List.map_congr_left fun ctx hctx => ?_)
    rw [Function.comp_apply, List.countP_map]
    refine List.countP_congr fun slot hslot => ?_
    rw [Function.comp_apply, Function.comp_apply,
      isNone_sharedPageAt h (mem_bytesBelow.1 hctx) (mem_bytesBelow.1 hslot)]
  · rw [List.filterMap_map, contextSlots, List.filterMap_flatMap, sharedPages]
    simp only [List.filterMap_map]
    rfl

end Demand

/-! ## The two passes -/

section Passes

variable {cfg : MemoryConfig} {model : MemoryModel}

/-- The first pass goes through exactly when the pages suffice, and writes no MMU entry. -/
theorem placeRequests_result_iff {st : PhysState} {pool : Pool (Name × UInt8)}
    {done : List (Grant (UInt8 × UInt8) (Name × UInt8))} (hst : Mirrors model.name st pool)
    (hdone : Granted pool done) (reqs : List PageRequest) :
    ((reqs.allM (placeRequest model)).result st = true ↔
        demand ((reqs.map PageRequest.key).reverse ++ done.map (·.key)) ≤ NUM_TOTAL_PAGES) ∧
      ((reqs.allM (placeRequest model)).final st).mmu = st.mmu := by
  induction reqs generalizing st pool done with
  | nil =>
    refine ⟨iff_of_true rfl ?_, rfl⟩
    rw [List.map_nil, List.reverse_nil, List.nil_append, ← hdone.next_eq]
    exact hst.next_le
  | cons r rs ih =>
    have hfits : (pool.take NUM_TOTAL_PAGES r.key).isSome ↔ _ := hdone.take_isSome_iff hst.next_le
    rw [Prog.result_allM_cons, Prog.final_allM_cons, List.map_cons, List.reverse_cons, List.append_assoc,
      List.singleton_append]
    cases htake : pool.take NUM_TOTAL_PAGES r.key with
    | none =>
      obtain ⟨hres, hframe⟩ := placeRequest_full hst htake
      rw [htake] at hfits
      have hover : ¬ demand (r.key :: done.map (·.key)) ≤ NUM_TOTAL_PAGES := fun hle => by
        simpa using hfits.2 hle
      have hmore := demand_mono (List.sublist_append_right (rs.map PageRequest.key).reverse
        (r.key :: done.map (·.key)))
      rw [hres, if_neg Bool.false_ne_true]
      exact ⟨iff_of_false (by simp) fun hle => hover (hmore.trans hle), hframe.mmu⟩
    | some answer =>
      obtain ⟨page, pool'⟩ := answer
      obtain ⟨hres, hmirrors, -, hmmu, -⟩ := placeRequest_take hst hdone htake
      obtain ⟨hiff, hrest⟩ := ih hmirrors (hdone.take r.slot htake)
      rw [hres, if_pos rfl, Bool.true_and]
      exact ⟨hiff, hrest.trans hmmu⟩

/-- Every slot of a context is written. -/
theorem writeContexts_result (h : cfg.Usable model) (st : PhysState) :
    ((bytesBelow model.contexts).allM (writeContext cfg model)).result st = true := by
  refine (Prog.result_allM_iff (P := fun _ => True) (fun ctx hctx st => ?_) st).2 fun _ _ => trivial
  obtain ⟨layout, hlayout, htiles⟩ := h.layout ctx (mem_bytesBelow.1 hctx)
  refine iff_of_true ?_ trivial
  rw [writeContext, hlayout]
  refine (Prog.result_allM_iff (P := fun _ => True) (fun slot hslot st => ?_) st).2 fun _ _ => trivial
  obtain ⟨region, hmem, hcovers⟩ := htiles.complete slot (mem_bytesBelow.1 hslot)
  simp [writeSlot, touch, htiles.find?_covers hmem hcovers]

/-- No context is without a layout. -/
theorem result_placeContexts_eq (h : cfg.Usable model) (st : PhysState) :
    ((bytesBelow model.contexts).allM (placeContext cfg model)).result st =
      ((pageRequests cfg model).allM (placeRequest model)).result st := by
  rw [← allM_placedContexts, placedContexts_eq h]

theorem result_configure_iff (h : cfg.Usable model) (st : PhysState) :
    (configureMMUFromActiveModel cfg).result st = true ↔
      privateSlots cfg model + (sharedPages cfg model).card ≤ NUM_TOTAL_PAGES := by
  have hplaced := result_placeContexts_eq h st.cleared
  obtain ⟨hiff, -⟩ := placeRequests_result_iff (mirrors_cleared model.name st) granted_empty
    (pageRequests cfg model)
  rw [List.map_nil, List.append_nil, demand_perm (List.reverse_perm _), demand_pageRequests h] at hiff
  rw [result_configure h.active h.contexts_valid, hplaced, hiff]
  exact and_iff_left (writeContexts_result h _)

/-- A configuration that fails has not come to its second pass. -/
theorem mmu_configure_of_failed (h : cfg.Usable model) {st : PhysState}
    (hfailed : (configureMMUFromActiveModel cfg).result st = false) :
    ((configureMMUFromActiveModel cfg).final st).mmu = st.mmu := by
  have hplaced : ¬ ((bytesBelow model.contexts).allM (placeContext cfg model)).result st.cleared = true := by
    intro hplaced
    have hres := (result_configure h.active h.contexts_valid).2 ⟨hplaced, writeContexts_result h _⟩
    rw [hfailed] at hres
    cases hres
  obtain ⟨-, hmmu⟩ := placeRequests_result_iff (mirrors_cleared model.name st) granted_empty
    (pageRequests cfg model)
  rw [final_configure h.active h.contexts_valid, if_neg hplaced]
  exact hmmu

end Passes

/-- For an accepted file the configuration succeeds exactly when the private slots and the shared pages of
the active model fit into the 128 pages, and one that fails writes no MMU entry. -/
theorem configureMMU_all_or_nothing {file : List UInt8} (haccepted : (parseMemoryIni file).1 = .ok ()) :
    ∃ model, (parseMemoryIni file).2.findModel (parseMemoryIni file).2.active_model.val = some model ∧
      ∀ st,
        ((configureMMUFromActiveModel (parseMemoryIni file).2).result st = true ↔
          privateSlots (parseMemoryIni file).2 model + (sharedPages (parseMemoryIni file).2 model).card ≤ 128) ∧
        ((configureMMUFromActiveModel (parseMemoryIni file).2).result st = false →
          ((configureMMUFromActiveModel (parseMemoryIni file).2).final st).mmu = st.mmu) := by
  obtain ⟨model, husable⟩ := usable_of_validateConfig (validateConfig_of_parseMemoryIni haccepted)
  exact ⟨model, husable.active, fun st => ⟨result_configure_iff husable st, mmu_configure_of_failed husable⟩⟩

theorem twoContextsIni_all_or_nothing : ∃ model,
    (parseMemoryIni twoContextsIni).2.findModel
      (parseMemoryIni twoContextsIni).2.active_model.val = some model ∧
    ∀ st,
      ((configureMMUFromActiveModel (parseMemoryIni twoContextsIni).2).result st = true ↔
        privateSlots (parseMemoryIni twoContextsIni).2 model +
          (sharedPages (parseMemoryIni twoContextsIni).2 model).card ≤ 128) ∧
      ((configureMMUFromActiveModel (parseMemoryIni twoContextsIni).2).result st = false →
        ((configureMMUFromActiveModel (parseMemoryIni twoContextsIni).2).final st).mmu = st.mmu) :=
  configureMMU_all_or_nothing twoContextsIni_parsed.1

end NeoMmu
