import NeoMmu.Foundation.PageAlloc
import NeoMmu.Foundation.Run
import NeoMmu.Memory.Configure

/-!
# Which slots share a page

The allocation pass makes one page request for every page of every region it visits. This module shows
that the pass answers them as the page pool does, and reads off which slots end up on one page and
which array indices the pass uses.
-/

namespace NeoMmu

open PageAlloc

/-! ## Page requests -/

/-- Page `p` of a region, placed for a context. -/
structure PageRequest where
  ctx : UInt8
  region : MemoryLayoutRegion
  p : UInt8

namespace PageRequest

/-- The entry of `phys_map` the request fills. -/
def slot (r : PageRequest) : UInt8 × UInt8 := (r.ctx, r.region.start + r.p)

/-- The shared page asked for, or none for a private page. -/
def key (r : PageRequest) : Option (Name × UInt8) :=
  if r.region.shared then some (r.region.name, r.p) else none

end PageRequest

/-- The requests for a context with a given layout, in order. -/
def layoutRequests (layout : MemoryLayout) (ctx : UInt8) : List PageRequest :=
  layout.regions.flatMap fun region => (bytesBelow region.pages).map fun p => ⟨ctx, region, p⟩

/-- The requests for a context; none when its layout is missing. -/
def contextRequests (cfg : MemoryConfig) (model : MemoryModel) (ctx : UInt8) : List PageRequest :=
  match cfg.resolveLayoutForContext model ctx with
  | none => []
  | some layout => layoutRequests layout ctx

/-- The contexts of a model up to the first one without a layout. -/
def placedContexts (cfg : MemoryConfig) (model : MemoryModel) : List UInt8 :=
  (bytesBelow model.contexts).takeWhile fun ctx => (cfg.resolveLayoutForContext model ctx).isSome

/-- All requests of the allocation pass, in order. -/
def pageRequests (cfg : MemoryConfig) (model : MemoryModel) : List PageRequest :=
  (placedContexts cfg model).flatMap (contextRequests cfg model)

/-- One request, made of the code. -/
def placeRequest (model : MemoryModel) (r : PageRequest) : Prog PhysState Bool :=
  placePage model r.ctx r.region r.p

/-! ## One request -/

/-- What an allocation does apart from its answer: it touches entries of `shared_pages` only. -/
structure AllocFrame (st st' : PhysState) : Prop where
  phys_map : st'.phys_map = st.phys_map
  mmu : st'.mmu = st.mmu
  touched : ∃ l : List Nat, st'.touched = l.map .sharedPages ++ st.touched ∧
    ∀ i ∈ l, i < NUM_TOTAL_PAGES

/-- Every array index applied so far was in bounds. -/
def PhysState.Safe (st : PhysState) : Prop := ∀ a ∈ st.touched, a.InBounds

theorem AllocFrame.safe_iff {st st' : PhysState} (h : AllocFrame st st') : st'.Safe ↔ st.Safe := by
  obtain ⟨l, htouched, hl⟩ := h.touched
  simp only [PhysState.Safe, htouched, List.mem_append, List.mem_map]
  constructor
  · intro hsafe a ha
    exact hsafe a (.inr ha)
  · rintro hsafe a (⟨i, hi, rfl⟩ | ha)
    · exact hl i hi
    · exact hsafe a ha

/-- The statics hold what the pool holds, for the shared pages of `model`. -/
structure Mirrors (model : Name) (st : PhysState) (pool : Pool (Name × UInt8)) : Prop where
  next_eq : st.nextPhysical.toNat = pool.next
  next_le : pool.next ≤ NUM_TOTAL_PAGES
  memo_eq : ∀ region offset, pool.memo (region, offset) =
    (st.shared_pages.find? (SharedPage.isFor model region offset)).map (·.phys.toNat)
  count_le : st.shared_pages.length ≤ pool.next

section Request

variable {model : MemoryModel} {st : PhysState} {pool : Pool (Name × UInt8)}
  {done : List (Grant (UInt8 × UInt8) (Name × UInt8))}

theorem getSharedPhysical_frame (model region : Name) (offset : UInt8)
    (hcount : st.shared_pages.length ≤ NUM_TOTAL_PAGES) :
    AllocFrame st ((getSharedPhysical model region offset).final st) := by
  have hscan : ∀ n i, i ∈ List.range (min n st.shared_pages.length) → i < NUM_TOTAL_PAGES := by
    intro n i hi
    have := List.mem_range.1 hi
    omega
  simp only [getSharedPhysical, touch, Prog.final_bind, Prog.result_get, Prog.final_get,
    Prog.final_modify]
  split
  · exact ⟨rfl, rfl, _, rfl, hscan _⟩
  · simp only [Prog.final_ite, Prog.final_pure, Prog.final_bind, Prog.final_modify]
    split
    · exact ⟨rfl, rfl, _, rfl, hscan _⟩
    · rename_i hroom
      refine ⟨rfl, rfl, st.shared_pages.length :: _, rfl, fun i hi => ?_⟩
      rcases List.mem_cons.1 hi with rfl | hi
      · omega
      · exact hscan _ i hi

theorem allocPhysical_frame (hst : Mirrors model.name st pool) (region : MemoryLayoutRegion)
    (p : UInt8) : AllocFrame st ((allocPhysical model region p).final st) := by
  simp only [allocPhysical, Prog.final_ite, Prog.final_bind, Prog.final_pure, Prog.final_get,
    Prog.result_get, Prog.final_modify]
  split
  · exact getSharedPhysical_frame _ _ _ (hst.count_le.trans hst.next_le)
  · split
    · exact ⟨rfl, rfl, [], rfl, by simp⟩
    · exact ⟨rfl, rfl, [], rfl, by simp⟩

/-- A new entry of the shared page table changes the look-up of its own key only. -/
private theorem memo_append {entries : List SharedPage} {model region₀ : Name} {offset₀ : UInt8}
    (hmiss : entries.find? (SharedPage.isFor model region₀ offset₀) = none) (phys : UInt8)
    (region : Name) (offset : UInt8) :
    ((entries ++ [SharedPage.mk model region₀ offset₀ phys]).find?
        (SharedPage.isFor model region offset)).map (·.phys.toNat) =
      if (region, offset) = (region₀, offset₀) then some phys.toNat
      else (entries.find? (SharedPage.isFor model region offset)).map (·.phys.toNat) := by
  rw [List.find?_append]
  by_cases hkey : (region, offset) = (region₀, offset₀)
  · obtain ⟨rfl, rfl⟩ := Prod.mk.inj hkey
    simp [hmiss, SharedPage.isFor]
  · have hno : SharedPage.isFor model region offset ⟨model, region₀, offset₀, phys⟩ = false := by
      simp only [SharedPage.isFor, decide_eq_false_iff_not]
      rintro ⟨-, rfl, rfl⟩
      exact hkey rfl
    simp [hkey, hno]

/-- The page the pool would hand out next, taken by the code. -/
private theorem toNat_succ {n : UInt8} (h : n.toNat < NUM_TOTAL_PAGES) :
    (n + 1).toNat = n.toNat + 1 := by
  simp only [NUM_TOTAL_PAGES] at h
  simp only [UInt8.toNat_add, UInt8.reduceToNat]
  omega

theorem allocPhysical_full (hst : Mirrors model.name st pool) {ctx p : UInt8}
    {region : MemoryLayoutRegion}
    (hfull : pool.take NUM_TOTAL_PAGES (PageRequest.key ⟨ctx, region, p⟩) = none) :
    (allocPhysical model region p).result st = none := by
  by_cases hshared : region.shared = true
  · have hkey : PageRequest.key ⟨ctx, region, p⟩ = some (region.name, p) := if_pos hshared
    rw [hkey] at hfull
    cases hmemo : pool.memo (region.name, p) with
    | some page =>
      rw [Pool.take_of_memo _ hmemo] at hfull
      cases hfull
    | none =>
      have hmiss : st.shared_pages.find? (SharedPage.isFor model.name region.name p) = none := by
        rw [hst.memo_eq] at hmemo
        simpa using hmemo
      rw [Pool.take_of_miss _ hmemo] at hfull
      have hnext : NUM_TOTAL_PAGES ≤ st.nextPhysical.toNat := by
        rw [hst.next_eq]
        simpa using hfull
      simp [allocPhysical, hshared, getSharedPhysical, touch, hmiss, hnext]
  · have hkey : PageRequest.key ⟨ctx, region, p⟩ = none := if_neg hshared
    rw [hkey, Pool.take_private] at hfull
    have hnext : NUM_TOTAL_PAGES ≤ st.nextPhysical.toNat := by
      rw [hst.next_eq]
      simpa using hfull
    simp [allocPhysical, hshared, hnext]

theorem allocPhysical_take (hst : Mirrors model.name st pool) (hdone : Granted pool done)
    {ctx p : UInt8} {region : MemoryLayoutRegion} {page : Nat} {pool' : Pool (Name × UInt8)}
    (htake : pool.take NUM_TOTAL_PAGES (PageRequest.key ⟨ctx, region, p⟩) = some (page, pool')) :
    ∃ phys, (allocPhysical model region p).result st = some phys ∧ phys.toNat = page ∧
      Mirrors model.name ((allocPhysical model region p).final st) pool' := by
  by_cases hshared : region.shared = true
  swap
  · have hkey : PageRequest.key ⟨ctx, region, p⟩ = none := if_neg hshared
    rw [hkey, Pool.take_private, Option.ite_none_right_eq_some] at htake
    obtain ⟨hlt, htake⟩ := htake
    cases htake
    have hroom : ¬ NUM_TOTAL_PAGES ≤ st.nextPhysical.toNat := by
      rw [hst.next_eq]
      omega
    have hsucc := toNat_succ (not_le.1 hroom)
    refine ⟨st.nextPhysical, by simp [allocPhysical, hshared, hroom], hst.next_eq, ?_⟩
    simp only [allocPhysical, hshared, Bool.false_eq_true, if_false, Prog.final_bind,
      Prog.final_get, Prog.result_get, hroom, Prog.final_modify, Prog.final_pure]
    exact ⟨hsucc.trans (congrArg (· + 1) hst.next_eq), hlt, hst.memo_eq,
      hst.count_le.trans (Nat.le_succ _)⟩
  have hkey : PageRequest.key ⟨ctx, region, p⟩ = some (region.name, p) := if_pos hshared
  rw [hkey] at htake
  cases hmemo : pool.memo (region.name, p) with
  | some shared =>
    rw [Pool.take_of_memo _ hmemo] at htake
    cases htake
    have hlt : page < NUM_TOTAL_PAGES := by
      obtain ⟨g, hg, -, rfl⟩ := (hdone.memo_iff _ _).1 hmemo
      exact (hdone.below g hg).trans_le hst.next_le
    rw [hst.memo_eq] at hmemo
    obtain ⟨e, hfind, rfl⟩ := Option.map_eq_some_iff.1 hmemo
    have hne : e.phys ≠ 0xFF := by
      rintro heq
      rw [heq] at hlt
      exact absurd hlt (by decide)
    refine ⟨e.phys, ?_, rfl, ?_⟩
    · simp [allocPhysical, hshared, getSharedPhysical, touch, hfind, hne]
    · simp only [allocPhysical, hshared, if_true, getSharedPhysical, touch, Prog.final_bind,
        Prog.final_get, Prog.result_get, Prog.final_modify, hfind, Prog.final_pure]
      exact ⟨hst.next_eq, hst.next_le, hst.memo_eq, hst.count_le⟩
  | none =>
    rw [Pool.take_of_miss _ hmemo, Option.ite_none_right_eq_some] at htake
    obtain ⟨hlt, htake⟩ := htake
    cases htake
    rw [hst.memo_eq] at hmemo
    have hmiss : st.shared_pages.find? (SharedPage.isFor model.name region.name p) = none := by
      simpa using hmemo
    have hcount : st.shared_pages.length < NUM_TOTAL_PAGES := hst.count_le.trans_lt hlt
    have hroom : ¬ (NUM_TOTAL_PAGES ≤ st.nextPhysical.toNat ∨
        NUM_TOTAL_PAGES ≤ st.shared_pages.length) := by
      rw [hst.next_eq]
      omega
    have hsucc := toNat_succ (not_le.1 (not_or.1 hroom).1)
    have hne : st.nextPhysical ≠ 0xFF := by
      intro heq
      have := (not_or.1 hroom).1
      rw [heq] at this
      exact this (by decide)
    refine ⟨st.nextPhysical, ?_, hst.next_eq, ?_⟩
    · simp [allocPhysical, hshared, getSharedPhysical, touch, hmiss, hroom, hne]
    · simp only [allocPhysical, hshared, if_true, getSharedPhysical, touch, Prog.final_bind,
        Prog.final_get, Prog.result_get, Prog.final_modify, hmiss, Prog.final_pure,
        hroom, if_false, copyName_val]
      refine ⟨hsucc.trans (congrArg (· + 1) hst.next_eq), hlt, fun region' offset => ?_, ?_⟩
      · rw [memo_append hmiss, ← hst.memo_eq, hst.next_eq]
        simp only [Function.update_apply]
      · rw [List.length_append]
        exact Nat.succ_le_succ hst.count_le

/-- A request the pool refuses ends the pass and touches nothing new of `phys_map`. -/
theorem placeRequest_full (hst : Mirrors model.name st pool) {r : PageRequest}
    (hfull : pool.take NUM_TOTAL_PAGES r.key = none) :
    (placeRequest model r).result st = false ∧ AllocFrame st ((placeRequest model r).final st) := by
  have hres := allocPhysical_full hst hfull
  simp only [placeRequest, placePage, Prog.result_bind, Prog.final_bind, hres, Prog.result_pure,
    Prog.final_pure]
  exact ⟨trivial, allocPhysical_frame hst r.region r.p⟩

/-- A request the pool answers fills its entry of `phys_map` with the answer. -/
theorem placeRequest_take (hst : Mirrors model.name st pool) (hdone : Granted pool done)
    {r : PageRequest} {page : Nat} {pool' : Pool (Name × UInt8)}
    (htake : pool.take NUM_TOTAL_PAGES r.key = some (page, pool')) :
    (placeRequest model r).result st = true ∧
      Mirrors model.name ((placeRequest model r).final st) pool' ∧
      (∃ phys, phys.toNat = page ∧
        ((placeRequest model r).final st).phys_map = Function.update st.phys_map r.slot phys) ∧
      ((placeRequest model r).final st).mmu = st.mmu ∧
      (r.ctx < 16 → (((placeRequest model r).final st).Safe ↔ st.Safe ∧ r.slot.2 < 16)) := by
  obtain ⟨phys, hres, hphys, hmirrors⟩ := allocPhysical_take hst hdone htake
  have hframe := allocPhysical_frame hst r.region r.p
  have hsafe := hframe.safe_iff
  simp only [placeRequest, placePage, touch, Prog.result_bind, Prog.final_bind, hres,
    Prog.result_pure, Prog.final_modify, Prog.final_pure]
  refine ⟨trivial, ⟨hmirrors.next_eq, hmirrors.next_le, hmirrors.memo_eq, hmirrors.count_le⟩,
    ⟨phys, hphys, congrArg (fun f => Function.update f (r.ctx, r.region.start + r.p) phys)
      hframe.phys_map⟩, hframe.mmu, fun hctx => ?_⟩
  have hbounds : (ArrayIndex.physMap r.ctx (r.region.start + r.p)).InBounds ↔ r.slot.2 < 16 :=
    and_iff_right hctx
  rw [← hsafe, ← hbounds, and_comm]
  exact List.forall_mem_cons

end Request

/-! ## The allocation pass -/

/-- As long as the requests fit into the pages, the logical slot `start + p` they name is below 16. -/
def InBoundsWhileFitting (reqs : List PageRequest) : Prop :=
  ∀ pre r post, reqs = pre ++ r :: post →
    demand ((pre ++ [r]).map PageRequest.key) ≤ NUM_TOTAL_PAGES → r.region.start + r.p < 16

section Pass

variable {model : MemoryModel} {st : PhysState} {pool : Pool (Name × UInt8)}
  {done : List (Grant (UInt8 × UInt8) (Name × UInt8))}

/-- The requested slot is in bounds, unless the pages have run out by then. -/
private def FitsInBounds (seen : List (Option (Name × UInt8))) (r : PageRequest) : Prop :=
  demand (r.key :: seen) ≤ NUM_TOTAL_PAGES → r.region.start + r.p < 16

/-- The keys requested so far, the newest first. -/
private def seenNext (seen : List (Option (Name × UInt8))) (r : PageRequest) :
    List (Option (Name × UInt8)) :=
  r.key :: seen

private theorem foldl_seenNext (seen : List (Option (Name × UInt8))) (pre : List PageRequest) :
    pre.foldl seenNext seen = (pre.map PageRequest.key).reverse ++ seen := by
  induction pre generalizing seen with
  | nil => rfl
  | cons r pre ih => simp [ih, seenNext]

private theorem inBoundsWhileFitting_iff (reqs : List PageRequest) :
    InBoundsWhileFitting reqs ↔ Run.AtEveryStep seenNext FitsInBounds [] reqs := by
  refine forall₄_congr fun pre r post _ => ?_
  have hperm : demand (r.key :: pre.foldl seenNext []) =
      demand ((pre ++ [r]).map PageRequest.key) := by
    rw [← demand_perm (List.reverse_perm ((pre ++ [r]).map PageRequest.key)), foldl_seenNext]
    simp
  rw [FitsInBounds, hperm]

/-- Once the pages have run out, no later request fits. -/
private theorem atEveryStep_of_exhausted {seen : List (Option (Name × UInt8))}
    (h : NUM_TOTAL_PAGES < demand seen) (reqs : List PageRequest) :
    Run.AtEveryStep seenNext FitsInBounds seen reqs := by
  induction reqs generalizing seen with
  | nil => exact Run.atEveryStep_nil seen
  | cons r rs ih =>
    have hmore : demand seen ≤ demand (r.key :: seen) := demand_mono (List.sublist_cons_self _ _)
    rw [Run.atEveryStep_cons]
    exact ⟨fun hfits => absurd (h.trans_le hmore) (not_lt.2 hfits), ih (h.trans_le hmore)⟩

/-- The pass stays in bounds exactly when every request it still answers is in bounds. -/
theorem placeRequests_safe_iff (hst : Mirrors model.name st pool) (hdone : Granted pool done)
    {reqs : List PageRequest} (hctx : ∀ r ∈ reqs, r.ctx < 16) :
    ((reqs.allM (placeRequest model)).final st).Safe ↔
      st.Safe ∧ Run.AtEveryStep seenNext FitsInBounds (done.map (·.key)) reqs := by
  induction reqs generalizing st pool done with
  | nil => exact ⟨fun h => ⟨h, Run.atEveryStep_nil _⟩, And.left⟩
  | cons r rs ih =>
    have hfits : (pool.take NUM_TOTAL_PAGES r.key).isSome ↔
        demand (r.key :: done.map (·.key)) ≤ NUM_TOTAL_PAGES := hdone.take_isSome_iff hst.next_le
    have hrs : ∀ r' ∈ rs, r'.ctx < 16 := fun r' hr' => hctx r' (List.mem_cons_of_mem r hr')
    rw [Prog.final_allM_cons, Run.atEveryStep_cons]
    cases htake : pool.take NUM_TOTAL_PAGES r.key with
    | none =>
      obtain ⟨hres, hframe⟩ := placeRequest_full hst htake
      have hover : NUM_TOTAL_PAGES < demand (r.key :: done.map (·.key)) := by
        rw [htake] at hfits
        simpa using hfits
      rw [hres, if_neg Bool.false_ne_true, hframe.safe_iff]
      refine ⟨fun hsafe => ⟨hsafe, fun hle => absurd hover (not_lt.2 hle), ?_⟩, And.left⟩
      exact atEveryStep_of_exhausted hover rs
    | some answer =>
      obtain ⟨page, pool'⟩ := answer
      obtain ⟨hres, hmirrors, -, -, hsafe⟩ := placeRequest_take hst hdone htake
      have hroom : demand (r.key :: done.map (·.key)) ≤ NUM_TOTAL_PAGES := by
        rw [htake] at hfits
        simpa using hfits
      have hbounds : FitsInBounds (done.map (·.key)) r ↔
          r.slot.2 < 16 := ⟨fun h => h hroom, fun h _ => h⟩
      rw [hres, if_pos rfl, ih hmirrors (hdone.take r.slot htake) hrs,
        hsafe (hctx r List.mem_cons_self), hbounds, and_assoc]
      rfl

/-- The pass, begun with no page handed out, stays in bounds exactly when every request that still
fits does. -/
theorem placeRequests_safe_iff_fitting (hst : Mirrors model.name st Pool.empty)
    {reqs : List PageRequest} (hctx : ∀ r ∈ reqs, r.ctx < 16) :
    ((reqs.allM (placeRequest model)).final st).Safe ↔ st.Safe ∧ InBoundsWhileFitting reqs := by
  rw [inBoundsWhileFitting_iff]
  exact placeRequests_safe_iff hst granted_empty hctx

/-- A pass that succeeds has placed every request on the page its pool granted. -/
theorem placeRequests_true (hst : Mirrors model.name st pool) (hdone : Granted pool done)
    {reqs : List PageRequest} (hslots : (reqs.map PageRequest.slot).Nodup)
    (hnew : ∀ r ∈ reqs, ∀ g ∈ done, g.slot ≠ r.slot)
    (hmap : ∀ g ∈ done, (st.phys_map g.slot).toNat = g.page)
    (hres : (reqs.allM (placeRequest model)).result st = true) :
    ∃ pool' done', Mirrors model.name ((reqs.allM (placeRequest model)).final st) pool' ∧
      Granted pool' done' ∧ done ⊆ done' ∧
      done'.map Grant.slot = (reqs.map PageRequest.slot).reverse ++ done.map Grant.slot ∧
      (∀ r ∈ reqs, ∃ g ∈ done', g.slot = r.slot ∧ g.key = r.key) ∧
      ∀ g ∈ done', (((reqs.allM (placeRequest model)).final st).phys_map g.slot).toNat = g.page := by
  induction reqs generalizing st pool done with
  | nil => exact ⟨pool, done, hst, hdone, List.Subset.refl _, rfl, by simp, hmap⟩
  | cons r rs ih =>
    rw [Prog.result_allM_cons, Bool.and_eq_true] at hres
    obtain ⟨hres₁, hres₂⟩ := hres
    rw [List.map_cons, List.nodup_cons] at hslots
    obtain ⟨hr, hrs⟩ := hslots
    cases htake : pool.take NUM_TOTAL_PAGES r.key with
    | none => exact absurd hres₁ (by simp [(placeRequest_full hst htake).1])
    | some answer =>
      obtain ⟨page, pool'⟩ := answer
      obtain ⟨-, hmirrors, ⟨phys, hphys, hupdate⟩, -, -⟩ := placeRequest_take hst hdone htake
      have hmap' : ∀ g ∈ (⟨r.slot, r.key, page⟩ : Grant _ _) :: done,
          (((placeRequest model r).final st).phys_map g.slot).toNat = g.page := by
        intro g hg
        rw [hupdate]
        rcases List.mem_cons.1 hg with rfl | hg
        · rw [Function.update_self]
          exact hphys
        · rw [Function.update_of_ne (hnew r List.mem_cons_self g hg)]
          exact hmap g hg
      have hnew' : ∀ r' ∈ rs, ∀ g ∈ (⟨r.slot, r.key, page⟩ : Grant _ _) :: done,
          g.slot ≠ r'.slot := by
        intro r' hr' g hg
        rcases List.mem_cons.1 hg with rfl | hg
        · rintro (heq : r.slot = r'.slot)
          exact hr (heq ▸ List.mem_map_of_mem hr')
        · exact hnew r' (List.mem_cons_of_mem r hr') g hg
      obtain ⟨pool'', done'', hmirrors', hgranted, hsub, hslots', hall, hfinal⟩ :=
        ih hmirrors (hdone.take r.slot htake) hrs hnew' hmap' hres₂
      rw [Prog.final_allM_cons, if_pos hres₁]
      refine ⟨pool'', done'', hmirrors', hgranted, fun g hg => hsub (List.mem_cons_of_mem _ hg), ?_, ?_,
        hfinal⟩
      · rw [hslots']
        simp
      intro r' hr'
      rcases List.mem_cons.1 hr' with rfl | hr'
      · exact ⟨_, hsub List.mem_cons_self, rfl, rfl⟩
      · exact hall r' hr'

end Pass

end NeoMmu
