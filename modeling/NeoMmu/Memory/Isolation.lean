import Mathlib.Data.Fintype.EquivFin
import NeoMmu.Boot.SystemIni
import NeoMmu.Hardware.InitMmu
import NeoMmu.Mailbox.FsMailbox
import NeoMmu.Memory.Regions
import NeoMmu.Memory.Sharing

/-!
# Isolation of the contexts

A private page belongs to one context of the active model. The contexts behind the model's count are
not configured and stay mapped straight onto the first sixteen pages, which the configuration hands out
to context 0; requests and cartridge sections may name them.
-/

namespace NeoMmu

open PageAlloc

variable {cfg : MemoryConfig} {model : MemoryModel}

/-! ## The entries a configuration writes -/

/-- Only page writes, to entries of contexts below `n`. -/
def PageWrites (n : UInt8) (calls : List MmuCall) : Prop :=
  ∀ call ∈ calls, ∃ c i v, call = .writeMMUPage c i v ∧ c < n ∧ i < 16

/-- The MMU entries change by page writes to contexts below `n`. -/
def Rewrites (n : UInt8) (st st' : PhysState) : Prop :=
  ∃ calls, PageWrites n calls ∧ st'.mmu = calls.foldl (fun table call => call.onTable table) st.mmu

instance (n : UInt8) : Std.Refl (Rewrites n) where
  refl _ := ⟨[], List.forall_mem_nil _, rfl⟩

instance (n : UInt8) : IsTrans PhysState (Rewrites n) where
  trans st st' st'' := by
    rintro ⟨calls, hcalls, hmmu⟩ ⟨calls', hcalls', hmmu'⟩
    refine ⟨calls ++ calls', fun call hmem => ?_, ?_⟩
    · rcases List.mem_append.1 hmem with hmem | hmem
      · exact hcalls call hmem
      · exact hcalls' call hmem
    · rw [hmmu', hmmu, List.foldl_append]

/-- A change that leaves the entries alone. -/
theorem Rewrites.of_mmu {n : UInt8} {st st' : PhysState} (h : st'.mmu = st.mmu) : Rewrites n st st' :=
  ⟨[], List.forall_mem_nil _, h⟩

theorem rewrites_touch (n : UInt8) (indices : List ArrayIndex) : Prog.Keeps (Rewrites n) (touch indices) :=
  Prog.Keeps.modify fun _ => .of_mmu rfl

theorem rewrites_getSharedPhysical (n : UInt8) (model region : Name) (offset : UInt8) :
    Prog.Keeps (Rewrites n) (getSharedPhysical model region offset) := by
  refine Prog.Keeps.get.bind fun st => (rewrites_touch n _).bind fun _ => ?_
  split
  · exact Prog.Keeps.pure _
  · refine Prog.Keeps.ite (fun _ => Prog.Keeps.pure _) fun _ => (rewrites_touch n _).bind fun _ => ?_
    exact (Prog.Keeps.modify fun _ => .of_mmu rfl).bind fun _ => Prog.Keeps.pure _

theorem rewrites_allocPhysical (n : UInt8) (model : MemoryModel) (region : MemoryLayoutRegion) (p : UInt8) :
    Prog.Keeps (Rewrites n) (allocPhysical model region p) := by
  refine Prog.Keeps.ite (fun _ => ?_) fun _ => Prog.Keeps.get.bind fun st => ?_
  · exact (rewrites_getSharedPhysical n _ _ _).bind fun _ => Prog.Keeps.pure _
  · refine Prog.Keeps.ite (fun _ => Prog.Keeps.pure _) fun _ => ?_
    exact (Prog.Keeps.modify fun _ => .of_mmu rfl).bind fun _ => Prog.Keeps.pure _

theorem rewrites_placeContext (n : UInt8) (cfg : MemoryConfig) (model : MemoryModel) (ctx : UInt8) :
    Prog.Keeps (Rewrites n) (placeContext cfg model ctx) := by
  unfold placeContext
  split
  · exact Prog.Keeps.pure _
  · refine Prog.Keeps.allM fun region _ => Prog.Keeps.allM fun p _ => ?_
    refine (rewrites_allocPhysical n model region p).bind fun phys => ?_
    split
    · exact Prog.Keeps.pure _
    · refine (rewrites_touch n _).bind fun _ => Prog.Keeps.bind (Prog.Keeps.modify fun _ => ?_) fun _ =>
        Prog.Keeps.pure _
      exact .of_mmu rfl

theorem rewrites_writeContext {n : UInt8} (cfg : MemoryConfig) (model : MemoryModel) {ctx : UInt8}
    (hctx : ctx < n) : Prog.Keeps (Rewrites n) (writeContext cfg model ctx) := by
  unfold writeContext
  split
  · exact Prog.Keeps.pure _
  · refine Prog.Keeps.allM fun slot hslot => (rewrites_touch n _).bind fun _ =>
      Prog.Keeps.get.bind fun st => ?_
    split
    · exact Prog.Keeps.pure _
    · refine Prog.Keeps.bind (Prog.Keeps.modify fun st => ?_) fun _ => Prog.Keeps.pure _
      refine ⟨[.writeMMUPage ctx slot _], fun call hcall => ?_, rfl⟩
      exact ⟨ctx, slot, _, List.mem_singleton.1 hcall, hctx, mem_bytesBelow.1 hslot⟩

/-- The configuration writes entries of the model's contexts only. -/
theorem rewrites_configure (h : cfg.findModel cfg.active_model.val = some model) :
    Prog.Keeps (Rewrites model.contexts) (configureMMUFromActiveModel cfg) := by
  simp only [configureMMUFromActiveModel, h]
  refine Prog.Keeps.ite (fun _ => Prog.Keeps.pure _) fun _ => ?_
  refine Prog.Keeps.bind (Prog.Keeps.modify fun _ => .of_mmu rfl) fun _ => ?_
  refine (Prog.Keeps.allM fun ctx _ => rewrites_placeContext _ cfg model ctx).bind fun placed => ?_
  refine Prog.Keeps.ite (fun _ => ?_) fun _ => Prog.Keeps.pure _
  exact Prog.Keeps.allM fun ctx hctx => rewrites_writeContext cfg model (mem_bytesBelow.1 hctx)

section Calls

variable {n : UInt8} {calls : List MmuCall}

/-- The entries of the other contexts stay. -/
theorem PageWrites.onTable_eq (h : PageWrites n calls) {ctx : UInt8} (hctx : n ≤ ctx) (slot : UInt8)
    (table : MmuTable) :
    calls.foldl (fun table call => call.onTable table) table (ctx, slot) = table (ctx, slot) := by
  induction calls generalizing table with
  | nil => rfl
  | cons call calls ih =>
    obtain ⟨c, i, v, rfl, hc, -⟩ := h call List.mem_cons_self
    rw [List.foldl_cons, ih (fun call hcall => h call (List.mem_cons_of_mem _ hcall))]
    refine Function.update_of_ne (fun heq => ?_) _ _
    rw [(Prod.mk.inj heq).1] at hctx
    exact UInt8.not_lt.2 hctx hc

/-- On a synced board the calls have the same effect. -/
theorem PageWrites.onBoard (h : PageWrites n calls) {m : Machine} (hm : m.Synced) :
    (calls.foldl MmuCall.next m).Synced ∧ (calls.foldl MmuCall.next m).mmuRam =
      calls.foldl (fun table call => call.onTable table) m.mmuRam := by
  induction calls generalizing m with
  | nil => exact ⟨hm, rfl⟩
  | cons call calls ih =>
    obtain ⟨c, i, v, rfl, -, hi⟩ := h call List.mem_cons_self
    obtain ⟨htable, hsynced⟩ := hm.writeMMUPage c hi v
    have hnext : MmuCall.next m (.writeMMUPage c i v) = (writeMMUPage c i v).final m := rfl
    rw [List.foldl_cons, List.foldl_cons, hnext, MmuCall.onTable, ← htable]
    exact ih (fun call hcall => h call (List.mem_cons_of_mem _ hcall)) hsynced

end Calls

/-- The board that `initMMU()` leaves holds, behind the calls of a configuration, the entries of the
configuration. -/
theorem configureMMU_onBoard (h : cfg.findModel cfg.active_model.val = some model) {m : Machine}
    (hm : m.Synced) : ∃ calls, PageWrites model.contexts calls ∧ (calls.foldl MmuCall.next m).Synced ∧
      (calls.foldl MmuCall.next m).mmuRam =
        ((configureMMUFromActiveModel cfg).final (.atSetup m.mmuRam)).mmu := by
  obtain ⟨calls, hcalls, hmmu⟩ := rewrites_configure h (.atSetup m.mmuRam)
  obtain ⟨hsynced, htable⟩ := hcalls.onBoard hm
  exact ⟨calls, hcalls, hsynced, htable.trans hmmu.symm⟩

/-! ## The pages of the first context -/

/-- The pass begins with the requests for context 0. -/
theorem pageRequests_eq_append (h : cfg.Usable model) :
    ∃ rest, pageRequests cfg model = contextRequests cfg model 0 ++ rest := by
  obtain ⟨rest, hrest⟩ := bytesBelow_eq_cons h.contexts_ne
  rw [pageRequests, placedContexts_eq h, hrest, List.flatMap_cons]
  exact ⟨_, rfl⟩

theorem length_contextRequests_le (h : cfg.Usable model) {ctx : UInt8} (hctx : ctx < model.contexts) :
    (contextRequests cfg model ctx).length ≤ 16 := by
  obtain ⟨layout, hlayout, htiles⟩ := h.layout ctx hctx
  have hslots : (layoutRequests layout ctx).map PageRequest.slot ⊆ (bytesBelow 16).map (ctx, ·) := by
    intro x hx
    obtain ⟨r, hr, rfl⟩ := List.mem_map.1 hx
    obtain ⟨region, hregion, hr⟩ := List.mem_flatMap.1 hr
    obtain ⟨p, hp, rfl⟩ := List.mem_map.1 hr
    have hrange := (htiles.range region hregion).2
    have hcovers := covers_start_add hrange (mem_bytesBelow.1 hp)
    rw [MemoryLayoutRegion.covers_iff] at hcovers
    refine List.mem_map.2 ⟨region.start + p, mem_bytesBelow.2 ?_, rfl⟩
    exact UInt8.lt_iff_toNat_lt.2 (hcovers.2.trans_le hrange)
  have hle := ((nodup_layoutSlots htiles ctx).subperm hslots).length_le
  rw [List.length_map] at hle
  rw [contextRequests_eq hlayout]
  exact hle

/-- The slots of context 0 are on the first sixteen pages. -/
theorem firstContext_pages (h : cfg.Usable model) {st : PhysState}
    (hres : ((pageRequests cfg model).allM (placeRequest model)).result st.cleared = true) :
    ∀ r ∈ contextRequests cfg model 0, (afterPlacement cfg model st).phys_map r.slot < 16 := by
  obtain ⟨rest, hrest⟩ := pageRequests_eq_append h
  have hnodup := nodup_slots h
  rw [hrest, List.map_append, List.nodup_append] at hnodup
  obtain ⟨hfirst, hlater, hdisjoint⟩ := hnodup
  rw [hrest, Prog.result_allM_append, Bool.and_eq_true] at hres
  obtain ⟨pool, done, hmirrors, hgranted, -, hslots, hall, hmap⟩ := placeRequests_true
    (mirrors_cleared model.name st) granted_empty hfirst (by simp) (by simp) hres.1
  rw [List.map_nil, List.append_nil] at hslots
  have hnew : ∀ r ∈ rest, ∀ g ∈ done, g.slot ≠ r.slot := by
    intro r hr g hg
    have hmem := List.mem_map_of_mem (f := Grant.slot) hg
    rw [hslots, List.mem_reverse] at hmem
    exact hdisjoint _ hmem _ (List.mem_map_of_mem hr)
  obtain ⟨-, done', -, -, hsub, -, -, hmap'⟩ :=
    placeRequests_true hmirrors hgranted hlater hnew hmap hres.2
  intro r hr
  obtain ⟨g, hg, hslot, -⟩ := hall r hr
  have hlength : done.length = (contextRequests cfg model 0).length := by
    have hlen := congrArg List.length hslots
    simpa using hlen
  have hbelow : g.page < 16 := calc
    g.page < pool.next := hgranted.below g hg
    _ = demand (done.map (·.key)) := hgranted.next_eq
    _ ≤ done.length := (demand_le_length _).trans_eq (List.length_map _)
    _ ≤ 16 := hlength.trans_le (length_contextRequests_le h (UInt8.pos_iff_ne_zero.2 h.contexts_ne))
  rw [← hslot, UInt8.lt_iff_toNat_lt, afterPlacement, hrest, Prog.final_allM_append, if_pos hres.1]
  exact (hmap' g (hsub hg)).trans_lt hbelow

/-- The pages of context 0 behind a configuration. -/
theorem firstContext_low (h : cfg.Usable model) {st : PhysState}
    (hres : (configureMMUFromActiveModel cfg).result st = true) {slot : UInt8} (hslot : slot < 16) :
    ((configureMMUFromActiveModel cfg).final st).mmu (0, slot) &&& 0x7F < 16 := by
  have hctx : 0 < model.contexts := UInt8.pos_iff_ne_zero.2 h.contexts_ne
  obtain ⟨hplaced, -⟩ := (result_configure h.active h.contexts_valid).1 hres
  obtain ⟨region, ⟨layout, hlayout, hmem, hcovers⟩, -⟩ := covers_existsUnique h hctx hslot
  have hlow := firstContext_pages h (result_placeContexts st.cleared hplaced) _
    (mem_contextRequests hlayout hmem hcovers)
  rw [((sharingRule_of_usable h hres).base 0 hctx slot hslot).2, phys_map_configure h hplaced]
  rwa [PageRequest.slot, UInt8.add_comm, UInt8.sub_add_cancel] at hlow

/-! ## Isolation -/

/-- A filesystem request or a cartridge section of `system.ini` may name the context. -/
def ContextAccepted (ctx : UInt8) : Prop := ctx < maxContexts ∨ ∃ s, parseContextStrict s = some ctx

theorem ContextAccepted.lt {ctx : UInt8} (h : ContextAccepted ctx) : ctx < 128 := by
  rcases h with h | ⟨s, hs⟩
  · exact UInt8.lt_trans h (by decide)
  · exact lt_of_parseContextStrict hs

/-- A page that a context of the model holds in a region of its own is in no slot of another context
that requests or cartridge sections may name. -/
def Isolated (cfg : MemoryConfig) (model : MemoryModel) (mmu : UInt8 × UInt8 → UInt8) : Prop :=
  ∀ ctx < model.contexts, ∀ slot < 16, ∀ region, cfg.Covers model ctx slot region →
    region.shared = false → ∀ ctx', ctx' ≠ ctx → ContextAccepted ctx' → ∀ slot' < 16,
      mmu (ctx', slot') &&& 0x7F ≠ mmu (ctx, slot) &&& 0x7F

/-- Every region of the layout of context 0 is shared. -/
def FirstShared (cfg : MemoryConfig) (model : MemoryModel) : Prop :=
  ∀ layout, cfg.resolveLayoutForContext model 0 = some layout → ∀ region ∈ layout.regions,
    region.shared = true

section Isolation

variable {table : MmuTable}

/-- A context that is not configured stays mapped straight. -/
theorem configure_straight (h : cfg.Usable model)
    (htable : ∀ c < 128, ∀ slot < 16, table (c, slot) = defaultPage slot) {ctx : UInt8}
    (hctx : model.contexts ≤ ctx) (hlt : ctx < 128) {slot : UInt8} (hslot : slot < 16) :
    ((configureMMUFromActiveModel cfg).final (.atSetup table)).mmu (ctx, slot) &&& 0x7F = slot := by
  have hdefault : ∀ slot : UInt8, slot < 16 → defaultPage slot &&& 0x7F = slot := by decide +kernel
  obtain ⟨calls, hcalls, hmmu⟩ := rewrites_configure h.active (.atSetup table)
  rw [hmmu, hcalls.onTable_eq hctx]
  exact (congrArg (· &&& 0x7F) (htable ctx hlt slot hslot)).trans (hdefault slot hslot)

/-- A page that context 0 has for itself is in a slot of every context that is not configured. -/
theorem not_isolated_of_private (h : cfg.Usable model)
    (htable : ∀ c < 128, ∀ slot < 16, table (c, slot) = defaultPage slot)
    (hres : (configureMMUFromActiveModel cfg).result (.atSetup table) = true) {layout : MemoryLayout}
    (hlayout : cfg.resolveLayoutForContext model 0 = some layout) {region : MemoryLayoutRegion}
    (hmem : region ∈ layout.regions) (hprivate : region.shared = false) :
    ¬ Isolated cfg model ((configureMMUFromActiveModel cfg).final (.atSetup table)).mmu := by
  intro hisolated
  have hctx : 0 < model.contexts := UInt8.pos_iff_ne_zero.2 h.contexts_ne
  have hbeyond : model.contexts ≤ 127 := UInt8.le_trans h.contexts_le (by decide)
  obtain ⟨layout', hlayout', htiles⟩ := h.layout 0 hctx
  obtain rfl := Option.some.inj (hlayout.symm.trans hlayout')
  obtain ⟨hpages, hend⟩ := htiles.range region hmem
  have hslot : region.start < 16 := by
    have hsixteen : (16 : UInt8).toNat = 16 := rfl
    exact UInt8.lt_iff_toNat_lt.2 (by omega)
  have hcovers : region.covers region.start = true :=
    MemoryLayoutRegion.covers_iff.2 ⟨Nat.le_refl _, by omega⟩
  have hlow := firstContext_low h hres hslot
  refine hisolated 0 hctx region.start hslot region ⟨layout, hlayout, hmem, hcovers⟩ hprivate 127
    (by decide) (.inr ⟨ascii "127", by decide⟩) _ hlow ?_
  exact configure_straight h htable hbeyond (by decide) hlow

/-- With distinct names, the slots of a configured context lie on different pages. -/
theorem pages_distinct (h : cfg.Usable model) (hdistinct : cfg.Distinct) {st : PhysState}
    (hres : (configureMMUFromActiveModel cfg).result st = true) {ctx : UInt8} (hctx : ctx < model.contexts)
    {slot : UInt8} (hslot : slot < 16) {slot' : UInt8} (hslot' : slot' < 16)
    (heq : ((configureMMUFromActiveModel cfg).final st).mmu (ctx, slot) &&& 0x7F =
      ((configureMMUFromActiveModel cfg).final st).mmu (ctx, slot') &&& 0x7F) : slot = slot' := by
  obtain ⟨region, hcovers, -⟩ := covers_existsUnique h hctx hslot
  obtain ⟨region', hcovers', -⟩ := covers_existsUnique h hctx hslot'
  rcases ((sharingRule_of_usable h hres).shares ctx hctx slot hslot ctx hctx slot' hslot' region region'
    hcovers hcovers').1 heq with hsame | ⟨-, -, hname, hoffset⟩
  · exact (Prod.mk.inj hsame).2
  · obtain ⟨layout, hlayout, hmem, -⟩ := hcovers
    obtain ⟨layout', hlayout', hmem', -⟩ := hcovers'
    obtain rfl := Option.some.inj (hlayout.symm.trans hlayout')
    have hregion : region = region' :=
      List.inj_on_of_nodup_map (hdistinct layout (mem_of_resolveLayout hlayout)) hmem hmem' hname
    rw [hregion] at hoffset
    exact UInt8.sub_left_inj _ |>.1 hoffset

/-- With distinct names, the slots of context 0 lie on all of the first sixteen pages. -/
theorem firstContext_onto (h : cfg.Usable model) (hdistinct : cfg.Distinct) {st : PhysState}
    (hres : (configureMMUFromActiveModel cfg).result st = true) {page : UInt8} (hpage : page < 16) :
    ∃ slot < 16, ((configureMMUFromActiveModel cfg).final st).mmu (0, slot) &&& 0x7F = page := by
  have hzero : 0 < model.contexts := UInt8.pos_iff_ne_zero.2 h.contexts_ne
  have hlt : ∀ s : Fin 16, UInt8.ofNat s < 16 := by decide
  let f : Fin 16 → Fin 16 := fun s =>
    ⟨(((configureMMUFromActiveModel cfg).final st).mmu (0, UInt8.ofNat s) &&& 0x7F).toNat,
      UInt8.lt_iff_toNat_lt.1 (firstContext_low h hres (hlt s))⟩
  have hf : Function.Injective f := by
    intro s s' heq
    have hpages := UInt8.toNat_inj.1 (Fin.mk.inj heq)
    have hslots := congrArg UInt8.toNat (pages_distinct h hdistinct hres hzero (hlt s) (hlt s') hpages)
    have hsize : 16 < UInt8.size := by decide
    rw [UInt8.toNat_ofNat_of_lt' (s.isLt.trans hsize), UInt8.toNat_ofNat_of_lt' (s'.isLt.trans hsize)]
      at hslots
    exact Fin.ext hslots
  obtain ⟨s, hs⟩ := Finite.surjective_of_injective hf ⟨page.toNat, UInt8.lt_iff_toNat_lt.1 hpage⟩
  exact ⟨UInt8.ofNat s, hlt s, UInt8.toNat_inj.1 (Fin.mk.inj hs)⟩

/-- With nothing private in context 0 the private pages lie behind the first sixteen. -/
theorem isolated_of_firstShared (h : cfg.Usable model) (hdistinct : cfg.Distinct)
    (htable : ∀ c < 128, ∀ slot < 16, table (c, slot) = defaultPage slot)
    (hres : (configureMMUFromActiveModel cfg).result (.atSetup table) = true)
    (hshared : FirstShared cfg model) :
    Isolated cfg model ((configureMMUFromActiveModel cfg).final (.atSetup table)).mmu := by
  intro ctx hctx slot hslot region hcovers hprivate ctx' hne haccepted slot' hslot' hpage
  have hrule := sharingRule_of_usable h hres
  have hzero : 0 < model.contexts := UInt8.pos_iff_ne_zero.2 h.contexts_ne
  have hown : ¬ region.shared = true := by
    rw [hprivate]
    exact Bool.false_ne_true
  by_cases hconfigured : ctx' < model.contexts
  · obtain ⟨region', hcovers', -⟩ := covers_existsUnique h hconfigured hslot'
    rcases (hrule.shares ctx' hconfigured slot' hslot' ctx hctx slot hslot region' region hcovers'
      hcovers).1 hpage with hsame | ⟨-, hregion, -⟩
    · exact hne (Prod.mk.inj hsame).1
    · exact hown hregion
  · rw [configure_straight h htable (UInt8.not_lt.1 hconfigured) haccepted.lt hslot'] at hpage
    obtain ⟨slot₀, hslot₀, hpage₀⟩ := firstContext_onto h hdistinct hres hslot'
    obtain ⟨region₀, hcovers₀, -⟩ := covers_existsUnique h hzero hslot₀
    rcases (hrule.shares 0 hzero slot₀ hslot₀ ctx hctx slot hslot region₀ region hcovers₀ hcovers).1
      (hpage₀.trans hpage) with hsame | ⟨-, hregion, -⟩
    · obtain ⟨rfl, rfl⟩ := Prod.mk.inj hsame
      obtain ⟨layout, hlayout, hmem, -⟩ := hcovers
      exact hown (hshared layout hlayout region hmem)
    · exact hown hregion

end Isolation

/-- The contexts that requests and cartridge sections may name are isolated from the private pages of
the active model exactly when context 0 has none. -/
theorem isolated_iff_firstShared (aregH aregL ctxReg : UInt8) (table : MmuTable)
    (ram : UInt8 × UInt16 → UInt8) {file : List UInt8} (haccepted : (parseMemoryIni file).1 = .ok ())
    (hconfigured : (configureMMUFromActiveModel (parseMemoryIni file).2).result
      (.atSetup (Machine.bootBoard aregH aregL ctxReg table ram).mmuRam) = true) :
    ∃ model, (parseMemoryIni file).2.findModel (parseMemoryIni file).2.active_model.val = some model ∧
      (Isolated (parseMemoryIni file).2 model ((configureMMUFromActiveModel (parseMemoryIni file).2).final
          (.atSetup (Machine.bootBoard aregH aregL ctxReg table ram).mmuRam)).mmu ↔
        FirstShared (parseMemoryIni file).2 model) := by
  obtain ⟨model, husable⟩ := usable_of_validateConfig (validateConfig_of_parseMemoryIni haccepted)
  have htable := (Machine.straight_bootBoard aregH aregL ctxReg table ram).2
  refine ⟨model, husable.active, ?_, ?_⟩
  · intro hisolated layout hlayout region hmem
    by_contra hprivate
    rw [Bool.not_eq_true] at hprivate
    exact not_isolated_of_private husable htable hconfigured hlayout hmem hprivate hisolated
  · exact isolated_of_firstShared husable (distinct_parseMemoryIni file) htable hconfigured

/-- A board that has booted gives every context that a request may name a cell for each address. -/
theorem physAddr_injective_of_boot (aregH aregL ctxReg : UInt8) (table : MmuTable)
    (ram : UInt8 × UInt16 → UInt8) {file : List UInt8} (haccepted : (parseMemoryIni file).1 = .ok ())
    (hconfigured : (configureMMUFromActiveModel (parseMemoryIni file).2).result
      (.atSetup (Machine.bootBoard aregH aregL ctxReg table ram).mmuRam) = true) {v : Machine.View}
    (hmmu : v.mmuRam = ((configureMMUFromActiveModel (parseMemoryIni file).2).final
      (.atSetup (Machine.bootBoard aregH aregL ctxReg table ram).mmuRam)).mmu) {c : UInt8} (hc : c < maxContexts) :
    Function.Injective (v.inContext c).physAddr := by
  obtain ⟨model, husable⟩ := usable_of_validateConfig (validateConfig_of_parseMemoryIni haccepted)
  have htable := (Machine.straight_bootBoard aregH aregL ctxReg table ram).2
  apply Machine.View.physAddr_injective
  intro slot hslot slot' hslot' heq
  rw [show (v.inContext c).mmuRam = _ from hmmu] at heq
  by_cases hctx : c < model.contexts
  · exact pages_distinct husable (distinct_parseMemoryIni file) hconfigured hctx hslot hslot' heq
  · have hlt := ContextAccepted.lt (.inl hc)
    rw [← configure_straight husable htable (UInt8.not_lt.1 hctx) hlt hslot,
      ← configure_straight husable htable (UInt8.not_lt.1 hctx) hlt hslot']
    exact heq

/-- A board whose MMU RAM held zeros at power-up. -/
def zeroBoard : Machine := .bootBoard 0 0 0 (fun _ => 0) (fun _ => 0)

theorem twoContexts_configured :
    (configureMMUFromActiveModel twoContexts).result (.atSetup zeroBoard.mmuRam) = true := by
  decide +kernel

theorem twoContextsIni_isolated_iff : ∃ model,
    (parseMemoryIni twoContextsIni).2.findModel
      (parseMemoryIni twoContextsIni).2.active_model.val = some model ∧
    (Isolated (parseMemoryIni twoContextsIni).2 model
        ((configureMMUFromActiveModel (parseMemoryIni twoContextsIni).2).final
          (.atSetup zeroBoard.mmuRam)).mmu ↔
      FirstShared (parseMemoryIni twoContextsIni).2 model) :=
  isolated_iff_firstShared 0 0 0 _ _ twoContextsIni_parsed.1 (by
    rw [twoContextsIni_parsed.2]
    exact twoContexts_configured)

/-- The IO pages of context 0 are in slots of context 2, which both a request and a cartridge section may
name. -/
theorem twoContextsIni_not_isolated :
    (parseMemoryIni twoContextsIni).1 = .ok () ∧
      (configureMMUFromActiveModel (parseMemoryIni twoContextsIni).2).result
        (.atSetup zeroBoard.mmuRam) = true ∧
      ∃ model, (parseMemoryIni twoContextsIni).2.findModel
          (parseMemoryIni twoContextsIni).2.active_model.val = some model ∧
        ¬ Isolated (parseMemoryIni twoContextsIni).2 model
          ((configureMMUFromActiveModel (parseMemoryIni twoContextsIni).2).final
            (.atSetup zeroBoard.mmuRam)).mmu := by
  rw [twoContextsIni_parsed.2]
  refine ⟨twoContextsIni_parsed.1, twoContexts_configured, ⟨copyName (ascii "m"), 2⟩, by decide, ?_⟩
  intro hisolated
  refine hisolated 0 (by decide) 12 (by decide) ⟨copyName (ascii "io"), 12, 4, false, MemoryRegionType.MEMORY_REGION_IO, false⟩
    ⟨_, rfl, by decide, by decide⟩ rfl 2 (by decide) (.inl (by decide)) 12 (by decide) ?_
  decide +kernel

end NeoMmu
