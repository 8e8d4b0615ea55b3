import NeoMmu.Memory.Parse

/-!
# What validation establishes

In a configuration that `validateConfig()` accepts, every context of the active model has a layout, and
the regions of a layout tile the sixteen slots: every slot lies in exactly one of them.
-/

namespace NeoMmu

/-! ## Checks that succeed -/

section Except

variable {ε α β : Type}

theorem except_bind_ok {x : Except ε α} {f : α → Except ε β} {b : β} :
    (x >>= f) = .ok b ↔ ∃ a, x = .ok a ∧ f a = .ok b := by
  cases x <;> simp [bind, Except.bind]

theorem except_throw_bind {e : ε} {f : α → Except ε β} : (throw e >>= f) = throw e := rfl

/-- A guard in front of the rest is passed when its condition fails. -/
theorem except_guard_ok {c : Prop} [Decidable c] {e : ε} {rest : Except ε β} {b : β} :
    (if c then throw e else rest) = .ok b ↔ ¬ c ∧ rest = .ok b := by
  by_cases hc : c
  · simp [hc, throw, throwThe, MonadExceptOf.throw]
  · simp [hc]

theorem except_forM_ok {f : α → Except ε Unit} {l : List α} {u : Unit} :
    l.forM f = .ok u ↔ ∀ a ∈ l, f a = .ok () := by
  induction l with
  | nil => simp [List.forM, pure, Except.pure]
  | cons a l ih =>
    rw [show (a :: l).forM f = (f a >>= fun _ => l.forM f) from rfl, except_bind_ok,
      List.forall_mem_cons, ← ih]
    constructor
    · rintro ⟨⟨⟩, ha, hl⟩
      exact ⟨ha, hl⟩
    · rintro ⟨ha, hl⟩
      exact ⟨(), ha, hl⟩

end Except

/-! ## Layouts -/

theorem MemoryLayoutRegion.covers_iff {region : MemoryLayoutRegion} {slot : UInt8} :
    region.covers slot = true ↔
      region.start.toNat ≤ slot.toNat ∧ slot.toNat < region.start.toNat + region.pages.toNat := by
  simp [covers, UInt8.le_iff_toNat_le]

/-- The regions of a layout are nonempty ranges of slots that tile the sixteen slots. -/
structure MemoryLayout.Tiles (layout : MemoryLayout) : Prop where
  range : ∀ region ∈ layout.regions,
    0 < region.pages.toNat ∧ region.start.toNat + region.pages.toNat ≤ 16
  disjoint : layout.regions.Pairwise fun a b =>
    ∀ slot, a.covers slot = true → b.covers slot = false
  complete : ∀ slot : UInt8, slot < 16 → ∃ region ∈ layout.regions, region.covers slot = true

theorem isValidRegionRange_iff {reg : MemoryLayoutRegion} : isValidRegionRange reg = true ↔
    0 < reg.pages.toNat ∧ reg.start.toNat + reg.pages.toNat ≤ 16 := by
  have hpages := reg.pages.toNat_lt
  have hstart := reg.start.toNat_lt
  simp only [isValidRegionRange, ← UInt8.toNat_inj, UInt8.le_iff_toNat_le, UInt16.lt_iff_toNat_lt,
    UInt16.toNat_add, UInt8.toNat_toUInt16, UInt8.reduceToNat, UInt16.reduceToNat]
  split_ifs <;> simp <;> omega

/-- Ranges that pass the overlap test, which wraps at 256, share no slot. -/
private theorem disjoint_of_not_overlap {a b : MemoryLayoutRegion}
    (ha : a.start.toNat + a.pages.toNat ≤ 16) (hb : b.start.toNat + b.pages.toNat ≤ 16)
    (h : (a.start < b.start + b.pages && b.start < a.start + a.pages) = false) (slot : UInt8)
    (hslot : a.covers slot = true) : b.covers slot = false := by
  rw [MemoryLayoutRegion.covers_iff] at hslot
  rw [Bool.eq_false_iff, Ne, MemoryLayoutRegion.covers_iff]
  simp only [Bool.and_eq_false_iff, decide_eq_false_iff_not, UInt8.lt_iff_toNat_lt,
    UInt8.toNat_add] at h
  omega

theorem pairwise_disjoint_of_layoutHasOverlaps {regions : List MemoryLayoutRegion}
    (hrange : ∀ region ∈ regions, region.start.toNat + region.pages.toNat ≤ 16)
    (h : layoutHasOverlaps regions = false) :
    regions.Pairwise fun a b => ∀ slot, a.covers slot = true → b.covers slot = false := by
  induction regions with
  | nil => exact List.Pairwise.nil
  | cons a rest ih =>
    rw [layoutHasOverlaps, Bool.or_eq_false_iff, List.any_eq_false] at h
    rw [List.forall_mem_cons] at hrange
    refine List.pairwise_cons.2 ⟨fun b hb => ?_, ih hrange.2 h.2⟩
    exact disjoint_of_not_overlap hrange.1 (hrange.2 b hb) (Bool.eq_false_iff.2 (h.1 b hb))

theorem complete_of_layoutIsComplete {layout : MemoryLayout} (h : layoutIsComplete layout = true)
    {slot : UInt8} (hslot : slot < 16) : ∃ region ∈ layout.regions, region.covers slot = true := by
  have hall := List.all_eq_true.1 h slot (mem_bytesBelow.2 hslot)
  obtain ⟨region, hregion, hany⟩ := List.any_eq_true.1 hall
  obtain ⟨p, hp, heq⟩ := List.any_eq_true.1 hany
  rw [mem_bytesBelow, UInt8.lt_iff_toNat_lt] at hp
  rw [decide_eq_true_iff] at heq
  exact ⟨region, hregion, MemoryLayoutRegion.covers_iff.2 (by omega)⟩

theorem tiles_of_validateLayout {cfg : MemoryConfig} {layout : MemoryLayout}
    (h : validateLayout cfg layout = .ok ()) : layout.Tiles := by
  unfold validateLayout at h
  simp only [except_throw_bind, except_guard_ok, except_bind_ok, except_forM_ok] at h
  obtain ⟨-, -, ⟨⟩, hrange, hoverlap, hcomplete, -⟩ := h
  have hranges : ∀ region ∈ layout.regions,
      0 < region.pages.toNat ∧ region.start.toNat + region.pages.toNat ≤ 16 := by
    intro region hregion
    have hvalid := (hrange region hregion).1
    exact isValidRegionRange_iff.1 (by simpa using hvalid)
  refine ⟨hranges, ?_, fun slot hslot => complete_of_layoutIsComplete ?_ hslot⟩
  · exact pairwise_disjoint_of_layoutHasOverlaps (fun region hregion => (hranges region hregion).2)
      (Bool.eq_false_iff.2 hoverlap)
  · simpa using hcomplete

/-- A slot lies in exactly one region of a tiling layout. -/
theorem MemoryLayout.Tiles.covers_unique {layout : MemoryLayout} (h : layout.Tiles) {slot : UInt8}
    {a b : MemoryLayoutRegion} (ha : a ∈ layout.regions) (hb : b ∈ layout.regions)
    (hca : a.covers slot = true) (hcb : b.covers slot = true) : a = b := by
  obtain ⟨i, hi, rfl⟩ := List.mem_iff_getElem.1 ha
  obtain ⟨j, hj, rfl⟩ := List.mem_iff_getElem.1 hb
  have hdisjoint := List.pairwise_iff_getElem.1 h.disjoint
  rcases lt_trichotomy i j with hij | rfl | hij
  · exact absurd hcb (by simp [hdisjoint i j hi hj hij slot hca])
  · rfl
  · exact absurd hca (by simp [hdisjoint j i hj hi hij slot hcb])

/-- The first region found to cover a slot is the one that covers it. -/
theorem MemoryLayout.Tiles.find?_covers {layout : MemoryLayout} (h : layout.Tiles) {slot : UInt8}
    {region : MemoryLayoutRegion} (hmem : region ∈ layout.regions)
    (hcovers : region.covers slot = true) :
    layout.regions.find? (·.covers slot) = some region := by
  cases hfind : layout.regions.find? (·.covers slot) with
  | none => exact absurd hcovers (by simpa using List.find?_eq_none.1 hfind region hmem)
  | some r =>
    have hr : r.covers slot = true := by simpa using List.find?_some hfind
    rw [h.covers_unique (List.mem_of_find?_eq_some hfind) hmem hr hcovers]

/-! ## The configuration -/

/-- What the passes of the MMU configuration rely on. -/
structure MemoryConfig.Usable (cfg : MemoryConfig) (model : MemoryModel) : Prop where
  active : cfg.findModel cfg.active_model.val = some model
  contexts_le : model.contexts ≤ 16
  contexts_ne : model.contexts ≠ 0
  layout : ∀ ctx < model.contexts,
    ∃ layout, cfg.resolveLayoutForContext model ctx = some layout ∧ layout.Tiles

/-- What `validateConfig()` has checked of a configuration it accepts. -/
structure MemoryConfig.Validated (cfg : MemoryConfig) (model : MemoryModel) : Prop where
  active : cfg.findModel cfg.active_model.val = some model
  boot_context : cfg.boot_context < model.contexts
  contexts : ∀ m ∈ cfg.models, 1 ≤ m.contexts ∧ m.contexts ≤ 16
  layouts : ∀ layout ∈ cfg.layouts, validateLayout cfg layout = .ok ()
  bindings : ∀ ctx < model.contexts, validateContext cfg model ctx = .ok ()

theorem validated_of_validateConfig {cfg : MemoryConfig} (h : validateConfig cfg = .ok ()) :
    ∃ active, cfg.Validated active := by
  unfold validateConfig at h
  simp only [except_throw_bind, except_guard_ok] at h
  obtain ⟨-, -, h⟩ := h
  split at h
  · cases h
  rename_i active hactive
  simp only [except_guard_ok, except_bind_ok, except_forM_ok] at h
  obtain ⟨hboot, ⟨⟩, hmodels, ⟨⟩, hlayouts, hcontexts⟩ := h
  refine ⟨active, hactive, UInt8.not_le.1 hboot, fun model hmem => ?_, hlayouts, fun ctx hctx => ?_⟩
  · have hmodel := (hmodels model hmem).1
    rw [not_or, UInt8.not_lt] at hmodel
    refine ⟨?_, hmodel.2⟩
    rw [UInt8.le_iff_toNat_le]
    exact Nat.one_le_iff_ne_zero.2 fun hzero => hmodel.1 (UInt8.toNat_inj.1 hzero)
  · exact hcontexts ctx (mem_bytesBelow.2 hctx)

/-- A context that passes its check is bound to a layout of its model. -/
theorem binding_of_validateContext {cfg : MemoryConfig} {active : MemoryModel} {ctx : UInt8}
    (h : validateContext cfg active ctx = .ok ()) : ∃ binding layout,
      cfg.findContextBinding active.name.val ctx = some binding ∧
        cfg.findLayout active.name.val binding.layout.val = some layout := by
  unfold validateContext at h
  split at h
  · cases h
  rename_i binding hbinding
  cases hlayout : cfg.findLayout active.name.val binding.layout.val with
  | none =>
    rw [hlayout] at h
    cases h
  | some layout => exact ⟨binding, layout, hbinding, hlayout⟩

theorem usable_of_validateConfig {cfg : MemoryConfig} (h : validateConfig cfg = .ok ()) :
    ∃ model, cfg.Usable model := by
  obtain ⟨model, hvalid⟩ := validated_of_validateConfig h
  obtain ⟨hpos, hle⟩ := hvalid.contexts model (List.mem_of_find?_eq_some hvalid.active)
  refine ⟨model, hvalid.active, hle, ?_, fun ctx hctx => ?_⟩
  · rintro hzero
    rw [hzero] at hpos
    cases hpos
  · obtain ⟨binding, layout, hbinding, hlayout⟩ := binding_of_validateContext (hvalid.bindings ctx hctx)
    refine ⟨layout, ?_, tiles_of_validateLayout (hvalid.layouts layout (List.mem_of_find?_eq_some hlayout))⟩
    simp only [MemoryConfig.resolveLayoutForContext, hbinding, hlayout]

/-- A file that is accepted leaves a configuration that validation accepts. -/
theorem validateConfig_of_parseMemoryIni {file : List UInt8} (h : (parseMemoryIni file).1 = .ok ()) :
    validateConfig (parseMemoryIni file).2 = .ok () := by
  have hget : ∀ st : ParseState, (get : Parser ParseState).run.result st = .ok st ∧
      (get : Parser ParseState).run.final st = st := fun st => ⟨rfl, rfl⟩
  simp only [parseMemoryIni, Parser.parse, ExceptT.run_bind, Prog.result_bind, Prog.final_bind] at h ⊢
  generalize (ExceptT.run ((readLines file).forM Parser.readBuffer)).final .initial = st at h ⊢
  split at h
  · simp only [Prog.result_bind, Prog.final_bind, hget] at h ⊢
    split at h
    · cases h
    · simpa using ‹validateConfig st.cfg = .ok ()›
  · cases h

end NeoMmu
