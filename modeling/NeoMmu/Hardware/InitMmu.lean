import NeoMmu.Hardware.System

/-!
# The table that `initMMU()` leaves

While no memory cycle comes between its calls, the MMU driver is a table: AREG still selects the entry
whose index is cached. `initMMU()` leaves every context mapped straight, and the board in that state.
-/

namespace NeoMmu

/-- AREG selects the entry whose index is cached. -/
structure Machine.Synced (m : Machine) : Prop extends m.RpReady where
  index : m.gCurrentIndex = -1 ∨ m.gCurrentIndex = (Machine.index m.areg).toNat

section Write

variable {m : Machine}

theorem Machine.Synced.selected_eq (hm : m.Synced) {i : UInt8} (hi : i < 16) : m.selected i = i := by
  unfold Machine.selected
  split
  · rename_i hcached
    rcases hm.index with hindex | hindex
    · omega
    · exact UInt8.toNat_inj.1 (by omega)
  · rw [UInt8.lt_iff_toNat_lt] at hi
    refine UInt8.toNat_inj.1 ?_
    rw [UInt8.toNat_and]
    exact (Nat.and_two_pow_sub_one_eq_mod i.toNat 4).trans (Nat.mod_eq_of_lt hi)

/-- A write to a synced board changes its entry, and leaves the board synced. -/
theorem Machine.Synced.writeMMUPage (hm : m.Synced) (c : UInt8) {i : UInt8} (hi : i < 16) (v : UInt8) :
    ((writeMMUPage c i v).final m).mmuRam = Function.update m.mmuRam (c, i) v ∧
      ((writeMMUPage c i v).final m).Synced := by
  have hentry := entry_select hm.cached c i
  rw [hm.selected_eq hi] at hentry
  refine ⟨?_, rpReady_next hm.toRpReady (.writeMMUPage c i v), .inr ?_⟩
  · rw [mmuRam_writeMMUPage hm.toRpReady, hm.selected_eq hi]
  · have hareg : Machine.index ((NeoMmu.writeMMUPage c i v).final m).areg = i := (Prod.mk.inj hentry).2
    have hcache : ((NeoMmu.writeMMUPage c i v).final m).gCurrentIndex = i.toNat := by
      simp only [NeoMmu.writeMMUPage, Prog.final_bind, Prog.final_modify, Prog.final_pure]
      rw [final_writeMMUIndex]
      split
      · exact Eq.symm ‹_›
      · rfl
    rw [hareg, hcache]

end Write

/-! ## The default mapping -/

/-- The entry of a slot in the default mapping. -/
def defaultPage (slot : UInt8) : UInt8 := gDefaultMMU.getD slot.toNat 0

/-- The entry holds its default page. -/
def Machine.Straight (entry : UInt8 × UInt8) (m : Machine) : Prop := m.mmuRam entry = defaultPage entry.2

/-- The elements of `gDefaultMMU`, with the indices `defMMUContext()` writes them to. -/
theorem mem_default {vPage : UInt8} {lPage : Nat} :
    (vPage, lPage) ∈ gDefaultMMU.zipIdx.take NUM_CONTEXT_PAGES ↔
      lPage < 16 ∧ vPage = defaultPage (UInt8.ofNat lPage) := by
  have htake : gDefaultMMU.zipIdx.take NUM_CONTEXT_PAGES = gDefaultMMU.zipIdx := by decide
  have hindex : lPage < 16 → (UInt8.ofNat lPage).toNat = lPage := fun h =>
    UInt8.toNat_ofNat_of_lt' (Nat.lt_trans h (by decide))
  rw [htake, List.mk_mem_zipIdx_iff_getElem?]
  constructor
  · intro hpage
    have hlt : lPage < 16 := (List.getElem?_eq_some_iff.1 hpage).1
    refine ⟨hlt, ?_⟩
    rw [defaultPage, hindex hlt, List.getD_eq_getElem?_getD, hpage]
    rfl
  · rintro ⟨hlt, rfl⟩
    have hlength : lPage < gDefaultMMU.length := hlt
    rw [defaultPage, hindex hlt, List.getD_eq_getElem?_getD, List.getElem?_eq_getElem hlength]
    rfl

/-- Writing a default page leaves every other entry that holds its own alone. -/
theorem Machine.Synced.writeDefault {m : Machine} (hm : m.Synced) (c : UInt8) {slot : UInt8}
    (hslot : slot < 16) :
    ((NeoMmu.writeMMUPage c slot (defaultPage slot)).final m).Synced ∧
      ((NeoMmu.writeMMUPage c slot (defaultPage slot)).final m).Straight (c, slot) ∧
      ∀ entry, m.Straight entry →
        ((NeoMmu.writeMMUPage c slot (defaultPage slot)).final m).Straight entry := by
  obtain ⟨htable, hsynced⟩ := hm.writeMMUPage c hslot (defaultPage slot)
  refine ⟨hsynced, ?_, fun entry hentry => ?_⟩
  · rw [Straight, htable, Function.update_self]
  · rw [Straight, htable, Function.update_apply]
    split
    · rename_i heq
      rw [heq]
    · exact hentry

theorem defMMUContext_default (c : UInt8) {m : Machine} (hm : m.Synced) :
    ((defMMUContext c gDefaultMMU).final m).Synced ∧
      (∀ entry, m.Straight entry → ((defMMUContext c gDefaultMMU).final m).Straight entry) ∧
      ∀ slot < 16, ((defMMUContext c gDefaultMMU).final m).Straight (c, slot) := by
  have hwrite : ∀ a ∈ gDefaultMMU.zipIdx.take NUM_CONTEXT_PAGES, ∀ m : Machine, m.Synced →
      let m' := (writeMMUPage c (UInt8.ofNat a.2) a.1).final m
      m'.Synced ∧ m'.Straight (c, UInt8.ofNat a.2) ∧ ∀ entry, m.Straight entry → m'.Straight entry := by
    rintro ⟨vPage, lPage⟩ ha m hm
    obtain ⟨hlt, rfl⟩ := mem_default.1 ha
    refine hm.writeDefault c (UInt8.lt_iff_toNat_lt.2 ?_)
    rw [UInt8.toNat_ofNat_of_lt' (Nat.lt_trans hlt (by decide))]
    exact hlt
  have hmem : ∀ slot : UInt8, slot < 16 →
      (defaultPage slot, slot.toNat) ∈ gDefaultMMU.zipIdx.take NUM_CONTEXT_PAGES := fun slot hslot =>
    mem_default.2 ⟨UInt8.lt_iff_toNat_lt.1 hslot, by rw [UInt8.ofNat_toNat]⟩
  simp only [defMMUContext, Prog.final_bind, Prog.final_pure]
  generalize gDefaultMMU.zipIdx.take NUM_CONTEXT_PAGES = entries at hwrite hmem
  obtain ⟨hsynced, hkept, hstraight⟩ := Prog.mapM_post (I := Machine.Synced)
    (P := fun entry m => m.Straight entry) (i := fun a => (c, UInt8.ofNat a.2))
    (fun a ha s hs => (hwrite a ha s hs).1) (fun a ha s hs => (hwrite a ha s hs).2.1)
    (fun a ha entry s hs => (hwrite a ha s hs).2.2 entry) hm
  refine ⟨hsynced, hkept, fun slot hslot => ?_⟩
  have hentry := hstraight _ (hmem slot hslot)
  rwa [UInt8.ofNat_toNat] at hentry

/-! ## Starting up -/

/-- The board behind `init6502()` and `initMMU()`. -/
def Machine.bootBoard (aregH aregL ctxReg : UInt8) (table : MmuTable) (ram : UInt8 × UInt16 → UInt8) :
    Machine :=
  (do init6502; discard initMMU : Prog Machine Unit).final (.setup6502 aregH aregL ctxReg table ram)

/-- What `initMMU()` does behind its loop. -/
theorem Machine.Synced.enable {m : Machine} (hm : m.Synced) (ok : Bool) :
    let m' := (do
      setMMUContext DEFAULT_CONTEXT
      if ok then
        enableMMUInterrupt
      return ok : Prog Machine Bool).final m
    m'.Synced ∧ m'.mmuRam = m.mmuRam := by
  cases ok
  · simp only [Prog.final_bind, final_setMMUContext hm.cached]
    exact ⟨⟨⟨hm.mode, .inr rfl⟩, hm.index⟩, rfl⟩
  · simp only [Prog.final_bind, final_setMMUContext hm.cached]
    exact ⟨⟨⟨hm.mode, .inr rfl⟩, hm.index⟩, rfl⟩

/-- Whatever the MMU RAM held at power-up, every context is mapped straight now. -/
theorem Machine.straight_bootBoard (aregH aregL ctxReg : UInt8) (table : MmuTable)
    (ram : UInt8 × UInt16 → UInt8) :
    (bootBoard aregH aregL ctxReg table ram).Synced ∧ ∀ c < 128, ∀ slot < 16,
      (bootBoard aregH aregL ctxReg table ram).Straight (c, slot) := by
  have hstart : ((do init6502; disableMMUInterrupt : Prog Machine Unit).final
      (.setup6502 aregH aregL ctxReg table ram)).Synced :=
    ⟨⟨rfl, .inl rfl⟩, .inl rfl⟩
  simp only [bootBoard, initMMU, Prog.final_bind, Prog.final_discard] at hstart ⊢
  generalize disableMMUInterrupt.final _ = m at hstart ⊢
  obtain ⟨hsynced, -, hstraight⟩ := Prog.mapM_post (I := Machine.Synced) (i := id)
    (P := fun lContext m => ∀ slot < 16, m.Straight (UInt8.ofNat lContext, slot))
    (l := List.range NUM_CONTEXTS) (f := fun lContext => defMMUContext (UInt8.ofNat lContext) gDefaultMMU)
    (fun c _ s hs => (defMMUContext_default _ hs).1) (fun c _ s hs => (defMMUContext_default _ hs).2.2)
    (fun c _ j s hs hj slot hslot => (defMMUContext_default _ hs).2.1 _ (hj slot hslot)) hstart
  generalize List.mapM (m := Prog Machine) _ (List.range NUM_CONTEXTS) = fill at hsynced hstraight ⊢
  generalize fill.final m = m₁ at hsynced hstraight ⊢
  obtain ⟨hsynced', htable⟩ := hsynced.enable ((fill.result m).all id)
  simp only [Prog.final_bind] at hsynced' htable
  refine ⟨hsynced', fun c hc slot hslot => ?_⟩
  have hentry := hstraight c.toNat (List.mem_range.2 (UInt8.lt_iff_toNat_lt.1 hc)) slot hslot
  rw [id, UInt8.ofNat_toNat] at hentry
  rw [Straight, htable]
  exact hentry

end NeoMmu
