import NeoMmu.Foundation.Run
import NeoMmu.Hardware.Mmu

/-!
# The MMU RAM as a table

The MMU driver is meant to behave as a table of pages indexed by context and entry. The context cache
always equals the context latch, but memory cycles move AREG without telling `gCurrentIndex`, so a
page call whose index is cached acts on whatever entry AREG happens to select.
-/

namespace NeoMmu

/-! ## Selecting an entry -/

namespace Machine

/-- The context cache is unset or equal to the latch. -/
def ContextCached (m : Machine) : Prop :=
  m.gCurrentContext = -1 ∨ m.gCurrentContext = m.ctxReg.toNat

/-- The entry index a page call for `vIndex` acts on. -/
def selected (m : Machine) (vIndex : UInt8) : UInt8 :=
  if (vIndex.toNat : Int) = m.gCurrentIndex then index m.areg else vIndex &&& 0x0F

end Machine

/-- The high latch after `writeMMUIndex` puts the low half of the index in AREG bits 15..12. -/
private theorem nibble_shift (v : UInt8) : ((v &&& 0x0F) <<< 4) >>> 4 = v &&& 0x0F := by
  apply UInt8.toNat_inj.1
  simp only [UInt8.toNat_shiftRight, UInt8.toNat_shiftLeft, UInt8.toNat_and, UInt8.toNat_ofNat,
    Nat.and_two_pow_sub_one_eq_mod v.toNat 4, Nat.shiftRight_eq_div_pow, Nat.shiftLeft_eq,
    Nat.reducePow, Nat.reduceMod]
  omega

theorem final_setMMUContext {m : Machine} (hc : m.ContextCached) (c : UInt8) :
    (setMMUContext c).final m = { m with ctxReg := c, gCurrentContext := c.toNat } := by
  simp only [setMMUContext, Prog.final_bind, Prog.final_get, Prog.result_get, Prog.final_ite]
  split
  · rfl
  · rename_i h
    have hm : (c.toNat : Int) = m.gCurrentContext := not_not.1 h
    rcases hc with hc | hc
    · omega
    · have hcr : m.ctxReg = c := UInt8.toNat_inj.1 (by omega)
      simp only [Prog.final_pure, ← hcr, ← hc]

theorem final_writeMMUIndex (m : Machine) (i : UInt8) :
    (writeMMUIndex i).final m =
      if (i.toNat : Int) = m.gCurrentIndex then m
      else { m with aregH := (i &&& 0x0F) <<< 4, gCurrentIndex := i.toNat } := by
  simp only [writeMMUIndex, Prog.final_bind, Prog.final_get, Prog.result_get, Prog.final_ite, ne_eq,
    ite_not, Prog.final_pure]
  rfl

/-- After selecting `(c, i)` the board addresses the entry `(c, m.selected i)`. -/
theorem entry_select {m : Machine} (hc : m.ContextCached) (c i : UInt8) :
    ((writeMMUIndex i).final ((setMMUContext c).final m)).entry = (c, m.selected i) := by
  rw [final_setMMUContext hc, final_writeMMUIndex]
  simp only [Machine.selected, Machine.entry, Machine.index_areg]
  split
  · rfl
  · rw [nibble_shift]

/-! ## The specification

The abstract machine is a table; only `writeMMUPage` changes it.
-/

/-- The driver calls the table is shared with. -/
inductive MmuCall
  | writeMMUPage (vContext vIndex vPage : UInt8)
  | readMMUPage (vContext vIndex : UInt8)
  | setMMUContext (vContext : UInt8)
  | read6502Memory (vAddress : UInt16)
  | write6502Memory (vAddress : UInt16) (vData : UInt8)
  deriving DecidableEq, Repr

/-- The pages of all contexts, indexed by context and entry. -/
abbrev MmuTable := UInt8 × UInt8 → UInt8

namespace MmuCall

/-- What the firmware runs for a call; a page read returns its byte. -/
def run : MmuCall → Prog Machine (Option UInt8)
  | .writeMMUPage c i v => do discard <| NeoMmu.writeMMUPage c i v; return none
  | .readMMUPage c i => do return some (← NeoMmu.readMMUPage c i)
  | .setMMUContext c => do NeoMmu.setMMUContext c; return none
  | .read6502Memory a => do discard <| NeoMmu.read6502Memory a; return none
  | .write6502Memory a v => do NeoMmu.write6502Memory a v; return none

/-- What a call does to the table. -/
def onTable : MmuCall → MmuTable → MmuTable
  | .writeMMUPage c i v, table => Function.update table (c, i) v
  | _, table => table

/-- The board after a call. -/
def next (m : Machine) (call : MmuCall) : Machine := call.run.final m

/-- The board and the reference table after a call. -/
def nextWithTable (s : Machine × MmuTable) (call : MmuCall) : Machine × MmuTable :=
  (next s.1 call, call.onTable s.2)

/-- A call acts on the board as it does on the table, and a page read returns the table's byte. -/
def Agrees (table : MmuTable) (m : Machine) (call : MmuCall) : Prop :=
  (next m call).mmuRam = call.onTable m.mmuRam ∧
    ∀ c i, call = .readMMUPage c i → call.run.result m = some (table (c, i))

/-- The entry a page call acts on is the one it names, or the difference does not show: a write finds
its value in both entries already, a read finds both equal. -/
def Hits (m : Machine) : MmuCall → Prop
  | .writeMMUPage c i v =>
    m.selected i = i ∨ (m.mmuRam (c, m.selected i) = v ∧ m.mmuRam (c, i) = v)
  | .readMMUPage c i => m.selected i = i ∨ m.mmuRam (c, m.selected i) = m.mmuRam (c, i)
  | _ => True

end MmuCall

/-- From `m` on, every call acts on the MMU RAM as on a table, and every page read returns the byte
last written to its entry (or the one the MMU RAM held at the start). -/
def BehavesAsTable (m : Machine) (calls : List MmuCall) : Prop :=
  Run.AtEveryStep MmuCall.nextWithTable (fun s call => call.Agrees s.2 s.1) (m, m.mmuRam) calls

/-! ## When the driver is a table -/

/-- A single changed entry is the same table change as another one only where nothing changes. -/
private theorem update_eq_update_iff {table : MmuTable} {k l : UInt8 × UInt8} (v : UInt8) :
    Function.update table k v = Function.update table l v ↔ k = l ∨ (table k = v ∧ table l = v) := by
  constructor
  · intro h
    by_cases hkl : k = l
    · exact .inl hkl
    · have hk := congrFun h k
      have hl := congrFun h l
      rw [Function.update_self, Function.update_of_ne hkl] at hk
      rw [Function.update_self, Function.update_of_ne (Ne.symm hkl)] at hl
      exact .inr ⟨hk.symm, hl⟩
  · rintro (rfl | ⟨hk, hl⟩)
    · rfl
    · have hk' : Function.update table k v = table := by rw [← hk, Function.update_eq_self]
      have hl' : Function.update table l v = table := by rw [← hl, Function.update_eq_self]
      rw [hk', hl']

/-- What the driver's calls rely on and keep: RP control and a context cache equal to the latch. -/
structure Machine.RpReady (m : Machine) : Prop where
  mode : m.gControlMode = .mRPI
  cached : m.ContextCached

section Step

variable {m : Machine}

theorem mmuRam_select (hm : m.RpReady) (c i : UInt8) :
    ((writeMMUIndex i).final ((setMMUContext c).final m)).mmuRam = m.mmuRam := by
  rw [final_setMMUContext hm.cached, final_writeMMUIndex]
  split <;> rfl

theorem rpReady_select (hm : m.RpReady) (c i : UInt8) :
    ((writeMMUIndex i).final ((setMMUContext c).final m)).RpReady := by
  rw [final_setMMUContext hm.cached, final_writeMMUIndex]
  split
  · exact ⟨hm.mode, .inr rfl⟩
  · exact ⟨hm.mode, .inr rfl⟩

theorem mmuRam_writeMMUPage (hm : m.RpReady) (c i v : UInt8) :
    ((writeMMUPage c i v).final m).mmuRam = Function.update m.mmuRam (c, m.selected i) v := by
  simp only [writeMMUPage, Prog.final_bind, Prog.final_modify, Prog.final_pure]
  rw [entry_select hm.cached, mmuRam_select hm]

theorem result_readMMUPage (hm : m.RpReady) (c i : UInt8) :
    (readMMUPage c i).result m = m.mmuRam (c, m.selected i) := by
  simp only [readMMUPage, Prog.result_bind, Prog.result_gets]
  rw [entry_select hm.cached, mmuRam_select hm]

theorem rpReady_next (hm : m.RpReady) (call : MmuCall) : (MmuCall.next m call).RpReady := by
  cases call with
  | writeMMUPage c i v =>
    obtain ⟨hmode, hc⟩ := rpReady_select hm c i
    exact ⟨hmode, hc⟩
  | readMMUPage c i => exact rpReady_select hm c i
  | setMMUContext c =>
    change ((setMMUContext c).final m).RpReady
    rw [final_setMMUContext hm.cached]
    exact ⟨hm.mode, .inr rfl⟩
  | read6502Memory a =>
    change ((read6502Memory a).final m).RpReady
    rw [final_read6502Memory hm.mode]
    exact ⟨hm.mode, hm.cached⟩
  | write6502Memory a v =>
    change ((write6502Memory a v).final m).RpReady
    rw [final_write6502Memory hm.mode]
    exact ⟨hm.mode, hm.cached⟩

/-- One call agrees with the table exactly when it hits the entry it names. -/
theorem agrees_iff_hits (hm : m.RpReady) (call : MmuCall) :
    call.Agrees m.mmuRam m ↔ MmuCall.Hits m call := by
  cases call with
  | writeMMUPage c i v =>
    have hrun : (MmuCall.next m (MmuCall.writeMMUPage c i v)).mmuRam =
        Function.update m.mmuRam (c, m.selected i) v := mmuRam_writeMMUPage hm c i v
    simp only [MmuCall.Agrees, MmuCall.Hits, MmuCall.onTable, hrun, update_eq_update_iff,
      Prod.mk.injEq, true_and, reduceCtorEq, false_implies, implies_true, and_true]
  | readMMUPage c i =>
    have hram : (MmuCall.next m (MmuCall.readMMUPage c i)).mmuRam = m.mmuRam := mmuRam_select hm c i
    have hres : (MmuCall.readMMUPage c i).run.result m = some (m.mmuRam (c, m.selected i)) :=
      congrArg some (result_readMMUPage hm c i)
    simp only [MmuCall.Agrees, MmuCall.Hits, MmuCall.onTable, hram, hres, true_and]
    constructor
    · intro h
      exact .inr (Option.some.inj (h c i rfl))
    · rintro h c' i' hci
      obtain ⟨rfl, rfl⟩ := MmuCall.readMMUPage.inj hci
      rcases h with h | h
      · rw [h]
      · rw [h]
  | setMMUContext c =>
    have hram : (MmuCall.next m (MmuCall.setMMUContext c)).mmuRam = m.mmuRam := by
      change ((setMMUContext c).final m).mmuRam = _
      rw [final_setMMUContext hm.cached]
    simp [MmuCall.Agrees, MmuCall.Hits, MmuCall.onTable, hram]
  | read6502Memory a =>
    have hram : (MmuCall.next m (MmuCall.read6502Memory a)).mmuRam = m.mmuRam := by
      change ((read6502Memory a).final m).mmuRam = _
      rw [final_read6502Memory hm.mode]
      rfl
    simp [MmuCall.Agrees, MmuCall.Hits, MmuCall.onTable, hram]
  | write6502Memory a v =>
    have hram : (MmuCall.next m (MmuCall.write6502Memory a v)).mmuRam = m.mmuRam := by
      change ((write6502Memory a v).final m).mmuRam = _
      rw [final_write6502Memory hm.mode]
      rfl
    simp [MmuCall.Agrees, MmuCall.Hits, MmuCall.onTable, hram]

end Step

theorem rpReady_setup6502 (aregH aregL ctxReg : UInt8) (table : MmuTable)
    (ram : UInt8 × UInt16 → UInt8) : (Machine.setup6502 aregH aregL ctxReg table ram).RpReady :=
  ⟨rfl, .inl rfl⟩

/-- From power-up on, a run of driver calls and memory cycles behaves as a table exactly when every
page call hits its entry: the call's index is not the cached one, or AREG still selects it, or the
entry AREG selects instead makes no difference. -/
theorem behavesAsTable_iff_hits (aregH aregL ctxReg : UInt8) (table : MmuTable)
    (ram : UInt8 × UInt16 → UInt8) (calls : List MmuCall) :
    BehavesAsTable (Machine.setup6502 aregH aregL ctxReg table ram) calls ↔
      Run.AtEveryStep MmuCall.next MmuCall.Hits
        (Machine.setup6502 aregH aregL ctxReg table ram) calls := by
  have hfst : ∀ s call, (MmuCall.nextWithTable s call).1 = MmuCall.next s.1 call := fun _ _ => rfl
  refine Iff.trans ?_ (Run.atEveryStep_map Prod.fst hfst
    (Machine.setup6502 aregH aregL ctxReg table ram, table) calls)
  -- Along the run the reference table equals the MMU RAM as long as every call agrees with it.
  refine Run.atEveryStep_congr (I := fun s : Machine × MmuTable => s.1.RpReady ∧ s.2 = s.1.mmuRam)
    ?_ ?_ ⟨rpReady_setup6502 .., rfl⟩
  · rintro s call ⟨hm, ht⟩ hagree
    refine ⟨rpReady_next hm call, ?_⟩
    rw [MmuCall.nextWithTable, ht]
    exact hagree.1.symm
  · rintro s call ⟨hm, ht⟩
    rw [ht]
    exact agrees_iff_hits hm call

/-- A memory read between two writes of the same entry sends the second write to the entry the read
left in AREG. -/
theorem not_behavesAsTable_after_read :
    ¬ BehavesAsTable (Machine.setup6502 0 0 0 (fun _ => 0) (fun _ => 0))
      [.writeMMUPage 0 3 5, .read6502Memory 0x5000, .writeMMUPage 0 3 7] := by
  intro h
  have hlast := (h [.writeMMUPage 0 3 5, .read6502Memory 0x5000] (.writeMMUPage 0 3 7) [] rfl).1
  have hentry := congrFun hlast (0, 3)
  revert hentry
  decide

end NeoMmu
