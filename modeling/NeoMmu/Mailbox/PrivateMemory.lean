import NeoMmu.Mailbox.BootContext
import NeoMmu.Mailbox.ContextSwitch
import NeoMmu.Memory.Isolation

/-!
# Private memory

The firmware works in the memory that the context in force selects, and a filesystem request in that of the context
it names. What none of the contexts `C` selects therefore stays as it is in every run of `loop()` that keeps to `C`:
where the switches, the requests and the bulk transfer test of the monitor name contexts of `C`, and the 6502 stores
through its own mapping. Where the contexts of a model are isolated, this is so for the private pages of each of them.
-/

namespace NeoMmu

variable {σ α : Type}

/-! ## Boards that stay apart from some cells -/

/-- The contexts of `C` select no cell of `P`. -/
def Machine.View.Hides (v : Machine.View) (C : Set UInt8) (P : Set (UInt8 × UInt16)) : Prop :=
  ∀ c ∈ C, ∀ a, (v.select c).physAddr a ∉ P

/-- The board is in a context of `C`, and these select no cell of `P`. -/
structure Machine.Apart (C : Set UInt8) (P : Set (UInt8 × UInt16)) (m : Machine) : Prop where
  steady : m.Steady
  context : m.ctxReg ∈ C
  hides : m.view.Hides C P

/-- A board that is apart from `P` stays so, with the same entries and the same bytes in `P`. -/
def LeavesAlone (C : Set UInt8) (P : Set (UInt8 × UInt16)) (m m' : Machine) : Prop :=
  m.Apart C P → m'.Apart C P ∧ m'.mmuRam = m.mmuRam ∧ ∀ cell ∈ P, m'.ram cell = m.ram cell

section Board

variable {C : Set UInt8} {P : Set (UInt8 × UInt16)} {m m' : Machine}

instance : Std.Refl (LeavesAlone C P) where
  refl _ h := ⟨h, rfl, fun _ _ => rfl⟩

instance : IsTrans Machine (LeavesAlone C P) where
  trans m m' m'' h h' hm := by
    obtain ⟨hm', hmmu, hram⟩ := h hm
    obtain ⟨hm'', hmmu', hram'⟩ := h' hm'
    exact ⟨hm'', hmmu'.trans hmmu, fun cell hcell => (hram' cell hcell).trans (hram cell hcell)⟩

/-- The address of a context of `C` is not in `P`. -/
theorem Machine.Apart.physAddr_notMem (h : m.Apart C P) (a : UInt16) : m.view.physAddr a ∉ P :=
  h.hides m.ctxReg h.context a

theorem Machine.Apart.of_mmuRam (h : m.Apart C P) (hsteady : m'.Steady) (hmmu : m'.mmuRam = m.mmuRam)
    (hcontext : m'.ctxReg ∈ C) : m'.Apart C P := by
  refine ⟨hsteady, hcontext, fun c hc a => ?_⟩
  have hcell : (m'.view.select c).physAddr a = (m.view.select c).physAddr a :=
    congrArg (fun mmu : UInt8 × UInt8 → UInt8 => (mmu (c, Machine.index a) &&& 0x7F, a &&& 0x0FFF)) hmmu
  rw [hcell]
  exact h.hides c hc a

/-- Other bytes outside of `P`, in a context of `C`. -/
theorem leavesAlone_of_view {ram : UInt8 × UInt16 → UInt8} {s : SysState} (hsettled : m.Settled → m'.Settled)
    (hview : m.Settled → m'.view = { m.view with ram := ram, gSysState := s })
    (hram : m.Apart C P → ∀ cell ∈ P, ram cell = m.ram cell) : LeavesAlone C P m m' := by
  intro h
  have hview' := hview h.steady.settled
  have hmmu : m'.mmuRam = m.mmuRam := congrArg Machine.View.mmuRam hview'
  have hreg : m'.ctxReg = m.ctxReg := congrArg Machine.View.ctxReg hview'
  have hbytes : m'.ram = ram := congrArg Machine.View.ram hview'
  have hsteady := h.steady.of_view (hsettled h.steady.settled) hview'
  refine ⟨h.of_mmuRam hsteady hmmu (hreg ▸ h.context), hmmu, fun cell hcell => ?_⟩
  rw [hbytes]
  exact hram h cell hcell

/-- Writes in the context in force. -/
theorem leavesAlone_of_writes (ws : List (UInt16 × UInt8))
    (h : m.Settled → m'.view = m.view.writes ws ∧ m'.Settled) : LeavesAlone C P m m' := by
  refine leavesAlone_of_view (fun hm => (h hm).2)
    (fun hm => (h hm).1.trans (Machine.View.writes_eq_self m.view ws)) fun happart cell hcell => ?_
  refine m.view.ram_writes_of_ne fun w _ heq => ?_
  exact happart.physAddr_notMem w.1 (heq ▸ hcell)

/-- No change of what software sees. -/
theorem leavesAlone_of_same (h : m.Settled → m'.view = m.view ∧ m'.Settled) : LeavesAlone C P m m' :=
  leavesAlone_of_writes [] h

theorem leavesAlone_snoopCall (call : SnoopCall) : Prog.Keeps (LeavesAlone C P) call.run := by
  intro m
  cases call with
  | readLoc a => exact leavesAlone_of_same fun hm => (snoopRead6502MemoryLoc_spec hm a).2
  | read a n => exact leavesAlone_of_same fun hm => (snoopRead6502Memory_spec hm a n).2
  | writeLoc a b => exact leavesAlone_of_writes [(a, b)] fun hm => snoopWrite6502MemoryLoc_spec hm a b
  | write a bs => exact leavesAlone_of_writes _ fun hm => snoopWrite6502Memory_spec hm a bs

theorem leavesAlone_snooping {p : Prog Machine α} (hp : Prog.Keeps SnoopCalled p) :
    Prog.Keeps (LeavesAlone C P) p :=
  keeps_of_snoopCalled leavesAlone_snoopCall hp

/-- A change of pins, clock or triggers. -/
theorem leavesAlone_modify {g : Machine → Machine} (hview : ∀ m, (g m).view = m.view)
    (hmode : ∀ m, (g m).gControlMode = m.gControlMode) :
    Prog.Keeps (LeavesAlone C P) (modify g : Prog Machine Unit) := by
  refine Prog.Keeps.modify fun m => leavesAlone_of_same fun hm => ⟨hview m, ?_⟩
  exact hm.congr (congrArg Machine.View.gSysState (hview m)) (hmode m)
    (congrArg Machine.View.gCurrentContext (hview m)) (congrArg Machine.View.ctxReg (hview m))

/-- Another context of `C`, in any state. -/
theorem leavesAlone_of_select {c : UInt8} (hc : c ∈ C) {s : SysState} (hsettled : m'.Settled)
    (hview : m'.view = { m.view.select c with gSysState := s }) : LeavesAlone C P m m' := by
  intro h
  have hmmu : m'.mmuRam = m.mmuRam := congrArg Machine.View.mmuRam hview
  have hreg : m'.ctxReg = c := congrArg Machine.View.ctxReg hview
  have hselected : m'.Selected := by
    rw [Machine.Selected, hreg]
    exact congrArg Machine.View.gCurrentContext hview
  refine ⟨h.of_mmuRam ⟨hsettled, hselected⟩ hmmu (hreg ▸ hc), hmmu, fun cell _ => ?_⟩
  exact congrFun (congrArg Machine.View.ram hview) cell

/-- `sRESET` selects the default context. -/
theorem leavesAlone_set6502State {s : SysState} (hreset : s = .sRESET → DEFAULT_CONTEXT ∈ C) :
    Prog.Keeps (LeavesAlone C P) (set6502State s) := by
  intro m h
  by_cases hs : s = .sSTARTUP
  · rw [hs, final_set6502State_startup]
    exact refl_of (LeavesAlone C P) m h
  obtain ⟨hview, hsettled⟩ := set6502State_spec h.steady.settled hs
  rw [Machine.View.enter] at hview
  split at hview
  · exact leavesAlone_of_select (hreset ‹_›) hsettled hview h
  · exact leavesAlone_of_view (fun _ => hsettled) (fun _ => hview) (fun _ _ _ => rfl) h

/-- A board in `sRESET` is in the default context. -/
theorem Machine.Apart.default_mem (h : m.Apart C P) (hstate : m.gSysState = .sRESET) : DEFAULT_CONTEXT ∈ C := by
  have hreg := h.steady.selected.symm.trans (h.steady.settled.reset hstate)
  rw [← UInt8.toNat_inj.1 (Int.ofNat_inj.1 hreg)]
  exact h.context

/-- A switch to a context of `C`. -/
theorem leavesAlone_schedSwitchcontext {c : UInt8} (hc : c ∈ C) :
    Prog.Keeps (LeavesAlone C P) (schedSwitchcontext c) := by
  intro m h
  obtain ⟨hview, hsettled⟩ := schedSwitchcontext_spec h.steady.settled c
  rw [Machine.View.enter] at hview
  split at hview
  · exact leavesAlone_of_select (h.default_mem ‹_›) hsettled hview h
  · exact leavesAlone_of_select hc hsettled hview h

/-! ### The MMU commands of the monitor -/

/-- The entries and the bytes in `P` are as before. -/
def SameCells (P : Set (UInt8 × UInt16)) (m m' : Machine) : Prop :=
  m'.mmuRam = m.mmuRam ∧ ∀ cell ∈ P, m'.ram cell = m.ram cell

instance : Std.Refl (SameCells P) where
  refl _ := ⟨rfl, fun _ _ => rfl⟩

instance : IsTrans Machine (SameCells P) where
  trans _ _ _ h h' := ⟨h'.1.trans h.1, fun cell hcell => (h'.2 cell hcell).trans (h.2 cell hcell)⟩

theorem leavesAlone_of_staying (hstay : Staying m m') (hcells : m.Apart C P → SameCells P m m') :
    LeavesAlone C P m m' := by
  intro h
  obtain ⟨hsteady, hreg⟩ := hstay h.steady
  obtain ⟨hmmu, hram⟩ := hcells h
  exact ⟨h.of_mmuRam hsteady hmmu (hreg ▸ h.context), hmmu, hram⟩

theorem sameCells_modify {g : Machine → Machine} (hg : ∀ m, (g m).mmuRam = m.mmuRam ∧ (g m).ram = m.ram) :
    Prog.Keeps (SameCells P) (modify g : Prog Machine Unit) :=
  Prog.Keeps.modify fun m => ⟨(hg m).1, fun cell _ => congrFun (hg m).2 cell⟩

theorem sameCells_setMMUContext (c : UInt8) : Prog.Keeps (SameCells P) (setMMUContext c) := by
  refine Prog.Keeps.get.bind fun _ => Prog.Keeps.ite (fun _ => ?_) fun _ => Prog.Keeps.pure _
  exact Prog.Keeps.bind (sameCells_modify fun _ => ⟨rfl, rfl⟩) fun _ => sameCells_modify fun _ => ⟨rfl, rfl⟩

theorem sameCells_set6502State (s : SysState) : Prog.Keeps (SameCells P) (set6502State s) := by
  intro m
  have henter : SameCells P m ((enterState s).final m) := by
    cases s with
    | sRESET => exact sameCells_setMMUContext DEFAULT_CONTEXT _
    | _ => exact ⟨rfl, fun _ _ => rfl⟩
  simp only [set6502State, Prog.final_bind, result_get6502State, final_get6502State, Prog.final_ite, Prog.final_pure,
    Prog.final_modify]
  split
  · exact refl_of (SameCells P) m
  split
  · exact henter
  · exact henter

/-- Showing the map reads entries. -/
theorem sameCells_cmdMMU : Prog.Keeps (SameCells P) cmdMMU := by
  have hread : ∀ c i, Prog.Keeps (SameCells P) (readMMUPage c i) := by
    intro c i
    have hindex : Prog.Keeps (SameCells P) (writeMMUIndex i) := by
      intro m
      rw [final_writeMMUIndex]
      split <;> exact ⟨rfl, fun _ _ => rfl⟩
    exact (sameCells_setMMUContext c).bind fun _ => hindex.bind fun _ => Prog.Keeps.gets _
  have hdump : ∀ c, Prog.Keeps (SameCells P) (dumpMMUPageMap c) := fun c =>
    Prog.Keeps.ite (fun _ => Prog.Keeps.pure _) fun _ => Prog.Keeps.forM fun _ _ => (hread c _).discard
  refine Prog.Keeps.get.bind fun _ => (Prog.Keeps.gets _).bind fun _ => ?_
  exact (sameCells_set6502State _).discard.bind fun _ => (hdump _).bind fun _ => (sameCells_set6502State _).discard

/-- The context and the entries are as before, and where the context has no cell in `P`, so are the bytes there. -/
def Filling (P : Set (UInt8 × UInt16)) (m m' : Machine) : Prop :=
  m'.ctxReg = m.ctxReg ∧ m'.mmuRam = m.mmuRam ∧
    ((∀ a, m.view.physAddr a ∉ P) → ∀ cell ∈ P, m'.ram cell = m.ram cell)

instance : Std.Refl (Filling P) where
  refl _ := ⟨rfl, rfl, fun _ _ _ => rfl⟩

instance : IsTrans Machine (Filling P) where
  trans m m' m'' h h' := by
    obtain ⟨hreg, hmmu, hram⟩ := h
    obtain ⟨hreg', hmmu', hram'⟩ := h'
    refine ⟨hreg'.trans hreg, hmmu'.trans hmmu, fun hout cell hcell => ?_⟩
    have hphys : m'.view.physAddr = m.view.physAddr := by
      unfold Machine.View.physAddr
      rw [show m'.view.mmuRam = m.view.mmuRam from hmmu, show m'.view.ctxReg = m.view.ctxReg from hreg]
    exact (hram' (hphys ▸ hout) cell hcell).trans (hram hout cell hcell)

theorem filling_write6502Memory (a : UInt16) (b : UInt8) : Prog.Keeps (Filling P) (write6502Memory a b) := by
  intro m
  by_cases hmode : m.gControlMode = .mRPI
  · rw [final_write6502Memory hmode]
    refine ⟨rfl, rfl, fun hout cell hcell => ?_⟩
    have hne : cell ≠ m.view.physAddr a := fun heq => hout a (heq ▸ hcell)
    exact Function.update_of_ne hne _ _
  · simp only [write6502Memory, Prog.final_bind, result_getControlMode, final_getControlMode, hmode, if_false,
      Prog.final_pure]
    exact refl_of (Filling P) m

/-- Clearing the memory clears that of the context in force. -/
theorem leavesAlone_cmdZero : Prog.Keeps (LeavesAlone C P) cmdZero := by
  intro m
  refine leavesAlone_of_staying (staying_cmdZero m) fun h => ?_
  have hboot : Filling P m ((set6502State .sBOOT).final m) := by
    obtain ⟨hmmu, hram⟩ := sameCells_set6502State (P := P) .sBOOT m
    exact ⟨(staying_set6502State (s := .sBOOT) nofun m h.steady).2, hmmu, fun _ => hram⟩
  have hfill : Prog.Keeps (Filling P) (fillMemory 0x00) := Prog.Keeps.forM fun _ _ => filling_write6502Memory _ _
  simp only [cmdZero, Prog.final_bind, result_get6502State, final_get6502State, Prog.final_discard]
  generalize fillMemory 0x00 = fill at hfill ⊢
  obtain ⟨-, hmmu, hram⟩ := trans_of (Filling P) hboot (hfill _)
  have hfilled : SameCells P m (fill.final ((set6502State .sBOOT).final m)) := ⟨hmmu, hram h.physAddr_notMem⟩
  exact trans_of (SameCells P) hfilled (sameCells_set6502State m.gSysState _)

/-- An access to a context of `C`. -/
theorem leavesAlone_fsbulkInContext {c : UInt8} (hc : c < maxContexts → c ∈ C) {body : Prog Machine α}
    (hbody : Prog.Keeps Cycling body) : Prog.Keeps (LeavesAlone C P) (fsbulkInContext c body) := by
  intro m
  refine leavesAlone_of_staying (staying_fsbulkInContext c hbody m) fun h => ?_
  rw [fsbulkInContext, Prog.final_ite]
  split
  · exact refl_of (SameCells P) m
  · rename_i hlt
    have hcontext := hc (UInt8.not_le.1 hlt)
    obtain ⟨hstate, hsaved, hview, hmode⟩ := beginContextAccess_spec h.steady.settled (UInt8.not_le.1 hlt)
    obtain ⟨hmode', ws, hview'⟩ := hbody _ hmode
    rw [hview] at hview'
    have haccess : (beginContextAccess c).result m = ⟨m.gSysState, m.getMMUContext⟩ := by
      rw [← hstate, ← hsaved]
    simp only [Prog.final_bind, Prog.final_pure, haccess]
    obtain ⟨-, hend⟩ := endContextAccess_view h.steady.settled hview' hmode'
    refine ⟨congrArg Machine.View.mmuRam hend, fun cell hcell => ?_⟩
    refine (congrFun (congrArg Machine.View.ram hend) cell).trans ?_
    exact (m.view.select c).ram_writes_of_ne fun w _ heq => h.hides c hcontext w.1 (heq ▸ hcell)

theorem leavesAlone_fsbulkPrepareContext {c : UInt8} (hc : c < maxContexts → c ∈ C) (device : UInt8)
    (save_args : Bool) (byte_count : UInt16) :
    Prog.Keeps (LeavesAlone C P) (fsbulkPrepareContext c device save_args byte_count) :=
  keeps_fsbulkPrepareContext (leavesAlone_fsbulkInContext hc) device save_args byte_count

theorem leavesAlone_fsbulkCompareContext {c : UInt8} (hc : c < maxContexts → c ∈ C) :
    Prog.Keeps (LeavesAlone C P) (fsbulkCompareContext c) :=
  (leavesAlone_fsbulkInContext hc (cycling_compareBlock _ _)).bind fun _ => Prog.Keeps.pure _

/-- The request that the bulk test puts into the block names the context of the test. -/
theorem peek_fsbulkPrepareMailbox (hm : m.Settled) (operation context : UInt8) :
    ((fsbulkPrepareMailbox operation context).final m).view.peek RP_ARG1H = context := by
  have hblock : Stores (fsbulkPrepareMailbox operation context) _ :=
    stores_clearResultFields.bind <| (stores_snoopWrite RP_GROUP RP_GROUP_FS).bind <|
      (stores_snoopWrite RP_CMD RP_FS_CMD_EXEC).bind <| (stores_snoopWrite RP_STATE operation).bind <|
        (stores_snoopWrite RP_STATUS RP_BUSY).bind <| (stores_rpWrite16 RP_ARG0L FSBULK_ARG_ADDR).bind <|
          (stores_snoopWrite RP_ARG1L 0).bind <| (stores_snoopWrite RP_ARG1H context).bind <|
            stores_rpWrite16 RP_ARG2L 0
  obtain ⟨hview, -⟩ := hblock m hm
  simp only [hview, Machine.View.writes_append]
  refine (Machine.View.peek_writes_of_ne _ ?_).trans (Machine.View.peek_poke_self _ _ _)
  decide

end Board

/-! ## The tasks -/

/-- `LeavesAlone` of the firmware's board. -/
abbrev FirmwareLeavesAlone (C : Set UInt8) (P : Set (UInt8 × UInt16)) : Firmware σ → Firmware σ → Prop :=
  Order.Preimage (·.hw) (LeavesAlone C P)

section Tasks

variable {ff : FatFs σ} {C : Set UInt8} {P : Set (UInt8 × UInt16)} {f : Firmware σ}

theorem leavesAlone_onHw {p : Prog Machine α} (hp : Prog.Keeps (LeavesAlone C P) p) :
    Prog.Keeps (FirmwareLeavesAlone (σ := σ) C P) (onHw p) :=
  fun f => hp f.hw

theorem leavesAlone_snoop {p : Prog Machine α} (hp : Prog.Keeps SnoopCalled p) :
    Prog.Keeps (FirmwareLeavesAlone (σ := σ) C P) (onHw p) :=
  leavesAlone_onHw (leavesAlone_snooping hp)

theorem leavesAlone_of_hw {f f' : Firmware σ} (h : f'.hw = f.hw) : FirmwareLeavesAlone C P f f' := by
  show LeavesAlone C P f.hw f'.hw
  rw [h]
  exact refl _

theorem leavesAlone_statics {g : Firmware σ → Firmware σ} (hg : ∀ f, (g f).hw = f.hw) :
    Prog.Keeps (FirmwareLeavesAlone C P) (modify g : Prog (Firmware σ) Unit) :=
  Prog.Keeps.modify fun f => leavesAlone_of_hw (hg f)

theorem leavesAlone_setIRQPin (level : Bool) :
    Prog.Keeps (FirmwareLeavesAlone (σ := σ) C P) (onHw (setIRQPin level)) :=
  leavesAlone_onHw (leavesAlone_modify (fun _ => rfl) fun _ => rfl)

/-! ### Interrupts and simple I/O -/

theorem leavesAlone_genIRQ6502 (vSrc : IrqSource) :
    Prog.Keeps (FirmwareLeavesAlone (σ := σ) C P) (genIRQ6502 vSrc) := by
  refine Prog.Keeps.get.bind fun f => Prog.Keeps.ite (fun _ => Prog.Keeps.pure _) fun _ => ?_
  refine (leavesAlone_snoop (snoopCalled_read _)).bind fun _ => Prog.Keeps.ite (fun _ => ?_) fun _ => Prog.Keeps.pure _
  refine (leavesAlone_snoop (snoopCalled_write _ _)).bind fun _ =>
    (leavesAlone_snoop (snoopCalled_write _ _)).bind fun _ => ?_
  refine (leavesAlone_setIRQPin _).bind fun _ => Prog.Keeps.bind ?_ fun _ => Prog.Keeps.pure _
  exact leavesAlone_statics fun _ => rfl

theorem leavesAlone_releaseSlot : Prog.Keeps (FirmwareLeavesAlone (σ := σ) C P) releaseSlot := by
  refine (leavesAlone_snoop (snoopCalled_read _)).bind fun _ => Prog.Keeps.ite (fun _ => ?_) fun _ => Prog.Keeps.pure _
  exact (leavesAlone_setIRQPin _).bind fun _ => (leavesAlone_snoop (snoopCalled_write _ _)).bind fun _ =>
    leavesAlone_statics fun _ => rfl

theorem leavesAlone_taskIRQTimer (now now' : UInt32) :
    Prog.Keeps (Order.Preimage (·.firmware) (FirmwareLeavesAlone (σ := σ) C P)) (taskIRQTimer now now') :=
  keeps_taskIRQTimer leavesAlone_releaseSlot
    (keeps_raise (leavesAlone_genIRQ6502 _) fun _ => leavesAlone_of_hw rfl)
    (keeps_raise (leavesAlone_genIRQ6502 _) fun _ => leavesAlone_of_hw rfl) (leavesAlone_genIRQ6502 _) now now'

theorem leavesAlone_stopIRQTimer :
    Prog.Keeps (Order.Preimage (·.firmware) (FirmwareLeavesAlone (σ := σ) C P)) stopIRQTimer := by
  refine Prog.Keeps.bind (Prog.Keeps.modify fun _ => refl _) fun _ => ?_
  have hstop : Prog.Keeps (FirmwareLeavesAlone (σ := σ) C P) (do
      onHw (setIRQPin true)
      onHw clearSlot
      modify fun f => { f with gIntrPending := false }) :=
    (leavesAlone_setIRQPin true).bind fun _ => (leavesAlone_snoop snoopCalled_clearSlot).bind fun _ =>
      leavesAlone_statics fun _ => rfl
  exact hstop.on fun _ _ h => h

theorem leavesAlone_startIRQTimer (vPeriod now : UInt32) :
    Prog.Keeps (Order.Preimage (·.firmware) (FirmwareLeavesAlone (σ := σ) C P)) (startIRQTimer vPeriod now) := by
  refine Prog.Keeps.ite (fun _ => ?_) fun _ => leavesAlone_stopIRQTimer
  refine Prog.Keeps.bind (Prog.Keeps.modify fun _ => refl _) fun _ => ?_
  have hstart : Prog.Keeps (FirmwareLeavesAlone (σ := σ) C P) (do
      onHw clearSlot
      onHw (setIRQPin true)) :=
    (leavesAlone_snoop snoopCalled_clearSlot).bind fun _ => leavesAlone_setIRQPin true
  exact hstart.on fun _ _ h => h

theorem leavesAlone_readCPUQ : Prog.Keeps (FirmwareLeavesAlone (σ := σ) C P) readCPUQ := by
  refine Prog.Keeps.get.bind fun f => ?_
  split
  · exact Prog.Keeps.pure 0
  · exact Prog.Keeps.bind (leavesAlone_statics fun _ => rfl) fun _ => Prog.Keeps.pure _

theorem leavesAlone_writeVDUQ (c : UInt8) : Prog.Keeps (FirmwareLeavesAlone (σ := σ) C P) (writeVDUQ c) := by
  refine leavesAlone_statics fun f => ?_
  split <;> rfl

theorem leavesAlone_taskSimpleIO : Prog.Keeps (FirmwareLeavesAlone (σ := σ) C P) taskSimpleIO := by
  have hget : Prog.Keeps (FirmwareLeavesAlone (σ := σ) C P) simpleGetchar := by
    refine (leavesAlone_snoop (snoopCalled_read _)).bind fun _ => Prog.Keeps.ite (fun _ => ?_) fun _ => Prog.Keeps.pure _
    refine leavesAlone_readCPUQ.bind fun _ => ?_
    exact Prog.Keeps.ite (fun _ => leavesAlone_snoop (snoopCalled_write _ _)) fun _ => Prog.Keeps.pure _
  have hput : Prog.Keeps (FirmwareLeavesAlone (σ := σ) C P) simplePutchar := by
    refine Prog.Keeps.get.bind fun f => Prog.Keeps.ite (fun _ => ?_) fun _ => Prog.Keeps.pure _
    refine (leavesAlone_snoop (snoopCalled_read _)).bind fun c => Prog.Keeps.ite (fun _ => ?_) fun _ => Prog.Keeps.pure _
    exact (leavesAlone_writeVDUQ c).bind fun _ => leavesAlone_snoop (snoopCalled_write _ _)
  exact Prog.Keeps.get.bind fun f => Prog.Keeps.ite (fun _ => hget.bind fun _ => hput) fun _ => Prog.Keeps.pure _

theorem leavesAlone_writeCPUQ (c : UInt8) : Prog.Keeps (FirmwareLeavesAlone (σ := σ) C P) (writeCPUQ c) := by
  refine Prog.Keeps.get.bind fun f => Prog.Keeps.ite (fun _ => Prog.Keeps.pure _) fun _ => ?_
  exact Prog.Keeps.bind (leavesAlone_statics fun _ => rfl) fun _ => Prog.Keeps.pure _

theorem leavesAlone_taskInput : Prog.Keeps (FirmwareLeavesAlone (σ := σ) C P) taskInput := by
  refine Prog.Keeps.modify fun f => leavesAlone_of_hw ?_
  obtain ⟨q, -, hdrained⟩ := processVDUoutQ_spec f
  rw [hdrained]

/-! ### The mailbox task -/

theorem leavesAlone_setDone (result : UInt16) (flags : UInt8) :
    Prog.Keeps (FirmwareLeavesAlone (σ := σ) C P) (rpMailboxSetDone result flags) := by
  refine Prog.Keeps.bind (leavesAlone_statics fun _ => rfl) fun _ => ?_
  exact leavesAlone_snoop (snoopCalled_publish _ _ _ _ _)

theorem leavesAlone_setError (err : UInt8) (partialResult : UInt16) :
    Prog.Keeps (FirmwareLeavesAlone (σ := σ) C P) (rpMailboxSetError err partialResult) := by
  refine Prog.Keeps.bind (leavesAlone_statics fun _ => rfl) fun _ => ?_
  exact leavesAlone_snoop (snoopCalled_publish _ _ _ _ _)

theorem leavesAlone_handleWrite : Prog.Keeps (FirmwareLeavesAlone (σ := σ) C P) rpConsoleIoHandleWrite := by
  refine (leavesAlone_snoop (snoopCalled_rpRead16 _)).bind fun _ =>
    (leavesAlone_snoop (snoopCalled_rpRead16 _)).bind fun _ =>
      Prog.Keeps.bind (leavesAlone_statics fun _ => rfl) fun _ => ?_
  refine Prog.Keeps.ite (fun _ => ?_) fun _ => ?_
  · exact (leavesAlone_setDone _ _).bind fun _ => Prog.Keeps.pure _
  · exact Prog.Keeps.bind (leavesAlone_statics fun _ => rfl) fun _ => Prog.Keeps.pure _

theorem leavesAlone_handleRead : Prog.Keeps (FirmwareLeavesAlone (σ := σ) C P) rpConsoleIoHandleRead := by
  refine (leavesAlone_snoop (snoopCalled_rpRead16 _)).bind fun _ =>
    (leavesAlone_snoop (snoopCalled_rpRead16 _)).bind fun _ =>
      Prog.Keeps.bind (leavesAlone_statics fun _ => rfl) fun _ => ?_
  refine Prog.Keeps.ite (fun _ => ?_) fun _ => ?_
  · exact (leavesAlone_setDone _ _).bind fun _ => Prog.Keeps.pure _
  · exact Prog.Keeps.bind (leavesAlone_statics fun _ => rfl) fun _ => Prog.Keeps.pure _

theorem leavesAlone_processWrite : Prog.Keeps (FirmwareLeavesAlone (σ := σ) C P) rpConsoleIoProcessWrite := by
  have houtput : ∀ buffer, Prog.Keeps (FirmwareLeavesAlone (σ := σ) C P) (rpConsoleOutputBytes buffer) :=
    fun buffer f => leavesAlone_of_hw (by rw [final_outputBytes])
  refine Prog.Keeps.get.bind fun f => Prog.Keeps.ite (fun _ => ?_) fun _ => ?_
  · refine (leavesAlone_snoop (snoopCalled_readBlock _ _)).bind fun _ => (houtput _).bind fun _ => ?_
    exact Prog.Keeps.bind (leavesAlone_statics fun _ => rfl) fun _ => Prog.Keeps.pure _
  · exact (leavesAlone_setDone _ _).bind fun _ => Prog.Keeps.pure _

theorem leavesAlone_processRead : Prog.Keeps (FirmwareLeavesAlone (σ := σ) C P) rpConsoleIoProcessRead := by
  have hinput : ∀ n, Prog.Keeps (FirmwareLeavesAlone (σ := σ) C P) (rpConsoleInputBytes n) :=
    fun n f => leavesAlone_of_hw (hw_inputBytes n f)
  refine Prog.Keeps.get.bind fun f => (hinput _).bind fun buffer => ?_
  refine Prog.Keeps.ite (fun _ => Prog.Keeps.pure _) fun _ => ?_
  exact (leavesAlone_snoop (snoopCalled_writeBlock _ _)).bind fun _ => (leavesAlone_setDone _ _).bind fun _ =>
    Prog.Keeps.pure _

/-- What is confined to a reply and to addresses of a context of `C`. -/
theorem leavesAlone_of_confined {f' : Firmware σ} {c : UInt8} {A : UInt16 → Prop} (h : Confined c A f f')
    (hA : ∀ a, A a → c ∈ C) : FirmwareLeavesAlone C P f f' := by
  intro happart
  obtain ⟨hsettled, ram, hview, hram⟩ := h.board happart.steady.settled happart.steady.selected
  refine leavesAlone_of_view (fun _ => hsettled) (fun _ => hview) (fun _ cell hcell => ?_) happart
  refine hram cell ⟨fun a _ heq => ?_, fun a ha heq => ?_⟩
  · exact happart.physAddr_notMem a (heq ▸ hcell)
  · exact happart.hides c (hA a ha) a (heq ▸ hcell)

/-- A request that names a context of `C`, or one that is refused. -/
theorem leavesAlone_handleExec (hread : ReadsAtMost ff)
    (hcontext : f.hw.view.peek RP_ARG1H < maxContexts → f.hw.view.peek RP_ARG1H ∈ C) :
    FirmwareLeavesAlone C P f ((rpFsMailboxHandleExec ff).final f) := by
  by_cases hc : f.hw.view.peek RP_ARG1H < maxContexts
  · intro h
    exact leavesAlone_of_confined (confined_request hread h.steady.settled) (fun _ _ => hcontext hc) h
  · intro h
    obtain ⟨m₀, op, pid, context, hblock, -, hfin⟩ := final_rpFsMailboxHandleExec ff f
    obtain ⟨hm₀, hview₀, -, -, rfl⟩ := hblock h.steady.settled
    have hrefused : Confined 0 (fun _ => False) f
        ((checkedOperation ff op pid (f.hw.view.peek RP_ARG1H)).final { f with hw := m₀ }) := by
      rw [checkedOperation, if_pos (.inr (UInt8.not_lt.1 hc))]
      refine trans_of (Confined _ _) (confined_of_view fun _ => ⟨hm₀, hview₀⟩) ?_
      exact (transferRules_confined 0 fun _ => False).error _ _ _
    have hleft := leavesAlone_of_confined (C := C) hrefused (fun _ => False.elim) h
    rw [hfin]
    exact hleft

/-- The request in the block names a context of `C`, if it is one for the filesystem and not refused. -/
def Machine.View.AsksWithin (v : Machine.View) (C : Set UInt8) : Prop :=
  v.peek RP_GROUP = RP_GROUP_FS → v.peek RP_ARG1H < maxContexts → v.peek RP_ARG1H ∈ C

/-- The commands that are found are the console's and those of the filesystem group. -/
theorem group_of_found {group cmd : UInt8} {handler : Prog (Firmware σ) MailboxState}
    (hconsole : ¬ IsConsole group cmd) (h : rpFindMailboxCommand ff group cmd = some handler) : group = RP_GROUP_FS := by
  simp only [rpFindMailboxCommand, gMailboxCommands, List.lookup_cons, List.lookup_nil] at h
  split at h
  · rename_i heq
    simp only [beq_iff_eq, Prod.mk.injEq] at heq
    exact absurd ⟨heq.1, .inl heq.2⟩ hconsole
  split at h
  · rename_i heq
    simp only [beq_iff_eq, Prod.mk.injEq] at heq
    exact absurd ⟨heq.1, .inr heq.2⟩ hconsole
  split at h
  · rename_i heq
    simp only [beq_iff_eq, Prod.mk.injEq] at heq
    exact heq.1
  · cases h

/-- A command that is found is run with the result fields cleared. -/
theorem leavesAlone_of_found {group cmd : UInt8} {handler : Prog (Firmware σ) MailboxState}
    (h : rpFindMailboxCommand ff group cmd = some handler)
    (hhandler : FirmwareLeavesAlone C P { f with hw := rpMailboxClearResultFields.final f.hw }
      (handler.final { f with hw := rpMailboxClearResultFields.final f.hw })) :
    FirmwareLeavesAlone C P f ((rpDispatchMailboxCommand ff group cmd).final f) := by
  have hclear : Prog.Keeps (FirmwareLeavesAlone (σ := σ) C P) (onHw rpMailboxClearResultFields) :=
    leavesAlone_snoop snoopCalled_clearResultFields
  rw [rpDispatchMailboxCommand, h, Prog.final_bind]
  exact trans_of (FirmwareLeavesAlone C P) (hclear f) hhandler

theorem leavesAlone_dispatch (hread : ReadsAtMost ff) (hf : f.hw.Settled) (hasks : f.hw.view.AsksWithin C) (cmd : UInt8) :
    FirmwareLeavesAlone C P f ((rpDispatchMailboxCommand ff (f.hw.view.peek RP_GROUP) cmd).final f) := by
  rcases rpFindMailboxCommand_cases ff (f.hw.view.peek RP_GROUP) cmd with ⟨-, h | h⟩ | ⟨hconsole, h | h⟩
  · exact leavesAlone_of_found h (leavesAlone_handleWrite _)
  · exact leavesAlone_of_found h (leavesAlone_handleRead _)
  · refine leavesAlone_of_found h (leavesAlone_handleExec hread ?_)
    rw [show Machine.View.peek _ RP_ARG1H = _ from peek_clearResultFields hf (by decide)]
    exact hasks (group_of_found hconsole h)
  · rw [rpDispatchMailboxCommand, h]
    exact ((leavesAlone_setError _ _).bind fun _ => Prog.Keeps.pure _) f

theorem leavesAlone_dispatchCurrent (hread : ReadsAtMost ff) (hasks : f.hw.view.AsksWithin C) :
    FirmwareLeavesAlone C P f ((rpMailboxDispatchCurrentRequest ff).final f) := by
  intro h
  obtain ⟨hgroup, hview, hsettled⟩ := snoopRead6502MemoryLoc_spec h.steady.settled RP_GROUP
  obtain ⟨-, hview', hsettled'⟩ := snoopRead6502MemoryLoc_spec hsettled RP_CMD
  simp only [rpMailboxDispatchCurrentRequest, Prog.final_bind, onHw, Prog.final_on, Prog.result_on, emit,
    Prog.final_modify, hgroup]
  generalize (snoopRead6502MemoryLoc RP_CMD).result _ = cmd
  generalize (snoopRead6502MemoryLoc RP_CMD).final _ = m at hview' hsettled' ⊢
  have hm : LeavesAlone C P f.hw m := leavesAlone_of_same fun _ => ⟨hview'.trans hview, hsettled'⟩
  rw [← hview, ← hview'] at hasks ⊢
  generalize hg : Firmware.mk m _ _ _ _ _ _ _ _ _ _ _ _ _ _ _ _ = g
  have hhw : g.hw = m := by rw [← hg]
  rw [← hhw] at hm hsettled' hasks ⊢
  exact trans_of (LeavesAlone C P) hm (leavesAlone_dispatch hread hsettled' hasks cmd) h

/-- The poll of `mbIDLE` finds the request that is in the block in front of it. -/
theorem leavesAlone_pollIdle (hread : ReadsAtMost ff) (hasks : f.hw.view.AsksWithin C) :
    FirmwareLeavesAlone C P f ((pollIdle ff).final f) := by
  intro h
  have hacked : (Prog.final ackMMUIO f.hw).Settled := settled_ackMMUIO h.steady.settled
  obtain ⟨-, hview, hsettled⟩ := requestPending_spec hacked
  replace hview := hview.trans <| view_ackMMUIO f.hw
  simp only [pollIdle, Prog.final_bind, Prog.result_get, Prog.final_get, Prog.final_ite,
    Prog.final_modify, Prog.final_pure, onHw, Prog.final_on, Prog.result_on]
  generalize requestPending.final (Prog.final ackMMUIO f.hw) = m at hview hsettled ⊢
  have hm : LeavesAlone C P f.hw m := leavesAlone_of_same fun _ => ⟨hview, hsettled⟩
  rw [← hview] at hasks
  split
  · exact refl_of (LeavesAlone C P) f.hw h
  split
  · generalize hg : Firmware.mk m _ _ _ _ _ _ _ _ _ _ _ _ _ _ _ _ = g
    have hhw : g.hw = m := by rw [← hg]
    rw [← hhw] at hm hasks
    exact trans_of (LeavesAlone C P) hm (leavesAlone_dispatchCurrent hread hasks) h
  · exact hm h

theorem leavesAlone_updateConsoleReady : Prog.Keeps (FirmwareLeavesAlone (σ := σ) C P) updateConsoleReady := by
  refine Prog.Keeps.get.bind fun f => Prog.Keeps.ite (fun _ => ?_) fun _ => Prog.Keeps.pure ()
  exact (leavesAlone_snoop (snoopCalled_write _ _)).bind fun _ => leavesAlone_statics fun _ => rfl

/-- The update of `RP_CONSOLE_RDY` leaves the rest of the block. -/
theorem peek_updateConsoleReady (hf : f.hw.Settled) {a : UInt16} (ha : RP_CONSOLE_RDY &&& 0x0FFF ≠ a &&& 0x0FFF) :
    (updateConsoleReady.final f).hw.view.peek a = f.hw.view.peek a := by
  obtain ⟨hview, -⟩ := snoopWrite6502MemoryLoc_spec hf RP_CONSOLE_RDY (if f.cpu_tx_fifo.isEmpty then 0 else 1)
  simp only [updateConsoleReady, Prog.final_bind, Prog.result_get, Prog.final_get, Prog.final_ite, Prog.final_modify,
    Prog.final_pure, onHw, Prog.final_on]
  split
  · show Machine.View.peek (Machine.view _) a = _
    rw [hview]
    exact Function.update_of_ne (fun heq => ha (congrArg Prod.snd heq).symm) _ _
  · rfl

theorem leavesAlone_taskMailbox (hread : ReadsAtMost ff) (hasks : f.hw.view.AsksWithin C) :
    FirmwareLeavesAlone C P f ((taskMailbox ff).final f) := by
  intro h
  have hready := leavesAlone_updateConsoleReady (C := C) (P := P) f
  have hgroup := peek_updateConsoleReady h.steady.settled (a := RP_GROUP) (by decide)
  have hcontext := peek_updateConsoleReady h.steady.settled (a := RP_ARG1H) (by decide)
  rw [taskMailbox, Prog.final_bind]
  generalize updateConsoleReady.final f = g at hready hgroup hcontext ⊢
  have hasks' : g.hw.view.AsksWithin C := by
    rw [Machine.View.AsksWithin, hgroup, hcontext]
    exact hasks
  have hdone : ∀ p : Prog (Firmware σ) Bool, Prog.Keeps (FirmwareLeavesAlone C P) p →
      Prog.Keeps (FirmwareLeavesAlone C P) (do
        if ← p then
          modify fun f => { f with mailbox_state := .mbDONE } : Prog (Firmware σ) Unit) := fun p hp =>
    hp.bind fun _ => Prog.Keeps.ite (fun _ => leavesAlone_statics fun _ => rfl) fun _ => Prog.Keeps.pure ()
  refine trans_of (FirmwareLeavesAlone C P) hready ?_ h
  rw [mailboxFsm, Prog.final_bind, Prog.result_get, Prog.final_get]
  cases hstate : g.mailbox_state with
  | mbINIT => exact leavesAlone_of_hw rfl
  | mbIDLE => exact leavesAlone_pollIdle hread hasks'
  | mbWRITE => exact hdone _ leavesAlone_processWrite g
  | mbREAD => exact hdone _ leavesAlone_processRead g
  | mbDONE => exact leavesAlone_of_hw rfl

theorem leavesAlone_initMailbox : Prog.Keeps (FirmwareLeavesAlone C P) (initMailbox ff) := by
  refine Prog.Keeps.bind (leavesAlone_statics fun _ => rfl) fun _ => ?_
  refine (leavesAlone_snoop snoopCalled_clearBlock).bind fun _ => ?_
  refine Prog.Keeps.bind (leavesAlone_statics fun _ => rfl) fun _ => ?_
  have hclose : Prog.Keeps (FirmwareLeavesAlone C P) (rpFsMailboxReset ff) := fun f => leavesAlone_of_hw rfl
  refine hclose.bind fun _ => (leavesAlone_snoop (snoopCalled_write _ _)).bind fun _ => ?_
  exact (leavesAlone_snoop (snoopCalled_write _ _)).bind fun _ => leavesAlone_snoop (snoopCalled_write _ _)

/-! ### The bulk transfer test -/

theorem leavesAlone_fsbulkPhase (hread : ReadsAtMost ff) {c : UInt8} (hc : c < maxContexts → c ∈ C)
    (operation device : UInt8) (save_args : Bool) (byte_count : UInt16) :
    Prog.Keeps (FirmwareLeavesAlone C P) (fsbulkPhase ff operation c device save_args byte_count) := by
  have hrequest : Prog.Keeps (FirmwareLeavesAlone C P) (do
      onHw (fsbulkPrepareMailbox operation c)
      discard <| rpFsMailboxHandleExec ff
      onHw fsbulkPrintResult) := by
    intro f h
    have hblock := leavesAlone_snoop (σ := σ) (C := C) (P := P) (snoopCalled_fsbulkPrepareMailbox operation c) f
    have hnamed : ((onHw (fsbulkPrepareMailbox operation c)).final f).hw.view.peek RP_ARG1H = c := by
      have hpeek := peek_fsbulkPrepareMailbox (m := f.hw) h.steady.settled operation c
      generalize fsbulkPrepareMailbox operation c = p at hpeek ⊢
      exact hpeek
    rw [Prog.final_bind, Prog.final_bind, Prog.final_discard]
    generalize (onHw (fsbulkPrepareMailbox operation c)).final f = f' at hblock hnamed ⊢
    rw [← hnamed] at hc
    refine trans_of (FirmwareLeavesAlone C P) hblock ?_ h
    exact trans_of (FirmwareLeavesAlone C P) (leavesAlone_handleExec hread hc)
      (leavesAlone_snoop snoopCalled_fsbulkPrintResult _)
  refine (leavesAlone_onHw (leavesAlone_fsbulkPrepareContext hc device save_args byte_count)).bind fun _ => ?_
  exact Prog.Keeps.ite (fun _ => hrequest) fun _ => Prog.Keeps.pure _

theorem leavesAlone_cmdFSBulk (hread : ReadsAtMost ff) (device : UInt8) {context_arg : Option UInt8}
    (harg : ∀ c ∈ context_arg, c < maxContexts → c ∈ C) :
    Prog.Keeps (FirmwareLeavesAlone C P) (cmdFSBulk ff device context_arg) := by
  intro f h
  have hc : context_arg.getD f.hw.getMMUContext < maxContexts → context_arg.getD f.hw.getMMUContext ∈ C := by
    cases context_arg with
    | none =>
      intro _
      rw [Option.getD_none, h.steady.getMMUContext]
      exact h.context
    | some c => exact harg c rfl
  rw [cmdFSBulk, Prog.final_bind, Prog.result_get, Prog.final_get]
  generalize context_arg.getD f.hw.getMMUContext = c at hc ⊢
  have hphase := leavesAlone_fsbulkPhase (P := P) hread hc
  refine (?_ : FirmwareLeavesAlone C P f _) h
  refine Prog.Keeps.ite (fun _ => Prog.Keeps.pure _) (fun _ => ?_) f
  have hidle : Prog.Keeps (FirmwareLeavesAlone (σ := σ) C P) (onHw (snoopWrite6502MemoryLoc RP_STATUS RP_IDLE)) :=
    leavesAlone_snoop (snoopCalled_write _ _)
  refine (hphase _ _ _ _).bind fun _ => Prog.Keeps.ite (fun _ => ?_) fun _ => hidle
  refine (hphase _ _ _ _).bind fun _ => Prog.Keeps.ite (fun _ => ?_) fun _ => hidle
  exact (leavesAlone_onHw (leavesAlone_fsbulkCompareContext hc)).discard.bind fun _ => hidle

end Tasks

/-! ## `loop()` -/

/-- `LeavesAlone` of the system's board. -/
abbrev SystemLeavesAlone (C : Set UInt8) (P : Set (UInt8 × UInt16)) : System σ → System σ → Prop :=
  Order.Preimage (·.scheduler.firmware) (FirmwareLeavesAlone C P)

/-- The command selects contexts of `C` only, and is neither the one that edits the mapping nor the menu, which loads
cartridges. -/
def MonitorCommand.StaysIn (C : Set UInt8) : MonitorCommand → Prop
  | .reset => DEFAULT_CONTEXT ∈ C
  | .go | .stop | .sc _ | .ss _ | .ctx | .zero | .boot _ | .irq _ | .timer _ _ => True
  | .fsbulk _ context_arg => ∀ c ∈ context_arg, c < maxContexts → c ∈ C
  | .page _ _ | .syscfg _ => False

/-- The switches and requests of a step name contexts of `C`, and the memory changes where the context in force has
an address. -/
def LoopStep.StaysIn (C : Set UInt8) (s : System σ) : LoopStep σ → Prop
  | .taskScheduler => ∀ c ∈ s.switches, c ∈ C
  | .taskMailbox => s.hw.view.AsksWithin C
  | .monitor command => command.StaysIn C
  | .memory ram => ∀ cell, ram cell ≠ s.hw.ram cell → ∃ a, s.hw.view.physAddr a = cell
  | _ => True

section Loop

variable {ff : FatFs σ} {C : Set UInt8} {P : Set (UInt8 × UInt16)} {s : System σ}

theorem leavesAlone_onBoard {p : Prog Machine α} (hp : Prog.Keeps (LeavesAlone C P) p) :
    Prog.Keeps (SystemLeavesAlone (σ := σ) C P) (onBoard p) :=
  fun s => hp s.hw

theorem leavesAlone_taskScheduler (hswitches : ∀ c ∈ s.switches, c ∈ C) :
    SystemLeavesAlone C P s (taskScheduler.final s) := by
  intro h
  obtain ⟨-, hview, hsettled, -⟩ := getCommand6502_spec h.steady.settled
  have hlooked : SystemLeavesAlone C P s (getCommand6502.final s) := leavesAlone_of_same fun _ => ⟨hview, hsettled⟩
  have hack : Prog.Keeps (SystemLeavesAlone (σ := σ) C P) (onBoard ackCommand6502) :=
    leavesAlone_onBoard (leavesAlone_snooping snoopCalled_ackCommand6502)
  rw [taskScheduler, Prog.final_bind]
  generalize getCommand6502.final s = s' at hlooked ⊢
  rcases hres : getCommand6502.result s with - | ⟨lCmd, lParam⟩
  · exact hlooked h
  refine trans_of (SystemLeavesAlone C P) hlooked ?_ h
  refine Prog.Keeps.ite (fun hcmd => ?_) (fun _ => Prog.Keeps.pure _) s'
  have hc : lParam ∈ C := by
    have hswitch : s.switches = [lParam] := by
      rw [System.switches, hres]
      exact if_pos hcmd
    exact hswitches lParam (hswitch ▸ List.mem_singleton_self lParam)
  exact (leavesAlone_onBoard (leavesAlone_schedSwitchcontext hc)).bind fun _ => hack

theorem leavesAlone_enter (vSysState : SysState) (hstate : vSysState ≠ .sRESET) :
    Prog.Keeps (LeavesAlone C P) (do discard <| set6502State vSysState) :=
  (leavesAlone_set6502State fun heq => absurd heq hstate).discard

/-- A state that the CPU was in can be entered again. -/
theorem leavesAlone_back {m : Machine} (h : m.Apart C P) :
    Prog.Keeps (LeavesAlone C P) (do discard <| set6502State m.gSysState) :=
  (leavesAlone_set6502State h.default_mem).discard

theorem leavesAlone_singleCycle6502 (vSteps : UInt8) : Prog.Keeps (LeavesAlone C P) (singleCycle6502 vSteps) := by
  intro m h
  rw [singleCycle6502, Prog.final_bind, result_get6502State, final_get6502State]
  refine (leavesAlone_enter .sREAD (by decide)).bind (fun _ => ?_) m h
  exact Prog.Keeps.ite (fun _ => Prog.Keeps.pure _) fun _ => leavesAlone_back h

theorem leavesAlone_singleStep6502 : Prog.Keeps (LeavesAlone C P) singleStep6502 := by
  intro m h
  rw [singleStep6502, Prog.final_bind, result_get6502State, final_get6502State]
  refine (leavesAlone_enter .sHALTED (by decide)).bind (fun _ => ?_) m h
  exact (leavesAlone_enter .sREAD (by decide)).bind fun _ => leavesAlone_back h

theorem leavesAlone_monitor (hread : ReadsAtMost ff) (flash : Flash) {command : MonitorCommand}
    (hcommand : command.StaysIn C) :
    Prog.Keeps (SystemLeavesAlone (σ := σ) C P) (command.run ff flash) := by
  -- `reset` goes through `sRESET`, which selects the default context.
  have hreset : DEFAULT_CONTEXT ∈ C →
      Prog.Keeps (Order.Preimage (·.firmware) (FirmwareLeavesAlone (σ := σ) C P)) (cmdReset ff) := by
    intro hdefault
    have henter : Prog.Keeps (FirmwareLeavesAlone (σ := σ) C P) (do discard <| onHw (set6502State .sRESET)) :=
      (leavesAlone_onHw (leavesAlone_set6502State fun _ => hdefault)).discard
    have hclear : Prog.Keeps (FirmwareLeavesAlone C P) (do onHw initCmdInterface; initMailbox ff) :=
      (leavesAlone_snoop (snoopCalled_writeBlock _ _)).bind fun _ => leavesAlone_initMailbox
    refine Prog.Keeps.bind (henter.on fun _ _ h => h) fun _ => leavesAlone_stopIRQTimer.bind fun _ => ?_
    exact hclear.on fun _ _ h => h
  have hboot : ∀ now, Prog.Keeps (Order.Preimage (·.firmware) (FirmwareLeavesAlone (σ := σ) C P)) (cmdBoot now) := by
    intro now
    have hrun : Prog.Keeps (FirmwareLeavesAlone (σ := σ) C P) (do discard <| onHw (set6502State .sRUNNING)) :=
      leavesAlone_onHw (leavesAlone_enter .sRUNNING nofun)
    exact Prog.Keeps.bind (hrun.on fun _ _ h => h) fun _ => leavesAlone_startIRQTimer 10 now
  have hsteps : ∀ addresses, Prog.Keeps (LeavesAlone C P) (cmdSS addresses) := fun addresses =>
    Prog.Keeps.forM fun addr _ => leavesAlone_singleStep6502.bind fun _ =>
      leavesAlone_snooping (snoopCalled_disasm6502 addr)
  cases command with
  | reset => exact keeps_onScheduler (hreset hcommand)
  | go => exact leavesAlone_onBoard (leavesAlone_enter .sRUNNING nofun)
  | stop => exact leavesAlone_onBoard (leavesAlone_enter .sHALTED (by decide))
  | sc lStep => exact leavesAlone_onBoard (leavesAlone_singleCycle6502 lStep)
  | ss addresses => exact leavesAlone_onBoard (hsteps addresses)
  | boot now => exact keeps_onScheduler (hboot now)
  | irq vSrc => exact keeps_onFirmware (leavesAlone_genIRQ6502 vSrc).discard
  | timer lInterval now =>
    exact keeps_onScheduler (Prog.Keeps.ite (fun _ => leavesAlone_stopIRQTimer) fun _ =>
      leavesAlone_startIRQTimer lInterval now)
  | ctx => exact leavesAlone_onBoard fun m => leavesAlone_of_staying (staying_cmdMMU m) fun _ => sameCells_cmdMMU m
  | zero => exact leavesAlone_onBoard leavesAlone_cmdZero
  | fsbulk device context_arg => exact keeps_onFirmware (leavesAlone_cmdFSBulk hread device hcommand)
  | page lIndex lPage | syscfg lines => exact hcommand.elim

/-- The memory changes where the context in force has an address. -/
theorem leavesAlone_memory {m : Machine} {ram : UInt8 × UInt16 → UInt8}
    (hram : ∀ cell, ram cell ≠ m.ram cell → ∃ a, m.view.physAddr a = cell) :
    LeavesAlone C P m { m with ram := ram } := by
  refine leavesAlone_of_view (fun hm => hm.congr rfl rfl rfl rfl) (fun _ => rfl) fun h cell hcell => ?_
  by_contra hne
  obtain ⟨a, rfl⟩ := hram cell hne
  exact h.physAddr_notMem a hcell

theorem leavesAlone_step (hread : ReadsAtMost ff) (flash : Flash) {l : LoopStep σ} (hl : l.StaysIn C s) :
    SystemLeavesAlone C P s (s.step ff flash l) := by
  cases l with
  | taskIRQTimer now now' => exact keeps_onScheduler (leavesAlone_taskIRQTimer now now') s
  | taskScheduler => exact leavesAlone_taskScheduler hl
  | taskSimpleIO => exact keeps_onFirmware leavesAlone_taskSimpleIO s
  | taskInput => exact keeps_onFirmware leavesAlone_taskInput s
  | taskMailbox => exact leavesAlone_taskMailbox hread hl
  | monitor command => exact leavesAlone_monitor hread flash hl s
  | snoop call => exact leavesAlone_onBoard (leavesAlone_snoopCall call) s
  | input c => exact keeps_onFirmware (leavesAlone_writeCPUQ c).discard s
  | consoleBreak => exact leavesAlone_of_hw rfl
  | taskUSBStorage storage => exact leavesAlone_of_hw rfl
  | memory ram => exact leavesAlone_memory hl
  | edge =>
    refine leavesAlone_onBoard (leavesAlone_modify (fun m => ?_) fun m => ?_) s
    · split <;> rfl
    · split <;> rfl

/-- In a run that stays in `C` the entries and the cells of `P` stay as they were. -/
theorem leavesAlone_run (hread : ReadsAtMost ff) (flash : Flash) {run : List (LoopStep σ)}
    (hrun : Run.AtEveryStep (System.step ff flash) (LoopStep.StaysIn C) s run) :
    SystemLeavesAlone C P s (run.foldl (System.step ff flash) s) :=
  hrun.invariant (I := fun s' => SystemLeavesAlone C P s s')
    (fun _ _ hs hl => trans_of (SystemLeavesAlone C P) hs (leavesAlone_step hread flash hl))
    (refl_of (SystemLeavesAlone C P) s)

end Loop

/-! ## The private pages of a context -/

/-- The contexts besides `x` that requests and cartridge sections may name. -/
def OtherContexts (x : UInt8) : Set UInt8 := {c | ContextAccepted c ∧ c ≠ x}

/-- The cells that a context has for itself. -/
def Machine.View.PrivateCells (v : Machine.View) (cfg : MemoryConfig) (model : MemoryModel) (x : UInt8) :
    Set (UInt8 × UInt16) :=
  {cell | ∃ a region, cfg.Covers model x (Machine.index a) region ∧ region.shared = false ∧
    (v.select x).physAddr a = cell}

section Private

variable {ff : FatFs σ} {cfg : MemoryConfig} {model : MemoryModel} {x : UInt8} {v : Machine.View}

theorem Machine.index_lt (a : UInt16) : Machine.index a < 16 := by
  have ha := a.toNat_lt
  rw [Machine.index, UInt8.lt_iff_toNat_lt, UInt16.toNat_toUInt8, UInt16.toNat_shiftRight, Nat.shiftRight_eq_div_pow]
  simp only [UInt16.reduceToNat, Nat.reduceMod, Nat.reducePow, UInt8.reduceToNat]
  omega

/-- Isolated contexts select no private cell of each other. -/
theorem hides_privateCells (h : Isolated cfg model v.mmuRam) (hx : x < model.contexts) :
    v.Hides (OtherContexts x) (v.PrivateCells cfg model x) := by
  rintro c ⟨haccepted, hne⟩ b ⟨a, region, hcovers, hprivate, hcell⟩
  have hpage : v.mmuRam (x, Machine.index a) &&& 0x7F = v.mmuRam (c, Machine.index b) &&& 0x7F :=
    congrArg Prod.fst hcell
  exact h x hx _ (Machine.index_lt a) region hcovers hprivate c hne haccepted _ (Machine.index_lt b) hpage.symm

/-- On a board with the mapping of an accepted `memory.ini` whose context 0 has shared regions only, a private byte of
a context stays what it is in every run of `loop()` in which the 6502, the switches, the requests and the monitor keep
to other contexts, and the monitor neither edits the mapping nor loads cartridges. -/
theorem private_memory_kept (hread : ReadsAtMost ff) (flash : Flash) (aregH aregL ctxReg : UInt8) (table : MmuTable)
    (ram : UInt8 × UInt16 → UInt8) {file : List UInt8} (haccepted : (parseMemoryIni file).1 = .ok ())
    (hconfigured : (configureMMUFromActiveModel (parseMemoryIni file).2).result
      (.atSetup (Machine.bootBoard aregH aregL ctxReg table ram).mmuRam) = true)
    (hmodel : (parseMemoryIni file).2.findModel (parseMemoryIni file).2.active_model.val = some model)
    (hshared : FirstShared (parseMemoryIni file).2 model) (hx : x < model.contexts) {s : System σ} (hs : s.hw.Steady)
    (hmmu : s.hw.mmuRam = ((configureMMUFromActiveModel (parseMemoryIni file).2).final
      (.atSetup (Machine.bootBoard aregH aregL ctxReg table ram).mmuRam)).mmu)
    (hcontext : s.hw.ctxReg ∈ OtherContexts x) {run : List (LoopStep σ)}
    (hrun : Run.AtEveryStep (System.step ff flash) (LoopStep.StaysIn (OtherContexts x)) s run) {a : UInt16}
    {region : MemoryLayoutRegion} (hcovers : (parseMemoryIni file).2.Covers model x (Machine.index a) region)
    (hprivate : region.shared = false) :
    ((run.foldl (System.step ff flash) s).hw.view.select x).peek a = (s.hw.view.select x).peek a := by
  obtain ⟨model', husable⟩ := usable_of_validateConfig (validateConfig_of_parseMemoryIni haccepted)
  obtain rfl := Option.some.inj (hmodel.symm.trans husable.active)
  have htable := (Machine.straight_bootBoard aregH aregL ctxReg table ram).2
  have hisolated : Isolated (parseMemoryIni file).2 model s.hw.view.mmuRam := by
    rw [show s.hw.view.mmuRam = _ from hmmu]
    exact isolated_of_firstShared husable (distinct_parseMemoryIni file) htable hconfigured hshared
  -- The mapping keeps the private cells of `x` out of the reach of every other context.
  have happart : s.hw.Apart (OtherContexts x) (s.hw.view.PrivateCells (parseMemoryIni file).2 model x) :=
    ⟨hs, hcontext, hides_privateCells hisolated hx⟩
  obtain ⟨-, hentries, hcells⟩ := leavesAlone_run hread flash hrun happart
  generalize run.foldl (System.step ff flash) s = s' at hentries hcells
  have hsame : (s'.hw.view.select x).physAddr a = (s.hw.view.select x).physAddr a :=
    congrArg (fun mmu : UInt8 × UInt8 → UInt8 => (mmu (x, Machine.index a) &&& 0x7F, a &&& 0x0FFF)) hentries
  rw [Machine.View.peek, hsame]
  exact hcells _ ⟨a, region, hcovers, hprivate, rfl⟩

end Private

/-- A model whose context 0 shares all its pages with context 1, which has its upper half for itself. -/
def privateHalfIni : List UInt8 :=
  ascii "[system]\nconfig_version=1\nactive_model=m\nboot_context=0\n[model.m]\ncontexts=2\n" ++
    ascii "[layout.m.l.region.low]\nstart=0\npages=8\nshared=true\n" ++
    ascii "[layout.m.l.region.high]\nstart=8\npages=8\nshared=true\n" ++
    ascii "[layout.m.p.region.low]\nstart=0\npages=8\nshared=true\n" ++
    ascii "[layout.m.p.region.own]\nstart=8\npages=8\n" ++
    ascii "[context.m.0]\nlayout=l\n[context.m.1]\nlayout=p\n"

/-- The configuration it describes. -/
def privateHalf : MemoryConfig where
  version := 1
  active_model := copyName (ascii "m")
  boot_context := 0
  models := [⟨copyName (ascii "m"), 2⟩]
  layouts := [⟨copyName (ascii "m"), copyName (ascii "l"),
      [⟨copyName (ascii "low"), 0, 8, true, .MEMORY_REGION_NORMAL, false⟩,
        ⟨copyName (ascii "high"), 8, 8, true, .MEMORY_REGION_NORMAL, false⟩]⟩,
    ⟨copyName (ascii "m"), copyName (ascii "p"),
      [⟨copyName (ascii "low"), 0, 8, true, .MEMORY_REGION_NORMAL, false⟩,
        ⟨copyName (ascii "own"), 8, 8, false, .MEMORY_REGION_NORMAL, false⟩]⟩]
  contexts := [⟨copyName (ascii "m"), 0, copyName (ascii "l")⟩, ⟨copyName (ascii "m"), 1, copyName (ascii "p")⟩]

set_option maxRecDepth 2000 in
theorem privateHalfIni_parsed :
    (parseMemoryIni privateHalfIni).1 = .ok () ∧ (parseMemoryIni privateHalfIni).2 = privateHalf := by
  have hbytes : privateHalfIni = _ := congrArg₂ (· ++ ·) (congrArg₂ (· ++ ·) (congrArg₂ (· ++ ·)
    (congrArg₂ (· ++ ·) (congrArg₂ (· ++ ·) (ascii_ofList _) (ascii_ofList _)) (ascii_ofList _)) (ascii_ofList _))
      (ascii_ofList _)) (ascii_ofList _)
  rw [hbytes]
  decide +kernel

theorem privateHalf_configured :
    (configureMMUFromActiveModel privateHalf).result (.atSetup zeroBoard.mmuRam) = true := by
  decide +kernel

/-- A CPU that runs in context 0 of this model. -/
def halfBoard : Machine :=
  { Machine.running (fun _ => 0) with
    mmuRam := ((configureMMUFromActiveModel (parseMemoryIni privateHalfIni).2).final (.atSetup zeroBoard.mmuRam)).mmu }

/-- The byte at `$9000` of context 1 stays when the monitor stores at `$9000` of context 0. -/
theorem private_memory_kept_half :
    ((List.foldl (System.step RamDisk.fatFs fun _ => none) (.start halfBoard (RamDisk.mounted fun _ => none))
      [LoopStep.taskSimpleIO, .snoop (.writeLoc 0x9000 7), .edge]).hw.view.select 1).peek 0x9000 =
        (halfBoard.view.select 1).peek 0x9000 := by
  obtain ⟨haccepted, hparsed⟩ := privateHalfIni_parsed
  have hsteady : (System.start halfBoard (RamDisk.mounted fun _ => none)).hw.Steady :=
    ⟨⟨nofun, nofun, nofun, .inr rfl⟩, rfl⟩
  have hrun : Run.AtEveryStep (System.step RamDisk.fatFs fun _ => none) (LoopStep.StaysIn (OtherContexts 1))
      (.start halfBoard (RamDisk.mounted fun _ => none)) [LoopStep.taskSimpleIO, .snoop (.writeLoc 0x9000 7), .edge] :=
    Run.atEveryStep_cons.2 ⟨trivial, Run.atEveryStep_cons.2 ⟨trivial,
      Run.atEveryStep_cons.2 ⟨trivial, Run.atEveryStep_nil _⟩⟩⟩
  have hshared : FirstShared (parseMemoryIni privateHalfIni).2 ⟨copyName (ascii "m"), 2⟩ := by
    intro layout hlayout
    rw [hparsed] at hlayout
    cases hlayout
    decide
  have hcovers : (parseMemoryIni privateHalfIni).2.Covers ⟨copyName (ascii "m"), 2⟩ 1 (Machine.index 0x9000)
      ⟨copyName (ascii "own"), 8, 8, false, .MEMORY_REGION_NORMAL, false⟩ := by
    rw [hparsed]
    exact ⟨_, rfl, by decide, by decide⟩
  refine private_memory_kept readsAtMost_ramDisk (fun _ => none) 0 0 0 (fun _ => 0) (fun _ => 0) haccepted ?_ ?_
    hshared (by decide) hsteady rfl ⟨.inl (by decide), by decide⟩ hrun hcovers rfl
  · rw [hparsed]
    exact privateHalf_configured
  · rw [hparsed]
    rfl

end NeoMmu
