import NeoMmu.Hardware.Snoop

/-!
# Staying settled

Snooping and context accesses rely on a settled machine. Transitions, single steps and snooping keep it
settled in every system state; selecting a context keeps it settled anywhere but in `sRESET`, so what
selects contexts either runs in another state or is bracketed by one.
-/

namespace NeoMmu

variable {α : Type}

/-- A settled machine stays settled. -/
def Settling (m m' : Machine) : Prop := m.Settled → m'.Settled

instance : Std.Refl Settling where
  refl _ := id

instance : IsTrans Machine Settling where
  trans _ _ _ h h' := h' ∘ h

/-- Outside of `sRESET` a settled machine stays settled, in its state. -/
def Selecting (m m' : Machine) : Prop :=
  m.Settled → m.gSysState ≠ .sRESET → m'.Settled ∧ m'.gSysState = m.gSysState

instance : Std.Refl Selecting where
  refl _ := fun hm _ => ⟨hm, rfl⟩

instance : IsTrans Machine Selecting where
  trans m m' m'' h h' := by
    intro hm hstate
    obtain ⟨hm', hsame⟩ := h hm hstate
    obtain ⟨hm'', hsame'⟩ := h' hm' (by rwa [hsame])
    exact ⟨hm'', hsame'.trans hsame⟩

/-! ## Selecting contexts and entries -/

/-- What leaves state, control mode and context alone leaves the machine settled. -/
theorem Machine.Settled.congr {m m' : Machine} (hm : m.Settled) (hstate : m'.gSysState = m.gSysState)
    (hmode : m'.gControlMode = m.gControlMode) (hctx : m'.gCurrentContext = m.gCurrentContext)
    (hreg : m'.ctxReg = m.ctxReg) : m'.Settled := by
  obtain ⟨hstarted, hrpi, hreset, hcached⟩ := hm
  refine ⟨?_, ?_, ?_, ?_⟩
  · rwa [hstate]
  · rwa [hstate, hmode]
  · rwa [hstate, hctx]
  · rwa [Machine.ContextCached, hctx, hreg]

theorem selecting_setMMUContext (c : UInt8) : Prog.Keeps Selecting (setMMUContext c) := by
  intro m hm hstate
  refine ⟨settled_setMMUContext hm hstate, ?_⟩
  rw [final_setMMUContext hm.cached]

theorem selecting_writeMMUIndex (i : UInt8) : Prog.Keeps Selecting (writeMMUIndex i) := by
  intro m hm _
  rw [final_writeMMUIndex]
  split
  · exact ⟨hm, rfl⟩
  · exact ⟨hm.congr rfl rfl rfl rfl, rfl⟩

theorem selecting_readMMUPage (c i : UInt8) : Prog.Keeps Selecting (readMMUPage c i) :=
  (selecting_setMMUContext c).bind fun _ => (selecting_writeMMUIndex i).bind fun _ =>
    Prog.Keeps.gets _

theorem selecting_writeMMUPage (c i v : UInt8) : Prog.Keeps Selecting (writeMMUPage c i v) := by
  refine (selecting_setMMUContext c).bind fun _ => (selecting_writeMMUIndex i).bind fun _ => ?_
  refine Prog.Keeps.bind (Prog.Keeps.modify fun m => ?_) fun _ => Prog.Keeps.pure true
  exact fun hm _ => ⟨hm.congr rfl rfl rfl rfl, rfl⟩

theorem selecting_enableMMUInterrupt : Prog.Keeps Selecting enableMMUInterrupt :=
  Prog.Keeps.bind (Prog.Keeps.modify fun _ hm _ => ⟨hm.congr rfl rfl rfl rfl, rfl⟩) fun _ =>
    Prog.Keeps.modify fun _ hm _ => ⟨hm.congr rfl rfl rfl rfl, rfl⟩

theorem selecting_disableMMUInterrupt : Prog.Keeps Selecting disableMMUInterrupt :=
  Prog.Keeps.bind (Prog.Keeps.modify fun _ hm _ => ⟨hm.congr rfl rfl rfl rfl, rfl⟩) fun _ =>
    Prog.Keeps.modify fun _ hm _ => ⟨hm.congr rfl rfl rfl rfl, rfl⟩

theorem selecting_initMMU : Prog.Keeps Selecting initMMU := by
  refine selecting_disableMMUInterrupt.bind fun _ => ?_
  refine Prog.Keeps.bind (Prog.Keeps.mapM fun c _ => ?_) fun ok =>
    (selecting_setMMUContext _).bind fun _ => ?_
  · refine Prog.Keeps.bind (Prog.Keeps.mapM fun page _ => ?_) fun _ => Prog.Keeps.pure _
    exact selecting_writeMMUPage _ _ _
  · exact Prog.Keeps.ite (fun _ => selecting_enableMMUInterrupt.bind fun _ => Prog.Keeps.pure _) fun _ =>
      Prog.Keeps.pure _

theorem selecting_read6502Memory (a : UInt16) : Prog.Keeps Selecting (read6502Memory a) := by
  intro m hm _
  by_cases hmode : m.gControlMode = .mRPI
  · rw [final_read6502Memory hmode]
    exact ⟨hm.congr rfl rfl rfl rfl, rfl⟩
  · simp only [read6502Memory, Prog.final_bind, result_getControlMode, final_getControlMode, hmode,
      if_false, Prog.final_pure]
    exact ⟨hm, trivial⟩

theorem selecting_write6502Memory (a : UInt16) (b : UInt8) :
    Prog.Keeps Selecting (write6502Memory a b) := by
  intro m hm _
  by_cases hmode : m.gControlMode = .mRPI
  · rw [final_write6502Memory hmode]
    exact ⟨hm.congr rfl rfl rfl rfl, rfl⟩
  · simp only [write6502Memory, Prog.final_bind, result_getControlMode, final_getControlMode, hmode,
      if_false, Prog.final_pure]
    exact ⟨hm, trivial⟩

theorem selecting_readBlock (a : UInt16) (n : Nat) : Prog.Keeps Selecting (readBlock a n) := by
  induction n generalizing a with
  | zero => exact Prog.Keeps.pure []
  | succ n ih =>
    exact (selecting_read6502Memory a).bind fun _ => (ih (a + 1)).bind fun _ => Prog.Keeps.pure _

theorem selecting_writeBlock (a : UInt16) (bs : List UInt8) :
    Prog.Keeps Selecting (writeBlock a bs) := by
  induction bs generalizing a with
  | nil => exact Prog.Keeps.pure ()
  | cons b bs ih => exact (selecting_write6502Memory a b).bind fun _ => ih (a + 1)

/-! ## Transitions -/

theorem settling_set6502State (s : SysState) : Prog.Keeps Settling (set6502State s) :=
  fun _ hm => settled_set6502State hm s

/-- A program that selects contexts, run in a state other than `sRESET`. -/
theorem settling_inState {s : SysState} (hs : s ≠ .sSTARTUP) (hreset : s ≠ .sRESET)
    {p : Prog Machine α} (hp : Prog.Keeps Selecting p) :
    Prog.Keeps Settling (do discard <| set6502State s; p) := by
  intro m hm
  obtain ⟨hview, hsettled⟩ := set6502State_spec hm hs
  have hstate : ((set6502State s).final m).gSysState = s := by
    refine (congrArg Machine.View.gSysState hview).trans ?_
    rw [Machine.View.enter, if_neg hreset]
  exact (hp _ hsettled (by rwa [hstate])).1

/-- The same with the state before put back behind it. -/
theorem settling_bracket {s : SysState} (hs : s ≠ .sSTARTUP) (hreset : s ≠ .sRESET)
    {p : Prog Machine α} (hp : Prog.Keeps Selecting p) :
    Prog.Keeps Settling (do
      let lState ← get6502State
      discard <| set6502State s
      let r ← p
      discard <| set6502State lState
      return r) := by
  intro m hm
  exact settled_set6502State (settling_inState hs hreset hp m hm) m.gSysState

theorem settling_snooping {cycles : Prog Machine α} (hc : Prog.Keeps Selecting cycles) :
    Prog.Keeps Settling (snooping cycles) :=
  settling_bracket (s := .sRPI) nofun nofun hc

theorem settling_snoopRead6502MemoryLoc (a : UInt16) :
    Prog.Keeps Settling (snoopRead6502MemoryLoc a) :=
  settling_snooping (selecting_read6502Memory a)

theorem settling_snoopRead6502Memory (a n : UInt16) : Prog.Keeps Settling (snoopRead6502Memory a n) :=
  settling_snooping (selecting_readBlock a n.toNat)

theorem settling_snoopWrite6502MemoryLoc (a : UInt16) (b : UInt8) :
    Prog.Keeps Settling (snoopWrite6502MemoryLoc a b) :=
  settling_snooping (selecting_write6502Memory a b)

theorem settling_snoopWrite6502Memory (a : UInt16) (bs : List UInt8) :
    Prog.Keeps Settling (snoopWrite6502Memory a bs) :=
  settling_snooping (selecting_writeBlock a bs)

theorem settling_singleCycle6502 (vSteps : UInt8) : Prog.Keeps Settling (singleCycle6502 vSteps) :=
  Prog.Keeps.gets _ |>.bind fun s => (settling_set6502State .sREAD).discard.bind fun _ =>
    Prog.Keeps.ite (fun _ => Prog.Keeps.pure ()) fun _ => (settling_set6502State s).discard

theorem settling_singleStep6502 : Prog.Keeps Settling singleStep6502 :=
  Prog.Keeps.gets _ |>.bind fun s => (settling_set6502State .sHALTED).discard.bind fun _ =>
    (settling_set6502State .sREAD).discard.bind fun _ => (settling_set6502State s).discard

end NeoMmu
