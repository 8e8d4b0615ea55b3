import NeoMmu.Hardware.MmuTable

/-!
# System states

`p6502.cpp`: moving the 6502 side between its states and stepping the CPU. A transition drives the
control pins, the clock and the control mode; entering `sRESET` also selects the default context.
What software on either side sees of the machine is its `View`, and `Settled` is the invariant that
makes leaving a state and coming back invisible there.
-/

namespace NeoMmu

/-! ## Transitions -/

/-- `dir6502RW()` -/
def dir6502RW (vDir : Direction) : Prog Machine Unit :=
  match vDir with
  | .mINPUT => modify fun m => { m with gDir6502RW := .mINPUT }
  | .mOUTPUT => modify fun m => { m with gDir6502RW := .mOUTPUT }
  | .mUNKNOWN => pure ()

/-- `set6502Clock()` -/
def set6502Clock : Prog Machine Unit := modify fun m => { m with gClockState := .eON }

/-- `halt6502clock()`; moving on to a read cycle steps only the CPU. -/
def halt6502clock : Prog Machine Unit := modify fun m => { m with gClockState := .eOFF }

/-- `IRQPin` -/
def setIRQPin (level : Bool) : Prog Machine Unit := modify fun m => { m with irqPin := level }

/-- `RESETPin` -/
def setRESETPin (level : Bool) : Prog Machine Unit := modify fun m => { m with resetPin := level }

/-- `RDYPin` -/
def setRDYPin (level : Bool) : Prog Machine Unit := modify fun m => { m with rdyPin := level }

/-- `BEPin` -/
def setBEPin (level : Bool) : Prog Machine Unit := modify fun m => { m with bePin := level }

/-- The `switch` of `set6502State()`; `false` is the state that must not be selected. -/
def enterState : SysState → Prog Machine Bool
  | .sSTARTUP => return false
  | .sBOOT => do
    setIRQPin true
    setRESETPin false
    halt6502clock
    setRDYPin false
    setBEPin false
    dir6502RW .mOUTPUT
    setControlMode .mRPI
    return true
  | .sRESET => do
    setIRQPin true
    setRESETPin false
    set6502Clock
    setRDYPin false
    setBEPin true
    dir6502RW .mINPUT
    setControlMode .mCPU
    setMMUContext DEFAULT_CONTEXT
    return true
  | .sHALTED => do
    halt6502clock
    setRDYPin false
    setBEPin true
    dir6502RW .mINPUT
    setControlMode .mCPU
    return true
  | .sRUNNING => do
    dir6502RW .mINPUT
    setBEPin true
    set6502Clock
    setRDYPin true
    setRESETPin true
    setControlMode .mCPU
    return true
  | .sREAD => do
    setRESETPin true
    halt6502clock
    setRDYPin true
    setBEPin true
    dir6502RW .mINPUT
    setControlMode .mRPI
    return true
  | .sRPI => do
    halt6502clock
    setRDYPin false
    setBEPin false
    dir6502RW .mOUTPUT
    setControlMode .mRPI
    return true

/-- `get6502State()` -/
def get6502State : Prog Machine SysState := .gets (·.gSysState)

/-- `set6502State()` -/
def set6502State (vSysState : SysState) : Prog Machine Bool := do
  if vSysState = (← get6502State) then
    return true
  else
    if ← enterState vSysState then
      modify fun m => { m with gSysState := vSysState }
      return true
    else
      return false

/-- `init6502()` -/
def init6502 : Prog Machine Unit := do discard <| set6502State .sBOOT

/-- `singleCycle6502()`: the cycles are the CPU's own. With no steps the state stays `sREAD`. -/
def singleCycle6502 (vSteps : UInt8) : Prog Machine Unit := do
  let lState ← get6502State
  discard <| set6502State .sREAD
  if vSteps = 0 then
    return
  else
    discard <| set6502State lState

/-- `singleStep6502()`: the cycles up to the next opcode fetch are the CPU's own. -/
def singleStep6502 : Prog Machine Unit := do
  let lState ← get6502State
  discard <| set6502State .sHALTED
  discard <| set6502State .sREAD
  discard <| set6502State lState

/-! ## What software sees -/

namespace Machine

/-- The memory, the mapping in force and the two values that software can ask for. -/
structure View where
  ram : UInt8 × UInt16 → UInt8
  mmuRam : UInt8 × UInt8 → UInt8
  ctxReg : UInt8
  gCurrentContext : Int
  gSysState : SysState

/-- The view of a machine. -/
def view (m : Machine) : View := ⟨m.ram, m.mmuRam, m.ctxReg, m.gCurrentContext, m.gSysState⟩

namespace View

/-- The RAM cell an address selects. -/
def physAddr (v : View) (vAddress : UInt16) : UInt8 × UInt16 :=
  (v.mmuRam (v.ctxReg, index vAddress) &&& 0x7F, vAddress &&& 0x0FFF)

/-- The byte at an address. -/
def peek (v : View) (vAddress : UInt16) : UInt8 := v.ram (v.physAddr vAddress)

/-- The view after a write. -/
def poke (v : View) (vAddress : UInt16) (vData : UInt8) : View :=
  { v with ram := Function.update v.ram (v.physAddr vAddress) vData }

/-- The view with a context selected. -/
def select (v : View) (vContext : UInt8) : View :=
  { v with ctxReg := vContext, gCurrentContext := vContext.toNat }

/-- The view in a system state; `sRESET` selects the default context. -/
def enter (v : View) (vSysState : SysState) : View :=
  let v := { v with gSysState := vSysState }
  if vSysState = .sRESET then v.select DEFAULT_CONTEXT else v

end View

@[simp] theorem peek_view (m : Machine) (a : UInt16) : m.view.peek a = m.peek a := rfl

@[simp] theorem view_poke (m : Machine) (a : UInt16) (b : UInt8) : (m.poke a b).view = m.view.poke a b :=
  rfl

@[simp] theorem view_latch (m : Machine) (a : UInt16) : (m.latch a).view = m.view := rfl

@[simp] theorem view_irqOn (m : Machine) : m.irqOn.view = m.view := rfl

/-- The system has left `sSTARTUP`, the RP drives the bus in `sRPI`, the context is the default one
in `sRESET`, and the context cache is right. -/
structure Settled (m : Machine) : Prop where
  started : m.gSysState ≠ .sSTARTUP
  rpi : m.gSysState = .sRPI → m.gControlMode = .mRPI
  reset : m.gSysState = .sRESET → m.gCurrentContext = DEFAULT_CONTEXT.toNat
  cached : m.ContextCached

instance (m : Machine) : Decidable m.ContextCached :=
  inferInstanceAs (Decidable (m.gCurrentContext = -1 ∨ m.gCurrentContext = m.ctxReg.toNat))

instance (m : Machine) : Decidable m.Settled :=
  decidable_of_iff (m.gSysState ≠ .sSTARTUP ∧ (m.gSysState = .sRPI → m.gControlMode = .mRPI) ∧
      (m.gSysState = .sRESET → m.gCurrentContext = DEFAULT_CONTEXT.toNat) ∧ m.ContextCached)
    ⟨fun h => ⟨h.1, h.2.1, h.2.2.1, h.2.2.2⟩, fun h => ⟨h.started, h.rpi, h.reset, h.cached⟩⟩

/-- A board whose CPU runs in the default context, every context mapped straight. -/
def running (ram : UInt8 × UInt16 → UInt8) : Machine :=
  { setup6502 0 0 DEFAULT_CONTEXT (fun entry => gDefaultMMU.getD entry.2.toNat 0) ram with
    resetPin := true, rdyPin := true, bePin := true, gControlMode := .mCPU, gSysState := .sRUNNING,
    gDir6502RW := .mINPUT, gClockState := .eON, gCurrentContext := DEFAULT_CONTEXT.toNat }

theorem settled_running (ram : UInt8 × UInt16 → UInt8) : (running ram).Settled :=
  ⟨nofun, nofun, nofun, .inr rfl⟩

end Machine

section States

variable {m : Machine}

@[simp] theorem result_get6502State : get6502State.result m = m.gSysState := by rfl

@[simp] theorem final_get6502State : get6502State.final m = m := by rfl

theorem view_setMMUContext (hm : m.ContextCached) (c : UInt8) :
    ((setMMUContext c).final m).view = m.view.select c := by
  rw [final_setMMUContext hm]
  rfl

theorem settled_setMMUContext (hm : m.Settled) {c : UInt8} (hstate : m.gSysState ≠ .sRESET) :
    ((setMMUContext c).final m).Settled := by
  rw [final_setMMUContext hm.cached]
  exact ⟨hm.started, hm.rpi, fun h => absurd h hstate, .inr rfl⟩

theorem final_enterState_reset (hm : m.ContextCached) : (enterState .sRESET).final m =
    { m with
      irqPin := true, resetPin := false, gClockState := .eON, rdyPin := false, bePin := true,
      gDir6502RW := .mINPUT, gControlMode := .mCPU,
      ctxReg := DEFAULT_CONTEXT, gCurrentContext := DEFAULT_CONTEXT.toNat } := by
  have hpins : Machine.ContextCached { m with
      irqPin := true, resetPin := false, gClockState := .eON, rdyPin := false, bePin := true,
      gDir6502RW := .mINPUT, gControlMode := .mCPU } := hm
  exact final_setMMUContext hpins DEFAULT_CONTEXT

/-- Entering a state other than `sSTARTUP` is accepted and leaves the view of that state. -/
theorem enterState_spec (hm : m.ContextCached) {s : SysState} (hs : s ≠ .sSTARTUP) :
    (enterState s).result m = true ∧
      ({ (enterState s).final m with gSysState := s } : Machine).view = m.view.enter s ∧
      ({ (enterState s).final m with gSysState := s } : Machine).Settled := by
  cases s with
  | sSTARTUP => exact absurd rfl hs
  | sRESET =>
    rw [final_enterState_reset hm]
    exact ⟨rfl, rfl, nofun, nofun, fun _ => rfl, .inr rfl⟩
  | sBOOT => exact ⟨rfl, rfl, nofun, nofun, nofun, hm⟩
  | sHALTED => exact ⟨rfl, rfl, nofun, nofun, nofun, hm⟩
  | sRUNNING => exact ⟨rfl, rfl, nofun, nofun, nofun, hm⟩
  | sREAD => exact ⟨rfl, rfl, nofun, nofun, nofun, hm⟩
  | sRPI => exact ⟨rfl, rfl, nofun, fun _ => rfl, nofun, hm⟩

/-- A view that is already in a state is not changed by entering it. -/
theorem Machine.Settled.view_enter_self (hm : m.Settled) : m.view.enter m.gSysState = m.view := by
  by_cases hstate : m.gSysState = .sRESET
  · have hctx := hm.reset hstate
    have hreg : m.ctxReg = DEFAULT_CONTEXT := by
      rcases hm.cached with h | h
      · rw [hctx] at h
        exact absurd h (by decide)
      · rw [hctx] at h
        exact UInt8.toNat_inj.1 (by exact_mod_cast h.symm)
    simp [Machine.View.enter, Machine.View.select, Machine.view, hstate, hctx, hreg]
  · simp [Machine.View.enter, Machine.view, hstate]

/-- A transition leaves the view of the state it enters, and a settled machine. -/
theorem set6502State_spec (hm : m.Settled) {s : SysState} (hs : s ≠ .sSTARTUP) :
    ((set6502State s).final m).view = m.view.enter s ∧ ((set6502State s).final m).Settled := by
  simp only [set6502State, Prog.final_bind, result_get6502State, final_get6502State, Prog.final_ite,
    Prog.final_pure]
  split
  · rename_i hsame
    subst hsame
    exact ⟨hm.view_enter_self.symm, hm⟩
  · obtain ⟨hres, hview, hsettled⟩ := enterState_spec hm.cached hs
    rw [if_pos hres]
    exact ⟨hview, hsettled⟩

/-- `sSTARTUP` is refused and nothing happens. -/
theorem final_set6502State_startup : (set6502State .sSTARTUP).final m = m := by
  simp only [set6502State, Prog.final_bind, result_get6502State, final_get6502State, Prog.final_ite,
    Prog.final_pure]
  split <;> rfl

/-- Every transition the firmware asks for leaves a settled machine. -/
theorem settled_set6502State (hm : m.Settled) (s : SysState) : ((set6502State s).final m).Settled := by
  by_cases hs : s = .sSTARTUP
  · rw [hs, final_set6502State_startup]
    exact hm
  · exact (set6502State_spec hm hs).2

end States

end NeoMmu
