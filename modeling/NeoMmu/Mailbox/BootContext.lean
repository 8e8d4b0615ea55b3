import NeoMmu.Mailbox.IrqSlot

/-!
# The context the CPU boots in

`bootSystemWithMenu()` selects the configured boot context, and `setup()` ends with a reset, which selects the
default one. Behind `setup()` no step but a context switch, the monitor reset and the configuration menu changes
the context, so the CPU is started in the boot context exactly if that is the default one or the menu has run
again behind the last reset.
-/

namespace NeoMmu

variable {σ α : Type}

/-! ## Staying in a context -/

/-- A steady board stays steady, in its context. -/
def Staying (m m' : Machine) : Prop := m.Steady → m'.Steady ∧ m'.ctxReg = m.ctxReg

instance : Std.Refl Staying where
  refl _ := fun hm => ⟨hm, rfl⟩

instance : IsTrans Machine Staying where
  trans m m' m'' h h' := by
    intro hm
    obtain ⟨hm', hreg⟩ := h hm
    obtain ⟨hm'', hreg'⟩ := h' hm'
    exact ⟨hm'', hreg'.trans hreg⟩

/-- Outside of `sRESET` a steady board in context `c` stays steady, in its context and its state. -/
def Remaining (c : UInt8) (m m' : Machine) : Prop :=
  m.Steady → m.gSysState ≠ .sRESET → m.ctxReg = c →
    m'.Steady ∧ m'.gSysState = m.gSysState ∧ m'.ctxReg = c

instance (c : UInt8) : Std.Refl (Remaining c) where
  refl _ := fun hm _ hreg => ⟨hm, rfl, hreg⟩

instance (c : UInt8) : IsTrans Machine (Remaining c) where
  trans m m' m'' h h' := by
    intro hm hstate hreg
    obtain ⟨hm', hsame, hreg'⟩ := h hm hstate hreg
    obtain ⟨hm'', hsame', hreg''⟩ := h' hm' (by rwa [hsame]) hreg'
    exact ⟨hm'', hsame'.trans hsame, hreg''⟩

section Board

variable {m m' : Machine}

theorem Machine.Steady.stay (hm : m.Steady) (hm' : m'.Settled) (hctx : m'.gCurrentContext = m.gCurrentContext)
    (hreg : m'.ctxReg = m.ctxReg) : m'.Steady ∧ m'.ctxReg = m.ctxReg := by
  refine ⟨⟨hm', ?_⟩, hreg⟩
  rw [Selected, hctx, hreg]
  exact hm.selected

/-- The context of a steady board is the one it reports. -/
theorem Machine.Steady.getMMUContext (hm : m.Steady) : m.getMMUContext = m.ctxReg :=
  getMMUContext_of_eq hm.selected

theorem Selecting.remaining {c : UInt8} (h : Selecting m m')
    (hctx : m'.gCurrentContext = m.gCurrentContext) (hreg : m'.ctxReg = m.ctxReg) : Remaining c m m' := by
  intro hm hstate hc
  obtain ⟨hm', hsame⟩ := h hm.settled hstate
  exact ⟨(hm.stay hm' hctx hreg).1, hsame, hreg.trans hc⟩

/-- Entering a state other than `sRESET`. -/
theorem staying_set6502State {s : SysState} (hs : s ≠ .sRESET) : Prog.Keeps Staying (set6502State s) := by
  intro m hm
  by_cases hstartup : s = .sSTARTUP
  · rw [hstartup, final_set6502State_startup]
    exact ⟨hm, rfl⟩
  obtain ⟨hview, hsettled⟩ := set6502State_spec hm.settled hstartup
  rw [Machine.View.enter, if_neg hs] at hview
  exact hm.stay hsettled (congrArg Machine.View.gCurrentContext hview)
    (congrArg Machine.View.ctxReg hview)

/-- `sRESET` selects the default context. -/
theorem selected_sRESET (hm : m.Settled) :
    ((set6502State .sRESET).final m).Steady ∧ ((set6502State .sRESET).final m).ctxReg = DEFAULT_CONTEXT := by
  obtain ⟨hview, hsettled⟩ := set6502State_spec hm (s := .sRESET) nofun
  have hreg : ((set6502State .sRESET).final m).ctxReg = DEFAULT_CONTEXT :=
    congrArg Machine.View.ctxReg hview
  refine ⟨⟨hsettled, ?_⟩, hreg⟩
  rw [Machine.Selected, hreg]
  exact congrArg Machine.View.gCurrentContext hview

theorem steady_set6502State (hm : m.Steady) (s : SysState) : ((set6502State s).final m).Steady := by
  by_cases hreset : s = .sRESET
  · rw [hreset]
    exact (selected_sRESET hm.settled).1
  · exact (staying_set6502State hreset m hm).1

/-- Going back to the state of a steady board in the same context. -/
theorem staying_return (hm : m.Steady) (hm' : m'.Steady) (hreg : m'.ctxReg = m.ctxReg) :
    ((set6502State m.gSysState).final m').Steady ∧
      ((set6502State m.gSysState).final m').ctxReg = m.ctxReg := by
  by_cases hreset : m.gSysState = .sRESET
  · have hdefault : m.ctxReg = DEFAULT_CONTEXT := by
      have hselected := hm.selected
      rw [Machine.Selected, hm.settled.reset hreset] at hselected
      exact UInt8.toNat_inj.1 (by exact_mod_cast hselected.symm)
    rw [hreset]
    obtain ⟨hsteady, hreg'⟩ := selected_sRESET hm'.settled
    exact ⟨hsteady, hreg'.trans hdefault.symm⟩
  · obtain ⟨hsteady, hsame⟩ := staying_set6502State hreset m' hm'
    exact ⟨hsteady, hsame.trans hreg⟩

/-- What remains in the context, between entering a state and going back. -/
theorem staying_bracket {s : SysState} (hs : s ≠ .sSTARTUP) (hreset : s ≠ .sRESET) (hm : m.Steady)
    {p : Prog Machine α} (hp : Prog.Keeps (Remaining m.ctxReg) p) :
    Staying m (Prog.final (do
      let lState ← get6502State
      discard <| set6502State s
      let r ← p
      discard <| set6502State lState
      return r) m) := by
  intro _
  obtain ⟨hentered, hreg⟩ := staying_set6502State hreset m hm
  have hstate : ((set6502State s).final m).gSysState = s := by
    obtain ⟨hview, -⟩ := set6502State_spec hm.settled hs
    refine (congrArg Machine.View.gSysState hview).trans ?_
    rw [Machine.View.enter, if_neg hreset]
  obtain ⟨hsteady, -, hreg'⟩ := hp _ hentered (by rwa [hstate]) hreg
  exact staying_return hm hsteady hreg'

theorem steady_setMMUContext (hm : m.Settled) (hstate : m.gSysState ≠ .sRESET) (c : UInt8) :
    ((setMMUContext c).final m).Steady ∧ ((setMMUContext c).final m).gSysState = m.gSysState ∧
      ((setMMUContext c).final m).ctxReg = c := by
  obtain ⟨hm', hsame⟩ := selecting_setMMUContext c m hm hstate
  rw [final_setMMUContext hm.cached] at hm' hsame ⊢
  exact ⟨⟨hm', rfl⟩, hsame, rfl⟩

theorem remaining_setMMUContext (c : UInt8) : Prog.Keeps (Remaining c) (setMMUContext c) :=
  fun _ hm hstate _ => steady_setMMUContext hm.settled hstate c

theorem remaining_writeMMUIndex (c i : UInt8) : Prog.Keeps (Remaining c) (writeMMUIndex i) := by
  intro m
  refine (selecting_writeMMUIndex i m).remaining ?_ ?_
  · rw [final_writeMMUIndex]
    split <;> rfl
  · rw [final_writeMMUIndex]
    split <;> rfl

theorem remaining_readMMUPage (c i : UInt8) : Prog.Keeps (Remaining c) (readMMUPage c i) :=
  (remaining_setMMUContext c).bind fun _ => (remaining_writeMMUIndex c i).bind fun _ =>
    Prog.Keeps.gets _

theorem remaining_writeMMUPage (c i v : UInt8) : Prog.Keeps (Remaining c) (writeMMUPage c i v) := by
  refine (remaining_setMMUContext c).bind fun _ => (remaining_writeMMUIndex c i).bind fun _ => ?_
  refine Prog.Keeps.bind (Prog.Keeps.modify fun m => ?_) fun _ => Prog.Keeps.pure true
  exact fun hm _ hreg => ⟨⟨hm.settled.congr rfl rfl rfl rfl, hm.selected⟩, rfl, hreg⟩

theorem remaining_write6502Memory (c : UInt8) (a : UInt16) (b : UInt8) :
    Prog.Keeps (Remaining c) (write6502Memory a b) := by
  intro m
  refine (selecting_write6502Memory a b m).remaining ?_ ?_
  all_goals
    simp only [write6502Memory, disableMMUInterrupt, enableMMUInterrupt, writeCPUAddress,
      Prog.final_bind, Prog.final_ite, result_getControlMode, final_getControlMode, Prog.final_pure]
    split
    · split <;> rfl
    · rfl

theorem remaining_dumpMMUPageMap (c : UInt8) : Prog.Keeps (Remaining c) (dumpMMUPageMap c) :=
  Prog.Keeps.ite (fun _ => Prog.Keeps.pure ()) fun _ =>
    Prog.Keeps.forM fun _ _ => (remaining_readMMUPage c _).discard

theorem staying_cmdMMU : Prog.Keeps Staying cmdMMU := by
  intro m hm
  have hdump : Prog.Keeps (Remaining m.ctxReg) (dumpMMUPageMap m.getMMUContext) := by
    rw [hm.getMMUContext]
    exact remaining_dumpMMUPageMap _
  exact staying_bracket (s := .sRPI) nofun nofun hm hdump hm

theorem staying_cmdPage (lIndex lPage : UInt8) : Prog.Keeps Staying (cmdPage lIndex lPage) := by
  intro m hm
  have hpage : Prog.Keeps (Remaining m.ctxReg) (do
      discard <| readMMUPage m.getMMUContext lIndex
      discard <| writeMMUPage m.getMMUContext lIndex lPage) := by
    rw [hm.getMMUContext]
    exact (remaining_readMMUPage _ lIndex).discard.bind fun _ =>
      (remaining_writeMMUPage _ lIndex lPage).discard
  exact staying_bracket (s := .sRPI) nofun nofun hm hpage hm

theorem staying_cmdZero : Prog.Keeps Staying cmdZero := by
  intro m hm
  have hfill : Prog.Keeps (Remaining m.ctxReg) (fillMemory 0x00) :=
    Prog.Keeps.forM fun _ _ => remaining_write6502Memory _ _ _
  exact staying_bracket (s := .sBOOT) nofun nofun hm hfill hm

theorem staying_singleCycle6502 (vSteps : UInt8) : Prog.Keeps Staying (singleCycle6502 vSteps) := by
  intro m hm
  obtain ⟨hsteady, hreg⟩ := staying_set6502State (s := .sREAD) nofun m hm
  simp only [singleCycle6502, Prog.final_bind, result_get6502State, final_get6502State,
    Prog.final_discard, Prog.final_ite, Prog.final_pure]
  split
  · exact ⟨hsteady, hreg⟩
  · exact staying_return hm hsteady hreg

theorem staying_singleStep6502 : Prog.Keeps Staying singleStep6502 := by
  intro m hm
  obtain ⟨hsteady, hreg⟩ := ((staying_set6502State (s := .sHALTED) nofun).bind fun _ =>
    staying_set6502State (s := .sREAD) nofun) m hm
  exact staying_return hm hsteady hreg

theorem staying_snoopCall (call : SnoopCall) : Prog.Keeps Staying call.run := by
  intro m hm
  obtain ⟨hview, hsettled⟩ := view_snoopCall hm.settled call
  rw [Machine.View.writes_eq_self] at hview
  exact hm.stay hsettled (congrArg Machine.View.gCurrentContext hview)
    (congrArg Machine.View.ctxReg hview)

theorem staying_cmdSS (addresses : List UInt16) : Prog.Keeps Staying (cmdSS addresses) :=
  Prog.Keeps.forM fun addr _ => staying_singleStep6502.bind fun _ =>
    keeps_of_snoopCalled staying_snoopCall (snoopCalled_disasm6502 addr)

/-- Bus cycles change nothing that software sees but bytes. -/
def Cycling (m m' : Machine) : Prop :=
  m.gControlMode = .mRPI → m'.gControlMode = .mRPI ∧ ∃ ws, m'.view = m.view.writes ws

instance : Std.Refl Cycling where
  refl _ := fun hm => ⟨hm, [], rfl⟩

instance : IsTrans Machine Cycling where
  trans m m' m'' h h' := by
    intro hm
    obtain ⟨hm', ws, hview⟩ := h hm
    obtain ⟨hm'', ws', hview'⟩ := h' hm'
    exact ⟨hm'', ws ++ ws', by rw [hview', hview, Machine.View.writes_append]⟩

theorem Cycles.cycling {cycles : Prog Machine α} {r : Machine.View → α} {ws : List (UInt16 × UInt8)}
    (hc : Cycles cycles r ws) : Prog.Keeps Cycling cycles := by
  intro m hm
  obtain ⟨-, hview, hm'⟩ := hc m hm
  exact ⟨hm', ws, hview⟩

/-- An access to another context goes back to the one it came from. -/
theorem staying_fsbulkInContext (c : UInt8) {body : Prog Machine α} (hbody : Prog.Keeps Cycling body) :
    Prog.Keeps Staying (fsbulkInContext c body) := by
  refine Prog.Keeps.ite (fun _ => Prog.Keeps.pure _) fun hc => fun m hm => ?_
  obtain ⟨hstate, hcontext, hview, hmode⟩ := beginContextAccess_spec hm.settled (UInt8.not_le.1 hc)
  obtain ⟨hmode', ws, hview'⟩ := hbody _ hmode
  rw [hview] at hview'
  have hsaved : (beginContextAccess c).result m = ⟨m.gSysState, m.getMMUContext⟩ := by
    rw [← hstate, ← hcontext]
  simp only [Prog.final_bind, Prog.final_pure, hsaved]
  obtain ⟨hsettled, hend⟩ := endContextAccess_view hm.settled hview' hmode'
  rw [hm.getMMUContext] at hsettled hend ⊢
  exact hm.stay hsettled ((congrArg Machine.View.gCurrentContext hend).trans hm.selected.symm)
    (congrArg Machine.View.ctxReg hend)

theorem cycling_compareBlock (a : UInt16) (bs : List UInt8) : Prog.Keeps Cycling (compareBlock a bs) := by
  induction bs generalizing a with
  | nil => exact Prog.Keeps.pure true
  | cons b bs ih =>
    exact (cycles_read6502Memory a).cycling.bind fun _ =>
      Prog.Keeps.ite (fun _ => Prog.Keeps.pure false) fun _ => ih (a + 1)

/-- The preparation is an access with bus cycles. -/
theorem keeps_fsbulkPrepareContext {R : Machine → Machine → Prop} [Std.Refl R] [IsTrans Machine R] {c : UInt8}
    (haccess : ∀ {body : Prog Machine Unit}, Prog.Keeps Cycling body → Prog.Keeps R (fsbulkInContext c body))
    (device : UInt8) (save_args : Bool) (byte_count : UInt16) :
    Prog.Keeps R (fsbulkPrepareContext c device save_args byte_count) := by
  have hword : ∀ a v, Prog.Keeps Cycling (fsbulkWrite16 a v) := fun a v =>
    (cycles_write6502Memory a _).cycling.bind fun _ => (cycles_write6502Memory (a + 1) _).cycling
  refine (haccess ?_).bind fun _ => Prog.Keeps.pure _
  iterate 3 refine (cycles_writeBlock _ _).cycling.bind fun _ => ?_
  iterate 3 refine (hword _ _).bind fun _ => ?_
  exact (cycles_write6502Memory _ _).cycling.bind fun _ => (cycles_write6502Memory _ _).cycling

theorem staying_fsbulkPrepareContext (c device : UInt8) (save_args : Bool) (byte_count : UInt16) :
    Prog.Keeps Staying (fsbulkPrepareContext c device save_args byte_count) :=
  keeps_fsbulkPrepareContext (staying_fsbulkInContext c) device save_args byte_count

theorem staying_fsbulkCompareContext (c : UInt8) : Prog.Keeps Staying (fsbulkCompareContext c) :=
  (staying_fsbulkInContext c (cycling_compareBlock _ _)).bind fun _ => Prog.Keeps.pure _

end Board

/-! ## Steps that stay in the context -/

section Tasks

variable {ff : FatFs σ}

theorem staying_of_hw {f f' : Firmware σ} (h : f'.hw = f.hw) : Order.Preimage (·.hw) Staying f f' := by
  show Staying f.hw f'.hw
  rw [h]
  exact refl _

theorem staying_onHw {p : Prog Machine α} (hp : Prog.Keeps Staying p) :
    Prog.Keeps (Order.Preimage (·.hw) Staying) (onHw p : Prog (Firmware σ) α) :=
  hp.on fun _ _ h => h

theorem staying_request (hread : ReadsAtMost ff) :
    Prog.Keeps (Order.Preimage (·.hw) Staying) (rpFsMailboxHandleExec ff) := by
  intro f
  have hconfined : f.hw.Settled → _ := confined_request hread
  show Staying f.hw ((rpFsMailboxHandleExec ff).final f).hw
  generalize (rpFsMailboxHandleExec ff).final f = f' at hconfined
  intro hm
  obtain ⟨hsettled, ram, hview, -⟩ := (hconfined hm.settled).board hm.settled hm.selected
  exact hm.stay hsettled (congrArg Machine.View.gCurrentContext hview)
    (congrArg Machine.View.ctxReg hview)

theorem staying_reset (f : Firmware σ) :
    Order.Preimage (·.hw) Staying f ((rpFsMailboxReset ff).final f) := by
  rw [rpFsMailboxReset, Prog.final_bind, Prog.final_modify, onStorage, Prog.final_on]
  exact staying_of_hw rfl

theorem staying_latch {g : Machine → Machine} (hg : ∀ m, (g m).gSysState = m.gSysState ∧
    (g m).gControlMode = m.gControlMode ∧ (g m).gCurrentContext = m.gCurrentContext ∧
    (g m).ctxReg = m.ctxReg) : Prog.Keeps Staying (modify g : Prog Machine Unit) := by
  refine Prog.Keeps.modify fun m hm => ?_
  obtain ⟨hstate, hmode, hctx, hreg⟩ := hg m
  exact hm.stay (hm.settled.congr hstate hmode hctx hreg) hctx hreg

theorem taskRules_staying (hread : ReadsAtMost ff) : TaskRules ff (Order.Preimage (·.hw) Staying) where
  snoop call := staying_onHw (staying_snoopCall call)
  ackMMUIO := staying_onHw (staying_latch fun _ => ⟨rfl, rfl, rfl, rfl⟩)
  emit _ _ := Prog.Keeps.modify fun _ => staying_of_hw rfl
  console f f' h := staying_of_hw (by rw [h])
  request := staying_request hread
  close := staying_reset
  setIRQPin _ := staying_onHw (staying_latch fun _ => ⟨rfl, rfl, rfl, rfl⟩)
  gIntrPending _ _ := staying_of_hw rfl
  dropBreak _ := staying_of_hw rfl
  dropCompletion _ := staying_of_hw rfl

/-- A system whose board stays steady, in its context. -/
abbrev SystemStaying : System σ → System σ → Prop :=
  Order.Preimage (·.scheduler.firmware) (Order.Preimage (·.hw) Staying)

theorem staying_onBoard {p : Prog Machine α} (hp : Prog.Keeps Staying p) :
    Prog.Keeps (SystemStaying (σ := σ)) (onBoard p) :=
  keeps_onFirmware (staying_onHw hp)

/-- The scheduler stays in the context as long as the 6502 asks for no other. -/
theorem staying_taskScheduler (hread : ReadsAtMost ff) {s : System σ}
    (hs : ∀ lParam, getCommand6502.result s ≠ some (CMD6502_CONTEXT_SWITCH, lParam)) :
    SystemStaying s (taskScheduler.final s) := by
  have hcommand : SystemStaying s (getCommand6502.final s) :=
    (taskRules_staying hread).toMailboxRules.getCommand6502 s
  rw [taskScheduler, Prog.final_bind]
  generalize getCommand6502.final s = s' at hcommand
  rcases hres : getCommand6502.result s with - | ⟨lCmd, lParam⟩
  · exact hcommand
  · have hother : lCmd ≠ CMD6502_CONTEXT_SWITCH := by
      rintro rfl
      exact hs lParam hres
    simp only [if_neg hother, Prog.final_pure]
    exact hcommand

/-- The monitor commands that start the CPU. -/
def MonitorCommand.starts : MonitorCommand → Bool
  | .go => true
  | .boot _ => true
  | _ => false

theorem staying_start (hread : ReadsAtMost ff) (flash : Flash) {command : MonitorCommand}
    (hstarts : command.starts = true) :
    Prog.Keeps (SystemStaying (σ := σ)) (command.run ff flash) := by
  have hrun : Prog.Keeps Staying (do discard <| set6502State .sRUNNING) :=
    (staying_set6502State (s := .sRUNNING) nofun).discard
  cases command with
  | go => exact staying_onBoard hrun
  | boot now =>
    have hboot : Prog.Keeps (Order.Preimage (·.firmware) (Order.Preimage (·.hw) Staying))
        (cmdBoot (σ := σ) now) :=
      Prog.Keeps.bind ((staying_onHw hrun).on fun _ _ h => h) fun _ =>
        (taskRules_staying hread).startIRQTimer 10 now
    exact keeps_onScheduler hboot
  | _ => cases hstarts

/-- The commands that neither start the CPU nor select a context. -/
theorem staying_monitor (hread : ReadsAtMost ff) (flash : Flash) {command : MonitorCommand}
    (hstarts : command.starts = false) (hreset : command ≠ .reset) (hmenu : ∀ lines, command ≠ .syscfg lines) :
    Prog.Keeps (SystemStaying (σ := σ)) (command.run ff flash) := by
  have rules : TaskRules ff (Order.Preimage (·.hw) Staying) := taskRules_staying hread
  cases command with
  | reset => exact absurd rfl hreset
  | syscfg lines => exact absurd rfl (hmenu lines)
  | go => cases hstarts
  | boot now => cases hstarts
  | stop => exact staying_onBoard (staying_set6502State (s := .sHALTED) nofun).discard
  | sc lStep => exact staying_onBoard (staying_singleCycle6502 lStep)
  | ss addresses => exact staying_onBoard (staying_cmdSS addresses)
  | ctx => exact staying_onBoard staying_cmdMMU
  | page lIndex lPage => exact staying_onBoard (staying_cmdPage lIndex lPage)
  | zero => exact staying_onBoard staying_cmdZero
  | irq vSrc => exact keeps_onFirmware (rules.genIRQ6502 vSrc).discard
  | timer lInterval now => exact keeps_onScheduler (rules.cmdTimer lInterval now)
  | fsbulk device context_arg =>
    exact keeps_onFirmware (rules.toMailboxRules.cmdFSBulk
      (fun c d save_args n => staying_onHw (staying_fsbulkPrepareContext c d save_args n))
      (fun c => staying_onHw (staying_fsbulkCompareContext c)) device context_arg)

end Tasks

/-! ## Steps that select a context -/

section Selections

variable {ff : FatFs σ} {s : System σ}

/-- What stays in the context behind the entry into `sRESET` ends in the default one. -/
theorem selected_reset {rest : Prog (Scheduler σ) Unit}
    (hrest : Prog.Keeps (Order.Preimage (·.firmware) (Order.Preimage (·.hw) Staying)) rest)
    (hs : s.hw.Steady) :
    let s' := (onScheduler do
      onFirmware do discard <| onHw (set6502State .sRESET)
      rest).final s
    s'.hw.Steady ∧ s'.hw.ctxReg = DEFAULT_CONTEXT := by
  obtain ⟨hsteady, hreg⟩ := selected_sRESET hs.settled
  have hstaying := hrest { s.scheduler with
    firmware := { s.scheduler.firmware with hw := (set6502State .sRESET).final s.hw } }
  obtain ⟨hsteady', hreg'⟩ := hstaying hsteady
  exact ⟨hsteady', hreg'.trans hreg⟩

/-- The monitor reset selects the default context. -/
theorem selected_cmdReset (hread : ReadsAtMost ff) (hs : s.hw.Steady) :
    let s' := (onScheduler (cmdReset ff)).final s
    s'.hw.Steady ∧ s'.hw.ctxReg = DEFAULT_CONTEXT := by
  have rules : TaskRules ff (Order.Preimage (·.hw) Staying) := taskRules_staying hread
  have hclear : Prog.Keeps (Order.Preimage (·.hw) Staying) (do onHw initCmdInterface; initMailbox ff) :=
    (rules.snoop (.write _ _)).bind fun _ => rules.toMailboxRules.initMailbox
  exact selected_reset (rules.stopIRQTimer.bind fun _ => hclear.on fun _ _ h => h) hs

/-- The configuration menu selects the boot context. -/
theorem selected_cmdSysConfig (flash : Flash) (lines : List (Option Int)) (hs : s.hw.Settled) :
    let s' := (cmdSysConfig flash lines).final s
    s'.hw.Steady ∧ s'.hw.ctxReg = s.memoryConfig.boot_context := by
  intro s'
  have hselect : ∀ {m : Machine} (c : UInt8), m.Settled → ((setMMUContext c).final m).Selected ∧
      ((setMMUContext c).final m).ctxReg = c := by
    intro m c hm
    rw [final_setMMUContext hm.cached]
    exact ⟨rfl, rfl⟩
  have hmenu : ∀ (tables : SystemTables) (c : UInt8) {m : Machine}, m.Settled →
      ((bootSystemWithMenu flash tables c lines).final m).Selected ∧
        ((bootSystemWithMenu flash tables c lines).final m).ctxReg = c := by
    intro tables c m hm
    obtain ⟨hm', -⟩ := activateConfiguration_cases flash tables hm (waitForUserSelection tables lines)
    simp only [bootSystemWithMenu, Prog.final_bind, Prog.final_ite, Prog.final_pure, Prog.final_discard]
    split
    · exact hselect c hm'
    · exact hselect c (activateConfiguration_cases flash loadFallbackProfile hm' _).1
  obtain ⟨hsettled, -⟩ := bootSystemWithMenu_spec flash s.tables hs s.memoryConfig.boot_context lines
  obtain ⟨hselected, hreg⟩ := hmenu s.tables s.memoryConfig.boot_context hs
  exact ⟨⟨hsettled, hselected⟩, hreg⟩

end Selections

/-! ## Runs up to the start of the CPU -/

/-- The step neither starts the CPU nor switches contexts for the 6502. -/
def LoopStep.Interlude (s : System σ) : LoopStep σ → Prop
  | .monitor command => command.starts = false
  | .taskScheduler => ∀ lParam, getCommand6502.result s ≠ some (CMD6502_CONTEXT_SWITCH, lParam)
  | _ => True

/-- Of the monitor reset and the configuration menu, the menu has run last. -/
def LoopStep.menuLast (before : Bool) : LoopStep σ → Bool
  | .monitor .reset => false
  | .monitor (.syscfg _) => true
  | _ => before

/-- The board is steady in the boot context if the menu has run last, and in the default one otherwise. -/
structure System.InContext (menu : Bool) (s : System σ) : Prop where
  steady : s.hw.Steady
  context : s.hw.ctxReg = if menu then s.memoryConfig.boot_context else DEFAULT_CONTEXT

section Runs

variable {ff : FatFs σ} {s : System σ}

theorem memoryConfig_onScheduler (p : Prog (Scheduler σ) α) (s : System σ) :
    ((onScheduler p).final s).memoryConfig = s.memoryConfig := rfl

theorem memoryConfig_taskScheduler (s : System σ) :
    (taskScheduler.final s).memoryConfig = s.memoryConfig := by
  have hcommand : ∀ s : System σ, (getCommand6502.final s).memoryConfig = s.memoryConfig := by
    intro s
    simp only [getCommand6502, Prog.final_bind, Prog.final_modify, Prog.final_ite, Prog.final_get,
      Prog.final_pure, onBoard, memoryConfig_onScheduler, apply_ite System.memoryConfig, ite_self]
  rw [taskScheduler, Prog.final_bind]
  rcases getCommand6502.result s with - | ⟨lCmd, lParam⟩
  · exact hcommand s
  · simp only [Prog.final_bind, Prog.final_ite, Prog.final_pure, onBoard, memoryConfig_onScheduler,
      apply_ite System.memoryConfig, ite_self]
    exact hcommand s

/-- No step changes the memory configuration. -/
theorem memoryConfig_step (ff : FatFs σ) (flash : Flash) (s : System σ) (l : LoopStep σ) :
    (s.step ff flash l).memoryConfig = s.memoryConfig := by
  have hmonitor : ∀ command : MonitorCommand,
      ((command.run ff flash).final s).memoryConfig = s.memoryConfig := by
    intro command
    cases command with
    | syscfg lines =>
      simp only [MonitorCommand.run, cmdSysConfig, onBoard, Prog.final_bind, Prog.final_modify,
        Prog.final_get, memoryConfig_onScheduler]
    | _ => exact memoryConfig_onScheduler _ s
  cases l with
  | taskScheduler => exact memoryConfig_taskScheduler s
  | monitor command => exact hmonitor command
  | _ => exact memoryConfig_onScheduler _ s

/-- The step is neither the monitor reset nor the configuration menu. -/
def LoopStep.Selects : LoopStep σ → Prop
  | .monitor .reset => True
  | .monitor (.syscfg _) => True
  | _ => False

theorem LoopStep.menuLast_of_not_selects {l : LoopStep σ} (hl : ¬ l.Selects) (menu : Bool) :
    l.menuLast menu = menu := by
  cases l with
  | monitor command =>
    cases command with
    | reset => exact absurd trivial hl
    | syscfg lines => exact absurd trivial hl
    | _ => rfl
  | _ => rfl

/-- The other steps stay in the context, as long as they do not start the CPU or switch for it. -/
theorem staying_step (hread : ReadsAtMost ff) (flash : Flash) {l : LoopStep σ} (hl : l.Interlude s)
    (hselects : ¬ l.Selects) : SystemStaying s (s.step ff flash l) := by
  have rules : TaskRules ff (Order.Preimage (·.hw) Staying) := taskRules_staying hread
  cases l with
  | taskIRQTimer now now' => exact keeps_onScheduler (rules.taskIRQTimer now now') s
  | taskScheduler => exact staying_taskScheduler hread hl
  | taskSimpleIO => exact keeps_onFirmware rules.toMailboxRules.taskSimpleIO s
  | taskInput =>
    obtain ⟨q, -, hdrained⟩ := processVDUoutQ_spec s.scheduler.firmware
    have hboard : (processVDUoutQ s.scheduler.firmware).hw = s.hw := by
      rw [hdrained]
      rfl
    exact staying_of_hw hboard
  | taskMailbox => exact keeps_onFirmware rules.toMailboxRules.taskMailbox s
  | monitor command =>
    refine staying_monitor hread flash hl ?_ ?_ s
    · rintro rfl
      exact hselects trivial
    · rintro lines rfl
      exact hselects trivial
  | snoop call => exact staying_onBoard (staying_snoopCall call) s
  | input c => exact keeps_onFirmware (rules.toMailboxRules.writeCPUQ c).discard s
  | consoleBreak => exact staying_of_hw rfl
  | taskUSBStorage storage => exact staying_of_hw rfl
  | memory ram =>
    exact staying_onBoard (staying_latch (g := fun m => { m with ram := ram })
      fun _ => ⟨rfl, rfl, rfl, rfl⟩) s
  | edge =>
    refine staying_onBoard (staying_latch fun m => ?_) s
    split <;> exact ⟨rfl, rfl, rfl, rfl⟩

/-- A step up to the start of the CPU leaves the board in the context it should be in. -/
theorem inContext_step (hread : ReadsAtMost ff) (flash : Flash) {menu : Bool} (h : s.InContext menu)
    {l : LoopStep σ} (hl : l.Interlude s) : (s.step ff flash l).InContext (l.menuLast menu) := by
  by_cases hselects : l.Selects
  · cases l with
    | monitor command =>
      cases command with
      | reset =>
        obtain ⟨hsteady, hreg⟩ := selected_cmdReset hread h.steady
        exact ⟨hsteady, hreg⟩
      | syscfg lines =>
        obtain ⟨hsteady, hreg⟩ := selected_cmdSysConfig flash lines h.steady.settled
        refine ⟨hsteady, ?_⟩
        rw [memoryConfig_step]
        exact hreg
      | _ => exact hselects.elim
    | _ => exact hselects.elim
  · obtain ⟨hsteady, hreg⟩ := staying_step hread flash hl hselects h.steady
    refine ⟨hsteady, ?_⟩
    rw [memoryConfig_step, LoopStep.menuLast_of_not_selects hselects]
    exact hreg.trans h.context

/-- A run up to the start of the CPU. -/
theorem inContext_run (hread : ReadsAtMost ff) (flash : Flash) {menu : Bool} (h : s.InContext menu)
    {run : List (LoopStep σ)}
    (hrun : Run.AtEveryStep (System.step ff flash) (fun s l => l.Interlude s) s run) :
    (run.foldl (System.step ff flash) s).InContext (run.foldl LoopStep.menuLast menu) ∧
      (run.foldl (System.step ff flash) s).memoryConfig = s.memoryConfig := by
  induction run generalizing s menu with
  | nil => exact ⟨h, rfl⟩
  | cons l run ih =>
    rw [Run.atEveryStep_cons] at hrun
    obtain ⟨hcontext, hconfig⟩ := ih (inContext_step hread flash h hrun.1) hrun.2
    exact ⟨hcontext, hconfig.trans (memoryConfig_step ff flash s l)⟩

theorem System.Ready.inContext (h : s.Ready) : s.InContext false := by
  have hreg : s.hw.ctxReg = DEFAULT_CONTEXT := by
    rcases h.settled.cached with hunknown | hcached
    · rw [h.gCurrentContext] at hunknown
      exact absurd hunknown (by decide)
    · rw [h.gCurrentContext] at hcached
      exact UInt8.toNat_inj.1 (by exact_mod_cast hcached.symm)
  refine ⟨⟨h.settled, ?_⟩, hreg⟩
  rw [Machine.Selected, hreg]
  exact h.gCurrentContext

/-- A context switch of the 6502 leaves a steady board. -/
theorem steady_schedSwitchcontext {m : Machine} (hm : m.Steady) (c : UInt8) :
    ((schedSwitchcontext c).final m).Steady := by
  have hdisable : Prog.Keeps Staying disableMMUInterrupt :=
    Prog.Keeps.modify fun _ hm => ⟨⟨hm.settled.congr rfl rfl rfl rfl, hm.selected⟩, rfl⟩
  have hopened := (hdisable m hm).1
  simp only [schedSwitchcontext, Prog.final_bind, result_get6502State, final_get6502State,
    Prog.final_discard]
  generalize disableMMUInterrupt.final m = m₁ at hopened ⊢
  have hhalted := (staying_set6502State (s := .sHALTED) nofun m₁ hopened).1
  have hstate : ((set6502State .sHALTED).final m₁).gSysState ≠ .sRESET := by
    obtain ⟨hview, -⟩ := set6502State_spec hopened.settled (s := .sHALTED) nofun
    rw [show ((set6502State .sHALTED).final m₁).gSysState = .sHALTED from congrArg Machine.View.gSysState hview]
    nofun
  have hswitched := (steady_setMMUContext hhalted.settled hstate c).1
  have hreturned := steady_set6502State hswitched m₁.gSysState
  generalize (set6502State m₁.gSysState).final _ = m₂ at hreturned ⊢
  exact ⟨hreturned.settled.congr rfl rfl rfl rfl, hreturned.selected⟩

theorem steady_contextSwitch (hread : ReadsAtMost ff) (h : s.hw.Steady) {lParam : UInt8}
    (hcommand : getCommand6502.result s = some (CMD6502_CONTEXT_SWITCH, lParam)) :
    (taskScheduler.final s).hw.Steady := by
  have hread : SystemStaying s (getCommand6502.final s) :=
    (taskRules_staying hread).toMailboxRules.getCommand6502 s
  have hack : Prog.Keeps (SystemStaying (σ := σ)) (onBoard ackCommand6502) :=
    staying_onBoard (keeps_of_snoopCalled staying_snoopCall snoopCalled_ackCommand6502)
  rw [taskScheduler, Prog.final_bind, hcommand]
  generalize getCommand6502.final s = s' at hread ⊢
  have hswitched : ((onBoard (schedSwitchcontext lParam)).final s').hw.Steady :=
    steady_schedSwitchcontext (hread h).1 lParam
  simp only [if_true, Prog.final_bind]
  exact (hack _ hswitched).1

/-- Every step leaves a steady board. -/
theorem steady_step (hread : ReadsAtMost ff) (flash : Flash) (h : s.hw.Steady) (l : LoopStep σ) :
    (s.step ff flash l).hw.Steady := by
  by_cases hselects : l.Selects
  · cases l with
    | monitor command =>
      cases command with
      | reset => exact (selected_cmdReset hread h).1
      | syscfg lines => exact (selected_cmdSysConfig flash lines h.settled).1
      | _ => exact hselects.elim
    | _ => exact hselects.elim
  by_cases hinterlude : l.Interlude s
  · exact (staying_step hread flash hinterlude hselects h).1
  cases l with
  | monitor command =>
    exact (staying_start hread flash (Bool.not_eq_false _ ▸ hinterlude) s h).1
  | taskScheduler =>
    have hcommand : ∃ lParam, getCommand6502.result s = some (CMD6502_CONTEXT_SWITCH, lParam) := by
      by_contra hnone
      exact hinterlude fun lParam heq => hnone ⟨lParam, heq⟩
    obtain ⟨lParam, hcommand⟩ := hcommand
    exact steady_contextSwitch hread h hcommand
  | _ => exact absurd trivial hinterlude

theorem System.Reachable.steady (hread : ReadsAtMost ff) {flash : Flash} (h : s.Reachable ff flash) :
    s.hw.Steady := by
  obtain ⟨aregH, aregL, ctxReg, mmuRam, ram, storage, input, run, rfl⟩ := h
  have hready := ready_setup ff input aregH aregL ctxReg mmuRam ram storage
  generalize (setup ff input).final _ = s at hready ⊢
  exact Run.invariant_foldl (I := fun s : System σ => s.hw.Steady)
    (fun s l hs => steady_step hread flash hs l) hready.inContext.steady run

/-- The CPU is started in the boot context exactly if that is the default one, or if the configuration menu
has run again behind `setup()` and no reset behind it. -/
theorem boot_context_iff (ff : FatFs σ) (hread : ReadsAtMost ff) (input : SetupInput)
    (aregH aregL ctxReg : UInt8) (mmuRam : UInt8 × UInt8 → UInt8) (ram : UInt8 × UInt16 → UInt8)
    (storage : Storage σ) (flash : Flash) (run : List (LoopStep σ)) (command : MonitorCommand)
    (hstarts : command.starts = true) :
    let s := (setup ff input).final (.start (.setup6502 aregH aregL ctxReg mmuRam ram) storage)
    Run.AtEveryStep (System.step ff flash) (fun s l => l.Interlude s) s run →
    let boot_context := (initializeMemoryConfig input.memoryIni).2.boot_context
    let s' := (command.run ff flash).final (run.foldl (System.step ff flash) s)
    s'.hw.getMMUContext = boot_context ↔
      boot_context = DEFAULT_CONTEXT ∨ run.foldl LoopStep.menuLast false = true := by
  intro s hrun boot_context s'
  have hready : s.Ready := ready_setup ff input aregH aregL ctxReg mmuRam ram storage
  have hconfig : s.memoryConfig.boot_context = boot_context :=
    congrArg MemoryConfig.boot_context (memoryConfig_setup ff input _)
  obtain ⟨hcontext, hsame⟩ := inContext_run hread flash hready.inContext hrun
  obtain ⟨hsteady, hreg⟩ : s'.hw.Steady ∧
      s'.hw.ctxReg = (run.foldl (System.step ff flash) s).hw.ctxReg :=
    staying_start hread flash hstarts _ hcontext.steady
  rw [hsteady.getMMUContext, hreg, hcontext.context, hsame, hconfig]
  split
  · rename_i hmenu
    exact iff_of_true rfl (.inr hmenu)
  · rename_i hmenu
    rw [or_iff_left hmenu, eq_comm]

/-- A CPU started right behind `setup()` runs in the default context. -/
theorem System.Ready.started_default (hread : ReadsAtMost ff) (flash : Flash) (h : s.Ready)
    {command : MonitorCommand} (hstarts : command.starts = true) :
    ((command.run ff flash).final s).hw.getMMUContext = DEFAULT_CONTEXT := by
  obtain ⟨hsteady, hreg⟩ : ((command.run ff flash).final s).hw.Steady ∧
      ((command.run ff flash).final s).hw.ctxReg = s.hw.ctxReg :=
    staying_start hread flash hstarts s h.inContext.steady
  rw [hsteady.getMMUContext, hreg]
  exact h.inContext.context

end Runs

/-- A model of two contexts that boots in the second one. -/
def secondContextIni : List UInt8 :=
  ascii "[system]\nconfig_version=1\nactive_model=m\nboot_context=1\n[model.m]\ncontexts=2\n" ++
    ascii "[layout.m.l.region.ram]\nstart=0\npages=16\n" ++
    ascii "[context.m.0]\nlayout=l\n[context.m.1]\nlayout=l\n"

set_option maxRecDepth 2000 in
theorem secondContextIni_parsed : (parseMemoryIni secondContextIni).1 = .ok () ∧
    (parseMemoryIni secondContextIni).2.boot_context = 1 := by
  have hbytes : secondContextIni = _ :=
    congrArg₂ (· ++ ·) (congrArg₂ (· ++ ·) (ascii_ofList _) (ascii_ofList _)) (ascii_ofList _)
  rw [hbytes]
  decide +kernel

/-- `setup()` with it. -/
def secondContextInput : SetupInput := { blankInput with memoryIni := some secondContextIni }

/-- The menu runs again behind `setup()`, and then the CPU is started in the second context. -/
theorem boot_context_menu :
    let s : System RamDisk := (setup RamDisk.fatFs secondContextInput).final
      (.start (.setup6502 0 0 0 (fun _ => 0) fun _ => 0) (RamDisk.mounted fun _ => none))
    let s' := (MonitorCommand.go.run RamDisk.fatFs fun _ => none).final
      ([LoopStep.monitor (.syscfg [])].foldl (System.step RamDisk.fatFs fun _ => none) s)
    s'.hw.getMMUContext = 1 := by
  intro s s'
  have hinterlude : ∀ s : System RamDisk, Run.AtEveryStep (System.step RamDisk.fatFs fun _ => none)
      (fun s l => l.Interlude s) s [.monitor (.syscfg [])] :=
    fun s => Run.atEveryStep_cons.2 ⟨rfl, Run.atEveryStep_nil _⟩
  have hboot : s'.hw.getMMUContext = (initializeMemoryConfig secondContextInput.memoryIni).2.boot_context :=
    (boot_context_iff RamDisk.fatFs readsAtMost_ramDisk secondContextInput _ _ _ _ _ _ (fun _ => none) _ .go rfl
      (hinterlude _)).2 (.inr rfl)
  exact hboot.trans secondContextIni_parsed.2

/-- The configured context is the second one, and the CPU is started in the first one. -/
theorem boot_context_lost :
    let s : System RamDisk := (setup RamDisk.fatFs secondContextInput).final
      (.start (.setup6502 0 0 0 (fun _ => 0) fun _ => 0) (RamDisk.mounted fun _ => none))
    (initializeMemoryConfig secondContextInput.memoryIni).1 = .ok () ∧
      ((MonitorCommand.go.run RamDisk.fatFs fun _ => none).final s).hw.getMMUContext ≠
        (initializeMemoryConfig secondContextInput.memoryIni).2.boot_context := by
  intro s
  have hready : s.Ready := ready_setup RamDisk.fatFs secondContextInput _ _ _ _ _ _
  have hboot : (initializeMemoryConfig secondContextInput.memoryIni).2.boot_context = 1 :=
    secondContextIni_parsed.2
  refine ⟨secondContextIni_parsed.1, ?_⟩
  rw [hready.started_default readsAtMost_ramDisk _ rfl, hboot]
  decide

end NeoMmu
