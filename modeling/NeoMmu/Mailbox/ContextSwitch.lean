import NeoMmu.Mailbox.Loop

/-!
# Context switches

The kernel asks for another MMU context through the command slot of the IO page: it waits until the slot is free,
writes the parameter, and then the command. `taskScheduler()` looks when the IO page has raised its interrupt, and
at every tenth poll, since interrupts can be missed. It acknowledges in the new context, so the page of the slot
has to be the same one in every context that is switched to. Where it is, every command is carried out once, in
the order of the commands, and within ten polls.
-/

namespace NeoMmu

variable {σ : Type}

/-- The address of the command. -/
def commandAddress : UInt16 := CMD_SLOT_BASE + CMD_SLOT_CMD.toUInt16

/-- The address of its parameter. -/
def paramAddress : UInt16 := CMD_SLOT_BASE + CMD_SLOT_PARAM.toUInt16

/-! ## One poll -/

/-- A poll looks at the slot. -/
def System.LooksAtSlot (s : System σ) : Prop := s.hw.gMMUIOTrigger = true ∨ (s.inCount + 1) % 10 = 0

instance (s : System σ) : Decidable s.LooksAtSlot := inferInstanceAs (Decidable (_ ∨ _))

/-- The contexts that a poll switches to. -/
def System.switches (s : System σ) : List UInt8 :=
  match getCommand6502.result s with
  | some (lCmd, lParam) => if lCmd = CMD6502_CONTEXT_SWITCH then [lParam] else []
  | none => []

section Poll

variable {α : Type} {s : System σ} {m : Machine}

@[simp] theorem result_onBoard (p : Prog Machine α) (s : System σ) : (onBoard p).result s = p.result s.hw := by rfl

@[simp] theorem hw_onBoard (p : Prog Machine α) (s : System σ) : ((onBoard p).final s).hw = p.final s.hw := by rfl

@[simp] theorem inCount_onBoard (p : Prog Machine α) (s : System σ) :
    ((onBoard p).final s).inCount = s.inCount := by rfl

@[simp] theorem view_ackMMUIO (m : Machine) : (Prog.final ackMMUIO m).view = m.view := by rfl

theorem settled_ackMMUIO (hm : m.Settled) : (Prog.final ackMMUIO m).Settled := hm.congr rfl rfl rfl rfl

/-- `getCommand6502()` gives the slot of a poll that looks, if there is a command in it. -/
theorem getCommand6502_spec (hs : s.hw.Settled) :
    (getCommand6502.result s =
      if s.LooksAtSlot ∧ s.hw.view.peek commandAddress ≠ CMD6502_NONE then
        some (s.hw.view.peek commandAddress, s.hw.view.peek paramAddress) else none) ∧
      (getCommand6502.final s).hw.view = s.hw.view ∧ (getCommand6502.final s).hw.Settled ∧
      (getCommand6502.final s).inCount = s.inCount + 1 := by
  obtain ⟨hcmd, hview, hsettled⟩ := snoopRead6502MemoryLoc_spec hs commandAddress
  obtain ⟨hparam, hview', hsettled'⟩ := snoopRead6502MemoryLoc_spec hsettled paramAddress
  rw [hview] at hparam hview'
  have hacked := settled_ackMMUIO hsettled'
  have hlook : (Prog.result triggerMMUIO s.hw = true ∨ (s.inCount + 1) % 10 = 0) ↔ s.LooksAtSlot := Iff.rfl
  have hstart : ({ s with inCount := s.inCount + 1 } : System σ).hw = s.hw := rfl
  have htrigger : triggerMMUIO.final s.hw = s.hw := rfl
  simp only [getCommand6502, readCmdSlot, Prog.result_bind, Prog.final_bind, Prog.final_modify, Prog.result_ite,
    Prog.final_ite, Prog.result_get, Prog.final_get, Prog.result_pure, Prog.final_pure, result_onBoard, hw_onBoard,
    inCount_onBoard, hstart, htrigger, hlook]
  rw [show CMD_SLOT_BASE + CMD_SLOT_CMD.toUInt16 = commandAddress from rfl,
    show CMD_SLOT_BASE + CMD_SLOT_PARAM.toUInt16 = paramAddress from rfl, hcmd, hparam]
  by_cases hlooks : s.LooksAtSlot
  · by_cases hnone : s.hw.view.peek commandAddress ≠ CMD6502_NONE
    · rw [if_pos hlooks, if_pos hnone, if_pos ⟨hlooks, hnone⟩, if_pos hlooks, if_pos hnone]
      simp only [hw_onBoard, inCount_onBoard, hstart, htrigger, view_ackMMUIO]
      exact ⟨trivial, hview', hacked, trivial⟩
    · rw [if_pos hlooks, if_neg hnone, if_neg fun h => hnone h.2, if_pos hlooks, if_neg hnone]
      simp only [hw_onBoard, inCount_onBoard, hstart, htrigger]
      exact ⟨trivial, hview, hsettled, trivial⟩
  · rw [if_neg hlooks, if_neg fun h => hlooks h.1, if_neg hlooks]
    exact ⟨rfl, rfl, hs, rfl⟩

/-- A context switch selects the other context and enters the state before again. -/
theorem schedSwitchcontext_spec (hm : m.Settled) (c : UInt8) :
    ((schedSwitchcontext c).final m).view = (m.view.select c).enter m.gSysState ∧
      ((schedSwitchcontext c).final m).Settled := by
  have hopened : (disableMMUInterrupt.final m).Settled := hm.congr rfl rfl rfl rfl
  obtain ⟨hhalted, hsettled⟩ := set6502State_spec hopened (s := .sHALTED) nofun
  generalize hm₁ : (set6502State .sHALTED).final (disableMMUInterrupt.final m) = m₁ at hhalted hsettled
  have hstate₁ : m₁.gSysState = .sHALTED := congrArg Machine.View.gSysState hhalted
  have hselected := view_setMMUContext hsettled.cached c
  have hsettled' := settled_setMMUContext hsettled (c := c) (by rw [hstate₁]; nofun)
  obtain ⟨hback, hsettled''⟩ := set6502State_spec hsettled' (s := m.gSysState) hm.started
  rw [schedSwitchcontext]
  simp only [Prog.final_bind, result_get6502State, final_get6502State, Prog.final_discard, hm₁]
  refine ⟨?_, hsettled''.congr rfl rfl rfl rfl⟩
  show ((set6502State m.gSysState).final ((setMMUContext c).final m₁)).view = _
  rw [hback, hselected, hhalted]
  rfl

/-- Outside of `sRESET` it ends in the state before, with the other context selected. -/
theorem view_schedSwitchcontext (hm : m.Settled) (hstate : m.gSysState ≠ .sRESET) (c : UInt8) :
    ((schedSwitchcontext c).final m).view = m.view.select c := by
  rw [(schedSwitchcontext_spec hm c).1, Machine.View.enter, if_neg hstate]
  rfl

/-- The acknowledgement frees the slot. -/
theorem ackCommand6502_spec (hm : m.Settled) (hcmd : m.view.peek commandAddress ≠ CMD6502_NONE) :
    (ackCommand6502.final m).view = m.view.poke commandAddress CMD6502_NONE ∧
      (ackCommand6502.final m).Settled := by
  obtain ⟨hread, hview, hsettled⟩ := snoopRead6502MemoryLoc_spec hm commandAddress
  obtain ⟨hview', hsettled'⟩ := snoopWrite6502MemoryLoc_spec hsettled commandAddress CMD6502_NONE
  rw [hview] at hview'
  have hfinal : ackCommand6502.final m = (snoopWrite6502MemoryLoc commandAddress CMD6502_NONE).final
      ((snoopRead6502MemoryLoc commandAddress).final m) := by
    rw [ackCommand6502, Prog.final_bind, Prog.final_ite]
    exact if_pos (fun h => hcmd (hread.symm.trans h))
  rw [hfinal]
  exact ⟨hview', hsettled'⟩

/-- A poll carries out the switch that is in the slot, if it looks and finds the slot again behind the switch. -/
theorem taskScheduler_switch (hs : s.hw.Settled) (hstate : s.hw.gSysState ≠ .sRESET) (hlooks : s.LooksAtSlot)
    (hcmd : s.hw.view.peek commandAddress = CMD6502_CONTEXT_SWITCH)
    (hback : (s.hw.view.select (s.hw.view.peek paramAddress)).peek commandAddress ≠ CMD6502_NONE) :
    s.switches = [s.hw.view.peek paramAddress] ∧
      (taskScheduler.final s).hw.view =
        (s.hw.view.select (s.hw.view.peek paramAddress)).poke commandAddress CMD6502_NONE ∧
      (taskScheduler.final s).hw.Settled := by
  obtain ⟨hres, hview, hsettled, -⟩ := getCommand6502_spec hs
  rw [if_pos ⟨hlooks, by rw [hcmd]; decide⟩, hcmd] at hres
  generalize s.hw.view.peek paramAddress = c at hres hback ⊢
  have hstate' : (getCommand6502.final s).hw.gSysState ≠ .sRESET := by
    rw [show (getCommand6502.final s).hw.gSysState = s.hw.gSysState from congrArg Machine.View.gSysState hview]
    exact hstate
  have hswitched := view_schedSwitchcontext hsettled hstate' c
  have hsettled' := (schedSwitchcontext_spec hsettled c).2
  rw [hview] at hswitched
  obtain ⟨hacked, hsettled''⟩ := ackCommand6502_spec hsettled' (by rwa [hswitched])
  refine ⟨?_, ?_, ?_⟩
  · rw [System.switches, hres]
    exact if_pos rfl
  · simp only [taskScheduler, Prog.final_bind, hres, if_true, hw_onBoard]
    rw [hacked, hswitched]
  · simp only [taskScheduler, Prog.final_bind, hres, if_true, hw_onBoard]
    exact hsettled''

/-- Any other poll leaves the view alone. -/
theorem taskScheduler_pass (hs : s.hw.Settled)
    (h : ¬ (s.LooksAtSlot ∧ s.hw.view.peek commandAddress = CMD6502_CONTEXT_SWITCH)) :
    s.switches = [] ∧ (taskScheduler.final s).hw.view = s.hw.view ∧ (taskScheduler.final s).hw.Settled := by
  obtain ⟨hres, hview, hsettled, -⟩ := getCommand6502_spec hs
  by_cases hfound : s.LooksAtSlot ∧ s.hw.view.peek commandAddress ≠ CMD6502_NONE
  · have hother : s.hw.view.peek commandAddress ≠ CMD6502_CONTEXT_SWITCH := fun hcmd => h ⟨hfound.1, hcmd⟩
    rw [if_pos hfound] at hres
    refine ⟨?_, ?_⟩
    · rw [System.switches, hres]
      exact if_neg hother
    · simp only [taskScheduler, Prog.final_bind, hres, if_neg hother, Prog.final_pure]
      exact ⟨hview, hsettled⟩
  · rw [if_neg hfound] at hres
    refine ⟨?_, ?_⟩
    · rw [System.switches, hres]
    · simp only [taskScheduler, Prog.final_bind, hres, Prog.final_pure]
      exact ⟨hview, hsettled⟩

theorem inCount_taskScheduler (hs : s.hw.Settled) : (taskScheduler.final s).inCount = s.inCount + 1 := by
  obtain ⟨-, -, -, hcount⟩ := getCommand6502_spec hs
  rw [taskScheduler, Prog.final_bind, ← hcount]
  generalize getCommand6502.final s = s'
  split
  · rfl
  · simp only [Prog.final_ite, Prog.final_bind, Prog.final_pure]
    split <;> rfl

end Poll

/-! ## How long it takes -/

/-- At the latest so many polls ahead one looks at the slot. -/
def pollsToLook (inCount : UInt16) : Nat :=
  if inCount.toNat < 65530 then 10 - inCount.toNat % 10 else 65536 - inCount.toNat

theorem pollsToLook_pos (n : UInt16) : 0 < pollsToLook n := by
  have hn := n.toNat_lt
  unfold pollsToLook
  split <;> omega

theorem pollsToLook_le (n : UInt16) : pollsToLook n ≤ 10 := by
  unfold pollsToLook
  split <;> omega

/-- A poll that does not look brings the one that does nearer. -/
theorem pollsToLook_succ {n : UInt16} (h : (n + 1) % 10 ≠ 0) : pollsToLook (n + 1) + 1 = pollsToLook n := by
  have hn := n.toNat_lt
  have hnat : (n.toNat + 1) % 65536 % 10 ≠ 0 := by
    intro heq
    apply h
    apply UInt16.toNat_inj.1
    rw [UInt16.toNat_mod, UInt16.toNat_add]
    exact heq
  have hsucc : (n + 1).toNat = (n.toNat + 1) % 65536 := UInt16.toNat_add n 1
  unfold pollsToLook
  rw [hsucc]
  split <;> split <;> omega

/-! ## The kernel -/

/-- Where the kernel is with its request. -/
inductive KernelPhase
  /-- It waits until the slot is free. -/
  | resting
  /-- It has written the parameter. -/
  | preparing (c : UInt8)
  deriving DecidableEq, Repr

/-- The firmware and the kernel, the contexts that have been asked for, and those that `taskScheduler()` has
switched to. -/
structure Switching (σ : Type) where
  system : System σ
  phase : KernelPhase
  posted : List UInt8
  switched : List UInt8

/-- What happens between the firmware and the kernel. -/
inductive SwitchStep (σ : Type)
  /-- `taskScheduler()` runs. -/
  | poll
  /-- The kernel writes the parameter, if the slot is free. -/
  | param (c : UInt8)
  /-- It writes the command. -/
  | command
  /-- Another step of `loop()`. -/
  | aside (l : LoopStep σ)

/-- The step is a poll. -/
def SwitchStep.isPoll : SwitchStep σ → Bool
  | .poll => true
  | _ => false

/-- A byte written by the 6502. -/
def System.poke (s : System σ) (a : UInt16) (b : UInt8) : System σ := (onBoard (modify (·.poke a b))).final s

/-- One step of the firmware and the kernel. -/
def Switching.step (ff : FatFs σ) (flash : Flash) (k : Switching σ) : SwitchStep σ → Switching σ
  | .poll => { k with system := taskScheduler.final k.system, switched := k.switched ++ k.system.switches }
  | .param c =>
    if k.phase = .resting ∧ k.system.hw.peek commandAddress = CMD6502_NONE then
      { k with system := k.system.poke paramAddress c, phase := .preparing c }
    else k
  | .command =>
    match k.phase with
    | .preparing c => { k with
        system := k.system.poke commandAddress CMD6502_CONTEXT_SWITCH
        phase := .resting
        posted := k.posted ++ [c] }
    | .resting => k
  | .aside l => { k with system := k.system.step ff flash l }

/-- The context that has been asked for and not been switched to. -/
def Switching.pending (k : Switching σ) : List UInt8 :=
  if k.system.hw.peek commandAddress = CMD6502_NONE then [] else [k.system.hw.peek paramAddress]

/-- A step that leaves the slot, the mapping and the context alone, does not enter `sRESET`, and is no poll of the
slot. -/
structure SlotKept (s s' : System σ) : Prop where
  mmuRam : s'.hw.mmuRam = s.hw.mmuRam
  ctxReg : s'.hw.ctxReg = s.hw.ctxReg
  running : s'.hw.gSysState = .sRESET → s.hw.gSysState = .sRESET
  command : s'.hw.peek commandAddress = s.hw.peek commandAddress
  param : s'.hw.peek paramAddress = s.hw.peek paramAddress
  inCount : s'.inCount = s.inCount

/-- The contexts asked for are of `C`, and the other steps keep the slot. -/
def Switching.Meets (ff : FatFs σ) (flash : Flash) (C : Set UInt8) (k : Switching σ) : SwitchStep σ → Prop
  | .param c => c ∈ C
  | .aside l => SlotKept k.system (k.system.step ff flash l)
  | _ => True

/-- The contexts of `C` have the slot in the same page. -/
def Machine.View.SharesSlot (v : Machine.View) (C : Set UInt8) : Prop :=
  ∀ c ∈ C, ∀ c' ∈ C, v.mmuRam (c, 14) &&& 0x7F = v.mmuRam (c', 14) &&& 0x7F

/-- The slot is free and everything asked for has been done, or the last request is in it. -/
inductive Switching.Fits (C : Set UInt8) (k : Switching σ) : Prop
  | free (hslot : k.system.hw.peek commandAddress = CMD6502_NONE) (hdone : k.posted = k.switched)
      (hparam : ∀ c, k.phase = .preparing c → k.system.hw.peek paramAddress = c ∧ c ∈ C)
  | waiting {c : UInt8} (hslot : k.system.hw.peek commandAddress = CMD6502_CONTEXT_SWITCH)
      (hparam : k.system.hw.peek paramAddress = c) (hc : c ∈ C) (hphase : k.phase = .resting)
      (hposted : k.posted = k.switched ++ [c])

/-- The board is settled outside of `sRESET` in a context of `C`, the one switched to last. -/
structure Switching.Sound (C : Set UInt8) (start : UInt8) (k : Switching σ) : Prop where
  settled : k.system.hw.Settled
  running : k.system.hw.gSysState ≠ .sRESET
  shares : k.system.hw.view.SharesSlot C
  context : k.system.hw.ctxReg ∈ C
  current : k.system.hw.ctxReg = k.switched.getLast?.getD start
  fits : k.Fits C

section Kernel

variable {ff : FatFs σ} {flash : Flash} {C : Set UInt8} {start : UInt8} {k : Switching σ}

/-- The slot is found again in every context of `C`. -/
theorem Machine.View.SharesSlot.physAddr_select {v : Machine.View} (h : v.SharesSlot C) (hv : v.ctxReg ∈ C)
    {c : UInt8} (hc : c ∈ C) {a : UInt16} (ha : Machine.index a = 14) : (v.select c).physAddr a = v.physAddr a := by
  rw [Machine.View.physAddr, Machine.View.physAddr, ha]
  exact congrArg (·, _) (h _ hc _ hv)

theorem Switching.Sound.pending_eq (h : k.Sound C start) : k.posted = k.switched ++ k.pending := by
  obtain ⟨hslot, hdone, -⟩ | ⟨hslot, hparam, -, -, hposted⟩ := h.fits
  · rw [Switching.pending, if_pos hslot, List.append_nil, hdone]
  · rw [Switching.pending, if_neg (by rw [hslot]; decide), hparam, hposted]

/-- What a poll does: it carries out the request that waits if it looks, and nothing else. -/
theorem Switching.Sound.poll_cases (h : k.Sound C start) :
    (∃ c ∈ C, k.phase = .resting ∧ k.posted = k.switched ++ [c] ∧ k.system.LooksAtSlot ∧
      k.system.switches = [c] ∧ (taskScheduler.final k.system).hw.Settled ∧
      (taskScheduler.final k.system).hw.view = (k.system.hw.view.poke commandAddress CMD6502_NONE).select c) ∨
    (k.system.hw.peek commandAddress = CMD6502_NONE ∨ ¬ k.system.LooksAtSlot) ∧ k.system.switches = [] ∧
      (taskScheduler.final k.system).hw.Settled ∧ (taskScheduler.final k.system).hw.view = k.system.hw.view := by
  obtain ⟨hslot, -, -⟩ | ⟨hslot, hparam, hc, hphase, hposted⟩ := h.fits
  · obtain ⟨hnone, hview, hsettled⟩ := taskScheduler_pass h.settled (fun hcmd => by
      rw [Machine.peek_view, hslot] at hcmd
      exact absurd hcmd.2 (by decide))
    exact .inr ⟨.inl hslot, hnone, hsettled, hview⟩
  by_cases hlooks : k.system.LooksAtSlot
  · left
    rename_i c
    -- The acknowledgement is made in the new context: there the slot is the same cell.
    have hcell := h.shares.physAddr_select (v := k.system.hw.view) h.context hc (a := commandAddress) (by decide)
    have hsame : (k.system.hw.view.select c).peek commandAddress = CMD6502_CONTEXT_SWITCH := by
      rw [Machine.View.peek, hcell]
      exact hslot
    obtain ⟨hswitches, hview, hsettled⟩ := taskScheduler_switch h.settled h.running hlooks hslot (by
      rw [Machine.peek_view, hparam, hsame]
      decide)
    rw [Machine.peek_view, hparam] at hswitches hview
    refine ⟨c, hc, hphase, hposted, hlooks, hswitches, hsettled, ?_⟩
    rw [hview, Machine.View.poke, hcell]
    rfl
  · obtain ⟨hnone, hview, hsettled⟩ := taskScheduler_pass h.settled fun hcmd => hlooks hcmd.1
    exact .inr ⟨.inr hlooks, hnone, hsettled, hview⟩

/-- The slot stays shared while the mapping does. -/
theorem Machine.View.SharesSlot.congr {v v' : Machine.View} (h : v.SharesSlot C) (hmap : v'.mmuRam = v.mmuRam) :
    v'.SharesSlot C := by
  intro c hc c' hc'
  rw [hmap]
  exact h c hc c' hc'

/-- The parts of a sound state that the mapping and the context decide. -/
theorem Switching.Sound.of_map {k' : Switching σ} (h : k.Sound C start) (hsettled : k'.system.hw.Settled)
    (hmap : k'.system.hw.mmuRam = k.system.hw.mmuRam) (hreg : k'.system.hw.ctxReg = k.system.hw.ctxReg)
    (hstate : k'.system.hw.gSysState = .sRESET → k.system.hw.gSysState = .sRESET)
    (hswitched : k'.switched = k.switched) (hfits : k'.Fits C) : k'.Sound C start := by
  refine ⟨hsettled, fun hreset => h.running (hstate hreset), h.shares.congr hmap, hreg ▸ h.context, ?_, hfits⟩
  rw [hreg, hswitched]
  exact h.current

/-- A slot that stays fits as before. -/
theorem Switching.Fits.congr {k' : Switching σ} (h : k.Fits C)
    (hcommand : k'.system.hw.peek commandAddress = k.system.hw.peek commandAddress)
    (hparam : k'.system.hw.peek paramAddress = k.system.hw.peek paramAddress) (hphase : k'.phase = k.phase)
    (hposted : k'.posted = k.posted) (hswitched : k'.switched = k.switched) : k'.Fits C := by
  obtain ⟨hslot, hdone, hprepared⟩ | ⟨hslot, hset, hc, hrests, hwaits⟩ := h
  · refine .free (hcommand.trans hslot) (by rw [hposted, hswitched, hdone]) fun c hc => ?_
    rw [hparam]
    exact hprepared c (hphase ▸ hc)
  · exact .waiting (hcommand.trans hslot) (hparam.trans hset) hc (hphase.trans hrests)
      (by rw [hposted, hswitched, hwaits])

theorem Switching.Sound.poll (h : k.Sound C start) : (k.step ff flash .poll).Sound C start := by
  rw [Switching.step]
  obtain ⟨c, hc, hphase, hposted, -, hswitches, hsettled, hview⟩ | ⟨-, hnone, hsettled, hview⟩ := h.poll_cases
  · generalize taskScheduler.final k.system = s at hsettled hview
    have hstate : s.hw.gSysState = k.system.hw.gSysState := congrArg Machine.View.gSysState hview
    have hmap : s.hw.mmuRam = k.system.hw.mmuRam := congrArg Machine.View.mmuRam hview
    have hreg : s.hw.ctxReg = c := congrArg Machine.View.ctxReg hview
    have hfree : s.hw.peek commandAddress = CMD6502_NONE := by
      have hcell := h.shares.physAddr_select (v := k.system.hw.view) h.context hc (a := commandAddress) (by decide)
      rw [← Machine.peek_view, hview]
      show Function.update _ _ _ _ = _
      rw [show ((k.system.hw.view.poke commandAddress CMD6502_NONE).select c).physAddr commandAddress =
        k.system.hw.view.physAddr commandAddress from hcell, Function.update_self]
    refine ⟨hsettled, hstate ▸ h.running, h.shares.congr hmap, ?_, ?_, .free hfree ?_ fun c' hc' => ?_⟩
    · rw [hreg]
      exact hc
    · rw [hreg, hswitches, List.getLast?_concat, Option.getD_some]
    · rw [hswitches]
      exact hposted
    · rw [hphase] at hc'
      cases hc'
  · rw [hnone, List.append_nil]
    have hpeek : ∀ a, (taskScheduler.final k.system).hw.peek a = k.system.hw.peek a := fun a => by
      rw [← Machine.peek_view, hview, Machine.peek_view]
    refine h.of_map hsettled (congrArg Machine.View.mmuRam hview) (congrArg Machine.View.ctxReg hview) ?_ rfl
      (h.fits.congr (hpeek commandAddress) (hpeek paramAddress) rfl rfl rfl)
    exact fun hreset => (congrArg Machine.View.gSysState hview).symm.trans hreset

theorem settled_poke {m : Machine} (hm : m.Settled) (a : UInt16) (b : UInt8) : (m.poke a b).Settled :=
  hm.congr rfl rfl rfl rfl

theorem hw_poke (s : System σ) (a : UInt16) (b : UInt8) : (s.poke a b).hw = s.hw.poke a b := rfl

/-- The command and its parameter are different bytes. -/
theorem physAddr_slot (m : Machine) : m.physAddr commandAddress ≠ m.physAddr paramAddress := fun h =>
  absurd (Prod.mk.inj h).2 (by decide)

theorem Switching.Sound.param (h : k.Sound C start) {c : UInt8} (hc : c ∈ C) :
    (k.step ff flash (.param c)).Sound C start := by
  rw [Switching.step]
  split
  · rename_i hfree
    have hslot : (k.system.poke paramAddress c).hw.peek commandAddress = CMD6502_NONE := by
      rw [hw_poke, Machine.peek, Machine.poke]
      exact (Function.update_of_ne (physAddr_slot k.system.hw) _ _).trans hfree.2
    refine h.of_map (settled_poke h.settled paramAddress c) rfl rfl id rfl (.free hslot ?_ fun c' hc' => ?_)
    · obtain ⟨-, hdone, -⟩ | ⟨hwaits, -⟩ := h.fits
      · exact hdone
      · rw [hfree.2] at hwaits
        cases hwaits
    · cases hc'
      exact ⟨Function.update_self _ _ _, hc⟩
  · exact h

theorem Switching.Sound.command (h : k.Sound C start) : (k.step ff flash .command).Sound C start := by
  rw [Switching.step]
  split
  · rename_i c hphase
    obtain ⟨-, hdone, hprepared⟩ | ⟨-, -, -, hrests, -⟩ := h.fits
    · obtain ⟨hparam, hc⟩ := hprepared c hphase
      refine h.of_map (settled_poke h.settled commandAddress _) rfl rfl id rfl (.waiting (c := c) ?_ ?_ hc rfl ?_)
      · exact Function.update_self _ _ _
      · rw [hw_poke, Machine.peek, Machine.poke]
        exact (Function.update_of_ne (physAddr_slot k.system.hw).symm _ _).trans hparam
      · rw [hdone]
    · rw [hphase] at hrests
      cases hrests
  · exact h

theorem Switching.Sound.aside (hread : ReadsAtMost ff) (h : k.Sound C start) {l : LoopStep σ}
    (hl : SlotKept k.system (k.system.step ff flash l)) : (k.step ff flash (.aside l)).Sound C start :=
  h.of_map (settled_step hread flash h.settled l) hl.mmuRam hl.ctxReg hl.running rfl
    (h.fits.congr hl.command hl.param rfl rfl rfl)

theorem Switching.Sound.step (hread : ReadsAtMost ff) (h : k.Sound C start) {l : SwitchStep σ}
    (hl : k.Meets ff flash C l) : (k.step ff flash l).Sound C start := by
  cases l with
  | poll => exact h.poll
  | param c => exact h.param hl
  | command => exact h.command
  | aside l => exact h.aside hread hl

/-! ## Runs -/

/-- The requests `posted` have been carried out, or the last of them is in the slot and a poll looks soon. -/
inductive Switching.Due (posted : List UInt8) (polls : Nat) (k : Switching σ) : Prop
  | done (h : posted <+: k.switched)
  | soon (hslot : k.system.hw.peek commandAddress = CMD6502_CONTEXT_SWITCH) (hphase : k.phase = .resting)
      (hposted : k.posted = posted) (hsoon : pollsToLook k.system.inCount ≤ polls)

theorem Switching.Sound.due (h : k.Sound C start) : k.Due k.posted 10 := by
  obtain ⟨-, hdone, -⟩ | ⟨hslot, -, -, hphase, -⟩ := h.fits
  · exact .done (by rw [hdone])
  · exact .soon hslot hphase rfl (pollsToLook_le _)

theorem Switching.Due.of_zero {posted : List UInt8} (h : k.Due posted 0) : posted <+: k.switched := by
  obtain hdone | ⟨-, -, -, hsoon⟩ := h
  · exact hdone
  · have hpos := pollsToLook_pos k.system.inCount
    omega

/-- What has been carried out stays so. -/
theorem Switching.prefix_step (l : SwitchStep σ) : k.switched <+: (k.step ff flash l).switched := by
  cases l with
  | poll => exact List.prefix_append _ _
  | param c =>
    rw [Switching.step]
    split <;> exact List.prefix_rfl
  | command =>
    rw [Switching.step]
    split <;> exact List.prefix_rfl
  | aside l => exact List.prefix_rfl

/-- A poll carries the request out, or is one poll less to wait for. -/
theorem Switching.Due.poll (h : k.Sound C start) {posted : List UInt8} {n : Nat} (hdue : k.Due posted (n + 1)) :
    (k.step ff flash .poll).Due posted n := by
  obtain hdone | ⟨hslot, hphase, hposted, hsoon⟩ := hdue
  · exact .done (hdone.trans (Switching.prefix_step .poll))
  rw [Switching.step]
  obtain ⟨c, -, -, hwaits, -, hswitches, -⟩ | ⟨hpass, -, -, hview⟩ := h.poll_cases
  · refine .done ?_
    rw [hswitches, ← hwaits, hposted]
  · have hlooks : ¬ k.system.LooksAtSlot := hpass.resolve_left (by rw [hslot]; decide)
    have hnext := pollsToLook_succ (n := k.system.inCount) fun heq => hlooks (.inr heq)
    refine .soon ?_ hphase hposted ?_
    · rw [← Machine.peek_view, hview]
      exact hslot
    · rw [inCount_taskScheduler h.settled]
      omega

theorem Switching.Due.of_not_poll {posted : List UInt8} {n : Nat} (hdue : k.Due posted n) {l : SwitchStep σ}
    (hl : k.Meets ff flash C l) (hpoll : l.isPoll = false) : (k.step ff flash l).Due posted n := by
  obtain hdone | ⟨hslot, hphase, hposted, hsoon⟩ := hdue
  · exact .done (hdone.trans (Switching.prefix_step l))
  cases l with
  | poll => cases hpoll
  | param c =>
    rw [Switching.step, if_neg fun hfree => by rw [hslot] at hfree; exact absurd hfree.2 (by decide)]
    exact .soon hslot hphase hposted hsoon
  | command =>
    rw [Switching.step, hphase]
    exact .soon hslot hphase hposted hsoon
  | aside l =>
    refine .soon (hl.command.trans hslot) hphase hposted ?_
    rw [show (k.step ff flash (.aside l)).system.inCount = k.system.inCount from hl.inCount]
    exact hsoon

/-- So many polls later the requests have been carried out. -/
theorem Switching.Due.run (hread : ReadsAtMost ff) {posted : List UInt8} {n : Nat} {run : List (SwitchStep σ)}
    (h : k.Sound C start) (hdue : k.Due posted n)
    (hrun : Run.AtEveryStep (Switching.step ff flash) (Switching.Meets ff flash C) k run)
    (hpolls : n ≤ run.countP SwitchStep.isPoll) : posted <+: (run.foldl (Switching.step ff flash) k).switched := by
  -- By the run, for any number of polls still to wait for: a poll makes it less, no other step makes it more.
  induction run generalizing k n with
  | nil =>
    obtain rfl : n = 0 := Nat.le_zero.1 hpolls
    exact hdue.of_zero
  | cons l run ih =>
    obtain ⟨hl, hrun⟩ := Run.atEveryStep_cons.1 hrun
    rw [List.foldl_cons]
    by_cases hpoll : l.isPoll = true
    · rw [List.countP_cons_of_pos hpoll] at hpolls
      obtain rfl : l = .poll := by cases l <;> first | rfl | cases hpoll
      have hnext : k.Due posted (run.countP SwitchStep.isPoll + 1) := by
        obtain hdone | ⟨hslot, hphase, hposted, hsoon⟩ := hdue
        · exact .done hdone
        · exact .soon hslot hphase hposted (hsoon.trans hpolls)
      exact ih h.poll (Switching.Due.poll h hnext) hrun le_rfl
    · rw [List.countP_cons_of_neg hpoll] at hpolls
      exact ih (h.step hread hl) (hdue.of_not_poll hl (Bool.eq_false_iff.2 hpoll)) hrun hpolls

theorem Switching.sound_run (hread : ReadsAtMost ff) {run : List (SwitchStep σ)} (h : k.Sound C start)
    (hrun : Run.AtEveryStep (Switching.step ff flash) (Switching.Meets ff flash C) k run) :
    (run.foldl (Switching.step ff flash) k).Sound C start := by
  have hstep : ∀ (k : Switching σ) l, k.Sound C start → k.Meets ff flash C l → (k.step ff flash l).Sound C start :=
    fun k l hk hl => hk.step hread hl
  exact hrun.invariant hstep h

/-- In every run of polls, requests and other steps that leave the slot alone, with the page of the slot shared by
the contexts asked for, what has been asked for is, in order, what `taskScheduler()` has switched to and what is in
the slot, the context is the one switched to last, and what was asked for more than nine polls ago has been done. -/
theorem context_switches_once (hread : ReadsAtMost ff) (flash : Flash) (C : Set UInt8) {s : System σ}
    (hsettled : s.hw.Settled) (hstate : s.hw.gSysState ≠ .sRESET) (hshares : s.hw.view.SharesSlot C)
    (hcontext : s.hw.ctxReg ∈ C) (hfree : s.hw.peek commandAddress = CMD6502_NONE) (run : List (SwitchStep σ)) :
    let start : Switching σ := ⟨s, .resting, [], []⟩
    Run.AtEveryStep (Switching.step ff flash) (Switching.Meets ff flash C) start run →
      let k := run.foldl (Switching.step ff flash) start
      k.posted = k.switched ++ k.pending ∧ k.system.hw.ctxReg = k.switched.getLast?.getD s.hw.ctxReg ∧
        ∀ before after, run = before ++ after → 10 ≤ after.countP SwitchStep.isPoll →
          (before.foldl (Switching.step ff flash) start).posted <+: k.switched := by
  intro start hrun k
  have hstart : start.Sound C s.hw.ctxReg := by
    refine ⟨hsettled, hstate, hshares, hcontext, rfl, .free hfree rfl fun c hc => ?_⟩
    cases hc
  have hsound : k.Sound C s.hw.ctxReg := Switching.sound_run hread hstart hrun
  refine ⟨hsound.pending_eq, hsound.current, ?_⟩
  rintro before after rfl hpolls
  have hbefore := Switching.sound_run hread hstart hrun.of_append
  rw [show k = after.foldl (Switching.step ff flash) (before.foldl (Switching.step ff flash) start) from
    List.foldl_append]
  exact Switching.Due.run hread hbefore hbefore.due hrun.behind hpolls

end Kernel

/-- A CPU that runs, every context mapped straight. -/
def straightSystem : System RamDisk := .start (.running fun _ => 0) (RamDisk.mounted fun _ => none)

/-- A context that is asked for has been switched to ten polls later. -/
theorem context_switches_once_third :
    [3] <+: (List.foldl (Switching.step RamDisk.fatFs fun _ => none) ⟨straightSystem, .resting, [], []⟩
      ([.param 3, .command] ++ List.replicate 10 .poll)).switched := by
  have hsettled : straightSystem.hw.Settled := Machine.settled_running _
  have hrun : Run.AtEveryStep (Switching.step RamDisk.fatFs fun _ => none)
      (Switching.Meets RamDisk.fatFs (fun _ => none) {0, 3}) ⟨straightSystem, .resting, [], []⟩
      ([.param 3, .command] ++ List.replicate 10 .poll) := by
    refine Run.atEveryStep_cons.2 ⟨.inr rfl, Run.atEveryStep_cons.2 ⟨trivial, ?_⟩⟩
    intro pre l post hpolls
    have hmem : l ∈ List.replicate 10 SwitchStep.poll := by
      rw [show List.replicate 10 SwitchStep.poll = pre ++ l :: post from hpolls]
      exact List.mem_append_cons_self
    rw [List.eq_of_mem_replicate hmem]
    trivial
  have hdone := (context_switches_once readsAtMost_ramDisk (fun _ => none) {0, 3} hsettled nofun
    (fun c _ c' _ => rfl) (.inl rfl) rfl _ hrun).2.2 [.param 3, .command] (List.replicate 10 .poll) rfl (by decide)
  exact hdone

end NeoMmu
