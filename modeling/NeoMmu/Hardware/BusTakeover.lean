import NeoMmu.Hardware.Pins

/-!
# Taking the bus from the CPU

Two laws about the pins, at every single write. The RP must not drive the R/W pin while the CPU's bus is
enabled; and it may disable the bus of a CPU that is out of reset only with the clock stopped in a read cycle.
Neither holds of every run: three states enable the bus before the RP lets go of R/W, and `halt6502clock()`
looks for a read cycle only when it finds the clock running.
-/

namespace NeoMmu

open Prog (now drive)

/-- The CPU's bus is enabled. -/
def SysState.cpuBus : SysState → Bool
  | .sRESET | .sHALTED | .sRUNNING | .sREAD => true
  | .sSTARTUP | .sBOOT | .sRPI => false

/-- The clock runs. -/
def SysState.clocked : SysState → Bool
  | .sRESET | .sRUNNING => true
  | .sSTARTUP | .sBOOT | .sHALTED | .sREAD | .sRPI => false

/-- The bus is enabled while the RP drives R/W. -/
def Pins.Contended (p : Pins) : Prop := p.bePin = true ∧ p.gDir6502RW = .mOUTPUT

instance (p : Pins) : Decidable p.Contended := inferInstanceAs (Decidable (_ ∧ _))

/-- No write leaves the pins contended. -/
def Uncontended (e : Pins × Pins) : Prop := ¬ e.2.Contended

instance : DecidablePred Uncontended := fun _ => inferInstanceAs (Decidable (¬ _))

/-- A write that disables the bus of a CPU out of reset finds the clock stopped, in a read cycle. -/
def Gentle (cpu : Cpu) (e : Pins × Pins) : Prop :=
  e.1.bePin = true → e.2.bePin = false → e.2.resetPin = true →
    e.2.gClockState = .eOFF ∧ cpu.reads e.2.cycle = true

instance (cpu : Cpu) : DecidablePred (Gentle cpu) := fun _ =>
  inferInstanceAs (Decidable (_ = true → _ = false → _ = true → _ ∧ _ = true))

/-- The pins are those of the system state. -/
structure Pins.Tracks (p : Pins) : Prop where
  bePin : p.bePin = p.gSysState.cpuBus
  gDir6502RW : p.gDir6502RW = if p.gSysState.cpuBus then .mINPUT else .mOUTPUT
  gClockState : p.gClockState = if p.gSysState.clocked then .eON else .eOFF
  resetPin : p.gSysState = .sRESET → p.resetPin = false

/-- The bus and the direction of R/W are the same. -/
structure Pins.SameBus (p q : Pins) : Prop where
  bePin : q.bePin = p.bePin
  gDir6502RW : q.gDir6502RW = p.gDir6502RW

namespace Pins

variable {cpu : Cpu} {t : Traced Pins (Pins × Pins)} {P : Pins × Pins → Prop}

/-! ## Stepping the clock -/

/-- `P` holds of every write that leaves the bus alone. -/
def Allows (P : Pins × Pins → Prop) (p : Pins) : Prop := ∀ q r, p.SameBus q → p.SameBus r → P (q, r)

theorem Allows.congr {p q : Pins} (h : Allows P p) (hpq : p.SameBus q) : Allows P q :=
  fun _ _ hr hr' => h _ _ ⟨hr.bePin.trans hpq.bePin, hr.gDir6502RW.trans hpq.gDir6502RW⟩
    ⟨hr'.bePin.trans hpq.bePin, hr'.gDir6502RW.trans hpq.gDir6502RW⟩

/-- A step moves the CPU to its next cycle. -/
theorem ss6502ClockStep_spec (t : Traced Pins (Pins × Pins)) :
    (ss6502ClockStep.final t).now = { t.now with phi2Pin := true, cycle := t.now.cycle + 1 } ∧
      (Allows P t.now → ((ss6502ClockStep.final t).All P ↔ t.All P)) := by
  refine ⟨rfl, fun hP => ?_⟩
  simp only [ss6502ClockStep, Prog.final_bind, Prog.final_drive, Traced.all_push, Traced.all_put,
    Traced.now_put]
  have hlow := hP t.now { t.now with phi2Pin := false, cycle := t.now.cycle + 1 } ⟨rfl, rfl⟩ ⟨rfl, rfl⟩
  have hhigh := hP { t.now with phi2Pin := false, cycle := t.now.cycle + 1 }
    { t.now with phi2Pin := true, cycle := t.now.cycle + 1 } ⟨rfl, rfl⟩ ⟨rfl, rfl⟩
  exact ⟨fun h => h.1.1, fun h => ⟨⟨h, hlow⟩, hhigh⟩⟩

@[simp] theorem final_get6502RW (t : Traced Pins (Pins × Pins)) : (get6502RW cpu).final t = t := by
  simp only [get6502RW, Prog.final_bind, Prog.result_now, Prog.final_now, Prog.final_ite, Prog.final_pure,
    ite_self]

/-- With the bus enabled and R/W an input, the RP sees the cycle of the CPU. -/
theorem result_get6502RW (hbe : t.now.bePin = true) (hdir : t.now.gDir6502RW = .mINPUT) :
    (get6502RW cpu).result t = cpu.reads t.now.cycle := by
  simp only [get6502RW, Prog.result_bind, Prog.result_now, Prog.final_now, hdir, if_true, Prog.result_pure, rw,
    hbe]

variable (cpu) in
/-- Looking for a read cycle steps the CPU, and finds one that is near enough. -/
theorem advance6502clock_spec (tries : Nat) (t : Traced Pins (Pins × Pins)) :
    (∃ phi2 c, ((advance6502clock cpu tries).final t).now = { t.now with phi2Pin := phi2, cycle := c } ∧
        (t.now.bePin = true → t.now.gDir6502RW = .mINPUT →
          (∃ i < tries, cpu.reads (t.now.cycle + i) = true) → cpu.reads c = true)) ∧
      (Allows P t.now → (((advance6502clock cpu tries).final t).All P ↔ t.All P)) := by
  induction tries generalizing t with
  | zero => exact ⟨⟨_, _, rfl, fun _ _ ⟨_, hi, _⟩ => absurd hi (Nat.not_lt_zero _)⟩, fun _ => .rfl⟩
  | succ tries ih =>
    rw [advance6502clock, Prog.final_bind, final_get6502RW]
    by_cases hread : (get6502RW cpu).result t = true
    · rw [if_pos hread]
      refine ⟨⟨_, _, rfl, fun hbe hdir _ => ?_⟩, fun _ => .rfl⟩
      rwa [result_get6502RW hbe hdir] at hread
    · rw [if_neg hread, Prog.final_bind]
      obtain ⟨hstep, hall⟩ := ss6502ClockStep_spec (P := P) t
      obtain ⟨⟨phi2, c, hnow, hfound⟩, hrest⟩ := ih (ss6502ClockStep.final t)
      rw [hstep] at hnow hfound hrest
      refine ⟨⟨phi2, c, hnow, fun hbe hdir => ?_⟩, fun hP => ?_⟩
      · rintro ⟨i, hi, hreads⟩
        refine hfound hbe hdir ?_
        cases i with
        | zero =>
          rw [result_get6502RW hbe hdir] at hread
          exact absurd hreads hread
        | succ i =>
          refine ⟨i, by omega, ?_⟩
          rw [← hreads]
          exact congrArg cpu.reads (by rw [Nat.add_assoc, Nat.add_comm 1])
      · rw [hrest (hP.congr ⟨rfl, rfl⟩), hall hP]

variable (cpu) in
/-- Halting stops the clock. A clock that ran is stopped in a read cycle, if the CPU has the bus. -/
theorem halt6502clock_spec (t : Traced Pins (Pins × Pins)) :
    (∃ phi2 c, ((halt6502clock cpu).final t).now =
        { t.now with gClockState := .eOFF, phi2Pin := phi2, cycle := c } ∧
      (t.now.gClockState = .eOFF → c = t.now.cycle) ∧
      (cpu.Yields → t.now.gClockState = .eON → t.now.bePin = true → t.now.gDir6502RW = .mINPUT →
        cpu.reads c = true)) ∧
      (Allows P t.now → (((halt6502clock cpu).final t).All P ↔ t.All P)) := by
  simp only [halt6502clock, Prog.final_bind, Prog.result_now, Prog.final_now, Prog.final_ite, Prog.final_pure]
  by_cases hoff : t.now.gClockState = .eOFF
  · rw [if_pos hoff]
    refine ⟨⟨t.now.phi2Pin, t.now.cycle, ?_, fun _ => rfl, fun _ hon => ?_⟩, fun _ => .rfl⟩
    · rw [← hoff]
    · rw [hoff] at hon
      cases hon
  · rw [if_neg hoff]
    simp only [Prog.final_drive, Traced.now_put]
    obtain ⟨⟨phi2, c, hnow, hfound⟩, hall⟩ := advance6502clock_spec cpu (P := P) 8
      (((t.push (t.now, { t.now with phi2Pin := true })).put { t.now with phi2Pin := true }).push
        ({ t.now with phi2Pin := true }, { t.now with phi2Pin := true, gClockState := .eOFF })
        |>.put { t.now with phi2Pin := true, gClockState := .eOFF })
    refine ⟨⟨phi2, c, hnow, fun h => absurd h hoff, fun hyields _ hbe hdir => ?_⟩, fun hP => ?_⟩
    · obtain ⟨i, hi, hreads⟩ := hyields t.now.cycle
      exact hfound hbe hdir ⟨i, by omega, hreads⟩
    · rw [hall (hP.congr ⟨rfl, rfl⟩)]
      simp only [Traced.all_push, Traced.all_put]
      have hhigh := hP t.now { t.now with phi2Pin := true } ⟨rfl, rfl⟩ ⟨rfl, rfl⟩
      have hstop := hP { t.now with phi2Pin := true } { t.now with phi2Pin := true, gClockState := .eOFF }
        ⟨rfl, rfl⟩ ⟨rfl, rfl⟩
      exact ⟨fun h => h.1.1, fun h => ⟨⟨h, hhigh⟩, hstop⟩⟩

/-! ## Writes beside the bus -/

theorem allows_uncontended {p : Pins} (hp : ¬ p.Contended) : Allows Uncontended p := by
  rintro q r - hr ⟨hbe, hdir⟩
  exact hp ⟨hr.bePin ▸ hbe, hr.gDir6502RW ▸ hdir⟩

theorem allows_gentle (p : Pins) : Allows (Gentle cpu) p := by
  intro q r hq hr hbe hbe'
  rw [hq.bePin, ← hr.bePin, hbe'] at hbe
  cases hbe

/-- Writes that leave the bus alone break neither law. -/
structure Beside (cpu : Cpu) (t t' : Traced Pins (Pins × Pins)) : Prop where
  bus : t.now.SameBus t'.now
  uncontended : ¬ t.now.Contended → (t'.All Uncontended ↔ t.All Uncontended)
  gentle : t'.All (Gentle cpu) ↔ t.All (Gentle cpu)

theorem SameBus.not_contended {p q : Pins} (h : p.SameBus q) (hp : ¬ p.Contended) : ¬ q.Contended := by
  rwa [Contended, h.bePin, h.gDir6502RW]

theorem Beside.trans {t' t'' : Traced Pins (Pins × Pins)} (h : Beside cpu t t') (h' : Beside cpu t' t'') :
    Beside cpu t t'' where
  bus := ⟨h'.bus.bePin.trans h.bus.bePin, h'.bus.gDir6502RW.trans h.bus.gDir6502RW⟩
  uncontended hp := (h'.uncontended (h.bus.not_contended hp)).trans (h.uncontended hp)
  gentle := h'.gentle.trans h.gentle

theorem beside_drive {g : Pins → Pins} (hg : t.now.SameBus (g t.now)) :
    Beside cpu t ((drive g).final t) where
  bus := hg
  uncontended hp := by
    rw [Prog.final_drive, Traced.all_put, Traced.all_push]
    exact and_iff_left (allows_uncontended hp _ _ ⟨rfl, rfl⟩ hg)
  gentle := by
    rw [Prog.final_drive, Traced.all_put, Traced.all_push]
    exact and_iff_left (allows_gentle t.now _ _ ⟨rfl, rfl⟩ hg)

theorem beside_halt : Beside cpu t ((halt6502clock cpu).final t) where
  bus := by
    obtain ⟨⟨phi2, c, hnow, -⟩, -⟩ := halt6502clock_spec cpu (P := Uncontended) t
    rw [hnow]
    exact ⟨rfl, rfl⟩
  uncontended hp := (halt6502clock_spec cpu t).2 (allows_uncontended hp)
  gentle := (halt6502clock_spec cpu t).2 (allows_gentle t.now)

/-! ## Giving and taking the bus -/

/-- The bus is the CPU's or the RP's. -/
def Owned (p : Pins) : Prop :=
  p.bePin = true ∧ p.gDir6502RW = .mINPUT ∨ p.bePin = false ∧ p.gDir6502RW = .mOUTPUT

theorem Owned.not_contended {p : Pins} (h : p.Owned) : ¬ p.Contended := by
  rintro ⟨hbe, hdir⟩
  rcases h with ⟨-, hdir'⟩ | ⟨hbe', -⟩
  · rw [hdir'] at hdir
    cases hdir
  · rw [hbe'] at hbe
    cases hbe

theorem Owned.congr {p q : Pins} (h : p.Owned) (hpq : p.SameBus q) : q.Owned := by
  rwa [Owned, hpq.bePin, hpq.gDir6502RW]

variable (cpu) in
/-- Enabling the bus before R/W is let go of is right only when it is the CPU's already. -/
theorem give_spec (h : t.now.Owned) :
    let t' := (dir6502RW .mINPUT).final ((setBEPin true).final t)
    (∃ out, t'.now = { t.now with bePin := true, rwOut := out, gDir6502RW := .mINPUT }) ∧
      (t'.All Uncontended ↔ t.All Uncontended ∧ t.now.bePin = true) ∧
      (t'.All (Gentle cpu) ↔ t.All (Gentle cpu)) := by
  simp only [setBEPin, dir6502RW, Prog.final_bind, Prog.result_now, Prog.final_now, Prog.final_ite,
    Prog.final_pure, Prog.final_drive, Traced.now_put]
  rcases h with ⟨hbe, hdir⟩ | ⟨hbe, hdir⟩
  · rw [hdir, if_neg (by simp)]
    refine ⟨⟨t.now.rwOut, by rw [Traced.now_put, ← hdir]⟩, ?_, ?_⟩
    · simp [Uncontended, Contended, hbe]
    · simp [Gentle, hbe]
  · rw [hdir, if_pos (by simp)]
    refine ⟨⟨false, rfl⟩, ?_, ?_⟩
    · simp [Uncontended, Contended, hbe]
    · simp [Gentle]

variable (cpu) in
/-- Disabling the bus is right when nothing is lost by it. -/
theorem take_spec (h : t.now.Owned) :
    let t' := (dir6502RW .mOUTPUT).final ((setBEPin false).final t)
    (∃ out level, t'.now =
        { t.now with bePin := false, rwOut := out, rwLevel := level, gDir6502RW := .mOUTPUT }) ∧
      (t'.All Uncontended ↔ t.All Uncontended) ∧
      (t'.All (Gentle cpu) ↔ t.All (Gentle cpu) ∧ (t.now.bePin = true → t.now.resetPin = true →
        t.now.gClockState = .eOFF ∧ cpu.reads t.now.cycle = true)) := by
  simp only [setBEPin, dir6502RW, set6502RW, Prog.final_bind, Prog.result_now, Prog.final_now, Prog.final_ite,
    Prog.final_pure, Prog.final_drive, Traced.now_put]
  rcases h with ⟨hbe, hdir⟩ | ⟨hbe, hdir⟩
  · rw [hdir, if_pos (by simp)]
    refine ⟨⟨true, true, rfl⟩, ?_, ?_⟩
    · simp [Uncontended, Contended]
    · simp [Gentle, hbe]
  · rw [hdir, if_neg (by simp)]
    refine ⟨⟨t.now.rwOut, t.now.rwLevel, by rw [Traced.now_put, ← hdir]⟩, ?_, ?_⟩
    · simp [Uncontended, Contended]
    · simp [Gentle, hbe]

variable (cpu) in
/-- Letting go of R/W before the bus is enabled is always right. -/
theorem release_spec (h : t.now.Owned) :
    let t' := (setBEPin true).final ((dir6502RW .mINPUT).final t)
    (∃ out, t'.now = { t.now with bePin := true, rwOut := out, gDir6502RW := .mINPUT }) ∧
      (t'.All Uncontended ↔ t.All Uncontended) ∧ (t'.All (Gentle cpu) ↔ t.All (Gentle cpu)) := by
  simp only [setBEPin, dir6502RW, Prog.final_bind, Prog.result_now, Prog.final_now, Prog.final_ite,
    Prog.final_pure, Prog.final_drive, Traced.now_put]
  rcases h with ⟨hbe, hdir⟩ | ⟨hbe, hdir⟩
  · rw [hdir, if_neg (by simp)]
    refine ⟨⟨t.now.rwOut, by rw [← hdir]⟩, ?_, ?_⟩
    · simp [Uncontended, Contended, hdir]
    · simp [Gentle, hbe]
  · rw [hdir, if_pos (by simp)]
    refine ⟨⟨false, rfl⟩, ?_, ?_⟩
    · simp [Uncontended, Contended, hbe]
    · simp [Gentle, hbe]

/-! ## Entering a state -/

theorem Tracks.owned {p : Pins} (h : p.Tracks) : p.Owned := by
  have hbe := h.bePin
  have hdir := h.gDir6502RW
  cases hbus : p.gSysState.cpuBus <;> rw [hbus] at hbe hdir
  · exact .inr ⟨hbe, hdir⟩
  · exact .inl ⟨hbe, hdir⟩

/-- A parked CPU: out of reset, with its clock stopped in a write cycle. -/
def Parked (cpu : Cpu) (p : Pins) : Prop :=
  p.resetPin = true ∧ p.gClockState = .eOFF ∧ cpu.reads p.cycle = false

/-- The level of RESET in a state entered with RESET at `level`. -/
def resetIn (level : Bool) : SysState → Bool
  | .sBOOT | .sRESET => false
  | .sRUNNING | .sREAD => true
  | .sSTARTUP | .sHALTED | .sRPI => level

/-- What entering a state leaves, and which of its writes break a law. -/
structure Enters (cpu : Cpu) (s : SysState) (t t' : Traced Pins (Pins × Pins)) : Prop where
  tracks : t'.now.Tracks
  gSysState : t'.now.gSysState = s
  cycle : t.now.gClockState = .eOFF → t'.now.cycle = t.now.cycle
  resetPin : t'.now.resetPin = resetIn t.now.resetPin s
  uncontended : t'.All Uncontended ↔ t.All Uncontended ∧
    (s = .sRESET ∨ s = .sHALTED ∨ s = .sREAD → t.now.gSysState.cpuBus = true)
  gentle : cpu.Yields → (t'.All (Gentle cpu) ↔ t.All (Gentle cpu) ∧
    (s = .sRPI → t.now.gSysState.cpuBus = true → ¬ t.now.Parked cpu))

/-- The end of every state: the control mode, and the state itself. -/
def conclude (vMode : ControlMode) (s : SysState) : PinProg Unit := do
  setControlMode vMode
  drive fun p => { p with gSysState := s }

variable (cpu) in
theorem conclude_spec (vMode : ControlMode) (s : SysState) (t : Traced Pins (Pins × Pins)) :
    ((conclude vMode s).final t).now = { t.now with gControlMode := vMode, gSysState := s } ∧
      Beside cpu t ((conclude vMode s).final t) := by
  have hmode : Beside cpu t ((setControlMode vMode).final t) := beside_drive ⟨rfl, rfl⟩
  refine ⟨rfl, hmode.trans ?_⟩
  rw [conclude, Prog.final_bind]
  exact beside_drive ⟨rfl, rfl⟩

/-- A state that enables the bus before R/W is let go of. -/
theorem enters_giving {s : SysState} (hs : s = .sRESET ∨ s = .sHALTED ∨ s = .sREAD) (h : t.now.Tracks)
    {t₁ : Traced Pins (Pins × Pins)} (hbeside : Beside cpu t t₁)
    (hclock : t₁.now.gClockState = if s.clocked then .eON else .eOFF)
    (hcycle : t.now.gClockState = .eOFF → t₁.now.cycle = t.now.cycle)
    (hreset : t₁.now.resetPin = resetIn t.now.resetPin s) (vMode : ControlMode) :
    Enters cpu s t
      ((conclude vMode s).final ((dir6502RW .mINPUT).final ((setBEPin true).final t₁))) := by
  have hbus : s.cpuBus = true := by rcases hs with rfl | rfl | rfl <;> rfl
  obtain ⟨⟨out, hnow⟩, hun, hgen⟩ := give_spec cpu (h.owned.congr hbeside.bus)
  generalize (dir6502RW .mINPUT).final ((setBEPin true).final t₁) = t₂ at hnow hun hgen ⊢
  obtain ⟨hend, hrest⟩ := conclude_spec cpu vMode s t₂
  have hclean : ¬ t₂.now.Contended := by
    rw [hnow]
    rintro ⟨-, hdir⟩
    cases hdir
  rw [hnow] at hend
  constructor
  · rw [hend]
    refine ⟨hbus.symm, (if_pos hbus).symm, hclock, fun hs' => ?_⟩
    refine hreset.trans ?_
    change s = .sRESET at hs'
    rw [hs', resetIn]
  · rw [hend]
  · rw [hend]
    exact hcycle
  · rw [hend]
    exact hreset
  · rw [hrest.uncontended hclean, hun, hbeside.uncontended h.owned.not_contended, hbeside.bus.bePin, h.bePin]
    exact and_congr_right fun _ => ⟨fun hbe _ => hbe, fun hbe => hbe hs⟩
  · intro _
    rw [hrest.gentle, hgen, hbeside.gentle]
    refine (and_iff_left ?_).symm
    rintro rfl
    cases hbus

/-- A state that takes the bus. -/
theorem enters_taking {s : SysState} (hs : s = .sBOOT ∨ s = .sRPI) (h : t.now.Tracks)
    {t₁ : Traced Pins (Pins × Pins)} (hbeside : Beside cpu t t₁) (hclock : t₁.now.gClockState = .eOFF)
    (hcycle : t.now.gClockState = .eOFF → t₁.now.cycle = t.now.cycle)
    (hread : cpu.Yields → t.now.gClockState = .eON → t.now.bePin = true → t.now.gDir6502RW = .mINPUT →
      cpu.reads t₁.now.cycle = true)
    (hreset : t₁.now.resetPin = resetIn t.now.resetPin s) (vMode : ControlMode) :
    Enters cpu s t
      ((conclude vMode s).final ((dir6502RW .mOUTPUT).final ((setBEPin false).final t₁))) := by
  have hbus : s.cpuBus = false := by rcases hs with rfl | rfl <;> rfl
  have hstopped : s.clocked = false := by rcases hs with rfl | rfl <;> rfl
  obtain ⟨⟨out, level, hnow⟩, hun, hgen⟩ := take_spec cpu (h.owned.congr hbeside.bus)
  generalize (dir6502RW .mOUTPUT).final ((setBEPin false).final t₁) = t₂ at hnow hun hgen ⊢
  obtain ⟨hend, hrest⟩ := conclude_spec cpu vMode s t₂
  have hclean : ¬ t₂.now.Contended := by
    rw [hnow]
    rintro ⟨hbe, -⟩
    cases hbe
  rw [hnow] at hend
  constructor
  · rw [hend]
    refine ⟨hbus.symm, ?_, ?_, fun hs' => ?_⟩
    · change Direction.mOUTPUT = if s.cpuBus then .mINPUT else .mOUTPUT
      rw [hbus]
      rfl
    · change t₁.now.gClockState = if s.clocked then .eON else .eOFF
      rw [hstopped]
      exact hclock
    · change s = .sRESET at hs'
      rw [hs'] at hbus
      cases hbus
  · rw [hend]
  · rw [hend]
    exact hcycle
  · rw [hend]
    exact hreset
  · rw [hrest.uncontended hclean, hun, hbeside.uncontended h.owned.not_contended]
    refine (and_iff_left ?_).symm
    rcases hs with rfl | rfl <;> simp
  · intro hyields
    rw [hrest.gentle, hgen, hbeside.gentle, hclock, hreset, hbeside.bus.bePin, h.bePin]
    refine and_congr_right fun _ => ?_
    rcases hs with rfl | rfl
    · simp [resetIn]
    · simp only [resetIn, true_and, forall_const]
      refine forall_congr' fun hcpu => ?_
      rw [Parked]
      cases hoff : t.now.gClockState with
      | eOFF => simp [hcycle hoff]
      | eON =>
        have hdir : t.now.gDir6502RW = .mINPUT := by rw [h.gDir6502RW, if_pos hcpu]
        have := hread hyields hoff (h.bePin.trans hcpu) hdir
        simp [this]

/-- A state that is entered is entered as a whole. -/
theorem final_set6502State {s : SysState} (hs : s ≠ t.now.gSysState) (henter : (enterState cpu s).result t = true) :
    (set6502State cpu s).final t =
      (drive fun p => { p with gSysState := s }).final ((enterState cpu s).final t) := by
  simp only [set6502State, Prog.final_bind, Prog.result_now, Prog.final_now, Prog.final_ite, Prog.final_pure]
  rw [if_neg hs, if_pos henter]

variable (cpu) in
/-- Halting in front of a state that stops the clock. -/
theorem halted_spec (t : Traced Pins (Pins × Pins)) :
    let t' := (halt6502clock cpu).final t
    Beside cpu t t' ∧ t'.now.gClockState = .eOFF ∧ t'.now.resetPin = t.now.resetPin ∧
      (t.now.gClockState = .eOFF → t'.now.cycle = t.now.cycle) ∧
      (cpu.Yields → t.now.gClockState = .eON → t.now.bePin = true → t.now.gDir6502RW = .mINPUT →
        cpu.reads t'.now.cycle = true) := by
  obtain ⟨⟨phi2, c, hnow, hcycle, hread⟩, -⟩ := halt6502clock_spec cpu (P := Uncontended) t
  refine ⟨beside_halt, ?_, ?_, ?_, ?_⟩
  · rw [hnow]
  · rw [hnow]
  · rw [hnow]
    exact hcycle
  · rw [hnow]
    exact hread

theorem beside_setRDYPin (level : Bool) (t : Traced Pins (Pins × Pins)) :
    Beside cpu t ((setRDYPin level).final t) := beside_drive ⟨rfl, rfl⟩

theorem beside_setRESETPin (level : Bool) (t : Traced Pins (Pins × Pins)) :
    Beside cpu t ((setRESETPin level).final t) := beside_drive ⟨rfl, rfl⟩

theorem beside_setIRQPin (level : Bool) (t : Traced Pins (Pins × Pins)) :
    Beside cpu t ((setIRQPin level).final t) := beside_drive ⟨rfl, rfl⟩

theorem beside_set6502Clock (t : Traced Pins (Pins × Pins)) :
    Beside cpu t (set6502Clock.final t) := beside_drive ⟨rfl, rfl⟩

variable (cpu) in
theorem enters_sBOOT (h : t.now.Tracks) (hs : .sBOOT ≠ t.now.gSysState) :
    Enters cpu .sBOOT t ((set6502State cpu .sBOOT).final t) := by
  have hsteps : (set6502State cpu .sBOOT).final t = (conclude .mRPI .sBOOT).final
      ((dir6502RW .mOUTPUT).final ((setBEPin false).final ((setRDYPin false).final
        ((halt6502clock cpu).final ((setRESETPin false).final ((setIRQPin true).final t)))))) := by
    rw [final_set6502State hs rfl]
    rfl
  obtain ⟨hhalt, hclock, hreset, hcycle, hread⟩ := halted_spec cpu
    ((setRESETPin false).final ((setIRQPin true).final t))
  rw [hsteps]
  generalize (halt6502clock cpu).final _ = t₁ at hhalt hclock hreset hcycle hread ⊢
  have hbeside := ((beside_setIRQPin true t).trans (beside_setRESETPin false _)).trans hhalt
  exact enters_taking (.inl rfl) h (hbeside.trans (beside_setRDYPin false t₁)) hclock hcycle hread hreset .mRPI

variable (cpu) in
theorem enters_sRPI (h : t.now.Tracks) (hs : .sRPI ≠ t.now.gSysState) :
    Enters cpu .sRPI t ((set6502State cpu .sRPI).final t) := by
  have hsteps : (set6502State cpu .sRPI).final t = (conclude .mRPI .sRPI).final
      ((dir6502RW .mOUTPUT).final ((setBEPin false).final ((setRDYPin false).final
        ((halt6502clock cpu).final t)))) := by
    rw [final_set6502State hs rfl]
    rfl
  obtain ⟨hhalt, hclock, hreset, hcycle, hread⟩ := halted_spec cpu t
  rw [hsteps]
  generalize (halt6502clock cpu).final _ = t₁ at hhalt hclock hreset hcycle hread ⊢
  exact enters_taking (.inr rfl) h (hhalt.trans (beside_setRDYPin false t₁)) hclock hcycle hread hreset .mRPI

variable (cpu) in
theorem enters_sRESET (h : t.now.Tracks) (hs : .sRESET ≠ t.now.gSysState) :
    Enters cpu .sRESET t ((set6502State cpu .sRESET).final t) := by
  have hsteps : (set6502State cpu .sRESET).final t = (conclude .mCPU .sRESET).final
      ((dir6502RW .mINPUT).final ((setBEPin true).final ((setRDYPin false).final
        (set6502Clock.final ((setRESETPin false).final ((setIRQPin true).final t)))))) := by
    rw [final_set6502State hs rfl]
    rfl
  rw [hsteps]
  have hirq : Beside cpu t ((setIRQPin true).final t) := beside_setIRQPin true t
  have hbeside := (hirq.trans (beside_setRESETPin false _)).trans (beside_set6502Clock _)
  exact enters_giving (.inl rfl) h (hbeside.trans (beside_setRDYPin false _)) rfl (fun _ => rfl) rfl .mCPU

variable (cpu) in
theorem enters_sHALTED (h : t.now.Tracks) (hs : .sHALTED ≠ t.now.gSysState) :
    Enters cpu .sHALTED t ((set6502State cpu .sHALTED).final t) := by
  have hsteps : (set6502State cpu .sHALTED).final t = (conclude .mCPU .sHALTED).final
      ((dir6502RW .mINPUT).final ((setBEPin true).final ((setRDYPin false).final
        ((halt6502clock cpu).final t)))) := by
    rw [final_set6502State hs rfl]
    rfl
  obtain ⟨hhalt, hclock, hreset, hcycle, -⟩ := halted_spec cpu t
  rw [hsteps]
  generalize (halt6502clock cpu).final _ = t₁ at hhalt hclock hreset hcycle ⊢
  exact enters_giving (.inr (.inl rfl)) h (hhalt.trans (beside_setRDYPin false t₁)) hclock hcycle hreset .mCPU

variable (cpu) in
theorem enters_sREAD (h : t.now.Tracks) (hs : .sREAD ≠ t.now.gSysState) :
    Enters cpu .sREAD t ((set6502State cpu .sREAD).final t) := by
  have hsteps : (set6502State cpu .sREAD).final t = (conclude .mRPI .sREAD).final
      ((dir6502RW .mINPUT).final ((setBEPin true).final ((setRDYPin true).final
        ((halt6502clock cpu).final ((setRESETPin true).final t))))) := by
    rw [final_set6502State hs rfl]
    rfl
  obtain ⟨hhalt, hclock, hreset, hcycle, -⟩ := halted_spec cpu ((setRESETPin true).final t)
  rw [hsteps]
  generalize (halt6502clock cpu).final _ = t₁ at hhalt hclock hreset hcycle ⊢
  have hbeside := (beside_setRESETPin true t).trans hhalt
  exact enters_giving (.inr (.inr rfl)) h (hbeside.trans (beside_setRDYPin true t₁)) hclock hcycle hreset .mRPI

variable (cpu) in
/-- `sRUNNING` alone lets go of R/W first. -/
theorem enters_sRUNNING (h : t.now.Tracks) (hs : .sRUNNING ≠ t.now.gSysState) :
    Enters cpu .sRUNNING t ((set6502State cpu .sRUNNING).final t) := by
  have hsteps : (set6502State cpu .sRUNNING).final t = (conclude .mCPU .sRUNNING).final
      ((setRESETPin true).final ((setRDYPin true).final (set6502Clock.final
        ((setBEPin true).final ((dir6502RW .mINPUT).final t))))) := by
    rw [final_set6502State hs rfl]
    rfl
  obtain ⟨⟨out, hnow⟩, hun, hgen⟩ := release_spec cpu h.owned
  rw [hsteps]
  generalize (setBEPin true).final _ = t₁ at hnow hun hgen ⊢
  have hbeside : Beside cpu t₁ ((setRESETPin true).final ((setRDYPin true).final (set6502Clock.final t₁))) :=
    ((beside_set6502Clock t₁).trans (beside_setRDYPin true _)).trans (beside_setRESETPin true _)
  have hrest := hbeside.trans (conclude_spec cpu .mCPU .sRUNNING _).2
  have hend : ((conclude .mCPU .sRUNNING).final ((setRESETPin true).final ((setRDYPin true).final
      (set6502Clock.final t₁)))).now = { t₁.now with
        gClockState := .eON, rdyPin := true, resetPin := true, gControlMode := .mCPU, gSysState := .sRUNNING } :=
    rfl
  have hclean : ¬ t₁.now.Contended := by
    rw [hnow]
    rintro ⟨-, hdir⟩
    cases hdir
  rw [hnow] at hend
  constructor
  · rw [hend]
    exact ⟨rfl, rfl, rfl, nofun⟩
  · rw [hend]
  · rw [hend]
    exact fun _ => rfl
  · rw [hend]
    rfl
  · rw [hrest.uncontended hclean, hun]
    simp
  · intro _
    rw [hrest.gentle, hgen]
    simp

variable (cpu) in
theorem enters_set6502State (h : t.now.Tracks) {s : SysState} (hstart : s ≠ .sSTARTUP)
    (hs : s ≠ t.now.gSysState) : Enters cpu s t ((set6502State cpu s).final t) := by
  cases s with
  | sSTARTUP => exact absurd rfl hstart
  | sBOOT => exact enters_sBOOT cpu h hs
  | sRESET => exact enters_sRESET cpu h hs
  | sHALTED => exact enters_sHALTED cpu h hs
  | sRUNNING => exact enters_sRUNNING cpu h hs
  | sREAD => exact enters_sREAD cpu h hs
  | sRPI => exact enters_sRPI cpu h hs

/-- A state that is not entered leaves everything as it is. -/
theorem final_set6502State_same {s : SysState} (hs : s = .sSTARTUP ∨ s = t.now.gSysState) :
    (set6502State cpu s).final t = t := by
  simp only [set6502State, Prog.final_bind, Prog.result_now, Prog.final_now, Prog.final_ite, Prog.final_pure]
  rcases hs with rfl | hs
  · split <;> rfl
  · rw [if_pos hs]

/-- A transition, whether or not it enters a state. -/
structure Transits (cpu : Cpu) (s : SysState) (t t' : Traced Pins (Pins × Pins)) : Prop where
  tracks : t'.now.Tracks
  gSysState : s ≠ .sSTARTUP → t'.now.gSysState = s
  uncontended : t'.All Uncontended ↔ t.All Uncontended ∧
    (s = .sRESET ∨ s = .sHALTED ∨ s = .sREAD → t.now.gSysState.cpuBus = true)
  gentle : cpu.Yields → (t'.All (Gentle cpu) ↔ t.All (Gentle cpu) ∧
    (s = .sRPI → t.now.gSysState.cpuBus = true → ¬ t.now.Parked cpu))

variable (cpu) in
theorem transits_set6502State (h : t.now.Tracks) (s : SysState) :
    Transits cpu s t ((set6502State cpu s).final t) := by
  by_cases hsame : s = .sSTARTUP ∨ s = t.now.gSysState
  · rw [final_set6502State_same hsame]
    refine ⟨h, fun hs => ?_, ?_, fun _ => ?_⟩
    · rcases hsame with rfl | hsame
      · exact absurd rfl hs
      · exact hsame.symm
    · refine (and_iff_left fun hs => ?_).symm
      rcases hsame with rfl | hsame
      · rcases hs with hs | hs | hs <;> cases hs
      · rw [← hsame]
        rcases hs with rfl | rfl | rfl <;> rfl
    · refine (and_iff_left fun hs hbus => ?_).symm
      rcases hsame with rfl | hsame
      · cases hs
      · rw [← hsame, hs] at hbus
        cases hbus
  · rw [not_or] at hsame
    have henters := enters_set6502State cpu h hsame.1 hsame.2
    exact ⟨henters.tracks, fun _ => henters.gSysState, henters.uncontended, henters.gentle⟩

/-! ## Single cycles and snooping -/

/-- What is not of the bus, the clock or RESET may change in any state. -/
theorem Tracks.congr {p q : Pins} (h : p.Tracks) (hbus : p.SameBus q) (hstate : q.gSysState = p.gSysState)
    (hclock : q.gClockState = p.gClockState) (hreset : q.resetPin = p.resetPin) : q.Tracks where
  bePin := by rw [hbus.bePin, hstate, h.bePin]
  gDir6502RW := by rw [hbus.gDir6502RW, hstate, h.gDir6502RW]
  gClockState := by rw [hclock, hstate, h.gClockState]
  resetPin hs := by
    rw [hreset]
    exact h.resetPin (hstate.symm.trans hs)

theorem beside_ss6502ClockStep (t : Traced Pins (Pins × Pins)) : Beside cpu t (ss6502ClockStep.final t) where
  bus := ⟨rfl, rfl⟩
  uncontended hp := (ss6502ClockStep_spec t).2 (allows_uncontended hp)
  gentle := (ss6502ClockStep_spec t).2 (allows_gentle t.now)

theorem Beside.refl (t : Traced Pins (Pins × Pins)) : Beside cpu t t := ⟨⟨rfl, rfl⟩, fun _ => .rfl, .rfl⟩

variable (cpu) in
/-- Clock steps move the CPU on, and leave the rest. -/
theorem clockSteps_spec (n : Nat) (t : Traced Pins (Pins × Pins)) :
    Beside cpu t ((clockSteps n).final t) ∧
      ∃ phi2, ((clockSteps n).final t).now = { t.now with phi2Pin := phi2, cycle := t.now.cycle + n } := by
  induction n generalizing t with
  | zero => exact ⟨.refl t, t.now.phi2Pin, rfl⟩
  | succ n ih =>
    obtain ⟨hbeside, phi2, hnow⟩ := ih (ss6502ClockStep.final t)
    rw [clockSteps, Prog.final_bind]
    refine ⟨(beside_ss6502ClockStep t).trans hbeside, phi2, ?_⟩
    rw [hnow, (ss6502ClockStep_spec (P := Uncontended) t).1, Nat.add_assoc, Nat.add_comm 1]

/-- The number of cycles up to the next opcode fetch behind a cycle, or else of all tries. -/
def stepsToSync (cpu : Cpu) : Nat → Nat → Nat
  | 0, _ => 0
  | tries + 1, c => if cpu.sync (c + 1) then 1 else stepsToSync cpu tries (c + 1) + 1

variable (cpu) in
theorem stepToSync_spec (tries : Nat) (t : Traced Pins (Pins × Pins)) :
    Beside cpu t ((stepToSync cpu tries).final t) ∧ ∃ phi2, ((stepToSync cpu tries).final t).now =
      { t.now with phi2Pin := phi2, cycle := t.now.cycle + stepsToSync cpu tries t.now.cycle } := by
  induction tries generalizing t with
  | zero => exact ⟨.refl t, t.now.phi2Pin, rfl⟩
  | succ tries ih =>
    obtain ⟨hbeside, phi2, hnow⟩ := ih (ss6502ClockStep.final t)
    have hstep := (ss6502ClockStep_spec (P := Uncontended) t).1
    rw [stepToSync, Prog.final_bind, Prog.final_bind, Prog.result_now, Prog.final_now, Prog.final_ite, hstep,
      stepsToSync]
    by_cases hsync : cpu.sync (t.now.cycle + 1) = true
    · rw [if_pos hsync, if_pos hsync]
      exact ⟨beside_ss6502ClockStep t, true, hstep⟩
    · rw [if_neg hsync, if_neg hsync]
      refine ⟨(beside_ss6502ClockStep t).trans hbeside, phi2, ?_⟩
      rw [hnow, hstep, Nat.add_assoc, Nat.add_comm 1]

variable (cpu) in
theorem busCycles_spec (levels : List Bool) (t : Traced Pins (Pins × Pins)) :
    Beside cpu t ((busCycles levels).final t) ∧
      ∃ level, ((busCycles levels).final t).now = { t.now with rwLevel := level } := by
  induction levels generalizing t with
  | nil => exact ⟨.refl t, t.now.rwLevel, rfl⟩
  | cons vHL rest ih =>
    obtain ⟨hbeside, level, hnow⟩ := ih ((set6502RW vHL).final t)
    have hset : Beside cpu t ((set6502RW vHL).final t) ∧
        ∃ level, ((set6502RW vHL).final t).now = { t.now with rwLevel := level } := by
      simp only [set6502RW, Prog.final_bind, Prog.result_now, Prog.final_now, Prog.final_ite, Prog.final_pure]
      split
      · exact ⟨beside_drive ⟨rfl, rfl⟩, vHL, rfl⟩
      · exact ⟨.refl t, t.now.rwLevel, rfl⟩
    obtain ⟨hfirst, level', hnow'⟩ := hset
    rw [busCycles, Prog.final_bind]
    refine ⟨hfirst.trans hbeside, level, ?_⟩
    rw [hnow, hnow']

end Pins

/-! ## The states of the board -/

/-- The pins and statics are those of a board. -/
structure Pins.Mirrors (p : Pins) (m : Machine) : Prop where
  irqPin : p.irqPin = m.irqPin
  resetPin : p.resetPin = m.resetPin
  rdyPin : p.rdyPin = m.rdyPin
  bePin : p.bePin = m.bePin
  gControlMode : p.gControlMode = m.gControlMode
  gSysState : p.gSysState = m.gSysState
  gDir6502RW : p.gDir6502RW = m.gDir6502RW
  gClockState : p.gClockState = m.gClockState

section Mirrors

variable {cpu : Cpu} {t : Traced Pins (Pins × Pins)} {m : Machine}

theorem Pins.now_dir6502RW (vDir : Direction) (hdir : vDir ≠ .mUNKNOWN) (t : Traced Pins (Pins × Pins)) :
    ∃ out level, ((Pins.dir6502RW vDir).final t).now =
      { t.now with rwOut := out, rwLevel := level, gDir6502RW := vDir } := by
  have hkept : t.now.gDir6502RW = vDir → ∃ out level, t.now =
      { t.now with rwOut := out, rwLevel := level, gDir6502RW := vDir } :=
    fun h => ⟨t.now.rwOut, t.now.rwLevel, by rw [← h]⟩
  cases vDir with
  | mUNKNOWN => exact absurd rfl hdir
  | mINPUT =>
    simp only [Pins.dir6502RW, Prog.final_bind, Prog.result_now, Prog.final_now, Prog.final_ite, Prog.final_pure,
      Prog.final_drive, Traced.now_put]
    split
    · exact ⟨_, _, rfl⟩
    · rename_i hsame
      exact hkept (not_not.1 hsame)
  | mOUTPUT =>
    simp only [Pins.dir6502RW, Pins.set6502RW, Prog.final_bind, Prog.result_now, Prog.final_now, Prog.final_ite,
      Prog.final_pure, Prog.final_drive, Traced.now_put, if_true]
    split
    · exact ⟨_, _, rfl⟩
    · rename_i hsame
      exact hkept (not_not.1 hsame)

namespace Pins.Mirrors

theorem setIRQPin (h : t.now.Mirrors m) (level : Bool) :
    ((Pins.setIRQPin level).final t).now.Mirrors ((NeoMmu.setIRQPin level).final m) :=
  { h with irqPin := rfl }

theorem setRESETPin (h : t.now.Mirrors m) (level : Bool) :
    ((Pins.setRESETPin level).final t).now.Mirrors ((NeoMmu.setRESETPin level).final m) :=
  { h with resetPin := rfl }

theorem setRDYPin (h : t.now.Mirrors m) (level : Bool) :
    ((Pins.setRDYPin level).final t).now.Mirrors ((NeoMmu.setRDYPin level).final m) :=
  { h with rdyPin := rfl }

theorem setBEPin (h : t.now.Mirrors m) (level : Bool) :
    ((Pins.setBEPin level).final t).now.Mirrors ((NeoMmu.setBEPin level).final m) :=
  { h with bePin := rfl }

theorem setControlMode (h : t.now.Mirrors m) (vMode : ControlMode) :
    ((Pins.setControlMode vMode).final t).now.Mirrors ((NeoMmu.setControlMode vMode).final m) :=
  { h with gControlMode := rfl }

theorem set6502Clock (h : t.now.Mirrors m) :
    (Pins.set6502Clock.final t).now.Mirrors (NeoMmu.set6502Clock.final m) :=
  { h with gClockState := rfl }

variable (cpu) in
theorem halt6502clock (h : t.now.Mirrors m) :
    ((Pins.halt6502clock cpu).final t).now.Mirrors (NeoMmu.halt6502clock.final m) := by
  obtain ⟨⟨phi2, c, hnow, -⟩, -⟩ := halt6502clock_spec cpu (P := Uncontended) t
  rw [hnow]
  exact { h with gClockState := rfl }

theorem dir6502RW (h : t.now.Mirrors m) (vDir : Direction) (hdir : vDir ≠ .mUNKNOWN) :
    ((Pins.dir6502RW vDir).final t).now.Mirrors ((NeoMmu.dir6502RW vDir).final m) := by
  obtain ⟨out, level, hnow⟩ := now_dir6502RW vDir hdir t
  rw [hnow]
  cases vDir with
  | mUNKNOWN => exact absurd rfl hdir
  | mINPUT => exact { h with gDir6502RW := rfl }
  | mOUTPUT => exact { h with gDir6502RW := rfl }

theorem setMMUContext (h : t.now.Mirrors m) (c : UInt8) : t.now.Mirrors ((NeoMmu.setMMUContext c).final m) := by
  simp only [NeoMmu.setMMUContext, Prog.final_bind, Prog.final_ite, Prog.final_pure, Prog.final_modify]
  split
  · exact { h with }
  · exact h

variable (cpu) in
theorem enterState (h : t.now.Mirrors m) (s : SysState) :
    ((Pins.enterState cpu s).final t).now.Mirrors ((NeoMmu.enterState s).final m) := by
  cases s with
  | sSTARTUP => exact h
  | sBOOT =>
    have hhalt := ((h.setIRQPin true).setRESETPin false).halt6502clock cpu
    exact (((hhalt.setRDYPin false).setBEPin false).dir6502RW .mOUTPUT nofun).setControlMode .mRPI
  | sRESET =>
    have hclock := ((h.setIRQPin true).setRESETPin false).set6502Clock
    exact ((((hclock.setRDYPin false).setBEPin true).dir6502RW .mINPUT nofun).setControlMode
      .mCPU).setMMUContext DEFAULT_CONTEXT
  | sHALTED =>
    have hhalt := h.halt6502clock cpu
    exact (((hhalt.setRDYPin false).setBEPin true).dir6502RW .mINPUT nofun).setControlMode .mCPU
  | sRUNNING =>
    have hclock := ((h.dir6502RW .mINPUT nofun).setBEPin true).set6502Clock
    exact ((hclock.setRDYPin true).setRESETPin true).setControlMode .mCPU
  | sREAD =>
    have hhalt := (h.setRESETPin true).halt6502clock cpu
    exact (((hhalt.setRDYPin true).setBEPin true).dir6502RW .mINPUT nofun).setControlMode .mRPI
  | sRPI =>
    have hhalt := h.halt6502clock cpu
    exact (((hhalt.setRDYPin false).setBEPin false).dir6502RW .mOUTPUT nofun).setControlMode .mRPI

variable (cpu) in
/-- A transition of the board makes the writes to the pins. -/
theorem set6502State (h : t.now.Mirrors m) (s : SysState) :
    ((Pins.set6502State cpu s).final t).now.Mirrors ((NeoMmu.set6502State s).final m) := by
  have hresult : (Pins.enterState cpu s).result t = (NeoMmu.enterState s).result m := by
    cases s <;> rfl
  have henter := h.enterState cpu s
  simp only [Pins.set6502State, NeoMmu.set6502State, Prog.final_bind, Prog.result_now, Prog.final_now,
    result_get6502State, final_get6502State, Prog.final_ite, Prog.final_pure, h.gSysState, hresult]
  split
  · exact h
  split
  · exact { henter with gSysState := rfl }
  · exact henter

end Pins.Mirrors

end Mirrors

/-! ## When a step keeps the laws -/

/-- The states that enable the bus before R/W is let go of. -/
def SysState.EnablesFirst (s : SysState) : Prop := s = .sRESET ∨ s = .sHALTED ∨ s = .sREAD

/-- No step goes from a state in which the RP drives R/W into one that enables the bus first. -/
def PinStep.LetsGo (p : Pins) : PinStep → Prop
  | .set6502State vSysState => vSysState.EnablesFirst → p.gSysState.cpuBus = true
  | .singleCycle6502 _ => p.gSysState.cpuBus = true
  | .singleStep6502 => p.gSysState.cpuBus = true
  | .snoop _ => ¬ p.gSysState.EnablesFirst
  | .elapse _ => True

/-- No bus is taken from a parked CPU, and single-cycling from `sRPI` ends in a read cycle. -/
def PinStep.FindsRead (cpu : Cpu) (p : Pins) : PinStep → Prop
  | .set6502State vSysState => vSysState = .sRPI → p.gSysState.cpuBus = true → ¬ p.Parked cpu
  | .singleCycle6502 vSteps => p.gSysState = .sRPI → vSteps ≠ 0 →
      cpu.reads (p.cycle + vSteps.toNat) = true
  | .singleStep6502 => p.gSysState = .sRPI → cpu.reads (p.cycle + Pins.stepsToSync cpu 8 p.cycle) = true
  | .snoop _ => p.gSysState.cpuBus = true → ¬ p.Parked cpu
  | .elapse _ => True

/-- What a step leaves, and when it keeps the laws. -/
structure PinStep.Spec (cpu : Cpu) (t : Traced Pins (Pins × Pins)) (l : PinStep)
    (t' : Traced Pins (Pins × Pins)) : Prop where
  tracks : t'.now.Tracks
  uncontended : t'.All Uncontended ↔ t.All Uncontended ∧ l.LetsGo t.now
  gentle : cpu.Yields → (t'.All (Gentle cpu) ↔ t.All (Gentle cpu) ∧ l.FindsRead cpu t.now)

namespace Pins

variable {cpu : Cpu} {t : Traced Pins (Pins × Pins)}

/-- Single-cycling from `sRPI` takes the bus of a CPU that stands where its steps have ended. -/
theorem parked_sREAD {t₁ : Traced Pins (Pins × Pins)} (h : t.now.Tracks) (hstate : t.now.gSysState = .sRPI)
    (henters : Enters cpu .sREAD t t₁) {phi2 : Bool} {n : Nat} :
    ¬ Parked cpu { t₁.now with phi2Pin := phi2, cycle := t₁.now.cycle + n } ↔
      cpu.reads (t.now.cycle + n) = true := by
  have hclock := h.gClockState
  rw [hstate] at hclock
  have hclock₁ := henters.tracks.gClockState
  rw [henters.gSysState] at hclock₁
  simp only [Parked, henters.resetPin, resetIn, hclock₁, henters.cycle hclock, SysState.clocked]
  simp

theorem spec_singleCycle6502 (h : t.now.Tracks) (vSteps : UInt8) :
    PinStep.Spec cpu t (.singleCycle6502 vSteps) (pinStep cpu t (.singleCycle6502 vSteps)) := by
  have hfirst := transits_set6502State cpu h .sREAD
  simp only [pinStep, PinStep.program, singleCycle6502, Prog.final_bind, Prog.result_now, Prog.final_now,
    Prog.final_discard, Prog.final_ite, Prog.final_pure]
  have hletsGo : (SysState.sREAD = .sRESET ∨ SysState.sREAD = .sHALTED ∨ SysState.sREAD = .sREAD →
      t.now.gSysState.cpuBus = true) ↔ t.now.gSysState.cpuBus = true := by simp
  by_cases hzero : vSteps = 0
  · rw [if_pos hzero]
    refine ⟨hfirst.tracks, hfirst.uncontended.trans (and_congr_right fun _ => hletsGo), fun hyields => ?_⟩
    rw [hfirst.gentle hyields]
    exact and_congr_right fun _ => ⟨fun _ _ hne => absurd hzero hne, fun _ hs => by cases hs⟩
  · rw [if_neg hzero]
    obtain ⟨hsteps, phi2, hnow⟩ :=
      clockSteps_spec cpu vSteps.toNat ((set6502State cpu .sREAD).final t)
    have hstate := hfirst.gSysState (by decide)
    have htracks : ((clockSteps vSteps.toNat).final ((set6502State cpu .sREAD).final t)).now.Tracks := by
      rw [hnow]
      exact hfirst.tracks.congr ⟨rfl, rfl⟩ rfl rfl rfl
    have hlast := transits_set6502State cpu htracks t.now.gSysState
    have hcpu : ((clockSteps vSteps.toNat).final
        ((set6502State cpu .sREAD).final t)).now.gSysState.cpuBus = true := by
      rw [hnow]
      exact (congrArg SysState.cpuBus hstate).trans rfl
    refine ⟨hlast.tracks, ?_, fun hyields => ?_⟩
    · rw [hlast.uncontended, hsteps.uncontended hfirst.tracks.owned.not_contended, hfirst.uncontended]
      rw [and_iff_left fun _ => hcpu]
      exact and_congr_right fun _ => hletsGo
    · rw [hlast.gentle hyields, hsteps.gentle, hfirst.gentle hyields]
      rw [and_iff_left (b := SysState.sREAD = .sRPI → _) (by rintro ⟨⟩)]
      refine and_congr_right fun _ => forall_congr' fun hrpi => ?_
      have henters := enters_sREAD cpu h (by rw [hrpi]; decide)
      rw [hnow, parked_sREAD h hrpi henters]
      exact ⟨fun hread _ => hread (by rw [hstate]; rfl), fun hread _ => hread hzero⟩

theorem spec_singleStep6502 (h : t.now.Tracks) :
    PinStep.Spec cpu t .singleStep6502 (pinStep cpu t .singleStep6502) := by
  have hhalt := transits_set6502State cpu h .sHALTED
  simp only [pinStep, PinStep.program, singleStep6502, Prog.final_bind, Prog.result_now, Prog.final_now,
    Prog.final_discard]
  generalize ht₁ : (set6502State cpu .sHALTED).final t = t₁ at hhalt ⊢
  have hread := transits_set6502State cpu hhalt.tracks .sREAD
  have hcpu₁ : t₁.now.gSysState.cpuBus = true := by rw [hhalt.gSysState (by decide)]; rfl
  generalize ht₂ : (set6502State cpu .sREAD).final t₁ = t₂ at hread ⊢
  obtain ⟨hsteps, phi2, hnow⟩ := stepToSync_spec cpu 8 t₂
  have hcpu₂ : t₂.now.gSysState.cpuBus = true := by rw [hread.gSysState (by decide)]; rfl
  generalize (stepToSync cpu 8).final t₂ = t₃ at hsteps hnow ⊢
  have htracks : t₃.now.Tracks := by
    rw [hnow]
    exact hread.tracks.congr ⟨rfl, rfl⟩ rfl rfl rfl
  have hlast := transits_set6502State cpu htracks t.now.gSysState
  have hcpu₃ : t₃.now.gSysState.cpuBus = true := by
    rw [hnow]
    exact hcpu₂
  refine ⟨hlast.tracks, ?_, fun hyields => ?_⟩
  · rw [hlast.uncontended, hsteps.uncontended hread.tracks.owned.not_contended, hread.uncontended, hhalt.uncontended]
    rw [and_iff_left fun _ => hcpu₃, and_iff_left fun _ => hcpu₁]
    exact and_congr_right fun _ => by simp [PinStep.LetsGo]
  · rw [hlast.gentle hyields, hsteps.gentle, hread.gentle hyields, hhalt.gentle hyields]
    rw [and_iff_left (b := SysState.sREAD = .sRPI → _) (by rintro ⟨⟩),
      and_iff_left (b := SysState.sHALTED = .sRPI → _) (by rintro ⟨⟩)]
    refine and_congr_right fun _ => forall_congr' fun hrpi => ?_
    -- from `sRPI` both states are entered, with the clock off and the CPU where it was
    have henters₁ := enters_sHALTED cpu h (by rw [hrpi]; decide)
    rw [ht₁] at henters₁
    have henters₂ := enters_sREAD cpu henters₁.tracks (by rw [henters₁.gSysState]; decide)
    rw [ht₂] at henters₂
    have hclock := h.gClockState
    rw [hrpi] at hclock
    have hclock₁ := henters₁.tracks.gClockState
    rw [henters₁.gSysState] at hclock₁
    have hclock₂ := henters₂.tracks.gClockState
    rw [henters₂.gSysState] at hclock₂
    have hcycle : t₂.now.cycle = t.now.cycle := (henters₂.cycle hclock₁).trans (henters₁.cycle hclock)
    rw [hnow]
    simp only [Parked, hcpu₂, henters₂.resetPin, resetIn, hclock₂, hcycle, SysState.clocked]
    simp

theorem spec_snoop (h : t.now.Tracks) (levels : List Bool) :
    PinStep.Spec cpu t (.snoop levels) (pinStep cpu t (.snoop levels)) := by
  have hfirst := transits_set6502State cpu h .sRPI
  simp only [pinStep, PinStep.program, snoop, Prog.final_bind, Prog.result_now, Prog.final_now,
    Prog.final_discard]
  have hstate := hfirst.gSysState (by decide)
  generalize (set6502State cpu .sRPI).final t = t₁ at hfirst hstate ⊢
  obtain ⟨hcycles, level, hnow⟩ := busCycles_spec cpu levels t₁
  generalize (busCycles levels).final t₁ = t₂ at hcycles hnow ⊢
  have htracks : t₂.now.Tracks := by
    rw [hnow]
    exact hfirst.tracks.congr ⟨rfl, rfl⟩ rfl rfl rfl
  have hrpi : t₂.now.gSysState.cpuBus = false := by
    rw [hnow]
    exact (congrArg SysState.cpuBus hstate).trans rfl
  have hlast := transits_set6502State cpu htracks t.now.gSysState
  refine ⟨hlast.tracks, ?_, fun hyields => ?_⟩
  · rw [hlast.uncontended, hcycles.uncontended hfirst.tracks.owned.not_contended, hfirst.uncontended, hrpi]
    simp [PinStep.LetsGo, SysState.EnablesFirst]
  · rw [hlast.gentle hyields, hcycles.gentle, hfirst.gentle hyields, hrpi]
    simp [PinStep.FindsRead]

/-- Each step says when it keeps the laws. -/
theorem spec_pinStep (h : t.now.Tracks) (l : PinStep) : l.Spec cpu t (pinStep cpu t l) := by
  cases l with
  | set6502State vSysState =>
    have htransits := transits_set6502State cpu h vSysState
    exact ⟨htransits.tracks, htransits.uncontended, htransits.gentle⟩
  | singleCycle6502 vSteps => exact spec_singleCycle6502 h vSteps
  | singleStep6502 => exact spec_singleStep6502 h
  | snoop levels => exact spec_snoop h levels
  | elapse cycles =>
    have hbeside : Beside cpu t (pinStep cpu t (.elapse cycles)) ∧
        (pinStep cpu t (.elapse cycles)).now.Tracks := by
      simp only [pinStep, PinStep.program, Prog.final_bind, Prog.result_now, Prog.final_now, Prog.final_ite,
        Prog.final_pure]
      split
      · exact ⟨beside_drive ⟨rfl, rfl⟩, h.congr ⟨rfl, rfl⟩ rfl rfl rfl⟩
      · exact ⟨.refl t, h⟩
    refine ⟨hbeside.2, ?_, fun _ => ?_⟩
    · rw [hbeside.1.uncontended h.owned.not_contended]
      exact (and_iff_left trivial).symm
    · rw [hbeside.1.gentle]
      exact (and_iff_left trivial).symm

/-! ## Runs from `setup6502()` -/

variable (cpu) in
/-- `setup6502()` keeps the laws, and leaves the pins of `sSTARTUP`. -/
theorem pinSetup_spec (p : Pins) (hdir : p.gDir6502RW = .mUNKNOWN) :
    (pinSetup p).now.Tracks ∧ (pinSetup p).All Uncontended ∧ (pinSetup p).All (Gentle cpu) := by
  simp only [pinSetup, setup6502, setRESETPin, setBEPin, setRDYPin, setIRQPin, set6502RW, Prog.final_bind,
    Prog.final_drive, Prog.result_now, Prog.final_now, Traced.now_put, if_true, Traced.all_put, Traced.all_push,
    Traced.start]
  refine ⟨⟨rfl, rfl, rfl, by rintro ⟨⟩⟩, ?_, ?_⟩
  · simp [Uncontended, Contended, hdir, Traced.All]
  · simp [Gentle, Traced.All]

end Pins

section Runs

variable (cpu : Cpu) {p : Pins}

/-- No write of a run leaves the bus contended exactly when every step finds R/W let go of. -/
theorem uncontended_run_iff (hdir : p.gDir6502RW = .mUNKNOWN) (ls : List PinStep) :
    (ls.foldl (pinStep cpu) (pinSetup p)).All Uncontended ↔
      Run.AtEveryStep (pinStep cpu) (fun t l => l.LetsGo t.now) (pinSetup p) ls := by
  obtain ⟨htracks, hclean, -⟩ := Pins.pinSetup_spec cpu p hdir
  rw [Traced.all_foldl (I := Pins.Tracks) (fun t l h => (Pins.spec_pinStep h l).tracks)
    (fun t l h => (Pins.spec_pinStep h l).uncontended) htracks]
  exact and_iff_right hclean

/-- Pins at power-on. -/
def pinsAtPowerOn : Pins :=
  ⟨true, true, true, true, true, false, true, .mRPI, .sSTARTUP, .mUNKNOWN, .eOFF, 0⟩

/-- A CPU that writes in its cycle 1 only. -/
def oneWrite : Cpu := ⟨fun t => t ≠ 1, fun _ => true⟩

/-- A snooping access while the CPU runs. -/
theorem uncontended_snoopRunning :
    ([.set6502State .sRUNNING, .snoop [true]].foldl (pinStep oneWrite) (pinSetup pinsAtPowerOn)).All
      Uncontended := by
  refine (uncontended_run_iff oneWrite rfl _).2 ?_
  rw [Run.atEveryStep_cons, Run.atEveryStep_cons]
  have hrunning : ¬ SysState.sRUNNING.EnablesFirst := by rintro (h | h | h) <;> cases h
  exact ⟨fun h => absurd h hrunning, hrunning, Run.atEveryStep_nil _⟩

/-- Putting the CPU in reset behind the boot enables its bus while the RP drives R/W. -/
theorem contended_bootReset :
    ¬ ([.set6502State .sBOOT, .set6502State .sRESET].foldl (pinStep oneWrite) (pinSetup pinsAtPowerOn)).All
      Uncontended := by
  decide

/-- Every take-over in a run is gentle exactly when none finds a parked CPU, and no single-cycling from `sRPI`
ends in a write cycle. -/
theorem gentle_run_iff (hyields : cpu.Yields) (hdir : p.gDir6502RW = .mUNKNOWN) (ls : List PinStep) :
    (ls.foldl (pinStep cpu) (pinSetup p)).All (Gentle cpu) ↔
      Run.AtEveryStep (pinStep cpu) (fun t l => l.FindsRead cpu t.now) (pinSetup p) ls := by
  obtain ⟨htracks, -, hgentle⟩ := Pins.pinSetup_spec cpu p hdir
  rw [Traced.all_foldl (I := Pins.Tracks) (fun t l h => (Pins.spec_pinStep h l).tracks)
    (fun t l h => (Pins.spec_pinStep h l).gentle hyields) htracks]
  exact and_iff_right hgentle

theorem oneWrite_yields : oneWrite.Yields := by
  intro t
  by_cases ht : t = 1
  · exact ⟨1, by decide, by simp [oneWrite, ht]⟩
  · exact ⟨0, by decide, by simpa [oneWrite] using ht⟩

/-- A CPU that is stopped by a snooping access in its write cycle goes on to the next one first. -/
theorem gentle_snoopRunning :
    ([.set6502State .sRUNNING, .elapse 1, .snoop [true]].foldl (pinStep oneWrite)
      (pinSetup pinsAtPowerOn)).All (Gentle oneWrite) := by
  refine (gentle_run_iff oneWrite oneWrite_yields rfl _).2 ?_
  rw [Run.atEveryStep_cons, Run.atEveryStep_cons, Run.atEveryStep_cons]
  refine ⟨nofun, trivial, fun _ hparked => ?_, Run.atEveryStep_nil _⟩
  cases hparked.2.1

/-- A CPU that was single-cycled into a write cycle loses its bus there. -/
theorem not_gentle_singleCycle : oneWrite.Yields ∧
    ¬ ([.set6502State .sRUNNING, .set6502State .sREAD, .singleCycle6502 1, .snoop [true]].foldl
      (pinStep oneWrite) (pinSetup pinsAtPowerOn)).All (Gentle oneWrite) := by
  refine ⟨oneWrite_yields, ?_⟩
  decide

end Runs

end NeoMmu
