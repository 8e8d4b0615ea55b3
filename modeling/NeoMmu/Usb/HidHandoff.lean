import NeoMmu.Foundation.Monitor
import NeoMmu.Usb.AutoRepeat

/-!
# The handoff of reports

A report waits in the buffer of its kind between the callback that brings it and the call of `taskUSBHIDInput()`
that processes it, and no buffer holds more than one. The handoff is a monitor over the events of a run: a report
is accepted into an empty buffer only, is processed out of it or dropped with its interface, and no further report
is asked for before. Callbacks come between the calls of the task in any order; TinyUSB calls one for a report only
where it has been asked for one and has not delivered it.
-/

namespace NeoMmu

open Prog

variable {σ α : Type}

/-! ## The monitor -/

/-- The report that waits for each kind, with the interface it came from. -/
abbrev Held := HidKind → Option (HidInterface × List UInt8)

/-- Some kind holds a report of the interface. -/
def Held.has (held : Held) (interface : HidInterface) : Bool :=
  [HidKind.keyboard, .mouse].any fun kind => (held kind).any fun report => report.1 = interface

/-- What an event does to the reports that wait. -/
def handoffStep (held : Held) : HidEvent → Option Held
  | .breakRequested _ => some held
  | .requested kind interface => if held kind = none ∧ held.has interface = false then some held else none
  | .accepted kind interface report =>
    if held kind = none then some (Function.update held kind (some (interface, report))) else none
  | .processed kind report =>
    if (held kind).map Prod.snd = some report then some (Function.update held kind none) else none
  | .removed interface => some fun kind => (held kind).filter fun report => report.1 ≠ interface

/-- The handoff, from empty buffers. -/
def handoff : Monitor Held HidEvent := ⟨fun _ => none, handoffStep⟩

/-! ## Runs -/

/-- A call of the task, or a callback. -/
inductive HidStep
  | taskUSBHIDInput
  | mounted (interface : HidInterface) (role : USBHIDRole)
  | removed (interface : HidInterface)
  | reported (interface : HidInterface) (report : List UInt8)

/-- TinyUSB no longer owes a report of the interface. -/
def settleReport (interface : HidInterface) : HidProg σ Unit :=
  update fun s => { s with inFlight := Function.update s.inFlight interface false }

/-- The code a step runs. -/
def HidStep.program (locale : USBKeyboardLocale) : HidStep → HidProg σ Unit
  | .taskUSBHIDInput => NeoMmu.taskUSBHIDInput locale
  | .mounted i role => tuhHidMountCb i role
  | .removed i => do
    settleReport i
    tuhHidUmountCb i
  | .reported i report => do
    settleReport i
    tuhHidReportReceivedCb i report

/-- TinyUSB delivers only what has been asked for. -/
def HidSystem.Allows (s : HidSystem σ) : HidStep → Prop
  | .reported i _ => s.inFlight i = true
  | _ => True

/-- A step, with the events so far. -/
def hidStep (locale : USBKeyboardLocale) (t : Traced (HidSystem σ) HidEvent) (l : HidStep) :
    Traced (HidSystem σ) HidEvent :=
  (l.program locale).final t

/-! ## The invariant -/

/-- A buffer holds what the monitor says; a report is awaited or waits, not both, and only for a selected interface,
of which none is on its way while one waits. -/
structure HidPort.Handed (inFlight : HidInterface → Bool) (p : HidPort)
    (held : Option (HidInterface × List UInt8)) : Prop where
  held : held = if p.reportPending then some (p.interface, p.pendingReport) else none
  active : p.reportActive = true → p.selected = true ∧ p.reportPending = false
  pending : p.reportPending = true → p.selected = true ∧ inFlight p.interface = false

/-- Both buffers are handed over, and those of some kinds are empty. -/
def HidSystem.Handed (done : List HidKind) (s : HidSystem σ) (held : Held) : Prop :=
  ∀ kind, (s.hid.ports kind).Handed s.inFlight (held kind) ∧
    (kind ∈ done → (s.hid.ports kind).reportPending = false)

theorem HidPort.Handed.none_of_empty {inFlight : HidInterface → Bool} {p : HidPort}
    {held : Option (HidInterface × List UInt8)} (h : p.Handed inFlight held)
    (hempty : p.reportPending = false) : held = none := by
  rw [h.held, if_neg (by simp [hempty])]

/-- The state with another port. -/
def HidSystem.setPort (kind : HidKind) (p : HidPort) (s : HidSystem σ) : HidSystem σ :=
  { s with hid := { s.hid with ports := Function.update s.hid.ports kind p } }

theorem ports_setPort_self (kind : HidKind) (p : HidPort) (s : HidSystem σ) :
    (s.setPort kind p).hid.ports kind = p :=
  Function.update_self ..

theorem ports_setPort_of_ne {k kind : HidKind} (hk : k ≠ kind) {p : HidPort} {s : HidSystem σ} :
    (s.setPort kind p).hid.ports k = s.hid.ports k :=
  Function.update_of_ne hk ..

theorem handed_setPort {done done' : List HidKind} {s : HidSystem σ} {held : Held} (h : s.Handed done held)
    {kind : HidKind} {p : HidPort} {x : Option (HidInterface × List UInt8)} (hp : p.Handed s.inFlight x)
    (hdone : ∀ k ∈ done', k ≠ kind → k ∈ done) (hkind : kind ∈ done' → p.reportPending = false) :
    (s.setPort kind p).Handed done' (Function.update held kind x) := by
  intro k
  show (Function.update s.hid.ports kind p k).Handed s.inFlight _ ∧
    (_ → (Function.update s.hid.ports kind p k).reportPending = false)
  by_cases hk : k = kind
  · subst hk
    rw [Function.update_self, Function.update_self]
    exact ⟨hp, hkind⟩
  · rw [Function.update_of_ne hk, Function.update_of_ne hk]
    exact ⟨(h k).1, fun hmem => (h k).2 (hdone k hmem hk)⟩

/-- As `handed_setPort`, when the buffer stays as it is. -/
theorem handed_setPort_same {done : List HidKind} {s : HidSystem σ} {held : Held} (h : s.Handed done held)
    {kind : HidKind} {p : HidPort} (hp : p.Handed s.inFlight (held kind))
    (hpending : p.reportPending = (s.hid.ports kind).reportPending) : (s.setPort kind p).Handed done held := by
  have hset : (s.setPort kind p).Handed done (Function.update held kind (held kind)) :=
    handed_setPort h hp (fun _ hk _ => hk) fun hk => hpending.trans ((h kind).2 hk)
  rwa [Function.update_eq_self] at hset

section Programs

variable {done : List HidKind}

theorem Obeys.updatePort {kind : HidKind} {g : HidPort → HidPort} {I J : HidSystem σ → Held → Prop}
    (hg : ∀ s held, I s held → J (s.setPort kind (g (s.hid.ports kind))) held) :
    Obeys handoff I (updatePort kind g) J :=
  Obeys.update hg

/-- Programs that only type leave the handoff alone. -/
theorem obeys_of_notesBreaks {m : HidProg σ α} (hm : Keeps NotesBreaks m) :
    Obeys handoff (HidSystem.Handed done) m (HidSystem.Handed done) := by
  intro t held hlog ht
  obtain ⟨hports, hflight, es, hes, hbreak, -⟩ := hm t
  refine ⟨held, ?_, ?_⟩
  · rw [hes]
    refine Monitor.run_append_of_ignored hlog fun e he => ?_
    cases e with
    | breakRequested cause => rfl
    | requested | accepted | processed | removed => cases hbreak _ he
  · rw [HidSystem.Handed, hports, hflight]
    exact ht

theorem notesBreaks_processReport (locale : USBKeyboardLocale) (report : List UInt8) (kind : HidKind) :
    Keeps NotesBreaks (processReport (σ := σ) locale report kind) := by
  cases kind with
  | keyboard => exact notesBreaks_program locale (.report (.ofBytes report))
  | mouse =>
    refine Keeps.now.bind fun s => Keeps.bind (Keeps.when fun _ => ?_) fun _ => notesBreaks_updateHid fun _ => rfl
    exact fun _ => notesBreaks_of_same rfl rfl rfl rfl

/-- A report that waits is processed, and its buffer is empty. -/
theorem obeys_processPending (locale : USBKeyboardLocale) (kind : HidKind) :
    Obeys handoff (HidSystem.Handed (σ := σ) done) (processPending locale kind)
      (HidSystem.Handed (kind :: done)) := by
  refine Obeys.now fun s held hs => Obeys.when (fun hpending => ?_) fun hempty => ?_
  · refine Obeys.bind (K := fun s' held =>
      (s'.setPort kind { s'.hid.ports kind with reportPending := false }).Handed (kind :: done) held) ?_
      fun _ => ?_
    · refine Obeys.event ?_
      rintro s' held' ⟨rfl, rfl⟩
      refine ⟨Function.update held' kind none, if_pos ?_, handed_setPort hs ?_ ?_ fun _ => rfl⟩
      · rw [(hs kind).1.held, if_pos hpending]
        rfl
      · refine ⟨rfl, fun hactive => ⟨((hs kind).1.active hactive).1, rfl⟩, nofun⟩
      · exact fun k hk hne => (List.mem_cons.1 hk).resolve_left hne
    · refine Obeys.bind (K := HidSystem.Handed (kind :: done)) (Obeys.updatePort fun _ _ h => h) fun _ => ?_
      exact obeys_of_notesBreaks (notesBreaks_processReport locale _ kind)
  · rintro s' held' ⟨rfl, rfl⟩ k
    refine ⟨(hs k).1, fun hk => ?_⟩
    rcases List.mem_cons.1 hk with rfl | hk
    · exact Bool.not_eq_true _ ▸ hempty
    · exact (hs k).2 hk

/-- Selecting an interface empties no buffer: none of its kind waits. -/
theorem obeys_usbHidSelect (kind : HidKind) :
    Obeys handoff (HidSystem.Handed (σ := σ) done) (usbHidSelect kind) (HidSystem.Handed done) := by
  refine Obeys.now fun s held hs => Obeys.ite (fun _ => Obeys.pure_seen hs _) fun hfree => ?_
  rw [Bool.not_eq_true] at hfree
  split
  · exact Obeys.pure_seen hs _
  · refine Obeys.bind (K := HidSystem.Handed done) (Obeys.updatePort ?_) fun _ => ?_
    · rintro s' held' ⟨rfl, rfl⟩
      have hidle : (s'.hid.ports kind).reportPending = false := by
        by_contra hpending
        rw [Bool.not_eq_false] at hpending
        exact Bool.false_ne_true (hfree.symm.trans ((hs kind).1.pending hpending).1)
      refine handed_setPort_same hs ⟨?_, fun hactive => ⟨rfl, hidle⟩, fun h => ?_⟩ rfl
      · rw [(hs kind).1.none_of_empty hidle]
        exact (if_neg (by simp [hidle])).symm
      · exact absurd (hidle.symm.trans h) Bool.false_ne_true
    · refine (obeys_of_notesBreaks (notesBreaks_updateHid fun h => ?_)).bind fun _ => Obeys.pure _
      cases kind with
      | keyboard => rfl
      | mouse => rfl

/-- The state after a look at the clock. -/
def HidSystem.clockRead (s : HidSystem σ) : HidSystem σ := { s with millis := fun n => s.millis (n + 1) }

theorem final_readMillis (t : Traced (HidSystem σ) HidEvent) :
    (readMillis (σ := σ)).final t = t.put t.now.clockRead := by rfl

/-- Both buffers are empty, and the kind still has the interface a report is asked of. -/
def HidSystem.Asking (kind : HidKind) (i : HidInterface) (s : HidSystem σ) (held : Held) : Prop :=
  s.Handed [.mouse, .keyboard] held ∧ (s.hid.ports kind).selected = true ∧ (s.hid.ports kind).interface = i

/-- With both buffers empty it does not matter which reports are on their way. -/
theorem Handed.of_empty {s s' : HidSystem σ} {held : Held} (h : s.Handed [.mouse, .keyboard] held)
    (hports : s'.hid.ports = s.hid.ports) : s'.Handed [.mouse, .keyboard] held := by
  intro k
  rw [hports]
  have hk : (s.hid.ports k).reportPending = false := (h k).2 (by cases k <;> decide)
  refine ⟨⟨(h k).1.held, (h k).1.active, fun hpending => ?_⟩, (h k).2⟩
  exact absurd (hk.symm.trans hpending) Bool.false_ne_true

theorem Handed.not_has {s : HidSystem σ} {held : Held} (h : s.Handed [.mouse, .keyboard] held)
    (i : HidInterface) : held.has i = false := by
  have hnone : ∀ k, held k = none := fun k => (h k).1.none_of_empty ((h k).2 (by cases k <;> decide))
  simp [Held.has, hnone]

/-- With both buffers empty, nothing keeps the next report from being asked for. -/
theorem obeys_usbHidArm (kind : HidKind) :
    Obeys handoff (HidSystem.Handed (σ := σ) [.mouse, .keyboard]) (usbHidArm kind)
      (HidSystem.Handed [.mouse, .keyboard]) := by
  refine Obeys.now fun s held hs => Obeys.ite (fun _ => Obeys.pure_seen hs _) fun hfree => ?_
  have hselected : (s.hid.ports kind).selected = true := by
    by_contra h
    exact hfree (.inl (Bool.not_eq_true _ ▸ h))
  refine Obeys.bind (K := HidSystem.Asking kind (s.hid.ports kind).interface) ?_ fun ms => ?_
  · refine Obeys.of_update final_readMillis ?_
    rintro s' held' ⟨rfl, rfl⟩
    exact ⟨Handed.of_empty hs rfl, hselected, rfl⟩
  refine Obeys.ite (fun _ => (Obeys.pure _).post fun _ _ h => h.1) fun _ => ?_
  refine Obeys.bind (K := HidSystem.Asking kind (s.hid.ports kind).interface) (Obeys.updatePort ?_) fun _ => ?_
  · rintro s' held ⟨hs, hkind⟩
    have hp := (hs kind).1
    refine ⟨handed_setPort_same hs ⟨hp.held, hp.active, hp.pending⟩ rfl, ?_⟩
    rwa [ports_setPort_self]
  refine Obeys.bind (K := HidSystem.Asking kind (s.hid.ports kind).interface) ?_ fun received => ?_
  · refine Obeys.look fun s' held' hs' => Obeys.bind (K := HidSystem.Asking kind (s.hid.ports kind).interface)
      (Obeys.update fun _ _ h => ⟨Handed.of_empty h.1 rfl, h.2⟩) fun _ =>
        Obeys.ite (fun _ => ?_) fun _ => Obeys.pure _
    · exact (Obeys.update fun s' held h => ⟨Handed.of_empty h.1 rfl, h.2⟩).bind fun _ => Obeys.pure _
  refine Obeys.ite (fun _ => ?_) fun _ => (Obeys.pure _).post fun _ _ h => h.1
  refine Obeys.bind (K := HidSystem.Asking kind (s.hid.ports kind).interface) (Obeys.event ?_) fun _ =>
    Obeys.updatePort ?_
  · rintro s' held ⟨hs, hkind⟩
    have hnone : held kind = none := (hs kind).1.none_of_empty ((hs kind).2 (by cases kind <;> decide))
    exact ⟨held, if_pos ⟨hnone, Handed.not_has hs _⟩, hs, hkind⟩
  · rintro s' held ⟨hs, hkind, -⟩
    have hp := (hs kind).1
    have hempty : (s'.hid.ports kind).reportPending = false := (hs kind).2 (by cases kind <;> decide)
    exact handed_setPort_same hs ⟨hp.held, fun _ => ⟨hkind, hempty⟩, hp.pending⟩ rfl

/-- Once the delay is over, every report that waits is processed. -/
theorem obeys_serveInterfaces (locale : USBKeyboardLocale) :
    Obeys handoff (HidSystem.Handed (σ := σ) []) (serveInterfaces locale)
      (HidSystem.Handed [.mouse, .keyboard]) := by
  refine (obeys_usbHidSelect .keyboard).discard.bind fun _ => ?_
  refine (obeys_usbHidSelect .mouse).discard.bind fun _ => ?_
  refine Obeys.bind (K := HidSystem.Handed [.mouse, .keyboard]) ?_ fun _ => ?_
  · exact (obeys_processPending locale .keyboard).bind fun _ => obeys_processPending locale .mouse
  refine (obeys_of_notesBreaks (notesBreaks_program locale .tick)).bind fun _ => ?_
  exact (obeys_usbHidArm .keyboard).bind fun _ => obeys_usbHidArm .mouse

/-- The next call of the task gets behind its delay. -/
def HidSystem.Serves (s : HidSystem σ) : Prop :=
  s.hid.g_hidArmDelayStarted = true ∧ ¬ s.millis 0 - s.hid.g_hidArmDelayStartMs < USB_HID_ARM_DELAY_MS

theorem obeys_onTerminal {I : HidSystem σ → Held → Prop} (p : Prog (Terminal σ) α)
    (hI : ∀ s x held, I s held → I { s with terminal := x } held) : Obeys handoff I (onTerminal p) I :=
  fun _ held hlog ht => ⟨held, hlog, hI _ _ _ ht⟩

theorem obeys_readMillis {J : HidSystem σ → Held → Prop} {f : UInt32 → HidProg σ α} {s : HidSystem σ}
    {held : Held} (hf : Obeys handoff (fun s' held' => s' = s.clockRead ∧ held' = held) (f (s.millis 0)) J) :
    Obeys handoff (fun s' held' => s' = s ∧ held' = held) (readMillis >>= f) J := by
  rintro t held' hlog ⟨rfl, rfl⟩
  exact hf _ _ hlog ⟨rfl, rfl⟩

/-- No buffer need be empty. -/
theorem Handed.weaken {s : HidSystem σ} {held : Held} (h : s.Handed done held) : s.Handed [] held :=
  fun k => ⟨(h k).1, nofun⟩

/-- The task keeps the handoff, and leaves no report waiting where it gets behind its delay. -/
theorem obeys_taskUSBHIDInput (locale : USBKeyboardLocale) (c : Prop) :
    Obeys handoff (fun (s : HidSystem σ) held => s.Handed [] held ∧ (c → s.Serves)) (taskUSBHIDInput locale)
      fun s held => s.Handed [] held ∧ (c → s.Handed [.mouse, .keyboard] held) := by
  have hnotice : ∀ kind, Obeys handoff (fun (s : HidSystem σ) held => s.Handed [] held ∧ (c → s.Serves))
      (updatePort kind fun p => { p with removedNoticePending := false })
      fun s held => s.Handed [] held ∧ (c → s.Serves) := fun kind => Obeys.updatePort fun s held hs =>
    ⟨handed_setPort_same hs.1 ⟨(hs.1 kind).1.held, (hs.1 kind).1.active, (hs.1 kind).1.pending⟩ rfl, hs.2⟩
  refine Obeys.look fun s held hs => ?_
  refine Obeys.bind (K := fun s held => s.Handed [] held ∧ (c → s.Serves)) ?_ fun _ => ?_
  · exact Obeys.when (fun _ => (hnotice _).bind fun _ => obeys_onTerminal _ fun _ _ _ h => h) fun _ _ _ h => h
  refine Obeys.bind (K := fun s held => s.Handed [] held ∧ (c → s.Serves)) ?_ fun _ => ?_
  · exact Obeys.when (fun _ => hnotice _) fun _ _ _ h => h
  refine Obeys.bind (K := fun s held => s.Handed [] held ∧ (c → s.Serves)) ?_ fun _ => ?_
  · refine Obeys.when (fun hstart => ?_) fun _ _ _ h => h
    -- Where the delay starts only now, the call gets nowhere.
    have hc : ¬ c := fun hc => Bool.false_ne_true (hstart.1.symm.trans (hs.2 hc).1)
    refine Obeys.bind (K := HidSystem.Handed []) (Obeys.of_update final_readMillis fun _ _ h => h.1) fun ms => ?_
    exact Obeys.update fun s held h => ⟨h, fun h' => absurd h' hc⟩
  refine Obeys.now fun s' held' hs' => Obeys.when (fun hstarted => obeys_readMillis ?_) fun hidle => ?_
  · refine Obeys.when (fun _ => ?_) fun hearly => ?_
    · refine ((obeys_serveInterfaces locale).pre ?_).post fun _ _ h => ⟨Handed.weaken h, fun _ => h⟩
      rintro _ _ ⟨rfl, rfl⟩
      exact hs'.1
    · rintro _ _ ⟨rfl, rfl⟩
      exact ⟨hs'.1, fun hc => absurd (hs'.2 hc).2 hearly⟩
  · rintro _ _ ⟨rfl, rfl⟩
    exact ⟨hs'.1, fun hc => absurd (hs'.2 hc).1 hidle⟩

/-- Mounting changes the records only. -/
theorem obeys_tuhHidMountCb (i : HidInterface) (role : USBHIDRole) :
    Obeys handoff (HidSystem.Handed (σ := σ) []) (tuhHidMountCb i role) (HidSystem.Handed []) := by
  refine Obeys.look fun s held hs => ?_
  dsimp only
  split
  · exact Obeys.pure _
  · exact Obeys.update fun _ _ h => h

/-- What the removal of an interface makes of a port. -/
def HidPort.remove (i : HidInterface) (p : HidPort) : HidPort :=
  if p.selected = true ∧ i = p.interface then
    { p with
      selected := false
      reportActive := false
      reportPending := false
      removedNoticePending := true
      interface := ⟨0, 0⟩
      pendingReport := [] }
  else p

theorem handed_remove {inFlight : HidInterface → Bool} {p : HidPort}
    {held : Option (HidInterface × List UInt8)} (h : p.Handed inFlight held) (i : HidInterface) :
    (p.remove i).Handed inFlight (held.filter fun report => report.1 ≠ i) := by
  rw [HidPort.remove]
  by_cases hi : p.selected = true ∧ i = p.interface
  · rw [if_pos hi]
    refine ⟨?_, nofun, nofun⟩
    rw [h.held]
    split
    · exact Option.filter_some_neg (by simp [hi.2])
    · rfl
  · rw [if_neg hi]
    refine ⟨?_, h.active, h.pending⟩
    rw [h.held]
    split
    · rename_i hpending
      have hne : p.interface ≠ i := fun he => hi ⟨(h.pending hpending).1, he.symm⟩
      exact Option.filter_some_pos (by simp [hne])
    · rfl

/-- On the way of a removal: some kinds have let go of the interface, the others will. -/
def HidSystem.Removing (i : HidInterface) (gone : List HidKind) (s : HidSystem σ) (held : Held) : Prop :=
  ∀ k, (if k ∈ gone then s.hid.ports k else (s.hid.ports k).remove i).Handed s.inFlight (held k)

theorem obeys_removePort (i : HidInterface) (gone : List HidKind) {kind : HidKind} (hkind : kind ∉ gone) :
    Obeys handoff (HidSystem.Removing (σ := σ) i gone) (removePort kind i)
      (HidSystem.Removing i (kind :: gone)) := by
  refine Obeys.now fun s held hs => ?_
  have hport := hs kind
  rw [if_neg hkind, HidPort.remove] at hport
  have hother : ∀ k ≠ kind, (if k ∈ kind :: gone then s.hid.ports k else (s.hid.ports k).remove i).Handed
      s.inFlight (held k) := by
    intro k hk
    simp only [List.mem_cons, hk, false_or]
    exact hs k
  refine Obeys.when (fun hi => ?_) fun hi => ?_
  · rw [if_pos hi] at hport
    refine Obeys.bind (K := HidSystem.Removing i (kind :: gone)) (Obeys.updatePort ?_) fun _ => ?_
    · rintro _ _ ⟨rfl, rfl⟩ k
      by_cases hk : k = kind
      · subst hk
        rw [if_pos List.mem_cons_self, ports_setPort_self]
        exact hport
      · have hkept := hother k hk
        rwa [← ports_setPort_of_ne hk] at hkept
    · refine Obeys.update fun s held h => ?_
      cases kind with
      | keyboard => exact h
      | mouse => exact h
  · rw [if_neg hi] at hport
    rintro _ _ ⟨rfl, rfl⟩ k
    by_cases hk : k = kind
    · subst hk
      rwa [if_pos List.mem_cons_self]
    · exact hother k hk

theorem obeys_tuhHidUmountCb (i : HidInterface) :
    Obeys handoff (HidSystem.Handed (σ := σ) []) (tuhHidUmountCb i) (HidSystem.Handed []) := by
  refine Obeys.bind (K := HidSystem.Removing i []) (Obeys.event fun s held hs => ?_) fun _ => ?_
  · exact ⟨_, rfl, fun k => handed_remove (hs k).1 i⟩
  have hports : Obeys handoff (HidSystem.Removing (σ := σ) i [])
      (removePort .keyboard i >>= fun _ => removePort .mouse i) (HidSystem.Handed []) := by
    refine (obeys_removePort i [] (by decide)).bind fun _ => ?_
    refine (obeys_removePort i [.keyboard] (by decide)).post fun s held h k => ⟨?_, nofun⟩
    have hk := h k
    rwa [if_pos (by cases k <;> decide)] at hk
  refine Obeys.look fun s held hs => ?_
  dsimp only
  split
  · exact hports
  · refine Obeys.bind (K := HidSystem.Removing i []) ?_ fun _ => hports
    exact Obeys.update fun _ _ h => h

/-- A kind whose buffer is empty has a selected interface, which owes no report. -/
def HidSystem.Receiving (kind : HidKind) (i : HidInterface) (s : HidSystem σ) (held : Held) : Prop :=
  s.Handed [] held ∧ (s.hid.ports kind).selected = true ∧ (s.hid.ports kind).interface = i ∧
    s.inFlight i = false ∧ (s.hid.ports kind).reportPending = false

/-- A report comes into an empty buffer. -/
theorem obeys_acceptReport (kind : HidKind) (i : HidInterface) (report : List UInt8) :
    Obeys handoff (HidSystem.Receiving (σ := σ) kind i) (acceptReport kind report)
      (HidSystem.Handed []) := by
  refine Obeys.now fun s held hs => ?_
  refine Obeys.bind (K := fun s' held' => s'.Receiving kind i held' ∧
    (s'.hid.ports kind).reportActive = false) (Obeys.updatePort ?_) fun _ => ?_
  · rintro _ _ ⟨rfl, rfl⟩
    obtain ⟨hhanded, hselected, hi, hflight, hempty⟩ := hs
    rw [HidSystem.Receiving, ports_setPort_self]
    refine ⟨⟨handed_setPort_same hhanded ⟨?_, nofun, ?_⟩ rfl, hselected, hi, hflight, hempty⟩, rfl⟩
    · rw [(hhanded kind).1.none_of_empty hempty]
      exact (if_neg (by simp [hempty])).symm
    · exact fun h => absurd (hempty.symm.trans h) Bool.false_ne_true
  refine Obeys.when (fun htakes => ?_) fun _ _ _ h => h.1.1
  refine Obeys.bind (K := fun s' held => (s'.setPort kind { s'.hid.ports kind with
    pendingReport := report.take kind.reportSize, reportPending := true }).Handed [] held) ?_ fun _ => ?_
  · refine Obeys.event fun s' held' hs' => ?_
    obtain ⟨⟨hhanded, hselected, hi, hflight, hempty⟩, hactive⟩ := hs'
    refine ⟨_, if_pos ((hhanded kind).1.none_of_empty hempty), handed_setPort hhanded ⟨?_, ?_, ?_⟩ nofun nofun⟩
    · rw [hs.2.2.1, ← hi]
      rfl
    · exact fun h => absurd (hactive.symm.trans h) Bool.false_ne_true
    · exact fun _ => ⟨hselected, hi ▸ hflight⟩
  · exact Obeys.updatePort fun _ _ h => h

/-- The kind a report is for has selected its interface. -/
theorem receiver_eq_some {h : UsbHid} {i : HidInterface} {kind : HidKind} (hkind : h.receiver i = some kind) :
    (h.ports kind).selected = true ∧ i = (h.ports kind).interface := by
  simpa using List.find?_some hkind

/-- A report that TinyUSB owes is for an empty buffer. -/
theorem empty_of_allows {s : HidSystem σ} {held : Held} (hs : s.Handed done held) {i : HidInterface}
    {kind : HidKind} (hkind : s.hid.receiver i = some kind) (hi : s.inFlight i = true) :
    (s.hid.ports kind).reportPending = false := by
  by_contra hpending
  rw [Bool.not_eq_false] at hpending
  obtain ⟨-, rfl⟩ := receiver_eq_some hkind
  exact Bool.false_ne_true (((hs kind).1.pending hpending).2.symm.trans hi)

/-- Fewer reports on their way. -/
theorem handed_settle {s : HidSystem σ} {held : Held} (hs : s.Handed done held) (i : HidInterface) :
    HidSystem.Handed done { s with inFlight := Function.update s.inFlight i false } held := by
  intro k
  refine ⟨⟨(hs k).1.held, (hs k).1.active, fun hpending => ?_⟩, (hs k).2⟩
  obtain ⟨hselected, hflight⟩ := (hs k).1.pending hpending
  refine ⟨hselected, ?_⟩
  show Function.update s.inFlight i false _ = false
  by_cases hi : (s.hid.ports k).interface = i
  · rw [hi, Function.update_self]
  · rwa [Function.update_of_ne hi]

/-- Every step keeps the handoff. -/
theorem obeys_hidStep (locale : USBKeyboardLocale) (l : HidStep) :
    Obeys handoff (fun (s : HidSystem σ) held => s.Handed [] held ∧ s.Allows l) (l.program locale)
      (HidSystem.Handed []) := by
  cases l with
  | taskUSBHIDInput =>
    exact ((obeys_taskUSBHIDInput locale False).pre fun _ _ h => ⟨h.1, False.elim⟩).post fun _ _ h => h.1
  | mounted i role => exact (obeys_tuhHidMountCb i role).pre fun _ _ h => h.1
  | removed i =>
    refine Obeys.bind (K := HidSystem.Handed []) (Obeys.update fun _ _ h => ?_) fun _ => obeys_tuhHidUmountCb i
    exact handed_settle h.1 i
  | reported i report =>
    refine Obeys.bind (K := fun s held => s.Handed [] held ∧ s.inFlight i = false ∧
      ∀ kind, s.hid.receiver i = some kind → (s.hid.ports kind).reportPending = false)
      (Obeys.update fun s held h => ?_) fun _ => ?_
    · refine ⟨handed_settle h.1 i, Function.update_self .., fun kind hkind => ?_⟩
      exact empty_of_allows h.1 hkind h.2
    · refine Obeys.now fun s held hs => ?_
      split
      · exact Obeys.pure_seen hs.1 _
      · rename_i kind hkind
        refine (obeys_acceptReport kind i report).pre ?_
        rintro _ _ ⟨rfl, rfl⟩
        obtain ⟨hselected, hi⟩ := receiver_eq_some hkind
        exact ⟨hs.1, hselected, hi.symm, hs.2.1, hs.2.2 kind hkind⟩

end Programs

/-! ## Runs -/

/-- The statics as the firmware starts hold no report. -/
theorem handed_powerUp (terminal : Terminal σ) (millis : Nat → UInt32) (ready : Nat → Bool) :
    (HidSystem.powerUp terminal millis ready).Handed [] handoff.start :=
  fun _ => ⟨⟨rfl, nofun, nofun⟩, nofun⟩

/-- What holds of the handoff after a run. -/
structure HandedOver (locale : USBKeyboardLocale) (t : Traced (HidSystem σ) HidEvent) : Prop where
  /-- No report is awaited while one waits. -/
  exclusive : ∀ kind, ¬ ((t.now.hid.ports kind).reportActive = true ∧
    (t.now.hid.ports kind).reportPending = true)
  /-- The next callback finds the buffer of its kind empty. -/
  empty : ∀ i report kind, t.now.Allows (.reported i report) → t.now.hid.receiver i = some kind →
    (t.now.hid.ports kind).reportPending = false
  /-- The events so far are those of a handoff, and the reports that wait are those in the buffers. -/
  accepted : ∃ held, handoff.run t.log = some held ∧ ∀ kind, held kind =
    if (t.now.hid.ports kind).reportPending then
      some ((t.now.hid.ports kind).interface, (t.now.hid.ports kind).pendingReport)
    else none
  /-- A call of the task that gets behind its delay leaves no report waiting. -/
  processed : t.now.Serves → ∀ kind,
    (((taskUSBHIDInput locale).final t).now.hid.ports kind).reportPending = false

/-- In every run from power-up the reports are handed over without loss. -/
theorem reports_handed_over (locale : USBKeyboardLocale) (terminal : Terminal σ) (millis : Nat → UInt32)
    (ready : Nat → Bool) (ls : List HidStep)
    (hls : Run.AtEveryStep (hidStep locale) (fun t l => t.now.Allows l) (.start (.powerUp terminal millis ready))
      ls) :
    HandedOver locale (ls.foldl (hidStep locale) (.start (.powerUp terminal millis ready))) := by
  obtain ⟨held, hlog, hs⟩ := Obeys.run (obeys_hidStep locale) (handed_powerUp terminal millis ready) hls
  refine ⟨fun kind h => ?_, fun i report kind hi hkind => empty_of_allows hs hkind hi,
    ⟨held, hlog, fun kind => (hs kind).1.held⟩, fun hserves kind => ?_⟩
  · exact Bool.false_ne_true (((hs kind).1.active h.1).2.symm.trans h.2)
  · obtain ⟨held', -, -, hdone⟩ := obeys_taskUSBHIDInput locale True _ held hlog ⟨hs, fun _ => hserves⟩
    exact (hdone trivial kind).2 (by cases kind <;> decide)

/-- A keyboard is plugged in, and a key is pressed once its reports are asked for. -/
def typedRun : List HidStep :=
  [.mounted ⟨1, 0⟩ .USB_HID_ROLE_KEYBOARD, .taskUSBHIDInput, .taskUSBHIDInput,
    .reported ⟨1, 0⟩ [0, 0, 4, 0, 0, 0, 0, 0], .taskUSBHIDInput]

/-- The system it is plugged into. -/
def typedSystem : HidSystem RamDisk :=
  .powerUp ⟨blankFirmware, .powerUp, 0, false⟩ (fun n => if n < 2 then 0 else 2000) fun _ => true

/-- One report is asked for, accepted and processed. -/
theorem reports_handed_over_typed :
    let t := typedRun.foldl (hidStep .USB_KEYBOARD_LOCALE_US) (.start typedSystem)
    t.log.length = 3 ∧ (t.now.hid.keyRepeat.ascii = 'a'.toUInt8) ∧
      HandedOver .USB_KEYBOARD_LOCALE_US t := by
  refine ⟨by decide, by decide, reports_handed_over _ _ _ _ typedRun ?_⟩
  refine Run.atEveryStep_cons.2 ⟨trivial, Run.atEveryStep_cons.2 ⟨trivial, Run.atEveryStep_cons.2 ⟨trivial,
    Run.atEveryStep_cons.2 ⟨?_, Run.atEveryStep_cons.2 ⟨trivial, Run.atEveryStep_nil _⟩⟩⟩⟩⟩
  show HidSystem.inFlight _ _ = true
  decide

end NeoMmu
