import NeoMmu.Mailbox.Reset
import NeoMmu.Usb.HidInput

/-!
# Key repeat and the console break

A report of the keyboard requests a break for a key that is new in it; the task that repeats a held key should
request none. It does when the held key is C and Ctrl is pressed after it: the report translates the repeated
character anew, and the new one is `$03`. The law is stated of every request on its own, with the report before,
and holds of a run exactly when no turn of the task finds that key due.
-/

namespace NeoMmu

open Prog

variable {σ α : Type}

/-! ## Runs -/

/-- What drives the keyboard: a report, or a turn of the repeat task. -/
inductive KeyboardStep
  | report (report : KeyboardReport)
  | tick

/-- The code a step runs. -/
def KeyboardStep.program (locale : USBKeyboardLocale) : KeyboardStep → HidProg σ Unit
  | .report r => usbKeyboardProcessReport locale r
  | .tick => usbKeyboardRepeatTask

/-- What a step leaves. -/
def HidSystem.keyboardStep (locale : USBKeyboardLocale) (s : HidSystem σ) (l : KeyboardStep) : HidSystem σ :=
  ((l.program locale).final (.start s)).now

/-- The events of a step. -/
def HidSystem.keyboardEvents (locale : USBKeyboardLocale) (s : HidSystem σ) (l : KeyboardStep) :
    List HidEvent :=
  ((l.program locale).final (.start s)).log

/-- The report before the step after this one. -/
def KeyboardStep.reportAfter (last : KeyboardReport) : KeyboardStep → KeyboardReport
  | .report r => r
  | .tick => last

/-- The report before the next step: the last one, or the empty report the statics start with. -/
def lastReport (ls : List KeyboardStep) : KeyboardReport := ls.foldl KeyboardStep.reportAfter (.ofBytes [])

/-- The break is for a key of the step's report that the report before does not have, and the key and the modifiers
are the break sequence or translate to `$03`. -/
def BreakCause.OnNewKey (locale : USBKeyboardLocale) (last : KeyboardReport) (l : KeyboardStep)
    (cause : BreakCause) : Prop :=
  ∃ report keycode, l = .report report ∧ cause = .key keycode report last ∧
    report.keyIsDown keycode = true ∧ last.keyIsDown keycode = false ∧
    (usbKeyboardIsConsoleBreak keycode report.modifier = true ∨
      usbKeyboardKeycodeToAscii locale keycode report.modifier = 0x03)

/-- The event is no request for a break, or one for a new key. -/
def HidEvent.OnNewKey (locale : USBKeyboardLocale) (last : KeyboardReport) (l : KeyboardStep) :
    HidEvent → Prop
  | .breakRequested cause => cause.OnNewKey locale last l
  | _ => True

/-- Every request for a break in a run is for a new key. -/
def BreaksOnNewKeys (locale : USBKeyboardLocale) (s : HidSystem σ) (ls : List KeyboardStep) : Prop :=
  ∀ pre l post, ls = pre ++ l :: post →
    ∀ e ∈ (pre.foldl (HidSystem.keyboardStep locale) s).keyboardEvents locale l,
      e.OnNewKey locale (lastReport pre) l

/-- The repeat task finds the C key due with Ctrl. -/
def HidSystem.RepeatsBreak (s : HidSystem σ) : KeyboardStep → Prop
  | .report _ => False
  | .tick =>
    let r := s.hid.keyRepeat
    r.active = true ∧ 0 ≤ (s.millis 0 - r.nextMs).toInt32 ∧ r.keycode = 0x06 ∧
      usbKeyboardCtrlActive r.modifier = true

/-! ## Steps -/

/-- A repeated character is the translation of its key, and the last report is remembered. -/
structure UsbHid.Tracks (h : UsbHid) (locale : USBKeyboardLocale) (last : KeyboardReport) : Prop where
  ascii : h.keyRepeat.active = true →
    h.keyRepeat.ascii = usbKeyboardKeycodeToAscii locale h.keyRepeat.keycode h.keyRepeat.modifier
  last : h.g_lastKeyboardReport = last

theorem UsbHid.Tracks.cleared {h : UsbHid} {locale : USBKeyboardLocale} {last : KeyboardReport}
    (hh : h.Tracks locale last) : UsbHid.Tracks { h with keyRepeat := .cleared } locale last :=
  ⟨nofun, hh.last⟩

section Report

variable {P : HidEvent → Prop} {locale : USBKeyboardLocale} {last : KeyboardReport}

/-- What a program of the terminal cannot disturb. -/
theorem Triple.onTerminal {I : HidSystem σ → Prop} (p : Prog (Terminal σ) α)
    (hI : ∀ s x, I s → I { s with terminal := x }) : Triple P I (onTerminal p) I :=
  fun _ ht => ⟨hI _ _ ht, id⟩

theorem Triple.readMillis {I : HidSystem σ → Prop} (hI : ∀ s x, I s → I { s with millis := x }) :
    Triple P I readMillis I :=
  fun _ ht => ⟨hI _ _ ht, id⟩

/-- The statics of the keyboard are as `UsbHid.Tracks` says. -/
def HidSystem.Tracks (locale : USBKeyboardLocale) (last : KeyboardReport) (s : HidSystem σ) : Prop :=
  s.hid.Tracks locale last

theorem triple_repeatClear :
    Triple P (HidSystem.Tracks (σ := σ) locale last) usbKeyboardRepeatClear (HidSystem.Tracks locale last) :=
  Triple.update fun _ hs => UsbHid.Tracks.cleared hs

theorem triple_repeatStart {keycode modifier ascii : UInt8}
    (hascii : ascii = usbKeyboardKeycodeToAscii locale keycode modifier) :
    Triple P (HidSystem.Tracks (σ := σ) locale last) (usbKeyboardRepeatStart keycode modifier ascii)
      (HidSystem.Tracks locale last) := by
  refine Triple.ite (fun _ => triple_repeatClear) fun _ => ?_
  refine (Triple.readMillis fun _ _ h => h).bind fun ms => ?_
  exact Triple.update fun _ hs => ⟨fun _ => hascii, hs.last⟩

theorem triple_consoleInput {cause : BreakCause} {c : UInt8} (h : c = 0x03 → P (.breakRequested cause)) :
    Triple P (HidSystem.Tracks (σ := σ) locale last) (consoleInput cause c) (HidSystem.Tracks locale last) :=
  (Triple.when_keep fun hc => Triple.event (h hc)).bind fun _ => Triple.onTerminal _ fun _ _ h => h

theorem triple_handleConsoleBreak {cause : BreakCause} {keycode modifier : UInt8}
    (h : usbKeyboardIsConsoleBreak keycode modifier = true → P (.breakRequested cause)) :
    Triple P (HidSystem.Tracks (σ := σ) locale last) (usbKeyboardHandleConsoleBreak cause keycode modifier)
      (HidSystem.Tracks locale last) := by
  refine Triple.ite (fun _ => Triple.pure _) fun hbreak => triple_repeatClear.bind fun _ => ?_
  rw [Bool.not_eq_false] at hbreak
  refine Triple.bind (K := HidSystem.Tracks locale last) ?_ fun _ => Triple.pure _
  exact (Triple.event (h hbreak)).bind fun _ => Triple.onTerminal _ fun _ _ h => h

theorem triple_handleRouteKeyDown (keycode : UInt8) :
    Triple P (HidSystem.Tracks (σ := σ) locale last) (usbKeyboardHandleRouteKeyDown keycode)
      (HidSystem.Tracks locale last) := by
  refine Triple.ite (fun _ => Triple.pure _) fun _ => triple_repeatClear.bind fun _ => ?_
  have hroute : ∀ vPID, Triple P (HidSystem.Tracks (σ := σ) locale last) (setConsolePID vPID)
      (HidSystem.Tracks locale last) := fun _ => Triple.onTerminal _ fun _ _ h => h
  refine Triple.ite (fun _ => (hroute _).bind fun _ => Triple.pure _) fun _ => ?_
  exact Triple.ite (fun _ => (hroute _).bind fun _ => Triple.pure _) fun _ =>
    (Triple.pure _).bind fun _ => Triple.pure _

/-- A key requests a break only when it is new in the report. -/
theorem triple_processKey {report : KeyboardReport} {keycode : UInt8}
    (hdown : report.keyIsDown keycode = true) :
    Triple (HidEvent.OnNewKey locale last (.report report))
      (HidSystem.Tracks (σ := σ) locale last) (processKey locale report keycode)
      (HidSystem.Tracks locale last) := by
  refine Triple.look fun s hs => ?_
  rw [hs.last]
  refine Triple.ite (fun _ => Triple.pure _) fun _ => Triple.ite (fun _ => Triple.pure _) fun hup => ?_
  rw [Bool.not_eq_true] at hup
  refine Triple.bind (K := HidSystem.Tracks locale last)
    (triple_handleConsoleBreak fun hbreak => ⟨report, keycode, rfl, rfl, hdown, hup, .inl hbreak⟩)
    fun taken => ?_
  refine Triple.ite (fun _ => Triple.pure _) fun _ => (triple_handleRouteKeyDown keycode).bind fun taken => ?_
  refine Triple.ite (fun _ => Triple.pure _) fun _ => Triple.when_keep fun _ => ?_
  exact (triple_consoleInput fun hc => ⟨report, keycode, rfl, rfl, hdown, hup, .inr hc⟩).bind fun _ =>
    triple_repeatStart rfl

theorem triple_repeatUpdate (report : KeyboardReport) :
    Triple P (HidSystem.Tracks (σ := σ) locale last) (usbKeyboardRepeatUpdateFromReport locale report)
      (HidSystem.Tracks locale last) := by
  refine Triple.now fun s hs => ?_
  have hkeep : Triple P (· = s) (pure ()) (HidSystem.Tracks locale last) :=
    (Triple.pure ()).post fun _ h => h ▸ hs
  have hclear : Triple P (· = s) usbKeyboardRepeatClear (HidSystem.Tracks locale last) :=
    triple_repeatClear.pre fun _ h => h ▸ hs
  refine Triple.ite (fun _ => hkeep) fun _ => Triple.ite (fun _ => hclear) fun _ => ?_
  refine Triple.ite (fun _ => Triple.ite (fun _ => hclear) fun _ => ?_) fun _ => hkeep
  -- The character is translated for the key that repeats, with the modifiers it is remembered with.
  exact Triple.update fun _ h => ⟨fun _ => by rw [h], (h ▸ hs).last⟩

/-- A report requests breaks for its new keys only. -/
theorem triple_processReport (report : KeyboardReport) :
    Triple (HidEvent.OnNewKey locale last (.report report)) (HidSystem.Tracks (σ := σ) locale last)
      (usbKeyboardProcessReport locale report) (HidSystem.Tracks locale report) := by
  refine Triple.bind (K := HidSystem.Tracks locale last) (Triple.forM fun i _ => ?_) fun _ => ?_
  · exact triple_processKey (decide_eq_true ⟨i, rfl⟩)
  · exact (triple_repeatUpdate report).bind fun _ => Triple.update fun _ hs => ⟨hs.ascii, rfl⟩

end Report

/-- The repeat task leaves what a repeated key and the last report are. -/
theorem triple_repeatTask {P : HidEvent → Prop} {locale : USBKeyboardLocale} {last : KeyboardReport}
    (hP : P (.breakRequested .repeatTick)) :
    Triple P (HidSystem.Tracks (σ := σ) locale last) usbKeyboardRepeatTask (HidSystem.Tracks locale last) := by
  refine Triple.look fun s hs => Triple.ite (fun _ => Triple.pure _) fun _ => ?_
  refine (Triple.readMillis fun _ _ h => h).bind fun ms => Triple.ite (fun _ => Triple.pure _) fun _ => ?_
  refine (triple_consoleInput fun _ => hP).bind fun _ => ?_
  exact Triple.update fun _ hs => ⟨hs.ascii, hs.last⟩

theorem log_consoleInput (cause : BreakCause) (c : UInt8) (t : Traced (HidSystem σ) HidEvent) :
    ((consoleInput cause c).final t).log =
      if c = 0x03 then t.log ++ [.breakRequested cause] else t.log := by
  rw [consoleInput, final_bind, final_when, final_event]
  split
  · rfl
  · rfl

/-- The repeat task requests a break when the repeated character is `$03` and due. -/
theorem log_repeatTask (s : HidSystem σ) : ((usbKeyboardRepeatTask (σ := σ)).final (.start s)).log =
    if s.hid.keyRepeat.active = true ∧ s.hid.keyRepeat.ascii = 0x03 ∧
        0 ≤ (s.millis 0 - s.hid.keyRepeat.nextMs).toInt32 then
      [.breakRequested .repeatTick]
    else [] := by
  rw [usbKeyboardRepeatTask, final_bind, result_now, final_now]
  dsimp only [Traced.start]
  by_cases hidle : s.hid.keyRepeat.active = false ∨ s.hid.keyRepeat.ascii = 0
  · rw [if_pos hidle, if_neg]
    · rfl
    · rintro ⟨hactive, hascii, -⟩
      rcases hidle with hidle | hidle
      · exact Bool.false_ne_true (hidle.symm.trans hactive)
      · exact absurd (hidle.symm.trans hascii) (by decide)
  rw [if_neg hidle, final_bind, final_ite]
  rw [not_or, Bool.not_eq_false] at hidle
  have hms : (readMillis (σ := σ)).result ⟨s, []⟩ = s.millis 0 := rfl
  rw [hms]
  by_cases hearly : (s.millis 0 - s.hid.keyRepeat.nextMs).toInt32 < 0
  · rw [if_pos hearly, if_neg fun h => Int32.not_le.2 hearly h.2.2]
    rfl
  · rw [if_neg hearly, final_bind, updateHid, final_update]
    rw [Int32.not_lt] at hearly
    show ((consoleInput .repeatTick s.hid.keyRepeat.ascii).final _).log = _
    rw [log_consoleInput]
    simp only [hidle.1, hearly, true_and, and_true]
    rfl

section Run

variable (locale : USBKeyboardLocale) {last : KeyboardReport} {s : HidSystem σ}

theorem tracks_keyboardStep (hs : s.Tracks locale last) (l : KeyboardStep) :
    (s.keyboardStep locale l).Tracks locale (l.reportAfter last) := by
  cases l with
  | report r =>
    have htriple := @triple_processReport σ locale last r
    exact (htriple (.start s) hs).1
  | tick => exact (triple_repeatTask (P := fun _ => True) trivial (.start s) hs).1

/-- A step requests breaks for new keys only, unless the repeat task finds C due with Ctrl. -/
theorem onNewKey_keyboardEvents_iff (hs : s.Tracks locale last) (l : KeyboardStep) :
    (∀ e ∈ s.keyboardEvents locale l, e.OnNewKey locale last l) ↔ ¬ s.RepeatsBreak l := by
  cases l with
  | report r => exact iff_of_true ((triple_processReport r (.start s) hs).2 (Traced.all_start _ s)) id
  | tick =>
    have hbreak : (s.hid.keyRepeat.active = true ∧ s.hid.keyRepeat.ascii = 0x03 ∧
        0 ≤ (s.millis 0 - s.hid.keyRepeat.nextMs).toInt32) ↔ s.RepeatsBreak .tick := by
      refine and_congr_right fun hactive => ?_
      rw [hs.ascii hactive, usbKeyboardKeycodeToAscii_eq_break]
      exact and_comm
    rw [HidSystem.keyboardEvents, KeyboardStep.program, log_repeatTask, ← hbreak]
    split
    · rename_i hdue
      refine iff_of_false (fun h => ?_) fun h => h hdue
      obtain ⟨report, keycode, htick, -⟩ := h _ (List.mem_singleton_self _)
      cases htick
    · rename_i hdue
      exact iff_of_true nofun hdue

theorem tracks_keyboardRun (hs : s.Tracks locale (.ofBytes [])) (ls : List KeyboardStep) :
    (ls.foldl (HidSystem.keyboardStep locale) s).Tracks locale (lastReport ls) := by
  induction ls using List.reverseRecOn with
  | nil => exact hs
  | append_singleton ls l ih =>
    rw [lastReport, List.foldl_append, List.foldl_append]
    exact tracks_keyboardStep locale ih l

end Run

/-! ## Requests

The events of a step are all the requests for a break that it makes.
-/

section Requests

/-- The event is a request for a break. -/
def HidEvent.isBreak : HidEvent → Bool
  | .breakRequested _ => true
  | _ => false

/-- Only requests for a break are noted, a break is pending afterwards when it was before or one has been requested
on the way, and the handoff of reports is left alone. -/
structure NotesBreaks (t t' : Traced (HidSystem σ) HidEvent) : Prop where
  ports : t'.now.hid.ports = t.now.hid.ports
  inFlight : t'.now.inFlight = t.now.inFlight
  log : ∃ es, t'.log = t.log ++ es ∧ (∀ e ∈ es, e.isBreak = true) ∧
    t'.now.terminal.firmware.gConsoleBreakPending =
      (t.now.terminal.firmware.gConsoleBreakPending || es.any HidEvent.isBreak)

instance : Std.Refl (NotesBreaks (σ := σ)) := ⟨fun t => ⟨rfl, rfl, [], by simp⟩⟩

instance : IsTrans (Traced (HidSystem σ) HidEvent) NotesBreaks where
  trans := by
    rintro t t' t'' ⟨hports, hflight, es, hlog, hes, hpending⟩ ⟨hports', hflight', es', hlog', hes', hpending'⟩
    refine ⟨hports'.trans hports, hflight'.trans hflight, es ++ es', ?_, ?_, ?_⟩
    · rw [hlog', hlog, List.append_assoc]
    · exact List.forall_mem_append.2 ⟨hes, hes'⟩
    · rw [hpending', hpending, List.any_append, Bool.or_assoc]

theorem notesBreaks_of_same {t t' : Traced (HidSystem σ) HidEvent} (hports : t'.now.hid.ports = t.now.hid.ports)
    (hflight : t'.now.inFlight = t.now.inFlight) (hlog : t'.log = t.log)
    (h : SameBreak t.now.terminal t'.now.terminal) : NotesBreaks t t' := by
  refine ⟨hports, hflight, [], by rw [hlog, List.append_nil], nofun, ?_⟩
  rw [List.any_nil, Bool.or_false]
  exact h.symm

theorem notesBreaks_updateHid {g : UsbHid → UsbHid} (hg : ∀ h, (g h).ports = h.ports) :
    Keeps NotesBreaks (updateHid (σ := σ) g) :=
  fun t => notesBreaks_of_same (hg t.now.hid) rfl rfl rfl

theorem notesBreaks_readMillis : Keeps NotesBreaks (readMillis (σ := σ)) :=
  fun _ => notesBreaks_of_same rfl rfl rfl rfl

theorem notesBreaks_setConsolePID (vPID : UInt8) : Keeps NotesBreaks (setConsolePID (σ := σ) vPID) :=
  fun _ => notesBreaks_of_same rfl rfl rfl rfl

theorem notesBreaks_repeatClear : Keeps NotesBreaks (usbKeyboardRepeatClear (σ := σ)) :=
  notesBreaks_updateHid fun _ => rfl

theorem notesBreaks_requestBreak (cause : BreakCause) : Keeps NotesBreaks (requestBreak (σ := σ) cause) :=
  fun _ => ⟨rfl, rfl, [.breakRequested cause], rfl, List.forall_mem_singleton.2 rfl, (Bool.or_true _).symm⟩

/-- `$03` is the only input that requests a break. -/
theorem notesBreaks_consoleInput (cause : BreakCause) (c : UInt8) :
    Keeps NotesBreaks (consoleInput (σ := σ) cause c) := by
  intro t
  by_cases hc : c = 0x03
  · subst hc
    refine ⟨rfl, rfl, [.breakRequested cause], log_consoleInput cause 0x03 t,
      List.forall_mem_singleton.2 rfl, ?_⟩
    rw [List.any_cons, HidEvent.isBreak, Bool.true_or, Bool.or_true]
    rfl
  · have hfinal : (consoleInput cause c).final t =
        t.put { t.now with terminal := (monitorConsoleInput c false).final t.now.terminal } := by
      rw [consoleInput, final_bind, final_when, if_neg hc]
      rfl
    rw [hfinal]
    refine notesBreaks_of_same rfl rfl rfl ?_
    exact sameBreak_monitorConsoleInput hc false t.now.terminal

theorem notesBreaks_handleConsoleBreak (cause : BreakCause) (keycode modifier : UInt8) :
    Keeps NotesBreaks (usbKeyboardHandleConsoleBreak (σ := σ) cause keycode modifier) := by
  refine Keeps.ite (fun _ => Keeps.pure _) fun _ => notesBreaks_repeatClear.bind fun _ => ?_
  exact (notesBreaks_requestBreak cause).bind fun _ => Keeps.pure _

theorem notesBreaks_handleRouteKeyDown (keycode : UInt8) :
    Keeps NotesBreaks (usbKeyboardHandleRouteKeyDown (σ := σ) keycode) := by
  refine Keeps.ite (fun _ => Keeps.pure _) fun _ => notesBreaks_repeatClear.bind fun _ => ?_
  refine Keeps.ite (fun _ => (notesBreaks_setConsolePID _).bind fun _ => Keeps.pure _) fun _ => ?_
  exact Keeps.ite (fun _ => (notesBreaks_setConsolePID _).bind fun _ => Keeps.pure _) fun _ =>
    (Keeps.pure _).bind fun _ => Keeps.pure _

theorem notesBreaks_processKey (locale : USBKeyboardLocale) (report : KeyboardReport) (keycode : UInt8) :
    Keeps NotesBreaks (processKey (σ := σ) locale report keycode) := by
  refine Keeps.now.bind fun s => Keeps.ite (fun _ => Keeps.pure _) fun _ => ?_
  refine Keeps.ite (fun _ => Keeps.pure _) fun _ => ?_
  refine (notesBreaks_handleConsoleBreak _ _ _).bind fun _ => Keeps.ite (fun _ => Keeps.pure _) fun _ => ?_
  refine (notesBreaks_handleRouteKeyDown _).bind fun _ => Keeps.ite (fun _ => Keeps.pure _) fun _ => ?_
  refine Keeps.when fun _ => (notesBreaks_consoleInput _ _).bind fun _ => ?_
  exact Keeps.ite (fun _ => notesBreaks_repeatClear) fun _ =>
    notesBreaks_readMillis.bind fun _ => notesBreaks_updateHid fun _ => rfl

theorem notesBreaks_program (locale : USBKeyboardLocale) (l : KeyboardStep) :
    Keeps NotesBreaks (l.program (σ := σ) locale) := by
  cases l with
  | report r =>
    refine (Keeps.forM fun i _ => notesBreaks_processKey locale r _).bind fun _ => Keeps.bind ?_ fun _ => ?_
    · refine Keeps.now.bind fun s => Keeps.ite (fun _ => Keeps.pure _) fun _ => ?_
      refine Keeps.ite (fun _ => notesBreaks_repeatClear) fun _ => Keeps.ite (fun _ => ?_) fun _ => Keeps.pure _
      exact Keeps.ite (fun _ => notesBreaks_repeatClear) fun _ => notesBreaks_updateHid fun _ => rfl
    · exact notesBreaks_updateHid fun _ => rfl
  | tick =>
    refine Keeps.now.bind fun s => Keeps.ite (fun _ => Keeps.pure _) fun _ => ?_
    refine notesBreaks_readMillis.bind fun _ => Keeps.ite (fun _ => Keeps.pure _) fun _ => ?_
    exact (notesBreaks_consoleInput _ _).bind fun _ => notesBreaks_updateHid fun _ => rfl

/-- A break is pending after a step when it was before or the step's events request one. -/
theorem break_pending_iff (locale : USBKeyboardLocale) (s : HidSystem σ) (l : KeyboardStep) :
    (s.keyboardStep locale l).terminal.firmware.gConsoleBreakPending =
      (s.terminal.firmware.gConsoleBreakPending || (s.keyboardEvents locale l).any HidEvent.isBreak) := by
  obtain ⟨es, hlog, -, hpending⟩ := (notesBreaks_program locale l (.start s)).log
  rw [HidSystem.keyboardEvents, hlog]
  exact hpending

end Requests

/-! ## The law -/

/-- From power-up on, every request for a break is for a new key exactly when the repeat task never finds C due with
Ctrl. -/
theorem breaks_on_new_keys_iff (locale : USBKeyboardLocale) (terminal : Terminal σ) (millis : Nat → UInt32)
    (ready : Nat → Bool) (ls : List KeyboardStep) :
    BreaksOnNewKeys locale (.powerUp terminal millis ready) ls ↔
      Run.AtEveryStep (HidSystem.keyboardStep locale) (fun s l => ¬ s.RepeatsBreak l)
        (.powerUp terminal millis ready) ls := by
  have hstart : (HidSystem.powerUp terminal millis ready).Tracks locale (.ofBytes []) := ⟨nofun, rfl⟩
  refine forall_congr' fun pre => forall_congr' fun l => forall_congr' fun post => forall_congr' fun _ => ?_
  exact onNewKey_keyboardEvents_iff locale (tracks_keyboardRun locale hstart pre) l

/-- The boot report of C alone. -/
def reportC : KeyboardReport := .ofBytes [0, 0, 6]

/-- The boot report of C with Ctrl. -/
def reportCtrlC : KeyboardReport := .ofBytes [1, 0, 6]

/-- C is held, Ctrl is pressed half a second before the repeat task runs: it requests a break. -/
theorem repeat_requests_break :
    let s := HidSystem.powerUp ⟨blankFirmware, .powerUp, 0, false⟩
      (fun n => if n = 0 then 0 else 500) fun _ => true
    let ls := [.report reportC, .report reportCtrlC]
    ((ls.foldl (HidSystem.keyboardStep .USB_KEYBOARD_LOCALE_US) s).keyboardEvents
      .USB_KEYBOARD_LOCALE_US .tick) = [.breakRequested .repeatTick] ∧
    ¬ BreaksOnNewKeys .USB_KEYBOARD_LOCALE_US s (ls ++ [.tick]) := by
  intro s ls
  have hevents : ((ls.foldl (HidSystem.keyboardStep .USB_KEYBOARD_LOCALE_US) s).keyboardEvents
      .USB_KEYBOARD_LOCALE_US .tick) = [.breakRequested .repeatTick] := by
    have hrepeat : (ls.foldl (HidSystem.keyboardStep .USB_KEYBOARD_LOCALE_US) s).hid.keyRepeat =
        ⟨true, 0x06, 1, 0x03, 500⟩ ∧
        (ls.foldl (HidSystem.keyboardStep .USB_KEYBOARD_LOCALE_US) s).millis 0 = 500 := by
      decide
    rw [HidSystem.keyboardEvents, KeyboardStep.program, log_repeatTask, hrepeat.1, hrepeat.2]
    exact if_pos (by decide)
  refine ⟨hevents, fun h => ?_⟩
  obtain ⟨report, keycode, htick, -⟩ := h ls .tick [] rfl _ (hevents ▸ List.mem_singleton_self _)
  cases htick

end NeoMmu
