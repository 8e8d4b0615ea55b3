import NeoMmu.Foundation.Traced
import NeoMmu.Mailbox.IrqSlot

/-!
# The period of the IRQ timer

`taskIRQTimer()` compares the clock with the sum of the last timestamp and the interval, all three 32-bit words.
The programs are run here under a watch that notes, at every attempt to raise the timer's interrupt, how long the
clock has run since the timer was started or last attempted. Where the sum wraps and the clock does not, the
attempt comes early; nowhere else.
-/

namespace NeoMmu

open Prog

variable {σ α : Type}

/-! ## The watch -/

/-- The scheduler, the clock as the timer was started or last attempted, and the interval it was started with. -/
structure TimerWatch (σ : Type) where
  scheduler : Scheduler σ
  since : UInt32
  interval : UInt32

/-- An attempt to raise `RP_SRC_TIMER`: the milliseconds it has waited, modulo the clock, and the interval. -/
structure TimerAttempt where
  waited : UInt32
  interval : UInt32
  deriving DecidableEq, Repr

/-- The attempt is not early. -/
def TimerAttempt.InPeriod (e : TimerAttempt) : Prop := e.interval ≤ e.waited

/-- A program of the scheduler that attempts nothing. -/
def watched (p : Prog (Scheduler σ) α) : Prog (Traced (TimerWatch σ) TimerAttempt) α :=
  p.on (·.now.scheduler) fun t s => t.put { t.now with scheduler := s }

/-- `timerExpiry`, with a note of the attempt. -/
def watchedTimerExpiry (now now' : UInt32) : Prog (Traced (TimerWatch σ) TimerAttempt) Unit := do
  let w ← Prog.now
  if w.scheduler.irqTimerEnabled ∧ w.scheduler.irqLastTS + w.scheduler.irqTimerInterval ≤ now then
    watched (modify fun s => { s with irqLastTS := now' })
    event ⟨now - w.since, w.interval⟩
    update fun w => { w with since := now' }
    if ← watched (onFirmware (genIRQ6502 .RP_SRC_TIMER)) then
      watched (modify fun s => { s with taskTimerCounter := 0 })
    else
      watched (modify fun s => { s with taskTimerCounter := s.taskTimerCounter + 1 })

/-- `taskIRQTimer()` under the watch. -/
def watchedTaskIRQTimer (now now' : UInt32) : Prog (Traced (TimerWatch σ) TimerAttempt) Unit := do
  let f := (← Prog.now).scheduler.firmware
  if f.gIntrPending then
    watched (onFirmware releaseSlot)
  else if f.gConsoleBreakPending then
    watched <| onFirmware do
      if ← genIRQ6502 .RP_SRC_CONSOLE_BREAK then
        modify fun f => { f with gConsoleBreakPending := false }
  else if f.gFsCompletionPending then
    watched <| onFirmware do
      if ← genIRQ6502 .RP_SRC_FS_DONE then
        modify fun f => { f with gFsCompletionPending := false }
  else
    watchedTimerExpiry now now'

/-- `startIRQTimer()` under the watch. -/
def watchedStartIRQTimer (vPeriod now : UInt32) : Prog (Traced (TimerWatch σ) TimerAttempt) Unit := do
  watched (startIRQTimer vPeriod now)
  when (vPeriod < 65535) do
    update fun w => { w with since := now, interval := vPeriod }

/-- A step of the slot under the watch. -/
def watchedStep : SlotStep → Prog (Traced (TimerWatch σ) TimerAttempt) Unit
  | .taskIRQTimer now now' => watchedTaskIRQTimer now now'
  | .startIRQTimer vPeriod now => watchedStartIRQTimer vPeriod now
  | l => watched l.program

/-- The timer is started at `start`, and the steps follow. -/
def timerRun (s : Scheduler σ) (vPeriod start : UInt32) (ls : List SlotStep) :
    Traced (TimerWatch σ) TimerAttempt :=
  ls.foldl (fun t l => (watchedStep l).final t)
    ((watchedStartIRQTimer vPeriod start).final (Traced.start ⟨s, 0, 0⟩))

/-! ## What the watch sees -/

@[simp] theorem final_watched (p : Prog (Scheduler σ) α) (t : Traced (TimerWatch σ) TimerAttempt) :
    (watched p).final t = t.put { t.now with scheduler := p.final t.now.scheduler } := by rfl

@[simp] theorem result_watched (p : Prog (Scheduler σ) α) (t : Traced (TimerWatch σ) TimerAttempt) :
    (watched p).result t = p.result t.now.scheduler := by rfl

/-- The poll gets to the timer, and the timer runs. -/
def Scheduler.TimerTested (s : Scheduler σ) : Prop :=
  s.firmware.gIntrPending = false ∧ s.firmware.gConsoleBreakPending = false ∧
    s.firmware.gFsCompletionPending = false ∧ s.irqTimerEnabled = true

/-- The poll tests whether the time is up, and the sum does not wrap unless the clock has. -/
def Scheduler.TestsInPeriod (s : Scheduler σ) : SlotStep → Prop
  | .taskIRQTimer now _ => s.TimerTested →
      s.irqLastTS.toNat + s.irqTimerInterval.toNat < 2 ^ 32 ∨ now < s.irqLastTS
  | _ => True

/-- The watch and the timer agree. -/
def TimerWatch.Agrees (w : TimerWatch σ) : Prop :=
  w.since = w.scheduler.irqLastTS ∧ w.interval = w.scheduler.irqTimerInterval

/-- What one watched expiry leaves, and the note it takes. -/
theorem watchedTimerExpiry_spec (now now' : UInt32) (t : Traced (TimerWatch σ) TimerAttempt) :
    let t' := (watchedTimerExpiry now now').final t
    let s := t.now.scheduler
    t'.now.scheduler = (timerExpiry now now').final s ∧ (t.now.Agrees → t'.now.Agrees) ∧
      t'.log = if s.irqTimerEnabled ∧ s.irqLastTS + s.irqTimerInterval ≤ now then
          t.log ++ [⟨now - t.now.since, t.now.interval⟩]
        else t.log := by
  simp only [watchedTimerExpiry, timerExpiry, final_bind, result_now, final_now, result_get, final_get,
    final_ite, final_watched, final_modify, final_event, final_update, result_watched, final_pure]
  by_cases hup : t.now.scheduler.irqTimerEnabled ∧
      t.now.scheduler.irqLastTS + t.now.scheduler.irqTimerInterval ≤ now
  · rw [if_pos hup, if_pos hup, if_pos hup]
    split
    · rename_i hraised
      exact ⟨(if_pos hraised).symm, fun h => ⟨rfl, h.2⟩, rfl⟩
    · rename_i hrefused
      exact ⟨(if_neg hrefused).symm, fun h => ⟨rfl, h.2⟩, rfl⟩
  · rw [if_neg hup, if_neg hup, if_neg hup]
    exact ⟨rfl, id, rfl⟩

/-- The wrapping comparison is early exactly when the sum wraps and the clock does not. -/
theorem wrapping_test_iff (last interval now : UInt32) :
    (last + interval ≤ now → interval ≤ now - last) ↔
      last.toNat + interval.toNat < 2 ^ 32 ∨ now < last := by
  have hl := last.toNat_lt
  have hi := interval.toNat_lt
  have hn := now.toNat_lt
  rw [UInt32.le_iff_toNat_le, UInt32.le_iff_toNat_le, UInt32.lt_iff_toNat_lt, UInt32.toNat_add,
    UInt32.toNat_sub]
  omega

/-- An attempt of the timer is in its period exactly when the test is. -/
theorem all_watchedTimerExpiry {now now' : UInt32} {t : Traced (TimerWatch σ) TimerAttempt}
    (ht : t.now.Agrees) :
    ((watchedTimerExpiry now now').final t).All TimerAttempt.InPeriod ↔ t.All TimerAttempt.InPeriod ∧
      (t.now.scheduler.irqTimerEnabled = true →
        t.now.scheduler.irqLastTS.toNat + t.now.scheduler.irqTimerInterval.toNat < 2 ^ 32 ∨
          now < t.now.scheduler.irqLastTS) := by
  obtain ⟨-, -, hlog⟩ := watchedTimerExpiry_spec now now' t
  rw [Traced.All, hlog, ← wrapping_test_iff, ← ht.1, ← ht.2]
  by_cases hup : t.now.scheduler.irqTimerEnabled ∧ t.now.since + t.now.interval ≤ now
  · rw [if_pos hup, List.forall_mem_append, List.forall_mem_singleton]
    exact and_congr_right fun _ => ⟨fun h _ _ => h, fun h => h hup.1 hup.2⟩
  · rw [if_neg hup]
    exact (and_iff_left fun henabled hle => absurd ⟨henabled, hle⟩ hup).symm

section Steps

variable (t : Traced (TimerWatch σ) TimerAttempt)

theorem watchedTaskIRQTimer_spec (now now' : UInt32) :
    let t' := (watchedTaskIRQTimer now now').final t
    t'.now.scheduler = (taskIRQTimer now now').final t.now.scheduler ∧ (t.now.Agrees → t'.now.Agrees) ∧
      (t.now.Agrees → (t'.All TimerAttempt.InPeriod ↔ t.All TimerAttempt.InPeriod ∧
        t.now.scheduler.TestsInPeriod (.taskIRQTimer now now'))) := by
  simp only [watchedTaskIRQTimer, taskIRQTimer, final_bind, result_now, final_now, result_get, final_get]
  by_cases hintr : t.now.scheduler.firmware.gIntrPending = true
  · rw [if_pos hintr, if_pos hintr]
    exact ⟨rfl, id, fun _ => (and_iff_left fun h => absurd (h.1.symm.trans hintr) Bool.false_ne_true).symm⟩
  rw [if_neg hintr, if_neg hintr]
  by_cases hbreak : t.now.scheduler.firmware.gConsoleBreakPending = true
  · rw [if_pos hbreak, if_pos hbreak]
    exact ⟨rfl, id, fun _ => (and_iff_left fun h => absurd (h.2.1.symm.trans hbreak) Bool.false_ne_true).symm⟩
  rw [if_neg hbreak, if_neg hbreak]
  by_cases hdone : t.now.scheduler.firmware.gFsCompletionPending = true
  · rw [if_pos hdone, if_pos hdone]
    exact ⟨rfl, id, fun _ =>
      (and_iff_left fun h => absurd (h.2.2.1.symm.trans hdone) Bool.false_ne_true).symm⟩
  rw [if_neg hdone, if_neg hdone]
  obtain ⟨hscheduler, hagrees, -⟩ := watchedTimerExpiry_spec now now' t
  refine ⟨hscheduler, hagrees, fun ht => (all_watchedTimerExpiry ht).trans (and_congr_right fun _ => ?_)⟩
  rw [Bool.not_eq_true] at hintr hbreak hdone
  exact ⟨fun h htested => h htested.2.2.2, fun h henabled => h ⟨hintr, hbreak, hdone, henabled⟩⟩

theorem watchedStartIRQTimer_spec (vPeriod now : UInt32) :
    let t' := (watchedStartIRQTimer vPeriod now).final t
    t'.now.scheduler = (startIRQTimer vPeriod now).final t.now.scheduler ∧
      (vPeriod < 65535 ∨ t.now.Agrees → t'.now.Agrees) ∧ t'.log = t.log := by
  simp only [watchedStartIRQTimer, startIRQTimer, final_bind, final_watched, final_when, final_update]
  by_cases hperiod : vPeriod < 65535
  · rw [if_pos hperiod, if_pos hperiod]
    exact ⟨rfl, fun _ => ⟨rfl, rfl⟩, rfl⟩
  · rw [if_neg hperiod, if_neg hperiod]
    exact ⟨rfl, fun h => h.resolve_left hperiod, rfl⟩

/-- Under the watch a step does what it does without, keeps watch and timer in agreement, and attempts out of
period exactly when it tests so. -/
theorem watchedStep_spec (l : SlotStep) :
    let t' := (watchedStep l).final t
    t'.now.scheduler = t.now.scheduler.slotStep l ∧ (t.now.Agrees → t'.now.Agrees) ∧
      (t.now.Agrees → (t'.All TimerAttempt.InPeriod ↔ t.All TimerAttempt.InPeriod ∧
        t.now.scheduler.TestsInPeriod l)) := by
  cases l with
  | taskIRQTimer now now' => exact watchedTaskIRQTimer_spec t now now'
  | startIRQTimer vPeriod now =>
    obtain ⟨hscheduler, hagrees, hlog⟩ := watchedStartIRQTimer_spec t vPeriod now
    refine ⟨hscheduler, fun ht => hagrees (.inr ht), fun _ => ?_⟩
    simp only [watchedStep, Traced.All, hlog, Scheduler.TestsInPeriod, and_true]
  | genIRQ6502 | stopIRQTimer | set6502State | snoop | requestFSCompletionIRQ | requestConsoleBreakIRQ
  | acknowledge => exact ⟨rfl, id, fun _ => (and_iff_left trivial).symm⟩

end Steps

/-- Started with an interval, the timer is never early exactly when at every test of it the sum of timestamp and
interval fits into a word or the clock has wrapped since. -/
theorem timer_in_period_iff (s : Scheduler σ) {vPeriod : UInt32} (hperiod : vPeriod < 65535) (start : UInt32)
    (ls : List SlotStep) : (timerRun s vPeriod start ls).All TimerAttempt.InPeriod ↔
      Run.AtEveryStep Scheduler.slotStep Scheduler.TestsInPeriod ((startIRQTimer vPeriod start).final s) ls := by
  obtain ⟨hscheduler, hagrees, hlog⟩ := watchedStartIRQTimer_spec (Traced.start ⟨s, 0, 0⟩) vPeriod start
  have hnone : ((watchedStartIRQTimer vPeriod start).final (Traced.start ⟨s, 0, 0⟩)).All
      TimerAttempt.InPeriod := by
    rw [Traced.All, hlog]
    exact Traced.all_start _ _
  rw [timerRun, Traced.all_foldl (I := TimerWatch.Agrees) (C := fun w l => w.scheduler.TestsInPeriod l)
    (fun t l ht => (watchedStep_spec t l).2.1 ht) (fun t l ht => (watchedStep_spec t l).2.2 ht)
    (hagrees (.inl hperiod)), and_iff_right hnone,
    Run.atEveryStep_map (fun t : Traced (TimerWatch σ) TimerAttempt => t.now.scheduler)
      (fun t l => (watchedStep_spec t l).1), hscheduler]
  rfl

/-- With nothing else to raise, one poll after the start notes one attempt if the test finds the time up. -/
theorem log_timerRun_poll {s : Scheduler σ} (hs : s.firmware.Idle) {vPeriod start now : UInt32}
    (hperiod : vPeriod < 65535) (hup : start + vPeriod ≤ now) :
    (timerRun s vPeriod start [.taskIRQTimer now now]).log = [⟨now - start, vPeriod⟩] := by
  obtain ⟨hscheduler, hagrees, hlog⟩ := watchedStartIRQTimer_spec (Traced.start ⟨s, 0, 0⟩) vPeriod start
  have htimer : ((startIRQTimer vPeriod start).final s).irqTimerEnabled = true ∧
      ((startIRQTimer vPeriod start).final s).irqLastTS = start ∧
      ((startIRQTimer vPeriod start).final s).irqTimerInterval = vPeriod ∧
      ((startIRQTimer vPeriod start).final s).firmware.gIntrPending = s.firmware.gIntrPending ∧
      ((startIRQTimer vPeriod start).final s).firmware.gConsoleBreakPending =
        s.firmware.gConsoleBreakPending ∧
      ((startIRQTimer vPeriod start).final s).firmware.gFsCompletionPending =
        s.firmware.gFsCompletionPending := by
    rw [startIRQTimer, if_pos hperiod]
    exact ⟨rfl, rfl, rfl, rfl, rfl, rfl⟩
  rw [timerRun, List.foldl_cons, List.foldl_nil]
  generalize (watchedStartIRQTimer vPeriod start).final (Traced.start ⟨s, 0, 0⟩) = t at *
  obtain ⟨hsince, hinterval⟩ := hagrees (.inl hperiod)
  replace hscheduler : t.now.scheduler = (startIRQTimer vPeriod start).final s := hscheduler
  rw [← hscheduler, hs.gIntrPending, hs.gConsoleBreakPending, hs.gFsCompletionPending] at htimer
  obtain ⟨henabled, hlast, hperiod', hintr, hbreak, hdone⟩ := htimer
  have hpoll : (watchedTaskIRQTimer now now).final t = (watchedTimerExpiry now now).final t := by
    rw [watchedTaskIRQTimer, final_bind, result_now, final_now, if_neg (by simp [hintr]),
      if_neg (by simp [hbreak]), if_neg (by simp [hdone])]
  rw [watchedStep, hpoll, (watchedTimerExpiry_spec now now t).2.2, hlast, hperiod',
    if_pos ⟨henabled, hup⟩, hlog, hsince, hinterval, hlast, hperiod']
  rfl

/-- Started eight milliseconds before the clock wraps, a timer of ten milliseconds attempts after one. -/
theorem timer_early_before_wrap : freshSystem.Reachable RamDisk.fatFs (fun _ => none) ∧
    (timerRun freshSystem.scheduler 10 0xFFFFFFF8 [.taskIRQTimer 0xFFFFFFF9 0xFFFFFFF9]).log = [⟨1, 10⟩] ∧
    ¬ (timerRun freshSystem.scheduler 10 0xFFFFFFF8 [.taskIRQTimer 0xFFFFFFF9 0xFFFFFFF9]).All
      TimerAttempt.InPeriod := by
  have hlog := log_timerRun_poll ready_freshSystem.idle (show (10 : UInt32) < 65535 by decide)
    (show (0xFFFFFFF8 : UInt32) + 10 ≤ 0xFFFFFFF9 by decide)
  refine ⟨reachable_freshSystem _, hlog, ?_⟩
  rw [Traced.All, hlog, List.forall_mem_singleton, TimerAttempt.InPeriod]
  decide

/-- Away from the wrap the same timer attempts when its time is up, and is in its period. -/
theorem timer_in_period_started :
    (timerRun freshSystem.scheduler 10 0 [.taskIRQTimer 10 10]).log = [⟨10, 10⟩] ∧
    (timerRun freshSystem.scheduler 10 0 [.taskIRQTimer 10 10]).All TimerAttempt.InPeriod := by
  refine ⟨log_timerRun_poll ready_freshSystem.idle (by decide) (by decide), ?_⟩
  refine (timer_in_period_iff freshSystem.scheduler (by decide) 0 [.taskIRQTimer 10 10]).2 ?_
  refine Run.atEveryStep_cons.2 ⟨fun _ => .inl ?_, Run.atEveryStep_nil _⟩
  rw [startIRQTimer, if_pos (by decide)]
  show (0 : UInt32).toNat + (10 : UInt32).toNat < 2 ^ 32
  decide

end NeoMmu
