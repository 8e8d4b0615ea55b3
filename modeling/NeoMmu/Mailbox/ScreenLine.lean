import NeoMmu.Mailbox.ConsoleInput
import NeoMmu.Mailbox.MonitorInput
import NeoMmu.Vdu.Bounds

/-!
# Entering a line of the screen

In screen mode a CR or an LF queues the line of the screen the cursor is in, byte by byte. A queue that runs full
on the way keeps the bytes it has taken, and the rest of the line is lost.
-/

namespace NeoMmu

variable {σ α : Type}

/-! ## Offering bytes to the queue -/

namespace Terminal

/-- The bytes that wait for the CPU. -/
def queue (t : Terminal σ) : List UInt8 := t.firmware.cpu_tx_fifo.toList

/-- How many more the queue takes. -/
def room (t : Terminal σ) : Nat := 127 - t.queue.length

/-- The line of the screen the cursor is in. -/
def screenline (t : Terminal σ) : List UInt8 := t.vdu.vduGetScreenline t.vdu.gCursor.row

theorem length_queue_le (t : Terminal σ) : t.queue.length ≤ 127 := by
  rw [queue, Fifo.length_toList]
  exact Nat.le_of_lt_succ (Fifo.count_lt _)

theorem room_of_queue {t t' : Terminal σ} {xs : List UInt8} (h : t'.queue = t.queue ++ xs) :
    t'.room = t.room - xs.length := by
  rw [room, room, h, List.length_append, Nat.sub_add_eq]

end Terminal

/-- The queue is left as it was. -/
abbrev SameInput : Terminal σ → Terminal σ → Prop := Order.Preimage Terminal.queue (· = ·)

/-- A program that queues as many of the bytes as there is room for, and says whether these are all. -/
def Offers (xs : List UInt8) (p : Prog (Terminal σ) Bool) : Prop :=
  ∀ t, p.result t = decide (xs.length ≤ t.room) ∧ (p.final t).queue = t.queue ++ xs.take t.room

/-- A program that reports a failure and does not queue anything. -/
def Refuses (p : Prog (Terminal σ) Bool) : Prop := ∀ t, p.result t = false ∧ (p.final t).queue = t.queue

section Offers

variable {xs ys : List UInt8} {p q r : Prog (Terminal σ) Bool}

theorem offers_nil : Offers [] (pure true : Prog (Terminal σ) Bool) := by
  intro t
  exact ⟨(decide_eq_true (Nat.zero_le _)).symm, by rw [List.take_nil, List.append_nil]; rfl⟩

/-- What leaves the queue alone may come first. -/
theorem Offers.after {m : Prog (Terminal σ) α} {f : α → Prog (Terminal σ) Bool} (hm : Prog.Keeps SameInput m)
    (hf : ∀ a, Offers xs (f a)) : Offers xs (m >>= f) := by
  intro t
  have hqueue : (m.final t).queue = t.queue := (hm t).symm
  have hroom : (m.final t).room = t.room := by rw [Terminal.room, hqueue, Terminal.room]
  obtain ⟨hresult, hfinal⟩ := hf (m.result t) (m.final t)
  rw [hroom] at hresult hfinal
  rw [hqueue] at hfinal
  exact ⟨hresult, hfinal⟩

/-- The bytes of two parts, where the second comes only after the whole of the first. -/
theorem Offers.append (hp : Offers xs p) (hq : Offers ys q) (hr : Refuses r) :
    Offers (xs ++ ys) (do if ← p then q else r) := by
  intro t
  obtain ⟨hresult, hfinal⟩ := hp t
  simp only [Prog.result_bind, Prog.final_bind, Prog.result_ite, Prog.final_ite, hresult, decide_eq_true_eq]
  split
  · rename_i hfits
    rw [List.take_of_length_le hfits] at hfinal
    obtain ⟨hresult', hfinal'⟩ := hq (p.final t)
    rw [Terminal.room_of_queue hfinal] at hresult' hfinal'
    refine ⟨?_, ?_⟩
    · rw [hresult', List.length_append]
      exact decide_eq_decide.2 (by omega)
    · rw [hfinal', hfinal, List.take_append, List.take_of_length_le hfits, List.append_assoc]
  · rename_i hlong
    obtain ⟨hresult', hfinal'⟩ := hr (p.final t)
    refine ⟨?_, ?_⟩
    · rw [hresult', List.length_append]
      exact (decide_eq_false (by omega)).symm
    · rw [hfinal', hfinal, List.take_append_of_le_length (Nat.le_of_not_le hlong)]

end Offers

/-! ## The functions -/

theorem offers_writeCPUQ (c : UInt8) : Offers [c] (onConsole (writeCPUQ c) : Prog (Terminal σ) Bool) := by
  intro t
  have hcount := t.firmware.cpu_tx_fifo.isFull_iff
  rw [← Fifo.length_toList] at hcount
  have hroom : t.room = 127 - t.firmware.cpu_tx_fifo.toList.length := rfl
  rcases writeCPUQ_spec c t.firmware with ⟨hfull, hresult, hfinal⟩ | ⟨hfull, hresult, q, hq, hfinal⟩
  · have hnone : t.room = 0 := by
      rw [hroom]
      have hlength := hcount.1 hfull
      omega
    refine ⟨?_, ?_⟩
    · rw [hnone]
      exact hresult
    · rw [hnone, List.take_zero, List.append_nil]
      exact congrArg (fun f : Firmware σ => f.cpu_tx_fifo.toList) hfinal
  · have hsome : 1 ≤ t.room := by
      have hlength := t.length_queue_le
      have hne : ¬ t.firmware.cpu_tx_fifo.toList.length + 1 = 128 := fun h => Bool.eq_false_iff.1 hfull (hcount.2 h)
      rw [Terminal.queue] at hlength
      omega
    refine ⟨hresult.trans (decide_eq_true hsome).symm, ?_⟩
    rw [List.take_of_length_le hsome]
    exact (congrArg (fun f : Firmware σ => f.cpu_tx_fifo.toList) hfinal).trans hq

theorem refuses_inputFailed (allowReturnToICM : Bool) : Refuses (σ := σ) (inputFailed allowReturnToICM) := by
  intro t
  cases allowReturnToICM with
  | false => exact ⟨rfl, rfl⟩
  | true => exact ⟨rfl, rfl⟩

theorem offers_finishInput (c : UInt8) (allowReturnToICM : Bool) :
    Offers (σ := σ) [c] (finishInput c allowReturnToICM) :=
  (offers_writeCPUQ c).append offers_nil (refuses_inputFailed allowReturnToICM)

/-- A line is offered up to its first NUL. -/
theorem offers_writeScreenline (line : List UInt8) :
    Offers (σ := σ) (line.takeWhile (· ≠ 0)) (writeScreenline line) := by
  induction line with
  | nil => exact offers_nil
  | cons c line ih =>
    rw [writeScreenline]
    by_cases hc : c = 0
    · rw [if_pos hc, List.takeWhile_cons_of_neg (by simp [hc])]
      exact offers_nil
    · rw [if_neg hc, List.takeWhile_cons_of_pos (by simp [hc])]
      exact (offers_writeCPUQ c).append ih fun _ => ⟨rfl, rfl⟩

/-- What a CR or an LF offers to the queue. -/
def Terminal.entered (t : Terminal σ) : List UInt8 := t.screenline.takeWhile (· ≠ 0) ++ ['\r'.toUInt8]

/-- The line is read before the cursor moves on. -/
theorem enterScreenline_spec (allowReturnToICM : Bool) (t : Terminal σ) :
    (enterScreenline allowReturnToICM).result t = decide (t.entered.length ≤ t.room) ∧
      ((enterScreenline allowReturnToICM).final t).queue = t.queue ++ t.entered.take t.room := by
  have hoffers : Offers t.entered (do
      onVdu vduRestoreCursor
      if ← writeScreenline t.screenline then finishInput '\r'.toUInt8 allowReturnToICM
      else inputFailed allowReturnToICM : Prog (Terminal σ) Bool) := by
    refine Offers.after (fun _ => rfl) fun _ => ?_
    exact (offers_writeScreenline _).append (offers_finishInput _ _) (refuses_inputFailed _)
  rw [enterScreenline, Prog.result_bind, Prog.final_bind, Prog.result_get, Prog.final_get]
  exact hoffers t

/-- A CR and an LF do the same: the echo leaves the queue and the line alone. -/
theorem monitorConsoleInput_line {c : UInt8} (hc : c = '\n'.toUInt8 ∨ c = '\r'.toUInt8) (allowReturnToICM : Bool)
    {t : Terminal σ} (ht : t.vdu.gAsScreenMode = true) :
    (monitorConsoleInput c allowReturnToICM).result t = decide (t.entered.length ≤ t.room) ∧
      ((monitorConsoleInput c allowReturnToICM).final t).queue = t.queue ++ t.entered.take t.room := by
  have hbreak : c ≠ 0x03 := by
    rintro rfl
    exact absurd hc (by decide)
  have hmonitor : ¬ (c = 0x1A ∧ allowReturnToICM = true) := by
    rintro ⟨rfl, -⟩
    exact absurd hc (by decide)
  rw [monitorConsoleInput, if_neg hbreak, if_neg hmonitor, if_pos hc]
  generalize hu : (onConsole (writeVDUQ '\r'.toUInt8)).final t = u
  have hvdu : u.vdu = t.vdu := by rw [← hu]; rfl
  have hqueue : u.queue = t.queue := by
    rw [← hu]
    show ((writeVDUQ '\r'.toUInt8).final t.firmware).cpu_tx_fifo.toList = _
    rw [writeVDUQ, Prog.final_modify]
    split
    · rfl
    · rfl
  have hentered : u.entered = t.entered := by
    rw [Terminal.entered, Terminal.screenline, hvdu]
    rfl
  have hroom : u.room = t.room := by rw [Terminal.room, hqueue, Terminal.room]
  have hspec := enterScreenline_spec allowReturnToICM u
  rw [hentered, hroom, hqueue] at hspec
  simp only [Prog.result_bind, Prog.final_bind, Prog.result_get, Prog.final_get, hu, hvdu, ht, if_true]
  exact hspec

/-! ## Whole lines -/

/-- The queue has gained the whole line and a CR, or it is as it was. -/
structure EntersWhole (t t' : Terminal σ) (accepted : Bool) : Prop where
  whole : accepted = true → t'.queue = t.queue ++ t.screenline ++ ['\r'.toUInt8]
  nothing : accepted = false → t'.queue = t.queue

theorem takeWhile_ne_zero_iff (line : List UInt8) : line.takeWhile (· ≠ 0) = line ↔ 0 ∉ line := by
  rw [List.takeWhile_eq_self_iff]
  refine ⟨fun h hzero => ?_, fun h x hx => ?_⟩
  · have hne := h 0 hzero
    simp at hne
  · rw [decide_eq_true_eq]
    rintro rfl
    exact h hx

/-- A line reaches the queue whole or not at all exactly when the queue is full, or has room for the whole line,
which has no NUL in it, and for the CR. -/
theorem enters_whole_iff {c : UInt8} (hc : c = '\n'.toUInt8 ∨ c = '\r'.toUInt8) (allowReturnToICM : Bool)
    {t : Terminal σ} (ht : t.vdu.gAsScreenMode = true) :
    EntersWhole t ((monitorConsoleInput c allowReturnToICM).final t)
        ((monitorConsoleInput c allowReturnToICM).result t) ↔
      t.room = 0 ∨ 0 ∉ t.screenline ∧ t.screenline.length + 1 ≤ t.room := by
  obtain ⟨hresult, hfinal⟩ := monitorConsoleInput_line hc allowReturnToICM ht
  generalize (monitorConsoleInput c allowReturnToICM).result t = accepted at hresult ⊢
  generalize (monitorConsoleInput c allowReturnToICM).final t = t' at hfinal ⊢
  have hlength : t.entered.length = (t.screenline.takeWhile (· ≠ 0)).length + 1 := by
    rw [Terminal.entered, List.length_append, List.length_singleton]
  by_cases hfits : t.entered.length ≤ t.room
  · -- All that is offered is taken, so the line is whole when all of it is offered.
    rw [decide_eq_true hfits] at hresult
    rw [List.take_of_length_le hfits] at hfinal
    have hwhole : EntersWhole t t' accepted ↔ 0 ∉ t.screenline := by
      rw [← takeWhile_ne_zero_iff]
      constructor
      · intro h
        have hqueue := hfinal.symm.trans (h.whole hresult)
        rw [Terminal.entered, ← List.append_assoc] at hqueue
        exact List.append_cancel_left (List.append_cancel_right hqueue)
      · intro h
        refine ⟨fun _ => ?_, fun hfailed => ?_⟩
        · rw [hfinal, Terminal.entered, h, List.append_assoc]
        · rw [hresult] at hfailed
          cases hfailed
    rw [hwhole]
    refine ⟨fun h => .inr ⟨h, ?_⟩, fun h => ?_⟩
    · rw [hlength, (takeWhile_ne_zero_iff _).2 h] at hfits
      exact hfits
    · rcases h with hfull | ⟨hzero, -⟩
      · omega
      · exact hzero
  · -- Nothing is taken only where there is no room at all.
    rw [decide_eq_false hfits] at hresult
    have hnothing : EntersWhole t t' accepted ↔ t.room = 0 := by
      constructor
      · intro h
        have hqueue := congrArg List.length (hfinal.symm.trans (h.nothing hresult))
        rw [List.length_append, List.length_take] at hqueue
        omega
      · intro h
        refine ⟨fun haccepted => ?_, fun _ => ?_⟩
        · rw [hresult] at haccepted
          cases haccepted
        · rw [hfinal, h, List.take_zero, List.append_nil]
    rw [hnothing]
    refine ⟨.inl, fun h => ?_⟩
    rcases h with hfull | ⟨hzero, hlong⟩
    · exact hfull
    · rw [hlength, (takeWhile_ne_zero_iff _).2 hzero] at hfits
      exact absurd hlong hfits

/-- The display after an `A`. -/
def letterVdu : Vdu := [VduCall.resetDisplay 0, .vduPutc [] 'A'.toUInt8].foldl Vdu.step Vdu.powerUp

theorem screenMode_letterVdu : letterVdu.gAsScreenMode = true := by decide +kernel

theorem screenline_letterVdu : letterVdu.vduGetScreenline letterVdu.gCursor.row = ['A'.toUInt8] := by
  decide +kernel

/-- A terminal with that display, and `n` bytes that wait for the CPU. -/
def waitingTerminal (n : Fin 128) : Terminal RamDisk where
  firmware := { Firmware.start (.running fun _ => 0) (RamDisk.mounted fun _ => none) with
    cpu_tx_fifo := ⟨n, 0, fun _ => ' '.toUInt8⟩ }
  vdu := letterVdu
  gInterface := 1
  gInMonitor := true

theorem vdu_waitingTerminal (n : Fin 128) : (waitingTerminal n).vdu = letterVdu := by
  rw [waitingTerminal]

theorem screenMode_waitingTerminal (n : Fin 128) : (waitingTerminal n).vdu.gAsScreenMode = true := by
  rw [vdu_waitingTerminal]
  exact screenMode_letterVdu

theorem screenline_waitingTerminal (n : Fin 128) : (waitingTerminal n).screenline = ['A'.toUInt8] := by
  rw [Terminal.screenline, vdu_waitingTerminal]
  exact screenline_letterVdu

theorem room_waitingTerminal (n : Fin 128) : (waitingTerminal n).room = 127 - n.val := by
  rw [Terminal.room, Terminal.queue, Fifo.length_toList]
  show 127 - (n - 0).val = 127 - n.val
  rw [sub_zero]

/-- An empty queue takes the line. -/
theorem enters_whole_empty :
    EntersWhole (waitingTerminal 0) ((monitorConsoleInput '\r'.toUInt8 true).final (waitingTerminal 0))
      ((monitorConsoleInput '\r'.toUInt8 true).result (waitingTerminal 0)) := by
  refine (enters_whole_iff (.inr rfl) true (screenMode_waitingTerminal 0)).2 (.inr ?_)
  rw [screenline_waitingTerminal, room_waitingTerminal]
  decide

/-- A queue with room for one byte keeps the `A`, and the CR is lost. -/
theorem crowded_line_torn :
    (waitingTerminal 126).vdu.gAsScreenMode = true ∧
      ¬ EntersWhole (waitingTerminal 126) ((monitorConsoleInput '\r'.toUInt8 true).final (waitingTerminal 126))
        ((monitorConsoleInput '\r'.toUInt8 true).result (waitingTerminal 126)) := by
  refine ⟨screenMode_waitingTerminal 126, fun h => ?_⟩
  obtain ⟨hresult, hfinal⟩ :=
    monitorConsoleInput_line (.inr rfl) true (screenMode_waitingTerminal 126)
  have hentered : (waitingTerminal 126).entered = ['A'.toUInt8, '\r'.toUInt8] := by
    rw [Terminal.entered, screenline_waitingTerminal]
    decide
  rw [hentered, room_waitingTerminal] at hresult hfinal
  have hqueue := hfinal.symm.trans (h.nothing (hresult.trans (by decide)))
  have hnone := List.append_right_eq_self.1 hqueue
  exact absurd hnone (by decide)

end NeoMmu
