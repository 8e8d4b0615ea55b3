import NeoMmu.Mailbox.Console

/-!
# What the console takes from the CPU queue

`rp_console_input_bytes()` takes bytes until it has as many as it may or meets a zero, which is also what
`readCPUQ()` returns when the queue is empty.
-/

namespace NeoMmu

variable {σ : Type}

/-- `writeCPUQ()` appends a byte, unless the queue is full. -/
theorem writeCPUQ_spec (c : UInt8) (f : Firmware σ) :
    (f.cpu_tx_fifo.isFull = true ∧ (writeCPUQ c).result f = false ∧ (writeCPUQ c).final f = f) ∨
      f.cpu_tx_fifo.isFull = false ∧ (writeCPUQ c).result f = true ∧
        ∃ q, q.toList = f.cpu_tx_fifo.toList ++ [c] ∧
          (writeCPUQ c).final f = { f with cpu_tx_fifo := q } := by
  simp only [writeCPUQ, Prog.result_bind, Prog.final_bind, Prog.result_get, Prog.final_get, Prog.result_ite,
    Prog.final_ite, Prog.result_pure, Prog.final_pure, Prog.final_modify]
  by_cases hfull : f.cpu_tx_fifo.isFull = true
  · rw [if_pos hfull, if_pos hfull]
    exact .inl ⟨hfull, rfl, rfl⟩
  · rw [if_neg hfull, if_neg hfull]
    rw [Bool.not_eq_true] at hfull
    refine .inr ⟨hfull, rfl, _, ?_, rfl⟩
    rw [Fifo.toList_push, if_neg]
    rwa [← Fifo.isFull_iff, Bool.not_eq_true]

/-- Whether or not there was room for the byte, the queue is not empty behind it. -/
theorem isEmpty_writeCPUQ (c : UInt8) (f : Firmware σ) :
    ((writeCPUQ c).final f).cpu_tx_fifo.isEmpty = false := by
  rw [← Bool.not_eq_true, Fifo.isEmpty_iff]
  rcases writeCPUQ_spec c f with ⟨hfull, -, hfinal⟩ | ⟨-, -, q, hq, hfinal⟩
  · rw [hfinal]
    intro hempty
    rw [Fifo.isFull_iff, ← Fifo.length_toList, hempty] at hfull
    cases hfull
  · rw [hfinal, hq]
    simp

/-- What `readCPUQ()` gives is the oldest byte of the queue, or zero. -/
theorem readCPUQ_spec (f : Firmware σ) :
    (f.cpu_tx_fifo.toList = [] ∧ readCPUQ.result f = 0 ∧ readCPUQ.final f = f) ∨
      ∃ c q, f.cpu_tx_fifo.toList = c :: q.toList ∧ readCPUQ.result f = c ∧
        readCPUQ.final f = { f with cpu_tx_fifo := q } := by
  rcases f.cpu_tx_fifo.toList_pop with ⟨hnone, hempty⟩ | ⟨c, q, hsome, hlist⟩
  · left
    simp only [readCPUQ, Prog.result_bind, Prog.final_bind, Prog.result_get, Prog.final_get, hnone,
      Prog.result_pure, Prog.final_pure]
    exact ⟨hempty, trivial, trivial⟩
  · right
    refine ⟨c, q, hlist, ?_⟩
    simp only [readCPUQ, Prog.result_bind, Prog.final_bind, Prog.result_get, Prog.final_get, hsome,
      Prog.result_pure, Prog.final_pure, Prog.final_modify, and_self]

/-- The bytes in front of the first zero, as many as there is room for. -/
theorem result_inputBytes (n : Nat) (f : Firmware σ) : (rpConsoleInputBytes n).result f =
    (f.cpu_tx_fifo.toList.take n).takeWhile (· ≠ 0) := by
  induction n generalizing f with
  | zero => rfl
  | succ n ih =>
    rw [rpConsoleInputBytes, Prog.result_bind]
    rcases readCPUQ_spec f with ⟨hempty, hres, hfinal⟩ | ⟨c, q, hlist, hres, hfinal⟩
    · rw [hempty, hres]
      rfl
    · rw [hlist, hres, hfinal, List.take_succ_cons]
      by_cases hc : c = 0
      · subst hc
        rfl
      · rw [if_neg hc, List.takeWhile_cons_of_pos (by simpa using hc), Prog.result_bind, ih]
        rfl

/-- A queue without zeros loses what is taken from it. -/
theorem final_inputBytes (n : Nat) (f : Firmware σ) (hf : ∀ c ∈ f.cpu_tx_fifo.toList, c ≠ 0) :
    ∃ q, q.toList = f.cpu_tx_fifo.toList.drop n ∧
      (rpConsoleInputBytes n).final f = { f with cpu_tx_fifo := q } := by
  induction n generalizing f with
  | zero => exact ⟨f.cpu_tx_fifo, rfl, rfl⟩
  | succ n ih =>
    rw [rpConsoleInputBytes, Prog.final_bind]
    rcases readCPUQ_spec f with ⟨hempty, hres, hfinal⟩ | ⟨c, q, hlist, hres, hfinal⟩
    · rw [hres, hfinal, if_pos rfl, hempty]
      exact ⟨f.cpu_tx_fifo, hempty, rfl⟩
    · rw [hlist, List.forall_mem_cons] at hf
      rw [hres, hfinal, if_neg hf.1, Prog.final_bind, Prog.final_pure, hlist]
      exact ih { f with cpu_tx_fifo := q } hf.2

end NeoMmu
