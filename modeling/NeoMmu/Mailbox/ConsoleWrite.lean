import NeoMmu.Foundation.Chunks
import NeoMmu.Mailbox.Completion
import NeoMmu.Mailbox.Console

/-!
# What a console WRITE loses

A WRITE copies its bytes to the VDU queue in chunks of 256, one chunk a poll, and `taskInput()` empties
the queue in between. The queue holds 127 bytes and `writeVDUQ()` drops what does not fit, so a WRITE
shows all its bytes exactly when no chunk has more than 127 that are not zero.
-/

namespace NeoMmu

variable {σ : Type}

/-! ## The queue -/

/-- Enough turns show what the queue holds and empty it. -/
theorem drainVDUQ_spec (turns : Nat) (f : Firmware σ) (hturns : f.vdu_tx_fifo.count < turns) :
    ∃ q : Fifo UInt8 128, q.toList = [] ∧ drainVDUQ turns f =
      { f with vdu_tx_fifo := q, vduOut := f.vduOut ++ f.vdu_tx_fifo.toList } := by
  induction turns generalizing f with
  | zero => exact absurd hturns (Nat.not_lt_zero _)
  | succ turns ih =>
    rw [← Fifo.length_toList] at hturns
    rcases f.vdu_tx_fifo.toList_pop with ⟨hnone, hlist⟩ | ⟨value, q, hsome, hlist⟩
    · refine ⟨f.vdu_tx_fifo, hlist, ?_⟩
      simp only [drainVDUQ, hnone, hlist, List.append_nil]
    · have hcount : q.count < turns := by
        rw [hlist, List.length_cons] at hturns
        rw [← Fifo.length_toList]
        omega
      obtain ⟨q', hempty, heq⟩ :=
        ih { f with vdu_tx_fifo := q, vduOut := f.vduOut ++ [value] } hcount
      refine ⟨q', hempty, ?_⟩
      simp only [drainVDUQ, hsome, heq, hlist, List.append_assoc, List.singleton_append]

/-- `taskInput()` shows what the queue holds and empties it. -/
theorem processVDUoutQ_spec (f : Firmware σ) : ∃ q : Fifo UInt8 128, q.toList = [] ∧
    processVDUoutQ f =
      { f with vdu_tx_fifo := q, vduOut := f.vduOut ++ f.vdu_tx_fifo.toList } :=
  drainVDUQ_spec 128 f f.vdu_tx_fifo.count_lt

/-- A chunk fills the queue with its bytes that are not zero. -/
theorem final_outputBytes (buffer : List UInt8) (f : Firmware σ) :
    (rpConsoleOutputBytes buffer).final f =
      { f with vdu_tx_fifo := (buffer.filter (· ≠ 0)).foldl Fifo.push f.vdu_tx_fifo } := by
  induction buffer generalizing f with
  | nil => rfl
  | cons c buffer ih =>
    simp only [rpConsoleOutputBytes, Prog.final_bind, writeVDUQ, Prog.final_modify, ih]
    by_cases hc : c = 0
    · simp [hc]
    · simp [hc]

/-! ## Rounds of the loop -/

/-- What the other tasks of the loop leave alone. -/
structure Others (f f' : Firmware σ) : Prop where
  settled : f'.hw.Settled
  mailbox_state : f'.mailbox_state = f.mailbox_state
  gConsoleCurrent : f'.gConsoleCurrent = f.gConsoleCurrent
  gConsoleRemaining : f'.gConsoleRemaining = f.gConsoleRemaining
  vdu_tx_fifo : f'.vdu_tx_fifo = f.vdu_tx_fifo
  vduOut : f'.vduOut = f.vduOut
  events : f'.events = f.events

/-- A round: other tasks, `taskInput()`, other tasks, and a poll whose state machine finds `data` in
memory at `a`. -/
def Round (ff : FatFs σ) (a : UInt16) (data : List UInt8) (f f' : Firmware σ) : Prop :=
  ∃ f₁ f₂, Others f f₁ ∧ Others (taskInput.final f₁) f₂ ∧
    (updateConsoleReady.final f₂).hw.view.bytes a data.length = data ∧
    f' = (taskMailbox ff).final f₂

/-- `k` rounds. -/
inductive Rounds (ff : FatFs σ) (a : UInt16) (data : List UInt8) : Nat → Firmware σ → Firmware σ → Prop
  | zero (f : Firmware σ) : Rounds ff a data 0 f f
  | succ {k : Nat} {f f₁ f' : Firmware σ} (first : Round ff a data f f₁)
      (rest : Rounds ff a data k f₁ f') : Rounds ff a data (k + 1) f f'

/-- What a WRITE has shown, or put in the queue to be shown. -/
def shown (f : Firmware σ) : List UInt8 := f.vduOut ++ f.vdu_tx_fifo.toList

/-- A WRITE under way, with the bytes `rest` of `data` still to be sent. -/
structure Sending (a : UInt16) (data rest : List UInt8) (f : Firmware σ) : Prop where
  mailbox_state : f.mailbox_state = .mbWRITE
  gConsoleCurrent : f.gConsoleCurrent = a + UInt16.ofNat (data.length - rest.length)
  gConsoleRemaining : f.gConsoleRemaining.toNat = rest.length
  suffix : rest = data.drop (data.length - rest.length)

theorem updateConsoleReady_spec (f : Firmware σ) :
    ∃ m last, (f.hw.Settled → m.Settled) ∧
      updateConsoleReady.final f = { f with hw := m, lastCheck := last } := by
  simp only [updateConsoleReady, Prog.final_bind, Prog.result_get, Prog.final_get, Prog.final_ite,
    Prog.final_pure, Prog.final_modify, onHw, Prog.final_on]
  split
  · exact ⟨_, _, fun hf => (snoopWrite6502MemoryLoc_spec hf _ _).2, rfl⟩
  · exact ⟨f.hw, f.lastCheck, id, rfl⟩

theorem toNat_consoleChunk (remaining : UInt16) :
    (consoleChunk remaining).toNat = min 256 remaining.toNat := by
  have hsize : RP_CONSOLE_CHUNK_SIZE.toNat = 256 := rfl
  rw [consoleChunk]
  split
  · rename_i h
    rw [UInt16.lt_iff_toNat_lt, hsize] at h
    rw [hsize]
    omega
  · rename_i h
    rw [UInt16.lt_iff_toNat_lt, hsize] at h
    omega

section Turns

variable (ff : FatFs σ) {f : Firmware σ}

/-- A turn that sends a chunk. -/
theorem mailboxFsm_write (hf : f.hw.Settled) (hstate : f.mailbox_state = .mbWRITE)
    (hremaining : f.gConsoleRemaining ≠ 0) : ∃ m, (mailboxFsm ff).final f = { f with
      hw := m
      vdu_tx_fifo := ((f.hw.view.bytes f.gConsoleCurrent (consoleChunk f.gConsoleRemaining).toNat).filter
        (· ≠ 0)).foldl Fifo.push f.vdu_tx_fifo
      gConsoleCurrent := f.gConsoleCurrent + consoleChunk f.gConsoleRemaining
      gConsoleRemaining := f.gConsoleRemaining - consoleChunk f.gConsoleRemaining } := by
  obtain ⟨hres, -, -⟩ :=
    snoopRead6502Memory_spec hf f.gConsoleCurrent (consoleChunk f.gConsoleRemaining)
  simp only [mailboxFsm, Prog.final_bind, Prog.result_get, Prog.final_get, hstate,
    rpConsoleIoProcessWrite, Prog.result_bind, if_pos hremaining, Prog.result_pure,
    Bool.false_eq_true, if_false, Prog.final_pure, Prog.final_modify, final_outputBytes, onHw,
    Prog.result_on, Prog.final_on, hres]
  exact ⟨_, rfl⟩

/-- The turn behind the last chunk publishes the result. -/
theorem mailboxFsm_write_last (hstate : f.mailbox_state = .mbWRITE)
    (hremaining : f.gConsoleRemaining = 0) : ∃ m, (mailboxFsm ff).final f = { f with
      hw := m
      mailbox_state := .mbDONE
      events := .result RP_DONE RP_ERR_OK :: f.events } := by
  simp only [mailboxFsm, Prog.final_bind, Prog.result_get, Prog.final_get, hstate,
    rpConsoleIoProcessWrite, Prog.result_bind, hremaining, ne_eq, not_true_eq_false, if_false,
    Prog.result_pure, if_true, Prog.final_pure, Prog.final_modify,
    rpMailboxSetDone, emit, onHw, Prog.final_on]
  exact ⟨_, rfl⟩

variable {a : UInt16} {data rest : List UInt8} {f' : Firmware σ}

/-- A round empties the queue and sends a chunk, of which 127 bytes find room. -/
theorem Sending.round (h : Sending a data rest f) (hround : Round ff a data f f') (hrest : rest ≠ []) :
    Sending a data (rest.drop 256) f' ∧ f'.events = f.events ∧
      shown f' = shown f ++ ((rest.take 256).filter (· ≠ 0)).take 127 := by
  obtain ⟨f₁, f₂, h₁, h₂, hmem, rfl⟩ := hround
  obtain ⟨q, hempty, hinput⟩ := processVDUoutQ_spec f₁
  rw [show taskInput.final f₁ = processVDUoutQ f₁ from rfl, hinput] at h₂
  obtain ⟨m, last, hm, hready⟩ := updateConsoleReady_spec f₂
  replace hm := hm h₂.settled
  rw [hready] at hmem
  simp only [taskMailbox, Prog.final_bind, hready]
  have hstate : f₂.mailbox_state = .mbWRITE :=
    (h₂.mailbox_state.trans h₁.mailbox_state).trans h.mailbox_state
  have hcurrent := (h₂.gConsoleCurrent.trans h₁.gConsoleCurrent).trans h.gConsoleCurrent
  have hremaining : f₂.gConsoleRemaining.toNat = rest.length := by
    rw [h₂.gConsoleRemaining, ← h.gConsoleRemaining, ← h₁.gConsoleRemaining]
  have hne : f₂.gConsoleRemaining ≠ 0 := by
    intro hzero
    rw [hzero] at hremaining
    exact hrest (List.length_eq_zero_iff.1 hremaining.symm)
  obtain ⟨m', hfin⟩ := mailboxFsm_write ff (f := { f₂ with hw := m, lastCheck := last }) hm hstate hne
  -- The chunk is the next part of `rest`.
  have hle : rest.length ≤ data.length := by
    have := congrArg List.length h.suffix
    rw [List.length_drop] at this
    omega
  have hchunk : (consoleChunk f₂.gConsoleRemaining).toNat = min 256 rest.length := by
    rw [toNat_consoleChunk, hremaining]
  have hbytes : m.view.bytes f₂.gConsoleCurrent (consoleChunk f₂.gConsoleRemaining).toNat =
      rest.take 256 := by
    have hrest : rest = m.view.bytes f₂.gConsoleCurrent rest.length := by
      have hdrop := m.view.drop_bytes a data.length (data.length - rest.length)
      rw [show m.view.bytes a data.length = data from hmem, ← h.suffix, ← hcurrent,
        Nat.sub_sub_self hle] at hdrop
      exact hdrop
    rw [hchunk, ← Machine.View.take_bytes _ _ (Nat.min_le_right 256 rest.length), ← hrest,
      List.take_eq_take_iff]
    omega
  rw [hfin]
  refine ⟨⟨hstate, ?_, ?_, ?_⟩, ?_, ?_⟩
  · have hsum : data.length - rest.length + min 256 rest.length =
        data.length - (rest.drop 256).length := by
      rw [List.length_drop]
      omega
    have hword : consoleChunk f₂.gConsoleRemaining = UInt16.ofNat (min 256 rest.length) := by
      rw [← hchunk, UInt16.ofNat_toNat]
    show f₂.gConsoleCurrent + consoleChunk f₂.gConsoleRemaining = _
    rw [hcurrent, hword, UInt16.add_assoc, ← UInt16.ofNat_add, hsum]
  · show (f₂.gConsoleRemaining - consoleChunk f₂.gConsoleRemaining).toNat = _
    rw [UInt16.toNat_sub_of_le _ _ (UInt16.le_iff_toNat_le.2 (by omega)), hremaining, hchunk,
      List.length_drop]
    omega
  · rcases Nat.lt_or_ge rest.length 256 with hlast | hmore
    · rw [List.drop_eq_nil_of_le (Nat.le_of_lt hlast), List.length_nil, Nat.sub_zero,
        List.drop_length]
    · have hnext : data.length - (rest.drop 256).length = data.length - rest.length + 256 := by
        rw [List.length_drop]
        omega
      rw [hnext, ← List.drop_drop, ← h.suffix]
  · exact h₂.events.trans h₁.events
  · have hcount : f₂.vdu_tx_fifo.count = 0 := by
      rw [← Fifo.length_toList, h₂.vdu_tx_fifo]
      exact List.length_eq_zero_iff.2 hempty
    have hqueue : f₂.vdu_tx_fifo.toList = [] := by
      rw [h₂.vdu_tx_fifo]
      exact hempty
    have hout : f₂.vduOut = shown f := by
      rw [h₂.vduOut, shown]
      simp only [h₁.vduOut, h₁.vdu_tx_fifo]
    simp only [shown, hbytes, Fifo.toList_foldl_push, hqueue, hcount, List.nil_append]
    rw [hout]
    rfl

/-- The round behind the last chunk empties the queue and completes the request. -/
theorem Sending.finish (h : Sending a data [] f) (hround : Round ff a data f f') :
    f'.mailbox_state = .mbDONE ∧ f'.events = .result RP_DONE RP_ERR_OK :: f.events ∧
      shown f' = shown f := by
  obtain ⟨f₁, f₂, h₁, h₂, -, rfl⟩ := hround
  obtain ⟨q, hempty, hinput⟩ := processVDUoutQ_spec f₁
  rw [show taskInput.final f₁ = processVDUoutQ f₁ from rfl, hinput] at h₂
  obtain ⟨m, last, -, hready⟩ := updateConsoleReady_spec f₂
  simp only [taskMailbox, Prog.final_bind, hready]
  have hstate : f₂.mailbox_state = .mbWRITE :=
    (h₂.mailbox_state.trans h₁.mailbox_state).trans h.mailbox_state
  have hremaining : f₂.gConsoleRemaining = 0 := by
    apply UInt16.toNat_inj.1
    rw [h₂.gConsoleRemaining]
    simpa [← h₁.gConsoleRemaining] using h.gConsoleRemaining
  obtain ⟨m', hfin⟩ := mailboxFsm_write_last ff (f := { f₂ with hw := m, lastCheck := last }) hstate
    hremaining
  rw [hfin]
  refine ⟨rfl, congrArg _ (h₂.events.trans h₁.events), ?_⟩
  simp only [shown, h₂.vduOut, h₂.vdu_tx_fifo, hempty, h₁.vduOut, h₁.vdu_tx_fifo, List.append_nil]

/-- A WRITE under way sends its chunks and completes, in one round for each and one more. -/
theorem Sending.run (h : Sending a data rest f)
    (hrounds : Rounds ff a data ((chunksOf 256 rest).length + 1) f f') :
    f'.mailbox_state = .mbDONE ∧ f'.events = .result RP_DONE RP_ERR_OK :: f.events ∧
      shown f' =
        shown f ++ ((chunksOf 256 rest).map (List.filter (· ≠ 0))).flatMap (List.take 127) := by
  fun_induction chunksOf 256 rest generalizing f with
  | case1 rest hrest =>
    obtain rfl : rest = [] := hrest.resolve_left (by decide)
    cases hrounds with
    | succ first others =>
      cases others with
      | zero =>
        obtain ⟨hstate, hevents, hshown⟩ := h.finish ff first
        exact ⟨hstate, hevents, by simpa using hshown⟩
  | case2 rest hrest ih =>
    rw [not_or] at hrest
    cases hrounds with
    | succ first others =>
      obtain ⟨hsending, hevents, hshown⟩ := h.round ff first hrest.2
      obtain ⟨hstate, hevents', hshown'⟩ := ih hsending others
      refine ⟨hstate, by rw [hevents', hevents], ?_⟩
      rw [hshown', hshown, List.append_assoc, List.map_cons, List.flatMap_cons]

end Turns

/-! ## A whole WRITE -/

/-- The firmware as its state machine finds a WRITE of `n` bytes at `a` in the block. -/
structure WriteRequested (a n : UInt16) (f : Firmware σ) : Prop where
  settled : f.hw.Settled
  idle : f.mailbox_state = .mbIDLE
  polled : f.hw.gMMUIOTrigger = true ∨ 250 ≤ f.lCount
  pending : f.hw.view.peek RP_DOORBELL ≠ RP_DOORBELL_NONE ∨ f.hw.view.peek RP_STATUS = RP_BUSY
  group : f.hw.view.peek RP_GROUP = RP_GROUP_CONSOLE
  cmd : f.hw.view.peek RP_CMD = RP_CON_CMD_WRITE
  target : f.hw.view.peek16 RP_ARG0L = a
  length : f.hw.view.peek16 RP_ARG1L = n

/-- The same of any command of the console. -/
structure ConsoleRequested (cmd : UInt8) (a n : UInt16) (f : Firmware σ) : Prop where
  settled : f.hw.Settled
  idle : f.mailbox_state = .mbIDLE
  polled : f.hw.gMMUIOTrigger = true ∨ 250 ≤ f.lCount
  pending : f.hw.view.peek RP_DOORBELL ≠ RP_DOORBELL_NONE ∨ f.hw.view.peek RP_STATUS = RP_BUSY
  group : f.hw.view.peek RP_GROUP = RP_GROUP_CONSOLE
  command : f.hw.view.peek RP_CMD = cmd
  target : f.hw.view.peek16 RP_ARG0L = a
  length : f.hw.view.peek16 RP_ARG1L = n

section Dispatch

variable {f : Firmware σ}

theorem WriteRequested.console {a n : UInt16} (h : WriteRequested a n f) : ConsoleRequested RP_CON_CMD_WRITE a n f :=
  ⟨h.settled, h.idle, h.polled, h.pending, h.group, h.cmd, h.target, h.length⟩

theorem requestPending_spec {m : Machine} (hm : m.Settled) :
    requestPending.result m = decide (m.view.peek RP_DOORBELL ≠ RP_DOORBELL_NONE ∨
        m.view.peek RP_STATUS = RP_BUSY) ∧
      (requestPending.final m).view = m.view ∧ (requestPending.final m).Settled := by
  obtain ⟨hdoorbell, hview₁, h₁⟩ := snoopRead6502MemoryLoc_spec hm RP_DOORBELL
  obtain ⟨hstatus, hview₂, h₂⟩ := snoopRead6502MemoryLoc_spec h₁ RP_STATUS
  rw [hview₁] at hstatus
  simp only [requestPending, Prog.result_bind, Prog.final_bind, Prog.result_ite, Prog.final_ite,
    Prog.result_pure, Prog.final_pure, hdoorbell, hstatus]
  split
  · rename_i hrung
    exact ⟨(decide_eq_true (.inl hrung)).symm, hview₁, h₁⟩
  · rename_i hquiet
    exact ⟨decide_eq_decide.2 (by rw [or_iff_right hquiet]), hview₂.trans hview₁, h₂⟩

/-- Clearing the result fields leaves the arguments. -/
theorem clearResultFields_spec {m : Machine} (hm : m.Settled) :
    let m' := rpMailboxClearResultFields.final m
    m'.Settled ∧ m'.view.peek16 RP_ARG0L = m.view.peek16 RP_ARG0L ∧
      m'.view.peek16 RP_ARG1L = m.view.peek16 RP_ARG1L := by
  obtain ⟨-, hsettled⟩ := stores_clearResultFields m hm
  have hpeek : ∀ i : UInt16, i ∈ [RP_ARG0L, RP_ARG0L + 1, RP_ARG1L, RP_ARG1L + 1] →
      (rpMailboxClearResultFields.final m).view.peek i = m.view.peek i := by
    intro i hi
    refine peek_clearResultFields hm ?_
    revert hi i
    decide
  refine ⟨hsettled, ?_, ?_⟩
  · rw [Machine.View.peek16, Machine.View.peek16, hpeek _ (by simp), hpeek _ (by simp)]
  · rw [Machine.View.peek16, Machine.View.peek16, hpeek _ (by simp), hpeek _ (by simp)]

theorem settled_acknowledge {m : Machine} (hm : m.Settled) : (Prog.final ackMMUIO m).Settled :=
  ⟨hm.started, hm.rpi, hm.reset, hm.cached⟩

variable (ff : FatFs σ) {a n : UInt16}

/-- The poll of `mbIDLE` hands the request to its handler. -/
theorem pollIdle_console {cmd : UInt8} {handler : Prog (Firmware σ) MailboxState}
    (hfind : rpFindMailboxCommand ff RP_GROUP_CONSOLE cmd = some handler) (h : ConsoleRequested cmd a n f) :
    ∃ m, m.Settled ∧ m.view.peek16 RP_ARG0L = a ∧ m.view.peek16 RP_ARG1L = n ∧
      let g : Firmware σ := { f with
        hw := m, lCount := 0, events := .dispatch RP_GROUP_CONSOLE cmd :: f.events }
      (mailboxFsm ff).final f = { handler.final g with mailbox_state := handler.result g } := by
  have hack := settled_acknowledge h.settled
  obtain ⟨hpending, hview₁, h₁⟩ := requestPending_spec hack
  obtain ⟨hgroup, hview₂, h₂⟩ := snoopRead6502MemoryLoc_spec h₁ RP_GROUP
  obtain ⟨hcmd, hview₃, h₃⟩ := snoopRead6502MemoryLoc_spec h₂ RP_CMD
  obtain ⟨h₄, harg0, harg1⟩ := clearResultFields_spec h₃
  have hview : ∀ i, (Prog.final ackMMUIO f.hw).view.peek i = f.hw.view.peek i := fun _ => rfl
  rw [hview, hview, decide_eq_true h.pending] at hpending
  rw [hview₁, hview, h.group] at hgroup
  rw [hview₂, hview₁, hview, h.command] at hcmd
  rw [hview₃, hview₂, hview₁] at harg0 harg1
  refine ⟨_, h₄, harg0.trans h.target, harg1.trans h.length, ?_⟩
  have hpolled : ¬ (f.hw.gMMUIOTrigger = false ∧ f.lCount < 250) := by
    rintro ⟨htrigger, hcount⟩
    rcases h.polled with htrue | hlong
    · rw [htrigger] at htrue
      cases htrue
    · exact UInt16.not_lt.2 hlong hcount
  simp only [mailboxFsm, Prog.final_bind, Prog.result_get, Prog.final_get, h.idle, pollIdle,
    if_neg hpolled, Prog.final_modify, onHw, Prog.final_on, Prog.result_on, hpending, if_true,
    rpMailboxDispatchCurrentRequest, Prog.result_bind, hgroup, hcmd, emit,
    rpDispatchMailboxCommand, hfind]

/-- A WRITE of some bytes is under way after its poll. -/
theorem dispatch_write (h : WriteRequested a n f) (hn : n ≠ 0) {data : List UInt8}
    (hdata : data.length = n.toNat) : Sending a data data ((mailboxFsm ff).final f) ∧
      ((mailboxFsm ff).final f).events =
        .dispatch RP_GROUP_CONSOLE RP_CON_CMD_WRITE :: f.events ∧
      shown ((mailboxFsm ff).final f) = shown f := by
  obtain ⟨m, hm, harg0, harg1, hfin⟩ := pollIdle_console ff rfl h.console
  obtain ⟨htarget, hview, h₁⟩ := rpRead16_spec hm RP_ARG0L
  obtain ⟨hlen, -, -⟩ := rpRead16_spec h₁ RP_ARG1L
  rw [harg0] at htarget
  rw [hview, harg1] at hlen
  rw [hfin]
  simp only [rpConsoleIoHandleWrite, Prog.result_bind, Prog.final_bind, onHw, Prog.result_on,
    Prog.final_on, htarget, hlen, Prog.final_modify, if_neg hn, Prog.result_pure, Prog.final_pure]
  generalize (rpRead16 RP_ARG1L).final _ = m₂
  refine ⟨⟨rfl, ?_, hdata.symm, ?_⟩, trivial, rfl⟩
  · simp
  · simp

/-- A WRITE of nothing is completed by its poll. -/
theorem dispatch_write_zero (h : WriteRequested a 0 f) :
    ((mailboxFsm ff).final f).mailbox_state = .mbDONE ∧
      ((mailboxFsm ff).final f).events = .result RP_DONE RP_ERR_OK ::
        .dispatch RP_GROUP_CONSOLE RP_CON_CMD_WRITE :: f.events ∧
      shown ((mailboxFsm ff).final f) = shown f := by
  obtain ⟨m, hm, harg0, harg1, hfin⟩ := pollIdle_console ff rfl h.console
  obtain ⟨htarget, hview, h₁⟩ := rpRead16_spec hm RP_ARG0L
  obtain ⟨hlen, -, -⟩ := rpRead16_spec h₁ RP_ARG1L
  rw [harg0] at htarget
  rw [hview, harg1] at hlen
  rw [hfin]
  simp only [rpConsoleIoHandleWrite, Prog.result_bind, Prog.final_bind, onHw, Prog.result_on,
    Prog.final_on, htarget, hlen, Prog.final_modify, if_true, Prog.result_pure, Prog.final_pure,
    rpMailboxSetDone, emit, shown, and_self]

end Dispatch

/-- The rounds from the poll that takes a WRITE to the one that completes it: one for each chunk and
one for the result. -/
def roundsOf (data : List UInt8) : Nat :=
  if data = [] then 0 else (chunksOf 256 data).length + 1

/-- No chunk has more bytes to show than the queue holds. -/
def ChunksFit (data : List UInt8) : Prop :=
  ∀ chunk ∈ chunksOf 256 data, (chunk.filter (· ≠ 0)).length ≤ 127

/-- A console WRITE completes, and what it has shown by then or has in the queue is, of each chunk, the
first 127 bytes that are not zero. -/
theorem consoleWrite_shown (ff : FatFs σ) {a : UInt16} {data : List UInt8} {f₀ f : Firmware σ}
    (hlen : data.length < 65536)
    (h : WriteRequested a (UInt16.ofNat data.length) (updateConsoleReady.final f₀))
    (hrounds : Rounds ff a data (roundsOf data) ((taskMailbox ff).final f₀) f) :
    f.events = .result RP_DONE RP_ERR_OK ::
        .dispatch RP_GROUP_CONSOLE RP_CON_CMD_WRITE :: f₀.events ∧
      shown f =
        shown f₀ ++ ((chunksOf 256 data).map (List.filter (· ≠ 0))).flatMap (List.take 127) := by
  obtain ⟨m, last, -, hready⟩ := updateConsoleReady_spec f₀
  have hevents₀ : (updateConsoleReady.final f₀).events = f₀.events := by rw [hready]
  have hshown₀ : shown (updateConsoleReady.final f₀) = shown f₀ := by rw [hready]; rfl
  simp only [taskMailbox, Prog.final_bind] at hrounds
  by_cases hdata : data = []
  · subst hdata
    cases hrounds with
    | zero =>
      obtain ⟨-, hevents, hshown⟩ := dispatch_write_zero ff h
      refine ⟨by rw [hevents, hevents₀], ?_⟩
      rw [hshown, hshown₀, chunksOf_nil]
      simp
  · have hword : (UInt16.ofNat data.length).toNat = data.length := UInt16.toNat_ofNat_of_lt' hlen
    have hne : UInt16.ofNat data.length ≠ 0 := by
      intro hzero
      rw [hzero] at hword
      exact hdata (List.length_eq_zero_iff.1 hword.symm)
    obtain ⟨hsending, hevents, hshown⟩ := dispatch_write ff h hne hword.symm
    rw [roundsOf, if_neg hdata] at hrounds
    obtain ⟨-, hevents', hshown'⟩ := hsending.run ff hrounds
    exact ⟨by rw [hevents', hevents, hevents₀], by rw [hshown', hshown, hshown₀]⟩

/-- A console WRITE completes, and when it has and the queue is empty, what has been shown is the bytes
of the request that are not zero exactly when its chunks fit into the queue. -/
theorem consoleWrite_lossless_iff (ff : FatFs σ) {a : UInt16} {data : List UInt8} {f₀ f f' : Firmware σ}
    (hlen : data.length < 65536)
    (h : WriteRequested a (UInt16.ofNat data.length) (updateConsoleReady.final f₀))
    (hrounds : Rounds ff a data (roundsOf data) ((taskMailbox ff).final f₀) f) (hothers : Others f f') :
    f'.events = .result RP_DONE RP_ERR_OK ::
        .dispatch RP_GROUP_CONSOLE RP_CON_CMD_WRITE :: f₀.events ∧
      (taskInput.final f').vdu_tx_fifo.toList = [] ∧
      ((taskInput.final f').vduOut =
          f₀.vduOut ++ f₀.vdu_tx_fifo.toList ++ data.filter (· ≠ 0) ↔ ChunksFit data) := by
  obtain ⟨hevents, hshown⟩ := consoleWrite_shown ff hlen h hrounds
  obtain ⟨q, hempty, hinput⟩ := processVDUoutQ_spec f'
  have hout : (taskInput.final f').vduOut = shown f := by
    rw [show taskInput.final f' = processVDUoutQ f' from rfl, hinput, shown, hothers.vduOut,
      hothers.vdu_tx_fifo]
  refine ⟨hothers.events.trans hevents, ?_, ?_⟩
  · rw [show taskInput.final f' = processVDUoutQ f' from rfl, hinput]
    exact hempty
  have hpieces := flatMap_take_eq_iff 127 ((chunksOf 256 data).map (List.filter (· ≠ 0)))
  rw [← List.filter_flatten, flatten_chunksOf (by decide)] at hpieces
  rw [hout, hshown, shown, List.append_cancel_left_eq, hpieces, ChunksFit, List.forall_mem_map]

/-! ## One chunk -/

theorem Others.refl {f : Firmware σ} (hf : f.hw.Settled) : Others f f :=
  ⟨hf, rfl, rfl, rfl, rfl, rfl, rfl⟩

/-- A turn of the loop in which the other tasks do nothing. -/
def turn (f : Firmware RamDisk) : Firmware RamDisk :=
  (taskMailbox RamDisk.fatFs).final (taskInput.final f)

theorem round_turn {f : Firmware RamDisk} {a : UInt16} {data : List UInt8} (hf : f.hw.Settled)
    (hinput : (taskInput.final f).hw.Settled)
    (hmem : (updateConsoleReady.final (taskInput.final f)).hw.view.bytes a data.length = data) :
    Round RamDisk.fatFs a data f (turn f) :=
  ⟨f, taskInput.final f, Others.refl hf, Others.refl hinput, hmem, rfl⟩

/-- A client asks for `n` bytes from `2000` to be shown, where the memory holds the letter A. -/
def echoFirmware (n : UInt8) : Firmware RamDisk :=
  { Firmware.start (σ := RamDisk)
      { Machine.running fun cell => if cell.1 = 2 then 'A'.toUInt8 else (List.lookup cell
          [((0x0E, 0x010), 1), ((0x0B, 0x000), RP_GROUP_CONSOLE), ((0x0B, 0x001), RP_CON_CMD_WRITE),
           ((0x0B, 0x007), 0x20), ((0x0B, 0x008), n)]).getD 0 with gMMUIOTrigger := true }
      (RamDisk.mounted fun _ => none) with mailbox_state := .mbIDLE }

theorem roundsOf_short {data : List UInt8} (hne : data ≠ []) (hlen : data.length ≤ 256) :
    roundsOf data = 2 := by
  rw [roundsOf, if_neg hne, chunksOf_short hne hlen]
  rfl

/-- The poll that finds the request. -/
def taken (n : UInt8) : Firmware RamDisk := (taskMailbox RamDisk.fatFs).final (echoFirmware n)

/-- 128 letters are requested and two rounds complete the request, but only 127 are shown. -/
theorem echo128_loses_one :
    WriteRequested 0x2000 128 (updateConsoleReady.final (echoFirmware 128)) ∧
      Rounds RamDisk.fatFs 0x2000 (List.replicate 128 'A'.toUInt8) 2 (taken 128)
        (turn (turn (taken 128))) ∧
      (turn (turn (taken 128))).events.head? = some (.result RP_DONE RP_ERR_OK) ∧
      (taskInput.final (turn (turn (taken 128)))).vduOut = List.replicate 127 'A'.toUInt8 := by
  refine ⟨⟨by decide +kernel, rfl, .inl rfl, .inl (by decide +kernel), by decide +kernel,
    by decide +kernel, by decide +kernel, by decide +kernel⟩, ?_, by decide +kernel, by decide +kernel⟩
  refine .succ (round_turn (by decide +kernel) (by decide +kernel) (by decide +kernel)) ?_
  exact .succ (round_turn (by decide +kernel) (by decide +kernel) (by decide +kernel)) (.zero _)

/-- Two letters are both shown. -/
theorem echo2_lossless :
    (taskInput.final (turn (turn (taken 2)))).vduOut = ['A'.toUInt8, 'A'.toUInt8] := by
  have hrounds : Rounds RamDisk.fatFs 0x2000 ['A'.toUInt8, 'A'.toUInt8] 2 (taken 2)
      (turn (turn (taken 2))) := by
    refine .succ (round_turn (by decide +kernel) (by decide +kernel) (by decide +kernel)) ?_
    exact .succ (round_turn (by decide +kernel) (by decide +kernel) (by decide +kernel)) (.zero _)
  have htwo : roundsOf ['A'.toUInt8, 'A'.toUInt8] = 2 := roundsOf_short (by simp) (by simp)
  rw [← htwo] at hrounds
  obtain ⟨-, -, hiff⟩ := consoleWrite_lossless_iff RamDisk.fatFs (by simp)
    ⟨by decide +kernel, rfl, .inl rfl, .inl (by decide +kernel), by decide +kernel,
      by decide +kernel, by decide +kernel, by decide +kernel⟩
    hrounds (Others.refl (by decide +kernel))
  refine hiff.2 fun chunk hchunk => ?_
  rw [chunksOf_short (by simp) (by simp), List.mem_singleton] at hchunk
  subst hchunk
  decide

end NeoMmu
