import NeoMmu.Mailbox.BootContext
import NeoMmu.Mailbox.ConsoleInput
import NeoMmu.Mailbox.IrqRequests

/-!
# The console-ready byte

`taskMailbox()` writes `RP_CONSOLE_RDY` only when the CPU queue has become empty, or has stopped being so, since
the call before: `lastCheck` remembers. `initMailbox()` clears the byte and not what is remembered, so behind a
reset with input waiting the byte says that there is none, and goes on saying so until the queue has run empty.
-/

namespace NeoMmu

variable {σ α : Type}

/-- The byte that tells whether a queue is empty. -/
def readyByte (empty : Bool) : UInt8 := if empty then 0 else 1

/-- `RP_CONSOLE_RDY`, as the bus shows it. -/
def Firmware.consoleReady (f : Firmware σ) : UInt8 := f.hw.view.peek RP_CONSOLE_RDY

/-- The board stays settled, and the byte and what is remembered of the queue are those before. -/
def ReadyKept (f f' : Firmware σ) : Prop :=
  f.hw.Settled → f'.hw.Settled ∧ f'.consoleReady = f.consoleReady ∧ f'.lastCheck = f.lastCheck

instance : Std.Refl (ReadyKept (σ := σ)) where
  refl _ := fun hf => ⟨hf, rfl, rfl⟩

instance : IsTrans (Firmware σ) ReadyKept where
  trans _ _ _ h h' := by
    intro hf
    obtain ⟨hf₁, hready, hlast⟩ := h hf
    obtain ⟨hf₂, hready', hlast'⟩ := h' hf₁
    exact ⟨hf₂, hready'.trans hready, hlast'.trans hlast⟩

/-- A cell other than that of the byte under every mapping. -/
def Beside (a : UInt16) : Prop := RP_CONSOLE_RDY &&& 0x0FFF ≠ a &&& 0x0FFF

instance (a : UInt16) : Decidable (Beside a) := inferInstanceAs (Decidable (_ ≠ _))

/-! ## What leaves the byte alone -/

section Kept

variable {f f' : Firmware σ}

theorem readyKept_of_eq (hhw : f'.hw = f.hw) (hlast : f'.lastCheck = f.lastCheck) : ReadyKept f f' := by
  intro hf
  rw [Firmware.consoleReady, Firmware.consoleReady, hhw]
  exact ⟨hf, rfl, hlast⟩

theorem readyKept_emit (e : Event) : Prog.Keeps (ReadyKept (σ := σ)) (emit e) :=
  Prog.Keeps.modify fun _ => readyKept_of_eq rfl rfl

/-- Stores to other cells. -/
theorem readyKept_writes (ws : List (UInt16 × UInt8)) (hlast : f'.lastCheck = f.lastCheck)
    (hws : ∀ w ∈ ws, f.hw.view.physAddr w.1 ≠ f.hw.view.physAddr RP_CONSOLE_RDY)
    (h : f.hw.Settled → f'.hw.view = f.hw.view.writes ws ∧ f'.hw.Settled) : ReadyKept f f' := by
  intro hf
  obtain ⟨hview, hf'⟩ := h hf
  refine ⟨hf', ?_, hlast⟩
  rw [Firmware.consoleReady, hview, f.hw.view.writes_eq_self ws]
  exact f.hw.view.ram_writes_of_ne hws

theorem readyKept_onHw {p : Prog Machine α}
    (h : ∀ m : Machine, m.Settled → (p.final m).view = m.view ∧ (p.final m).Settled) :
    Prog.Keeps (ReadyKept (σ := σ)) (onHw p) :=
  fun f => readyKept_writes [] rfl (by simp) (h f.hw)

theorem readyKept_stores {p : Prog Machine Unit} {ws : List (UInt16 × UInt8)} (hp : Stores p ws)
    (hws : ∀ w ∈ ws, Beside w.1) : Prog.Keeps (ReadyKept (σ := σ)) (onHw p) :=
  fun f => readyKept_writes ws rfl (fun w hw heq => hws w hw (congrArg Prod.snd heq).symm) (hp f.hw)

theorem readyKept_read (a : UInt16) :
    Prog.Keeps (ReadyKept (σ := σ)) (onHw (snoopRead6502MemoryLoc a)) :=
  readyKept_onHw fun _ hm => (snoopRead6502MemoryLoc_spec hm a).2

theorem readyKept_rpRead16 (a : UInt16) : Prog.Keeps (ReadyKept (σ := σ)) (onHw (rpRead16 a)) :=
  readyKept_onHw fun _ hm => (rpRead16_spec hm a).2

theorem readyKept_write {a : UInt16} (ha : Beside a) (b : UInt8) :
    Prog.Keeps (ReadyKept (σ := σ)) (onHw (snoopWrite6502MemoryLoc a b)) :=
  readyKept_stores (stores_snoopWrite a b) fun w hw => by
    rw [List.mem_singleton.1 hw]
    exact ha

theorem readyKept_publish (res0 res1 : UInt16) (err flags status : UInt8) :
    Prog.Keeps (ReadyKept (σ := σ)) (onHw (rpMailboxPublish res0 res1 err flags status)) := by
  obtain ⟨ws, hstores, hws⟩ := stores_reply res0 res1 err flags status
  refine readyKept_stores hstores fun w hw => ?_
  have hbeside : ∀ a ∈ replyAddresses, Beside a := by decide
  exact hbeside w.1 (hws w hw)

theorem readyKept_setDone (result : UInt16) (flags : UInt8) :
    Prog.Keeps (ReadyKept (σ := σ)) (rpMailboxSetDone result flags) :=
  (readyKept_emit _).bind fun _ => readyKept_publish _ _ _ _ _

theorem readyKept_setError (err : UInt8) (partialResult : UInt16) :
    Prog.Keeps (ReadyKept (σ := σ)) (rpMailboxSetError err partialResult) :=
  (readyKept_emit _).bind fun _ => readyKept_publish _ _ _ _ _

theorem readyKept_readCPUQ : Prog.Keeps (ReadyKept (σ := σ)) readCPUQ := by
  refine Prog.Keeps.get.bind fun f => ?_
  split
  · exact Prog.Keeps.pure 0
  · exact Prog.Keeps.bind (Prog.Keeps.modify fun _ => readyKept_of_eq rfl rfl) fun _ => Prog.Keeps.pure _

theorem readyKept_writeCPUQ (c : UInt8) : Prog.Keeps (ReadyKept (σ := σ)) (writeCPUQ c) := by
  intro f
  obtain ⟨q, hfinal⟩ := final_writeCPUQ c f
  rw [hfinal]
  exact readyKept_of_eq rfl rfl

theorem readyKept_inputBytes (n : Nat) :
    Prog.Keeps (ReadyKept (σ := σ)) (rpConsoleInputBytes n) := by
  induction n with
  | zero => exact Prog.Keeps.pure []
  | succ n ih =>
    refine readyKept_readCPUQ.bind fun c => Prog.Keeps.ite (fun _ => Prog.Keeps.pure []) fun _ => ?_
    exact ih.bind fun _ => Prog.Keeps.pure _

theorem readyKept_writeVDUQ (c : UInt8) : Prog.Keeps (ReadyKept (σ := σ)) (writeVDUQ c) := by
  refine Prog.Keeps.modify fun f => ?_
  split
  · exact readyKept_of_eq rfl rfl
  · exact refl f

theorem readyKept_outputBytes (buffer : List UInt8) :
    Prog.Keeps (ReadyKept (σ := σ)) (rpConsoleOutputBytes buffer) := by
  induction buffer with
  | nil => exact Prog.Keeps.pure ()
  | cons c buffer ih => exact (readyKept_writeVDUQ c).bind fun _ => ih

/-! ## Simple I/O -/

theorem readyKept_taskSimple : Prog.Keeps (ReadyKept (σ := σ)) taskSimpleIO := by
  have hgetchar : Prog.Keeps (ReadyKept (σ := σ)) simpleGetchar := by
    refine (readyKept_read _).bind fun _ => Prog.Keeps.ite (fun _ => ?_) fun _ => Prog.Keeps.pure ()
    refine readyKept_readCPUQ.bind fun c => Prog.Keeps.ite (fun _ => ?_) fun _ => Prog.Keeps.pure ()
    exact readyKept_write (by decide) c
  have hputchar : Prog.Keeps (ReadyKept (σ := σ)) simplePutchar := by
    refine Prog.Keeps.get.bind fun f => Prog.Keeps.ite (fun _ => ?_) fun _ => Prog.Keeps.pure ()
    refine (readyKept_read _).bind fun c => Prog.Keeps.ite (fun _ => ?_) fun _ => Prog.Keeps.pure ()
    exact (readyKept_writeVDUQ c).bind fun _ => readyKept_write (by decide) 0
  refine Prog.Keeps.get.bind fun f => Prog.Keeps.ite (fun _ => ?_) fun _ => Prog.Keeps.pure ()
  exact hgetchar.bind fun _ => hputchar

end Kept

/-! ## The state machine -/

section StateMachine

variable (ff : FatFs σ) {f : Firmware σ}

/-- What a poll dispatches is no filesystem request. -/
def Firmware.ConsoleOnly (f : Firmware σ) : Prop :=
  f.mailbox_state = .mbIDLE → f.exchange.Rings → f.hw.view.peek RP_GROUP ≠ RP_GROUP_FS

/-- The bytes a READ stores in this poll go to other cells. -/
def Firmware.Spares (f : Firmware σ) : Prop :=
  f.mailbox_state = .mbREAD →
    ∀ i < ((f.cpu_tx_fifo.toList.take f.gConsoleLen.toNat).takeWhile (· ≠ 0)).length,
      f.hw.view.physAddr (f.gConsoleTarget + UInt16.ofNat i) ≠ f.hw.view.physAddr RP_CONSOLE_RDY

theorem readyKept_handleWrite : Prog.Keeps (ReadyKept (σ := σ)) rpConsoleIoHandleWrite := by
  refine (readyKept_rpRead16 _).bind fun target => (readyKept_rpRead16 _).bind fun len => ?_
  refine Prog.Keeps.bind (Prog.Keeps.modify fun _ => readyKept_of_eq rfl rfl) fun _ => ?_
  refine Prog.Keeps.ite (fun _ => ?_) fun _ => ?_
  · exact (readyKept_setDone 0 0).bind fun _ => Prog.Keeps.pure _
  · exact Prog.Keeps.bind (Prog.Keeps.modify fun _ => readyKept_of_eq rfl rfl) fun _ => Prog.Keeps.pure _

theorem readyKept_handleRead : Prog.Keeps (ReadyKept (σ := σ)) rpConsoleIoHandleRead := by
  refine (readyKept_rpRead16 _).bind fun target => (readyKept_rpRead16 _).bind fun len => ?_
  refine Prog.Keeps.bind (Prog.Keeps.modify fun _ => readyKept_of_eq rfl rfl) fun _ => ?_
  refine Prog.Keeps.ite (fun _ => ?_) fun _ => ?_
  · exact (readyKept_setDone 0 0).bind fun _ => Prog.Keeps.pure _
  · exact Prog.Keeps.bind (Prog.Keeps.modify fun _ => readyKept_of_eq rfl rfl) fun _ => Prog.Keeps.pure _

theorem readyKept_dispatchCommand {group cmd : UInt8} (hgroup : group ≠ RP_GROUP_FS) :
    Prog.Keeps ReadyKept (rpDispatchMailboxCommand ff group cmd) := by
  have hclear : Prog.Keeps (ReadyKept (σ := σ)) (onHw rpMailboxClearResultFields) :=
    readyKept_stores stores_clearResultFields (by decide)
  unfold rpDispatchMailboxCommand
  split
  · exact (readyKept_setError _ _).bind fun _ => Prog.Keeps.pure _
  · rename_i handler hfind
    simp only [rpFindMailboxCommand, gMailboxCommands, List.lookup_cons, List.lookup_nil] at hfind
    split at hfind
    · obtain rfl := Option.some.inj hfind
      exact hclear.bind fun _ => readyKept_handleWrite
    split at hfind
    · obtain rfl := Option.some.inj hfind
      exact hclear.bind fun _ => readyKept_handleRead
    split at hfind
    · rename_i hfs
      rw [beq_iff_eq, Prod.mk.injEq] at hfs
      exact absurd hfs.1 hgroup
    · cases hfind

/-- What is dispatched is what the block names. -/
theorem readyKept_dispatch (hgroup : f.hw.view.peek RP_GROUP ≠ RP_GROUP_FS) :
    ReadyKept f ((rpMailboxDispatchCurrentRequest ff).final f) := by
  intro hf
  obtain ⟨hres, hview, hsettled⟩ := snoopRead6502MemoryLoc_spec hf RP_GROUP
  have hrest : ∀ group, group ≠ RP_GROUP_FS → Prog.Keeps ReadyKept (do
      let cmd ← onHw (snoopRead6502MemoryLoc RP_CMD)
      emit (.dispatch group cmd)
      rpDispatchMailboxCommand ff group cmd : Prog (Firmware σ) MailboxState) := by
    intro group hne
    refine (readyKept_read _).bind fun cmd => ?_
    exact (readyKept_emit _).bind fun _ => readyKept_dispatchCommand ff hne
  have hread : (onHw (snoopRead6502MemoryLoc RP_GROUP)).result f = f.hw.view.peek RP_GROUP := by
    rw [onHw, Prog.result_on, hres]
  rw [rpMailboxDispatchCurrentRequest, Prog.final_bind, hread]
  exact trans_of ReadyKept (readyKept_read RP_GROUP f) (hrest _ hgroup _) hf

theorem readyKept_pollIdle (hconsole : f.ConsoleOnly) (hstate : f.mailbox_state = .mbIDLE) :
    ReadyKept f ((pollIdle ff).final f) := by
  intro hf
  obtain ⟨hpending, hview, hsettled⟩ := requestPending_spec (settled_acknowledge hf)
  have hack : (Prog.final ackMMUIO f.hw).view = f.hw.view := rfl
  rw [hack] at hpending hview
  simp only [pollIdle, Prog.final_bind, Prog.result_get, Prog.final_get, Prog.final_ite,
    Prog.final_modify, Prog.final_pure, onHw, Prog.final_on, Prog.result_on, hpending]
  generalize requestPending.final (Prog.final ackMMUIO f.hw) = m at hview hsettled ⊢
  split
  · exact ⟨hf, rfl, rfl⟩
  generalize hg : Firmware.mk m _ _ _ _ _ _ _ _ _ _ _ _ _ _ _ _ = g
  have hhw : g.hw = m := by rw [← hg]
  have hkept : ReadyKept f g := by
    refine fun _ => ⟨hhw ▸ hsettled, ?_, ?_⟩
    · rw [Firmware.consoleReady, hhw, hview, Firmware.consoleReady]
    · rw [← hg]
  split
  · rename_i hrings
    have hgroup : g.hw.view.peek RP_GROUP ≠ RP_GROUP_FS := by
      rw [hhw, hview]
      exact hconsole hstate (of_decide_eq_true hrings)
    exact trans_of ReadyKept hkept (readyKept_dispatch ff hgroup) hf
  · exact hkept hf

theorem readyKept_processWrite : Prog.Keeps (ReadyKept (σ := σ)) rpConsoleIoProcessWrite := by
  refine Prog.Keeps.get.bind fun f => Prog.Keeps.ite (fun _ => ?_) fun _ => ?_
  · refine Prog.Keeps.bind (readyKept_onHw fun _ hm => (snoopRead6502Memory_spec hm _ _).2) fun buffer => ?_
    refine (readyKept_outputBytes buffer).bind fun _ => ?_
    exact Prog.Keeps.bind (Prog.Keeps.modify fun _ => readyKept_of_eq rfl rfl) fun _ => Prog.Keeps.pure _
  · exact (readyKept_setDone _ _).bind fun _ => Prog.Keeps.pure _

theorem readyKept_processRead (hspares : f.Spares) (hstate : f.mailbox_state = .mbREAD) :
    ReadyKept f (rpConsoleIoProcessRead.final f) := by
  have hinput := readyKept_inputBytes f.gConsoleLen.toNat f
  have hboard := hw_inputBytes f.gConsoleLen.toNat f
  specialize hspares hstate
  rw [← result_inputBytes] at hspares
  simp only [rpConsoleIoProcessRead, Prog.final_bind, Prog.result_get, Prog.final_get, Prog.final_ite,
    Prog.final_pure]
  generalize (rpConsoleInputBytes f.gConsoleLen.toNat).result f = buffer at hspares ⊢
  generalize (rpConsoleInputBytes f.gConsoleLen.toNat).final f = g at hinput hboard ⊢
  split
  · exact hinput
  refine trans_of ReadyKept hinput (trans_of ReadyKept ?_ (readyKept_setDone _ _ _))
  refine readyKept_writes (blockWrites f.gConsoleTarget buffer) rfl ?_ fun hg =>
    snoopWrite6502Memory_spec hg f.gConsoleTarget buffer
  intro w hw
  obtain ⟨i, hi, hwi⟩ := mem_blockWrites hw
  rw [hboard, hwi]
  exact hspares i hi

/-- Behind the update of the byte the poll leaves it alone. -/
theorem readyKept_mailboxFsm (hconsole : f.ConsoleOnly) (hspares : f.Spares) :
    ReadyKept f ((mailboxFsm ff).final f) := by
  simp only [mailboxFsm, Prog.final_bind, Prog.result_get, Prog.final_get]
  have hdone : Prog.Keeps (ReadyKept (σ := σ)) (modify fun f => { f with mailbox_state := .mbDONE }) :=
    Prog.Keeps.modify fun _ => readyKept_of_eq rfl rfl
  split
  · exact readyKept_of_eq rfl rfl
  · rename_i hstate
    exact readyKept_pollIdle ff hconsole hstate
  · refine Prog.Keeps.bind readyKept_processWrite (fun _ => ?_) f
    exact Prog.Keeps.ite (fun _ => hdone) fun _ => Prog.Keeps.pure ()
  · rename_i hstate
    have hrest : ∀ b : Bool, Prog.Keeps (ReadyKept (σ := σ))
        (if b then modify fun f => { f with mailbox_state := .mbDONE } else pure ()) :=
      fun _ => Prog.Keeps.ite (fun _ => hdone) fun _ => Prog.Keeps.pure ()
    exact trans_of ReadyKept (readyKept_processRead hspares hstate) (hrest _ _)
  · exact readyKept_of_eq rfl rfl

/-- The update of the byte is due exactly when the queue has become empty or stopped being so. -/
theorem updateConsoleReady_ready (hf : f.hw.Settled) :
    ∃ m, m.Settled ∧ (∃ b, m.view = f.hw.view.writes b ∧ ∀ w ∈ b, w.1 = RP_CONSOLE_RDY) ∧
      m.view.peek RP_CONSOLE_RDY = (if f.cpu_tx_fifo.isEmpty = f.lastCheck then f.consoleReady
        else readyByte f.cpu_tx_fifo.isEmpty) ∧
      updateConsoleReady.final f = { f with hw := m, lastCheck := f.cpu_tx_fifo.isEmpty } := by
  simp only [updateConsoleReady, Prog.final_bind, Prog.result_get, Prog.final_get, Prog.final_ite,
    Prog.final_pure, Prog.final_modify, onHw, Prog.final_on]
  by_cases hsame : f.cpu_tx_fifo.isEmpty = f.lastCheck
  · rw [if_neg (not_not.2 hsame), if_pos hsame, hsame]
    exact ⟨f.hw, hf, ⟨[], rfl, by simp⟩, rfl, rfl⟩
  · rw [if_pos hsame, if_neg hsame]
    obtain ⟨hview, hsettled⟩ := snoopWrite6502MemoryLoc_spec hf RP_CONSOLE_RDY
      (if f.cpu_tx_fifo.isEmpty then 0 else 1)
    refine ⟨_, hsettled, ⟨[(RP_CONSOLE_RDY, _)], hview, ?_⟩, ?_, rfl⟩
    · intro w hw
      rw [List.mem_singleton.1 hw]
    · rw [hview, Machine.View.peek_poke_self, readyByte]

/-- Behind a poll the byte is the right one, if the queue has changed, or else what it was. -/
theorem taskMailbox_ready (hf : f.hw.Settled) (hconsole : f.ConsoleOnly) (hspares : f.Spares) :
    let f' := (taskMailbox ff).final f
    f'.hw.Settled ∧ f'.lastCheck = f.cpu_tx_fifo.isEmpty ∧
      f'.consoleReady = if f.cpu_tx_fifo.isEmpty = f.lastCheck then f.consoleReady
        else readyByte f.cpu_tx_fifo.isEmpty := by
  obtain ⟨m, hm, ⟨ws, hview, hws⟩, hready, hfinal⟩ := updateConsoleReady_ready hf
  have hother : ∀ a, a &&& 0x0FFF ≠ RP_CONSOLE_RDY &&& 0x0FFF → m.view.peek a = f.hw.view.peek a := by
    intro a ha
    rw [hview]
    exact f.hw.view.peek_writes_of_ne fun w hw => by rwa [hws w hw]
  have hphys : ∀ a, m.view.physAddr a = f.hw.view.physAddr a := by
    intro a
    rw [hview, f.hw.view.writes_eq_self ws]
    rfl
  have hconsole' : (updateConsoleReady.final f).ConsoleOnly := by
    rw [hfinal]
    intro hstate hrings
    rw [hother RP_GROUP (by decide)]
    refine hconsole hstate ?_
    rw [Exchange.Rings, Firmware.exchange, hother RP_DOORBELL (by decide),
      hother RP_STATUS (by decide)] at hrings
    exact hrings
  have hspares' : (updateConsoleReady.final f).Spares := by
    rw [hfinal]
    intro hstate i hi
    rw [hphys, hphys]
    exact hspares hstate i hi
  have hkept := readyKept_mailboxFsm ff hconsole' hspares'
  rw [hfinal] at hkept
  obtain ⟨hsettled, hready', hlast⟩ := hkept hm
  rw [← hready]
  simp only [taskMailbox, Prog.final_bind, hfinal]
  exact ⟨hsettled, hlast, hready'⟩

/-- A reset clears the byte and forgets nothing of the queue. -/
theorem cmdReset_ready {s : Scheduler σ} (hs : s.firmware.hw.Settled) :
    let f' := ((cmdReset ff).final s).firmware
    f'.hw.Settled ∧ f'.consoleReady = 0 ∧ f'.lastCheck = s.firmware.lastCheck := by
  obtain ⟨m, hm, hfinal⟩ := firmware_cmdReset ff hs
  obtain ⟨ws, hblock, -⟩ := stores_clearBlock
  obtain ⟨hview, hsettled⟩ := stores_resetBoard hblock m hm
  have hlast : ∀ f : Firmware σ, ((initMailbox ff).final f).lastCheck = f.lastCheck := by
    intro f
    simp only [initMailbox, rpFsMailboxReset, rpConsoleIoReset, emit, Prog.final_bind,
      Prog.final_modify, onHw, onStorage, Prog.final_on]
  rw [hfinal]
  intro f'
  have hhw : f'.hw = _ := hw_initMailbox ff _
  rw [← hhw] at hview hsettled
  refine ⟨hsettled, ?_, hlast _⟩
  rw [Firmware.consoleReady, hview]
  exact Machine.View.peek_writes_last _ ws 0x00 (by decide)

end StateMachine

/-! ## Sessions -/

/-- The whole firmware, and whether the byte may be wrong about what is remembered of the queue. -/
structure ConsoleSession (σ : Type) where
  system : System σ
  stale : Bool

section Session

variable (ff : FatFs σ) (flash : Flash)

/-- What becomes of the mark: a reset sets it when the queue was not empty at the last poll and takes it away
when it was, and a poll that writes the byte takes it away. -/
def LoopStep.nextStale (f : Firmware σ) (stale : Bool) : LoopStep σ → Bool
  | .monitor .reset => !f.lastCheck
  | .taskMailbox => stale && f.cpu_tx_fifo.isEmpty == f.lastCheck
  | _ => stale

/-- One step. -/
def ConsoleSession.step (w : ConsoleSession σ) (l : LoopStep σ) : ConsoleSession σ where
  system := w.system.step ff flash l
  stale := l.nextStale w.system.scheduler.firmware w.stale

/-- Behind `setup()` the byte is right if the default context shows a zero. -/
def ConsoleSession.start (s : System σ) : ConsoleSession σ where
  system := s
  stale := decide (s.scheduler.firmware.consoleReady ≠ 0)

/-- The steps of a session: input, the tasks that take it, resets, and a 6502 that is started and stopped,
asks for console transfers and does not write the byte. -/
def LoopStep.InSession (s : System σ) : LoopStep σ → Prop
  | .input _ => True
  | LoopStep.taskSimpleIO => True
  | .taskInput => True
  | .taskMailbox => s.scheduler.firmware.ConsoleOnly
  | .monitor .reset => True
  | .monitor .go => True
  | .monitor .stop => True
  | .memory ram => ram (s.hw.view.physAddr RP_CONSOLE_RDY) = s.scheduler.firmware.consoleReady
  | .edge => True
  | _ => False

/-- No READ is stored over the byte. -/
def LoopStep.Spares (s : System σ) : LoopStep σ → Prop
  | .taskMailbox => s.scheduler.firmware.Spares
  | _ => True

/-- At the return from a poll the byte tells whether the queue was empty when it began. -/
def LoopStep.Truthful (s : System σ) : LoopStep σ → Prop
  | .taskMailbox => ((NeoMmu.taskMailbox ff).final s.scheduler.firmware).consoleReady =
      readyByte s.scheduler.firmware.cpu_tx_fifo.isEmpty
  | _ => True

/-- A poll that finds the mark finds the queue changed since the poll before. -/
def ConsoleSession.Fresh (w : ConsoleSession σ) : LoopStep σ → Prop
  | .taskMailbox => w.stale = true →
      w.system.scheduler.firmware.cpu_tx_fifo.isEmpty ≠ w.system.scheduler.firmware.lastCheck
  | _ => True

/-- The board is settled, and the byte is right about what is remembered of the queue unless it is marked. -/
structure Firmware.Marked (f : Firmware σ) (stale : Bool) : Prop where
  settled : f.hw.Settled
  ready : f.consoleReady = readyByte f.lastCheck ↔ stale = false

theorem readyKept_step {s : System σ} {l : LoopStep σ} (hl : l.InSession s) (hreset : l ≠ .monitor .reset)
    (hpoll : l ≠ .taskMailbox) :
    ReadyKept s.scheduler.firmware (s.step ff flash l).scheduler.firmware := by
  have hstate : ∀ vState, vState ≠ .sSTARTUP → vState ≠ .sRESET →
      Prog.Keeps (ReadyKept (σ := σ)) (onHw do discard <| set6502State vState) := by
    intro vState hstartup hreset f hf
    obtain ⟨hview, hsettled⟩ := set6502State_spec hf hstartup
    rw [Machine.View.enter, if_neg hreset] at hview
    refine ⟨hsettled, ?_, rfl⟩
    show ((set6502State vState).final f.hw).view.peek _ = _
    rw [hview]
    rfl
  cases l with
  | input c => exact (readyKept_writeCPUQ c).discard _
  | taskSimpleIO => exact readyKept_taskSimple _
  | taskInput =>
    obtain ⟨q, -, hdrained⟩ := processVDUoutQ_spec s.scheduler.firmware
    have hboard : (processVDUoutQ s.scheduler.firmware).hw = s.scheduler.firmware.hw := by rw [hdrained]
    have hlast : (processVDUoutQ s.scheduler.firmware).lastCheck = s.scheduler.firmware.lastCheck := by
      rw [hdrained]
    exact readyKept_of_eq hboard hlast
  | taskMailbox => exact absurd rfl hpoll
  | monitor command =>
    cases command with
    | reset => exact absurd rfl hreset
    | go => exact hstate .sRUNNING (by decide) (by decide) _
    | stop => exact hstate .sHALTED (by decide) (by decide) _
    | _ => exact hl.elim
  | memory ram => exact fun hf => ⟨hf.congr rfl rfl rfl rfl, hl, rfl⟩
  | edge =>
    refine readyKept_onHw (p := intrMMUIO) (fun m hm => ?_) s.scheduler.firmware
    unfold intrMMUIO
    rw [Prog.final_modify]
    split
    · exact ⟨rfl, hm.congr rfl rfl rfl rfl⟩
    · exact ⟨rfl, hm⟩
  | _ => exact hl.elim

variable {ff flash}

/-- A step carries the mark on. -/
theorem Firmware.Marked.step {s : System σ} {stale : Bool} (h : s.scheduler.firmware.Marked stale)
    {l : LoopStep σ} (hl : l.InSession s) (hspares : l.Spares s) :
    (s.step ff flash l).scheduler.firmware.Marked (l.nextStale s.scheduler.firmware stale) := by
  by_cases hreset : l = .monitor .reset
  · subst hreset
    obtain ⟨hsettled, hready, hlast⟩ := cmdReset_ready ff h.settled
    show ((cmdReset ff).final s.scheduler).firmware.Marked (!s.scheduler.firmware.lastCheck)
    refine ⟨hsettled, ?_⟩
    rw [hready, hlast]
    cases s.scheduler.firmware.lastCheck with
    | true => exact ⟨fun _ => rfl, fun _ => rfl⟩
    | false => exact ⟨nofun, nofun⟩
  by_cases hpoll : l = .taskMailbox
  · subst hpoll
    obtain ⟨hsettled, hlast, hready⟩ := taskMailbox_ready ff h.settled hl hspares
    show ((taskMailbox ff).final s.scheduler.firmware).Marked (stale && _ == _)
    refine ⟨hsettled, ?_⟩
    rw [hlast, hready]
    split
    · rename_i hsame
      rw [hsame, h.ready, beq_self_eq_true, Bool.and_true]
    · rename_i hchanged
      rw [beq_false_of_ne hchanged, Bool.and_false]
      exact ⟨fun _ => rfl, fun _ => rfl⟩
  · obtain ⟨hsettled, hready, hlast⟩ := readyKept_step ff flash hl hreset hpoll h.settled
    have hstale : l.nextStale s.scheduler.firmware stale = stale := by
      cases l with
      | monitor command =>
        cases command with
        | reset => exact absurd rfl hreset
        | _ => rfl
      | taskMailbox => exact absurd rfl hpoll
      | _ => rfl
    refine ⟨hsettled, ?_⟩
    rw [hready, hlast, hstale]
    exact h.ready

/-- A poll tells the truth exactly when it does not find the mark with the queue unchanged. -/
theorem Firmware.Marked.truthful_iff {w : ConsoleSession σ} (h : w.system.scheduler.firmware.Marked w.stale)
    {l : LoopStep σ} (hl : l.InSession w.system) (hspares : l.Spares w.system) :
    l.Truthful ff w.system ↔ w.Fresh l := by
  cases l with
  | taskMailbox =>
    obtain ⟨-, -, hready⟩ := taskMailbox_ready ff h.settled hl hspares
    rw [LoopStep.Truthful, hready, ConsoleSession.Fresh]
    by_cases hsame : w.system.scheduler.firmware.cpu_tx_fifo.isEmpty = w.system.scheduler.firmware.lastCheck
    · rw [if_pos hsame, hsame, h.ready]
      simp
    · rw [if_neg hsame]
      exact ⟨fun _ _ => hsame, fun _ => rfl⟩
  | _ => exact Iff.rfl

theorem marked_start {s : System σ} (h : s.Ready) :
    s.scheduler.firmware.Marked (ConsoleSession.start s).stale := by
  refine ⟨h.settled, ?_⟩
  rw [h.idle.lastCheck, ConsoleSession.start, decide_eq_false_iff_not, not_not]
  rfl

/-- In a session behind `setup()` no READ is stored over `RP_CONSOLE_RDY` and the byte tells the truth at every
return from a poll, exactly when no READ is stored over it and every poll behind a reset that came with input
waiting finds the queue changed. -/
theorem consoleReady_truthful_iff (ff : FatFs σ) (flash : Flash) (input : SetupInput)
    (aregH aregL ctxReg : UInt8) (mmuRam : UInt8 × UInt8 → UInt8) (ram : UInt8 × UInt16 → UInt8)
    (storage : Storage σ) (run : List (LoopStep σ)) :
    let start := ConsoleSession.start
      ((setup ff input).final (.start (.setup6502 aregH aregL ctxReg mmuRam ram) storage))
    Run.AtEveryStep (ConsoleSession.step ff flash) (fun w l => l.InSession w.system) start run →
      (Run.AtEveryStep (ConsoleSession.step ff flash)
          (fun w l => l.Spares w.system ∧ l.Truthful ff w.system) start run ↔
        Run.AtEveryStep (ConsoleSession.step ff flash) (fun w l => l.Spares w.system ∧ w.Fresh l) start run) := by
  intro start hsession
  have hstart : start.system.scheduler.firmware.Marked start.stale :=
    marked_start (ready_setup ff input aregH aregL ctxReg mmuRam ram storage)
  generalize start = w at hsession hstart ⊢
  induction run generalizing w with
  | nil => exact ⟨fun _ => Run.atEveryStep_nil w, fun _ => Run.atEveryStep_nil w⟩
  | cons l run ih =>
    rw [Run.atEveryStep_cons] at hsession
    rw [Run.atEveryStep_cons, Run.atEveryStep_cons, and_assoc, and_assoc]
    refine and_congr_right fun hspares => ?_
    rw [hstart.truthful_iff hsession.1 hspares]
    refine and_congr_right fun _ => ?_
    exact ih (w.step ff flash l) hsession.2 (hstart.step hsession.1 hspares)

/-- What `setup()` does to the board behind `initMailbox()`. -/
theorem hw_behindMailbox (s : System σ) :
    ((do
      onBoard initCmdInterface
      onScheduler (onFirmware initInput)
      onBoard initSimpleIO
      onScheduler (onFirmware initScheduler)
      onBoard do discard <| set6502State .sRESET : Prog (System σ) Unit).final s).hw =
    (set6502State .sRESET).final ((do initCmdInterface; initSimpleIO; clearSlot : Prog Machine Unit).final
      s.hw) := by
  simp only [onBoard, onScheduler, onFirmware, onHw, initInput, initScheduler, Prog.final_bind, Prog.final_on,
    Prog.final_modify, Prog.final_discard, System.hw]

/-- Selecting the default context again changes nothing that is seen. -/
theorem peek_enter_default {v : Machine.View} (hreg : v.ctxReg = DEFAULT_CONTEXT) (a : UInt16) :
    (v.enter .sRESET).peek a = v.peek a := by
  have hselected : v.enter .sRESET = { v with
      gSysState := .sRESET, ctxReg := v.ctxReg, gCurrentContext := DEFAULT_CONTEXT.toNat } := by
    rw [hreg]
    rfl
  rw [hselected]
  rfl

/-- Going through `setup()` in the default context leaves a zero in the byte. -/
theorem consoleReady_behindMenu (ff : FatFs σ) {s : System σ} (hs : s.hw.Settled)
    (hreg : s.hw.ctxReg = DEFAULT_CONTEXT) :
    ((do
      onScheduler (onFirmware (initMailbox ff))
      onBoard initCmdInterface
      onScheduler (onFirmware initInput)
      onBoard initSimpleIO
      onScheduler (onFirmware initScheduler)
      onBoard do discard <| set6502State .sRESET : Prog (System σ) Unit).final s).scheduler.firmware.consoleReady
        = 0 := by
  obtain ⟨ws, hblock, -⟩ := stores_clearBlock
  obtain ⟨hview, hsettled⟩ := stores_resetBoard hblock s.hw hs
  have hmailbox : ((onScheduler (onFirmware (initMailbox ff))).final s).hw =
      ((initMailbox ff).final s.scheduler.firmware).hw := rfl
  rw [hw_initMailbox] at hmailbox
  change _ = Prog.final _ s.hw at hmailbox
  rw [← hmailbox] at hview hsettled
  rw [Prog.final_bind]
  generalize (onScheduler (onFirmware (initMailbox ff))).final s = s' at hview hsettled ⊢
  have hstores : Stores (do initCmdInterface; initSimpleIO; clearSlot) _ :=
    Stores.bind (fun _ hm => snoopWrite6502Memory_spec hm CMD_SLOT_BASE [0, 0, 0, 0]) <|
      ((stores_snoopWrite RP_GETCHAR 0).bind (stores_snoopWrite RP_PUTCHAR 0)).bind stores_clearSlot
  obtain ⟨hview', hsettled'⟩ := hstores s'.hw hsettled
  rw [hview, ← Machine.View.writes_append] at hview'
  obtain ⟨hreset, -⟩ := set6502State_spec hsettled' (s := .sRESET) nofun
  have hctx : ((do initCmdInterface; initSimpleIO; clearSlot : Prog Machine Unit).final s'.hw).view.ctxReg =
      DEFAULT_CONTEXT := by
    rw [hview', s.hw.view.writes_eq_self]
    exact hreg
  show (System.hw _).view.peek RP_CONSOLE_RDY = 0
  rw [hw_behindMailbox, hreset, peek_enter_default hctx, hview', List.append_assoc]
  exact Machine.View.peek_writes_last _ ws 0x00 (by decide)

/-- `setup()` leaves a zero in the byte when the configuration boots in the default context. -/
theorem consoleReady_setup (ff : FatFs σ) (input : SetupInput) (aregH aregL ctxReg : UInt8)
    (mmuRam : UInt8 × UInt8 → UInt8) (ram : UInt8 × UInt16 → UInt8) (storage : Storage σ)
    (hboot : (initializeMemoryConfig input.memoryIni).2.boot_context = DEFAULT_CONTEXT) :
    ((setup ff input).final
      (.start (.setup6502 aregH aregL ctxReg mmuRam ram) storage)).scheduler.firmware.consoleReady = 0 := by
  have hinit : (onBoard NeoMmu.init6502).final (.start (.setup6502 aregH aregL ctxReg mmuRam ram) storage) =
      System.init6502 (.setup6502 aregH aregL ctxReg mmuRam ram) storage := rfl
  have hstart : (System.init6502 (.setup6502 aregH aregL ctxReg mmuRam ram) storage).SettingUp :=
    ⟨booting_init6502 _ _ _ _ _ storage, rfl, rfl, rfl, rfl, rfl, rfl⟩
  rw [setup, Prog.final_bind, hinit]
  generalize System.init6502 _ storage = s at hstart
  have hbefore : Prog.Keeps (Preparing (σ := σ)) (do
      onBoard do discard initMMU
      modify fun s => { s with memoryConfig := (initializeMemoryConfig input.memoryIni).2 }
      onBoard (input.driverCalls.forM fun call => discard call.run)
      modify fun s => { s with
        tables := (initializeSystemConfig input.present s.memoryConfig input.systemIni).2 }) := by
    refine Prog.Keeps.bind (preparing_onBoard fun m hm => ?_) fun _ => ?_
    · exact (selecting_initMMU.discard m).booting hm
    refine Prog.Keeps.bind (preparing_statics fun _ => rfl) fun _ => ?_
    refine Prog.Keeps.bind (preparing_onBoard fun m hm => ?_) fun _ => preparing_statics fun _ => rfl
    exact (Prog.Keeps.forM (R := Selecting) (fun call _ => (selecting_mmuCall call).discard) m).booting hm
  have hprepared := hbefore s hstart
  simp only [Prog.final_bind] at hprepared
  rw [Prog.final_bind, Prog.final_bind, Prog.final_bind, Prog.final_bind]
  have hconfig : (Prog.final (modify fun s : System σ => { s with
      tables := (initializeSystemConfig input.present s.memoryConfig input.systemIni).2 })
      ((onBoard (input.driverCalls.forM fun call => discard call.run)).final
        (Prog.final (modify fun s : System σ => { s with
          memoryConfig := (initializeMemoryConfig input.memoryIni).2 })
          ((onBoard do discard initMMU).final s)))).memoryConfig.boot_context = DEFAULT_CONTEXT := hboot
  generalize Prog.final (modify fun s : System σ => { s with
      tables := (initializeSystemConfig input.present s.memoryConfig input.systemIni).2 }) _ = s₁
    at hprepared hconfig ⊢
  obtain ⟨hsteady, hreg⟩ := selected_cmdSysConfig input.flash input.lines hprepared.booting.1
  rw [Prog.final_bind]
  exact consoleReady_behindMenu ff hsteady.settled (hreg.trans hconfig)

/-- Behind a reset the queue and the state of the machine are those before, and nothing is asked for. -/
theorem cmdReset_quiet (ff : FatFs σ) {s : Scheduler σ} (hs : s.firmware.hw.Settled) :
    let f' := ((cmdReset ff).final s).firmware
    f'.cpu_tx_fifo = s.firmware.cpu_tx_fifo ∧ f'.mailbox_state = s.firmware.mailbox_state ∧
      ¬ f'.exchange.Rings := by
  obtain ⟨m, hm, hfinal⟩ := firmware_cmdReset ff hs
  have hqueue : ∀ f : Firmware σ, ((initMailbox ff).final f).cpu_tx_fifo = f.cpu_tx_fifo := by
    intro f
    simp only [initMailbox, rpFsMailboxReset, rpConsoleIoReset, emit, Prog.final_bind,
      Prog.final_modify, onHw, onStorage, Prog.final_on]
  rw [hfinal]
  obtain ⟨hstatus, hdoorbell⟩ := triggers_initMailbox ff
    (f := { s.firmware with hw := m, gIntrPending := false }) hm
  refine ⟨hqueue _, (initMailbox_spec ff _).2, ?_⟩
  rw [Exchange.Rings, hstatus, hdoorbell]
  decide

/-- The first poll. -/
theorem taskMailbox_init (ff : FatFs σ) {f : Firmware σ} (hf : f.hw.Settled)
    (hstate : f.mailbox_state = .mbINIT) : ∃ m : Machine, m.Settled ∧ (taskMailbox ff).final f =
      { f with hw := m, lastCheck := f.cpu_tx_fifo.isEmpty, mailbox_state := .mbIDLE } := by
  obtain ⟨m, hm, -, -, hfinal⟩ := updateConsoleReady_ready hf
  refine ⟨m, hm, ?_⟩
  simp only [taskMailbox, Prog.final_bind, hfinal, mailboxFsm, Prog.result_get, Prog.final_get, hstate,
    Prog.final_modify]

/-- A poll of a machine that waits in `mbIDLE` with nothing asked for belongs to a session. -/
theorem inSession_quiet {s : System σ} (hrings : ¬ s.scheduler.firmware.exchange.Rings)
    (hstate : s.scheduler.firmware.mailbox_state = .mbIDLE) :
    LoopStep.InSession s .taskMailbox ∧ LoopStep.Spares s .taskMailbox := by
  refine ⟨fun _ h => absurd h hrings, fun h => ?_⟩
  rw [hstate] at h
  cases h

theorem inSession_init {s : System σ} (hstate : s.scheduler.firmware.mailbox_state = .mbINIT) :
    LoopStep.InSession s .taskMailbox ∧ LoopStep.Spares s .taskMailbox := by
  constructor
  · intro h
    rw [hstate] at h
    cases h
  · intro h
    rw [hstate] at h
    cases h

end Session

/-! ## A reset at the wrong time -/

/-- A byte comes in behind the first poll, and the CPU is reset before the next: what is remembered is still
the empty queue. -/
def typedBeforeReset : List (LoopStep σ) := [.taskMailbox, .input 65, .monitor .reset, .taskMailbox]

/-- The CPU is reset behind a poll that has seen the byte. -/
def resetWithInput : List (LoopStep σ) := [.input 65, .taskMailbox, .monitor .reset, .taskMailbox]

section Sessions

variable (ff : FatFs σ) (flash : Flash) {s : System σ}

/-- A poll that remembers the queue, which does not change. -/
theorem session_typedBeforeReset (hs : s.Ready) (hready : s.scheduler.firmware.consoleReady = 0) :
    Run.AtEveryStep (ConsoleSession.step ff flash) (fun w l => l.InSession w.system) (.start s)
        typedBeforeReset ∧
      Run.AtEveryStep (ConsoleSession.step ff flash) (fun w l => l.Spares w.system ∧ w.Fresh l) (.start s)
        typedBeforeReset := by
  obtain ⟨m, hm, hpolled⟩ := taskMailbox_init ff hs.settled hs.idle.mailbox_state
  obtain ⟨q, htyped⟩ := final_writeCPUQ 65 ((taskMailbox ff).final s.scheduler.firmware)
  rw [hpolled, hs.idle.cpu_tx_fifo] at htyped
  let s₂ : System σ := (s.step ff flash .taskMailbox).step ff flash (.input 65)
  have hfirmware : s₂.scheduler.firmware = { s.scheduler.firmware with
      hw := m, lastCheck := true, mailbox_state := .mbIDLE, cpu_tx_fifo := q } := by
    rw [← htyped, ← hs.idle.cpu_tx_fifo, ← hpolled]
    rfl
  have hsettled : s₂.hw.Settled := by
    rw [System.hw, hfirmware]
    exact hm
  obtain ⟨-, hstate, hrings⟩ := cmdReset_quiet ff hsettled
  rw [hfirmware] at hstate
  obtain ⟨hsession, hspares⟩ := inSession_quiet (s := s₂.step ff flash (.monitor .reset)) hrings hstate
  obtain ⟨hsession₀, hspares₀⟩ := inSession_init hs.idle.mailbox_state
  simp only [typedBeforeReset, Run.atEveryStep_cons]
  refine ⟨⟨hsession₀, trivial, trivial, hsession, Run.atEveryStep_nil _⟩,
    ⟨hspares₀, fun hstale => ?_⟩, ⟨trivial, trivial⟩, ⟨trivial, trivial⟩, ⟨hspares, fun hstale => ?_⟩,
    Run.atEveryStep_nil _⟩
  · exact absurd hready (of_decide_eq_true hstale)
  · have hlast : s₂.scheduler.firmware.lastCheck = true := by rw [hfirmware]
    change (!s₂.scheduler.firmware.lastCheck) = true at hstale
    rw [hlast] at hstale
    cases hstale

/-- The byte is cleared, and the next poll does not write it. -/
theorem session_resetWithInput (hs : s.Ready) :
    Run.AtEveryStep (ConsoleSession.step ff flash) (fun w l => l.InSession w.system) (.start s)
        resetWithInput ∧
      ¬ Run.AtEveryStep (ConsoleSession.step ff flash) (fun w l => l.Truthful ff w.system) (.start s)
        resetWithInput := by
  have hnonempty := isEmpty_writeCPUQ 65 s.scheduler.firmware
  obtain ⟨q, htyped⟩ := final_writeCPUQ 65 s.scheduler.firmware
  rw [htyped] at hnonempty
  have hstate : ((writeCPUQ 65).final s.scheduler.firmware).mailbox_state = .mbINIT := by
    rw [htyped]
    exact hs.idle.mailbox_state
  have hboard : ((writeCPUQ 65).final s.scheduler.firmware).hw.Settled := by
    rw [htyped]
    exact hs.settled
  obtain ⟨m, hm, hpolled⟩ := taskMailbox_init ff hboard hstate
  rw [htyped, hnonempty] at hpolled
  let s₂ : System σ := (s.step ff flash (.input 65)).step ff flash .taskMailbox
  have hfirmware : s₂.scheduler.firmware = { s.scheduler.firmware with
      cpu_tx_fifo := q, hw := m, lastCheck := false, mailbox_state := .mbIDLE } := by
    rw [← hpolled, ← htyped]
    rfl
  have hsettled : s₂.hw.Settled := by
    rw [System.hw, hfirmware]
    exact hm
  obtain ⟨hqueue, hstate', hrings⟩ := cmdReset_quiet ff hsettled
  obtain ⟨hsettled', hready, hlast⟩ := cmdReset_ready ff hsettled
  rw [hfirmware] at hqueue hstate' hlast
  let s₃ : System σ := s₂.step ff flash (.monitor .reset)
  obtain ⟨hsession, hspares⟩ := inSession_quiet (s := s₃) hrings hstate'
  obtain ⟨hsession₁, -⟩ := inSession_init (s := s.step ff flash (.input 65)) hstate
  simp only [resetWithInput, Run.atEveryStep_cons]
  refine ⟨⟨trivial, hsession₁, trivial, hsession, Run.atEveryStep_nil _⟩, ?_⟩
  rintro ⟨-, -, -, htruthful, -⟩
  obtain ⟨-, -, hkept⟩ := taskMailbox_ready ff hsettled' hsession hspares
  rw [hqueue, hlast, if_pos hnonempty, hready] at hkept
  have hone : 0 = readyByte ((cmdReset ff).final s₂.scheduler).firmware.cpu_tx_fifo.isEmpty :=
    hkept.symm.trans htruthful
  rw [hqueue, hnonempty] at hone
  exact absurd hone (by decide)

end Sessions

/-- A reset behind a byte that no poll has seen yet does no harm. -/
theorem typedBeforeReset_truthful : Run.AtEveryStep (ConsoleSession.step RamDisk.fatFs fun _ => none)
    (fun w l => l.Spares w.system ∧ l.Truthful RamDisk.fatFs w.system) (.start freshSystem)
    typedBeforeReset := by
  have hready : freshSystem.scheduler.firmware.consoleReady = 0 :=
    consoleReady_setup RamDisk.fatFs blankInput 0 0 0 _ _ _ (by decide)
  obtain ⟨hsession, hfresh⟩ :=
    session_typedBeforeReset RamDisk.fatFs (fun _ => none) ready_freshSystem hready
  exact (consoleReady_truthful_iff RamDisk.fatFs (fun _ => none) blankInput 0 0 0 _ _ _ typedBeforeReset
    hsession).2 hfresh

/-- A byte waits in the queue, and `RP_CONSOLE_RDY` says that there is none. -/
theorem resetWithInput_not_truthful :
    Run.AtEveryStep (ConsoleSession.step RamDisk.fatFs fun _ => none) (fun w l => l.InSession w.system)
        (.start freshSystem) resetWithInput ∧
      ¬ Run.AtEveryStep (ConsoleSession.step RamDisk.fatFs fun _ => none)
        (fun w l => l.Truthful RamDisk.fatFs w.system) (.start freshSystem) resetWithInput :=
  session_resetWithInput RamDisk.fatFs (fun _ => none) ready_freshSystem

end NeoMmu
