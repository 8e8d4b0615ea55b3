import NeoMmu.Boot.SystemIni
import NeoMmu.Mailbox.Transparency

/-!
# `setup()` and `loop()`

The program of the sketch: `setup()` as one computation, and the steps of `loop()` with what the 6502 and
the world outside do between them. Behind `setup()` the CPU is held in reset in the default context, no
interrupt is requested and the queues are empty.
-/

namespace NeoMmu

variable {σ α : Type}

/-- `initInput()` -/
def initInput : Prog (Firmware σ) Unit :=
  modify fun f => { f with cpu_tx_fifo := f.cpu_tx_fifo.clear, vdu_tx_fifo := f.vdu_tx_fifo.clear }

/-- What `setup()` reads: the two INI files, the paths that exist, the cartridges, and the lines typed at
the menu. `driverCalls` are the calls of the MMU driver that `configureMMUFromActiveModel()` and the dumps
of its result make. -/
structure SetupInput where
  memoryIni : Option (List UInt8)
  systemIni : Option (List UInt8)
  present : List UInt8 → Bool
  flash : Flash
  lines : List (Option Int)
  driverCalls : List MmuCall

/-- `setup()` behind `setup6502()`. -/
def setup (ff : FatFs σ) (input : SetupInput) : Prog (System σ) Unit := do
  onBoard NeoMmu.init6502
  onBoard do discard initMMU
  modify fun s => { s with memoryConfig := (initializeMemoryConfig input.memoryIni).2 }
  onBoard (input.driverCalls.forM fun call => discard call.run)
  modify fun s => { s with
    tables := (initializeSystemConfig input.present s.memoryConfig input.systemIni).2 }
  cmdSysConfig input.flash input.lines
  onScheduler (onFirmware (initMailbox ff))
  onBoard initCmdInterface
  onScheduler (onFirmware initInput)
  onBoard initSimpleIO
  onScheduler (onFirmware initScheduler)
  onBoard do discard <| set6502State .sRESET

/-- What happens in `loop()`, and between its tasks. -/
inductive LoopStep (σ : Type)
  | taskIRQTimer (now now' : UInt32)
  | taskScheduler
  | taskSimpleIO
  | taskInput
  | taskMailbox
  | monitor (command : MonitorCommand)
  /-- A snooping call of a monitor command that shows or edits memory. -/
  | snoop (call : SnoopCall)
  /-- An input byte is queued for the CPU. -/
  | input (c : UInt8)
  | consoleBreak
  /-- `taskUSBStorage()` leaves the storage like this. -/
  | taskUSBStorage (storage : Storage σ)
  /-- The memory changes under the firmware. -/
  | memory (ram : UInt8 × UInt16 → UInt8)
  /-- The falling edge of `pMMUIO`. -/
  | edge

/-- What a step does. -/
def LoopStep.program (ff : FatFs σ) (flash : Flash) : LoopStep σ → Prog (System σ) Unit
  | .taskIRQTimer now now' => onScheduler (NeoMmu.taskIRQTimer now now')
  | .taskScheduler => NeoMmu.taskScheduler
  | LoopStep.taskSimpleIO => onScheduler (onFirmware NeoMmu.taskSimpleIO)
  | .taskInput => onScheduler (onFirmware NeoMmu.taskInput)
  | .taskMailbox => onScheduler (onFirmware (NeoMmu.taskMailbox ff))
  | .monitor command => command.run ff flash
  | .snoop call => onBoard call.run
  | .input c => onScheduler <| onFirmware do discard <| writeCPUQ c
  | .consoleBreak => onScheduler (onFirmware requestConsoleBreakIRQ)
  | .taskUSBStorage storage => onScheduler <| onFirmware <| modify fun f => { f with storage := storage }
  | .memory ram => onBoard <| modify fun m => { m with ram := ram }
  | .edge => onBoard intrMMUIO

/-- The firmware after a step. -/
def System.step (ff : FatFs σ) (flash : Flash) (s : System σ) (l : LoopStep σ) : System σ :=
  (l.program ff flash).final s

/-- A state that `loop()` reaches behind `setup()`. -/
def System.Reachable (ff : FatFs σ) (flash : Flash) (s : System σ) : Prop :=
  ∃ aregH aregL ctxReg mmuRam ram storage input run, s = List.foldl (System.step ff flash)
    ((setup ff input).final (.start (.setup6502 aregH aregL ctxReg mmuRam ram) storage)) run

/-! ## Behind `setup()` -/

/-- No interrupt is pending or requested, the CPU queue is empty and known to be, and the mailbox task has
not started. -/
structure Firmware.Idle (f : Firmware σ) : Prop where
  gIntrPending : f.gIntrPending = false
  gFsCompletionPending : f.gFsCompletionPending = false
  gConsoleBreakPending : f.gConsoleBreakPending = false
  cpu_tx_fifo : f.cpu_tx_fifo.isEmpty = true
  lastCheck : f.lastCheck = true
  mailbox_state : f.mailbox_state = .mbINIT

/-- The board is settled in `sBOOT` and the firmware idle. -/
structure System.SettingUp (s : System σ) : Prop where
  booting : s.hw.Booting
  idle : s.scheduler.firmware.Idle

/-- What keeps `setup()` going. -/
def Preparing (s s' : System σ) : Prop := s.SettingUp → s'.SettingUp

instance : IsTrans (System σ) Preparing where
  trans _ _ _ h h' := fun hs => h' (h hs)

/-- The CPU is held in reset in the default context and the firmware is idle. -/
structure System.Ready (s : System σ) : Prop where
  settled : s.hw.Settled
  gSysState : s.hw.gSysState = .sRESET
  gCurrentContext : s.hw.gCurrentContext = DEFAULT_CONTEXT.toNat
  idle : s.scheduler.firmware.Idle

section Setup

variable {ff : FatFs σ} {s : System σ}

theorem preparing_onBoard {p : Prog Machine α} (hp : ∀ m : Machine, m.Booting → (p.final m).Booting) :
    Prog.Keeps (Preparing (σ := σ)) (onBoard p) := by
  intro s h
  obtain ⟨h₁, h₂, h₃, h₄, h₅, h₆⟩ := h.idle
  exact ⟨hp _ h.booting, h₁, h₂, h₃, h₄, h₅, h₆⟩

theorem preparing_statics {g : System σ → System σ} (hg : ∀ s, (g s).scheduler = s.scheduler) :
    Prog.Keeps (Preparing (σ := σ)) (modify g : Prog (System σ) Unit) := by
  refine Prog.Keeps.modify fun s h => ⟨?_, ?_⟩
  · rw [System.hw, hg]
    exact h.booting
  · rw [hg]
    exact h.idle

theorem preparing_initMailbox :
    Prog.Keeps (Preparing (σ := σ)) (onScheduler (onFirmware (initMailbox ff))) := by
  intro s h
  have hidle : ((initMailbox ff).final s.scheduler.firmware).Idle := by
    obtain ⟨h₁, h₂, h₃, h₄, h₅, h₆⟩ := h.idle
    simp only [initMailbox, rpFsMailboxReset, rpConsoleIoReset, emit, Prog.final_bind,
      Prog.final_modify, onHw, onStorage, Prog.final_on]
    exact ⟨h₁, h₂, h₃, h₄, h₅, h₆⟩
  exact ⟨booting_initMailbox ff h.booting, hidle⟩

theorem preparing_initInput : Prog.Keeps (Preparing (σ := σ)) (onScheduler (onFirmware initInput)) := by
  intro s h
  obtain ⟨h₁, h₂, h₃, h₄, h₅, h₆⟩ := h.idle
  exact ⟨h.booting, h₁, h₂, h₃, rfl, h₅, h₆⟩

theorem booting_snoop {m : Machine} (hm : m.Booting) (call : SnoopCall) :
    (call.run.final m).Booting := by
  have haccess := access_snoopCall hm.1 call
  exact ⟨haccess.settled, haccess.gSysState.trans hm.2⟩

theorem preparing_initScheduler :
    Prog.Keeps (Preparing (σ := σ)) (onScheduler (onFirmware initScheduler)) := by
  intro s h
  obtain ⟨h₁, h₂, h₃, h₄, h₅, h₆⟩ := h.idle
  have hboard : (clearSlot.final s.hw).Booting := by
    rw [clearSlot, Prog.final_bind]
    exact booting_snoop (booting_snoop h.booting (.writeLoc RP_IRQ_SOURCE _))
      (.writeLoc RP_IRQ_STATE RP_IRQ_NONE)
  simp only [onScheduler, onFirmware, initScheduler, onHw, Prog.final_on, Prog.final_bind,
    Prog.final_modify]
  exact ⟨hboard, h₁, rfl, rfl, h₄, h₅, h₆⟩

theorem preparing_cmdSysConfig (flash : Flash) (lines : List (Option Int)) :
    Prog.Keeps (Preparing (σ := σ)) (cmdSysConfig flash lines) := by
  intro s h
  have hboot := preparing_onBoard (fun m hm =>
    bootSystemWithMenu_spec flash s.tables hm.1 s.memoryConfig.boot_context lines) s h
  exact ⟨hboot.booting, hboot.idle⟩

/-- A part of `setup()` in front of the rest. -/
theorem Prog.Keeps.preparing {p : Prog (System σ) α} {rest : α → Prog (System σ) Unit}
    (hp : Prog.Keeps Preparing p)
    (hrest : ∀ a, Prog.Keeps (fun s s' => s.SettingUp → s'.Ready) (rest a)) :
    Prog.Keeps (fun s s' => s.SettingUp → s'.Ready) (p >>= rest) :=
  hp.bind_of hrest fun _ _ _ h h' hs => h' (h hs)

/-- Behind `setup()` the CPU is held in reset in the default context. -/
theorem ready_setup (ff : FatFs σ) (input : SetupInput) (aregH aregL ctxReg : UInt8)
    (mmuRam : UInt8 × UInt8 → UInt8) (ram : UInt8 × UInt16 → UInt8) (storage : Storage σ) :
    ((setup ff input).final (.start (.setup6502 aregH aregL ctxReg mmuRam ram) storage)).Ready := by
  have hstart : (System.init6502 (.setup6502 aregH aregL ctxReg mmuRam ram) storage).SettingUp :=
    ⟨booting_init6502 _ _ _ _ _ storage, rfl, rfl, rfl, rfl, rfl, rfl⟩
  have hreset : Prog.Keeps (fun s s' : System σ => s.SettingUp → s'.Ready)
      (onBoard do discard <| set6502State .sRESET) := by
    intro s h
    obtain ⟨hview, hsettled⟩ := set6502State_spec h.booting.1 (s := .sRESET) nofun
    obtain ⟨h₁, h₂, h₃, h₄, h₅, h₆⟩ := h.idle
    exact ⟨hsettled, congrArg Machine.View.gSysState hview,
      congrArg Machine.View.gCurrentContext hview, h₁, h₂, h₃, h₄, h₅, h₆⟩
  have hinit : (onBoard NeoMmu.init6502).final (.start (.setup6502 aregH aregL ctxReg mmuRam ram) storage) =
      System.init6502 (.setup6502 aregH aregL ctxReg mmuRam ram) storage := rfl
  rw [setup, Prog.final_bind, hinit]
  generalize System.init6502 _ storage = s at hstart
  revert s
  refine Prog.Keeps.preparing (preparing_onBoard fun m hm => ?_) fun _ => ?_
  · exact (selecting_initMMU.discard m).booting hm
  refine Prog.Keeps.preparing (preparing_statics fun _ => rfl) fun _ => ?_
  refine Prog.Keeps.preparing (preparing_onBoard fun m hm => ?_) fun _ => ?_
  · exact (Prog.Keeps.forM (R := Selecting) (fun call _ => (selecting_mmuCall call).discard) m).booting hm
  refine Prog.Keeps.preparing (preparing_statics fun _ => rfl) fun _ => ?_
  refine (preparing_cmdSysConfig input.flash input.lines).preparing fun _ => ?_
  refine preparing_initMailbox.preparing fun _ => ?_
  refine Prog.Keeps.preparing (preparing_onBoard fun m hm => ?_) fun _ => ?_
  · exact booting_snoop hm (.write CMD_SLOT_BASE [0, 0, 0, 0])
  refine preparing_initInput.preparing fun _ => ?_
  refine Prog.Keeps.preparing (preparing_onBoard fun m hm => ?_) fun _ => ?_
  · exact booting_snoop (booting_snoop hm (.writeLoc RP_GETCHAR 0)) (.writeLoc RP_PUTCHAR 0)
  exact preparing_initScheduler.preparing fun _ => hreset

/-- Nothing behind `initializeMemoryConfig()` changes the memory configuration. -/
theorem memoryConfig_setup (ff : FatFs σ) (input : SetupInput) (s : System σ) :
    ((setup ff input).final s).memoryConfig = (initializeMemoryConfig input.memoryIni).2 := by
  simp only [setup, cmdSysConfig, onBoard, onScheduler, Prog.final_bind, Prog.final_on,
    Prog.final_modify, Prog.final_get]

end Setup

/-! ## Runs -/

section Run

variable {ff : FatFs σ}

/-- What the tasks, the monitor commands and the rest of `loop()` are made of keeps `R`. -/
structure LoopRules (ff : FatFs σ) (R : Firmware σ → Firmware σ → Prop) : Prop extends
    CommandRules ff R where
  taskInput : Prog.Keeps R taskInput
  storage : ∀ f storage, R f { f with storage := storage }

/-- A step keeps what its parts keep; a console break is for the caller to judge. -/
theorem LoopRules.program {R : Firmware σ → Firmware σ → Prop} [Std.Refl R] [IsTrans (Firmware σ) R]
    (rules : LoopRules ff R) (flash : Flash) (l : LoopStep σ)
    (hbreak : l = .consoleBreak → Prog.Keeps R requestConsoleBreakIRQ) :
    Prog.Keeps (Order.Preimage (·.scheduler.firmware) R) (l.program ff flash) := by
  cases l with
  | taskIRQTimer now now' => exact keeps_onScheduler (rules.toTaskRules.taskIRQTimer now now')
  | taskScheduler => exact rules.toCommandRules.taskScheduler
  | taskSimpleIO => exact keeps_onFirmware rules.toMailboxRules.taskSimpleIO
  | taskInput => exact keeps_onFirmware rules.taskInput
  | taskMailbox => exact keeps_onFirmware rules.toMailboxRules.taskMailbox
  | monitor command => exact rules.toCommandRules.monitor flash command
  | snoop call => exact keeps_onFirmware (rules.snoop call)
  | input c => exact keeps_onFirmware (rules.toMailboxRules.writeCPUQ c).discard
  | consoleBreak => exact keeps_onFirmware (hbreak rfl)
  | taskUSBStorage storage => exact keeps_onFirmware (Prog.Keeps.modify fun f => rules.storage f storage)
  | memory ram => exact keeps_onFirmware (rules.board (.memory ram))
  | edge => exact keeps_onFirmware (rules.board BoardCall.intrMMUIO)

theorem loopRules_called (hread : ReadsAtMost ff) : LoopRules ff (Called ff) where
  toCommandRules := commandRules_called hread
  taskInput := by
    refine Prog.Keeps.modify fun f => ?_
    obtain ⟨q, -, hdrained⟩ := processVDUoutQ_spec f
    have hboard : (processVDUoutQ f).hw = f.hw := by rw [hdrained]
    exact called_of_hw hboard
  storage _ _ := called_of_hw rfl

theorem settled_step (hread : ReadsAtMost ff) (flash : Flash) {s : System σ} (hs : s.hw.Settled)
    (l : LoopStep σ) : (s.step ff flash l).hw.Settled := by
  have hbreak : l = .consoleBreak → Prog.Keeps (Called ff) requestConsoleBreakIRQ :=
    fun _ => called_statics fun _ => rfl
  exact settled_of_called hread ((loopRules_called hread).program flash l hbreak s) hs

theorem System.Reachable.settled (hread : ReadsAtMost ff) {flash : Flash} {s : System σ}
    (h : s.Reachable ff flash) : s.hw.Settled := by
  obtain ⟨aregH, aregL, ctxReg, mmuRam, ram, storage, input, run, rfl⟩ := h
  have hstart := (ready_setup ff input aregH aregL ctxReg mmuRam ram storage).settled
  generalize (setup ff input).final _ = s at hstart ⊢
  exact Run.invariant_foldl (I := fun s : System σ => s.hw.Settled)
    (fun s l hs => settled_step hread flash hs l) hstart run

end Run

/-! ## A board without files -/

/-- A flash without INI files and cartridges, and a menu nobody uses. -/
def blankInput : SetupInput := ⟨none, none, fun _ => false, fun _ => none, [], []⟩

/-- A board that `setup()` has left. -/
def freshSystem : System RamDisk :=
  (setup RamDisk.fatFs blankInput).final
    (.start (.setup6502 0 0 0 (fun _ => 0) fun _ => 0) (RamDisk.mounted fun _ => none))

theorem ready_freshSystem : freshSystem.Ready := ready_setup RamDisk.fatFs blankInput _ _ _ _ _ _

theorem reachable_freshSystem (flash : Flash) : freshSystem.Reachable RamDisk.fatFs flash :=
  ⟨0, 0, 0, _, _, _, blankInput, [], rfl⟩

end NeoMmu
