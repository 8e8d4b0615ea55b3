import NeoMmu.Mailbox.Calls
import NeoMmu.Memory.Parse

/-!
# Memory access is transparent

Snooping and context accesses end in the system state and the MMU context they began in, also in
`sRESET`, where putting the state back selects the default context: in every state the firmware reaches
the context of `sRESET` is the default one already. The states are those behind any number of calls of
`setup()`, and those behind its reset, any number of operations, and any part of one more.
-/

namespace NeoMmu

variable {σ α : Type}

/-! ## Every call leaves the board settled -/

theorem settling_snoopCall (call : SnoopCall) : Prog.Keeps Settling call.run := by
  cases call with
  | readLoc a => exact settling_snoopRead6502MemoryLoc a
  | read a n => exact settling_snoopRead6502Memory a n
  | writeLoc a b => exact settling_snoopWrite6502MemoryLoc a b
  | write a bs => exact settling_snoopWrite6502Memory a bs

/-- A context switch ends with the state put back, in `sRESET` with the default context. -/
theorem settling_schedSwitchcontext (c : UInt8) : Prog.Keeps Settling (schedSwitchcontext c) := by
  have hdisable : Prog.Keeps Settling disableMMUInterrupt := fun _ hm => hm.congr rfl rfl rfl rfl
  have henable : Prog.Keeps Settling enableMMUInterrupt := fun _ hm => hm.congr rfl rfl rfl rfl
  have hswitch : Prog.Keeps Settling _ :=
    settling_bracket (s := .sHALTED) nofun nofun (selecting_setMMUContext c)
  refine hdisable.bind fun _ => fun m hm => ?_
  exact henable _ (hswitch m hm)

theorem selecting_dumpMMUPageMap (c : UInt8) : Prog.Keeps Selecting (dumpMMUPageMap c) :=
  Prog.Keeps.ite (fun _ => Prog.Keeps.pure ()) fun _ =>
    Prog.Keeps.forM fun _ _ => (selecting_readMMUPage _ _).discard

theorem settling_cmdMMU : Prog.Keeps Settling cmdMMU := fun m =>
  settling_bracket (s := .sRPI) nofun nofun (selecting_dumpMMUPageMap m.getMMUContext) m

theorem settling_cmdPage (lIndex lPage : UInt8) : Prog.Keeps Settling (cmdPage lIndex lPage) := fun m =>
  settling_bracket (s := .sRPI) nofun nofun ((selecting_readMMUPage m.getMMUContext lIndex).discard.bind
    fun _ => (selecting_writeMMUPage m.getMMUContext lIndex lPage).discard) m

theorem settling_cmdZero : Prog.Keeps Settling cmdZero :=
  settling_bracket (s := .sBOOT) nofun nofun (Prog.Keeps.forM fun _ _ => selecting_write6502Memory _ _)

theorem selecting_switchContext (c : UInt8) : Prog.Keeps Selecting (switchContext c) :=
  Prog.Keeps.get.bind fun _ => Prog.Keeps.ite (fun _ => selecting_setMMUContext c) fun _ =>
    Prog.Keeps.pure ()

theorem settling_fsbulkInContext (c : UInt8) {body : Prog Machine α} (hbody : Prog.Keeps Selecting body) :
    Prog.Keeps Settling (fsbulkInContext c body) := by
  refine Prog.Keeps.ite (fun _ => Prog.Keeps.pure _) fun _ => fun m hm => ?_
  have hinside : Prog.Keeps Selecting (do
      let saved_context := (← get).getMMUContext
      switchContext c
      let r ← body
      switchContext saved_context
      return r) :=
    Prog.Keeps.get.bind fun _ => (selecting_switchContext c).bind fun _ => hbody.bind fun _ =>
      (selecting_switchContext _).bind fun _ => Prog.Keeps.pure _
  exact settling_bracket (s := .sRPI) nofun nofun hinside m hm

theorem selecting_compareBlock (a : UInt16) (bs : List UInt8) :
    Prog.Keeps Selecting (compareBlock a bs) := by
  induction bs generalizing a with
  | nil => exact Prog.Keeps.pure true
  | cons b bs ih =>
    exact (selecting_read6502Memory a).bind fun _ =>
      Prog.Keeps.ite (fun _ => Prog.Keeps.pure false) fun _ => ih (a + 1)

theorem settling_fsbulkPrepareContext (c device : UInt8) (save_args : Bool) (byte_count : UInt16) :
    Prog.Keeps Settling (fsbulkPrepareContext c device save_args byte_count) := by
  have hword : ∀ a v, Prog.Keeps Selecting (fsbulkWrite16 a v) := fun a v =>
    (selecting_write6502Memory a _).bind fun _ => selecting_write6502Memory (a + 1) _
  refine (settling_fsbulkInContext c ?_).bind fun _ => Prog.Keeps.pure _
  iterate 3 refine (selecting_writeBlock _ _).bind fun _ => ?_
  iterate 3 refine (hword _ _).bind fun _ => ?_
  exact (selecting_write6502Memory _ _).bind fun _ => selecting_write6502Memory _ _

theorem settling_boardCall (call : BoardCall) : Prog.Keeps Settling call.run := by
  cases call with
  | snoop call => exact settling_snoopCall call
  | set6502State s => exact settling_set6502State s
  | schedSwitchcontext c => exact settling_schedSwitchcontext c
  | singleCycle6502 n => exact settling_singleCycle6502 n
  | singleStep6502 => exact settling_singleStep6502
  | setIRQPin level => exact fun _ hm => hm.congr rfl rfl rfl rfl
  | ackMMUIO => exact fun _ hm => hm.congr rfl rfl rfl rfl
  | cmdMMU => exact settling_cmdMMU
  | cmdPage i p => exact settling_cmdPage i p
  | cmdZero => exact settling_cmdZero
  | fsbulkPrepareContext c device save_args n =>
    exact settling_fsbulkPrepareContext c device save_args n
  | fsbulkCompareContext c =>
    exact (settling_fsbulkInContext c (selecting_compareBlock _ _)).bind fun _ => Prog.Keeps.pure _
  | bootSystemWithMenu flash tables c lines => exact settling_bootSystemWithMenu flash tables c lines
  | memory ram => exact fun _ hm => hm.congr rfl rfl rfl rfl
  | intrMMUIO =>
    refine Prog.Keeps.modify fun m hm => ?_
    split
    · exact hm.congr rfl rfl rfl rfl
    · exact hm

/-! ## Transparency -/

/-- Every snooping function and every context access ends in the state and the context it began in, and
changes no byte of the memory that it was not asked to write. -/
structure Transparent (ff : FatFs σ) (f : Firmware σ) : Prop where
  snoop : ∀ call : SnoopCall, call.Fits →
    Access f.hw.ctxReg (fun a => ∃ b, (a, b) ∈ call.asked) f.hw (call.run.final f.hw)
  context : ∀ call : ContextCall,
    Access call.context call.Asked f.hw ((call.run ff).final f).hw

theorem Access.refl {c : UInt8} {A : UInt16 → Prop} {m : Machine} (hm : m.Settled) : Access c A m m :=
  ⟨hm, rfl, rfl, rfl, fun _ _ => rfl⟩

/-- Writes in the context in force. -/
theorem access_of_view {m m' : Machine} {ws : List (UInt16 × UInt8)} (hm' : m'.Settled)
    (hview : m'.view = m.view.writes ws) : Access m.ctxReg (fun a => ∃ b, (a, b) ∈ ws) m m' := by
  obtain ⟨-, hstate, hctx⟩ := undisturbed_of_view hm' hview
  refine ⟨hm', hstate, hctx, ?_, fun cell hcell => ?_⟩
  · rw [Machine.View.writes_eq_self] at hview
    exact congrArg Machine.View.mmuRam hview
  · rw [show m'.ram = _ from congrArg Machine.View.ram hview]
    exact m.view.ram_writes_of_ne fun w hw => hcell w.1 ⟨w.2, hw⟩

theorem access_snoopCall {m : Machine} (hm : m.Settled) (call : SnoopCall) :
    Access m.ctxReg (fun a => ∃ b, (a, b) ∈ call.asked) m (call.run.final m) := by
  cases call with
  | readLoc a =>
    obtain ⟨-, hview, hm'⟩ := snoopRead6502MemoryLoc_spec hm a
    exact access_of_view hm' hview
  | read a n =>
    obtain ⟨-, hview, hm'⟩ := snoopRead6502Memory_spec hm a n
    exact access_of_view hm' hview
  | writeLoc a b =>
    obtain ⟨hview, hm'⟩ := snoopWrite6502MemoryLoc_spec hm a b
    exact access_of_view hm' hview
  | write a bs =>
    obtain ⟨hview, hm'⟩ := snoopWrite6502Memory_spec hm a bs
    exact access_of_view hm' hview

section Accesses

variable {ff : FatFs σ} {f : Firmware σ}

/-- An access is transparent, whether its context is granted or refused. -/
theorem access_withContext (hf : f.hw.Settled) (c : UInt8) {A : UInt16 → Prop}
    {body : Prog (Firmware σ) α} (hbody : Prog.Keeps (Inside A) body) :
    Access c A f.hw ((withContext c body).final f).hw := by
  rcases UInt8.lt_or_le c maxContexts with hc | hc
  · exact withContext_access hf hc hbody
  · rw [(withContext_refused hc body f).2]
    exact .refl hf

/-- The transfer of a LOAD writes inside its range, that of a SAVE nothing. -/
theorem inside_transfer (hread : ReadsAtMost ff) (op handle c : UInt8) (mem_ptr : UInt16) (n : Nat) :
    Prog.Keeps (Inside (ContextCall.transfer op handle c mem_ptr n).Asked)
      (bulkLoop ff op handle mem_ptr n 0) := by
  refine keeps_bulkLoop hread (fun _ => inside_onStorage _) (fun _ _ => inside_onStorage _)
    inside_readBlock (fun hload total bytes hlen => ?_) 0
  refine inside_writeBlock fun i hi => ⟨hload, total + i, by omega, ?_⟩
  rw [UInt16.add_assoc, ← UInt16.ofNat_add]

theorem access_contextCall (hread : ReadsAtMost ff) (hf : f.hw.Settled) (call : ContextCall) :
    Access call.context call.Asked f.hw ((call.run ff).final f).hw := by
  cases call with
  | readBlock c a n =>
    simp only [ContextCall.run, Prog.final_discard, rpFsMbReadContextBlock, Prog.final_ite,
      Prog.final_pure]
    split
    · exact .refl hf
    · exact access_withContext hf c (inside_readBlock a n.toNat)
  | writeBlock c a src =>
    simp only [ContextCall.run, Prog.final_discard, rpFsMbWriteContextBlock, Prog.final_ite,
      Prog.final_bind, Prog.final_pure]
    split
    · exact .refl hf
    · exact access_withContext hf c (inside_writeBlock fun i hi => ⟨i, hi, rfl⟩)
  | readPath c a n dst_len =>
    simp only [ContextCall.run, Prog.final_discard, rpFsMbReadContextPath, Prog.final_ite,
      Prog.final_bind, Prog.final_pure]
    split
    · exact .refl hf
    · exact access_withContext hf c (inside_readPathLoop a 0 n.toNat)
  | transfer op handle c mem_ptr n =>
    exact access_withContext hf c (inside_transfer hread op handle c mem_ptr n)

theorem transparent_of_settled (hread : ReadsAtMost ff) (hf : f.hw.Settled) : Transparent ff f :=
  ⟨fun call _ => access_snoopCall hf call, access_contextCall hread hf⟩

/-- A call leaves the board settled. -/
theorem settled_next (hread : ReadsAtMost ff) (hf : f.hw.Settled) (call : Call σ) :
    (call.next ff f).hw.Settled := by
  cases call with
  | board call => exact settling_boardCall call f.hw hf
  | context call => exact (access_contextCall hread hf call).settled
  | statics f' => exact hf

theorem settled_of_called (hread : ReadsAtMost ff) {f' : Firmware σ} (h : Called ff f f')
    (hf : f.hw.Settled) : f'.hw.Settled := by
  induction h with
  | refl => exact hf
  | tail _ hcall ih =>
    obtain ⟨call, rfl⟩ := hcall
    exact settled_next hread ih call

end Accesses

/-! ## Runs of the firmware -/

/-- The firmware when `setup6502()` has run; the RAM of the statics is zero. -/
def System.start (hw : Machine) (storage : Storage σ) : System σ where
  scheduler := ⟨.start hw storage, false, 0, 0, 0⟩
  inCount := 0
  tables := { resetTables with systemConfig := ⟨0, 0, Name.empty⟩ }
  memoryConfig := .empty

/-- What `setup()` calls between `init6502()` and the reset at its end. -/
inductive SetupCall (σ : Type)
  | initMMU
  /-- A call of the MMU or bus driver: `configureMMUFromActiveModel()` and the dumps of its result make
  them. -/
  | driver (call : MmuCall)
  /-- `initializeMemoryConfig()` with the content of `/memory.ini`. -/
  | memoryIni (file : Option (List UInt8))
  /-- `initializeSystemConfig()` with the tables that it leaves. -/
  | systemIni (tables : SystemTables)
  | bootSystemWithMenu (lines : List (Option Int))
  | initMailbox
  | snoop (call : SnoopCall)
  /-- The other statics and the storage become those of `f`. -/
  | statics (f : Firmware σ)

/-- What happens in `loop()`. -/
inductive Operation (σ : Type)
  | taskIRQTimer (now now' : UInt32)
  | taskScheduler
  | taskSimpleIO
  | taskMailbox
  /-- A filesystem request, as the mailbox task and the monitor dispatch it. -/
  | request
  | monitor (command : MonitorCommand)
  /-- A single call, also one that the 6502 or its devices make. -/
  | single (call : Call σ)

section Programs

variable (ff : FatFs σ) (flash : Flash)

/-- What a call of `setup()` does. -/
def SetupCall.program : SetupCall σ → Prog (System σ) Unit
  | .initMMU => onBoard do discard NeoMmu.initMMU
  | .driver call => onBoard do discard call.run
  | .memoryIni file => modify fun s => { s with memoryConfig := (initializeMemoryConfig file).2 }
  | .systemIni tables => modify fun s => { s with tables := tables }
  | .bootSystemWithMenu lines => cmdSysConfig flash lines
  | .initMailbox => onScheduler <| onFirmware (NeoMmu.initMailbox ff)
  | .snoop call => onBoard call.run
  | .statics f => onScheduler <| onFirmware <| modify fun f' => { f with hw := f'.hw }

/-- What an operation does. -/
def Operation.program : Operation σ → Prog (System σ) Unit
  | .taskIRQTimer now now' => onScheduler (NeoMmu.taskIRQTimer now now')
  | .taskScheduler => NeoMmu.taskScheduler
  | Operation.taskSimpleIO => onScheduler (onFirmware NeoMmu.taskSimpleIO)
  | .taskMailbox => onScheduler (onFirmware (NeoMmu.taskMailbox ff))
  | .request => onScheduler <| onFirmware do discard <| rpFsMailboxHandleExec ff
  | .monitor command => command.run ff flash
  | .single call => onScheduler <| onFirmware <| modify fun f => call.next ff f

/-- The firmware behind `init6502()`. -/
def System.init6502 (hw : Machine) (storage : Storage σ) : System σ :=
  (onBoard NeoMmu.init6502).final (.start hw storage)

/-- The firmware behind some calls of `setup()`. -/
def System.setUp (s : System σ) (calls : List (SetupCall σ)) : System σ :=
  calls.foldl (fun s call => (call.program ff flash).final s) s

/-- The firmware behind the reset at the end of `setup()` and some operations. -/
def System.looped (s : System σ) (operations : List (Operation σ)) : System σ :=
  operations.foldl (fun s operation => (operation.program ff flash).final s)
    ((onBoard do discard <| set6502State .sRESET).final s)

end Programs

/-! ### Setting up -/

section SettingUp

variable {ff : FatFs σ} {flash : Flash}

/-- The board is settled in `sBOOT`. -/
def Machine.Booting (m : Machine) : Prop := m.Settled ∧ m.gSysState = .sBOOT

theorem Selecting.booting {m m' : Machine} (h : Selecting m m') (hm : m.Booting) : m'.Booting := by
  obtain ⟨hsettled, hboot⟩ := hm
  obtain ⟨hsettled', hstate⟩ := h hsettled (by rw [hboot]; nofun)
  exact ⟨hsettled', hstate.trans hboot⟩

theorem booting_onBoard {p : Prog Machine α} (hp : Prog.Keeps Selecting p) {s : System σ}
    (hs : s.hw.Booting) : ((onBoard p).final s).hw.Booting :=
  (hp s.hw).booting hs

theorem selecting_mmuCall (call : MmuCall) : Prog.Keeps Selecting call.run := by
  cases call with
  | writeMMUPage c i v => exact (selecting_writeMMUPage c i v).discard.bind fun _ => Prog.Keeps.pure _
  | readMMUPage c i => exact (selecting_readMMUPage c i).bind fun _ => Prog.Keeps.pure _
  | setMMUContext c => exact (selecting_setMMUContext c).bind fun _ => Prog.Keeps.pure _
  | read6502Memory a => exact (selecting_read6502Memory a).discard.bind fun _ => Prog.Keeps.pure _
  | write6502Memory a b => exact (selecting_write6502Memory a b).bind fun _ => Prog.Keeps.pure _

theorem booting_initMailbox (ff : FatFs σ) {f : Firmware σ} (hf : f.hw.Booting) :
    ((initMailbox ff).final f).hw.Booting := by
  obtain ⟨ws, hblock, -⟩ := stores_clearBlock
  rw [hw_initMailbox]
  obtain ⟨hview, hsettled⟩ := stores_resetBoard hblock f.hw hf.1
  obtain ⟨-, hstate, -⟩ := undisturbed_of_view hsettled hview
  exact ⟨hsettled, hstate.trans hf.2⟩

theorem booting_init6502 (aregH aregL ctxReg : UInt8) (mmuRam : UInt8 × UInt8 → UInt8)
    (ram : UInt8 × UInt16 → UInt8) (storage : Storage σ) :
    (System.init6502 (.setup6502 aregH aregL ctxReg mmuRam ram) storage).hw.Booting :=
  ⟨⟨nofun, nofun, nofun, .inl rfl⟩, rfl⟩

theorem SetupCall.booting {s : System σ} (hs : s.hw.Booting) (call : SetupCall σ) :
    ((call.program ff flash).final s).hw.Booting := by
  cases call with
  | initMMU => exact booting_onBoard selecting_initMMU.discard hs
  | driver call => exact booting_onBoard (selecting_mmuCall call).discard hs
  | memoryIni file => exact hs
  | systemIni tables => exact hs
  | bootSystemWithMenu lines => exact bootSystemWithMenu_spec flash s.tables hs.1 _ lines
  | initMailbox => exact booting_initMailbox ff hs
  | snoop call =>
    have haccess := access_snoopCall hs.1 call
    exact ⟨haccess.settled, haccess.gSysState.trans hs.2⟩
  | statics f => exact hs

theorem booting_setUp {s : System σ} (hs : s.hw.Booting) (calls : List (SetupCall σ)) :
    (s.setUp ff flash calls).hw.Booting := by
  induction calls generalizing s with
  | nil => exact hs
  | cons call calls ih => exact ih (call.booting hs)

end SettingUp

/-! ### The loop -/

section Loop

variable {ff : FatFs σ}

/-- The firmware of one state leads to that of the other by calls. -/
abbrev SystemCalled (ff : FatFs σ) : System σ → System σ → Prop :=
  Order.Preimage (·.scheduler.firmware) (Called ff)

/-- Every operation is a sequence of calls. -/
theorem Operation.called (hread : ReadsAtMost ff) (flash : Flash) (operation : Operation σ) :
    Prog.Keeps (SystemCalled ff) (operation.program ff flash) := by
  have rules : CommandRules ff (Called ff) := commandRules_called hread
  cases operation with
  | taskIRQTimer now now' => exact keeps_onScheduler (rules.toTaskRules.taskIRQTimer now now')
  | taskScheduler => exact rules.taskScheduler
  | taskSimpleIO => exact keeps_onFirmware rules.toMailboxRules.taskSimpleIO
  | taskMailbox => exact keeps_onFirmware rules.toMailboxRules.taskMailbox
  | request => exact keeps_onFirmware rules.request.discard
  | monitor command => exact rules.monitor flash command
  | single call => exact keeps_onFirmware (Prog.Keeps.modify fun f => .single ⟨call, rfl⟩)

theorem settled_looped (hread : ReadsAtMost ff) (flash : Flash) {s : System σ} (hs : s.hw.Settled)
    (operations : List (Operation σ)) : (s.looped ff flash operations).hw.Settled := by
  have hreset : ((onBoard do discard <| set6502State .sRESET).final s).hw.Settled :=
    settling_set6502State .sRESET s.hw hs
  rw [System.looped]
  generalize (onBoard do discard <| set6502State .sRESET).final s = s at hreset
  induction operations generalizing s with
  | nil => exact hreset
  | cons operation operations ih =>
    exact ih _ (settled_of_called hread (operation.called hread flash s) hreset)

end Loop

/-- Every snooping call and every context access is transparent: in `setup()` behind `init6502()`, and
behind its reset after any number of operations and any calls of one that is under way. -/
theorem memory_access_transparent (ff : FatFs σ) (hread : ReadsAtMost ff) (flash : Flash)
    (aregH aregL ctxReg : UInt8) (mmuRam : UInt8 × UInt8 → UInt8) (ram : UInt8 × UInt16 → UInt8)
    (storage : Storage σ) (setup : List (SetupCall σ)) (operations : List (Operation σ))
    (calls : List (Call σ)) :
    let s := (System.init6502 (.setup6502 aregH aregL ctxReg mmuRam ram) storage).setUp ff flash setup
    Transparent ff s.scheduler.firmware ∧
      Transparent ff (calls.foldl (Call.next ff) (s.looped ff flash operations).scheduler.firmware) := by
  intro s
  have hs : s.hw.Settled := (booting_setUp (booting_init6502 _ _ _ _ _ storage) setup).1
  refine ⟨transparent_of_settled hread hs, ?_⟩
  have hlooped := settled_looped hread flash hs operations
  refine transparent_of_settled hread ?_
  exact Run.invariant_foldl (I := fun f : Firmware σ => f.hw.Settled)
    (fun f call hf => settled_next hread hf call) hlooped calls

/-- A context switch while in `sRESET`, and a write into another context behind it. -/
theorem reset_access_transparent :
    let s : System RamDisk := (System.init6502 (.setup6502 0 0 0 (fun _ => 0) fun _ => 0)
      statusFirmware.storage).setUp RamDisk.fatFs (fun _ => none) []
    let f := (s.looped RamDisk.fatFs (fun _ => none)
      [.single (.board (.schedSwitchcontext 3))]).scheduler.firmware
    f.hw.gSysState = .sRESET ∧
      Access 2 (fun a => ∃ i < 1, a = 0x1000 + UInt16.ofNat i) f.hw
        (((ContextCall.writeBlock 2 0x1000 [7]).run RamDisk.fatFs).final f).hw := by
  have h := (memory_access_transparent RamDisk.fatFs readsAtMost_ramDisk (fun _ => none) 0 0 0
    (fun _ => 0) (fun _ => 0) statusFirmware.storage [] [.single (.board (.schedSwitchcontext 3))] []).2
  exact ⟨rfl, h.context (.writeBlock 2 0x1000 [7])⟩

end NeoMmu
