import NeoMmu.Mailbox.Handshake
import NeoMmu.Mailbox.StorageRuns
import NeoMmu.Usb.Handles

/-!
# Handles across requests and devices

What the requests of the clients do to the handles, next to attached and detached devices. A handle that
its client has not closed is free, or on the file it was opened on, or has been given to another OPEN.
-/

namespace NeoMmu

variable {τ φ σ α : Type}

/-! ## Answers -/

/-- What a reply leaves for the client. -/
theorem reply_spec {f : Firmware σ} (hf : f.hw.Settled) (res0 res1 : UInt16) (err flags status : UInt8) :
    let f' := (do emit (.result status err); onHw (rpMailboxPublish res0 res1 err flags status) :
      Prog (Firmware σ) Unit).final f
    f'.storage = f.storage ∧ f'.hw.view.peek RP_STATUS = status ∧ f'.hw.view.peek16 RP_RES0L = res0 ∧
      f'.hw.view.peek RP_FLAGS = flags := by
  have hfields : Stores (rpMailboxPublish res0 res1 err flags status) _ :=
    (stores_rpWrite16 RP_RES0L res0).bind <| (stores_rpWrite16 RP_RES1L res1).bind <|
      (stores_snoopWrite RP_ERR err).bind <| (stores_snoopWrite RP_FLAGS flags).bind <|
      (stores_snoopWrite RP_STATUS status).bind (stores_snoopWrite RP_DOORBELL RP_DOORBELL_NONE)
  obtain ⟨hview, -⟩ := hfields f.hw hf
  simp only [Prog.final_bind, emit, Prog.final_modify, onHw, Prog.final_on]
  generalize (rpMailboxPublish res0 res1 err flags status).final f.hw = m at hview
  have hlow : m.view.peek RP_RES0L = (res0 &&& 0xFF).toUInt8 := by
    rw [hview]
    refine Machine.View.peek_writes_last _ [] _ ?_
    simp
    decide
  have hhigh : m.view.peek (RP_RES0L + 1) = ((res0 >>> 8) &&& 0xFF).toUInt8 := by
    rw [hview]
    refine Machine.View.peek_writes_last _ [_] _ ?_
    simp
    decide
  refine ⟨trivial, ?_, ?_, ?_⟩
  · rw [hview]
    refine Machine.View.peek_writes_last _ [_, _, _, _, _, _] _ ?_
    simp
    decide
  · rw [Machine.View.peek16, hlow, hhigh, word_of_bytes]
  · rw [hview]
    refine Machine.View.peek_writes_last _ [_, _, _, _, _] _ ?_
    simp
    decide

/-- The request has failed. -/
def Firmware.Failed (f : Firmware σ) : Prop := f.hw.view.peek RP_STATUS = RP_ERROR

instance (f : Firmware σ) : Decidable f.Failed := inferInstanceAs (Decidable (_ = _))

theorem not_done_of_failed {f' : Firmware σ} (h : f'.Failed) : f'.hw.view.peek RP_STATUS ≠ RP_DONE := by
  rw [h]
  decide

theorem error_spec {f : Firmware σ} (hf : f.hw.Settled) (err : UInt8) (partialResult : UInt16) :
    ((fsMbError err partialResult).final f).storage = f.storage ∧
      ((fsMbError err partialResult).final f).Failed := by
  have hreply := reply_spec hf partialResult 0 err 0 RP_ERROR
  simp only [fsMbError, rpMailboxSetError, Prog.final_bind, Prog.final_pure, Firmware.Failed] at hreply ⊢
  exact ⟨hreply.1, hreply.2.1⟩

theorem done_spec {f : Firmware σ} (hf : f.hw.Settled) (result : UInt16) (flags : UInt8) :
    let f' := (fsMbDone result flags).final f
    f'.storage = f.storage ∧ f'.hw.view.peek RP_STATUS = RP_DONE ∧ f'.hw.view.peek16 RP_RES0L = result := by
  have hreply := reply_spec hf result 0 RP_ERR_OK flags RP_DONE
  simp only [fsMbDone, rpMailboxSetDone, Prog.final_bind, Prog.final_pure] at hreply ⊢
  exact ⟨hreply.1, hreply.2.1, hreply.2.2.1⟩

theorem done_flags {f : Firmware σ} (hf : f.hw.Settled) (result : UInt16) (flags : UInt8) :
    ((fsMbDone result flags).final f).hw.view.peek RP_FLAGS = flags := by
  have hreply := reply_spec hf result 0 RP_ERR_OK flags RP_DONE
  simp only [fsMbDone, rpMailboxSetDone, Prog.final_bind, Prog.final_pure] at hreply ⊢
  exact hreply.2.2.2

/-- The handle an OPEN returns is in the low byte of its result. -/
theorem peek_of_peek16 {v : Machine.View} {a : UInt16} {b : UInt8} (h : v.peek16 a = b.toUInt16) :
    v.peek a = b := by
  rw [← low_of_bytes (v.peek a) (v.peek (a + 1)), ← Machine.View.peek16, h]
  exact UInt8.toUInt8_toUInt16 b

theorem deviceError_spec {f : Firmware σ} (hf : f.hw.Settled) (device : UInt8) :
    ((fsMbDeviceError device).final f).storage = f.storage ∧ ((fsMbDeviceError device).final f).Failed := by
  simp only [fsMbDeviceError, Prog.final_bind, Prog.result_get, Prog.final_get, Prog.final_ite]
  split
  · exact error_spec hf _ _
  · exact error_spec hf _ _

/-! ## Closed handles -/

/-- With the handle closed the program fails. -/
def FailsClosed (handle : UInt8) (f f' : Firmware σ) : Prop :=
  f.hw.Settled → f.storage.isOpen handle = false → f'.Failed

theorem FailsClosed.of_reads {handle : UInt8} {f g f' : Firmware σ} (h : ReadsOnly f g)
    (h' : FailsClosed handle g f') : FailsClosed handle f f' := by
  intro hf hclosed
  exact h' (h.board hf).1 (by rw [h.storage]; exact hclosed)

theorem failsClosed_error (handle err : UInt8) (partialResult : UInt16) :
    Prog.Keeps (FailsClosed (σ := σ) handle) (fsMbError err partialResult) :=
  fun _ hf _ => (error_spec hf err partialResult).2

theorem failsClosed_withOpen (handle : UInt8) (operation : Prog (Firmware σ) MailboxState) :
    Prog.Keeps (FailsClosed handle) (withOpen (fun f => f.storage.isOpen handle) operation) := by
  intro f hf hclosed
  simp only [withOpen, Prog.final_bind, Prog.result_get, Prog.final_get, hclosed]
  rw [if_neg Bool.false_ne_true]
  exact (error_spec hf _ _).2

theorem failsClosed_withArgs (context : UInt8) (args_ptr length : UInt16) (handle : UInt8)
    (operation : List UInt8 → Prog (Firmware σ) MailboxState) :
    Prog.Keeps (FailsClosed handle) (withArgs context args_ptr length (fun _ => true) fun raw =>
      withOpen (fun f => f.storage.isOpen handle) (operation raw)) := by
  refine (readsOnly_readContextBlock context args_ptr length).bind_of (fun raw => ?_)
    fun _ _ _ => FailsClosed.of_reads
  rcases raw with - | raw
  · exact failsClosed_error _ _ _
  · exact failsClosed_withOpen _ _

/-- An operation on the file handle in `RP_ARG2L`. -/
def OnHandle (op : UInt8) : Prop :=
  op = RP_FS_OP_READ ∨ op = RP_FS_OP_WRITE ∨ op = RP_FS_OP_SEEK ∨ op = RP_FS_OP_TELL ∨
    op = RP_FS_OP_CLOSE

instance (op : UInt8) : Decidable (OnHandle op) := inferInstanceAs (Decidable (_ ∨ _))

/-- With the handle in `RP_ARG2L` closed the program fails. -/
def ClosedFails (f f' : Firmware σ) : Prop := FailsClosed (f.hw.view.peek RP_ARG2L) f f'

theorem closedFails_arg2L {k : UInt8 → Prog (Firmware σ) MailboxState}
    (hk : ∀ handle, Prog.Keeps (FailsClosed handle) (k handle)) :
    Prog.Keeps ClosedFails (readArg2L >>= k) := by
  intro f hf hclosed
  obtain ⟨hhandle, -, hsettled⟩ := snoopRead6502MemoryLoc_spec hf RP_ARG2L
  simp only [readArg2L, Prog.final_bind, onHw, Prog.result_on, Prog.final_on, hhandle]
  exact hk _ _ hsettled hclosed

theorem closedFails_arg0 {k : UInt16 → Prog (Firmware σ) MailboxState}
    (hk : ∀ args_ptr, Prog.Keeps ClosedFails (k args_ptr)) : Prog.Keeps ClosedFails (readArg0 >>= k) := by
  intro f hf hclosed
  obtain ⟨-, hview, hsettled⟩ := rpRead16_spec hf RP_ARG0L
  simp only [readArg0, Prog.final_bind, onHw, Prog.result_on, Prog.final_on]
  generalize (rpRead16 RP_ARG0L).final f.hw = m at hview hsettled ⊢
  rw [← hview] at hclosed
  exact hk _ _ hsettled hclosed

theorem closedFails_operation (ff : FatFs σ) {op : UInt8} (hop : OnHandle op) (pid context : UInt8) :
    Prog.Keeps ClosedFails (execOperation ff op pid context) := by
  rcases hop with rfl | rfl | rfl | rfl | rfl
  · exact closedFails_arg0 fun args_ptr => closedFails_arg2L fun handle =>
      failsClosed_withArgs context args_ptr 6 handle _
  · exact closedFails_arg0 fun args_ptr => closedFails_arg2L fun handle =>
      failsClosed_withArgs context args_ptr 6 handle _
  · exact closedFails_arg0 fun args_ptr => closedFails_arg2L fun handle =>
      failsClosed_withArgs context args_ptr 10 handle _
  · exact closedFails_arg0 fun args_ptr => closedFails_arg2L fun handle =>
      failsClosed_withArgs context args_ptr 6 handle _
  · exact closedFails_arg2L fun handle => failsClosed_withOpen handle _

/-- A request on a closed handle fails. -/
theorem closed_handle_fails (ff : FatFs σ) {f : Firmware σ} (hf : f.hw.Settled)
    (hop : OnHandle (f.hw.view.peek RP_STATE))
    (hclosed : f.storage.isOpen (f.hw.view.peek RP_ARG2L) = false) :
    ((rpFsMailboxHandleExec ff).final f).Failed := by
  obtain ⟨m₀, op, pid, context, hblock, -, hfin⟩ := final_rpFsMailboxHandleExec ff f
  obtain ⟨hm₀, hview₀, rfl, -, -⟩ := hblock hf
  have hchecked : Prog.Keeps ClosedFails (checkedOperation ff (f.hw.view.peek RP_STATE) pid context) :=
    Prog.Keeps.ite (fun _ _ => failsClosed_error _ _ _ _) fun _ => closedFails_operation ff hop pid context
  rw [← hview₀] at hclosed
  rw [hfin]
  exact hchecked { f with hw := m₀ } hm₀ hclosed

/-! ## OPEN -/

section Requests

variable {ff : UsbFatFs τ} {file : τ → UInt8 → φ}

/-- An OPEN fails, or returns a handle that it has taken into use, and keeps the other handles. -/
def OpenOutcome (file : τ → UInt8 → φ) (f f' : Firmware (UsbHost τ)) : Prop :=
  f.hw.Settled → (HandlesKept file NoHandle f.storage f'.storage ∧ f'.Failed) ∨
    (f'.hw.view.peek RP_STATUS = RP_DONE ∧
      f'.storage.isOpen (f'.hw.view.peek RP_RES0L) = true ∧
      HandlesKept file (· = f'.hw.view.peek RP_RES0L) f.storage f'.storage)

theorem OpenOutcome.of_reads {f g f' : Firmware (UsbHost τ)} (h : ReadsOnly f g)
    (h' : OpenOutcome file g f') : OpenOutcome file f f' := by
  intro hf
  rw [← h.storage]
  exact h' (h.board hf).1

theorem openOutcome_error (err : UInt8) (partialResult : UInt16) :
    Prog.Keeps (OpenOutcome file) (fsMbError err partialResult) := by
  intro f hf
  obtain ⟨hstorage, hfailed⟩ := error_spec hf err partialResult
  rw [hstorage]
  exact .inl ⟨refl_of (HandlesKept file NoHandle) _, hfailed⟩

theorem openOutcome_open (laws : HandleLaws ff file) (pid context : UInt8) (args_ptr : UInt16) :
    Prog.Keeps (OpenOutcome file) (rpFsMbExecOpen ff.toFatFs pid context args_ptr) := by
  refine (readsOnly_readContextBlock context args_ptr 6).bind_of (fun raw => ?_)
    fun _ _ _ => OpenOutcome.of_reads
  rcases raw with - | raw
  · exact openOutcome_error _ _
  refine Prog.Keeps.ite (fun _ => ?_) fun _ => openOutcome_error _ _
  refine (readsOnly_resolveArgPath pid context _ _ _).bind_of (fun path => ?_)
    fun _ _ _ => OpenOutcome.of_reads
  rcases path with - | path
  · exact openOutcome_error _ _
  intro f hf
  simp only [Prog.final_bind, Prog.result_get, Prog.final_get, Prog.final_ite]
  split
  · exact openOutcome_error _ _ f hf
  simp only [onStorage, Prog.result_on, Prog.final_on]
  rcases openByMode_kept laws (rawByte raw 4) path.device path.path f.storage with
    ⟨hres, hkept⟩ | ⟨slot, hres, hslot, hin, hkept⟩
  · rw [hres]
    generalize (openByMode ff.toFatFs _ _ _).final f.storage = s at hkept
    obtain ⟨hstorage, hfailed⟩ := deviceError_spec (f := { f with storage := s }) hf path.device
    refine .inl ⟨?_, hfailed⟩
    rw [hstorage]
    exact hkept
  · rw [hres]
    generalize (openByMode ff.toFatFs _ _ _).final f.storage = s at hin hkept
    obtain ⟨hstorage, hstatus, hhandle⟩ := done_spec (f := { f with storage := s }) hf slot.toUInt16 path.device
    replace hhandle := peek_of_peek16 hhandle
    refine .inr ⟨hstatus, ?_, ?_⟩
    · rw [hstorage, hhandle, Storage.isOpen, hin, decide_eq_true hslot]
      rfl
    · rw [hstorage, hhandle]
      exact hkept

/-! ## SAVE and LOAD -/

/-- The handle of a transfer is free behind it. -/
theorem free_bulkTransfer {op c device handle : UInt8} {mem_ptr : UInt16} {n : Nat}
    (hhandle : handle < RP_FS_MAX_HANDLES) (f : Firmware σ) (ff : FatFs σ) :
    (((bulkTransfer ff op c device handle mem_ptr n).final f).storage.gRPFSHandles handle).in_use = false := by
  have hrules : RequestRules (OnStorage (σ := σ) Eq) Eq c := requestRules_onStorage c
  have herror : ∀ err partialResult (g : Firmware σ),
      ((fsMbError err partialResult).final g).storage = g.storage := fun err partialResult g =>
    (hrules.error err partialResult g).symm
  have hdone : ∀ result flags (g : Firmware σ),
      ((fsMbDone result flags).final g).storage = g.storage := fun result flags g =>
    (hrules.done result flags g).symm
  simp only [bulkTransfer, Prog.final_ite, Prog.final_bind, Prog.final_discard]
  split
  · rw [herror]
    exact free_close ff hhandle f.storage
  generalize (withContext c (bulkLoop ff op handle mem_ptr n 0)).final f = g
  rcases (withContext c (bulkLoop ff op handle mem_ptr n 0)).result f with - | ⟨total, failed⟩
  · simp only [Prog.final_bind, Prog.final_discard]
    rw [herror]
    exact free_close ff hhandle g.storage
  · simp only [Prog.final_bind, Prog.final_ite]
    split
    · rw [herror]
      exact free_close ff hhandle g.storage
    · rw [hdone]
      exact free_close ff hhandle g.storage

theorem bulkOpen_kept (laws : HandleLaws ff file) (op device : UInt8) (path : List UInt8) (requested : Nat)
    (s : Storage (UsbHost τ)) :
    let m := bulkOpen ff.toFatFs op device path requested
    ((m.result s).1 = none ∧ HandlesKept file NoHandle s (m.final s)) ∨
      ∃ slot, (m.result s).1 = some slot ∧ slot < RP_FS_MAX_HANDLES ∧
        HandlesKept file (· = slot) s (m.final s) := by
  intro m
  obtain ⟨hfin, hres⟩ := bulkOpen_eq_open ff.toFatFs op device path requested s
  rw [show m.final s = _ from hfin, show (m.result s).1 = _ from hres]
  rcases open_kept laws device path (bulkMode op) (bulkFlags op) s with
    ⟨hres, hkept⟩ | ⟨slot, hres, hslot, -, hkept⟩
  · exact .inl ⟨hres, hkept⟩
  · exact .inr ⟨slot, hres, hslot, hkept⟩

/-- A SAVE or LOAD opens and closes a handle of its own. -/
theorem kept_bulkOnPath (laws : HandleLaws ff file) (hread : ReadsAtMost ff.toFatFs) (op c : UInt8)
    (path : RPFSResolvedPath) (mem_ptr size_word : UInt16) :
    Prog.Keeps (OnStorage (HandlesKept file NoHandle))
      (bulkOnPath ff.toFatFs op c path mem_ptr size_word) := by
  intro f
  have hfiles := (callRules_kept laws).fileRules
  have hopen := bulkOpen_kept laws op path.device path.path (rpFsMbEffective16bitSize size_word) f.storage
  simp only [bulkOnPath, Prog.final_bind, onStorage, Prog.result_on, Prog.final_on]
  dsimp only at hopen
  generalize (bulkOpen ff.toFatFs op path.device path.path _).final f.storage = s at hopen ⊢
  generalize (bulkOpen ff.toFatFs op path.device path.path _).result f.storage = opened at hopen ⊢
  rcases opened with ⟨- | handle, n⟩
  · have hkept : HandlesKept file NoHandle f.storage s := by
      rcases hopen with ⟨-, hkept⟩ | ⟨slot, hres, -⟩
      · exact hkept
      · cases hres
    have hrules : RequestRules (OnStorage (HandlesKept file NoHandle)) (HandlesKept file NoHandle) c :=
      requestRules_onStorage c
    exact trans_of (HandlesKept file NoHandle) hkept (hrules.deviceError path.device { f with storage := s })
  · obtain ⟨hhandle, hkept⟩ : handle < RP_FS_MAX_HANDLES ∧ HandlesKept file (· = handle) f.storage s := by
      rcases hopen with ⟨hres, -⟩ | ⟨slot, hres, hslot, hkept⟩
      · cases hres
      · obtain rfl := Option.some.inj hres
        exact ⟨hslot, hkept⟩
    have hmono : ∀ {β : Type} {p : Prog (Storage (UsbHost τ)) β},
        Prog.Keeps (HandlesKept file NoHandle) p → Prog.Keeps (HandlesKept file (· = handle)) p :=
      fun hp => hp.mono fun _ _ h => h.mono fun _ hno => hno.elim
    have htransfer : Prog.Keeps (OnStorage (HandlesKept file (· = handle)))
        (bulkTransfer ff.toFatFs op c path.device handle mem_ptr n) :=
      onStorage_bulkTransfer hread (fun len => hmono (hfiles.read handle len))
        (fun _ src => hmono (hfiles.write handle src)) (hmono (hfiles.close handle))
    exact (trans_of (HandlesKept file (· = handle)) hkept (htransfer { f with storage := s })).of_free
      (free_bulkTransfer hhandle _ ff.toFatFs)

/-! ## Requests -/

/-- An OPEN takes a handle into use or fails, and every other request keeps the handles. -/
theorem request_handles (laws : HandleLaws ff file) (hread : ReadsAtMost ff.toFatFs)
    {f : Firmware (UsbHost τ)} (hf : f.hw.Settled) :
    let f' := (rpFsMailboxHandleExec ff.toFatFs).final f
    if f.hw.view.peek RP_STATE = RP_FS_OP_OPEN then OpenOutcome file f f'
    else HandlesKept file NoHandle f.storage f'.storage := by
  split
  · rename_i hop
    obtain ⟨m₀, op, pid, context, hblock, -, hfin⟩ := final_rpFsMailboxHandleExec ff.toFatFs f
    obtain ⟨hm₀, hview₀, rfl, -, -⟩ := hblock hf
    have hchecked : Prog.Keeps (OpenOutcome file) (checkedOperation ff.toFatFs RP_FS_OP_OPEN pid context) := by
      refine Prog.Keeps.ite (fun _ => openOutcome_error _ _) fun _ => ?_
      have harg0 : Prog.Keeps ReadsOnly (readArg0 (σ := UsbHost τ)) := readsOnly_rpRead16 RP_ARG0L
      exact harg0.bind_of (fun args_ptr => openOutcome_open laws pid context args_ptr)
        fun _ _ _ => OpenOutcome.of_reads
    rw [hop] at hfin
    rw [hfin]
    exact fun _ => hchecked { f with hw := m₀ } hm₀
  · rename_i hop
    exact onStorage_request (callRules_kept laws).fileRules hread hf
      (fun _ => kept_bulkOnPath laws hread _) fun h => absurd h hop

/-! ## Runs -/

/-- A handle an OPEN has returned: the file it was opened on, and whether an OPEN of another client has
returned the same handle since. -/
structure Claim (φ : Type) where
  file : φ
  superseded : Bool
  deriving DecidableEq, Repr

/-- The firmware, and the handles its clients have opened and not closed. -/
structure Clients (τ φ : Type) where
  firmware : Firmware (UsbHost τ)
  held : Nat → UInt8 → Option (Claim φ)

/-- What happens to the handles. -/
inductive ClientStep
  /-- A client posts a request, and leaves what it wants in the memory. -/
  | request (client : Nat) (ram : UInt8 × UInt16 → UInt8)
  /-- `tuh_msc_mount_cb()` -/
  | attach (dev_addr : UInt8) (block_count block_size now : UInt32)
  /-- `tuh_msc_umount_cb()` -/
  | detach (dev_addr : UInt8)
  /-- `taskUSBStorage()` -/
  | task (start now later : UInt32)
  /-- `initMailbox()` -/
  | reset

namespace Clients

/-- The firmware with the request in its memory. -/
def posted (c : Clients τ φ) (ram : UInt8 × UInt16 → UInt8) : Firmware (UsbHost τ) :=
  { c.firmware with hw := { c.firmware.hw with ram := ram } }

/-- The claims when `client` has been given `handle`. -/
def opened (c : Clients τ φ) (client : Nat) (handle : UInt8) (file : φ) :
    Nat → UInt8 → Option (Claim φ) :=
  fun client' handle' =>
    if handle' ≠ handle then c.held client' handle'
    else if client' = client then some ⟨file, false⟩
    else (c.held client' handle').map fun claim => { claim with superseded := true }

/-- The claims when `client` has asked to close `handle`. -/
def closed (c : Clients τ φ) (client : Nat) (handle : UInt8) : Nat → UInt8 → Option (Claim φ) :=
  fun client' handle' => if client' = client ∧ handle' = handle then none else c.held client' handle'

/-- The claims behind a request. -/
def answered (file : τ → UInt8 → φ) (c : Clients τ φ) (client : Nat) (f f' : Firmware (UsbHost τ)) :
    Nat → UInt8 → Option (Claim φ) :=
  if f.hw.view.peek RP_STATE = RP_FS_OP_OPEN then
    if f'.hw.view.peek RP_STATUS = RP_DONE then
      let handle := f'.hw.view.peek RP_RES0L
      c.opened client handle (file f'.storage.fatfs.fatfs handle)
    else c.held
  else if f.hw.view.peek RP_STATE = RP_FS_OP_CLOSE then c.closed client (f.hw.view.peek RP_ARG2L)
  else c.held

/-- One step. -/
def step (ff : UsbFatFs τ) (file : τ → UInt8 → φ) (c : Clients τ φ) : ClientStep → Clients τ φ
  | .request client ram =>
    let f' := (rpFsMailboxHandleExec ff.toFatFs).final (c.posted ram)
    ⟨f', c.answered file client (c.posted ram) f'⟩
  | .attach dev_addr block_count block_size now =>
    ⟨(onStorage (tuhMscMountCb dev_addr block_count block_size now)).final c.firmware, c.held⟩
  | .detach dev_addr => ⟨(onStorage (tuhMscUmountCb ff dev_addr)).final c.firmware, c.held⟩
  | .task start now later => ⟨(onStorage (taskUSBStorage ff start now later)).final c.firmware, c.held⟩
  | .reset => ⟨(initMailbox ff.toFatFs).final c.firmware, fun _ _ => none⟩

/-- A request on a handle that its client holds fails or acts on the file the client has opened, unless
the claim is `excused`. -/
def Faithful (ff : UsbFatFs τ) (file : τ → UInt8 → φ) (excused : Claim φ → Prop) (c : Clients τ φ) :
    ClientStep → Prop
  | .request client ram =>
    let f := c.posted ram
    let handle := f.hw.view.peek RP_ARG2L
    OnHandle (f.hw.view.peek RP_STATE) → ∀ claim, c.held client handle = some claim →
      ((rpFsMailboxHandleExec ff.toFatFs).final f).Failed ∨
        file f.storage.fatfs.fatfs handle = claim.file ∨ excused claim
  | _ => True

/-- The board is settled, and a handle in use is on the file of every claim to it that stands. -/
structure Sound (file : τ → UInt8 → φ) (c : Clients τ φ) : Prop where
  settled : c.firmware.hw.Settled
  claims : ∀ client handle claim, c.held client handle = some claim → claim.superseded = false →
    (c.firmware.storage.gRPFSHandles handle).in_use = true →
      file c.firmware.storage.fatfs.fatfs handle = claim.file

/-- With the handles kept no claim is broken. -/
theorem Sound.of_kept {c : Clients τ φ} (hc : c.Sound file) {f' : Firmware (UsbHost τ)}
    (hf' : f'.hw.Settled) (hkept : HandlesKept file NoHandle c.firmware.storage f'.storage)
    {held' : Nat → UInt8 → Option (Claim φ)}
    (hheld : ∀ client handle claim, held' client handle = some claim →
      c.held client handle = some claim) : (⟨f', held'⟩ : Clients τ φ).Sound file := by
  refine ⟨hf', fun client handle claim hclaim hstands hin => ?_⟩
  obtain ⟨hin₀, hfile⟩ := hkept handle id hin
  exact hfile.trans (hc.claims client handle claim (hheld _ _ _ hclaim) hstands hin₀)

/-- An OPEN breaks no claim: those to its handle are superseded, and the new one is to its file. -/
theorem Sound.opened {c : Clients τ φ} (hc : c.Sound file) {f' : Firmware (UsbHost τ)}
    (hf' : f'.hw.Settled) {handle : UInt8} (client : Nat)
    (hkept : HandlesKept file (· = handle) c.firmware.storage f'.storage) :
    (⟨f', c.opened client handle (file f'.storage.fatfs.fatfs handle)⟩ : Clients τ φ).Sound file := by
  refine ⟨hf', fun client' handle' claim hclaim hstands hin => ?_⟩
  simp only [Clients.opened] at hclaim
  split at hclaim
  · rename_i hother
    obtain ⟨hin₀, hfile⟩ := hkept handle' hother hin
    exact hfile.trans (hc.claims client' handle' claim hclaim hstands hin₀)
  · rename_i hsame
    rw [not_not] at hsame
    split at hclaim
    · rw [← Option.some.inj hclaim, hsame]
    · obtain ⟨claim₀, -, rfl⟩ := Option.map_eq_some_iff.1 hclaim
      exact absurd hstands (by simp)

theorem settled_request (ff : FatFs σ) {f : Firmware σ} (hf : f.hw.Settled) :
    ((rpFsMailboxHandleExec ff).final f).hw.Settled := by
  obtain ⟨m₀, op, pid, context, hblock, -, hfin⟩ := final_rpFsMailboxHandleExec ff f
  obtain ⟨hm₀, -⟩ := hblock hf
  have hcompletes : Completes (checkedOperation ff op pid context) := completes_checkedOperation ff _ op
  obtain ⟨-, ⟨n, status, err, -, -, hboard⟩, -⟩ := hcompletes { f with hw := m₀ }
  rw [hfin]
  exact (hboard hm₀).1.settled

/-- A request breaks no claim. -/
theorem Sound.request (laws : HandleLaws ff file) (hread : ReadsAtMost ff.toFatFs) {c : Clients τ φ}
    (hc : c.Sound file) (client : Nat) (ram : UInt8 × UInt16 → UInt8) :
    (c.step ff file (.request client ram)).Sound file := by
  have hf : (c.posted ram).hw.Settled :=
    ⟨hc.settled.started, hc.settled.rpi, hc.settled.reset, hc.settled.cached⟩
  have hf' := settled_request ff.toFatFs hf
  have hhandles := request_handles laws hread hf
  simp only [Clients.step, Clients.answered]
  dsimp only at hhandles
  have hstorage : (c.posted ram).storage = c.firmware.storage := rfl
  generalize c.posted ram = f at hf hf' hhandles hstorage ⊢
  generalize (rpFsMailboxHandleExec ff.toFatFs).final f = f' at hf' hhandles ⊢
  split
  · rename_i hopen
    rw [if_pos hopen] at hhandles
    rcases hhandles hf with ⟨hkept, hfailed⟩ | ⟨hstatus, -, hkept⟩
    · have herror : ¬ f'.hw.view.peek RP_STATUS = RP_DONE := by
        rw [show f'.hw.view.peek RP_STATUS = RP_ERROR from hfailed]
        decide
      rw [if_neg herror]
      exact hc.of_kept hf' (hstorage ▸ hkept) fun _ _ _ h => h
    · rw [if_pos hstatus]
      exact hc.opened hf' client (hstorage ▸ hkept)
  · rename_i hother
    rw [if_neg hother, hstorage] at hhandles
    split
    · refine hc.of_kept hf' hhandles fun client' handle' claim hclaim => ?_
      rw [Clients.closed] at hclaim
      split at hclaim
      · cases hclaim
      · exact hclaim
    · exact hc.of_kept hf' hhandles fun _ _ _ h => h

/-- One step breaks no claim. -/
theorem Sound.step (laws : HandleLaws ff file) (hread : ReadsAtMost ff.toFatFs) {c : Clients τ φ}
    (hc : c.Sound file) (l : ClientStep) : (c.step ff file l).Sound file := by
  cases l with
  | request client ram => exact hc.request laws hread client ram
  | attach dev_addr block_count block_size now =>
    have hkept : HandlesKept file NoHandle c.firmware.storage _ :=
      keeps_mountCb keptByTables_handlesKept dev_addr block_count block_size now c.firmware.storage
    refine hc.of_kept ?_ hkept fun _ _ _ h => h
    exact hc.settled
  | detach dev_addr =>
    have hkept := (hostRules_kept laws).toDetachRules.umountCb dev_addr c.firmware.storage
    refine hc.of_kept ?_ hkept fun _ _ _ h => h
    exact hc.settled
  | task start now later =>
    have hkept := (hostRules_kept laws).taskUSBStorage start now later c.firmware.storage
    refine hc.of_kept ?_ hkept fun _ _ _ h => h
    exact hc.settled
  | reset => exact ⟨settled_initMailbox ff.toFatFs hc.settled, fun _ _ _ h => nomatch h⟩

/-- A request on a handle fails, or acts on the file of every claim to it that stands. -/
theorem Sound.faithful {c : Clients τ φ} (hc : c.Sound file) (l : ClientStep) :
    c.Faithful ff file (·.superseded = true) l := by
  cases l with
  | request client ram =>
    intro hop claim hclaim
    have hf : (c.posted ram).hw.Settled :=
      ⟨hc.settled.started, hc.settled.rpi, hc.settled.reset, hc.settled.cached⟩
    by_cases hstands : claim.superseded = true
    · exact .inr (.inr hstands)
    rcases hin : (c.posted ram).storage.isOpen ((c.posted ram).hw.view.peek RP_ARG2L) with - | -
    · exact .inl (closed_handle_fails ff.toFatFs hf hop hin)
    · refine .inr (.inl ?_)
      rw [Storage.isOpen, Bool.and_eq_true] at hin
      exact hc.claims client _ claim hclaim (Bool.not_eq_true _ ▸ hstands) hin.2
  | attach dev_addr block_count block_size now => trivial
  | detach dev_addr => trivial
  | task start now later => trivial
  | reset => trivial

end Clients

/-- The clients before their first request. -/
def Clients.start (f : Firmware (UsbHost τ)) : Clients τ φ := ⟨f, fun _ _ => none⟩

/-- Whatever the clients request and whichever devices come and go, a request on a handle that its client
has opened and not closed fails, or acts on the file that the client has opened, or comes after an OPEN
that has given the handle to another client. -/
theorem handle_faithful_or_superseded (ff : UsbFatFs τ) (file : τ → UInt8 → φ) (laws : HandleLaws ff file)
    (hread : ReadsAtMost ff.toFatFs) (f : Firmware (UsbHost τ)) (hf : f.hw.Settled)
    (run : List ClientStep) :
    Run.AtEveryStep (Clients.step ff file) (Clients.Faithful ff file (·.superseded = true)) (.start f)
      run := by
  have hstart : (Clients.start f).Sound file := ⟨hf, fun _ _ _ h => nomatch h⟩
  exact Run.atEveryStep_of_invariant (I := Clients.Sound file)
    (fun _ l hc => hc.step laws hread l) (fun _ l hc => hc.faithful l) hstart run

end Requests

/-! ## A handle that is used again -/

/-- The path of the file a slot has open. -/
def RamDisk.pathOf (disk : RamDisk) (slot : UInt8) : List UInt8 := (disk.fil slot).1

theorem kept_overHost {but : UInt8 → Prop} {p : Prog (Storage RamDisk) α}
    (h : ∀ s i, ¬ but i → ((p.final s).fatfs.fil i).1 = (s.fatfs.fil i).1) :
    Prog.Keeps (HandlesKept RamDisk.pathOf but) (overHost p) :=
  fun s i hi hin => ⟨hin, h s.inner i hi⟩

theorem fil_seek_self (s : Storage RamDisk) (slot : UInt8) (position : Nat) (i : UInt8) :
    ((RamDisk.seek slot (s.fatfs.fil slot).1 position s).fatfs.fil i).1 = (s.fatfs.fil i).1 := by
  by_cases heq : i = slot
  · simp [RamDisk.seek, heq]
  · simp [RamDisk.seek, Function.update_of_ne heq]

theorem handleLaws_usbFatFs (dev_addr : UInt8) :
    HandleLaws (RamDisk.usbFatFs dev_addr) RamDisk.pathOf where
  f_mount _ := kept_overHost fun _ _ _ => rfl
  f_unmount _ := Prog.Keeps.pure FR_OK
  f_open slot path mode := by
    intro s hfree
    have hopen : Prog.Keeps (HandlesKept RamDisk.pathOf (· = slot))
        ((RamDisk.usbFatFs dev_addr).f_open slot path mode) := by
      refine kept_overHost fun s i hi => ?_
      simp only [RamDisk.fatFs, Prog.final_ite, Prog.final_bind, Prog.final_modify, Prog.final_pure,
        Prog.final_get]
      split_ifs
      · simp [RamDisk.seek, RamDisk.write, Function.update_of_ne hi]
      · simp [RamDisk.seek, Function.update_of_ne hi]
      · rfl
    exact (hopen s).of_free hfree
  f_close _ := kept_overHost fun _ _ _ => rfl
  f_read slot len := kept_overHost fun s i _ => fil_seek_self s slot _ i
  f_write slot src := kept_overHost fun s i _ => fil_seek_self (RamDisk.write _ _ s) slot _ i
  f_lseek slot position := kept_overHost fun s i _ => fil_seek_self s slot _ i
  f_unlink path := by
    refine kept_overHost fun s i _ => ?_
    simp only [RamDisk.fatFs, Prog.final_ite, Prog.final_bind, Prog.final_modify, Prog.final_pure,
      Prog.final_get]
    split_ifs
    · rfl
    · rfl
  f_rename old_path new_path := by
    refine kept_overHost fun s i _ => ?_
    simp only [RamDisk.fatFs, Prog.final_bind, Prog.result_get, Prog.final_get]
    split
    · rfl
    · rfl
  f_mkdir _ := kept_overHost fun _ _ _ => rfl
  f_opendir _ _ := kept_overHost fun _ _ _ => rfl
  f_readdir _ := kept_overHost fun _ _ _ => rfl
  f_closedir _ := kept_overHost fun _ _ _ => rfl
  hostTask := keeps_mountCb keptByTables_handlesKept dev_addr 1000 512 0

/-- The memory of a request of PID 1 in context 0 whose arguments are at `0200`. -/
def clientRam (op handle : UInt8) (args : List UInt8) (cell : UInt8 × UInt16) : UInt8 :=
  (List.lookup cell
    [((0x0B, 0x005), op), ((0x0B, 0x007), 0x02), ((0x0B, 0x008), 1), ((0x0B, 0x00A), handle)]).getD
    (if cell.1 = 0 ∧ 0x200 ≤ cell.2 then args.getD (cell.2 - 0x200).toNat 0 else 0)

/-- An OPEN for reading, with the path behind the arguments. -/
def openStep (client : Nat) (path : List UInt8) : ClientStep :=
  .request client (clientRam RP_FS_OP_OPEN 0 ([0x06, 0x02, 9, 0, 0, 0] ++ path))

/-- A READ of two bytes to `0300`. -/
def readStep (client : Nat) (handle : UInt8) : ClientStep :=
  .request client (clientRam RP_FS_OP_READ handle [0, 0, 0x00, 0x03, 2, 0])

/-- A firmware that will find a disk with two files. -/
def twoFileFirmware : Firmware (UsbHost RamDisk) :=
  .start (.running fun _ => 0) <| .boot ⟨fun _ => .clear, false, 0, 0, ⟨fun path =>
    if path = ascii "0:/A" then some (ascii "data of A")
    else if path = ascii "0:/B" then some (ascii "data of B")
    else none, fun _ => ([], 0)⟩⟩

/-- A client opens a file, its disk is taken out and put back in, and another client opens another file. -/
def reuseRun : List ClientStep :=
  [.attach 1 1000 512 0, openStep 1 (ascii "/A"), .detach 1, .attach 1 1000 512 0,
    openStep 2 (ascii "/B")]

theorem reused_handle_superseded :
    Run.AtEveryStep (Clients.step (RamDisk.usbFatFs 1) RamDisk.pathOf)
      (Clients.Faithful (RamDisk.usbFatFs 1) RamDisk.pathOf (·.superseded = true))
      (.start twoFileFirmware) (reuseRun ++ [readStep 1 0]) :=
  handle_faithful_or_superseded (RamDisk.usbFatFs 1) RamDisk.pathOf (handleLaws_usbFatFs 1)
    (readsAtMost_usbFatFs 1) twoFileFirmware (Machine.settled_running _) _

/-- The first client then reads the file of the second. -/
theorem reused_handle_unfaithful :
    HandleLaws (RamDisk.usbFatFs 1) RamDisk.pathOf ∧ ReadsAtMost (RamDisk.usbFatFs 1).toFatFs ∧
      ¬ Run.AtEveryStep (Clients.step (RamDisk.usbFatFs 1) RamDisk.pathOf)
        (Clients.Faithful (RamDisk.usbFatFs 1) RamDisk.pathOf fun _ => False)
        (.start twoFileFirmware) (reuseRun ++ [readStep 1 0]) := by
  refine ⟨handleLaws_usbFatFs 1, readsAtMost_usbFatFs 1, fun h => ?_⟩
  have hfaithful := h reuseRun (readStep 1 0) [] rfl (by decide +kernel) ⟨ascii "0:/A", true⟩
    (by decide +kernel)
  rcases hfaithful with hfailed | hfile | hexcused
  · exact absurd hfailed (by decide +kernel)
  · exact absurd hfile (by decide +kernel)
  · exact hexcused

end NeoMmu
