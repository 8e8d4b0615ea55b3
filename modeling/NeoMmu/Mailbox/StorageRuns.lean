import NeoMmu.Mailbox.RequestFrame
import NeoMmu.Mailbox.Console
import NeoMmu.Usb.Lifecycle

/-!
# The storage lifecycle over runs

Every call of the file layer keeps a storage consistent, whatever callbacks run while FatFs waits, if no
device goes away inside of a call that then succeeds: `usb_fatfs_mount()` and the opens set their flags
behind such a call. So do requests, resets and the storage task, and hence whole runs. Only the calls a run
makes matter: FatFs notes a loss in its own state, and the steps of the run are those behind which no new
note stands.
-/

namespace NeoMmu

variable {τ α : Type}

/-- A note in the state of FatFs, which stays there. -/
def Noted (lost : τ → Prop) (s s' : Storage (UsbHost τ)) : Prop :=
  lost s.fatfs.fatfs → lost s'.fatfs.fatfs

/-- A call of FatFs that succeeds on a device that has gone away meanwhile notes it. -/
structure LossNotes (ff : UsbFatFs τ) (lost : τ → Prop) : Prop where
  noted : ff.EveryCall (Noted lost)
  f_mount : ∀ device s, s.usbPresent device = true → (ff.f_mount device).result s = FR_OK →
    ((ff.f_mount device).final s).usbPresent device = true ∨ lost ((ff.f_mount device).final s).fatfs.fatfs
  f_open : ∀ slot device filename path mode s, rpFsMakePath device filename = some path →
    s.mounted device = true → (ff.f_open slot path mode).result s = FR_OK →
      ((ff.f_open slot path mode).final s).mounted device = true ∨
        lost ((ff.f_open slot path mode).final s).fatfs.fatfs
  f_opendir : ∀ slot device dirname path s, rpFsMakeDirPath device dirname = some path →
    s.mounted device = true → (ff.f_opendir slot path).result s = FR_OK →
      ((ff.f_opendir slot path).final s).mounted device = true ∨
        lost ((ff.f_opendir slot path).final s).fatfs.fatfs

/-- A consistent storage stays consistent, or a loss is noted. -/
structure Lasting (lost : τ → Prop) (s s' : Storage (UsbHost τ)) : Prop where
  noted : Noted lost s s'
  consistent : ¬ lost s'.fatfs.fatfs → Consistent s → Consistent s'

variable {lost : τ → Prop}

instance : Std.Refl (Lasting lost) where
  refl _ := ⟨id, fun _ => id⟩

instance : IsTrans (Storage (UsbHost τ)) (Lasting lost) where
  trans _ _ _ h h' :=
    ⟨fun hlost => h'.noted (h.noted hlost),
      fun hkept hs => h'.consistent hkept (h.consistent (fun hlost => hkept (h'.noted hlost)) hs)⟩

/-- What FatFs does not see. -/
theorem Lasting.of_consistent {s s' : Storage (UsbHost τ)} (hfatfs : s'.fatfs.fatfs = s.fatfs.fatfs)
    (h : Consistent s → Consistent s') : Lasting lost s s' :=
  ⟨fun hlost => hfatfs ▸ hlost, fun _ => h⟩

/-- A flag is set behind a call of FatFs, which is right if the device has stayed. -/
theorem Lasting.flagged {s s' s'' : Storage (UsbHost τ)} (h : Lasting lost s s') {p : Prop}
    (hstays : p ∨ lost s'.fatfs.fatfs) (hflag : p → Consistent s' → Consistent s'')
    (hfatfs : s''.fatfs.fatfs = s'.fatfs.fatfs) : Lasting lost s s'' := by
  refine ⟨fun hlost => hfatfs ▸ h.noted hlost, fun hkept hs => ?_⟩
  rw [hfatfs] at hkept
  exact hflag (hstays.resolve_right hkept) (h.consistent hkept hs)

/-- Waiting is lasting. -/
theorem lasting_of_waits {m : Prog (Storage (UsbHost τ)) α} (h : Prog.Keeps Waits m)
    (hnoted : Prog.Keeps (Noted lost) m) : Prog.Keeps (Lasting lost) m :=
  fun s => ⟨hnoted s, fun _ => (h s).subsides.consistent⟩

section Calls

variable {ff : UsbFatFs τ} (laws : WaitLaws ff) (notes : LossNotes ff lost)

/-! ## Mounting and opening -/

/-- A drive of a device that is present goes into use. -/
theorem consistent_mounted {s : Storage (UsbHost τ)} (hs : Consistent s) {device : UInt8}
    (hpresent : s.usbPresent device = true) :
    Consistent { s with gUSBFatFsMounted := Function.update s.gUSBFatFsMounted device true } := by
  have hgrows : ∀ d, s.mounted d = true → Storage.mounted
      { s with gUSBFatFsMounted := Function.update s.gUSBFatFsMounted device true } d = true := by
    intro d hd
    by_cases heq : d = device
    · subst heq
      simp only [Storage.mounted, Bool.and_eq_true] at hd
      simp [Storage.mounted, hd.1]
    · simpa [Storage.mounted, Function.update_of_ne heq] using hd
  refine ⟨fun d hd => ?_, fun i hi hin => hgrows _ (hs.handles i hi hin),
    fun i hi hin => hgrows _ (hs.dirHandles i hi hin), hs.addresses⟩
  by_cases heq : d = device
  · rw [heq]
    exact hpresent
  · exact hs.present d (by simpa [Storage.mounted, Function.update_of_ne heq] using hd)

/-- A handle of a mounted drive goes into use. -/
theorem consistent_setHandle {s : Storage (UsbHost τ)} (hs : Consistent s) {device : UInt8}
    (hmounted : s.mounted device = true) (slot flags : UInt8) :
    Consistent (s.setHandle slot ⟨true, device, flags⟩) := by
  refine ⟨hs.present, fun i hi hin => ?_, hs.dirHandles, hs.addresses⟩
  by_cases heq : i = slot
  · subst heq
    have hrecord : (s.setHandle i ⟨true, device, flags⟩).gRPFSHandles i = ⟨true, device, flags⟩ :=
      Function.update_self _ _ _
    rw [hrecord]
    exact hmounted
  · simp only [Storage.setHandle, Function.update_of_ne heq] at hin ⊢
    exact hs.handles i hi hin

theorem consistent_setDirHandle {s : Storage (UsbHost τ)} (hs : Consistent s) {device : UInt8}
    (hmounted : s.mounted device = true) (slot : UInt8) :
    Consistent (s.setDirHandle slot ⟨true, device⟩) := by
  refine ⟨hs.present, hs.handles, fun i hi hin => ?_, hs.addresses⟩
  by_cases heq : i = slot
  · subst heq
    have hrecord : (s.setDirHandle i ⟨true, device⟩).gRPFSDirHandles i = ⟨true, device⟩ :=
      Function.update_self _ _ _
    rw [hrecord]
    exact hmounted
  · simp only [Storage.setDirHandle, Function.update_of_ne heq] at hin ⊢
    exact hs.dirHandles i hi hin

include laws notes

theorem lasting_mount (device : UInt8) :
    Prog.Keeps (Lasting lost) (usbFatfsMount ff.toFatFs device) := by
  intro s
  have hcall := lasting_of_waits (laws.f_mount device) (notes.noted.f_mount device) s
  simp only [usbFatfsMount, Prog.final_bind, Prog.result_get, Prog.final_get, Prog.final_ite,
    Prog.final_pure, Prog.final_modify]
  split_ifs with hlarge hflag habsent hfailed
  · exact refl_of (Lasting lost) s
  · exact refl_of (Lasting lost) s
  · exact refl_of (Lasting lost) s
  · exact hcall
  · have hstays := notes.f_mount device s (Bool.not_eq_false _ ▸ habsent) (not_not.1 hfailed)
    exact hcall.flagged hstays (fun hpresent hs => consistent_mounted hs hpresent) rfl

theorem lasting_ensureMounted (device : UInt8) : Prog.Keeps (Lasting lost) (ensureMounted ff.toFatFs device) := by
  refine Prog.Keeps.ite (fun _ => Prog.Keeps.pure false) fun _ => Prog.Keeps.get.bind fun s => ?_
  exact Prog.Keeps.ite (fun _ => Prog.Keeps.pure true) fun _ => lasting_mount laws notes device

theorem lasting_open (device : UInt8) (filename : List UInt8) (mode flags : UInt8) :
    Prog.Keeps (Lasting lost) (rpFsOpenMode83 ff.toFatFs device filename mode flags) := by
  intro s
  have hmount := lasting_ensureMounted laws notes device s
  rcases rpFsOpenMode83_final ff.toFatFs device filename mode flags s with
    ⟨-, hfin⟩ | ⟨slot, path, hmounted, -, hpath, ⟨-, hfin⟩ | ⟨hopened, -, hfin⟩⟩
  · rw [hfin]
    exact hmount
  · rw [hfin]
    have hcall := lasting_of_waits (laws.f_open slot path mode) (notes.noted.f_open slot path mode)
    exact trans_of (Lasting lost) hmount (hcall _)
  · rw [hfin]
    have hcall := lasting_of_waits (laws.f_open slot path mode) (notes.noted.f_open slot path mode)
    have hstays := notes.f_open slot device filename path mode _ hpath (mounted_ensureMounted _ hmounted) hopened
    refine trans_of (Lasting lost) hmount ?_
    -- The handle goes into use behind `f_open()`, in which its device may have gone away.
    exact (hcall _).flagged hstays (fun hmounted hs => consistent_setHandle hs hmounted slot flags) rfl

theorem lasting_opendir (device : UInt8) (dirname : List UInt8) :
    Prog.Keeps (Lasting lost) (rpFsOpendir83 ff.toFatFs device dirname) := by
  intro s
  have hmount := lasting_ensureMounted laws notes device s
  rcases rpFsOpendir83_final ff.toFatFs device dirname s with
    ⟨-, hfin⟩ | ⟨slot, path, hmounted, -, hpath, ⟨-, hfin⟩ | ⟨hopened, -, hfin⟩⟩
  · rw [hfin]
    exact hmount
  · rw [hfin]
    have hcall := lasting_of_waits (laws.f_opendir slot path) (notes.noted.f_opendir slot path)
    exact trans_of (Lasting lost) hmount (hcall _)
  · rw [hfin]
    have hcall := lasting_of_waits (laws.f_opendir slot path) (notes.noted.f_opendir slot path)
    have hstays := notes.f_opendir slot device dirname path _ hpath (mounted_ensureMounted _ hmounted) hopened
    refine trans_of (Lasting lost) hmount ?_
    exact (hcall _).flagged hstays (fun hmounted hs => consistent_setDirHandle hs hmounted slot) rfl

/-! ## Closing -/

theorem lasting_close (handle : UInt8) : Prog.Keeps (Lasting lost) (rpFsClose ff.toFatFs handle) := by
  refine Prog.Keeps.get.bind fun s => Prog.Keeps.ite (fun _ => ?_) fun _ => Prog.Keeps.pure false
  refine (lasting_of_waits (laws.f_close handle) (notes.noted.f_close handle)).bind fun fr => ?_
  refine (Prog.Keeps.modify fun s => ?_).bind fun _ => Prog.Keeps.pure _
  exact .of_consistent rfl (subsides_closeHandle s handle).consistent

theorem lasting_closedir (handle : UInt8) :
    Prog.Keeps (Lasting lost) (rpFsClosedir ff.toFatFs handle) := by
  refine Prog.Keeps.get.bind fun s => Prog.Keeps.ite (fun _ => ?_) fun _ => Prog.Keeps.pure false
  refine (lasting_of_waits (laws.f_closedir handle) (notes.noted.f_closedir handle)).bind fun fr => ?_
  refine (Prog.Keeps.modify fun s => ?_).bind fun _ => Prog.Keeps.pure _
  exact .of_consistent rfl (subsides_closeDirHandle s handle).consistent

theorem lasting_closeAll : Prog.Keeps (Lasting lost) (rpFsCloseAll ff.toFatFs) := by
  refine (Prog.Keeps.forM fun i _ => ?_).bind fun _ => Prog.Keeps.forM fun i _ => ?_
  · refine Prog.Keeps.get.bind fun s => Prog.Keeps.ite (fun _ => ?_) fun _ => Prog.Keeps.pure ()
    refine (lasting_of_waits (laws.f_close i) (notes.noted.f_close i)).discard.bind fun _ => ?_
    exact Prog.Keeps.modify fun s => .of_consistent rfl (subsides_closeHandle s i).consistent
  · refine Prog.Keeps.get.bind fun s => Prog.Keeps.ite (fun _ => ?_) fun _ => Prog.Keeps.pure ()
    refine (lasting_of_waits (laws.f_closedir i) (notes.noted.f_closedir i)).discard.bind fun _ => ?_
    exact Prog.Keeps.modify fun s => .of_consistent rfl (subsides_closeDirHandle s i).consistent

theorem callRules_lasting : CallRules ff.toFatFs (Lasting lost) where
  mount := lasting_ensureMounted laws notes
  opendir := lasting_opendir laws notes
  closedir := lasting_closedir laws notes
  close := lasting_close laws notes
  f_read slot len := lasting_of_waits (laws.f_read slot len) (notes.noted.f_read slot len)
  f_write slot src := lasting_of_waits (laws.f_write slot src) (notes.noted.f_write slot src)
  f_lseek slot position := lasting_of_waits (laws.f_lseek slot position) (notes.noted.f_lseek slot position)
  f_unlink path := lasting_of_waits (laws.f_unlink path) (notes.noted.f_unlink path)
  f_rename old_path new_path :=
    lasting_of_waits (laws.f_rename old_path new_path) (notes.noted.f_rename old_path new_path)
  f_mkdir path := lasting_of_waits (laws.f_mkdir path) (notes.noted.f_mkdir path)
  f_readdir slot := lasting_of_waits (laws.f_readdir slot) (notes.noted.f_readdir slot)

/-! ## The storage task -/

omit laws notes in
/-- The records of the slots may change as long as the addresses stay. -/
theorem consistent_of_host {s : Storage (UsbHost τ)} (hs : Consistent s) {host : UsbHost τ}
    (haddr : ∀ d, (host.gUSBStorageSlots d).dev_addr = (s.slot d).dev_addr) :
    Consistent { s with fatfs := host } := by
  refine ⟨hs.present, hs.handles, hs.dirHandles, fun d hd d' hd' hp hp' h => ?_⟩
  exact hs.addresses d hd d' hd' hp hp' ((haddr d).symm.trans (h.trans (haddr d')))

omit laws notes in
theorem consistent_setRecord {s : Storage (UsbHost τ)} (hs : Consistent s) {device : UInt8}
    {r : SlotRecord} (hr : r.dev_addr = (s.slot device).dev_addr) :
    Consistent (s.setSlot device (s.usbPresent device) r) := by
  have hpresent : Function.update s.usbPresent device (s.usbPresent device) = s.usbPresent :=
    Function.update_eq_self _ _
  rw [Storage.setSlot, hpresent]
  refine consistent_of_host hs fun d => ?_
  by_cases heq : d = device
  · subst heq
    simpa using hr
  · simp [Function.update_of_ne heq, Storage.slot]

theorem lasting_mountPending (now later : UInt32) (devices : List UInt8) :
    Prog.Keeps (Lasting lost) (mountPending ff now later devices) := by
  induction devices with
  | nil => exact Prog.Keeps.pure ()
  | cons device devices ih =>
    refine Prog.Keeps.get.bind fun s => Prog.Keeps.ite (fun _ => ih) fun _ => ?_
    refine Prog.Keeps.ite (fun _ => ih) fun _ => ?_
    have hdone : Prog.Keeps (Lasting lost) (modify fun s : Storage (UsbHost τ) => { s with fatfs := { s.fatfs with
        gNextFatFsMountAllowedMs := later + USB_STORAGE_MOUNT_STAGGER_MS } } :
        Prog (Storage (UsbHost τ)) Unit) :=
      Prog.Keeps.modify fun s => .of_consistent rfl fun hs => consistent_of_host hs fun _ => rfl
    refine (Prog.Keeps.modify fun s => ?_).bind fun _ => Prog.Keeps.get.bind fun s => ?_
    · exact .of_consistent rfl fun hs => consistent_setRecord hs rfl
    · refine Prog.Keeps.ite (fun _ => ?_) fun _ => hdone
      exact (lasting_mount laws notes device).discard.bind fun _ => hdone

theorem lasting_taskUSBStorage (start now later : UInt32) :
    Prog.Keeps (Lasting lost) (taskUSBStorage ff start now later) := by
  have hinit : Prog.Keeps (Lasting lost) (initUSBStorage (τ := τ) start) := by
    refine Prog.Keeps.modify fun s => ?_
    split
    · exact refl_of (Lasting lost) s
    · exact .of_consistent rfl fun hs => consistent_of_host hs fun _ => rfl
  have htask := lasting_of_waits laws.hostTask notes.noted.hostTask
  refine hinit.bind fun _ => htask.bind fun _ => Prog.Keeps.get.bind fun s => ?_
  refine Prog.Keeps.ite (fun _ => Prog.Keeps.pure ()) fun _ => ?_
  exact Prog.Keeps.ite (fun _ => Prog.Keeps.pure ()) fun _ => lasting_mountPending laws notes _ _ _

end Calls

/-! ## Runs -/

/-- A call of the file layer, by the monitor, the boot or a mailbox request. -/
inductive FileCall
  | mount (device : UInt8)
  | openFile (device : UInt8) (filename : List UInt8) (fatfs_mode handle_flags : UInt8)
  | close (handle : UInt8)
  | read (handle : UInt8) (len : UInt16)
  | write (handle : UInt8) (src : List UInt8)
  | seek (handle : UInt8) (position : UInt32)
  | delete (device : UInt8) (filename : List UInt8)
  | rename (device : UInt8) (old_filename new_filename : List UInt8)
  | mkdir (device : UInt8) (dirname : List UInt8)
  | rmdir (device : UInt8) (dirname : List UInt8)
  | opendir (device : UInt8) (dirname : List UInt8)
  | readdir (handle : UInt8) (name_len : Nat)
  | closedir (handle : UInt8)
  | closeAll

/-- The call. -/
def FileCall.run {σ : Type} (ff : FatFs σ) : FileCall → Prog (Storage σ) Unit
  | .mount device => discard <| usbFatfsMount ff device
  | .openFile device filename mode flags => discard <| rpFsOpenMode83 ff device filename mode flags
  | .close handle => discard <| rpFsClose ff handle
  | .read handle len => discard <| rpFsRead ff handle len
  | .write handle src => discard <| rpFsWrite ff handle src
  | .seek handle position => discard <| rpFsSeek ff handle position
  | .delete device filename => discard <| rpFsDelete83 ff device filename
  | .rename device old_filename new_filename => discard <| rpFsRename83 ff device old_filename new_filename
  | .mkdir device dirname => discard <| rpFsMkdir83 ff device dirname
  | .rmdir device dirname => discard <| rpFsRmdir83 ff device dirname
  | .opendir device dirname => discard <| rpFsOpendir83 ff device dirname
  | .readdir handle name_len => discard <| rpFsReaddir ff handle name_len
  | .closedir handle => discard <| rpFsClosedir ff handle
  | .closeAll => rpFsCloseAll ff

/-- What `loop()` does with the storage. -/
inductive StorageStep
  /-- `taskUSBStorage()`, and the callbacks in it. -/
  | task (start now later : UInt32)
  /-- A filesystem request, whatever the clients have left in the memory. -/
  | request (ram : UInt8 × UInt16 → UInt8)
  /-- `initMailbox()` -/
  | reset
  /-- A call of the file layer. -/
  | call (c : FileCall)

/-- One step. -/
def StorageStep.step (ff : UsbFatFs τ) (f : Firmware (UsbHost τ)) : StorageStep → Firmware (UsbHost τ)
  | .task start now later => (onStorage (taskUSBStorage ff start now later)).final f
  | .request ram => (rpFsMailboxHandleExec ff.toFatFs).final { f with hw := { f.hw with ram := ram } }
  | .reset => (initMailbox ff.toFatFs).final f
  | .call c => (onStorage (c.run ff.toFatFs)).final f

/-- `Q` is kept by every call of the file layer and by the storage task. -/
structure LayerRules (ff : UsbFatFs τ) (Q : Storage (UsbHost τ) → Storage (UsbHost τ) → Prop) : Prop
    extends CallRules ff.toFatFs Q where
  usbMount : ∀ device, Prog.Keeps Q (usbFatfsMount ff.toFatFs device)
  openFile : ∀ device filename mode flags, Prog.Keeps Q (rpFsOpenMode83 ff.toFatFs device filename mode flags)
  closeAll : Prog.Keeps Q (rpFsCloseAll ff.toFatFs)
  task : ∀ start now later, Prog.Keeps Q (taskUSBStorage ff start now later)

namespace LayerRules

variable {ff : UsbFatFs τ} {Q : Storage (UsbHost τ) → Storage (UsbHost τ) → Prop} [Std.Refl Q]
  [IsTrans (Storage (UsbHost τ)) Q] (h : LayerRules ff Q)

include h

theorem call (c : FileCall) : Prog.Keeps Q (c.run ff.toFatFs) := by
  have hcalls := h.toAccessCalls
  cases c with
  | mount device => exact (h.usbMount device).discard
  | openFile device filename mode flags => exact (h.openFile device filename mode flags).discard
  | close handle => exact (h.close handle).discard
  | read handle len => exact (hcalls.read handle len).discard
  | write handle src => exact (hcalls.write handle src).discard
  | seek handle position => exact (hcalls.seek handle position).discard
  | delete device filename => exact (hcalls.delete device filename).discard
  | rename device old_filename new_filename => exact (hcalls.rename device old_filename new_filename).discard
  | mkdir device dirname => exact (hcalls.mkdir device dirname).discard
  | rmdir device dirname => exact (hcalls.rmdir device dirname).discard
  | opendir device dirname => exact (h.opendir device dirname).discard
  | readdir handle name_len => exact (hcalls.readdir handle name_len).discard
  | closedir handle => exact (h.closedir handle).discard
  | closeAll => exact h.closeAll

omit [IsTrans (Storage (UsbHost τ)) Q] in
/-- The open of a request. -/
theorem openByMode (mode device : UInt8) (path : List UInt8) :
    Prog.Keeps Q (openByMode ff.toFatFs mode device path) := by
  refine Prog.Keeps.ite (fun _ => h.openFile _ _ _ _) fun _ => ?_
  refine Prog.Keeps.ite (fun _ => h.openFile _ _ _ _) fun _ => ?_
  refine Prog.Keeps.ite (fun _ => h.openFile _ _ _ _) fun _ => ?_
  refine Prog.Keeps.ite (fun _ => h.openFile _ _ _ _) fun _ => ?_
  exact Prog.Keeps.ite (fun _ => h.openFile _ _ _ _) fun _ => Prog.Keeps.pure none

theorem bulkOpen (op device : UInt8) (path : List UInt8) (requested : Nat) :
    Prog.Keeps Q (bulkOpen ff.toFatFs op device path requested) := by
  refine Prog.Keeps.ite (fun _ => ?_) fun _ => ?_
  · refine (h.openFile _ _ _ _).bind fun handle => ?_
    rcases handle with - | handle
    · exact Prog.Keeps.pure _
    · exact (Prog.Keeps.gets _).bind fun _ => Prog.Keeps.pure _
  · exact (h.openFile _ _ _ _).bind fun _ => Prog.Keeps.pure _

theorem request (hread : ReadsAtMost ff.toFatFs) :
    Prog.Keeps (OnStorage Q) (rpFsMailboxHandleExec ff.toFatFs) := by
  have hfiles := h.fileRules
  refine onStorage_handleExec hfiles hread (fun op c path mem_ptr size_word => ?_) h.openByMode
  have hrules : RequestRules (OnStorage Q) Q c := requestRules_onStorage c
  refine (hrules.storage _ (h.bulkOpen _ _ _ _)).bind fun opened => ?_
  rcases opened with ⟨- | handle, n⟩
  · exact hrules.deviceError _
  · exact onStorage_bulkTransfer hread (hfiles.read handle) (fun _ => hfiles.write handle) (hfiles.close handle)

theorem initMailbox : Prog.Keeps (OnStorage Q) (initMailbox ff.toFatFs) := by
  refine (onStorage_emit _).bind fun _ => (onStorage_onHw _).bind fun _ => ?_
  have hconsole : Prog.Keeps (OnStorage Q) (rpConsoleIoReset (σ := UsbHost τ)) :=
    Prog.Keeps.modify fun f => refl_of Q f.storage
  have hreset : Prog.Keeps (OnStorage Q) (rpFsMailboxReset ff.toFatFs) := by
    have hclose : Prog.Keeps (OnStorage Q) (onStorage (rpFsCloseAll ff.toFatFs)) :=
      fun f => h.closeAll f.storage
    exact hclose.bind fun _ => Prog.Keeps.modify fun f => refl_of Q f.storage
  refine hconsole.bind fun _ => hreset.bind fun _ => (onStorage_onHw _).bind fun _ => ?_
  exact (onStorage_onHw _).bind fun _ => onStorage_onHw _

/-- One step keeps the relation. -/
theorem step (hread : ReadsAtMost ff.toFatFs) (f : Firmware (UsbHost τ)) (l : StorageStep) :
    Q f.storage (StorageStep.step ff f l).storage := by
  cases l with
  | task start now later => exact h.task start now later f.storage
  | request ram => exact h.request hread { f with hw := { f.hw with ram := ram } }
  | reset => exact h.initMailbox f
  | call c => exact h.call c f.storage

end LayerRules

theorem layerRules_lasting {ff : UsbFatFs τ} {lost : τ → Prop} (laws : WaitLaws ff)
    (notes : LossNotes ff lost) : LayerRules ff (Lasting lost) where
  toCallRules := callRules_lasting laws notes
  usbMount := lasting_mount laws notes
  openFile := lasting_open laws notes
  closeAll := lasting_closeAll laws notes
  task := lasting_taskUSBStorage laws notes

/-- The storage when the firmware starts. -/
def Storage.boot (host : UsbHost τ) : Storage (UsbHost τ) where
  gRPFSHandles _ := ⟨false, 0, 0⟩
  gRPFSDirHandles _ := ⟨false, 0⟩
  gUSBFatFsMounted _ := false
  usbPresent _ := false
  fatfs := host

theorem consistent_boot (host : UsbHost τ) : Consistent (Storage.boot host) := by
  refine ⟨fun d hd => ?_, fun _ _ h => absurd h Bool.false_ne_true,
    fun _ _ h => absurd h Bool.false_ne_true, fun _ _ _ _ h => absurd h Bool.false_ne_true⟩
  simp [Storage.boot, Storage.mounted] at hd

/-- No call of FatFs in the step succeeds on a device that has gone away in it: behind the step no loss is
noted that was not before. -/
def StorageStep.StaysAttached (ff : UsbFatFs τ) (lost : τ → Prop) (f : Firmware (UsbHost τ))
    (l : StorageStep) : Prop :=
  lost (l.step ff f).storage.fatfs.fatfs → lost f.storage.fatfs.fatfs

/-- If every device stays attached inside of the calls of FatFs that the run makes and that succeed on it,
the storage is consistent at every return to `loop()`, whatever callbacks run while FatFs waits. -/
theorem consistent_of_staysAttached (ff : UsbFatFs τ) (laws : WaitLaws ff)
    (hread : ReadsAtMost ff.toFatFs) (lost : τ → Prop) (notes : LossNotes ff lost)
    (f : Firmware (UsbHost τ)) (host : UsbHost τ) (hstart : f.storage = .boot host)
    (hnone : ¬ lost host.fatfs) (run : List StorageStep)
    (stays : Run.AtEveryStep (StorageStep.step ff) (StorageStep.StaysAttached ff lost) f run) :
    Consistent (run.foldl (StorageStep.step ff) f).storage := by
  -- The invariant of the run is that nothing has been noted and the storage is consistent.
  have hbegin : ¬ lost f.storage.fatfs.fatfs ∧ Consistent f.storage := hstart ▸ ⟨hnone, consistent_boot host⟩
  refine (stays.invariant (I := fun f => ¬ lost f.storage.fatfs.fatfs ∧ Consistent f.storage) ?_ hbegin).2
  rintro f l ⟨hnone, hconsistent⟩ hl
  have hkept : ¬ lost (l.step ff f).storage.fatfs.fatfs := fun h => hnone (hl h)
  exact ⟨hkept, ((layerRules_lasting laws notes).step hread f l).consistent hkept hconsistent⟩

/-- A firmware that has just started, with a disk that will be found at address 1. -/
def startedFirmware : Firmware (UsbHost RamDisk) :=
  .start (.running fun _ => 0) (.boot ⟨fun _ => .clear, false, 0, 0, ⟨fun _ => none, fun _ => ([], 0)⟩⟩)

theorem readsAtMost_usbFatFs (dev_addr : UInt8) : ReadsAtMost (RamDisk.usbFatFs dev_addr).toFatFs :=
  fun slot len s => readsAtMost_ramDisk slot len s.inner

/-- No device of the disk in memory goes away inside of a call. -/
theorem RamDisk.lossNotes (dev_addr : UInt8) : LossNotes (RamDisk.usbFatFs dev_addr) fun _ => False where
  noted := by constructor <;> intros <;> exact fun _ => False.elim
  f_mount _ _ hpresent _ := .inl hpresent
  f_open _ _ _ _ _ _ _ hmounted _ := .inl hmounted
  f_opendir _ _ _ _ _ _ hmounted _ := .inl hmounted

theorem consistent_of_attach_and_open :
    Consistent (([.task 0 0 0, .task 3000 3000 3000,
      .call (.openFile 0 (ascii "A") (FA_WRITE ||| FA_CREATE_ALWAYS) RP_FS_HANDLE_WRITE)] :
        List StorageStep).foldl (StorageStep.step (RamDisk.usbFatFs 1)) startedFirmware).storage :=
  consistent_of_staysAttached (RamDisk.usbFatFs 1) (RamDisk.waitLaws 1) (readsAtMost_usbFatFs 1)
    (fun _ => False) (RamDisk.lossNotes 1) startedFirmware _ rfl id _ fun _ _ _ _ => id

/-- A disk in memory that goes away while it is mounted, after the reads that matter. -/
def lateFatFs : UsbFatFs RamDisk :=
  { RamDisk.usbFatFs 1 with
    f_mount _ := do
      tuhMscUmountCb (RamDisk.usbFatFs 1) 1
      return FR_OK }

theorem waitLaws_late : WaitLaws lateFatFs := by
  have hlaws := RamDisk.waitLaws 1
  exact { hlaws with
    f_mount _ := fun s => Waits.detach (RamDisk.usbFatFs 1) hlaws.f_close hlaws.f_closedir
      hlaws.f_unmount s 1 }

/-- The drive is mounted behind the clean-up of its device. -/
theorem mounted_without_device :
    WaitLaws lateFatFs ∧ ReadsAtMost lateFatFs.toFatFs ∧
      ¬ Consistent (([.task 0 0 0, .task 3000 3000 3000] : List StorageStep).foldl
        (StorageStep.step lateFatFs) startedFirmware).storage := by
  refine ⟨waitLaws_late, readsAtMost_usbFatFs 1, fun h => ?_⟩
  have hpresent := h.present 0 (by decide)
  exact absurd hpresent (by decide)

end NeoMmu
