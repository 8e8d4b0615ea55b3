import NeoMmu.Fs.Files

/-!
# Attaching and detaching devices

The storage slots of `usb_storage.cpp` with the TinyUSB callbacks that fill and clear them, the
unmounting of `usb_fatfs.cpp`, and `taskUSBStorage()`, which mounts what has been attached. The state
below the file layer is `UsbHost τ`: the slots, and the state `τ` of FatFs proper.
-/

namespace NeoMmu

/-- `USBStorageSlot`, but for `present`, which `Storage` holds. -/
structure SlotRecord where
  mount_pending : Bool
  dev_addr : UInt8
  lun : UInt8
  block_count : UInt32
  block_size : UInt32
  mount_pending_since_ms : UInt32
  deriving DecidableEq, Repr

/-- A slot as `usb_storage_clear_slot()` leaves it. -/
def SlotRecord.clear : SlotRecord := ⟨false, 0, 0, 0, 0, 0⟩

/-- The statics of `usb_storage.cpp`, and FatFs. -/
structure UsbHost (τ : Type) where
  gUSBStorageSlots : UInt8 → SlotRecord
  gUSBStorageInitialized : Bool
  gStorageMountEnableMs : UInt32
  gNextFatFsMountAllowedMs : UInt32
  fatfs : τ

/-- FatFs over the host, with the two calls only the device layer makes. -/
structure UsbFatFs (τ : Type) extends FatFs (UsbHost τ) where
  /-- `f_mount(nullptr, drive, 0)` -/
  f_unmount (device : UInt8) : Prog (Storage (UsbHost τ)) FRESULT
  /-- `gUSBHost.task()` -/
  hostTask : Prog (Storage (UsbHost τ)) Unit

/-- `USB_STORAGE_BOOT_MOUNT_GRACE_MS` -/
def USB_STORAGE_BOOT_MOUNT_GRACE_MS : UInt32 := 2000

/-- `USB_STORAGE_PENDING_MOUNT_MIN_AGE_MS` -/
def USB_STORAGE_PENDING_MOUNT_MIN_AGE_MS : Int32 := 500

/-- `USB_STORAGE_MOUNT_STAGGER_MS` -/
def USB_STORAGE_MOUNT_STAGGER_MS : UInt32 := 1000

variable {σ τ α : Type}

/-! ## Slots -/

namespace Storage

/-- The slot's record. -/
def slot (s : Storage (UsbHost τ)) (device : UInt8) : SlotRecord := s.fatfs.gUSBStorageSlots device

/-- `usb_storage_find_slot_by_dev_addr()` -/
def findSlotByDevAddr (s : Storage (UsbHost τ)) (dev_addr : UInt8) : Option UInt8 :=
  (bytesBelow USB_STORAGE_MAX_DEVICES).find? fun i => s.usbPresent i && (s.slot i).dev_addr == dev_addr

/-- `usb_storage_find_free_slot()` -/
def findFreeSlot (s : Storage (UsbHost τ)) : Option UInt8 :=
  (bytesBelow USB_STORAGE_MAX_DEVICES).find? fun i => !s.usbPresent i

/-- The storage with a slot set. -/
def setSlot (s : Storage (UsbHost τ)) (device : UInt8) (present : Bool) (r : SlotRecord) :
    Storage (UsbHost τ) :=
  { s with
    usbPresent := Function.update s.usbPresent device present
    fatfs := { s.fatfs with gUSBStorageSlots := Function.update s.fatfs.gUSBStorageSlots device r } }

section SetSlot

variable (s : Storage (UsbHost τ)) {d device : UInt8} (present : Bool) (r : SlotRecord)

@[simp] theorem usbPresent_setSlot_self : (s.setSlot device present r).usbPresent device = present :=
  Function.update_self _ _ _

theorem usbPresent_setSlot_of_ne (h : d ≠ device) :
    (s.setSlot device present r).usbPresent d = s.usbPresent d :=
  Function.update_of_ne h _ _

@[simp] theorem slot_setSlot_self : (s.setSlot device present r).slot device = r :=
  Function.update_self _ _ _

theorem slot_setSlot_of_ne (h : d ≠ device) : (s.setSlot device present r).slot d = s.slot d :=
  Function.update_of_ne h _ _

end SetSlot

end Storage

/-! ## Unmounting -/

/-- The body of the first loop of `rp_fs_close_all_for_device()` -/
def closeHandleOf (ff : FatFs σ) (device i : UInt8) : Prog (Storage σ) Unit := do
  let h := (← get).gRPFSHandles i
  if h.in_use ∧ h.device = device then
    discard <| ff.f_close i
    modify fun s => s.setHandle i ⟨false, 0, 0⟩

/-- The body of its second loop -/
def closeDirHandleOf (ff : FatFs σ) (device i : UInt8) : Prog (Storage σ) Unit := do
  let h := (← get).gRPFSDirHandles i
  if h.in_use ∧ h.device = device then
    discard <| ff.f_closedir i
    modify fun s => s.setDirHandle i ⟨false, 0⟩

/-- `rp_fs_close_all_for_device()` -/
def rpFsCloseAllForDevice (ff : FatFs σ) (device : UInt8) : Prog (Storage σ) Unit := do
  if rpFsValidDevice device then
    (bytesBelow RP_FS_MAX_HANDLES).forM (closeHandleOf ff device)
    (bytesBelow RP_FS_MAX_DIR_HANDLES).forM (closeDirHandleOf ff device)

section Host

variable (ff : UsbFatFs τ)

/-- `usb_fatfs_unmount()` -/
def usbFatfsUnmount (device : UInt8) : Prog (Storage (UsbHost τ)) Unit := do
  if (← get).mounted device then
    rpFsCloseAllForDevice ff.toFatFs device
    discard <| ff.f_unmount device
    modify fun s => { s with gUSBFatFsMounted := Function.update s.gUSBFatFsMounted device false }

/-! ## Callbacks -/

/-- `tuh_msc_mount_cb()`, with what `tuh_msc_get_block_count()`, `tuh_msc_get_block_size()` and
`millis()` return. -/
def tuhMscMountCb (dev_addr : UInt8) (block_count block_size now : UInt32) :
    Prog (Storage (UsbHost τ)) Unit := do
  let s ← get
  match (s.findSlotByDevAddr dev_addr).or s.findFreeSlot with
  | none => return
  | some device => modify fun s => s.setSlot device true ⟨true, dev_addr, 0, block_count, block_size, now⟩

/-- `tuh_msc_umount_cb()` -/
def tuhMscUmountCb (dev_addr : UInt8) : Prog (Storage (UsbHost τ)) Unit := do
  match (← get).findSlotByDevAddr dev_addr with
  | none => return
  | some device =>
    usbFatfsUnmount ff device
    modify fun s => s.setSlot device false .clear

/-! ## The task -/

/-- The times of `initUSBStorage()` -/
def initUSBStorage (now : UInt32) : Prog (Storage (UsbHost τ)) Unit :=
  modify fun s =>
    if s.fatfs.gUSBStorageInitialized then s
    else { s with fatfs := { s.fatfs with
      gUSBStorageInitialized := true
      gStorageMountEnableMs := now + USB_STORAGE_BOOT_MOUNT_GRACE_MS
      gNextFatFsMountAllowedMs := now + USB_STORAGE_BOOT_MOUNT_GRACE_MS } }

/-- The loop of `taskUSBStorage()`: the first device that has been pending long enough is mounted. -/
def mountPending (now later : UInt32) : List UInt8 → Prog (Storage (UsbHost τ)) Unit
  | [] => return
  | device :: devices => do
    let r := (← get).slot device
    if r.mount_pending = false then
      mountPending now later devices
    else if (now - r.mount_pending_since_ms).toInt32 < USB_STORAGE_PENDING_MOUNT_MIN_AGE_MS then
      mountPending now later devices
    else
      modify fun s => s.setSlot device (s.usbPresent device) { s.slot device with mount_pending := false }
      let s ← get
      if s.usbPresent device ∧ s.mounted device = false then
        discard <| usbFatfsMount ff.toFatFs device
      modify fun s => { s with fatfs := { s.fatfs with
        gNextFatFsMountAllowedMs := later + USB_STORAGE_MOUNT_STAGGER_MS } }

/-- `taskUSBStorage()`, with the times `millis()` returns at the start, after `gUSBHost.task()` and at the
end. -/
def taskUSBStorage (start now later : UInt32) : Prog (Storage (UsbHost τ)) Unit := do
  initUSBStorage start
  ff.hostTask
  let host := (← get).fatfs
  if (now - host.gStorageMountEnableMs).toInt32 < 0 then
    return
  else if (now - host.gNextFatFsMountAllowedMs).toInt32 < 0 then
    return
  else
    mountPending ff now later (bytesBelow USB_STORAGE_MAX_DEVICES)

end Host

/-! ## Rules for the device layer -/

/-- `Q` is kept where the tables and FatFs stay as they are. -/
def KeptByTables (Q : Storage (UsbHost τ) → Storage (UsbHost τ) → Prop) : Prop :=
  ∀ s s', s'.gRPFSHandles = s.gRPFSHandles → s'.gRPFSDirHandles = s.gRPFSDirHandles →
    s'.fatfs.fatfs = s.fatfs.fatfs → Q s s'

/-- `Q` is kept by unmounting, by a close with the freeing of the slot behind it, and by what leaves the
tables and FatFs as they are. -/
structure DetachRules (ff : UsbFatFs τ) (Q : Storage (UsbHost τ) → Storage (UsbHost τ) → Prop) : Prop where
  f_unmount : ∀ device, Prog.Keeps Q (ff.f_unmount device)
  closing : ∀ i, Prog.Keeps Q (do
    discard <| ff.f_close i
    modify fun s => s.setHandle i ⟨false, 0, 0⟩ : Prog (Storage (UsbHost τ)) Unit)
  closingDir : ∀ i, Prog.Keeps Q (do
    discard <| ff.f_closedir i
    modify fun s => s.setDirHandle i ⟨false, 0⟩ : Prog (Storage (UsbHost τ)) Unit)
  tables : KeptByTables Q

/-- `Q` is also kept by mounting and by the host task. -/
structure HostRules (ff : UsbFatFs τ) (Q : Storage (UsbHost τ) → Storage (UsbHost τ) → Prop) : Prop
    extends DetachRules ff Q where
  f_mount : ∀ device, Prog.Keeps Q (ff.f_mount device)
  hostTask : Prog.Keeps Q ff.hostTask

section Rules

variable {Q : Storage (UsbHost τ) → Storage (UsbHost τ) → Prop} [Std.Refl Q]

/-- The attach callback. -/
theorem keeps_mountCb (htables : KeptByTables Q) (dev_addr : UInt8) (block_count block_size now : UInt32) :
    Prog.Keeps Q (tuhMscMountCb dev_addr block_count block_size now) := by
  intro s
  simp only [tuhMscMountCb, Prog.final_bind, Prog.result_get, Prog.final_get]
  split
  · exact refl s
  · exact htables _ _ rfl rfl rfl

variable [IsTrans (Storage (UsbHost τ)) Q] {ff : UsbFatFs τ}

namespace DetachRules

variable (h : DetachRules ff Q)

include h

theorem close (handle : UInt8) : Prog.Keeps Q (rpFsClose ff.toFatFs handle) := by
  refine Prog.Keeps.get.bind fun s => Prog.Keeps.ite (fun _ => ?_) fun _ => Prog.Keeps.pure false
  exact fun s => h.closing handle s

theorem closedir (handle : UInt8) : Prog.Keeps Q (rpFsClosedir ff.toFatFs handle) := by
  refine Prog.Keeps.get.bind fun s => Prog.Keeps.ite (fun _ => ?_) fun _ => Prog.Keeps.pure false
  exact fun s => h.closingDir handle s

theorem closeAll : Prog.Keeps Q (rpFsCloseAll ff.toFatFs) := by
  refine (Prog.Keeps.forM fun i _ => ?_).bind fun _ => Prog.Keeps.forM fun i _ => ?_
  · exact Prog.Keeps.get.bind fun s => Prog.Keeps.ite (fun _ => h.closing i) fun _ => Prog.Keeps.pure ()
  · exact Prog.Keeps.get.bind fun s => Prog.Keeps.ite (fun _ => h.closingDir i) fun _ => Prog.Keeps.pure ()

theorem closeAllForDevice (device : UInt8) : Prog.Keeps Q (rpFsCloseAllForDevice ff.toFatFs device) := by
  refine Prog.Keeps.ite (fun _ => ?_) fun _ => Prog.Keeps.pure ()
  refine (Prog.Keeps.forM fun i _ => ?_).bind fun _ => Prog.Keeps.forM fun i _ => ?_
  · exact Prog.Keeps.get.bind fun s => Prog.Keeps.ite (fun _ => h.closing i) fun _ => Prog.Keeps.pure ()
  · exact Prog.Keeps.get.bind fun s => Prog.Keeps.ite (fun _ => h.closingDir i) fun _ => Prog.Keeps.pure ()

theorem unmount (device : UInt8) : Prog.Keeps Q (usbFatfsUnmount ff device) := by
  refine Prog.Keeps.get.bind fun s => Prog.Keeps.ite (fun _ => ?_) fun _ => Prog.Keeps.pure ()
  refine (h.closeAllForDevice device).bind fun _ => (h.f_unmount device).discard.bind fun _ => ?_
  exact Prog.Keeps.modify fun s => h.tables _ _ rfl rfl rfl

/-- The detach callback. -/
theorem umountCb (dev_addr : UInt8) : Prog.Keeps Q (tuhMscUmountCb ff dev_addr) := by
  refine Prog.Keeps.get.bind fun s => ?_
  split
  · exact Prog.Keeps.pure ()
  · exact (h.unmount _).bind fun _ => Prog.Keeps.modify fun s => h.tables _ _ rfl rfl rfl

end DetachRules

namespace HostRules

variable (h : HostRules ff Q)

include h

theorem mount (device : UInt8) : Prog.Keeps Q (usbFatfsMount ff.toFatFs device) := by
  refine Prog.Keeps.get.bind fun s => Prog.Keeps.ite (fun _ => Prog.Keeps.pure false) fun _ => ?_
  refine Prog.Keeps.ite (fun _ => Prog.Keeps.pure true) fun _ => ?_
  refine Prog.Keeps.ite (fun _ => Prog.Keeps.pure false) fun _ => (h.f_mount device).bind fun fr => ?_
  refine Prog.Keeps.ite (fun _ => Prog.Keeps.pure false) fun _ => ?_
  refine Prog.Keeps.bind (R := Q) (Prog.Keeps.modify fun s => ?_) fun _ => Prog.Keeps.pure true
  exact h.tables _ _ rfl rfl rfl

theorem ensureMounted (device : UInt8) : Prog.Keeps Q (ensureMounted ff.toFatFs device) :=
  keeps_ensureMounted h.f_mount (fun _ _ => h.tables _ _ rfl rfl rfl) device

theorem mountPending (now later : UInt32) (devices : List UInt8) :
    Prog.Keeps Q (mountPending ff now later devices) := by
  induction devices with
  | nil => exact Prog.Keeps.pure ()
  | cons device devices ih =>
    refine Prog.Keeps.get.bind fun s => Prog.Keeps.ite (fun _ => ih) fun _ => ?_
    refine Prog.Keeps.ite (fun _ => ih) fun _ => ?_
    have hdone : Prog.Keeps Q (modify fun s : Storage (UsbHost τ) => { s with fatfs := { s.fatfs with
        gNextFatFsMountAllowedMs := later + USB_STORAGE_MOUNT_STAGGER_MS } } :
        Prog (Storage (UsbHost τ)) Unit) :=
      Prog.Keeps.modify fun s => h.tables _ _ rfl rfl rfl
    refine Prog.Keeps.bind (R := Q) (Prog.Keeps.modify fun s => ?_) fun _ => Prog.Keeps.get.bind fun s => ?_
    · exact h.tables _ _ rfl rfl rfl
    exact Prog.Keeps.ite (fun _ => (h.mount device).discard.bind fun _ => hdone) fun _ => hdone

theorem taskUSBStorage (start now later : UInt32) : Prog.Keeps Q (taskUSBStorage ff start now later) := by
  have hinit : Prog.Keeps Q (initUSBStorage (τ := τ) start) := by
    refine Prog.Keeps.modify fun s => ?_
    split
    · exact refl s
    · exact h.tables _ _ rfl rfl rfl
  refine hinit.bind fun _ => h.hostTask.bind fun _ => Prog.Keeps.get.bind fun s => ?_
  refine Prog.Keeps.ite (fun _ => Prog.Keeps.pure ()) fun _ => ?_
  exact Prog.Keeps.ite (fun _ => Prog.Keeps.pure ()) fun _ => h.mountPending _ _ _

end HostRules

end Rules

end NeoMmu
