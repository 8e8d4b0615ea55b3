import NeoMmu.Usb.Devices

/-!
# The storage lifecycle

`Consistent` says how the slots, the mounted drives and the handles in use belong together. FatFs waits
for its transfers in `gUSBHost.task()`, where the attach and detach callbacks run: `Waits` is what may
happen meanwhile. A callback keeps `Consistent`, also when its own calls wait in turn, and takes nothing
into use.
-/

namespace NeoMmu

variable {τ α : Type}

/-! ## The invariant -/

/-- Mounted drives are present, handles in use belong to mounted drives, and no device has two slots. -/
structure Consistent (s : Storage (UsbHost τ)) : Prop where
  present : ∀ d, s.mounted d = true → s.usbPresent d = true
  handles : ∀ i < RP_FS_MAX_HANDLES, (s.gRPFSHandles i).in_use = true →
    s.mounted (s.gRPFSHandles i).device = true
  dirHandles : ∀ i < RP_FS_MAX_DIR_HANDLES, (s.gRPFSDirHandles i).in_use = true →
    s.mounted (s.gRPFSDirHandles i).device = true
  addresses : ∀ d < USB_STORAGE_MAX_DEVICES, ∀ d' < USB_STORAGE_MAX_DEVICES,
    s.usbPresent d = true → s.usbPresent d' = true → (s.slot d).dev_addr = (s.slot d').dev_addr → d = d'

/-- What callbacks do: handles and drives go out of use but not into use, and a consistent storage stays
consistent. -/
structure Subsides (s s' : Storage (UsbHost τ)) : Prop where
  handles : ∀ i, (s'.gRPFSHandles i).in_use = true → s'.gRPFSHandles i = s.gRPFSHandles i
  dirHandles : ∀ i, (s'.gRPFSDirHandles i).in_use = true → s'.gRPFSDirHandles i = s.gRPFSDirHandles i
  mounted : ∀ d, s'.gUSBFatFsMounted d = true → s.gUSBFatFsMounted d = true
  consistent : Consistent s → Consistent s'

instance : Std.Refl (Subsides (τ := τ)) where
  refl _ := ⟨fun _ _ => rfl, fun _ _ => rfl, fun _ => id, id⟩

instance : IsTrans (Storage (UsbHost τ)) Subsides where
  trans s s' s'' h h' := by
    refine ⟨fun i hi => ?_, fun i hi => ?_, fun d hd => h.mounted d (h'.mounted d hd),
      fun hs => h'.consistent (h.consistent hs)⟩
    · have heq := h'.handles i hi
      exact heq.trans (h.handles i (heq ▸ hi))
    · have heq := h'.dirHandles i hi
      exact heq.trans (h.dirHandles i (heq ▸ hi))

/-! ## Closing -/

theorem subsides_closeHandle (s : Storage (UsbHost τ)) (i : UInt8) :
    Subsides s (s.setHandle i ⟨false, 0, 0⟩) := by
  have hhandles : ∀ j, ((s.setHandle i ⟨false, 0, 0⟩).gRPFSHandles j).in_use = true →
      (s.setHandle i ⟨false, 0, 0⟩).gRPFSHandles j = s.gRPFSHandles j := by
    intro j hj
    by_cases heq : j = i
    · subst heq
      simp [Storage.setHandle] at hj
    · exact Function.update_of_ne heq _ _
  refine ⟨hhandles, fun _ _ => rfl, fun _ => id, fun hs => ⟨hs.present, ?_, hs.dirHandles, hs.addresses⟩⟩
  intro j hj hin
  have heq := hhandles j hin
  rw [heq] at hin ⊢
  exact hs.handles j hj hin

theorem subsides_closeDirHandle (s : Storage (UsbHost τ)) (i : UInt8) :
    Subsides s (s.setDirHandle i ⟨false, 0⟩) := by
  have hhandles : ∀ j, ((s.setDirHandle i ⟨false, 0⟩).gRPFSDirHandles j).in_use = true →
      (s.setDirHandle i ⟨false, 0⟩).gRPFSDirHandles j = s.gRPFSDirHandles j := by
    intro j hj
    by_cases heq : j = i
    · subst heq
      simp [Storage.setDirHandle] at hj
    · exact Function.update_of_ne heq _ _
  refine ⟨fun _ _ => rfl, hhandles, fun _ => id, fun hs => ⟨hs.present, hs.handles, ?_, hs.addresses⟩⟩
  intro j hj hin
  have heq := hhandles j hin
  rw [heq] at hin ⊢
  exact hs.dirHandles j hj hin

/-- The FatFs calls of the callbacks subside. -/
structure CloseLaws (ff : UsbFatFs τ) : Prop where
  f_close : ∀ slot, Prog.Keeps Subsides (ff.f_close slot)
  f_closedir : ∀ slot, Prog.Keeps Subsides (ff.f_closedir slot)
  f_unmount : ∀ device, Prog.Keeps Subsides (ff.f_unmount device)

section Callbacks

variable {ff : UsbFatFs τ} (laws : CloseLaws ff)

include laws

/-- The handle is not one of the device in use. -/
def Spared (device i : UInt8) (s : Storage (UsbHost τ)) : Prop :=
  ¬ ((s.gRPFSHandles i).in_use = true ∧ (s.gRPFSHandles i).device = device)

/-- The directory handle is not one of the device in use. -/
def SparedDir (device i : UInt8) (s : Storage (UsbHost τ)) : Prop :=
  ¬ ((s.gRPFSDirHandles i).in_use = true ∧ (s.gRPFSDirHandles i).device = device)

omit laws in
theorem Spared.of_subsides {device i : UInt8} {s t : Storage (UsbHost τ)} (h : Spared device i s)
    (hst : Subsides s t) : Spared device i t := by
  rintro ⟨hin, hdev⟩
  have heq := hst.handles i hin
  rw [heq] at hin hdev
  exact h ⟨hin, hdev⟩

omit laws in
theorem SparedDir.of_subsides {device i : UInt8} {s t : Storage (UsbHost τ)} (h : SparedDir device i s)
    (hst : Subsides s t) : SparedDir device i t := by
  rintro ⟨hin, hdev⟩
  have heq := hst.dirHandles i hin
  rw [heq] at hin hdev
  exact h ⟨hin, hdev⟩

theorem subsides_closeHandleOf (device i : UInt8) :
    Prog.Keeps Subsides (closeHandleOf ff.toFatFs device i) := by
  refine Prog.Keeps.get.bind fun s => Prog.Keeps.ite (fun _ => ?_) fun _ => Prog.Keeps.pure ()
  exact (laws.f_close i).discard.bind fun _ => Prog.Keeps.modify fun s => subsides_closeHandle s i

theorem subsides_closeDirHandleOf (device i : UInt8) :
    Prog.Keeps Subsides (closeDirHandleOf ff.toFatFs device i) := by
  refine Prog.Keeps.get.bind fun s => Prog.Keeps.ite (fun _ => ?_) fun _ => Prog.Keeps.pure ()
  exact (laws.f_closedir i).discard.bind fun _ => Prog.Keeps.modify fun s => subsides_closeDirHandle s i

omit laws in
theorem spared_closeHandleOf (device i : UInt8) (s : Storage (UsbHost τ)) :
    Spared device i ((closeHandleOf ff.toFatFs device i).final s) := by
  simp only [closeHandleOf, Prog.final_bind, Prog.result_get, Prog.final_get, Prog.final_ite,
    Prog.final_discard, Prog.final_modify, Prog.final_pure]
  split
  · rintro ⟨hin, -⟩
    simp [Storage.setHandle] at hin
  · assumption

omit laws in
theorem spared_closeDirHandleOf (device i : UInt8) (s : Storage (UsbHost τ)) :
    SparedDir device i ((closeDirHandleOf ff.toFatFs device i).final s) := by
  simp only [closeDirHandleOf, Prog.final_bind, Prog.result_get, Prog.final_get, Prog.final_ite,
    Prog.final_discard, Prog.final_modify, Prog.final_pure]
  split
  · rintro ⟨hin, -⟩
    simp [Storage.setDirHandle] at hin
  · assumption

/-- No handle of the device stays in use. -/
theorem closeAllForDevice_spec {device : UInt8} (hdevice : device < USB_STORAGE_MAX_DEVICES)
    (s : Storage (UsbHost τ)) :
    let s' := (rpFsCloseAllForDevice ff.toFatFs device).final s
    Subsides s s' ∧ (∀ i < RP_FS_MAX_HANDLES, Spared device i s') ∧
      ∀ i < RP_FS_MAX_DIR_HANDLES, SparedDir device i s' := by
  have hvalid : rpFsValidDevice device = true := decide_eq_true hdevice
  have hfiles := fun i (_ : i ∈ bytesBelow RP_FS_MAX_HANDLES) => subsides_closeHandleOf laws device i
  have hdirs := fun i (_ : i ∈ bytesBelow RP_FS_MAX_DIR_HANDLES) =>
    subsides_closeDirHandleOf laws device i
  simp only [rpFsCloseAllForDevice, if_pos hvalid, Prog.final_bind]
  generalize hs₁ : (List.forM (bytesBelow RP_FS_MAX_HANDLES) (closeHandleOf ff.toFatFs device)).final s = s₁
  have hsub : Subsides s s₁ := hs₁ ▸ Prog.Keeps.forM hfiles s
  have hspared : ∀ i ∈ bytesBelow RP_FS_MAX_HANDLES, Spared device i s₁ := hs₁ ▸
    Prog.Keeps.forM_post (P := Spared device) hfiles (fun _ _ _ => Spared.of_subsides)
      (fun i _ s => spared_closeHandleOf device i s) s
  have hsub' := Prog.Keeps.forM hdirs s₁
  refine ⟨trans_of Subsides hsub hsub', fun i hi => ?_, fun i hi => ?_⟩
  · exact (hspared i (mem_bytesBelow.2 hi)).of_subsides hsub'
  · exact Prog.Keeps.forM_post (P := SparedDir device) hdirs (fun _ _ _ => SparedDir.of_subsides)
      (fun i _ s => spared_closeDirHandleOf device i s) s₁ i (mem_bytesBelow.2 hi)

omit laws in
/-- A drive without handles goes out of use. -/
theorem subsides_unmounted {device : UInt8} {s : Storage (UsbHost τ)}
    (hspared : ∀ i < RP_FS_MAX_HANDLES, Spared device i s)
    (hsparedDir : ∀ i < RP_FS_MAX_DIR_HANDLES, SparedDir device i s) :
    Subsides s { s with gUSBFatFsMounted := Function.update s.gUSBFatFsMounted device false } := by
  have hflag : ∀ d, Function.update s.gUSBFatFsMounted device false d = true →
      d ≠ device ∧ s.gUSBFatFsMounted d = true := by
    intro d hd
    by_cases heq : d = device
    · subst heq
      simp at hd
    · exact ⟨heq, by rwa [Function.update_of_ne heq] at hd⟩
  have hmounted : ∀ d, d ≠ device → s.mounted d = true →
      Storage.mounted { s with gUSBFatFsMounted := Function.update s.gUSBFatFsMounted device false } d =
        true := by
    intro d hd h
    simpa [Storage.mounted, Function.update_of_ne hd] using h
  refine ⟨fun _ _ => rfl, fun _ _ => rfl, fun d hd => (hflag d hd).2, fun hs => ⟨fun d hd => ?_,
    fun i hi hin => ?_, fun i hi hin => ?_, hs.addresses⟩⟩
  · simp only [Storage.mounted, Bool.and_eq_true] at hd
    exact hs.present d (by simpa [Storage.mounted, hd.1] using (hflag d hd.2).2)
  · exact hmounted _ (fun hdev => hspared i hi ⟨hin, hdev⟩) (hs.handles i hi hin)
  · exact hmounted _ (fun hdev => hsparedDir i hi ⟨hin, hdev⟩) (hs.dirHandles i hi hin)

/-- Behind it the drive is not mounted. -/
theorem unmount_spec {device : UInt8} (hdevice : device < USB_STORAGE_MAX_DEVICES)
    (s : Storage (UsbHost τ)) :
    let s' := (usbFatfsUnmount ff device).final s
    Subsides s s' ∧ s'.mounted device = false := by
  simp only [usbFatfsUnmount, Prog.final_bind, Prog.result_get, Prog.final_get, Prog.final_ite,
    Prog.final_discard, Prog.final_modify, Prog.final_pure]
  split
  swap
  · rename_i hmounted
    exact ⟨refl_of Subsides s, Bool.not_eq_true _ ▸ hmounted⟩
  obtain ⟨hsub, hspared, hsparedDir⟩ := closeAllForDevice_spec laws hdevice s
  have hsub' := laws.f_unmount device ((rpFsCloseAllForDevice ff.toFatFs device).final s)
  generalize (ff.f_unmount device).final _ = s' at hsub'
  refine ⟨trans_of Subsides (trans_of Subsides hsub hsub') (subsides_unmounted
    (fun i hi => (hspared i hi).of_subsides hsub') fun i hi => (hsparedDir i hi).of_subsides hsub'), ?_⟩
  simp [Storage.mounted]

omit laws in
theorem findSlotByDevAddr_some {s : Storage (UsbHost τ)} {dev_addr device : UInt8}
    (h : s.findSlotByDevAddr dev_addr = some device) :
    device < USB_STORAGE_MAX_DEVICES ∧ s.usbPresent device = true ∧ (s.slot device).dev_addr = dev_addr := by
  have hfound := List.find?_some h
  simp only [Bool.and_eq_true, beq_iff_eq] at hfound
  exact ⟨mem_bytesBelow.1 (List.mem_of_find?_eq_some h), hfound⟩

omit laws in
theorem findSlotByDevAddr_none {s : Storage (UsbHost τ)} {dev_addr : UInt8}
    (h : s.findSlotByDevAddr dev_addr = none) {device : UInt8} (hdevice : device < USB_STORAGE_MAX_DEVICES)
    (hpresent : s.usbPresent device = true) : (s.slot device).dev_addr ≠ dev_addr := by
  have hother := List.find?_eq_none.1 h device (mem_bytesBelow.2 hdevice)
  simpa [hpresent] using hother

omit laws in
/-- A slot whose drive is not mounted can be cleared. -/
theorem subsides_clearSlot {device : UInt8} {s : Storage (UsbHost τ)} (hunmounted : s.mounted device = false) :
    Subsides s (s.setSlot device false .clear) := by
  have hpresent : ∀ d, (s.setSlot device false .clear).usbPresent d = true →
      d ≠ device ∧ s.usbPresent d = true := by
    intro d hd
    by_cases heq : d = device
    · subst heq
      simp at hd
    · exact ⟨heq, by rwa [Storage.usbPresent_setSlot_of_ne _ _ _ heq] at hd⟩
  refine ⟨fun _ _ => rfl, fun _ _ => rfl, fun _ => id, fun hs => ⟨fun d hd => ?_, hs.handles,
    hs.dirHandles, fun d hd d' hd' hp hp' haddr => ?_⟩⟩
  · have hother : d ≠ device := by
      rintro rfl
      exact Bool.false_ne_true (hunmounted.symm.trans hd)
    exact (s.usbPresent_setSlot_of_ne _ _ hother).trans (hs.present d hd)
  · obtain ⟨hne, hp⟩ := hpresent d hp
    obtain ⟨hne', hp'⟩ := hpresent d' hp'
    rw [s.slot_setSlot_of_ne _ _ hne, s.slot_setSlot_of_ne _ _ hne'] at haddr
    exact hs.addresses d hd d' hd' hp hp' haddr

/-- The detach callback. -/
theorem subsides_umountCb (dev_addr : UInt8) : Prog.Keeps Subsides (tuhMscUmountCb ff dev_addr) := by
  intro s
  simp only [tuhMscUmountCb, Prog.final_bind, Prog.result_get, Prog.final_get]
  split
  · exact refl_of Subsides s
  · rename_i device hfound
    obtain ⟨hdevice, -, -⟩ := findSlotByDevAddr_some hfound
    obtain ⟨hsub, hunmounted⟩ := unmount_spec laws hdevice s
    exact trans_of Subsides hsub (subsides_clearSlot hunmounted)

omit laws in
/-- The attach callback takes the device's slot, or a free one. -/
theorem subsides_mountCb (dev_addr : UInt8) (block_count block_size now : UInt32) :
    Prog.Keeps (Subsides (τ := τ)) (tuhMscMountCb dev_addr block_count block_size now) := by
  intro s
  simp only [tuhMscMountCb, Prog.final_bind, Prog.result_get, Prog.final_get]
  split
  · exact refl_of Subsides s
  rename_i device hslot
  rw [Prog.final_modify]
  -- Whichever slot it is, no other device present has the address.
  have hother : Consistent s → ∀ d < USB_STORAGE_MAX_DEVICES, d ≠ device → s.usbPresent d = true →
      (s.slot d).dev_addr ≠ dev_addr := by
    intro hs d hd hne hp
    rcases hfound : s.findSlotByDevAddr dev_addr with - | found
    · exact findSlotByDevAddr_none hfound hd hp
    · rw [hfound] at hslot
      obtain rfl := Option.some.inj hslot
      obtain ⟨hdevice, hpresent, haddr⟩ := findSlotByDevAddr_some hfound
      exact fun h => hne (hs.addresses d hd found hdevice hp hpresent (h.trans haddr.symm))
  refine ⟨fun _ _ => rfl, fun _ _ => rfl, fun _ => id, fun hs => ⟨fun d hd => ?_, hs.handles,
    hs.dirHandles, fun d hd d' hd' hp hp' haddr => ?_⟩⟩
  · by_cases heq : d = device
    · subst heq
      exact s.usbPresent_setSlot_self _ _
    · exact (s.usbPresent_setSlot_of_ne _ _ heq).trans (hs.present d hd)
  · by_cases heq : d = device
    · by_cases heq' : d' = device
      · exact heq.trans heq'.symm
      · subst heq
        rw [s.usbPresent_setSlot_of_ne _ _ heq'] at hp'
        rw [s.slot_setSlot_self, s.slot_setSlot_of_ne _ _ heq'] at haddr
        exact absurd haddr.symm (hother hs d' hd' heq' hp')
    · rw [s.usbPresent_setSlot_of_ne _ _ heq] at hp
      by_cases heq' : d' = device
      · subst heq'
        rw [s.slot_setSlot_self, s.slot_setSlot_of_ne _ _ heq] at haddr
        exact absurd haddr (hother hs d hd heq hp)
      · rw [s.usbPresent_setSlot_of_ne _ _ heq'] at hp'
        rw [s.slot_setSlot_of_ne _ _ heq, s.slot_setSlot_of_ne _ _ heq'] at haddr
        exact hs.addresses d hd d' hd' hp hp' haddr

end Callbacks

/-! ## Waiting -/

/-- What may happen while FatFs runs: it changes its own state and the times of the mounts, and the
callbacks run, whose own FatFs calls wait in turn. -/
inductive Waits : Storage (UsbHost τ) → Storage (UsbHost τ) → Prop
  | refl (s) : Waits s s
  | trans {s s' s''} (first : Waits s s') (second : Waits s' s'') : Waits s s''
  | fatfs (s) (host : UsbHost τ) (slots : host.gUSBStorageSlots = s.fatfs.gUSBStorageSlots) :
    Waits s { s with fatfs := host }
  | attach (s) (dev_addr : UInt8) (block_count block_size now : UInt32) :
    Waits s ((tuhMscMountCb dev_addr block_count block_size now).final s)
  | detach (ff : UsbFatFs τ) (f_close : ∀ slot s, Waits s ((ff.f_close slot).final s))
    (f_closedir : ∀ slot s, Waits s ((ff.f_closedir slot).final s))
    (f_unmount : ∀ device s, Waits s ((ff.f_unmount device).final s)) (s) (dev_addr : UInt8) :
    Waits s ((tuhMscUmountCb ff dev_addr).final s)

/-- Waiting takes nothing into use, and keeps a consistent storage consistent. -/
theorem Waits.subsides {s s' : Storage (UsbHost τ)} (h : Waits s s') : Subsides s s' := by
  induction h with
  | refl s => exact refl_of Subsides s
  | trans _ _ ih ih' => exact trans_of Subsides ih ih'
  | fatfs s host slots =>
    refine ⟨fun _ _ => rfl, fun _ _ => rfl, fun _ => id, fun hs => ?_⟩
    refine ⟨hs.present, hs.handles, hs.dirHandles, fun d hd d' hd' hp hp' haddr => ?_⟩
    rw [Storage.slot, Storage.slot, slots] at haddr
    exact hs.addresses d hd d' hd' hp hp' haddr
  | attach s dev_addr block_count block_size now =>
    exact subsides_mountCb dev_addr block_count block_size now s
  | detach ff f_close f_closedir f_unmount s dev_addr ihclose ihclosedir ihunmount =>
    exact subsides_umountCb ⟨ihclose, ihclosedir, ihunmount⟩ dev_addr s

/-- Every call of FatFs and the host task keep `Q`. -/
structure UsbFatFs.EveryCall (ff : UsbFatFs τ) (Q : Storage (UsbHost τ) → Storage (UsbHost τ) → Prop) :
    Prop where
  f_mount : ∀ device, Prog.Keeps Q (ff.f_mount device)
  f_unmount : ∀ device, Prog.Keeps Q (ff.f_unmount device)
  f_open : ∀ slot path mode, Prog.Keeps Q (ff.f_open slot path mode)
  f_close : ∀ slot, Prog.Keeps Q (ff.f_close slot)
  f_read : ∀ slot len, Prog.Keeps Q (ff.f_read slot len)
  f_write : ∀ slot src, Prog.Keeps Q (ff.f_write slot src)
  f_lseek : ∀ slot position, Prog.Keeps Q (ff.f_lseek slot position)
  f_unlink : ∀ path, Prog.Keeps Q (ff.f_unlink path)
  f_rename : ∀ old_path new_path, Prog.Keeps Q (ff.f_rename old_path new_path)
  f_mkdir : ∀ path, Prog.Keeps Q (ff.f_mkdir path)
  f_opendir : ∀ slot path, Prog.Keeps Q (ff.f_opendir slot path)
  f_readdir : ∀ slot, Prog.Keeps Q (ff.f_readdir slot)
  f_closedir : ∀ slot, Prog.Keeps Q (ff.f_closedir slot)
  hostTask : Prog.Keeps Q ff.hostTask

/-- FatFs and the host task touch the storage only by waiting. -/
abbrev WaitLaws (ff : UsbFatFs τ) : Prop := ff.EveryCall Waits

/-! ## A disk in memory on the host -/

/-- The storage as a FatFs without a host sees it. -/
def Storage.inner {σ : Type} (s : Storage (UsbHost σ)) : Storage σ :=
  { gRPFSHandles := s.gRPFSHandles
    gRPFSDirHandles := s.gRPFSDirHandles
    gUSBFatFsMounted := s.gUSBFatFsMounted
    usbPresent := s.usbPresent
    fatfs := s.fatfs.fatfs }

/-- A call of a FatFs without a host, which leaves the rest of the storage alone. -/
def overHost {σ : Type} (p : Prog (Storage σ) α) : Prog (Storage (UsbHost σ)) α :=
  p.on Storage.inner fun s t => { s with fatfs := { s.fatfs with fatfs := t.fatfs } }

namespace RamDisk

/-- The disk in memory, whose device the host finds at `dev_addr`. -/
def usbFatFs (dev_addr : UInt8) : UsbFatFs RamDisk where
  f_mount device := overHost (fatFs.f_mount device)
  f_open slot path mode := overHost (fatFs.f_open slot path mode)
  f_close slot := overHost (fatFs.f_close slot)
  f_read slot len := overHost (fatFs.f_read slot len)
  f_write slot src := overHost (fatFs.f_write slot src)
  f_lseek slot position := overHost (fatFs.f_lseek slot position)
  f_size slot s := fatFs.f_size slot s.inner
  f_tell slot s := fatFs.f_tell slot s.inner
  f_unlink path := overHost (fatFs.f_unlink path)
  f_rename old_path new_path := overHost (fatFs.f_rename old_path new_path)
  f_mkdir path := overHost (fatFs.f_mkdir path)
  f_opendir slot path := overHost (fatFs.f_opendir slot path)
  f_readdir slot := overHost (fatFs.f_readdir slot)
  f_closedir slot := overHost (fatFs.f_closedir slot)
  entriesLeft slot s := fatFs.entriesLeft slot s.inner
  entriesLeft_readdir slot s := fatFs.entriesLeft_readdir slot s.inner
  f_unmount _ := return FR_OK
  hostTask := tuhMscMountCb dev_addr 1000 512 0

theorem waits_overHost {σ : Type} (p : Prog (Storage σ) α) : Prog.Keeps Waits (overHost p) :=
  fun s => Waits.fatfs s _ rfl

theorem waitLaws (dev_addr : UInt8) : WaitLaws (usbFatFs dev_addr) where
  f_mount _ := waits_overHost _
  f_unmount _ := fun s => Waits.refl s
  f_open _ _ _ := waits_overHost _
  f_close _ := waits_overHost _
  f_read _ _ := waits_overHost _
  f_write _ _ := waits_overHost _
  f_lseek _ _ := waits_overHost _
  f_unlink _ := waits_overHost _
  f_rename _ _ := waits_overHost _
  f_mkdir _ := waits_overHost _
  f_opendir _ _ := waits_overHost _
  f_readdir _ := waits_overHost _
  f_closedir _ := waits_overHost _
  hostTask := fun s => Waits.attach s _ _ _ _

end RamDisk

end NeoMmu
