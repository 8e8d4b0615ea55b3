import NeoMmu.Fs.Storage

/-!
# What opening and closing do to the disk

`FileLaws` is what the firmware relies on when it calls FatFs: mounting, opening for reading and
closing change no file, opening with `FA_CREATE_ALWAYS` truncates or creates its target, and none of
them takes a handle into use. From these follow the effects of the handle layer on the disk.
-/

namespace NeoMmu

variable {σ δ : Type}

/-! ## The laws of FatFs -/

/-- No handle has come into use. -/
def FewerHandles (s s' : Storage σ) : Prop :=
  ∀ h, (s'.gRPFSHandles h).in_use = true → (s.gRPFSHandles h).in_use = true

/-- The disk is the same, and no handle has come into use. -/
structure Unchanged (files : σ → δ) (s s' : Storage σ) : Prop where
  files : files s'.fatfs = files s.fatfs
  handles : FewerHandles s s'

instance (files : σ → δ) : Std.Refl (Unchanged files) where
  refl _ := ⟨rfl, fun _ h => h⟩

instance (files : σ → δ) : IsTrans (Storage σ) (Unchanged files) where
  trans _ _ _ h h' := ⟨h'.files.trans h.files, fun i hi => h.handles i (h'.handles i hi)⟩

/-- What FatFs does to the disk `files` shows, where truncating or creating a file is `truncate`. -/
structure FileLaws (ff : FatFs σ) (files : σ → δ) (truncate : List UInt8 → δ → δ) : Prop where
  f_mount : ∀ device, Prog.Keeps (Unchanged files) (ff.f_mount device)
  f_open_read : ∀ slot path, Prog.Keeps (Unchanged files) (ff.f_open slot path FA_READ)
  f_open_create : ∀ slot path s,
    (ff.f_open slot path (FA_WRITE ||| FA_CREATE_ALWAYS)).result s = FR_OK →
      files ((ff.f_open slot path (FA_WRITE ||| FA_CREATE_ALWAYS)).final s).fatfs =
        truncate path (files s.fatfs)
  f_open_handles : ∀ slot path mode, Prog.Keeps FewerHandles (ff.f_open slot path mode)
  f_close : ∀ slot, Prog.Keeps (Unchanged files) (ff.f_close slot)

section Files

variable {ff : FatFs σ} {files : σ → δ} {truncate : List UInt8 → δ → δ} {s : Storage σ}

/-! ## Opening -/

/-- The check of the device keeps what `f_mount()` and the flag keep. -/
theorem keeps_ensureMounted {Q : Storage σ → Storage σ → Prop} [Std.Refl Q] [IsTrans (Storage σ) Q]
    (hmount : ∀ device, Prog.Keeps Q (ff.f_mount device))
    (hflag : ∀ s mounted, Q s { s with gUSBFatFsMounted := mounted }) (device : UInt8) :
    Prog.Keeps Q (ensureMounted ff device) := by
  refine Prog.Keeps.ite (fun _ => Prog.Keeps.pure false) fun _ => Prog.Keeps.get.bind fun s => ?_
  refine Prog.Keeps.ite (fun _ => Prog.Keeps.pure true) fun _ => Prog.Keeps.get.bind fun s => ?_
  refine Prog.Keeps.ite (fun _ => Prog.Keeps.pure false) fun _ => ?_
  refine Prog.Keeps.ite (fun _ => Prog.Keeps.pure true) fun _ => ?_
  refine Prog.Keeps.ite (fun _ => Prog.Keeps.pure false) fun _ => (hmount device).bind fun fr => ?_
  refine Prog.Keeps.ite (fun _ => Prog.Keeps.pure false) fun _ => ?_
  exact (Prog.Keeps.modify fun s => hflag s _).bind fun _ => Prog.Keeps.pure true

theorem unchanged_ensureMounted (laws : FileLaws ff files truncate) (device : UInt8) :
    Prog.Keeps (Unchanged files) (ensureMounted ff device) :=
  keeps_ensureMounted laws.f_mount (fun _ _ => ⟨rfl, fun _ h => h⟩) device

/-- The storage grants an open: the device is or can be mounted, a handle is free, the name gives a
path, and FatFs opens it. -/
structure Opens (ff : FatFs σ) (device : UInt8) (filename : List UInt8) (mode : UInt8)
    (s : Storage σ) (slot : UInt8) (path : List UInt8) : Prop where
  mounted : (ensureMounted ff device).result s = true
  free : ((ensureMounted ff device).final s).freeSlot = some slot
  named : rpFsMakePath device filename = some path
  opened : (ff.f_open slot path mode).result ((ensureMounted ff device).final s) = FR_OK

/-- An open either fails, or was granted and has set its handle. -/
theorem rpFsOpenMode83_cases (ff : FatFs σ) (device : UInt8) (filename : List UInt8)
    (mode flags : UInt8) (s : Storage σ) :
    ((rpFsOpenMode83 ff device filename mode flags).result s = none ∧
        ∀ slot path, ¬ Opens ff device filename mode s slot path) ∨
      ∃ slot path, Opens ff device filename mode s slot path ∧
        (rpFsOpenMode83 ff device filename mode flags).result s = some slot ∧
        (rpFsOpenMode83 ff device filename mode flags).final s =
          ((ff.f_open slot path mode).final ((ensureMounted ff device).final s)).setHandle slot
            ⟨true, device, flags⟩ := by
  simp only [rpFsOpenMode83, Prog.result_bind, Prog.final_bind, Prog.result_ite, Prog.final_ite]
  by_cases hmounted : (ensureMounted ff device).result s = true
  swap
  · left
    exact ⟨if_neg hmounted, fun _ _ h => hmounted h.mounted⟩
  simp only [if_pos hmounted, Prog.result_get, Prog.final_get]
  rcases hslot : ((ensureMounted ff device).final s).freeSlot with - | slot
  · left
    refine ⟨rfl, fun _ _ h => ?_⟩
    have := h.free
    simp [hslot] at this
  rcases hpath : rpFsMakePath device filename with - | path
  · left
    refine ⟨rfl, fun _ _ h => ?_⟩
    have := h.named
    simp [hpath] at this
  simp only [Prog.result_bind, Prog.final_bind, Prog.result_ite, Prog.final_ite, Prog.result_pure,
    Prog.final_pure, Prog.final_modify]
  by_cases hopened : (ff.f_open slot path mode).result ((ensureMounted ff device).final s) = FR_OK
  · right
    refine ⟨slot, path, ⟨hmounted, hslot, hpath, hopened⟩, ?_⟩
    simp [hopened]
  · left
    refine ⟨if_pos hopened, fun slot' path' h => hopened ?_⟩
    obtain rfl := Option.some.inj (hslot.symm.trans h.free)
    obtain rfl := Option.some.inj (hpath.symm.trans h.named)
    exact h.opened

/-- Where an open ends: behind the mount, or behind `f_open()`, whose handle it sets on success. -/
theorem rpFsOpenMode83_final (ff : FatFs σ) (device : UInt8) (filename : List UInt8)
    (mode flags : UInt8) (s : Storage σ) :
    let s₁ := (ensureMounted ff device).final s
    let m := rpFsOpenMode83 ff device filename mode flags
    (m.result s = none ∧ m.final s = s₁) ∨
      ∃ slot path, (ensureMounted ff device).result s = true ∧ s₁.freeSlot = some slot ∧
        rpFsMakePath device filename = some path ∧
        ((m.result s = none ∧ m.final s = (ff.f_open slot path mode).final s₁) ∨
          (ff.f_open slot path mode).result s₁ = FR_OK ∧ m.result s = some slot ∧
            m.final s = ((ff.f_open slot path mode).final s₁).setHandle slot ⟨true, device, flags⟩) := by
  simp only [rpFsOpenMode83, Prog.result_bind, Prog.final_bind, Prog.result_ite, Prog.final_ite]
  by_cases hmounted : (ensureMounted ff device).result s = true
  swap
  · exact .inl ⟨if_neg hmounted, if_neg hmounted⟩
  simp only [if_pos hmounted, Prog.result_get, Prog.final_get]
  generalize (ensureMounted ff device).final s = s₁
  rcases hslot : s₁.freeSlot with - | slot
  · exact .inl ⟨rfl, rfl⟩
  rcases hpath : rpFsMakePath device filename with - | path
  · exact .inl ⟨rfl, rfl⟩
  simp only [Prog.result_bind, Prog.final_bind, Prog.result_ite, Prog.final_ite, Prog.result_pure,
    Prog.final_pure, Prog.final_modify]
  refine .inr ⟨slot, path, hmounted, rfl, rfl, ?_⟩
  by_cases hopened : (ff.f_open slot path mode).result s₁ = FR_OK
  · right
    rw [if_neg (not_not.2 hopened), if_neg (not_not.2 hopened)]
    exact ⟨hopened, rfl, rfl⟩
  · left
    rw [if_pos hopened, if_pos hopened]
    exact ⟨rfl, rfl⟩

/-- Where the open of a directory ends. -/
theorem rpFsOpendir83_final (ff : FatFs σ) (device : UInt8) (dirname : List UInt8) (s : Storage σ) :
    let s₁ := (ensureMounted ff device).final s
    let m := rpFsOpendir83 ff device dirname
    (m.result s = none ∧ m.final s = s₁) ∨
      ∃ slot path, (ensureMounted ff device).result s = true ∧ s₁.freeDirSlot = some slot ∧
        rpFsMakeDirPath device dirname = some path ∧
        ((m.result s = none ∧ m.final s = (ff.f_opendir slot path).final s₁) ∨
          (ff.f_opendir slot path).result s₁ = FR_OK ∧ m.result s = some slot ∧
            m.final s = ((ff.f_opendir slot path).final s₁).setDirHandle slot ⟨true, device⟩) := by
  simp only [rpFsOpendir83, Prog.result_bind, Prog.final_bind, Prog.result_ite, Prog.final_ite]
  by_cases hmounted : (ensureMounted ff device).result s = true
  swap
  · exact .inl ⟨if_neg hmounted, if_neg hmounted⟩
  simp only [if_pos hmounted, Prog.result_get, Prog.final_get]
  generalize (ensureMounted ff device).final s = s₁
  rcases hslot : s₁.freeDirSlot with - | slot
  · exact .inl ⟨rfl, rfl⟩
  rcases hpath : rpFsMakeDirPath device dirname with - | path
  · exact .inl ⟨rfl, rfl⟩
  simp only [Prog.result_bind, Prog.final_bind, Prog.result_ite, Prog.final_ite, Prog.result_pure,
    Prog.final_pure, Prog.final_modify]
  refine .inr ⟨slot, path, hmounted, rfl, rfl, ?_⟩
  by_cases hopened : (ff.f_opendir slot path).result s₁ = FR_OK
  · right
    rw [if_neg (not_not.2 hopened), if_neg (not_not.2 hopened)]
    exact ⟨hopened, rfl, rfl⟩
  · left
    rw [if_pos hopened, if_pos hopened]
    exact ⟨rfl, rfl⟩

/-- A device found mounted or mounted now is mounted. -/
theorem mounted_ensureMounted (ff : FatFs σ) {device : UInt8} {s : Storage σ}
    (h : (ensureMounted ff device).result s = true) :
    ((ensureMounted ff device).final s).mounted device = true := by
  simp only [ensureMounted, usbFatfsMount, Prog.result_ite, Prog.final_ite, Prog.result_bind,
    Prog.final_bind, Prog.result_get, Prog.final_get, Prog.result_pure, Prog.final_pure,
    Prog.final_modify] at h ⊢
  split_ifs at h ⊢ with hvalid hmounted hlarge hflag habsent hmount
  · exact hmounted
  · have hlt : device < USB_STORAGE_MAX_DEVICES := UInt8.not_le.1 hlarge
    simp [Storage.mounted, hlt, hflag]
  · have hlt : device < USB_STORAGE_MAX_DEVICES := UInt8.not_le.1 hlarge
    simp [Storage.mounted, hlt]

/-! ## Closing -/

theorem freeSlot_lt {slot : UInt8} (h : s.freeSlot = some slot) : slot < RP_FS_MAX_HANDLES := by
  exact mem_bytesBelow.1 (List.mem_of_find?_eq_some h)

theorem isOpen_setHandle (s : Storage σ) {slot : UInt8} (hslot : slot < RP_FS_MAX_HANDLES) {r : RPFSHandle}
    (hr : r.in_use = true) : (s.setHandle slot r).isOpen slot = true := by
  simp [Storage.isOpen, Storage.setHandle, hslot, hr]

/-- Closing a handle that has just been set leaves no handle in use that was not before. -/
theorem unchanged_close_setHandle (laws : FileLaws ff files truncate) {slot : UInt8}
    (hslot : slot < RP_FS_MAX_HANDLES) (s : Storage σ) (device flags : UInt8) :
    Unchanged files s ((rpFsClose ff slot).final (s.setHandle slot ⟨true, device, flags⟩)) := by
  have hopen : (s.setHandle slot ⟨true, device, flags⟩).isOpen slot = true := isOpen_setHandle s hslot rfl
  simp only [rpFsClose, Prog.final_bind, Prog.result_get, Prog.final_get,
    if_pos hopen, Prog.final_modify, Prog.final_pure]
  obtain ⟨hfiles, hhandles⟩ := laws.f_close slot (s.setHandle slot ⟨true, device, flags⟩)
  refine ⟨hfiles, fun h hin => ?_⟩
  by_cases heq : h = slot
  · subst heq
    simp [Storage.setHandle] at hin
  · have hbefore := hhandles h (by simpa [Storage.setHandle, Function.update_of_ne heq] using hin)
    simpa [Storage.setHandle, Function.update_of_ne heq] using hbefore

end Files

/-! ## A disk in memory

The laws hold of a FatFs that keeps its files in memory, here one without directories.
-/

/-- The files, and for each slot the path and the position of its `FIL`. -/
structure RamDisk where
  files : List UInt8 → Option (List UInt8)
  fil : UInt8 → List UInt8 × Nat

namespace RamDisk

/-- `FR_NO_FILE` -/
def FR_NO_FILE : FRESULT := 4

/-- `FR_NO_PATH` -/
def FR_NO_PATH : FRESULT := 5

/-- A file's bytes are set. -/
def write (path : List UInt8) (bytes : Option (List UInt8)) (s : Storage RamDisk) : Storage RamDisk :=
  { s with fatfs := { s.fatfs with files := Function.update s.fatfs.files path bytes } }

/-- A slot's `FIL` is set. -/
def seek (slot : UInt8) (path : List UInt8) (position : Nat) (s : Storage RamDisk) :
    Storage RamDisk :=
  { s with fatfs := { s.fatfs with fil := Function.update s.fatfs.fil slot (path, position) } }

/-- The bytes of the file a slot has open. -/
def contents (slot : UInt8) (s : Storage RamDisk) : List UInt8 :=
  (s.fatfs.files (s.fatfs.fil slot).1).getD []

/-- The FatFs of a disk in memory. -/
def fatFs : FatFs RamDisk where
  f_mount _ := return FR_OK
  f_open slot path mode := do
    if mode &&& FA_CREATE_ALWAYS ≠ 0 then
      modify (write path (some []))
      modify (seek slot path 0)
      return FR_OK
    else if ((← get).fatfs.files path).isSome then
      modify (seek slot path 0)
      return FR_OK
    else
      return FR_NO_FILE
  f_close _ := return FR_OK
  f_read slot len := do
    let s ← get
    let (path, position) := s.fatfs.fil slot
    let bytes := ((contents slot s).drop position).take len.toNat
    modify (seek slot path (position + bytes.length))
    return (FR_OK, bytes)
  f_write slot src := do
    let s ← get
    let (path, position) := s.fatfs.fil slot
    let bytes := contents slot s
    modify (write path (some (bytes.take position ++ src ++ bytes.drop (position + src.length))))
    modify (seek slot path (position + src.length))
    return (FR_OK, src.length)
  f_lseek slot position := do
    modify (seek slot ((← get).fatfs.fil slot).1 position.toNat)
    return FR_OK
  f_size slot s := UInt32.ofNat (contents slot s).length
  f_tell slot s := UInt32.ofNat (s.fatfs.fil slot).2
  f_unlink path := do
    if ((← get).fatfs.files path).isSome then
      modify (write path none)
      return FR_OK
    else
      return FR_NO_FILE
  f_rename old_path new_path := do
    match (← get).fatfs.files old_path with
    | none => return FR_NO_FILE
    | some bytes =>
      modify (write old_path none)
      modify (write new_path (some bytes))
      return FR_OK
  f_mkdir _ := return FR_NO_PATH
  f_opendir _ _ := return FR_NO_PATH
  f_readdir _ := return (FR_NO_PATH, ⟨[], [], 0, 0⟩)
  f_closedir _ := return FR_OK
  entriesLeft _ _ := 0
  entriesLeft_readdir := by
    intro slot s h
    exact absurd (show FR_NO_PATH = FR_OK from h) (by decide)

/-- Truncation of a file in memory. -/
def truncate (path : List UInt8) (files : List UInt8 → Option (List UInt8)) :
    List UInt8 → Option (List UInt8) :=
  Function.update files path (some [])

/-- A storage whose device 0 is mounted and holds some files, with no handle in use. -/
def mounted (files : List UInt8 → Option (List UInt8)) : Storage RamDisk where
  gRPFSHandles _ := ⟨false, 0, 0⟩
  gRPFSDirHandles _ := ⟨false, 0⟩
  gUSBFatFsMounted device := device = 0
  usbPresent device := device = 0
  fatfs := ⟨files, fun _ => ([], 0)⟩

theorem fileLaws : FileLaws fatFs RamDisk.files truncate where
  f_mount _ := Prog.Keeps.pure FR_OK
  f_open_read slot path := by
    refine Prog.Keeps.ite (fun h => absurd rfl h) fun _ => Prog.Keeps.get.bind fun s => ?_
    refine Prog.Keeps.ite (fun _ => ?_) fun _ => Prog.Keeps.pure FR_NO_FILE
    exact (Prog.Keeps.modify fun _ => ⟨rfl, fun _ h => h⟩).bind fun _ => Prog.Keeps.pure FR_OK
  f_open_create slot path s _ := rfl
  f_open_handles slot path mode := by
    intro s h hin
    simp only [fatFs, Prog.final_ite, Prog.final_bind, Prog.final_modify, Prog.final_pure,
      Prog.final_get] at hin
    split at hin
    · exact hin
    split at hin
    · exact hin
    · exact hin
  f_close _ := Prog.Keeps.pure FR_OK

end RamDisk

end NeoMmu
