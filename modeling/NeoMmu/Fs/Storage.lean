import NeoMmu.Foundation.Bytes
import NeoMmu.Foundation.Prog
import NeoMmu.Fs.Path

/-!
# Files on USB storage

The handle layer of `rp_fs.cpp` and the mounting of `usb_fatfs.cpp`. FatFs is not part of the
repository: `FatFs σ` is its interface, over a state `σ` that holds its volumes and the `FIL` and `DIR`
objects of the handle slots. Its calls wait for USB transfers, and meanwhile a removed device is
unmounted and its handles are closed, so they run on the whole `Storage`.
-/

namespace NeoMmu

/-- `RP_FS_MAX_HANDLES` -/
def RP_FS_MAX_HANDLES : UInt8 := 4

/-- `RP_FS_MAX_DIR_HANDLES` -/
def RP_FS_MAX_DIR_HANDLES : UInt8 := 4

/-- `RP_FS_DIRENT_SIZE` -/
def RP_FS_DIRENT_SIZE : UInt16 := 18

/-- `RP_FS_HANDLE_READ` -/
def RP_FS_HANDLE_READ : UInt8 := 0x01

/-- `RP_FS_HANDLE_WRITE` -/
def RP_FS_HANDLE_WRITE : UInt8 := 0x02

/-- `FRESULT` -/
abbrev FRESULT := UInt8

/-- `FR_OK` -/
def FR_OK : FRESULT := 0

/-- `FA_READ` -/
def FA_READ : UInt8 := 0x01

/-- `FA_WRITE` -/
def FA_WRITE : UInt8 := 0x02

/-- `FA_OPEN_EXISTING` -/
def FA_OPEN_EXISTING : UInt8 := 0x00

/-- `FA_CREATE_ALWAYS` -/
def FA_CREATE_ALWAYS : UInt8 := 0x08

/-- `FA_OPEN_ALWAYS` -/
def FA_OPEN_ALWAYS : UInt8 := 0x10

/-- `FILINFO` -/
structure FILINFO where
  fname : List UInt8
  altname : List UInt8
  fattrib : UInt8
  fsize : UInt32
  deriving DecidableEq, Repr

/-- `RPFSHandle`, but for the `FIL` object. -/
structure RPFSHandle where
  in_use : Bool
  device : UInt8
  flags : UInt8
  deriving DecidableEq, Repr

/-- `RPFSDirHandle`, but for the `DIR` object. -/
structure RPFSDirHandle where
  in_use : Bool
  device : UInt8
  deriving DecidableEq, Repr

/-- The statics of `rp_fs.cpp`, `usb_fatfs.cpp` and `usb_storage.cpp` that file operations use, and
the state of FatFs. -/
structure Storage (σ : Type) where
  gRPFSHandles : UInt8 → RPFSHandle
  gRPFSDirHandles : UInt8 → RPFSDirHandle
  gUSBFatFsMounted : UInt8 → Bool
  /-- `gUSBStorageSlots[device].present` -/
  usbPresent : UInt8 → Bool
  fatfs : σ

/-- The FatFs functions the handle layer calls, with the slot in place of the object's address. -/
structure FatFs (σ : Type) where
  f_mount (device : UInt8) : Prog (Storage σ) FRESULT
  f_open (slot : UInt8) (path : List UInt8) (mode : UInt8) : Prog (Storage σ) FRESULT
  f_close (slot : UInt8) : Prog (Storage σ) FRESULT
  /-- The result and the bytes read. -/
  f_read (slot : UInt8) (len : UInt16) : Prog (Storage σ) (FRESULT × List UInt8)
  /-- The result and the number of bytes written. -/
  f_write (slot : UInt8) (src : List UInt8) : Prog (Storage σ) (FRESULT × Nat)
  f_lseek (slot : UInt8) (position : UInt32) : Prog (Storage σ) FRESULT
  f_size (slot : UInt8) (s : Storage σ) : UInt32
  f_tell (slot : UInt8) (s : Storage σ) : UInt32
  f_unlink (path : List UInt8) : Prog (Storage σ) FRESULT
  f_rename (old_path new_path : List UInt8) : Prog (Storage σ) FRESULT
  f_mkdir (path : List UInt8) : Prog (Storage σ) FRESULT
  f_opendir (slot : UInt8) (path : List UInt8) : Prog (Storage σ) FRESULT
  f_readdir (slot : UInt8) : Prog (Storage σ) (FRESULT × FILINFO)
  f_closedir (slot : UInt8) : Prog (Storage σ) FRESULT
  /-- The entries an open directory still has to return. -/
  entriesLeft (slot : UInt8) (s : Storage σ) : Nat
  /-- A directory is finite: every entry returned is one less to come. -/
  entriesLeft_readdir : ∀ slot s, ((f_readdir slot).result s).1 = FR_OK →
    ((f_readdir slot).result s).2.fname ≠ [] →
      entriesLeft slot ((f_readdir slot).final s) < entriesLeft slot s

variable {σ : Type}

/-! ## Names and paths -/

/-- `rp_fs_is_valid_83_component()`, which does not name the separator. -/
def rpFsIsValid83Component (start : List UInt8) : Bool :=
  if start = [] then false else Scan83.accepts ['\\'.toUInt8, ':'.toUInt8] start

/-- A path without its `N:/` prefix. -/
def dropDrive (path : List UInt8) : List UInt8 :=
  if (rpFsPathHasDrivePrefix path).isSome then path.drop 3 else path

/-- `rp_fs_is_valid_83_name()` -/
def rpFsIsValid83Name (filename : List UInt8) : Bool :=
  if filename = [] then false
  else Scan83.accepts [slash, '\\'.toUInt8, ':'.toUInt8] (dropDrive filename)

/-- `rp_fs_is_valid_83_path()` -/
def rpFsIsValid83Path (path : List UInt8) : Bool :=
  validLogicalPath rpFsIsValid83Component (dropDrive path)

/-- The size of the path buffers of `rp_fs.cpp`. -/
def FATFS_PATH_SIZE : Nat := 96

/-- The `N:/` of a device. -/
def drive (device : UInt8) : List UInt8 := ['0'.toUInt8 + device, ':'.toUInt8, slash]

/-- `rp_fs_valid_device()` -/
def rpFsValidDevice (device : UInt8) : Bool := device < USB_STORAGE_MAX_DEVICES

/-- The prefix of a path, when it has one, names the device. -/
def driveMatches (device : UInt8) (path : List UInt8) : Bool :=
  match rpFsPathHasDrivePrefix path with
  | some d => d = device
  | none => true

/-- `rp_fs_make_path()` -/
def rpFsMakePath (device : UInt8) (filename : List UInt8) : Option (List UInt8) :=
  if filename = [] then none
  else if rpFsValidDevice device = false ∨ 9 < device then none
  else if rpFsIsValid83Path filename = false then none
  else if driveMatches device filename = false then none
  else
    let logical := dropDrive filename
    if logical = [] ∨ logical = [slash] then none
    else if (rpFsPathHasDrivePrefix filename).isSome then
      if FATFS_PATH_SIZE ≤ filename.length then none else some filename
    else
      let logical := dropRoot logical
      if logical = [] ∨ FATFS_PATH_SIZE ≤ 3 + logical.length then none
      else some (drive device ++ logical)

/-- `rp_fs_make_dir_path()` -/
def rpFsMakeDirPath (device : UInt8) (dirname : List UInt8) : Option (List UInt8) :=
  if rpFsValidDevice device = false ∨ 9 < device then none
  else if rpFsIsValid83Path dirname = false then none
  else if (rpFsPathHasDrivePrefix dirname).isSome then
    if driveMatches device dirname = false then none
    else if FATFS_PATH_SIZE ≤ dirname.length then none else some dirname
  else if dirname = [] ∨ dirname = [slash] then some (drive device)
  else
    let source := dropRoot dirname
    if FATFS_PATH_SIZE ≤ 3 + source.length then none else some (drive device ++ source)

/-- `rp_fs_is_root_dir_path()` -/
def rpFsIsRootDirPath (path : List UInt8) : Bool :=
  (rpFsPathHasDrivePrefix path).isSome && path.length == 3

/-! ## Handles -/

namespace Storage

/-- `rp_fs_valid_handle()`, also `rp_fs_is_open()` -/
def isOpen (s : Storage σ) (handle : UInt8) : Bool :=
  handle < RP_FS_MAX_HANDLES && (s.gRPFSHandles handle).in_use

/-- `rp_fs_valid_dir_handle()`, also `rp_fs_dir_is_open()` -/
def dirIsOpen (s : Storage σ) (handle : UInt8) : Bool :=
  handle < RP_FS_MAX_DIR_HANDLES && (s.gRPFSDirHandles handle).in_use

/-- `rp_fs_free_handle_count()` -/
def freeHandleCount (s : Storage σ) : Nat :=
  ((bytesBelow RP_FS_MAX_HANDLES).filter fun i => !(s.gRPFSHandles i).in_use).length

/-- `usb_fatfs_mounted()` -/
def mounted (s : Storage σ) (device : UInt8) : Bool :=
  device < USB_STORAGE_MAX_DEVICES && s.gUSBFatFsMounted device

/-- `usb_fatfs_mounted_mask()` -/
def mountedMask (s : Storage σ) : UInt8 :=
  (bytesBelow USB_STORAGE_MAX_DEVICES).foldl
    (fun mask device => if s.mounted device then mask ||| (1 <<< device) else mask) 0

/-- `usb_fatfs_mounted_count()` -/
def mountedCount (s : Storage σ) : UInt8 :=
  (bytesBelow USB_STORAGE_MAX_DEVICES).foldl
    (fun count device => if s.mounted device then count + 1 else count) 0

/-- `rp_fs_ready()` of a device -/
def ready (s : Storage σ) (device : UInt8) : Bool := rpFsValidDevice device && s.mounted device

/-- The first free file handle. -/
def freeSlot (s : Storage σ) : Option UInt8 :=
  (bytesBelow RP_FS_MAX_HANDLES).find? fun i => !(s.gRPFSHandles i).in_use

/-- The first free directory handle. -/
def freeDirSlot (s : Storage σ) : Option UInt8 :=
  (bytesBelow RP_FS_MAX_DIR_HANDLES).find? fun i => !(s.gRPFSDirHandles i).in_use

/-- The storage with a file handle's record set. -/
def setHandle (s : Storage σ) (slot : UInt8) (h : RPFSHandle) : Storage σ :=
  { s with gRPFSHandles := Function.update s.gRPFSHandles slot h }

/-- The storage with a directory handle's record set. -/
def setDirHandle (s : Storage σ) (slot : UInt8) (h : RPFSDirHandle) : Storage σ :=
  { s with gRPFSDirHandles := Function.update s.gRPFSDirHandles slot h }

end Storage

section Files

variable (ff : FatFs σ)

/-- `usb_fatfs_mount()` -/
def usbFatfsMount (device : UInt8) : Prog (Storage σ) Bool := do
  let s ← get
  if USB_STORAGE_MAX_DEVICES ≤ device then
    return false
  else if s.gUSBFatFsMounted device then
    return true
  else if s.usbPresent device = false then
    return false
  else
    let fr ← ff.f_mount device
    if fr ≠ FR_OK then
      return false
    else
      modify fun s => { s with gUSBFatFsMounted := Function.update s.gUSBFatFsMounted device true }
      return true

/-- The check of the device all path operations begin with: it is mounted now if it can be. -/
def ensureMounted (device : UInt8) : Prog (Storage σ) Bool := do
  if rpFsValidDevice device = false then
    return false
  else if (← get).mounted device then
    return true
  else
    usbFatfsMount ff device

/-- `rp_fs_open_mode_83()` -/
def rpFsOpenMode83 (device : UInt8) (filename : List UInt8) (fatfs_mode handle_flags : UInt8) :
    Prog (Storage σ) (Option UInt8) := do
  if ← ensureMounted ff device then
    match (← get).freeSlot with
    | none => return none
    | some slot =>
      match rpFsMakePath device filename with
      | none => return none
      | some path =>
        let fr ← ff.f_open slot path fatfs_mode
        if fr ≠ FR_OK then
          return none
        else
          modify fun s => s.setHandle slot ⟨true, device, handle_flags⟩
          return some slot
  else
    return none

/-- `rp_fs_open_readonly_83()` -/
def rpFsOpenReadonly83 (device : UInt8) (filename : List UInt8) : Prog (Storage σ) (Option UInt8) :=
  rpFsOpenMode83 ff device filename FA_READ RP_FS_HANDLE_READ

/-- `rp_fs_open_write_truncate_83()` -/
def rpFsOpenWriteTruncate83 (device : UInt8) (filename : List UInt8) :
    Prog (Storage σ) (Option UInt8) :=
  rpFsOpenMode83 ff device filename (FA_WRITE ||| FA_CREATE_ALWAYS) RP_FS_HANDLE_WRITE

/-- `rp_fs_open_write_existing_83()` -/
def rpFsOpenWriteExisting83 (device : UInt8) (filename : List UInt8) :
    Prog (Storage σ) (Option UInt8) :=
  rpFsOpenMode83 ff device filename (FA_READ ||| FA_WRITE ||| FA_OPEN_EXISTING) RP_FS_HANDLE_WRITE

/-- `rp_fs_open_rw_existing_83()` -/
def rpFsOpenRwExisting83 (device : UInt8) (filename : List UInt8) :
    Prog (Storage σ) (Option UInt8) :=
  rpFsOpenMode83 ff device filename (FA_READ ||| FA_WRITE ||| FA_OPEN_EXISTING)
    (RP_FS_HANDLE_READ ||| RP_FS_HANDLE_WRITE)

/-- `rp_fs_open_rw_create_83()` -/
def rpFsOpenRwCreate83 (device : UInt8) (filename : List UInt8) : Prog (Storage σ) (Option UInt8) :=
  rpFsOpenMode83 ff device filename (FA_READ ||| FA_WRITE ||| FA_OPEN_ALWAYS)
    (RP_FS_HANDLE_READ ||| RP_FS_HANDLE_WRITE)

/-- `rp_fs_close()` -/
def rpFsClose (handle : UInt8) : Prog (Storage σ) Bool := do
  if (← get).isOpen handle then
    let fr ← ff.f_close handle
    modify fun s => s.setHandle handle ⟨false, 0, 0⟩
    return fr = FR_OK
  else
    return false

/-- `rp_fs_read()`: the bytes read, or `none` for its -1. -/
def rpFsRead (handle : UInt8) (len : UInt16) : Prog (Storage σ) (Option (List UInt8)) := do
  let s ← get
  if s.isOpen handle = false then
    return none
  else if (s.gRPFSHandles handle).flags &&& RP_FS_HANDLE_READ = 0 then
    return none
  else if len = 0 then
    return some []
  else
    let (fr, bytes) ← ff.f_read handle len
    return if fr ≠ FR_OK then none else some bytes

/-- `rp_fs_write()`: the number of bytes written, or `none` for its -1. -/
def rpFsWrite (handle : UInt8) (src : List UInt8) : Prog (Storage σ) (Option Nat) := do
  let s ← get
  if s.isOpen handle = false then
    return none
  else if (s.gRPFSHandles handle).flags &&& RP_FS_HANDLE_WRITE = 0 then
    return none
  else if src = [] then
    return some 0
  else
    let (fr, bw) ← ff.f_write handle src
    return if fr ≠ FR_OK then none else some bw

/-- `rp_fs_seek()` -/
def rpFsSeek (handle : UInt8) (position : UInt32) : Prog (Storage σ) Bool := do
  if (← get).isOpen handle then
    let fr ← ff.f_lseek handle position
    return fr = FR_OK
  else
    return false

/-- `rp_fs_size()` -/
def rpFsSize (handle : UInt8) : Prog (Storage σ) UInt32 :=
  .gets fun s => if s.isOpen handle then ff.f_size handle s else 0

/-- `rp_fs_position()` -/
def rpFsPosition (handle : UInt8) : Prog (Storage σ) UInt32 :=
  .gets fun s => if s.isOpen handle then ff.f_tell handle s else 0

/-- `rp_fs_delete_83()` -/
def rpFsDelete83 (device : UInt8) (filename : List UInt8) : Prog (Storage σ) Bool := do
  if ← ensureMounted ff device then
    match rpFsMakePath device filename with
    | none => return false
    | some path => return (← ff.f_unlink path) = FR_OK
  else
    return false

/-- `rp_fs_rename_83()` -/
def rpFsRename83 (device : UInt8) (old_filename new_filename : List UInt8) :
    Prog (Storage σ) Bool := do
  if ← ensureMounted ff device then
    match rpFsMakePath device old_filename, rpFsMakePath device new_filename with
    | some old_path, some new_path => return (← ff.f_rename old_path new_path) = FR_OK
    | _, _ => return false
  else
    return false

/-- `rp_fs_mkdir_83()` -/
def rpFsMkdir83 (device : UInt8) (dirname : List UInt8) : Prog (Storage σ) Bool := do
  if ← ensureMounted ff device then
    match rpFsMakeDirPath device dirname with
    | none => return false
    | some path =>
      if rpFsIsRootDirPath path then return false
      else return (← ff.f_mkdir path) = FR_OK
  else
    return false

/-- `rp_fs_rmdir_83()` -/
def rpFsRmdir83 (device : UInt8) (dirname : List UInt8) : Prog (Storage σ) Bool := do
  if ← ensureMounted ff device then
    match rpFsMakeDirPath device dirname with
    | none => return false
    | some path =>
      if rpFsIsRootDirPath path then return false
      else return (← ff.f_unlink path) = FR_OK
  else
    return false

/-- `rp_fs_opendir_83()` -/
def rpFsOpendir83 (device : UInt8) (dirname : List UInt8) : Prog (Storage σ) (Option UInt8) := do
  if ← ensureMounted ff device then
    match (← get).freeDirSlot with
    | none => return none
    | some slot =>
      match rpFsMakeDirPath device dirname with
      | none => return none
      | some path =>
        let fr ← ff.f_opendir slot path
        if fr ≠ FR_OK then
          return none
        else
          modify fun s => s.setDirHandle slot ⟨true, device⟩
          return some slot
  else
    return none

/-- What `rp_fs_readdir()` returns: 1 with an entry, 0 or -1. -/
inductive ReaddirResult
  | entry (name : List UInt8) (attr : UInt8) (size : UInt32)
  | eof
  | error
  deriving DecidableEq, Repr

/-- The name an entry is listed under; `none` for the entries that are skipped. -/
def entryName (info : FILINFO) : Option (List UInt8) :=
  if info.fname = ascii "." ∨ info.fname = ascii ".." then none
  else if rpFsIsValid83Name info.fname then some info.fname
  else if info.altname ≠ [] ∧ rpFsIsValid83Name info.altname then some info.altname
  else none

/-- The loop of `rp_fs_readdir()`, with the state it leaves. -/
def readdirLoop (handle : UInt8) (name_len : Nat) (s : Storage σ) : ReaddirResult × Storage σ :=
  let r := (ff.f_readdir handle).result s
  let s' := (ff.f_readdir handle).final s
  if _hfr : r.1 ≠ FR_OK then (.error, s')
  else if _hend : r.2.fname = [] then (.eof, s')
  else match entryName r.2 with
    | none => readdirLoop handle name_len s'
    | some name =>
      if name_len ≤ name.length then (.error, s')
      else (.entry name r.2.fattrib r.2.fsize, s')
termination_by ff.entriesLeft handle s
decreasing_by exact ff.entriesLeft_readdir handle s (not_not.1 ‹_›) ‹_›

/-- `rp_fs_readdir()` -/
def rpFsReaddir (handle : UInt8) (name_len : Nat) : Prog (Storage σ) ReaddirResult := do
  if (← get).dirIsOpen handle = false ∨ name_len < 13 then
    return .error
  else
    readdirLoop ff handle name_len

/-- `rp_fs_closedir()` -/
def rpFsClosedir (handle : UInt8) : Prog (Storage σ) Bool := do
  if (← get).dirIsOpen handle then
    let fr ← ff.f_closedir handle
    modify fun s => s.setDirHandle handle ⟨false, 0⟩
    return fr = FR_OK
  else
    return false

/-- `rp_fs_close_all()` -/
def rpFsCloseAll : Prog (Storage σ) Unit := do
  (bytesBelow RP_FS_MAX_HANDLES).forM fun i => do
    if ((← get).gRPFSHandles i).in_use then
      discard <| ff.f_close i
      modify fun s => s.setHandle i ⟨false, 0, 0⟩
  (bytesBelow RP_FS_MAX_DIR_HANDLES).forM fun i => do
    if ((← get).gRPFSDirHandles i).in_use then
      discard <| ff.f_closedir i
      modify fun s => s.setDirHandle i ⟨false, 0⟩

end Files

end NeoMmu
