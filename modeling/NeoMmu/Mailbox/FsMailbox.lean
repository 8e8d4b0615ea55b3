import NeoMmu.Mailbox.ContextAccess

/-!
# Filesystem requests

The operations of `rp_fs_mailbox.cpp`. A request block names the operation, the calling process and
its context; the arguments lie in that context. Every path ends in one of the two calls
`rp_fs_mb_set_done` and `rp_fs_mb_set_error`.
-/

namespace NeoMmu

variable {σ : Type}

/-- `RP_FS_MAILBOX_CHUNK_SIZE` -/
def RP_FS_MAILBOX_CHUNK_SIZE : Nat := 256

/-- `RP_FS_OP_STATUS` -/
def RP_FS_OP_STATUS : UInt8 := 0x01

/-- `RP_FS_OP_OPEN` -/
def RP_FS_OP_OPEN : UInt8 := 0x02

/-- `RP_FS_OP_READ` -/
def RP_FS_OP_READ : UInt8 := 0x03

/-- `RP_FS_OP_CLOSE` -/
def RP_FS_OP_CLOSE : UInt8 := 0x04

/-- `RP_FS_OP_WRITE` -/
def RP_FS_OP_WRITE : UInt8 := 0x05

/-- `RP_FS_OP_LOAD` -/
def RP_FS_OP_LOAD : UInt8 := 0x06

/-- `RP_FS_OP_SAVE` -/
def RP_FS_OP_SAVE : UInt8 := 0x07

/-- `RP_FS_OP_SEEK` -/
def RP_FS_OP_SEEK : UInt8 := 0x08

/-- `RP_FS_OP_TELL` -/
def RP_FS_OP_TELL : UInt8 := 0x09

/-- `RP_FS_OP_DELETE` -/
def RP_FS_OP_DELETE : UInt8 := 0x0A

/-- `RP_FS_OP_RENAME` -/
def RP_FS_OP_RENAME : UInt8 := 0x0B

/-- `RP_FS_OP_OPENDIR` -/
def RP_FS_OP_OPENDIR : UInt8 := 0x0C

/-- `RP_FS_OP_READDIR` -/
def RP_FS_OP_READDIR : UInt8 := 0x0D

/-- `RP_FS_OP_CLOSEDIR` -/
def RP_FS_OP_CLOSEDIR : UInt8 := 0x0E

/-- `RP_FS_OP_MKDIR` -/
def RP_FS_OP_MKDIR : UInt8 := 0x0F

/-- `RP_FS_OP_RMDIR` -/
def RP_FS_OP_RMDIR : UInt8 := 0x10

/-- `RP_FS_OP_CWD_INIT_ROOT` -/
def RP_FS_OP_CWD_INIT_ROOT : UInt8 := 0x12

/-- `RP_FS_OP_CWD_CLONE` -/
def RP_FS_OP_CWD_CLONE : UInt8 := 0x13

/-- `RP_FS_OP_CHDIR` -/
def RP_FS_OP_CHDIR : UInt8 := 0x14

/-- `RP_FS_OP_GETCWD` -/
def RP_FS_OP_GETCWD : UInt8 := 0x15

/-- `RP_FS_FLAG_EOF` -/
def RP_FS_FLAG_EOF : UInt8 := 0x01

/-- `RP_FS_STATUS_READY` -/
def RP_FS_STATUS_READY : UInt16 := 0x0001

/-- `RP_FS_OPEN_RW_CREATE`, the last of the open modes. -/
def RP_FS_OPEN_RW_CREATE : UInt8 := 0x04

/-! ## Helpers -/

/-- `rp_fs_mb_set_done()` and the return of `mbDONE` -/
def fsMbDone (result : UInt16) (flags : UInt8) : Prog (Firmware σ) MailboxState := do
  rpMailboxSetDone result flags
  return .mbDONE

/-- `rp_fs_mb_set_done32()` and the return of `mbDONE` -/
def fsMbDone32 (result : UInt32) : Prog (Firmware σ) MailboxState := do
  rpMailboxSetDone32 result 0
  return .mbDONE

/-- `rp_fs_mb_set_error()` and the return of `mbDONE` -/
def fsMbError (err : UInt8) (partialResult : UInt16) : Prog (Firmware σ) MailboxState := do
  rpMailboxSetError err partialResult
  return .mbDONE

/-- The error of a storage operation that failed on a device. -/
def fsMbDeviceError (device : UInt8) : Prog (Firmware σ) MailboxState := do
  if (← get).storage.ready device then
    fsMbError RP_ERR_ENOENT 0
  else
    fsMbError RP_ERR_EIO 0

/-- `raw[i]` -/
def rawByte (raw : List UInt8) (i : Nat) : UInt8 := raw.getD i 0

/-- `rp_fs_mb_u16(raw + i)` -/
def rpFsMbU16 (raw : List UInt8) (i : Nat) : UInt16 :=
  (rawByte raw i).toUInt16 ||| ((rawByte raw (i + 1)).toUInt16 <<< 8)

/-- The bytes of a 32-bit value, the lowest first. -/
def littleEndian32 (v : UInt32) : List UInt8 :=
  [v.toUInt8, (v >>> 8).toUInt8, (v >>> 16).toUInt8, (v >>> 24).toUInt8]

/-- `rp_fs_mb_effective_16bit_size()` -/
def rpFsMbEffective16bitSize (size_word : UInt16) : Nat :=
  if size_word = 0 then 65536 else size_word.toNat

/-- `rp_fs_mb_valid_64k_range()` -/
def rpFsMbValid64kRange (start : UInt16) (count : Nat) : Bool :=
  if count = 0 then true
  else if 65536 < count then false
  else if count = 65536 then start = 0
  else start.toNat + count - 1 ≤ 0xFFFF

/-- `rp_fs_mb_resolve_arg_path()` -/
def rpFsMbResolveArgPath (pid context : UInt8) (path_ptr max_len : UInt16)
    (fallback_device : UInt8) : Prog (Firmware σ) (Option RPFSResolvedPath) := do
  match ← rpFsMbReadContextPath context path_ptr max_len RP_FS_NEOX_PATH_MAX with
  | none => return none
  | some input =>
    let cwd := (← get).gRPFSProcessCwd
    match rpFsResolveProcessPath cwd pid fallback_device input ⟨0, []⟩ with
    | (.RP_FS_PATH_OK, resolved) => return some resolved
    | _ => return none

/-- The argument block of a request and the checks on it, in front of its operation. -/
def withArgs (context : UInt8) (args_ptr length : UInt16) (valid : List UInt8 → Bool)
    (operation : List UInt8 → Prog (Firmware σ) MailboxState) : Prog (Firmware σ) MailboxState := do
  match ← rpFsMbReadContextBlock context args_ptr length with
  | none => fsMbError RP_ERR_EINVAL 0
  | some raw => if valid raw then operation raw else fsMbError RP_ERR_EINVAL 0

/-- The resolution of a path argument, in front of the operation on it. -/
def withPath (pid context : UInt8) (path_ptr max_len : UInt16) (fallback_device : UInt8)
    (operation : RPFSResolvedPath → Prog (Firmware σ) MailboxState) :
    Prog (Firmware σ) MailboxState := do
  match ← rpFsMbResolveArgPath pid context path_ptr max_len fallback_device with
  | none => fsMbError RP_ERR_EINVAL 0
  | some path => operation path

/-- The check of a handle after the argument block has been read. -/
def withOpen (isOpen : Firmware σ → Bool) (operation : Prog (Firmware σ) MailboxState) :
    Prog (Firmware σ) MailboxState := do
  if isOpen (← get) then
    operation
  else
    fsMbError RP_ERR_EINVAL 0

/-- Write a result into the caller's argument block before the completion `done`. -/
def withResult (context : UInt8) (address : UInt16) (src : List UInt8)
    (done : Prog (Firmware σ) MailboxState) : Prog (Firmware σ) MailboxState := do
  if ← rpFsMbWriteContextBlock context address src then
    done
  else
    fsMbError RP_ERR_EINVAL 0

section Operations

variable (ff : FatFs σ)

/-! ## Paths -/

/-- The `switch` over the open modes. -/
def openByMode (mode device : UInt8) (path : List UInt8) : Prog (Storage σ) (Option UInt8) :=
  if mode = 0x00 then rpFsOpenReadonly83 ff device path
  else if mode = 0x01 then rpFsOpenWriteTruncate83 ff device path
  else if mode = 0x02 then rpFsOpenWriteExisting83 ff device path
  else if mode = 0x03 then rpFsOpenRwExisting83 ff device path
  else if mode = RP_FS_OPEN_RW_CREATE then rpFsOpenRwCreate83 ff device path
  else return none

/-- `rp_fs_mb_exec_open()` -/
def rpFsMbExecOpen (pid context : UInt8) (args_ptr : UInt16) : Prog (Firmware σ) MailboxState :=
  withArgs context args_ptr 6
    (fun raw => !(RP_FS_OPEN_RW_CREATE < rawByte raw 4 || 9 < rawByte raw 5)) fun raw =>
  withPath pid context (rpFsMbU16 raw 0) (rpFsMbU16 raw 2) (rawByte raw 5) fun path => do
    if (← get).storage.freeHandleCount = 0 then
      fsMbError RP_ERR_ENOMEM 0
    else
      match ← onStorage (openByMode ff (rawByte raw 4) path.device path.path) with
      | none => fsMbDeviceError path.device
      | some handle => fsMbDone handle.toUInt16 path.device

/-- The storage operation of `rp_fs_mb_exec_single_path()`. -/
def singlePathOperation (operation device : UInt8) (path : List UInt8) : Prog (Storage σ) Bool :=
  if operation = RP_FS_OP_DELETE then rpFsDelete83 ff device path
  else if operation = RP_FS_OP_MKDIR then rpFsMkdir83 ff device path
  else if operation = RP_FS_OP_RMDIR then rpFsRmdir83 ff device path
  else return false

/-- `rp_fs_mb_exec_single_path()` -/
def rpFsMbExecSinglePath (operation pid context : UInt8) (args_ptr : UInt16) :
    Prog (Firmware σ) MailboxState :=
  withArgs context args_ptr 6 (fun raw => rawByte raw 5 = 0) fun raw =>
  withPath pid context (rpFsMbU16 raw 0) (rpFsMbU16 raw 2) (rawByte raw 4) fun path => do
    if ← onStorage (singlePathOperation ff operation path.device path.path) then
      fsMbDone 0 path.device
    else
      fsMbDeviceError path.device

/-- `rp_fs_mb_exec_rename()` -/
def rpFsMbExecRename (pid context : UInt8) (args_ptr : UInt16) : Prog (Firmware σ) MailboxState :=
  withArgs context args_ptr 8 (fun raw => rawByte raw 7 = 0) fun raw =>
  withPath pid context (rpFsMbU16 raw 0) (rpFsMbU16 raw 4) (rawByte raw 6) fun old_path =>
  withPath pid context (rpFsMbU16 raw 2) (rpFsMbU16 raw 4) (rawByte raw 6) fun new_path => do
    if old_path.device ≠ new_path.device then
      fsMbError RP_ERR_EINVAL 0
    else
      if ← onStorage (rpFsRename83 ff old_path.device old_path.path new_path.path) then
        fsMbDone 0 old_path.device
      else
        fsMbDeviceError old_path.device

/-- `rp_fs_mb_exec_opendir()` -/
def rpFsMbExecOpendir (pid context : UInt8) (args_ptr : UInt16) : Prog (Firmware σ) MailboxState :=
  withArgs context args_ptr 6 (fun raw => rawByte raw 5 = 0) fun raw =>
  withPath pid context (rpFsMbU16 raw 0) (rpFsMbU16 raw 2) (rawByte raw 4) fun path => do
    match ← onStorage (rpFsOpendir83 ff path.device path.path) with
    | none => fsMbDeviceError path.device
    | some handle => fsMbDone handle.toUInt16 path.device

/-- `rp_fs_cwd_set()` on the table of the firmware -/
def setCwd (pid : UInt8) (path : RPFSResolvedPath) : Prog (Firmware σ) Bool := do
  let r := rpFsCwdSet (← get).gRPFSProcessCwd pid path
  modify fun f => { f with gRPFSProcessCwd := r.2 }
  return r.1

/-- `rp_fs_mb_exec_chdir()` -/
def rpFsMbExecChdir (pid context : UInt8) (args_ptr : UInt16) : Prog (Firmware σ) MailboxState :=
  withArgs context args_ptr 6 (fun raw => rawByte raw 5 = 0) fun raw =>
  withPath pid context (rpFsMbU16 raw 0) (rpFsMbU16 raw 2) (rawByte raw 4) fun path => do
    match ← onStorage (rpFsOpendir83 ff path.device path.path) with
    | none => fsMbDeviceError path.device
    | some handle =>
      let close_ok ← onStorage (rpFsClosedir ff handle)
      if close_ok = false then
        fsMbError RP_ERR_EIO 0
      else
        if ← setCwd pid path then
          fsMbDone 0 path.device
        else
          fsMbError RP_ERR_EIO 0

/-- `rp_fs_mb_exec_getcwd()` -/
def rpFsMbExecGetcwd (pid context : UInt8) (args_ptr : UInt16) : Prog (Firmware σ) MailboxState :=
  withArgs context args_ptr 8 (fun raw => rawByte raw 6 = 0 && rawByte raw 7 = 0) fun raw => do
    match rpFsCwdFormat (← get).gRPFSProcessCwd pid RP_FS_NEOX_PATH_MAX with
    | none => fsMbError RP_ERR_EINVAL 0
    | some cwd =>
      if (rpFsMbU16 raw 2).toNat < cwd.length + 1 then
        fsMbError RP_ERR_EINVAL 0
      else
        let result_len := UInt16.ofNat cwd.length
        withResult context (rpFsMbU16 raw 0) (cwd ++ [0]) <|
        withResult context (args_ptr + 4) [result_len.toUInt8, (result_len >>> 8).toUInt8] <|
        fsMbDone result_len 0

/-! ## Whole files -/

/-- The transfer loop of `rp_fs_mb_exec_bulk()`: the bytes transferred, and whether it failed. -/
def bulkLoop (operation handle : UInt8) (mem_ptr : UInt16) (transfer_size total : Nat) :
    Prog (Firmware σ) (Nat × Bool) :=
  if total < transfer_size then do
    let chunk := min RP_FS_MAILBOX_CHUNK_SIZE (transfer_size - total)
    let address := mem_ptr + UInt16.ofNat total
    if operation = RP_FS_OP_LOAD then
      match ← onStorage (rpFsRead ff handle (UInt16.ofNat chunk)) with
      | none => return (total, true)
      | some [] => return (total, true)
      | some (b :: bytes) =>
        onHw (writeBlock address (b :: bytes))
        bulkLoop operation handle mem_ptr transfer_size (total + (bytes.length + 1))
    else
      let buffer ← onHw (readBlock address chunk)
      match ← onStorage (rpFsWrite ff handle buffer) with
      | none => return (total, true)
      | some count =>
        if count ≠ chunk then return (total + count, true)
        else bulkLoop operation handle mem_ptr transfer_size (total + chunk)
  else
    return (total, false)
termination_by transfer_size - total
decreasing_by
  · omega
  · simp only [RP_FS_MAILBOX_CHUNK_SIZE] at *
    omega

/-- The handle of a bulk transfer and the number of bytes to transfer: a LOAD is clipped to the size
of the file. -/
def bulkOpen (operation device : UInt8) (path : List UInt8) (requested : Nat) :
    Prog (Storage σ) (Option UInt8 × Nat) := do
  if operation = RP_FS_OP_LOAD then
    match ← rpFsOpenReadonly83 ff device path with
    | none => return (none, requested)
    | some handle =>
      let size ← rpFsSize ff handle
      return (some handle, min requested size.toNat)
  else
    return (← rpFsOpenWriteTruncate83 ff device path, requested)

/-- `rp_fs_mb_exec_bulk()` from its range check on -/
def bulkTransfer (operation context device handle : UInt8) (mem_ptr : UInt16) (transfer_size : Nat) :
    Prog (Firmware σ) MailboxState := do
  if rpFsMbValid64kRange mem_ptr transfer_size = false then
    discard <| onStorage (rpFsClose ff handle)
    fsMbError RP_ERR_EINVAL 0
  else
    match ← withContext context (bulkLoop ff operation handle mem_ptr transfer_size 0) with
    | none =>
      discard <| onStorage (rpFsClose ff handle)
      fsMbError RP_ERR_EINVAL 0
    | some (total, failed) =>
      let close_ok ← onStorage (rpFsClose ff handle)
      if failed ∨ close_ok = false ∨ total ≠ transfer_size then
        fsMbError RP_ERR_EIO (UInt16.ofNat total)
      else
        fsMbDone (UInt16.ofNat total) device

/-- `rp_fs_mb_exec_bulk()` from its open on -/
def bulkOnPath (operation context : UInt8) (path : RPFSResolvedPath) (mem_ptr size_word : UInt16) :
    Prog (Firmware σ) MailboxState := do
  match ← onStorage (bulkOpen ff operation path.device path.path
    (rpFsMbEffective16bitSize size_word)) with
  | (none, _) => fsMbDeviceError path.device
  | (some handle, transfer_size) =>
    bulkTransfer ff operation context path.device handle mem_ptr transfer_size

/-- `rp_fs_mb_exec_bulk()` -/
def rpFsMbExecBulk (operation pid context : UInt8) (args_ptr : UInt16) :
    Prog (Firmware σ) MailboxState :=
  withArgs context args_ptr 8 (fun raw => rawByte raw 7 = 0) fun raw =>
  withPath pid context (rpFsMbU16 raw 0) (UInt16.ofNat (RP_FS_NEOX_PATH_MAX - 1)) (rawByte raw 6)
    fun path =>
  bulkOnPath ff operation context path (rpFsMbU16 raw 2) (rpFsMbU16 raw 4)

/-! ## Handles -/

/-- `len` clipped to the size of the buffers. -/
def clipToChunk (len : UInt16) : UInt16 := if 256 < len then 256 else len

/-- The end-of-file flag of a handle. -/
def eofFlag (handle : UInt8) : Prog (Storage σ) UInt8 := do
  let position ← rpFsPosition ff handle
  let size ← rpFsSize ff handle
  return if size ≤ position then RP_FS_FLAG_EOF else 0

/-- `rp_fs_mb_exec_read()` -/
def rpFsMbExecRead (context : UInt8) (args_ptr : UInt16) (handle : UInt8) :
    Prog (Firmware σ) MailboxState :=
  withArgs context args_ptr 6 (fun _ => true) fun raw =>
  withOpen (fun f => f.storage.isOpen handle) <|
    let dst := rpFsMbU16 raw 2
    let len := rpFsMbU16 raw 4
    if dst = 0 then fsMbError RP_ERR_EINVAL 0
    else if len = 0 then do
      let eof ← onStorage (eofFlag ff handle)
      fsMbDone 0 eof
    else if rpFsMbPrivateRange dst (clipToChunk len) = false then fsMbError RP_ERR_EINVAL 0
    else do
      match ← onStorage (rpFsRead ff handle (clipToChunk len)) with
      | none => fsMbError RP_ERR_EIO 0
      | some [] =>
        let eof ← onStorage (eofFlag ff handle)
        fsMbDone 0 eof
      | some bytes =>
        withResult context dst bytes do
          let eof ← onStorage (eofFlag ff handle)
          fsMbDone (UInt16.ofNat bytes.length) eof

/-- `rp_fs_mb_exec_write()` -/
def rpFsMbExecWrite (context : UInt8) (args_ptr : UInt16) (handle : UInt8) :
    Prog (Firmware σ) MailboxState :=
  withArgs context args_ptr 6 (fun _ => true) fun raw =>
  withOpen (fun f => f.storage.isOpen handle) <|
    let src := rpFsMbU16 raw 2
    let len := rpFsMbU16 raw 4
    if src = 0 then fsMbError RP_ERR_EINVAL 0
    else if len = 0 then fsMbDone 0 0
    else do
      match ← rpFsMbReadContextBlock context src (clipToChunk len) with
      | none => fsMbError RP_ERR_EINVAL 0
      | some buffer =>
        match ← onStorage (rpFsWrite ff handle buffer) with
        | none => fsMbError RP_ERR_EIO 0
        | some count => fsMbDone (UInt16.ofNat count) 0

/-- The base of a seek; `none` for an unknown origin. -/
def seekBase (handle whence : UInt8) : Prog (Storage σ) (Option Int) := do
  if whence = 0x00 then
    return some 0
  else if whence = 0x01 then
    return some (← rpFsPosition ff handle).toNat
  else if whence = 0x02 then
    return some (← rpFsSize ff handle).toNat
  else
    return none

/-- `rp_fs_mb_exec_seek()` -/
def rpFsMbExecSeek (context : UInt8) (args_ptr : UInt16) (handle : UInt8) :
    Prog (Firmware σ) MailboxState :=
  withArgs context args_ptr 10 (fun _ => true) fun raw =>
  withOpen (fun f => f.storage.isOpen handle) do
    let offset_bits := (rpFsMbU16 raw 2).toUInt32 ||| ((rpFsMbU16 raw 4).toUInt32 <<< 16)
    match ← onStorage (seekBase ff handle (rawByte raw 1)) with
    | none => fsMbError RP_ERR_EINVAL 0
    | some base =>
      let target := base + offset_bits.toInt32.toInt
      if target < 0 ∨ 0xFFFFFFFF < target then
        fsMbError RP_ERR_EINVAL 0
      else
        if ← onStorage (rpFsSeek ff handle (UInt32.ofNat target.toNat)) then
          let position ← onStorage (rpFsPosition ff handle)
          withResult context (args_ptr + 6) (littleEndian32 position) (fsMbDone32 position)
        else
          fsMbError RP_ERR_EIO 0

/-- `rp_fs_mb_exec_tell()` -/
def rpFsMbExecTell (context : UInt8) (args_ptr : UInt16) (handle : UInt8) :
    Prog (Firmware σ) MailboxState :=
  withArgs context args_ptr 6 (fun _ => true) fun _ =>
  withOpen (fun f => f.storage.isOpen handle) do
    let position ← onStorage (rpFsPosition ff handle)
    withResult context (args_ptr + 2) (littleEndian32 position) (fsMbDone32 position)

/-- The `RP_FS_DIRENT_SIZE` bytes of a directory entry. -/
def direntBytes (name : List UInt8) (attr : UInt8) (size : UInt32) : List UInt8 :=
  (name.take 12).rightpad 13 0 ++ [attr] ++ littleEndian32 size

/-- `rp_fs_mb_exec_readdir()` -/
def rpFsMbExecReaddir (context : UInt8) (args_ptr : UInt16) (handle : UInt8) :
    Prog (Firmware σ) MailboxState :=
  withArgs context args_ptr 6 (fun _ => true) fun raw =>
  withOpen (fun f => f.storage.dirIsOpen handle) <|
    let dst := rpFsMbU16 raw 2
    if rpFsMbU16 raw 4 < RP_FS_DIRENT_SIZE ∨ rpFsMbPrivateRange dst RP_FS_DIRENT_SIZE = false then
      fsMbError RP_ERR_EINVAL 0
    else do
      match ← onStorage (rpFsReaddir ff handle 13) with
      | .error => fsMbError RP_ERR_EIO 0
      | .eof => fsMbDone 0 RP_FS_FLAG_EOF
      | .entry name attr size =>
        withResult context dst (direntBytes name attr size) (fsMbDone 1 0)

/-- `rp_fs_mb_exec_status()` -/
def rpFsMbExecStatus : Prog (Firmware σ) MailboxState := do
  let s := (← get).storage
  let mask := s.mountedMask
  fsMbDone ((if mask ≠ 0 then RP_FS_STATUS_READY else 0) ||| (s.mountedCount.toUInt16 <<< 8)) mask

/-- `rp_fs_mb_exec_close()` -/
def rpFsMbExecClose (handle : UInt8) : Prog (Firmware σ) MailboxState :=
  withOpen (fun f => f.storage.isOpen handle) do
    if ← onStorage (rpFsClose ff handle) then
      fsMbDone 0 0
    else
      fsMbError RP_ERR_EIO 0

/-- `rp_fs_mb_exec_closedir()` -/
def rpFsMbExecClosedir (handle : UInt8) : Prog (Firmware σ) MailboxState :=
  withOpen (fun f => f.storage.dirIsOpen handle) do
    if ← onStorage (rpFsClosedir ff handle) then
      fsMbDone 0 0
    else
      fsMbError RP_ERR_EIO 0

/-! ## The request -/

/-- A change of the CWD table that may be refused. -/
def execCwd (change : CwdTable → Bool × CwdTable) : Prog (Firmware σ) MailboxState := do
  let r := change (← get).gRPFSProcessCwd
  modify fun f => { f with gRPFSProcessCwd := r.2 }
  if r.1 then
    fsMbDone 0 0
  else
    fsMbError RP_ERR_EINVAL 0

/-- `rp_read16(RP_ARG0L)` -/
def readArg0 : Prog (Firmware σ) UInt16 := onHw (rpRead16 RP_ARG0L)

/-- `snoop_read6502MemoryLoc(RP_ARG2L)` -/
def readArg2L : Prog (Firmware σ) UInt8 := onHw (snoopRead6502MemoryLoc RP_ARG2L)

/-- `snoop_read6502MemoryLoc(RP_ARG2H)` -/
def readArg2H : Prog (Firmware σ) UInt8 := onHw (snoopRead6502MemoryLoc RP_ARG2H)

/-- The `switch` over the operation. -/
def execOperation (operation pid context : UInt8) : Prog (Firmware σ) MailboxState := do
  if operation = RP_FS_OP_STATUS then
    rpFsMbExecStatus
  else if operation = RP_FS_OP_OPEN then
    rpFsMbExecOpen ff pid context (← readArg0)
  else if operation = RP_FS_OP_READ then
    rpFsMbExecRead ff context (← readArg0) (← readArg2L)
  else if operation = RP_FS_OP_WRITE then
    rpFsMbExecWrite ff context (← readArg0) (← readArg2L)
  else if operation = RP_FS_OP_CLOSE then
    rpFsMbExecClose ff (← readArg2L)
  else if operation = RP_FS_OP_LOAD ∨ operation = RP_FS_OP_SAVE then
    rpFsMbExecBulk ff operation pid context (← readArg0)
  else if operation = RP_FS_OP_DELETE ∨ operation = RP_FS_OP_MKDIR ∨ operation = RP_FS_OP_RMDIR then
    rpFsMbExecSinglePath ff operation pid context (← readArg0)
  else if operation = RP_FS_OP_RENAME then
    rpFsMbExecRename ff pid context (← readArg0)
  else if operation = RP_FS_OP_OPENDIR then
    rpFsMbExecOpendir ff pid context (← readArg0)
  else if operation = RP_FS_OP_SEEK then
    rpFsMbExecSeek ff context (← readArg0) (← readArg2L)
  else if operation = RP_FS_OP_TELL then
    rpFsMbExecTell ff context (← readArg0) (← readArg2L)
  else if operation = RP_FS_OP_READDIR then
    rpFsMbExecReaddir ff context (← readArg0) (← readArg2L)
  else if operation = RP_FS_OP_CLOSEDIR then
    rpFsMbExecClosedir ff (← readArg2L)
  else if operation = RP_FS_OP_CHDIR then
    rpFsMbExecChdir ff pid context (← readArg0)
  else if operation = RP_FS_OP_GETCWD then
    rpFsMbExecGetcwd pid context (← readArg0)
  else if operation = RP_FS_OP_CWD_INIT_ROOT then do
    let target_pid ← readArg2L
    let device ← readArg2H
    execCwd fun table => rpFsCwdInitRoot table target_pid device
  else if operation = RP_FS_OP_CWD_CLONE then do
    let child_pid ← readArg2L
    let parent_pid ← readArg2H
    execCwd fun table => rpFsCwdClone table child_pid parent_pid
  else
    fsMbError RP_ERR_EINVAL 0

/-- The operation behind the check of PID and context. -/
def checkedOperation (operation pid context : UInt8) : Prog (Firmware σ) MailboxState :=
  if RP_FS_NEOX_MAX_PROCS ≤ pid ∨ maxContexts ≤ context then fsMbError RP_ERR_EINVAL 0
  else execOperation ff operation pid context

/-- `requestFSCompletionIRQ()` -/
def requestFSCompletionIRQ : Prog (Firmware σ) Unit := do
  emit .completionIRQ
  modify fun f => { f with gFsCompletionPending := true }

/-- `rp_fs_mailbox_handle_exec()` -/
def rpFsMailboxHandleExec : Prog (Firmware σ) MailboxState := do
  let operation ← onHw (snoopRead6502MemoryLoc RP_STATE)
  let pid ← onHw (snoopRead6502MemoryLoc RP_ARG1L)
  let context ← onHw (snoopRead6502MemoryLoc RP_ARG1H)
  let next_state ← checkedOperation ff operation pid context
  if pid ≠ 0 then
    requestFSCompletionIRQ
  return next_state

/-- `rp_fs_mailbox_reset()` -/
def rpFsMailboxReset : Prog (Firmware σ) Unit := do
  onStorage (rpFsCloseAll ff)
  modify fun f => { f with gRPFSProcessCwd := rpFsCwdResetAll f.gRPFSProcessCwd }

end Operations

end NeoMmu
