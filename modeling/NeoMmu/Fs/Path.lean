import NeoMmu.Foundation.Tokens
import NeoMmu.Usb.Slots

/-!
# Paths and per-process working directories

The path engine of `rp_fs_path.cpp`. A NUL-terminated path is the list of its bytes before the NUL;
the working directory table is zero-initialised static storage, one slot for each of the eight
processes.
-/

namespace NeoMmu

/-- `RP_FS_NEOX_MAX_PROCS` -/
def RP_FS_NEOX_MAX_PROCS : UInt8 := 8

/-- `RP_FS_NEOX_PATH_MAX`, the size of a path buffer with its NUL. -/
def RP_FS_NEOX_PATH_MAX : Nat := 64

/-- `RP_FS_NEOX_CWD_MAX`, the size of a CWD buffer with its NUL. -/
def RP_FS_NEOX_CWD_MAX : Nat := 32

/-- `rp_fs_path_result_t` -/
inductive RpFsPathResult
  | RP_FS_PATH_OK
  | RP_FS_PATH_INVALID_PID
  | RP_FS_PATH_INVALID_DEVICE
  | RP_FS_PATH_INVALID_PATH
  | RP_FS_PATH_TOO_LONG
  deriving DecidableEq, Repr

/-- `RPFSResolvedPath` -/
structure RPFSResolvedPath where
  device : UInt8
  path : List UInt8
  deriving DecidableEq, Repr

/-- `RPFSProcessCwd`: the path has no leading separator. -/
structure RPFSProcessCwd where
  valid : Bool
  device : UInt8
  path : List UInt8
  deriving DecidableEq, Repr

/-- `gRPFSProcessCwd`; every access is guarded by `pid < RP_FS_NEOX_MAX_PROCS`. -/
abbrev CwdTable := UInt8 → RPFSProcessCwd

/-- The table as static storage starts. -/
def CwdTable.initial : CwdTable := fun _ => ⟨false, 0, []⟩

/-- The path separator. -/
def slash : UInt8 := '/'.toUInt8

/-- The character between base name and extension. -/
def dot : UInt8 := '.'.toUInt8

/-! ## Components -/

/-- The characters of an 8.3 base name or extension. -/
def isChar83 (c : UInt8) : Bool :=
  ('A'.toUInt8 ≤ c && c ≤ 'Z'.toUInt8) || ('0'.toUInt8 ≤ c && c ≤ '9'.toUInt8) ||
    c == '_'.toUInt8 || c == '-'.toUInt8 || c == '$'.toUInt8 || c == '~'.toUInt8

/-- The counters an 8.3 scanner keeps. -/
structure Scan83 where
  base_len : UInt8
  ext_len : UInt8
  in_ext : Bool
  deriving DecidableEq, Repr

namespace Scan83

/-- One character of a scan that turns away `rejected` by name; `none` is the source's `return false`. -/
def step (rejected : List UInt8) (st : Scan83) (c : UInt8) : Option Scan83 :=
  if c ∈ rejected ∨ c < 33 ∨ 127 ≤ c then none
  else if 'a'.toUInt8 ≤ c ∧ c ≤ 'z'.toUInt8 then none
  else if c = dot then
    if st.in_ext ∨ st.base_len = 0 then none else some { st with in_ext := true }
  else if isChar83 c = false then none
  else if st.in_ext then
    if 3 < st.ext_len + 1 then none else some { st with ext_len := st.ext_len + 1 }
  else
    if 8 < st.base_len + 1 then none else some { st with base_len := st.base_len + 1 }

/-- The loop of a scanner and its last test. -/
def accepts (rejected s : List UInt8) : Bool :=
  match s.foldlM (step rejected) ⟨0, 0, false⟩ with
  | none => false
  | some st => st.base_len != 0 && (!st.in_ext || st.ext_len != 0)

end Scan83

/-- `rp_fs_path_component_valid_83()` -/
def rpFsPathComponentValid83 (start : List UInt8) : Bool :=
  if start = [] then false else Scan83.accepts [slash, '\\'.toUInt8, ':'.toUInt8] start

/-- `rp_fs_path_has_drive_prefix()`, with the decoded drive. -/
def rpFsPathHasDrivePrefix : List UInt8 → Option UInt8
  | c₀ :: c₁ :: c₂ :: _ =>
    if c₀ < '0'.toUInt8 ∨ '9'.toUInt8 < c₀ ∨ c₁ ≠ ':'.toUInt8 ∨ c₂ ≠ slash then none
    else some (c₀ - '0'.toUInt8)
  | _ => none

/-- `rp_fs_path_pop_component()`: cut at the last separator, or clear the buffer. -/
def rpFsPathPopComponent (path : List UInt8) : List UInt8 :=
  if path = [] then path else dropLastToken slash path

/-- `rp_fs_path_append_component()`; `none` when the component does not fit. -/
def rpFsPathAppendComponent (path : List UInt8) (path_len : Nat) (component : List UInt8) :
    Option (List UInt8) :=
  if path_len = 0 ∨ component = [] then none
  else
    let separator := if path = [] then [] else [slash]
    if path_len ≤ path.length + separator.length + component.length then none
    else some (path ++ separator ++ component)

/-- `rp_fs_path_device_valid()` -/
def rpFsPathDeviceValid (device : UInt8) : Bool := device < USB_STORAGE_MAX_DEVICES && device ≤ 9

/-- The loop of a path scanner: `component` is what has been read since the last separator. -/
def validPathLoop (valid : List UInt8 → Bool) (component : List UInt8) : List UInt8 → Bool
  | [] => valid component
  | c :: p =>
    if c = slash then valid component && (p != [] && validPathLoop valid [] p)
    else validPathLoop valid (component ++ [c]) p

/-- What a path scanner does behind an `N:/` prefix. -/
def validLogicalPath (valid : List UInt8 → Bool) : List UInt8 → Bool
  | [] => true
  | c :: rest =>
    if c = slash then rest == [] || validPathLoop valid [] rest
    else validPathLoop valid [] (c :: rest)

/-- `rp_fs_path_valid_83()` -/
def rpFsPathValid83 (path : List UInt8) : Bool :=
  match rpFsPathHasDrivePrefix path with
  | some qualified_device =>
    rpFsPathDeviceValid qualified_device && validLogicalPath rpFsPathComponentValid83 (path.drop 3)
  | none => validLogicalPath rpFsPathComponentValid83 path

/-! ## Working directories -/

/-- `rp_fs_cwd_reset_all()` -/
def rpFsCwdResetAll (table : CwdTable) : CwdTable := fun pid =>
  if pid < RP_FS_NEOX_MAX_PROCS then ⟨true, 0, []⟩ else table pid

/-- `rp_fs_cwd_init_root()` -/
def rpFsCwdInitRoot (table : CwdTable) (pid device : UInt8) : Bool × CwdTable :=
  if RP_FS_NEOX_MAX_PROCS ≤ pid ∨ rpFsPathDeviceValid device = false then (false, table)
  else (true, Function.update table pid ⟨true, device, []⟩)

/-- `rp_fs_cwd_clone()` -/
def rpFsCwdClone (table : CwdTable) (child_pid parent_pid : UInt8) : Bool × CwdTable :=
  if RP_FS_NEOX_MAX_PROCS ≤ child_pid ∨ RP_FS_NEOX_MAX_PROCS ≤ parent_pid ∨
      (table parent_pid).valid = false then (false, table)
  else (true, Function.update table child_pid (table parent_pid))

/-- The root as the path `/`, any other canonical path as it is. -/
def visiblePath (canonical : List UInt8) : List UInt8 :=
  if canonical = [] then [slash] else canonical

/-- `rp_fs_cwd_get()` -/
def rpFsCwdGet (table : CwdTable) (pid : UInt8) : Option RPFSResolvedPath :=
  if RP_FS_NEOX_MAX_PROCS ≤ pid ∨ (table pid).valid = false then none
  else some ⟨(table pid).device, visiblePath (table pid).path⟩

/-- A path without its leading separator. -/
def dropRoot : List UInt8 → List UInt8
  | [] => []
  | c :: rest => if c = slash then rest else c :: rest

/-- `rp_fs_cwd_set()` -/
def rpFsCwdSet (table : CwdTable) (pid : UInt8) (cwd : RPFSResolvedPath) : Bool × CwdTable :=
  if RP_FS_NEOX_MAX_PROCS ≤ pid ∨ rpFsPathDeviceValid cwd.device = false then (false, table)
  else if (rpFsPathHasDrivePrefix cwd.path).isSome then (false, table)
  else if rpFsPathValid83 cwd.path = false then (false, table)
  else
    let source := dropRoot cwd.path
    if RP_FS_NEOX_CWD_MAX ≤ source.length then (false, table)
    else (true, Function.update table pid ⟨true, cwd.device, source⟩)

/-- `rp_fs_cwd_format()` -/
def rpFsCwdFormat (table : CwdTable) (pid : UInt8) (out_len : Nat) : Option (List UInt8) :=
  if RP_FS_NEOX_MAX_PROCS ≤ pid ∨ (table pid).valid = false ∨
      rpFsPathDeviceValid (table pid).device = false then none
  else
    let visible_len := 3 + (table pid).path.length
    if out_len < visible_len + 1 then none
    else some (['0'.toUInt8 + (table pid).device, ':'.toUInt8, slash] ++ (table pid).path)

/-! ## Resolution -/

/-- The device, the cursor into the input and the canonical path resolution starts with. -/
def resolveStart (cwd : RPFSProcessCwd) (fallback_device : UInt8) (input : List UInt8) :
    Except RpFsPathResult (UInt8 × List UInt8 × List UInt8) :=
  match rpFsPathHasDrivePrefix input with
  | some explicit_device => .ok (explicit_device, input.drop 3, [])
  | none =>
    if input.head? = some slash then
      .ok (if cwd.valid then cwd.device else fallback_device, input.drop 1, [])
    else if cwd.valid then
      if RP_FS_NEOX_PATH_MAX ≤ cwd.path.length then .error .RP_FS_PATH_TOO_LONG
      else .ok (cwd.device, input, cwd.path)
    else .ok (fallback_device, input, [])

/-- The component loop of `rp_fs_resolve_process_path()`. -/
def resolveLoop (cursor canonical : List UInt8) : Except RpFsPathResult (List UInt8) :=
  let cursor := cursor.dropWhile (· == slash)
  if cursor = [] then .ok canonical
  else
    let component := cursor.takeWhile (!· == slash)
    let rest := cursor.dropWhile (!· == slash)
    if component = [dot] then resolveLoop rest canonical
    else if component = [dot, dot] then resolveLoop rest (rpFsPathPopComponent canonical)
    else if rpFsPathComponentValid83 component = false then .error .RP_FS_PATH_INVALID_PATH
    else match rpFsPathAppendComponent canonical RP_FS_NEOX_PATH_MAX component with
      | none => .error .RP_FS_PATH_TOO_LONG
      | some canonical => resolveLoop rest canonical
termination_by cursor.length
decreasing_by all_goals exact length_scan_lt ‹_›

/-- `rp_fs_resolve_process_path()`, with the destination it leaves. -/
def rpFsResolveProcessPath (table : CwdTable) (pid fallback_device : UInt8) (input : List UInt8)
    (resolved : RPFSResolvedPath) : RpFsPathResult × RPFSResolvedPath :=
  match resolve with
  | .error code => (code, resolved)
  | .ok path => (.RP_FS_PATH_OK, path)
where
  /-- The value stored in `resolved` on success. -/
  resolve : Except RpFsPathResult RPFSResolvedPath :=
    if RP_FS_NEOX_MAX_PROCS ≤ pid then .error .RP_FS_PATH_INVALID_PID
    else if input = [] then .error .RP_FS_PATH_INVALID_PATH
    else match resolveStart (table pid) fallback_device input with
      | .error code => .error code
      | .ok (device, cursor, canonical) =>
        if rpFsPathDeviceValid device = false then .error .RP_FS_PATH_INVALID_DEVICE
        else (resolveLoop cursor canonical).map fun canonical => ⟨device, visiblePath canonical⟩

end NeoMmu
