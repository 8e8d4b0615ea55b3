import NeoMmu.Fs.Streams
import NeoMmu.Mailbox.HandleLeaks

/-!
# READ delivers a file as a stream

A client reads a file through one handle while other requests work on other handles and files. Each of
those leaves the file and the handle alone, and each READ stores the bytes behind the position, as many as
it asks for, at most a buffer, and as many as are left. So the successive READs store the bytes of the file
in order, whatever their lengths are.
-/

namespace NeoMmu

variable {σ φ α : Type}

/-! ## Calls on the storage -/

/-- No path that is made of a name leads to the file. -/
def Avoids (v : FileView σ φ) (file : φ) (s : Storage σ) (device : UInt8) (name : List UInt8) : Prop :=
  ∀ path, rpFsMakePath device name = some path ∨ rpFsMakeDirPath device name = some path →
    ¬ v.names s.fatfs path file

section Storage

variable {ff : FatFs σ} {v : FileView σ φ} {handle : UInt8} {file : φ} (laws : StreamLaws ff v handle file)
  (tables : TableLaws ff)

include laws tables

theorem spares_mount (device : UInt8) : Prog.Keeps (Spares v handle file) (ensureMounted ff device) :=
  keeps_ensureMounted (fun device s => (laws.f_mount device s).spares (tables.f_mount device s).handles)
    (fun _ _ => ⟨rfl, rfl, rfl⟩) device

omit tables in
theorem names_mount (device : UInt8) (s : Storage σ) (path : List UInt8) :
    v.names ((ensureMounted ff device).final s).fatfs path file = v.names s.fatfs path file := by
  have hkept : Prog.Keeps (fun s s' : Storage σ => v.names s'.fatfs path file = v.names s.fatfs path file)
      (ensureMounted ff device) := by
    have : Std.Refl fun s s' : Storage σ => v.names s'.fatfs path file = v.names s.fatfs path file :=
      ⟨fun _ => rfl⟩
    have : IsTrans (Storage σ) fun s s' => v.names s'.fatfs path file = v.names s.fatfs path file :=
      ⟨fun _ _ _ h h' => h'.trans h⟩
    exact keeps_ensureMounted (fun device s => laws.f_mount_names device s path) (fun _ _ => rfl) device
  exact hkept s

theorem spares_read {slot : UInt8} (hne : slot ≠ handle) (len : UInt16) :
    Prog.Keeps (Spares v handle file) (rpFsRead ff slot len) :=
  keeps_rpFsRead (fun len s => (laws.f_read slot hne len s).spares (tables.f_read slot len s).handles) len

theorem beside_read {slot : UInt8} (hne : slot ≠ handle) (len : UInt16) :
    Prog.Keeps (SparesBeside v handle file slot) (rpFsRead ff slot len) :=
  keeps_rpFsRead (fun len s => (laws.f_read_beside slot hne len s).spares (tables.f_read slot len s).handles) len

theorem beside_write {slot : UInt8} (hne : slot ≠ handle) (src : List UInt8) :
    Prog.Keeps (SparesBeside v handle file slot) (rpFsWrite ff slot src) :=
  keeps_rpFsWrite (fun src s => (laws.f_write slot hne src s).spares (tables.f_write slot src s).handles) src

theorem beside_seek {slot : UInt8} (hne : slot ≠ handle) (position : UInt32) :
    Prog.Keeps (SparesBeside v handle file slot) (rpFsSeek ff slot position) :=
  keeps_rpFsSeek (fun position s =>
    (laws.f_lseek slot hne position s).spares (tables.f_lseek slot position s).handles) position

theorem spares_close {slot : UInt8} (hne : slot ≠ handle) :
    Prog.Keeps (Spares v handle file) (rpFsClose ff slot) :=
  keeps_rpFsClose (fun s => (laws.f_close slot hne s).spares (tables.f_close slot s).handles)
    fun s => spares_setHandle hne s _

theorem beside_close {slot : UInt8} (hne : slot ≠ handle) :
    Prog.Keeps (SparesBeside v handle file slot) (rpFsClose ff slot) :=
  keeps_rpFsClose (fun s => (laws.f_close_beside slot hne s).spares (tables.f_close slot s).handles)
    fun s hfile => ⟨spares_setHandle hne s _, hfile⟩

theorem spares_readdir (slot : UInt8) (n : Nat) : Prog.Keeps (Spares v handle file) (rpFsReaddir ff slot n) :=
  keeps_rpFsReaddir (fun slot s => (laws.f_readdir slot s).spares (tables.f_readdir slot s).handles) slot n

theorem spares_opendir (device : UInt8) (dirname : List UInt8) :
    Prog.Keeps (Spares v handle file) (rpFsOpendir83 ff device dirname) := by
  intro s
  have hmount : Spares v handle file s ((ensureMounted ff device).final s) := spares_mount laws tables device s
  rcases rpFsOpendir83_final ff device dirname s with ⟨-, hfin⟩ | ⟨slot, path, -, -, -, hopen⟩
  · exact hfin ▸ hmount
  have hopened := trans_of (Spares v handle file) hmount
    ((laws.f_opendir slot path _).spares (tables.f_opendir slot path _).handles)
  rcases hopen with ⟨-, hfin⟩ | ⟨-, -, hfin⟩
  · exact hfin ▸ hopened
  · exact hfin ▸ ⟨hopened.data, hopened.fil, hopened.record⟩

theorem spares_closedir (slot : UInt8) : Prog.Keeps (Spares v handle file) (rpFsClosedir ff slot) := by
  refine Prog.Keeps.get.bind fun _ => Prog.Keeps.ite (fun _ => ?_) fun _ => Prog.Keeps.pure false
  have hclose : Prog.Keeps (Spares v handle file) (ff.f_closedir slot) := fun s =>
    (laws.f_closedir slot s).spares (tables.f_closedir slot s).handles
  exact hclose.bind fun fr => (Prog.Keeps.modify fun s => ⟨rfl, rfl, rfl⟩).bind fun _ => Prog.Keeps.pure _

theorem spares_mkdir (device : UInt8) (dirname : List UInt8) :
    Prog.Keeps (Spares v handle file) (rpFsMkdir83 ff device dirname) := by
  refine (spares_mount laws tables device).bind fun ok =>
    Prog.Keeps.ite (fun _ => ?_) fun _ => Prog.Keeps.pure false
  split
  · exact Prog.Keeps.pure false
  · refine Prog.Keeps.ite (fun _ => Prog.Keeps.pure false) fun _ => ?_
    have hmkdir : ∀ path, Prog.Keeps (Spares v handle file) (ff.f_mkdir path) := fun path s =>
      (laws.f_mkdir path s).spares (tables.f_mkdir path s).handles
    exact (hmkdir _).bind fun _ => Prog.Keeps.pure _

/-- Opening a file takes another slot than a handle in use, and leaves the handle's file alone unless the
name leads to it. -/
theorem open_spares {s : Storage σ} (hopen : s.isOpen handle = true) (flags : UInt8) {device mode : UInt8}
    {filename : List UInt8} (havoids : mode = FA_READ ∨ Avoids v file s device filename) :
    let m := rpFsOpenMode83 ff device filename mode flags
    Spares v handle file s (m.final s) ∧ ∀ slot, m.result s = some slot → slot ≠ handle ∧
      (Avoids v file s device filename → (v.fil (m.final s).fatfs slot).1 ≠ file) := by
  have hmount : Spares v handle file s ((ensureMounted ff device).final s) := spares_mount laws tables device s
  have hnames := names_mount laws device s
  rcases rpFsOpenMode83_final ff device filename mode flags s with
    ⟨hres, hfin⟩ | ⟨slot, path, -, hslot, hpath, hopened⟩
  · exact ⟨hfin ▸ hmount, fun slot h => absurd (hres.symm.trans h) nofun⟩
  have hne : slot ≠ handle := by
    rintro rfl
    have hused := hmount.isOpen.trans hopen
    rw [Storage.isOpen, (freeSlot_spec hslot).2, Bool.and_false] at hused
    cases hused
  have hcall : Spares v handle file s
      ((ff.f_open slot path mode).final ((ensureMounted ff device).final s)) := by
    have hleaves := laws.f_open slot hne path mode ((ensureMounted ff device).final s)
      (havoids.imp_right fun h => (hnames path).symm ▸ h path (.inl hpath))
    exact trans_of (Spares v handle file) hmount (hleaves.spares (tables.f_open slot path mode _).handles)
  rcases hopened with ⟨hres, hfin⟩ | ⟨hok, hres, hfin⟩
  · exact ⟨hfin ▸ hcall, fun slot h => absurd (hres.symm.trans h) nofun⟩
  · refine ⟨?_, fun slot' h => ?_⟩
    · rw [hfin]
      exact trans_of (Spares v handle file) hcall (spares_setHandle hne _ _)
    · obtain rfl := Option.some.inj (hres.symm.trans h)
      refine ⟨hne, fun havoids => ?_⟩
      rw [hfin]
      exact laws.f_open_ok slot hne path mode _ hok ((hnames path).symm ▸ havoids path (.inl hpath))

theorem openByMode_spares {s : Storage σ} (hopen : s.isOpen handle = true) {mode device : UInt8}
    {path : List UInt8} (havoids : mode = 0 ∨ Avoids v file s device path) :
    Spares v handle file s ((openByMode ff mode device path).final s) := by
  have hcall : ∀ mode flags, mode = FA_READ ∨ Avoids v file s device path →
      Spares v handle file s ((rpFsOpenMode83 ff device path mode flags).final s) :=
    fun mode flags h => (open_spares laws tables hopen flags h).1
  simp only [openByMode, Prog.final_ite]
  split
  · exact hcall FA_READ _ (.inl rfl)
  rename_i hmode
  replace havoids := havoids.resolve_left hmode
  split
  · exact hcall _ _ (.inr havoids)
  split
  · exact hcall _ _ (.inr havoids)
  split
  · exact hcall _ _ (.inr havoids)
  split
  · exact hcall _ _ (.inr havoids)
  · exact refl s

/-- Removing a name that does not lead to the file. -/
theorem delete_spares {s : Storage σ} {device : UInt8} {filename : List UInt8}
    (havoids : Avoids v file s device filename) :
    Spares v handle file s ((rpFsDelete83 ff device filename).final s) ∧
      Spares v handle file s ((rpFsRmdir83 ff device filename).final s) := by
  have hmount : Spares v handle file s ((ensureMounted ff device).final s) := spares_mount laws tables device s
  have hcall : ∀ path, rpFsMakePath device filename = some path ∨ rpFsMakeDirPath device filename = some path →
      Spares v handle file s ((ff.f_unlink path).final ((ensureMounted ff device).final s)) := by
    intro path hpath
    have hleaves := laws.f_unlink path ((ensureMounted ff device).final s)
      ((names_mount laws device s path).symm ▸ havoids path hpath)
    exact trans_of (Spares v handle file) hmount (hleaves.spares (tables.f_unlink path _).handles)
  constructor
  · simp only [rpFsDelete83, Prog.final_bind, Prog.final_ite]
    split
    · rcases hpath : rpFsMakePath device filename with - | path
      · exact hmount
      · exact hcall path (.inl hpath)
    · exact hmount
  · simp only [rpFsRmdir83, Prog.final_bind, Prog.final_ite]
    split
    · rcases hpath : rpFsMakeDirPath device filename with - | path
      · exact hmount
      · simp only [Prog.final_ite, Prog.final_bind, Prog.final_pure]
        split
        · exact hmount
        · exact hcall path (.inr hpath)
    · exact hmount

theorem rename_spares {s : Storage σ} {device : UInt8} {old_name new_name : List UInt8}
    (hold : Avoids v file s device old_name) (hnew : Avoids v file s device new_name) :
    Spares v handle file s ((rpFsRename83 ff device old_name new_name).final s) := by
  have hmount : Spares v handle file s ((ensureMounted ff device).final s) := spares_mount laws tables device s
  have hnames := names_mount laws device s
  simp only [rpFsRename83, Prog.final_bind, Prog.final_ite]
  split
  · rcases hpath : rpFsMakePath device old_name with - | old_path
    · exact hmount
    rcases hpath' : rpFsMakePath device new_name with - | new_path
    · exact hmount
    have hleaves := laws.f_rename old_path new_path ((ensureMounted ff device).final s)
      ((hnames old_path).symm ▸ hold old_path (.inl hpath)) ((hnames new_path).symm ▸ hnew new_path (.inl hpath'))
    exact trans_of (Spares v handle file) hmount (hleaves.spares (tables.f_rename old_path new_path _).handles)
  · exact hmount

end Storage

/-! ## Requests on other files -/

/-- The paths of a RENAME, resolved. -/
def Machine.View.renamePaths (v : Machine.View) (cwd : CwdTable) (pid context : UInt8) (args_ptr : UInt16) :
    Option (RPFSResolvedPath × RPFSResolvedPath) := do
  let raw ← (v.contextBlock context args_ptr 8).filter (rawByte · 7 = 0)
  let old_path ← v.pathArg cwd pid context (rpFsMbU16 raw 0) (rpFsMbU16 raw 4) (rawByte raw 6)
  let new_path ← v.pathArg cwd pid context (rpFsMbU16 raw 2) (rpFsMbU16 raw 4) (rawByte raw 6)
  return (old_path, new_path)

namespace Firmware

variable (f : Firmware σ)

/-- The paths of a RENAME in the block. -/
def renameRequest : Option (RPFSResolvedPath × RPFSResolvedPath) :=
  f.hw.view.renamePaths f.gRPFSProcessCwd (f.hw.view.peek RP_ARG1L) (f.hw.view.peek RP_ARG1H)
    (f.hw.view.peek16 RP_ARG0L)

/-- The request works on other handles than `handle`, and changes other files than `file`: it writes and
seeks on them, and opens, saves, removes and renames them. -/
structure Elsewhere (v : FileView σ φ) (handle : UInt8) (file : φ) : Prop where
  handle : f.hw.view.peek RP_STATE ∈ [RP_FS_OP_READ, RP_FS_OP_WRITE, RP_FS_OP_SEEK, RP_FS_OP_CLOSE] →
    f.hw.view.peek RP_ARG2L ≠ handle
  changed : f.hw.view.peek RP_STATE ∈ [RP_FS_OP_WRITE, RP_FS_OP_SEEK] →
    (v.fil f.storage.fatfs (f.hw.view.peek RP_ARG2L)).1 ≠ file
  opened : f.hw.view.peek RP_STATE = RP_FS_OP_OPEN → ∀ raw path, f.openRequest = some (raw, path) →
    rawByte raw 4 = 0 ∨ Avoids v file f.storage path.device path.path
  saved : f.hw.view.peek RP_STATE = RP_FS_OP_SAVE → ∀ path args, f.bulkRequest = some (path, args) →
    Avoids v file f.storage path.device path.path
  removed : f.hw.view.peek RP_STATE ∈ [RP_FS_OP_DELETE, RP_FS_OP_RMDIR] → ∀ raw path,
    f.opendirRequest = some (raw, path) → Avoids v file f.storage path.device path.path
  renamed : f.hw.view.peek RP_STATE = RP_FS_OP_RENAME → ∀ old_path new_path,
    f.renameRequest = some (old_path, new_path) → Avoids v file f.storage old_path.device old_path.path ∧
      Avoids v file f.storage new_path.device new_path.path

end Firmware

/-- The reads in front of a request do not change what it is about. -/
theorem Firmware.Elsewhere.of_view {v : FileView σ φ} {handle : UInt8} {file : φ} {f : Firmware σ}
    {m : Machine} (hview : m.view = f.hw.view) (h : f.Elsewhere v handle file) :
    ({ f with hw := m } : Firmware σ).Elsewhere v handle file := by
  have hopen : ({ f with hw := m } : Firmware σ).openRequest = f.openRequest := by
    rw [Firmware.openRequest, Firmware.openRequest, ← hview]
  have hbulk : ({ f with hw := m } : Firmware σ).bulkRequest = f.bulkRequest := by
    simp only [Firmware.bulkRequest, hview]
  have hopendir : ({ f with hw := m } : Firmware σ).opendirRequest = f.opendirRequest := by
    rw [Firmware.opendirRequest, Firmware.opendirRequest, ← hview]
  have hrename : ({ f with hw := m } : Firmware σ).renameRequest = f.renameRequest := by
    rw [Firmware.renameRequest, Firmware.renameRequest, ← hview]
  constructor
  · rw [hview]
    exact h.handle
  · rw [hview]
    exact h.changed
  · rw [hview, hopen]
    exact h.opened
  · rw [hview, hbulk]
    exact h.saved
  · rw [hview, hopendir]
    exact h.removed
  · rw [hview, hrename]
    exact h.renamed

section Requests

variable {ff : FatFs σ} {v : FileView σ φ} {handle : UInt8} {file : φ} (laws : StreamLaws ff v handle file)
  (tables : TableLaws ff) {f : Firmware σ} (hf : f.hw.Settled) {pid context : UInt8} {args_ptr : UInt16}

theorem spares_of_reads {f₁ f' : Firmware σ} (hread : ReadsOnly f f₁)
    (h : Spares v handle file f₁.storage f'.storage) : Spares v handle file f.storage f'.storage := by
  rw [← hread.storage]
  exact h

include hf

theorem spares_error (err : UInt8) (partialResult : UInt16) :
    Spares v handle file f.storage ((fsMbError err partialResult).final f).storage := by
  rw [(error_spec hf err partialResult).1]
  exact refl f.storage

theorem spares_deviceError (device : UInt8) :
    Spares v handle file f.storage ((fsMbDeviceError device).final f).storage := by
  rw [(deviceError_spec hf device).1]
  exact refl f.storage

theorem spares_done (result : UInt16) (flags : UInt8) :
    Spares v handle file f.storage ((fsMbDone result flags).final f).storage := by
  rw [(done_spec hf result flags).1]
  exact refl f.storage

/-- An operation on one path spares the file when it does so on the path of its block. -/
theorem spares_withArgsPath {length : UInt16} {valid : List UInt8 → Bool}
    {path_ptr max_len : List UInt8 → UInt16} {device : List UInt8 → UInt8}
    {operation : List UInt8 → RPFSResolvedPath → Prog (Firmware σ) MailboxState}
    (hoperation : ∀ raw path f₁, f.hw.view.blockAndPath f.gRPFSProcessCwd pid context args_ptr length valid
      path_ptr max_len device = some (raw, path) → f₁.hw.Settled → f₁.storage = f.storage →
        Spares v handle file f₁.storage ((operation raw path).final f₁).storage) :
    Spares v handle file f.storage ((withArgs context args_ptr length valid fun raw =>
      withPath pid context (path_ptr raw) (max_len raw) (device raw) (operation raw)).final f).storage := by
  obtain ⟨f₁, hread, -, hfin⟩ := final_withArgsPath (readRules_readsOnly context) hf pid args_ptr length
    valid path_ptr max_len device operation
  have hf₁ := (hread.board hf).1
  rw [hfin]
  rcases hargs : f.hw.view.blockAndPath f.gRPFSProcessCwd pid context args_ptr length valid path_ptr
    max_len device with - | ⟨raw, path⟩
  · exact spares_of_reads hread (spares_error hf₁ _ _)
  · exact spares_of_reads hread (hoperation raw path f₁ hargs hf₁ hread.storage)

include laws tables

theorem exec_open_spares (hopen : f.storage.isOpen handle = true)
    (havoids : ∀ raw path, f.hw.view.blockAndPath f.gRPFSProcessCwd pid context args_ptr 6 validOpen
      (rpFsMbU16 · 0) (rpFsMbU16 · 2) (rawByte · 5) = some (raw, path) →
        rawByte raw 4 = 0 ∨ Avoids v file f.storage path.device path.path) :
    Spares v handle file f.storage ((rpFsMbExecOpen ff pid context args_ptr).final f).storage := by
  refine spares_withArgsPath hf fun raw path f₁ hargs hf₁ hstorage => ?_
  rw [Prog.final_bind, Prog.result_get, Prog.final_get, Prog.final_ite]
  split
  · exact spares_error hf₁ _ _
  have hcall : Spares v handle file f₁.storage _ := openByMode_spares laws tables (by rw [hstorage]; exact hopen)
    (hstorage ▸ havoids raw path hargs)
  simp only [Prog.final_bind, onStorage, Prog.result_on, Prog.final_on]
  generalize (openByMode ff _ _ _).final f₁.storage = s at hcall ⊢
  rcases (openByMode ff _ _ _).result f₁.storage with - | slot
  · exact trans_of (Spares v handle file) hcall (spares_deviceError (f := { f₁ with storage := s }) hf₁ _)
  · exact trans_of (Spares v handle file) hcall (spares_done (f := { f₁ with storage := s }) hf₁ _ _)

omit tables laws in
theorem exec_singlePath_spares {op : UInt8}
    (hoperation : ∀ raw path, f.hw.view.blockAndPath f.gRPFSProcessCwd pid context args_ptr 6 validDir
      (rpFsMbU16 · 0) (rpFsMbU16 · 2) (rawByte · 4) = some (raw, path) →
        Spares v handle file f.storage ((singlePathOperation ff op path.device path.path).final f.storage)) :
    Spares v handle file f.storage ((rpFsMbExecSinglePath ff op pid context args_ptr).final f).storage := by
  refine spares_withArgsPath hf fun raw path f₁ hargs hf₁ hstorage => ?_
  have hcall := hoperation raw path hargs
  rw [← hstorage] at hcall
  simp only [Prog.final_bind, onStorage, Prog.result_on, Prog.final_on]
  generalize (singlePathOperation ff op _ _).final f₁.storage = s at hcall ⊢
  rw [Prog.final_ite]
  split
  · exact trans_of (Spares v handle file) hcall (spares_done (f := { f₁ with storage := s }) hf₁ _ _)
  · exact trans_of (Spares v handle file) hcall (spares_deviceError (f := { f₁ with storage := s }) hf₁ _)

omit hf in
/-- A SAVE that avoids the file, or a LOAD. -/
theorem bulkOnPath_spares (hread : ReadsAtMost ff) (hopen : f.storage.isOpen handle = true) {op : UInt8}
    {path : RPFSResolvedPath} (hop : op = RP_FS_OP_LOAD ∨ Avoids v file f.storage path.device path.path)
    (mem_ptr size_word : UInt16) : Spares v handle file f.storage
      ((bulkOnPath ff op context path mem_ptr size_word).final f).storage := by
  have hrules : RequestRules (OnStorage (σ := σ) (Spares v handle file)) (Spares v handle file) context :=
    requestRules_onStorage _
  have hmode : bulkMode op = FA_READ ∨ Avoids v file f.storage path.device path.path :=
    hop.imp_left fun hload => if_pos hload
  obtain ⟨hcall, hslot⟩ := open_spares laws tables hopen (bulkFlags op) hmode
  obtain ⟨hfin, hres⟩ := bulkOpen_eq_open ff op path.device path.path (rpFsMbEffective16bitSize size_word)
    f.storage
  rw [← hfin] at hcall hslot
  rw [← hres] at hslot
  simp only [bulkOnPath, Prog.final_bind, onStorage, Prog.result_on, Prog.final_on]
  generalize (bulkOpen ff op path.device path.path _).final f.storage = s at hcall hslot ⊢
  generalize (bulkOpen ff op path.device path.path _).result f.storage = opened at hslot ⊢
  obtain ⟨- | slot, n⟩ := opened
  · exact trans_of (Spares v handle file) hcall (hrules.deviceError path.device { f with storage := s })
  obtain ⟨hne, hfile⟩ := hslot slot rfl
  refine trans_of (Spares v handle file) hcall ?_
  by_cases hload : op = RP_FS_OP_LOAD
  · exact onStorage_bulkTransfer hread (spares_read laws tables hne) (fun h => absurd hload h)
      (spares_close laws tables hne) { f with storage := s }
  · refine (onStorage_bulkTransfer (Q := SparesBeside v handle file slot) hread
      (beside_read laws tables hne) (fun _ => beside_write laws tables hne) ?_ { f with storage := s }
      (hfile (hop.resolve_left hload))).1
    exact beside_close laws tables hne

/-- A RENAME of two paths that avoid the file. -/
theorem exec_rename_spares
    (havoids : ∀ old_path new_path,
      f.hw.view.renamePaths f.gRPFSProcessCwd pid context args_ptr = some (old_path, new_path) →
        Avoids v file f.storage old_path.device old_path.path ∧
          Avoids v file f.storage new_path.device new_path.path) :
    Spares v handle file f.storage ((rpFsMbExecRename ff pid context args_ptr).final f).storage := by
  rw [rpFsMbExecRename]
  obtain ⟨f₁, hread₁, hfin₁⟩ := final_withArgs hf context args_ptr 8 (fun raw => rawByte raw 7 = 0) _
  rw [hfin₁]
  have hf₁ := (hread₁.board hf).1
  rcases hraw : f.hw.view.contextBlock context args_ptr 8 with - | raw
  · exact spares_of_reads hread₁ (spares_error hf₁ _ _)
  refine spares_of_reads hread₁ ?_
  dsimp only
  rw [Prog.final_ite]
  split
  swap
  · exact spares_error hf₁ _ _
  rename_i hvalid
  obtain ⟨f₂, hread₂, hfin₂⟩ := final_withPath hf₁ pid context (rpFsMbU16 raw 0) (rpFsMbU16 raw 4)
    (rawByte raw 6) _
  rw [hfin₂, hread₁.pathArg hf, hread₁.cwd]
  have hf₂ := (hread₂.board hf₁).1
  rcases hold : f.hw.view.pathArg f.gRPFSProcessCwd pid context (rpFsMbU16 raw 0) _ _ with - | old_path
  · exact spares_of_reads hread₂ (spares_error hf₂ _ _)
  refine spares_of_reads hread₂ ?_
  dsimp only
  obtain ⟨f₃, hread₃, hfin₃⟩ := final_withPath hf₂ pid context (rpFsMbU16 raw 2) (rpFsMbU16 raw 4)
    (rawByte raw 6) _
  rw [hfin₃, (trans_of ReadsOnly hread₁ hread₂).pathArg hf, hread₂.cwd, hread₁.cwd]
  have hf₃ := (hread₃.board hf₂).1
  rcases hnew : f.hw.view.pathArg f.gRPFSProcessCwd pid context (rpFsMbU16 raw 2) _ _ with - | new_path
  · exact spares_of_reads hread₃ (spares_error hf₃ _ _)
  refine spares_of_reads hread₃ ?_
  have hrequest : f.hw.view.renamePaths f.gRPFSProcessCwd pid context args_ptr =
      some (old_path, new_path) := by
    simp only [Machine.View.renamePaths, hraw, hold, hnew, hvalid, Option.bind_eq_bind, Option.filter_some,
      if_true, Option.bind_some]
    rfl
  obtain ⟨hold, hnew⟩ := havoids old_path new_path hrequest
  dsimp only
  rw [Prog.final_ite]
  split
  · exact spares_error hf₃ _ _
  rename_i hdevice
  rw [← not_not.1 hdevice] at hnew
  have hstorage : f₃.storage = f.storage := (hread₃.storage.trans hread₂.storage).trans hread₁.storage
  have hcall : Spares v handle file f₃.storage _ := rename_spares laws tables (hstorage ▸ hold) (hstorage ▸ hnew)
  simp only [Prog.final_bind, onStorage, Prog.result_on, Prog.final_on, Prog.final_ite]
  generalize (rpFsRename83 ff _ _ _).final f₃.storage = s at hcall ⊢
  split
  · exact trans_of (Spares v handle file) hcall (spares_done (f := { f₃ with storage := s }) hf₃ _ _)
  · exact trans_of (Spares v handle file) hcall (spares_deviceError (f := { f₃ with storage := s }) hf₃ _)

omit laws tables in
/-- An operation on a handle keeps what it keeps for the handle of its block. -/
theorem onStorage_withHandle {Q : Storage σ → Storage σ → Prop}
    {k : UInt16 → UInt8 → Prog (Firmware σ) MailboxState}
    (hk : ∀ a, Prog.Keeps (OnStorage Q) (k a (f.hw.view.peek RP_ARG2L))) :
    Q f.storage ((do k (← readArg0) (← readArg2L)).final f).storage := by
  obtain ⟨m₁, hm₁, hview₁, hfin₁⟩ := final_readArg0 hf fun a => do k a (← readArg2L)
  obtain ⟨m₂, -, -, hfin₂⟩ := final_readArg2L (f := { f with hw := m₁ }) hm₁ (k (f.hw.view.peek16 RP_ARG0L))
  rw [hfin₁, hfin₂, hview₁]
  exact hk _ { f with hw := m₂ }

/-- A request on other handles and files, behind the check of PID and context. -/
theorem spares_checked (hread : ReadsAtMost ff) (hopen : f.storage.isOpen handle = true)
    (helsewhere : f.Elsewhere v handle file) : Spares v handle file f.storage
      ((checkedOperation ff (f.hw.view.peek RP_STATE) (f.hw.view.peek RP_ARG1L)
        (f.hw.view.peek RP_ARG1H)).final f).storage := by
  obtain ⟨hhandle, hchanged, hopened, hsaved, hremoved, hrenamed⟩ := helsewhere
  rw [Firmware.openRequest] at hopened
  rw [Firmware.opendirRequest] at hremoved
  rw [Firmware.renameRequest] at hrenamed
  have hbulk := fun h : f.hw.view.peek RP_STATE = RP_FS_OP_LOAD ∨ f.hw.view.peek RP_STATE = RP_FS_OP_SAVE =>
    final_checkedOperation_bulk ff (readRules_readsOnly (f.hw.view.peek RP_ARG1H)) hf h
  generalize f.hw.view.peek RP_STATE = op at hhandle hchanged hopened hsaved hremoved hrenamed hbulk ⊢
  generalize f.hw.view.peek RP_ARG1L = pid at hopened hsaved hremoved hrenamed hbulk ⊢
  generalize hcontext : f.hw.view.peek RP_ARG1H = context at hopened hsaved hremoved hrenamed hbulk ⊢
  have hrules : RequestRules (OnStorage (σ := σ) (Spares v handle file)) (Spares v handle file) context :=
    requestRules_onStorage _
  by_cases hrefused : RP_FS_NEOX_MAX_PROCS ≤ pid ∨ maxContexts ≤ context
  · rw [checkedOperation, if_pos hrefused]
    exact spares_error hf _ _
  have hadmitted : ∀ op, checkedOperation ff op pid context = execOperation ff op pid context :=
    fun op => if_neg hrefused
  by_cases hread' : op = RP_FS_OP_READ
  · subst hread'
    rw [hadmitted, execOperation_read]
    exact onStorage_withHandle hf fun _ => hrules.keeps_read _ _ hread
      (spares_read laws tables (hhandle (by simp)))
  by_cases hwrite : op = RP_FS_OP_WRITE
  · subst hwrite
    have hbeside : RequestRules (OnStorage (SparesBeside v handle file (f.hw.view.peek RP_ARG2L)))
      (SparesBeside v handle file (f.hw.view.peek RP_ARG2L)) context := requestRules_onStorage _
    rw [hadmitted, execOperation_write]
    refine (onStorage_withHandle (Q := SparesBeside v handle file _) hf
      (fun _ => hbeside.keeps_write _ _ (beside_write laws tables ?_)) (hchanged (by simp))).1
    exact hhandle (by simp)
  by_cases hseek : op = RP_FS_OP_SEEK
  · subst hseek
    have hbeside : RequestRules (OnStorage (SparesBeside v handle file (f.hw.view.peek RP_ARG2L)))
      (SparesBeside v handle file (f.hw.view.peek RP_ARG2L)) context := requestRules_onStorage _
    rw [hadmitted, execOperation_seek]
    refine (onStorage_withHandle (Q := SparesBeside v handle file _) hf
      (fun _ => hbeside.keeps_seek _ _ (beside_seek laws tables ?_)) (hchanged (by simp))).1
    exact hhandle (by simp)
  by_cases hclose : op = RP_FS_OP_CLOSE
  · subst hclose
    obtain ⟨m, -, -, hfin⟩ := final_readArg2L hf (rpFsMbExecClose ff)
    rw [hadmitted, execOperation_close, hfin]
    exact hrules.keeps_close _ (spares_close laws tables (hhandle (by simp))) { f with hw := m }
  by_cases hopenop : op = RP_FS_OP_OPEN
  · subst hopenop
    obtain ⟨m, hm, hview, hfin⟩ := final_readArg0 hf (rpFsMbExecOpen ff pid context)
    rw [hadmitted, execOperation_open, hfin]
    refine exec_open_spares (f := { f with hw := m }) laws tables hm hopen fun raw path hargs => ?_
    exact hopened rfl raw path (hview ▸ hargs)
  by_cases hbulkop : op = RP_FS_OP_LOAD ∨ op = RP_FS_OP_SAVE
  · obtain ⟨f₁, hread₁, -, hfin⟩ := hbulk hbulkop
    have hf₁ := (hread₁.board hf).1
    rw [hfin]
    rcases hrequest : f.bulkRequest with - | ⟨path, mem_ptr, size_word⟩
    · exact spares_of_reads hread₁ (spares_error hf₁ _ _)
    refine spares_of_reads hread₁ (bulkOnPath_spares laws tables hread ?_ ?_ mem_ptr size_word)
    · rw [hread₁.storage]
      exact hopen
    · refine hbulkop.imp_right fun hsave => ?_
      rw [hread₁.storage]
      exact hsaved hsave path _ hrequest
  by_cases hsingle : op = RP_FS_OP_DELETE ∨ op = RP_FS_OP_RMDIR
  · have hexec : execOperation ff op pid context =
        (do rpFsMbExecSinglePath ff op pid context (← readArg0)) := by
      rcases hsingle with rfl | rfl
      · exact execOperation_delete ff pid context
      · exact execOperation_rmdir ff pid context
    obtain ⟨m, hm, hview, hfin⟩ := final_readArg0 hf (rpFsMbExecSinglePath ff op pid context)
    rw [hadmitted, hexec, hfin]
    refine exec_singlePath_spares (f := { f with hw := m }) hm fun raw path hargs => ?_
    have havoids := hremoved (by simpa using hsingle) raw path (hview ▸ hargs)
    rcases hsingle with rfl | rfl
    · exact (delete_spares laws tables havoids).1
    · exact (delete_spares laws tables havoids).2
  by_cases hrename : op = RP_FS_OP_RENAME
  · subst hrename
    obtain ⟨m, hm, hview, hfin⟩ := final_readArg0 hf (rpFsMbExecRename ff pid context)
    rw [hadmitted, execOperation_rename, hfin]
    refine exec_rename_spares (f := { f with hw := m }) laws tables hm fun old_path new_path hargs => ?_
    exact hrenamed rfl old_path new_path (hview ▸ hargs)
  -- The other operations use neither the file nor the handle.
  refine hrules.toTransferRules.keeps_checkedOperation pid hrules.cwd (fun hop : op ∈ resultOperations => ?_)
    (fun hop => ?_) (fun hop => ?_) (fun h => absurd h hbulkop) (fun h => absurd h hopenop) f
  · simp only [resultOperations, List.mem_cons, List.not_mem_nil, or_false] at hop
    rcases hop with h | h | rfl | rfl | rfl
    · exact absurd h hread'
    · exact absurd h hseek
    · rw [execOperation_tell]
      exact hrules.arg0 fun _ => hrules.arg2L fun _ => hrules.keeps_tell _ _
    · rw [execOperation_readdir]
      exact hrules.arg0 fun _ => hrules.arg2L fun _ => hrules.keeps_readdir _ _ (spares_readdir laws tables _)
    · rw [execOperation_getcwd]
      exact hrules.arg0 fun _ => hrules.keeps_getcwd pid _
  · simp only [handleOperations, List.mem_cons, List.not_mem_nil, or_false] at hop
    rcases hop with h | rfl | rfl | rfl
    · exact absurd h hclose
    · rw [execOperation_opendir]
      exact hrules.arg0 fun _ => hrules.keeps_opendir pid _ (spares_opendir laws tables)
    · rw [execOperation_closedir]
      exact hrules.arg2L fun _ => hrules.keeps_closedir _ (spares_closedir laws tables _)
    · rw [execOperation_chdir]
      exact hrules.arg0 fun _ => hrules.keeps_chdir pid _ hrules.cwd (spares_opendir laws tables)
        (spares_closedir laws tables)
  · simp only [changeOperations, List.mem_cons, List.not_mem_nil, or_false] at hop
    rcases hop with h | h | rfl | h | h
    · exact absurd h hwrite
    · exact absurd (.inl h) hsingle
    · rw [execOperation_mkdir]
      exact hrules.arg0 fun _ => hrules.keeps_singlePath pid _ _ (spares_mkdir laws tables)
    · exact absurd (.inr h) hsingle
    · exact absurd h hrename

/-- A request on other handles and files leaves the file and the handle alone. -/
theorem spares_request (hread : ReadsAtMost ff) (hopen : f.storage.isOpen handle = true)
    (helsewhere : f.Elsewhere v handle file) :
    Spares v handle file f.storage ((rpFsMailboxHandleExec ff).final f).storage := by
  obtain ⟨m₀, op, pid, context, hblock, -, hfin⟩ := final_rpFsMailboxHandleExec ff f
  obtain ⟨hm₀, hview₀, rfl, rfl, rfl⟩ := hblock hf
  have hchecked := spares_checked laws tables (f := { f with hw := m₀ }) hm₀ hread hopen
    (helsewhere.of_view hview₀)
  rw [hview₀] at hchecked
  rw [hfin]
  exact hchecked

end Requests

/-! ## READ and WRITE behind their arguments -/

/-- A READ or a WRITE in the block, through a handle. -/
structure Firmware.HandleTransfer (f : Firmware σ) (op handle : UInt8) (address len : UInt16) : Prop where
  operation : f.hw.view.peek RP_STATE = op
  handle : f.hw.view.peek RP_ARG2L = handle
  args : (f.hw.view.contextBlock (f.hw.view.peek RP_ARG1H) (f.hw.view.peek16 RP_ARG0L) 6).map
    (fun raw => (rpFsMbU16 raw 2, rpFsMbU16 raw 4)) = some (address, len)

/-- A request is its operation on a settled board that shows the same. -/
theorem exec_of_checked (ff : FatFs σ) {f : Firmware σ} (hf : f.hw.Settled) :
    ∃ m₀ : Machine, m₀.Settled ∧ m₀.view = f.hw.view ∧
      let g := (checkedOperation ff (f.hw.view.peek RP_STATE) (f.hw.view.peek RP_ARG1L)
        (f.hw.view.peek RP_ARG1H)).final { f with hw := m₀ }
      ((rpFsMailboxHandleExec ff).final f).storage = g.storage ∧ ((rpFsMailboxHandleExec ff).final f).hw = g.hw := by
  obtain ⟨m₀, op, pid, context, hblock, -, hfin⟩ := final_rpFsMailboxHandleExec ff f
  obtain ⟨hm₀, hview₀, rfl, rfl, rfl⟩ := hblock hf
  exact ⟨m₀, hm₀, hview₀, by rw [hfin], by rw [hfin]⟩

/-- A READ or a WRITE that is served is what it does behind its argument block, on a board with the same memory. -/
theorem behindBlock_of_served {ff : FatFs σ} {op : UInt8}
    (body : UInt8 → UInt8 → UInt16 → UInt16 → Prog (Firmware σ) MailboxState)
    (hexec : ∀ pid context, execOperation ff op pid context = do
      let args_ptr ← readArg0
      let handle ← readArg2L
      withArgs context args_ptr 6 (fun _ => true) fun raw =>
        body handle context (rpFsMbU16 raw 2) (rpFsMbU16 raw 4))
    {f : Firmware σ} (hf : f.hw.Settled) {handle : UInt8} {address len : UInt16}
    (htransfers : f.HandleTransfer op handle address len)
    (hdone : ((rpFsMailboxHandleExec ff).final f).hw.view.peek RP_STATUS = RP_DONE) :
    f.hw.view.peek RP_ARG1H < maxContexts ∧ ∃ f₁, ReadsOnly f f₁ ∧
      let g := (body handle (f.hw.view.peek RP_ARG1H) address len).final f₁
      ((rpFsMailboxHandleExec ff).final f).storage = g.storage ∧ ((rpFsMailboxHandleExec ff).final f).hw = g.hw := by
  obtain ⟨hop, rfl, hargs⟩ := htransfers
  obtain ⟨raw, hraw, heq⟩ := Option.map_eq_some_iff.1 hargs
  obtain ⟨rfl, rfl⟩ := Prod.mk.inj heq
  obtain ⟨m₀, hm₀, hview₀, hstorage, hhw⟩ := exec_of_checked ff hf
  rw [hop, checkedOperation] at hstorage hhw
  have hc : ¬ (RP_FS_NEOX_MAX_PROCS ≤ f.hw.view.peek RP_ARG1L ∨ maxContexts ≤ f.hw.view.peek RP_ARG1H) := by
    intro hrefused
    rw [if_pos hrefused] at hhw
    rw [hhw] at hdone
    exact not_done_of_failed (error_spec (f := { f with hw := m₀ }) hm₀ RP_ERR_EINVAL 0).2 hdone
  rw [if_neg hc, hexec] at hstorage hhw
  obtain ⟨m₁, hm₁, hview₁, hfin₁⟩ := final_readArg0 (f := { f with hw := m₀ }) hm₀ fun args_ptr => do
    let handle ← readArg2L
    withArgs (f.hw.view.peek RP_ARG1H) args_ptr 6 (fun _ => true) fun raw =>
      body handle (f.hw.view.peek RP_ARG1H) (rpFsMbU16 raw 2) (rpFsMbU16 raw 4)
  obtain ⟨m₂, hm₂, hview₂, hfin₂⟩ := final_readArg2L (f := { f with hw := m₁ }) hm₁ fun handle =>
    withArgs (f.hw.view.peek RP_ARG1H) (f.hw.view.peek16 RP_ARG0L) 6 (fun _ => true) fun raw =>
      body handle (f.hw.view.peek RP_ARG1H) (rpFsMbU16 raw 2) (rpFsMbU16 raw 4)
  have hview : m₂.view = f.hw.view := (hview₂.trans hview₁).trans hview₀
  have hread₂ : ReadsOnly f { f with hw := m₂ } :=
    ⟨rfl, rfl, fun _ => ⟨hm₂, congrArg Machine.View.ram hview, congrArg Machine.View.mmuRam hview⟩⟩
  obtain ⟨f₁, hread₁, hfin⟩ := final_withArgs (f := { f with hw := m₂ }) hm₂ (f.hw.view.peek RP_ARG1H)
    (f.hw.view.peek16 RP_ARG0L) 6 (fun _ => true) fun raw =>
      body (f.hw.view.peek RP_ARG2L) (f.hw.view.peek RP_ARG1H) (rpFsMbU16 raw 2) (rpFsMbU16 raw 4)
  dsimp only at hfin
  rw [hview, hraw] at hfin
  rw [hfin₁, show Machine.View.peek16 _ RP_ARG0L = f.hw.view.peek16 RP_ARG0L from congrArg (·.peek16 RP_ARG0L) hview₀,
    hfin₂, show Machine.View.peek _ RP_ARG2L = f.hw.view.peek RP_ARG2L from
      congrArg (·.peek RP_ARG2L) (hview₁.trans hview₀), hfin] at hstorage hhw
  exact ⟨UInt8.not_le.1 fun h => hc (.inr h), f₁, trans_of ReadsOnly hread₂ hread₁, hstorage, hhw⟩

/-- A transfer that is served is one of an open handle with a place in memory. -/
theorem final_withOpen_of_done {f : Firmware σ} (hf : f.hw.Settled) {handle : UInt8} {address : UInt16}
    {k : Prog (Firmware σ) MailboxState}
    (hdone : ((withOpen (fun f => f.storage.isOpen handle)
      (if address = 0 then fsMbError RP_ERR_EINVAL 0 else k)).final f).hw.view.peek RP_STATUS = RP_DONE) :
    (withOpen (fun f => f.storage.isOpen handle)
      (if address = 0 then fsMbError RP_ERR_EINVAL 0 else k)).final f = k.final f := by
  rw [withOpen, Prog.final_bind, Prog.result_get, Prog.final_get, Prog.final_ite] at hdone ⊢
  by_cases hopen : f.storage.isOpen handle = true
  swap
  · rw [if_neg hopen] at hdone
    exact absurd hdone (not_done_of_failed (error_spec hf _ 0).2)
  rw [if_pos hopen, Prog.final_ite] at hdone ⊢
  by_cases haddress : address = 0
  · rw [if_pos haddress] at hdone
    exact absurd hdone (not_done_of_failed (error_spec hf _ 0).2)
  · rw [if_neg haddress]

/-! ## READ -/

/-- A block that is written into a context lies in its cells. -/
theorem writeContextBlock_spec {f : Firmware σ} (hf : f.hw.Settled) {c : UInt8} (hc : c < maxContexts)
    {address : UInt16} {src : List UInt8} (hsrc : src.length ≤ 4096)
    (hrange : rpFsMbPrivateRange address (UInt16.ofNat src.length) = true) :
    let p := rpFsMbWriteContextBlock (σ := σ) c address src
    p.result f = true ∧ (p.final f).storage = f.storage ∧ (p.final f).hw.Settled ∧
      ∀ i (hi : i < src.length),
        (p.final f).hw.ram ((f.hw.view.inContext c).physAddr (address + UInt16.ofNat i)) = src[i] := by
  have hbody : ∀ g : Firmware σ, g.storage = f.storage → g.hw.gControlMode = .mRPI →
      ((onHw (writeBlock address src)).final g).hw.gControlMode = .mRPI ∧ ∃ ws, ws = blockWrites address src ∧
        ((onHw (writeBlock address src)).final g).hw.view = g.hw.view.writes ws := by
    intro g _ hmode
    obtain ⟨-, hwrites, hmode'⟩ := cycles_writeBlock address src g.hw hmode
    exact ⟨hmode', _, rfl, hwrites⟩
  obtain ⟨ws, rfl, hsettled, hview⟩ := withContext_writes hf hc hbody
  simp only [rpFsMbWriteContextBlock, hrange, Bool.true_eq_false, if_false, Prog.result_bind, Prog.final_bind,
    Prog.result_pure, Prog.final_pure]
  refine ⟨?_, ?_, hsettled, fun i hi => ?_⟩
  · simp [withContext, UInt8.not_le.2 hc]
  · simp [withContext, UInt8.not_le.2 hc, emit, onHw]
  · show ((withContext c (onHw (writeBlock address src))).final f).hw.view.ram _ = src[i]
    rw [hview]
    exact (f.hw.view.select c).ram_writes_block hsrc address hi

/-- `rp_fs_mb_exec_read()` behind its argument block. -/
def readBehindBlock (ff : FatFs σ) (handle context : UInt8) (dst len : UInt16) :
    Prog (Firmware σ) MailboxState :=
  withOpen (fun f => f.storage.isOpen handle) <|
    if dst = 0 then fsMbError RP_ERR_EINVAL 0
    else if len = 0 then do
      let eof ← onStorage (eofFlag ff handle)
      fsMbDone 0 eof
    else if rpFsMbPrivateRange dst (clipToChunk len) = false then fsMbError RP_ERR_EINVAL 0
    else do
      match ← onStorage (rpFsRead ff handle (clipToChunk len)) with
      | none => fsMbError RP_ERR_EIO 0
      | some [] =>
        let eof ← onStorage (eofFlag ff handle)
        fsMbDone 0 eof
      | some bytes =>
        withResult context dst bytes do
          let eof ← onStorage (eofFlag ff handle)
          fsMbDone (UInt16.ofNat bytes.length) eof

/-- What a served READ does: the bytes that `rp_fs_read()` returns lie in the target, but where the reply
has been put over them, and the reply tells their number and whether the file is at its end. -/
structure Serves (ff : FatFs σ) (handle context : UInt8) (dst len : UInt16) (f f' : Firmware σ)
    (chunk : List UInt8) : Prop where
  read : (rpFsRead ff handle (clipToChunk len)).result f.storage = some chunk
  storage : f'.storage = (rpFsRead ff handle (clipToChunk len)).final f.storage
  result : f'.hw.view.peek16 RP_RES0L = UInt16.ofNat chunk.length
  flags : f'.hw.view.peek RP_FLAGS = (eofFlag ff handle).result f'.storage
  stored : ∀ i (hi : i < chunk.length),
    let cell := (f.hw.view.inContext context).physAddr (dst + UInt16.ofNat i)
    (∀ a ∈ replyAddresses, f'.hw.view.physAddr a ≠ cell) → f'.hw.ram cell = chunk[i]

theorem clipToChunk_le (len : UInt16) : (clipToChunk len).toNat ≤ 256 := by
  rw [clipToChunk]
  split
  · exact le_refl _
  · rename_i h
    exact UInt16.le_iff_toNat_le.1 (UInt16.not_lt.1 h)

section Read

variable {ff : FatFs σ} (hread : ReadsAtMost ff) {handle context : UInt8} {f : Firmware σ}
  (hf : f.hw.Settled)

variable (ff handle) in
/-- The reply of a READ, after the look at the end of the file. -/
theorem eofDone_spec (hf : f.hw.Settled) (result : UInt16) :
    let f' := (do let eof ← onStorage (eofFlag ff handle); fsMbDone result eof : Prog (Firmware σ) _).final f
    Untouched f f' ∧ f'.hw.view.peek16 RP_RES0L = result ∧
      f'.hw.view.peek RP_FLAGS = (eofFlag ff handle).result f'.storage := by
  have heof : (onStorage (eofFlag ff handle)).final f = f := by rw [onStorage, Prog.final_on, final_eofFlag]
  have hflag : (onStorage (eofFlag ff handle)).result f = (eofFlag ff handle).result f.storage := by
    rw [onStorage, Prog.result_on]
  rw [Prog.final_bind, heof, hflag]
  obtain ⟨hstorage, -, hresult⟩ := done_spec hf result ((eofFlag ff handle).result f.storage)
  refine ⟨untouched_fsMbDone hf _ _, hresult, ?_⟩
  rw [done_flags hf, hstorage]

include hread hf

/-- A READ of some bytes that is served, behind its argument block. -/
theorem serves_behindBlock (hc : context < maxContexts) {dst len : UInt16} (hlen : len ≠ 0)
    (hdone : ((readBehindBlock ff handle context dst len).final f).hw.view.peek RP_STATUS = RP_DONE) :
    ∃ chunk, Serves ff handle context dst len f ((readBehindBlock ff handle context dst len).final f)
      chunk := by
  have herror : ∀ {g : Firmware σ}, g.hw.Settled → ∀ err,
      ((fsMbError err 0).final g).hw.view.peek RP_STATUS ≠ RP_DONE :=
    fun hg err => not_done_of_failed (error_spec hg err 0).2
  rw [readBehindBlock] at hdone ⊢
  have hfin := final_withOpen_of_done hf hdone
  rw [hfin, if_neg hlen, Prog.final_ite] at hdone ⊢
  by_cases hrange : rpFsMbPrivateRange dst (clipToChunk len) = false
  · rw [if_pos hrange] at hdone
    exact absurd hdone (herror hf _)
  rw [if_neg hrange, Prog.final_bind, onStorage, Prog.result_on, Prog.final_on] at hdone ⊢
  rw [Bool.not_eq_false] at hrange
  rcases hbytes : (rpFsRead ff handle (clipToChunk len)).result f.storage with - | bytes
  · rw [hbytes] at hdone
    exact absurd hdone (herror (g := { f with storage := _ }) hf _)
  rw [hbytes] at hdone
  generalize hs : (rpFsRead ff handle (clipToChunk len)).final f.storage = s at hdone ⊢
  rcases bytes with - | ⟨b, bytes⟩
  · obtain ⟨huntouched, hresult, hflags⟩ := eofDone_spec ff handle
      (f := { f with storage := s }) hf 0
    exact ⟨[], hbytes, huntouched.storage.trans hs.symm, hresult, hflags,
      fun i hi => absurd hi (Nat.not_lt_zero i)⟩
  -- The bytes go into the target before the reply is written.
  have hcount : (b :: bytes).length ≤ (clipToChunk len).toNat :=
    length_rpFsRead ff handle hread _ f.storage hbytes
  have hclip : (clipToChunk len).toNat ≤ 256 := clipToChunk_le len
  have hnat : (UInt16.ofNat (b :: bytes).length).toNat = (b :: bytes).length := by
    rw [UInt16.toNat_ofNat', Nat.mod_eq_of_lt (by omega)]
  have hpart : rpFsMbPrivateRange dst (UInt16.ofNat (b :: bytes).length) = true := by
    have hpart := rpFsMbPrivateRange_part (k := 0) hrange (m := UInt16.ofNat (b :: bytes).length)
      (fun h => by rw [h] at hnat; exact absurd hnat (by simp)) (by rw [hnat]; exact (Nat.zero_add _).trans_le hcount)
    rwa [UInt16.add_zero] at hpart
  obtain ⟨hwritten, hkept, hsettled, hcells⟩ := writeContextBlock_spec (f := { f with storage := s }) hf hc
    (by omega : (b :: bytes).length ≤ 4096) hpart
  dsimp only at hdone ⊢
  rw [withResult, Prog.final_bind, hwritten, if_pos rfl]
  generalize (rpFsMbWriteContextBlock context dst (b :: bytes)).final { f with storage := s } = g at hkept hsettled hcells ⊢
  obtain ⟨huntouched, hresult, hflags⟩ := eofDone_spec ff handle hsettled
    (UInt16.ofNat (b :: bytes).length)
  refine ⟨b :: bytes, hbytes, (huntouched.storage.trans hkept).trans hs.symm, hresult, hflags, fun i hi => ?_⟩
  intro cell hcell
  rw [huntouched.ram cell hcell]
  exact hcells i hi

/-- A READ in the block, of some bytes through a handle. -/
structure Firmware.Reads (f : Firmware σ) (handle : UInt8) (dst len : UInt16) : Prop where
  operation : f.hw.view.peek RP_STATE = RP_FS_OP_READ
  handle : f.hw.view.peek RP_ARG2L = handle
  args : (f.hw.view.contextBlock (f.hw.view.peek RP_ARG1H) (f.hw.view.peek16 RP_ARG0L) 6).map
    (fun raw => (rpFsMbU16 raw 2, rpFsMbU16 raw 4)) = some (dst, len)
  length : len ≠ 0

/-- What a READ that is served does. -/
theorem serves_request {dst len : UInt16} (hreads : f.Reads handle dst len)
    (hdone : ((rpFsMailboxHandleExec ff).final f).hw.view.peek RP_STATUS = RP_DONE) :
    ∃ chunk, Serves ff handle (f.hw.view.peek RP_ARG1H) dst len f ((rpFsMailboxHandleExec ff).final f)
      chunk := by
  obtain ⟨hop, hhandle, hargs, hlen⟩ := hreads
  obtain ⟨hc, f₁, hreads₁, hstorage, hhw⟩ := behindBlock_of_served (readBehindBlock ff)
    (execOperation_read ff) hf ⟨hop, hhandle, hargs⟩ hdone
  rw [hhw] at hdone
  obtain ⟨chunk, hserves⟩ := serves_behindBlock hread (hreads₁.board hf).1 hc hlen hdone
  refine ⟨chunk, ?_, ?_, ?_, ?_, ?_⟩
  · rw [← hreads₁.storage]
    exact hserves.read
  · rw [hstorage, ← hreads₁.storage]
    exact hserves.storage
  · rw [hhw]
    exact hserves.result
  · rw [hhw, hstorage]
    exact hserves.flags
  · rw [hhw, ← hreads₁.inContext hf]
    exact hserves.stored

end Read

/-! ## The stream -/

/-- Requests one behind the other: READs of some bytes through the handle, all of them served, and requests
on other handles and files. The storage is what the request before has left; everything else may change in
between. The list has the READs, with their targets and lengths. -/
inductive StreamRun (ff : FatFs σ) (v : FileView σ φ) (handle : UInt8) (file : φ) :
    Storage σ → List (Firmware σ × UInt16 × UInt16) → Prop
  | done (s : Storage σ) : StreamRun ff v handle file s []
  | read (f : Firmware σ) {dst len : UInt16} (settled : f.hw.Settled) (reads : f.Reads handle dst len)
    (served : ((rpFsMailboxHandleExec ff).final f).hw.view.peek RP_STATUS = RP_DONE)
    {rest : List (Firmware σ × UInt16 × UInt16)}
    (next : StreamRun ff v handle file ((rpFsMailboxHandleExec ff).final f).storage rest) :
    StreamRun ff v handle file f.storage ((f, dst, len) :: rest)
  | other (f : Firmware σ) (settled : f.hw.Settled) (elsewhere : f.Elsewhere v handle file)
    {rest : List (Firmware σ × UInt16 × UInt16)}
    (next : StreamRun ff v handle file ((rpFsMailboxHandleExec ff).final f).storage rest) :
    StreamRun ff v handle file f.storage rest

/-- A READ stores the bytes of `contents` behind its position. -/
structure Delivers (ff : FatFs σ) (v : FileView σ φ) (handle : UInt8) (contents : List UInt8) (f : Firmware σ)
    (dst len : UInt16) (chunk : List UInt8) : Prop where
  length : chunk.length = min (min len.toNat 256) (contents.length - (v.fil f.storage.fatfs handle).2)
  result : ((rpFsMailboxHandleExec ff).final f).hw.view.peek16 RP_RES0L = UInt16.ofNat chunk.length
  stored : ∀ i (hi : i < chunk.length),
    let cell := (f.hw.view.inContext (f.hw.view.peek RP_ARG1H)).physAddr (dst + UInt16.ofNat i)
    (∀ a ∈ replyAddresses, ((rpFsMailboxHandleExec ff).final f).hw.view.physAddr a ≠ cell) →
      ((rpFsMailboxHandleExec ff).final f).hw.ram cell = chunk[i]
  eof : ((rpFsMailboxHandleExec ff).final f).hw.view.peek RP_FLAGS =
    if contents.length ≤ (v.fil ((rpFsMailboxHandleExec ff).final f).storage.fatfs handle).2 then
      RP_FS_FLAG_EOF else 0

section Stream

variable {ff : FatFs σ} {v : FileView σ φ} {handle : UInt8} {file : φ} (laws : StreamLaws ff v handle file)
  (tables : TableLaws ff) {p : Nat} {contents : List UInt8}

/-- A read that returns bytes is a call of `f_read()` on an open handle. -/
theorem read_some {len : UInt16} (hlen : len ≠ 0) {s : Storage σ} {chunk : List UInt8}
    (h : (rpFsRead ff handle len).result s = some chunk) :
    ((ff.f_read handle len).result s).1 = FR_OK ∧ ((ff.f_read handle len).result s).2 = chunk ∧
      (rpFsRead ff handle len).final s = (ff.f_read handle len).final s := by
  simp only [rpFsRead, Prog.result_bind, Prog.result_get, Prog.final_get, Prog.final_bind, Prog.result_ite,
    Prog.final_ite, Prog.result_pure, Prog.final_pure] at h ⊢
  split_ifs at h ⊢ with hclosed hflags hok
  exact ⟨not_not.1 hok, Option.some.inj h, rfl⟩

include laws tables

omit tables in
/-- The end-of-file flag of a handle in use compares its position with the size of its file. -/
theorem eofFlag_eq {s : Storage σ} (hopen : s.isOpen handle = true) (hfil : v.fil s.fatfs handle = (file, p))
    (hcontents : v.data s.fatfs file = contents) (hsize : contents.length < 2 ^ 32) (hp : p < 2 ^ 32) :
    (eofFlag ff handle).result s = if contents.length ≤ p then RP_FS_FLAG_EOF else 0 := by
  have htell : (ff.f_tell handle s).toNat = p := by
    have := laws.f_tell s
    rw [hfil] at this
    exact this rfl hp
  have hsize' : (ff.f_size handle s).toNat = contents.length := by
    have := laws.f_size s
    rw [hfil, hcontents] at this
    exact this rfl hsize
  simp only [eofFlag, rpFsPosition, rpFsSize, Prog.result_bind, Prog.result_gets, Prog.final_gets,
    Prog.result_pure, hopen, if_true, UInt32.le_iff_toNat_le, htell, hsize']

/-- One READ of the stream. -/
theorem delivers_of_serves {f : Firmware σ} {dst len : UInt16} (hlen : len ≠ 0) {chunk : List UInt8}
    (hserves : Serves ff handle (f.hw.view.peek RP_ARG1H) dst len f ((rpFsMailboxHandleExec ff).final f) chunk)
    (hopen : f.storage.isOpen handle = true) (hfil : v.fil f.storage.fatfs handle = (file, p))
    (hcontents : v.data f.storage.fatfs file = contents) (hsize : contents.length < 2 ^ 32)
    (hp : p < 2 ^ 32) :
    let s' := ((rpFsMailboxHandleExec ff).final f).storage
    Delivers ff v handle contents f dst len chunk ∧ chunk = (contents.drop p).take (clipToChunk len).toNat ∧
      s'.isOpen handle = true ∧ v.fil s'.fatfs handle = (file, p + chunk.length) ∧
        v.data s'.fatfs file = contents := by
  intro s'
  have hclip : clipToChunk len ≠ 0 := by
    rw [clipToChunk]
    split
    · decide
    · exact hlen
  obtain ⟨hok, hbytes, hfinal⟩ := read_some hclip hserves.read
  obtain ⟨hchunk, hfil', hcontents'⟩ := laws.f_read_ok (clipToChunk len) f.storage (congrArg Prod.fst hfil) hok
  have hs' : s' = (ff.f_read handle (clipToChunk len)).final f.storage := hserves.storage.trans hfinal
  rw [hbytes, hfil, hcontents] at hchunk
  rw [hbytes, hfil, ← hs'] at hfil'
  rw [← hs', hcontents] at hcontents'
  have hopen' : s'.isOpen handle = true := by
    rw [hs', (tables.f_read handle (clipToChunk len) f.storage).isOpen]
    exact hopen
  have hcount : chunk.length = min (min len.toNat 256) (contents.length - p) := by
    rw [hchunk, List.length_take, List.length_drop, toNat_clipToChunk]
  refine ⟨⟨?_, hserves.result, hserves.stored, ?_⟩, hchunk, hopen', hfil', hcontents'⟩
  · rw [hfil]
    exact hcount
  · rw [hserves.flags]
    have heof := eofFlag_eq laws (s := s') hopen' hfil' hcontents' hsize (by omega)
    rw [show ((rpFsMailboxHandleExec ff).final f).storage = s' from rfl, heof, hfil']

omit laws tables in
theorem take_append_drop_take (l : List UInt8) (m n : Nat) :
    l.take m ++ (l.drop (l.take m).length).take n = l.take (m + n) := by
  rw [List.take_add, List.length_take]
  rcases le_total m l.length with h | h
  · rw [Nat.min_eq_left h]
  · rw [Nat.min_eq_right h, List.drop_length, List.drop_eq_nil_of_le h]

/-- READs of one handle deliver the bytes behind its position in order, whatever lengths they ask for and
whatever requests on other handles and files come in between. -/
theorem read_stream (hread : ReadsAtMost ff) {s : Storage σ} {reads : List (Firmware σ × UInt16 × UInt16)}
    (hrun : StreamRun ff v handle file s reads) (hopen : s.isOpen handle = true)
    (hfil : v.fil s.fatfs handle = (file, p)) (hcontents : v.data s.fatfs file = contents)
    (hsize : contents.length < 2 ^ 32) (hp : p < 2 ^ 32) :
    ∃ chunks, List.Forall₂ (fun r chunk => Delivers ff v handle contents r.1 r.2.1 r.2.2 chunk) reads chunks ∧
      chunks.flatten = (contents.drop p).take (reads.map fun r => min r.2.2.toNat 256).sum := by
  induction hrun generalizing p with
  | done s => exact ⟨[], .nil, by simp⟩
  | other f settled elsewhere next ih =>
    have hspares := spares_request laws tables settled hread hopen elsewhere
    exact ih (hspares.isOpen.trans hopen) (hspares.fil.trans hfil) (hspares.data.trans hcontents) hp
  | @read f dst len settled reads served rest next ih =>
    obtain ⟨chunk, hserves⟩ := serves_request hread settled reads served
    obtain ⟨hdelivers, hchunk, hopen', hfil', hcontents'⟩ :=
      delivers_of_serves laws tables reads.length hserves hopen hfil hcontents hsize hp
    rw [toNat_clipToChunk] at hchunk
    -- the position does not pass the end of the file, unless it was behind it already
    have hp' : p + chunk.length < 2 ^ 32 := by
      rw [hchunk, List.length_take, List.length_drop]
      omega
    obtain ⟨chunks, hall, hflatten⟩ := ih hopen' hfil' hcontents' hp'
    refine ⟨chunk :: chunks, .cons hdelivers hall, ?_⟩
    rw [List.flatten_cons, hflatten, List.map_cons, List.sum_cons, ← List.drop_drop, hchunk]
    exact take_append_drop_take _ _ _

end Stream

/-! ## A file that is read in three pieces -/

namespace RamDisk

theorem tableLaws : TableLaws fatFs where
  f_mount _ := Prog.Keeps.pure FR_OK
  f_open slot path mode := by
    intro s
    simp only [fatFs, Prog.final_ite, Prog.final_bind, Prog.final_modify, Prog.final_pure, Prog.final_get,
      Prog.result_get]
    split_ifs
    · exact ⟨rfl, rfl⟩
    · exact ⟨rfl, rfl⟩
    · exact refl s
  f_close _ := Prog.Keeps.pure FR_OK
  f_read _ _ _ := ⟨rfl, rfl⟩
  f_write _ _ _ := ⟨rfl, rfl⟩
  f_lseek _ _ _ := ⟨rfl, rfl⟩
  f_unlink path := by
    intro s
    simp only [fatFs, Prog.final_ite, Prog.final_bind, Prog.final_modify, Prog.final_pure, Prog.final_get,
      Prog.result_get]
    split_ifs
    · exact ⟨rfl, rfl⟩
    · exact refl s
  f_rename old_path new_path := by
    refine Prog.Keeps.get.bind fun s => ?_
    cases s.fatfs.files old_path with
    | none => exact Prog.Keeps.pure FR_NO_FILE
    | some bytes =>
      exact (Prog.Keeps.modify fun _ => ⟨rfl, rfl⟩).bind fun _ =>
        (Prog.Keeps.modify fun _ => ⟨rfl, rfl⟩).bind fun _ => Prog.Keeps.pure FR_OK
  f_mkdir _ := Prog.Keeps.pure FR_NO_PATH
  f_opendir _ _ := Prog.Keeps.pure FR_NO_PATH
  f_readdir _ := Prog.Keeps.pure _
  f_closedir _ := Prog.Keeps.pure FR_OK

/-- The files in memory, which are named by their paths. -/
def view : FileView RamDisk (List UInt8) where
  data d path := (d.files path).getD []
  fil := RamDisk.fil
  names _ path x := path = x

theorem streamLaws (handle : UInt8) (file : List UInt8) : StreamLaws fatFs view handle file where
  f_read_ok len s hfile _ := by
    subst hfile
    exact ⟨rfl, by simp [view, fatFs, seek, contents], rfl⟩
  f_size s hfile h := by
    subst hfile
    exact Nat.mod_eq_of_lt h
  f_tell s _ h := Nat.mod_eq_of_lt h
  f_mount _ _ := ⟨rfl, rfl⟩
  f_mount_names _ _ _ := rfl
  f_read slot hne len s := ⟨rfl, Function.update_of_ne hne.symm _ _⟩
  f_read_beside slot hne len s hfile :=
    ⟨⟨rfl, Function.update_of_ne hne.symm _ _⟩, by simpa [view, fatFs, seek] using hfile⟩
  f_write slot hne src s hfile := by
    refine ⟨⟨?_, Function.update_of_ne hne.symm _ _⟩, by simpa [view, fatFs, seek, write] using hfile⟩
    exact congrArg (Option.getD · []) (Function.update_of_ne (Ne.symm hfile) _ _)
  f_lseek slot hne position s hfile :=
    ⟨⟨rfl, Function.update_of_ne hne.symm _ _⟩, by simpa [view, fatFs, seek] using hfile⟩
  f_close _ _ _ := ⟨rfl, rfl⟩
  f_close_beside _ _ _ hfile := ⟨⟨rfl, rfl⟩, hfile⟩
  f_open slot hne path mode s h := by
    simp only [fatFs, Prog.final_ite, Prog.final_bind, Prog.final_modify, Prog.final_pure, Prog.final_get,
      Prog.result_get]
    split_ifs with hcreate
    · refine ⟨?_, Function.update_of_ne hne.symm _ _⟩
      rcases h with rfl | hnot
      · exact absurd rfl hcreate
      · exact congrArg (Option.getD · []) (Function.update_of_ne (Ne.symm hnot) _ _)
    · exact ⟨rfl, Function.update_of_ne hne.symm _ _⟩
    · exact ⟨rfl, rfl⟩
  f_open_ok slot _ path mode s h hnot := by
    simp only [fatFs, Prog.result_ite, Prog.result_bind, Prog.result_pure, Prog.final_ite, Prog.final_bind,
      Prog.final_modify, Prog.final_pure, Prog.final_get, Prog.result_get] at h ⊢
    split_ifs at h ⊢
    · simpa [view, seek] using hnot
    · simpa [view, seek] using hnot
    · exact absurd h (by decide)
  f_unlink path s h := by
    simp only [fatFs, Prog.final_ite, Prog.final_bind, Prog.final_modify, Prog.final_pure, Prog.final_get,
      Prog.result_get]
    split_ifs
    · exact ⟨congrArg (Option.getD · []) (Function.update_of_ne (Ne.symm h) _ _), rfl⟩
    · exact ⟨rfl, rfl⟩
  f_rename old_path new_path s hold hnew := by
    simp only [fatFs, Prog.final_bind, Prog.final_get, Prog.result_get]
    cases s.fatfs.files old_path with
    | none => exact ⟨rfl, rfl⟩
    | some bytes =>
      have hupdate := (Function.update_of_ne (Ne.symm hnew) (some bytes)
        (Function.update s.fatfs.files old_path none)).trans (Function.update_of_ne (Ne.symm hold) _ _)
      exact ⟨congrArg (Option.getD · []) hupdate, rfl⟩
  f_mkdir _ _ := ⟨rfl, rfl⟩
  f_opendir _ _ _ := ⟨rfl, rfl⟩
  f_readdir _ _ := ⟨rfl, rfl⟩
  f_closedir _ _ := ⟨rfl, rfl⟩

end RamDisk

/-- The memory of a request of PID 1 in context 0, which reads `len` bytes through handle 0 to 0x3000. -/
def pieceRam (op len : UInt8) (cell : UInt8 × UInt16) : UInt8 :=
  (List.lookup cell
    [((0x0B, 0x005), op), ((0x0B, 0x007), 0x02), ((0x0B, 0x008), 1),
     ((0x00, 0x203), 0x30), ((0x00, 0x204), len)]).getD 0

/-- The firmware that gets it. -/
def pieceFirmware (op len : UInt8) (s : Storage RamDisk) : Firmware RamDisk :=
  .start (.running (pieceRam op len)) s

/-- Handle 0 is open at byte 1 of the file `A`, which holds `abcde`. -/
def pieceStorage : Storage RamDisk :=
  { RamDisk.mounted (fun path => if path = ascii "A" then some (ascii "abcde") else none) with
    gRPFSHandles := fun _ => ⟨true, 0, RP_FS_HANDLE_READ⟩
    fatfs.fil := fun _ => (ascii "A", 1) }

/-- What a request of it leaves. -/
def pieceStep (op len : UInt8) (s : Storage RamDisk) : Storage RamDisk :=
  ((rpFsMailboxHandleExec RamDisk.fatFs).final (pieceFirmware op len s)).storage

/-- A request for the status is about no handle and no file. -/
theorem elsewhere_status {s : Storage RamDisk}
    (hop : (pieceFirmware RP_FS_OP_STATUS 0 s).hw.view.peek RP_STATE = RP_FS_OP_STATUS) :
    (pieceFirmware RP_FS_OP_STATUS 0 s).Elsewhere RamDisk.view 0 (ascii "A") := by
  constructor <;> rw [hop] <;> intro h <;> exact absurd h (by decide)

/-- Two bytes, a request for the status, and as many as five bytes. -/
theorem streamRun_pieces : StreamRun RamDisk.fatFs RamDisk.view 0 (ascii "A") pieceStorage
    [(pieceFirmware RP_FS_OP_READ 2 pieceStorage, 0x3000, 2),
      (pieceFirmware RP_FS_OP_READ 5
        (pieceStep RP_FS_OP_STATUS 0 (pieceStep RP_FS_OP_READ 2 pieceStorage)), 0x3000, 5)] := by
  refine .read (pieceFirmware RP_FS_OP_READ 2 pieceStorage) (Machine.settled_running _)
    ⟨by decide +kernel, by decide +kernel, by decide +kernel, by decide⟩ (by decide +kernel) ?_
  refine .other (pieceFirmware RP_FS_OP_STATUS 0 (pieceStep RP_FS_OP_READ 2 pieceStorage))
    (Machine.settled_running _) (elsewhere_status (by decide +kernel)) ?_
  exact .read (pieceFirmware RP_FS_OP_READ 5 _) (Machine.settled_running _)
    ⟨by decide +kernel, by decide +kernel, by decide +kernel, by decide⟩ (by decide +kernel) (.done _)

theorem read_stream_pieces : ∃ chunks,
    List.Forall₂ (fun r chunk => Delivers RamDisk.fatFs RamDisk.view 0 (ascii "abcde") r.1 r.2.1 r.2.2 chunk)
      [(pieceFirmware RP_FS_OP_READ 2 pieceStorage, 0x3000, 2),
        (pieceFirmware RP_FS_OP_READ 5
          (pieceStep RP_FS_OP_STATUS 0 (pieceStep RP_FS_OP_READ 2 pieceStorage)), 0x3000, 5)] chunks ∧
      chunks.flatten = ascii "bcde" :=
  read_stream (RamDisk.streamLaws 0 (ascii "A")) RamDisk.tableLaws readsAtMost_ramDisk streamRun_pieces (by decide)
    rfl (by decide) (by decide) (by decide)

end NeoMmu
