import NeoMmu.Fs.Listing
import NeoMmu.Mailbox.Seek

/-!
# READDIR lists a directory

A client reads a directory through one handle while other requests open directories, read files and write them. Each
READDIR delivers the next entry that has an 8.3 name, as a record of 18 bytes from which the entry can be read again,
and after the last one it reports the end. So the READDIRs deliver the entries in order, each of them once.
-/

namespace NeoMmu

variable {σ α : Type}

/-! ## Entries -/

/-- An entry as READDIR delivers it. -/
@[ext] structure Dirent where
  name : List UInt8
  attr : UInt8
  size : UInt32
  deriving DecidableEq, Repr

/-- The entry that READDIR makes of one of FatFs; `none` for those it skips. -/
def dirent (info : FILINFO) : Option Dirent :=
  (entryName info).map fun name => ⟨name, info.fattrib, info.fsize⟩

namespace Dirent

/-- The bytes that are stored for the client. -/
def record (e : Dirent) : List UInt8 := direntBytes e.name e.attr e.size

/-- The entry that a client finds in a record: the name ends at its first NUL. -/
def ofRecord (bytes : List UInt8) : Dirent where
  name := (bytes.take 13).takeWhile (· ≠ 0)
  attr := bytes.getD 13 0
  size := UInt32.ofNat (littleEndian (bytes.drop 14))

/-- The name fits into the record, and no NUL stands in it. -/
structure Fits (e : Dirent) : Prop where
  length : e.name.length ≤ 12
  nonzero : ∀ c ∈ e.name, c ≠ 0

/-- What is put into a record is read again. -/
theorem ofRecord_record {e : Dirent} (h : e.Fits) : ofRecord e.record = e := by
  have hname : e.name.take 12 = e.name := List.take_of_length_le h.length
  have hpad : (e.name.rightpad 13 0).length = 13 := by
    rw [List.length_rightpad, Nat.max_eq_left (by have := h.length; omega)]
  have hrecord : e.record = e.name.rightpad 13 0 ++ ([e.attr] ++ littleEndian32 e.size) := by
    rw [record, direntBytes, hname, List.append_assoc]
  have hzeros : 13 - e.name.length = (12 - e.name.length) + 1 := by
    have := h.length
    omega
  have htake : e.record.take 13 = e.name ++ 0 :: List.replicate (12 - e.name.length) 0 := by
    rw [hrecord, List.take_left' hpad, List.rightpad, hzeros, List.replicate_succ]
  have hdrop : e.record.drop 13 = e.attr :: littleEndian32 e.size := by
    rw [hrecord, List.drop_left' hpad, List.singleton_append]
  obtain ⟨name, attr, size⟩ := e
  have hfirst : (ofRecord (record ⟨name, attr, size⟩)).name = name := by
    show ((record ⟨name, attr, size⟩).take 13).takeWhile (· ≠ 0) = name
    rw [htake, List.takeWhile_append_of_pos fun c hc => decide_eq_true (h.nonzero c hc),
      List.takeWhile_cons_of_neg (by simp), List.append_nil]
  have hattr : (ofRecord (record ⟨name, attr, size⟩)).attr = attr := by
    show (record ⟨name, attr, size⟩).getD 13 0 = attr
    rw [List.getD_eq_getElem?_getD, ← List.head?_drop, hdrop]
    rfl
  have hsize : (ofRecord (record ⟨name, attr, size⟩)).size = size := by
    show UInt32.ofNat (littleEndian ((record ⟨name, attr, size⟩).drop 14)) = size
    rw [← List.drop_drop (i := 1) (j := 13), hdrop]
    simp [littleEndian_littleEndian32]
  exact Dirent.ext hfirst hattr hsize

end Dirent

/-- A name of the 8.3 grammar fits into a record. -/
theorem Is83.fits {name : List UInt8} (h : Is83 name) : name.length ≤ 12 ∧ ∀ c ∈ name, c ≠ 0 := by
  have hchar : ∀ c, isChar83 c = true → c ≠ 0 := by decide +kernel
  obtain ⟨base, hbase, -, hlong, rfl | ⟨ext, hext, -, hext', rfl⟩⟩ := h
  · exact ⟨by omega, fun c hc => hchar c (hbase c hc)⟩
  · refine ⟨by rw [List.length_append, List.length_cons]; omega, fun c hc => ?_⟩
    rcases List.mem_append.1 hc with hc | hc
    · exact hchar c (hbase c hc)
    rcases List.mem_cons.1 hc with rfl | hc
    · decide
    · exact hchar c (hext c hc)

theorem fits_of_dirent {info : FILINFO} (hplain : info.Plain) {e : Dirent} (h : dirent info = some e) : e.Fits := by
  obtain ⟨name, hname, rfl⟩ := Option.map_eq_some_iff.1 h
  obtain ⟨hlength, hnonzero⟩ := (is83_of_entryName hplain hname).fits
  exact ⟨hlength, hnonzero⟩

/-! ## The laws of FatFs -/

/-- The entries that the directory of a slot has still to deliver. -/
abbrev DirView (σ : Type) : Type := σ → UInt8 → List FILINFO

/-- What FatFs does to open directories: `f_readdir()` delivers the next entry of its slot, an empty name is the end,
and neither mounting nor the use of files and of other directories changes what a slot delivers. -/
structure DirLaws (ff : FatFs σ) (v : DirView σ) : Prop where
  plain : ∀ x slot, ∀ info ∈ v x slot, info.fname ≠ [] ∧ info.Plain
  f_readdir_ok : ∀ slot s, ((ff.f_readdir slot).result s).1 = FR_OK →
    let info := ((ff.f_readdir slot).result s).2
    let s' := (ff.f_readdir slot).final s
    (v s.fatfs slot = [] → info.fname = []) ∧ (∀ next ∈ (v s.fatfs slot).head?, info = next) ∧
      v s'.fatfs slot = (v s.fatfs slot).tail
  f_readdir : ∀ slot s, ∀ i ≠ slot, v ((ff.f_readdir slot).final s).fatfs i = v s.fatfs i
  f_mount : ∀ device s, v ((ff.f_mount device).final s).fatfs = v s.fatfs
  f_opendir : ∀ slot path s, ∀ i ≠ slot, v ((ff.f_opendir slot path).final s).fatfs i = v s.fatfs i
  f_closedir : ∀ slot s, ∀ i ≠ slot, v ((ff.f_closedir slot).final s).fatfs i = v s.fatfs i
  f_read : ∀ slot len s, v ((ff.f_read slot len).final s).fatfs = v s.fatfs
  f_write : ∀ slot src s, v ((ff.f_write slot src).final s).fatfs = v s.fatfs
  f_lseek : ∀ slot position s, v ((ff.f_lseek slot position).final s).fatfs = v s.fatfs

/-- The entries that a directory handle has still to deliver. -/
def Storage.toDeliver (v : DirView σ) (handle : UInt8) (s : Storage σ) : List Dirent :=
  (v s.fatfs handle).filterMap dirent

/-- What `rp_fs_readdir()` delivers. -/
def ReaddirResult.delivered : ReaddirResult → Option Dirent
  | .entry name attr size => some ⟨name, attr, size⟩
  | .eof | .error => none

section Readdir

variable {ff : FatFs σ} {v : DirView σ} (laws : DirLaws ff v) {handle : UInt8}

include laws

/-- An empty name is the end, any other the next entry. -/
theorem DirLaws.next {s : Storage σ} (hfr : ((ff.f_readdir handle).result s).1 = FR_OK) :
    let info := ((ff.f_readdir handle).result s).2
    let s' := (ff.f_readdir handle).final s
    (info.fname = [] → v s.fatfs handle = [] ∧ v s'.fatfs handle = []) ∧
      (info.fname ≠ [] → v s.fatfs handle = info :: v s'.fatfs handle) := by
  intro info s'
  obtain ⟨hend, hnext, hleft⟩ := laws.f_readdir_ok handle s hfr
  rw [show v s'.fatfs handle = (v s.fatfs handle).tail from hleft]
  rcases hlist : v s.fatfs handle with - | ⟨first, rest⟩
  · exact ⟨fun _ => ⟨rfl, rfl⟩, fun hname => absurd (hend hlist) hname⟩
  rw [hlist] at hnext
  have hfirst : info = first := hnext first rfl
  have hname := (laws.plain s.fatfs handle first (hlist ▸ List.mem_cons_self)).1
  exact ⟨fun h => absurd (hfirst ▸ h) hname, fun _ => by rw [hfirst, List.tail_cons]⟩

/-- The loop passes the entries that are skipped, and delivers the first of the others. -/
theorem readdirLoop_delivers (s : Storage σ) (hok : (readdirLoop ff handle 13 s).1 ≠ .error) :
    (readdirLoop ff handle 13 s).1.delivered = (s.toDeliver v handle).head? ∧
      (readdirLoop ff handle 13 s).2.toDeliver v handle = (s.toDeliver v handle).tail := by
  fun_induction readdirLoop ff handle 13 s with
  | case1 s r s' hfr => exact absurd rfl hok
  | case2 s r s' hfr hend =>
    obtain ⟨hnone, hleft⟩ := (laws.next (not_not.1 hfr)).1 hend
    simp only [Storage.toDeliver, hnone, show v s'.fatfs handle = [] from hleft]
    exact ⟨rfl, rfl⟩
  | case3 s r s' hfr hend hskip ih =>
    have hlist := (laws.next (not_not.1 hfr)).2 hend
    have hsame : s.toDeliver v handle = s'.toDeliver v handle := by
      rw [Storage.toDeliver, hlist, List.filterMap_cons_none (by rw [dirent, hskip]; rfl)]
      rfl
    rw [hsame]
    exact ih hok
  | case4 s r s' hfr hend name hname hlong => exact absurd rfl hok
  | case5 s r s' hfr hend name hname hfits =>
    have hlist := (laws.next (not_not.1 hfr)).2 hend
    have hfirst : s.toDeliver v handle = ⟨name, r.2.fattrib, r.2.fsize⟩ :: s'.toDeliver v handle := by
      rw [Storage.toDeliver, hlist, List.filterMap_cons_some (by rw [dirent, hname]; rfl)]
      rfl
    rw [hfirst]
    exact ⟨rfl, rfl⟩

omit laws in
/-- `rp_fs_readdir()` is its loop on an open handle, and fails on another. -/
theorem rpFsReaddir_eq (ff : FatFs σ) (handle : UInt8) (s : Storage σ) :
    ((rpFsReaddir ff handle 13).result s =
      if s.dirIsOpen handle = false ∨ (13 : Nat) < 13 then .error else (readdirLoop ff handle 13 s).1) ∧
    (rpFsReaddir ff handle 13).final s =
      if s.dirIsOpen handle = false ∨ (13 : Nat) < 13 then s else (readdirLoop ff handle 13 s).2 := by
  constructor
  · refine Eq.trans ?_ (Prog.result_ite _ (pure .error) (readdirLoop ff handle 13) s)
    rfl
  · refine Eq.trans ?_ (Prog.final_ite _ (pure .error) (readdirLoop ff handle 13) s)
    rfl

/-- `rp_fs_readdir()` delivers the first entry that is left, or the end. -/
theorem rpFsReaddir_delivers {s : Storage σ} (hok : (rpFsReaddir ff handle 13).result s ≠ .error) :
    ((rpFsReaddir ff handle 13).result s).delivered = (s.toDeliver v handle).head? ∧
      ((rpFsReaddir ff handle 13).final s).toDeliver v handle = (s.toDeliver v handle).tail := by
  obtain ⟨hres, hfin⟩ := rpFsReaddir_eq ff handle s
  rw [hres] at hok ⊢
  rw [hfin]
  split at hok
  · exact absurd rfl hok
  · rename_i hopen
    rw [if_neg hopen, if_neg hopen]
    exact readdirLoop_delivers laws s hok

end Readdir

/-! ## Requests in between -/

/-- The handle is in use or not as before, and its directory has the same entries to deliver. -/
structure SameListing (v : DirView σ) (handle : UInt8) (s s' : Storage σ) : Prop where
  record : s'.gRPFSDirHandles handle = s.gRPFSDirHandles handle
  left : v s'.fatfs handle = v s.fatfs handle

/-- What an open handle has to deliver is kept. -/
def ListingKept (v : DirView σ) (handle : UInt8) (s s' : Storage σ) : Prop :=
  s.dirIsOpen handle = true → SameListing v handle s s'

/-- The operations that change no directory. -/
def browsingOperations : List UInt8 :=
  [RP_FS_OP_READ, RP_FS_OP_WRITE, RP_FS_OP_SEEK, RP_FS_OP_TELL, RP_FS_OP_STATUS, RP_FS_OP_OPENDIR, RP_FS_OP_READDIR,
    RP_FS_OP_CLOSEDIR, RP_FS_OP_CHDIR, RP_FS_OP_GETCWD]

/-- The request changes no directory and does not use the handle. -/
structure Firmware.BrowsesElsewhere (f : Firmware σ) (handle : UInt8) : Prop where
  operation : f.hw.view.peek RP_STATE ∈ browsingOperations
  handle : f.hw.view.peek RP_STATE ∈ [RP_FS_OP_READDIR, RP_FS_OP_CLOSEDIR] → f.hw.view.peek RP_ARG2L ≠ handle

section Between

variable {v : DirView σ} {handle : UInt8}

theorem SameListing.dirIsOpen {s s' : Storage σ} (h : SameListing v handle s s') :
    s'.dirIsOpen handle = s.dirIsOpen handle := by
  rw [Storage.dirIsOpen, Storage.dirIsOpen, h.record]

instance : Std.Refl (ListingKept v handle) where
  refl _ _ := ⟨rfl, rfl⟩

instance : IsTrans (Storage σ) (ListingKept v handle) where
  trans _ _ _ h h' hopen :=
    have hfirst := h hopen
    have hnext := h' (hfirst.dirIsOpen.trans hopen)
    ⟨hnext.record.trans hfirst.record, hnext.left.trans hfirst.left⟩

/-- A call that changes no table and nothing of what the slot delivers. -/
theorem listingKept_of_call {s s' : Storage σ} (htables : SameTables s s')
    (hleft : v s'.fatfs handle = v s.fatfs handle) : ListingKept v handle s s' :=
  fun _ => ⟨congrFun htables.dirHandles handle, hleft⟩

theorem listingKept_setDirHandle {slot : UInt8} (hne : slot ≠ handle) (s : Storage σ) (r : RPFSDirHandle) :
    ListingKept v handle s (s.setDirHandle slot r) :=
  fun _ => ⟨Function.update_of_ne hne.symm _ _, rfl⟩

variable {ff : FatFs σ} (laws : DirLaws ff v) (tables : TableLaws ff)

include laws tables

theorem listingKept_mount (device : UInt8) : Prog.Keeps (ListingKept v handle) (ensureMounted ff device) :=
  keeps_ensureMounted
    (fun device s => listingKept_of_call (tables.f_mount device s) (congrFun (laws.f_mount device s) handle))
    (fun _ _ _ => ⟨rfl, rfl⟩) device

variable (handle) in
/-- A directory is opened in a slot that is not in use. -/
theorem opendir_keeps (device : UInt8) (dirname : List UInt8) (s : Storage σ) :
    let m := rpFsOpendir83 ff device dirname
    ListingKept v handle s (m.final s) ∧
      ∀ slot, m.result s = some slot → s.dirIsOpen handle = true → slot ≠ handle := by
  have hmount : ListingKept v handle s ((ensureMounted ff device).final s) := listingKept_mount laws tables device s
  rcases rpFsOpendir83_final ff device dirname s with ⟨hres, hfin⟩ | ⟨slot, path, -, hslot, -, hopened⟩
  · exact ⟨hfin ▸ hmount, fun slot h => absurd (hres.symm.trans h) nofun⟩
  have hne (hopen : s.dirIsOpen handle = true) : slot ≠ handle := by
    rintro rfl
    have hused := (hmount hopen).dirIsOpen.trans hopen
    rw [Storage.dirIsOpen, (freeDirSlot_spec hslot).2, Bool.and_false] at hused
    cases hused
  have hcall (hopen : s.dirIsOpen handle = true) : ListingKept v handle s
      ((ff.f_opendir slot path).final ((ensureMounted ff device).final s)) :=
    trans_of (ListingKept v handle) hmount
      (listingKept_of_call (tables.f_opendir slot path _) (laws.f_opendir slot path _ handle (hne hopen).symm))
  rcases hopened with ⟨hres, hfin⟩ | ⟨-, hres, hfin⟩
  · exact ⟨fun hopen => hfin ▸ hcall hopen hopen, fun slot h => absurd (hres.symm.trans h) nofun⟩
  · refine ⟨fun hopen => ?_, fun slot' h hopen => Option.some.inj (hres.symm.trans h) ▸ hne hopen⟩
    rw [hfin]
    exact trans_of (ListingKept v handle) (hcall hopen) (listingKept_setDirHandle (hne hopen) _ _) hopen

theorem listingKept_closedir {slot : UInt8} (hne : slot ≠ handle) :
    Prog.Keeps (ListingKept v handle) (rpFsClosedir ff slot) := by
  refine Prog.Keeps.get.bind fun _ => Prog.Keeps.ite (fun _ => ?_) fun _ => Prog.Keeps.pure false
  have hclose : Prog.Keeps (ListingKept v handle) (ff.f_closedir slot) := fun s =>
    listingKept_of_call (tables.f_closedir slot s) (laws.f_closedir slot s handle hne.symm)
  exact hclose.bind fun fr => (Prog.Keeps.modify fun s => listingKept_setDirHandle hne s _).bind fun _ =>
    Prog.Keeps.pure _

theorem listingKept_readdir {slot : UInt8} (hne : slot ≠ handle) (n : Nat) :
    Prog.Keeps (ListingKept v handle) (rpFsReaddir ff slot n) := by
  have hcall : Prog.Keeps (ListingKept v handle) (ff.f_readdir slot) := fun s =>
    listingKept_of_call (tables.f_readdir slot s) (laws.f_readdir slot s handle hne.symm)
  have hloop (s : Storage σ) : ListingKept v handle s (readdirLoop ff slot n s).2 := by
    fun_induction NeoMmu.readdirLoop ff slot n s with
    | case1 s r s' hfr => exact hcall s
    | case2 s r s' hfr hend => exact hcall s
    | case3 s r s' hfr hend hskip ih => exact trans_of (ListingKept v handle) (hcall s) ih
    | case4 s r s' hfr hend name hname hlong => exact hcall s
    | case5 s r s' hfr hend name hname hfits => exact hcall s
  exact Prog.Keeps.get.bind fun _ => Prog.Keeps.ite (fun _ => Prog.Keeps.pure _) fun _ => hloop

variable {f : Firmware σ} (pid context : UInt8)

/-- CHDIR opens a directory to see that it is there, and closes it again. -/
theorem listingKept_chdir (args_ptr : UInt16) :
    Prog.Keeps (OnStorage (ListingKept v handle)) (rpFsMbExecChdir ff pid context args_ptr) := by
  have hrules : RequestRules (OnStorage (σ := σ) (ListingKept v handle)) (ListingKept v handle) context :=
    requestRules_onStorage _
  refine hrules.withArgs fun raw => hrules.withPath fun path f hopen => ?_
  obtain ⟨hopened, hslot⟩ := opendir_keeps handle laws tables path.device path.path f.storage
  simp only [Prog.final_bind, onStorage, Prog.result_on, Prog.final_on]
  generalize (rpFsOpendir83 ff path.device path.path).final f.storage = s at hopened ⊢
  rcases hres : (rpFsOpendir83 ff path.device path.path).result f.storage with - | slot
  · exact trans_of (ListingKept v handle) hopened (hrules.deviceError path.device { f with storage := s }) hopen
  have hclosed := trans_of (ListingKept v handle) hopened (listingKept_closedir laws tables (hslot slot hres hopen) s)
  simp only [Prog.final_bind, Prog.result_on, Prog.final_on]
  generalize (rpFsClosedir ff slot).final s = s₁ at hclosed
  have hset : Prog.Keeps (OnStorage (ListingKept (σ := σ) v handle)) (setCwd pid path) :=
    Prog.Keeps.get.bind fun _ => (hrules.cwd _).bind fun _ => Prog.Keeps.pure _
  have hend : ∀ close_ok : Bool, Prog.Keeps (OnStorage (ListingKept (σ := σ) v handle)) (do
      if close_ok = false then
        fsMbError RP_ERR_EIO 0
      else
        if ← setCwd pid path then
          fsMbDone 0 path.device
        else
          fsMbError RP_ERR_EIO 0) := fun close_ok =>
    Prog.Keeps.ite (fun _ => hrules.error _ _) fun _ => hset.bind fun ok =>
      Prog.Keeps.ite (fun _ => hrules.done _ _) fun _ => hrules.error _ _
  exact trans_of (ListingKept v handle) hclosed (hend _ { f with storage := s₁ }) hopen

/-- A request in between, behind the check of PID and context. -/
theorem listingKept_checked (hf : f.hw.Settled) (hread : ReadsAtMost ff) (helsewhere : f.BrowsesElsewhere handle) :
    ListingKept v handle f.storage ((checkedOperation ff (f.hw.view.peek RP_STATE) pid context).final f).storage := by
  obtain ⟨hop, hhandle⟩ := helsewhere
  have hrules : RequestRules (OnStorage (σ := σ) (ListingKept v handle)) (ListingKept v handle) context :=
    requestRules_onStorage _
  generalize f.hw.view.peek RP_STATE = op at hop hhandle ⊢
  by_cases hrefused : RP_FS_NEOX_MAX_PROCS ≤ pid ∨ maxContexts ≤ context
  · rw [checkedOperation, if_pos hrefused]
    exact hrules.error _ _ f
  rw [checkedOperation, if_neg hrefused]
  simp only [browsingOperations, List.mem_cons, List.not_mem_nil, or_false] at hop
  rcases hop with rfl | rfl | rfl | rfl | rfl | rfl | rfl | rfl | rfl | rfl
  · have hcall (slot : UInt8) : ∀ len, Prog.Keeps (ListingKept v handle) (ff.f_read slot len) := fun len s =>
      listingKept_of_call (tables.f_read slot len s) (congrFun (laws.f_read slot len s) handle)
    rw [execOperation_read]
    exact hrules.arg0 (fun _ => hrules.arg2L fun slot => hrules.keeps_read _ _ hread (keeps_rpFsRead (hcall slot))) f
  · have hcall (slot : UInt8) : ∀ src, Prog.Keeps (ListingKept v handle) (ff.f_write slot src) := fun src s =>
      listingKept_of_call (tables.f_write slot src s) (congrFun (laws.f_write slot src s) handle)
    rw [execOperation_write]
    exact hrules.arg0 (fun _ => hrules.arg2L fun slot => hrules.keeps_write _ _ (keeps_rpFsWrite (hcall slot))) f
  · have hcall (slot : UInt8) : ∀ position, Prog.Keeps (ListingKept v handle) (ff.f_lseek slot position) :=
      fun position s =>
        listingKept_of_call (tables.f_lseek slot position s) (congrFun (laws.f_lseek slot position s) handle)
    rw [execOperation_seek]
    exact hrules.arg0 (fun _ => hrules.arg2L fun slot => hrules.keeps_seek _ _ (keeps_rpFsSeek (hcall slot))) f
  · rw [execOperation_tell]
    exact hrules.arg0 (fun _ => hrules.arg2L fun _ => hrules.keeps_tell _ _) f
  · have hstatus : execOperation ff RP_FS_OP_STATUS pid context = rpFsMbExecStatus := rfl
    rw [hstatus]
    exact Prog.Keeps.get.bind (fun _ => hrules.done _ _) f
  · rw [execOperation_opendir]
    have hopendir := fun device path s => (opendir_keeps handle laws tables device path s).1
    exact hrules.arg0 (fun _ => hrules.keeps_opendir pid _ hopendir) f
  · rw [execOperation_readdir]
    exact onStorage_withHandle hf fun _ =>
      hrules.keeps_readdir _ _ (listingKept_readdir laws tables (hhandle (by simp)))
  · obtain ⟨m, -, -, hfin⟩ := final_readArg2L hf (rpFsMbExecClosedir ff)
    rw [execOperation_closedir, hfin]
    exact hrules.keeps_closedir _ (listingKept_closedir laws tables (hhandle (by simp))) { f with hw := m }
  · rw [execOperation_chdir]
    exact hrules.arg0 (fun _ => listingKept_chdir laws tables pid context _) f
  · rw [execOperation_getcwd]
    exact hrules.arg0 (fun _ => hrules.keeps_getcwd pid _) f

omit pid context in
/-- A request in between keeps what an open handle has to deliver. -/
theorem listingKept_request (hf : f.hw.Settled) (hread : ReadsAtMost ff) (helsewhere : f.BrowsesElsewhere handle) :
    ListingKept v handle f.storage ((rpFsMailboxHandleExec ff).final f).storage := by
  obtain ⟨m₀, op, pid, context, hblock, -, hfin⟩ := final_rpFsMailboxHandleExec ff f
  obtain ⟨hm₀, hview₀, rfl, rfl, rfl⟩ := hblock hf
  have helsewhere₀ : Firmware.BrowsesElsewhere { f with hw := m₀ } handle :=
    ⟨hview₀ ▸ helsewhere.operation, hview₀ ▸ helsewhere.handle⟩
  have hchecked := listingKept_checked laws tables (f.hw.view.peek RP_ARG1L) (f.hw.view.peek RP_ARG1H)
    (f := { f with hw := m₀ }) hm₀ hread helsewhere₀
  rw [hview₀] at hchecked
  rw [hfin]
  exact hchecked

end Between

/-! ## READDIR -/

/-- A READDIR in the block. -/
structure Firmware.Lists (f : Firmware σ) (handle : UInt8) (dst : UInt16) : Prop where
  operation : f.hw.view.peek RP_STATE = RP_FS_OP_READDIR
  handle : f.hw.view.peek RP_ARG2L = handle
  args : (f.hw.view.contextBlock (f.hw.view.peek RP_ARG1H) (f.hw.view.peek16 RP_ARG0L) 6).map (rpFsMbU16 · 2) =
    some dst

/-- What the reply to a READDIR shows: an entry, whose record lies at the target but where the reply has been put over
it, or the end. -/
structure ShowsEntry (context : UInt8) (dst : UInt16) (f f' : Firmware σ) (shown : Option Dirent) : Prop where
  result : f'.hw.view.peek16 RP_RES0L = if shown.isSome then 1 else 0
  flags : f'.hw.view.peek RP_FLAGS = if shown.isSome then 0 else RP_FS_FLAG_EOF
  stored : ∀ e ∈ shown, ∀ i (hi : i < e.record.length),
    let cell := (f.hw.view.inContext context).physAddr (dst + UInt16.ofNat i)
    (∀ a ∈ replyAddresses, f'.hw.view.physAddr a ≠ cell) → f'.hw.ram cell = e.record[i]

/-- A READDIR that is served delivers the next entry. -/
structure ServesEntry (v : DirView σ) (handle context : UInt8) (dst : UInt16) (f f' : Firmware σ) : Prop where
  shows : ShowsEntry context dst f f' (f.storage.toDeliver v handle).head?
  rest : f'.storage.toDeliver v handle = (f.storage.toDeliver v handle).tail
  isOpen : f'.storage.dirIsOpen handle = true

/-- What comes before a READDIR and changes neither the storage nor what its context sees makes no difference. -/
theorem ServesEntry.of_same {v : DirView σ} {handle context : UInt8} {dst : UInt16} {f f₁ f' : Firmware σ}
    (h : ServesEntry v handle context dst f₁ f') (hstorage : f₁.storage = f.storage)
    (hview : f₁.hw.view.inContext context = f.hw.view.inContext context) : ServesEntry v handle context dst f f' := by
  obtain ⟨⟨hresult, hflags, hstored⟩, hrest, hopen⟩ := h
  rw [hstorage] at hresult hflags hstored hrest
  rw [hview] at hstored
  exact ⟨⟨hresult, hflags, hstored⟩, hrest, hopen⟩

section Readdir

variable {ff : FatFs σ} {v : DirView σ} (laws : DirLaws ff v) (tables : TableLaws ff) {handle context : UInt8}
  {f : Firmware σ} (hf : f.hw.Settled)

/-- `rp_fs_mb_exec_readdir()` behind its argument block. -/
def readdirBehindBlock (ff : FatFs σ) (handle context : UInt8) (dst dst_len : UInt16) :
    Prog (Firmware σ) MailboxState :=
  withOpen (fun f => f.storage.dirIsOpen handle) <|
    if dst_len < RP_FS_DIRENT_SIZE ∨ rpFsMbPrivateRange dst RP_FS_DIRENT_SIZE = false then
      fsMbError RP_ERR_EINVAL 0
    else do
      match ← onStorage (rpFsReaddir ff handle 13) with
      | .error => fsMbError RP_ERR_EIO 0
      | .eof => fsMbDone 0 RP_FS_FLAG_EOF
      | .entry name attr size =>
        withResult context dst (direntBytes name attr size) (fsMbDone 1 0)

theorem rpFsMbExecReaddir_eq (ff : FatFs σ) (context : UInt8) (args_ptr : UInt16) (handle : UInt8) :
    rpFsMbExecReaddir ff context args_ptr handle = withArgs context args_ptr 6 (fun _ => true) fun raw =>
      readdirBehindBlock ff handle context (rpFsMbU16 raw 2) (rpFsMbU16 raw 4) := rfl

include laws tables hf

/-- A READDIR that is served, behind its argument block. -/
theorem servesEntry_behindBlock (hc : context < maxContexts) {dst dst_len : UInt16}
    (hdone : ((readdirBehindBlock ff handle context dst dst_len).final f).hw.view.peek RP_STATUS = RP_DONE) :
    ServesEntry v handle context dst f ((readdirBehindBlock ff handle context dst dst_len).final f) := by
  have herror : ∀ {g : Firmware σ}, g.hw.Settled → ∀ err,
      ((fsMbError err 0).final g).hw.view.peek RP_STATUS ≠ RP_DONE :=
    fun hg err => not_done_of_failed (error_spec hg err 0).2
  rw [readdirBehindBlock, withOpen, Prog.final_bind, Prog.result_get, Prog.final_get, Prog.final_ite] at hdone ⊢
  by_cases hopen : f.storage.dirIsOpen handle = true
  swap
  · rw [if_neg hopen] at hdone
    exact absurd hdone (herror hf _)
  rw [if_pos hopen, Prog.final_ite] at hdone ⊢
  by_cases hrange : dst_len < RP_FS_DIRENT_SIZE ∨ rpFsMbPrivateRange dst RP_FS_DIRENT_SIZE = false
  · rw [if_pos hrange] at hdone
    exact absurd hdone (herror hf _)
  rw [if_neg hrange, Prog.final_bind, onStorage, Prog.result_on, Prog.final_on] at hdone ⊢
  rw [not_or, Bool.not_eq_false] at hrange
  have hkept : SameTables f.storage ((rpFsReaddir ff handle 13).final f.storage) :=
    keeps_rpFsReaddir tables.f_readdir handle 13 f.storage
  have hopen' : ((rpFsReaddir ff handle 13).final f.storage).dirIsOpen handle = true :=
    (hkept.dirIsOpen handle).trans hopen
  have hdelivers (hok : (rpFsReaddir ff handle 13).result f.storage ≠ .error) := rpFsReaddir_delivers laws hok
  generalize (rpFsReaddir ff handle 13).final f.storage = s at hdone hopen' hdelivers ⊢
  generalize (rpFsReaddir ff handle 13).result f.storage = r at hdone hdelivers ⊢
  rcases r with ⟨name, attr, size⟩ | - | -
  · obtain ⟨hhead, htail⟩ := hdelivers (by simp)
    have hlength : (direntBytes name attr size).length ≤ 4096 := by
      rw [length_direntBytes]
      decide
    have hfits : rpFsMbPrivateRange dst (UInt16.ofNat (direntBytes name attr size).length) = true := by
      rw [length_direntBytes]
      exact hrange.2
    -- The record goes into the target before the reply is written.
    obtain ⟨hwritten, hstorage, hsettled, hcells⟩ :=
      writeContextBlock_spec (f := { f with storage := s }) hf hc hlength hfits
    dsimp only
    rw [withResult, Prog.final_bind, hwritten, if_pos rfl]
    generalize (rpFsMbWriteContextBlock context dst (direntBytes name attr size)).final { f with storage := s } = g
      at hstorage hsettled hcells ⊢
    have huntouched := untouched_fsMbDone hsettled 1 0
    obtain ⟨-, -, hresult⟩ := done_spec hsettled 1 0
    have hs : ((fsMbDone 1 0).final g).storage = s := huntouched.storage.trans hstorage
    refine ⟨⟨?_, ?_, ?_⟩, by rw [hs]; exact htail, by rw [hs]; exact hopen'⟩
    · rw [← hhead]
      exact hresult
    · rw [← hhead]
      exact done_flags hsettled 1 0
    · rw [← hhead]
      rintro e ⟨⟩ i hi cell hcell
      rw [huntouched.ram cell hcell]
      exact hcells i hi
  · obtain ⟨hhead, htail⟩ := hdelivers (by simp)
    have hsettled : ({ f with storage := s } : Firmware σ).hw.Settled := hf
    have huntouched := untouched_fsMbDone hsettled 0 RP_FS_FLAG_EOF
    dsimp only
    obtain ⟨-, -, hresult⟩ := done_spec hsettled 0 RP_FS_FLAG_EOF
    have hs : ((fsMbDone 0 RP_FS_FLAG_EOF).final { f with storage := s }).storage = s := huntouched.storage
    refine ⟨⟨?_, ?_, ?_⟩, by rw [hs]; exact htail, by rw [hs]; exact hopen'⟩
    · rw [← hhead]
      exact hresult
    · rw [← hhead]
      exact done_flags hsettled 0 RP_FS_FLAG_EOF
    · rw [← hhead]
      rintro e ⟨⟩
  · exact absurd hdone (herror (g := { f with storage := s }) hf _)

/-- A READDIR that is served. -/
theorem exec_readdir {args_ptr : UInt16} {raw : List UInt8} (hc : context < maxContexts)
    (hblock : f.hw.view.contextBlock context args_ptr 6 = some raw)
    (hdone : ((rpFsMbExecReaddir ff context args_ptr handle).final f).hw.view.peek RP_STATUS = RP_DONE) :
    ServesEntry v handle context (rpFsMbU16 raw 2) f ((rpFsMbExecReaddir ff context args_ptr handle).final f) := by
  rw [rpFsMbExecReaddir_eq] at hdone ⊢
  obtain ⟨f₁, hreads, hfin⟩ := final_withArgs hf context args_ptr 6 (fun _ => true) _
  rw [hfin, hblock] at hdone ⊢
  have hserves := servesEntry_behindBlock laws tables (hreads.board hf).1 hc hdone
  exact hserves.of_same hreads.storage (hreads.inContext hf _)

/-- A READDIR that is served, behind the check of PID and context. -/
theorem servesEntry_checked {dst : UInt16} (hlists : f.Lists handle dst)
    (hdone : ((checkedOperation ff RP_FS_OP_READDIR (f.hw.view.peek RP_ARG1L)
      (f.hw.view.peek RP_ARG1H)).final f).hw.view.peek RP_STATUS = RP_DONE) :
    ServesEntry v handle (f.hw.view.peek RP_ARG1H) dst f
      ((checkedOperation ff RP_FS_OP_READDIR (f.hw.view.peek RP_ARG1L) (f.hw.view.peek RP_ARG1H)).final f) := by
  obtain ⟨-, rfl, hargs⟩ := hlists
  obtain ⟨raw, hraw, rfl⟩ := Option.map_eq_some_iff.1 hargs
  rw [checkedOperation] at hdone ⊢
  have hc : ¬ (RP_FS_NEOX_MAX_PROCS ≤ f.hw.view.peek RP_ARG1L ∨ maxContexts ≤ f.hw.view.peek RP_ARG1H) := by
    intro hrefused
    rw [if_pos hrefused] at hdone
    exact not_done_of_failed (error_spec hf RP_ERR_EINVAL 0).2 hdone
  rw [if_neg hc, execOperation_readdir] at hdone ⊢
  obtain ⟨m₁, hm₁, hview₁, hfin₁⟩ := final_readArg0 hf fun a => do
    rpFsMbExecReaddir ff (f.hw.view.peek RP_ARG1H) a (← readArg2L)
  obtain ⟨m₂, hm₂, hview₂, hfin₂⟩ := final_readArg2L (f := { f with hw := m₁ }) hm₁
    (rpFsMbExecReaddir ff (f.hw.view.peek RP_ARG1H) (f.hw.view.peek16 RP_ARG0L))
  rw [hfin₁, hfin₂, hview₁] at hdone ⊢
  have hview : m₂.view = f.hw.view := hview₂.trans hview₁
  have hblock : m₂.view.contextBlock (f.hw.view.peek RP_ARG1H) (f.hw.view.peek16 RP_ARG0L) 6 = some raw :=
    hview.symm ▸ hraw
  have hserves := exec_readdir laws tables (f := { f with hw := m₂ }) hm₂ (UInt8.not_le.1 fun h => hc (.inr h))
    hblock hdone
  generalize (rpFsMbExecReaddir ff _ _ _).final { f with hw := m₂ } = g at hserves ⊢
  exact hserves.of_same rfl (congrArg (fun w : Machine.View => w.inContext (f.hw.view.peek RP_ARG1H)) hview)

/-- A READDIR that is served delivers the next entry. -/
theorem servesEntry_request {dst : UInt16} (hlists : f.Lists handle dst)
    (hdone : ((rpFsMailboxHandleExec ff).final f).hw.view.peek RP_STATUS = RP_DONE) :
    ServesEntry v handle (f.hw.view.peek RP_ARG1H) dst f ((rpFsMailboxHandleExec ff).final f) := by
  obtain ⟨m₀, op, pid, context, hblock, -, hfin⟩ := final_rpFsMailboxHandleExec ff f
  obtain ⟨hm₀, hview₀, rfl, rfl, rfl⟩ := hblock hf
  have hlists₀ : Firmware.Lists { f with hw := m₀ } handle dst :=
    ⟨hview₀ ▸ hlists.operation, hview₀ ▸ hlists.handle, hview₀ ▸ hlists.args⟩
  have hchecked := servesEntry_checked laws tables (f := { f with hw := m₀ }) hm₀ hlists₀
  rw [hview₀] at hchecked
  rw [hfin, hlists.operation] at hdone ⊢
  generalize (checkedOperation ff RP_FS_OP_READDIR _ _).final { f with hw := m₀ } = g at hdone hchecked ⊢
  have hsame : m₀.view.inContext (f.hw.view.peek RP_ARG1H) = f.hw.view.inContext (f.hw.view.peek RP_ARG1H) := by
    rw [hview₀]
  obtain ⟨⟨hresult, hflags, hstored⟩, hrest, hopen⟩ := (hchecked hdone).of_same (f := f) rfl hsame
  exact ⟨⟨hresult, hflags, hstored⟩, hrest, hopen⟩

end Readdir

/-! ## Runs -/

/-- Requests of some clients that are served one after the other, from one storage to another: READDIRs on the
handle, with their targets, and requests that change no directory and do not use the handle. All but the storage may
change in between. -/
inductive ListingRun (ff : FatFs σ) (handle : UInt8) :
    Storage σ → List (Firmware σ × UInt16) → Storage σ → Prop
  | done (s : Storage σ) : ListingRun ff handle s [] s
  | readdir (f : Firmware σ) {dst : UInt16} (settled : f.hw.Settled) (lists : f.Lists handle dst)
    (served : ((rpFsMailboxHandleExec ff).final f).hw.view.peek RP_STATUS = RP_DONE)
    {rest : List (Firmware σ × UInt16)} {s' : Storage σ}
    (next : ListingRun ff handle ((rpFsMailboxHandleExec ff).final f).storage rest s') :
    ListingRun ff handle f.storage ((f, dst) :: rest) s'
  | other (f : Firmware σ) (settled : f.hw.Settled) (elsewhere : f.BrowsesElsewhere handle)
    {rest : List (Firmware σ × UInt16)} {s' : Storage σ}
    (next : ListingRun ff handle ((rpFsMailboxHandleExec ff).final f).storage rest s') :
    ListingRun ff handle f.storage rest s'

section Runs

variable {ff : FatFs σ} {v : DirView σ} (laws : DirLaws ff v) (tables : TableLaws ff) (hread : ReadsAtMost ff)
  {handle : UInt8} {s s' : Storage σ} {requests : List (Firmware σ × UInt16)}

include laws tables hread

/-- Each READDIR of a run shows the entry of its number, and those behind are left. -/
theorem shows_of_listingRun (hrun : ListingRun ff handle s requests s') (hopen : s.dirIsOpen handle = true) :
    (∀ i (hi : i < requests.length),
      let f := requests[i].1
      ShowsEntry (f.hw.view.peek RP_ARG1H) requests[i].2 f ((rpFsMailboxHandleExec ff).final f)
        (s.toDeliver v handle)[i]?) ∧
      s'.toDeliver v handle = (s.toDeliver v handle).drop requests.length := by
  induction hrun with
  | done s => exact ⟨fun i hi => absurd hi (Nat.not_lt_zero i), rfl⟩
  | other f settled elsewhere next ih =>
    have hkept := listingKept_request laws tables settled hread elsewhere hopen
    have hsame : ((rpFsMailboxHandleExec ff).final f).storage.toDeliver v handle = f.storage.toDeliver v handle := by
      rw [Storage.toDeliver, hkept.left, Storage.toDeliver]
    rw [← hsame]
    exact ih (hkept.dirIsOpen.trans hopen)
  | @readdir f dst settled lists served rest s' next ih =>
    obtain ⟨hshows, hrest, hopen'⟩ := servesEntry_request laws tables settled lists served
    obtain ⟨ihshows, ihrest⟩ := ih hopen'
    rw [hrest] at ihshows ihrest
    refine ⟨fun i hi => ?_, ?_⟩
    · cases i with
      | zero =>
        rw [← List.head?_eq_getElem?]
        exact hshows
      | succ i =>
        have hnext := ihshows i (Nat.lt_of_succ_lt_succ hi)
        rw [List.getElem?_tail] at hnext
        exact hnext
    · rw [ihrest, List.drop_tail, List.length_cons]

/-- The READDIRs of a handle deliver the entries of its directory that have an 8.3 name, in order and each of them
once, and after the last one the end, whatever requests that change no directory come in between; and each entry can
be read from its record. -/
theorem directory_listed_once (hrun : ListingRun ff handle s requests s') (hopen : s.dirIsOpen handle = true) :
    let entries := s.toDeliver v handle
    (∀ i (hi : i < requests.length),
      let f := requests[i].1
      ShowsEntry (f.hw.view.peek RP_ARG1H) requests[i].2 f ((rpFsMailboxHandleExec ff).final f) entries[i]?) ∧
      s'.toDeliver v handle = entries.drop requests.length ∧
      ∀ e ∈ entries, Dirent.ofRecord e.record = e := by
  intro entries
  obtain ⟨hshows, hrest⟩ := shows_of_listingRun laws tables hread hrun hopen
  refine ⟨hshows, hrest, fun e he => ?_⟩
  obtain ⟨info, hinfo, hdirent⟩ := List.mem_filterMap.1 he
  exact Dirent.ofRecord_record (fits_of_dirent (laws.plain s.fatfs handle info hinfo).2 hdirent)

end Runs

/-! ## A directory of three entries, of which one is skipped -/

namespace DirDisk

/-- The entries that each slot has still to deliver. -/
abbrev State : Type := UInt8 → List { info : FILINFO // info.fname ≠ [] ∧ info.Plain }

/-- A dot entry, a long name and a short one. -/
def directory : List { info : FILINFO // info.fname ≠ [] ∧ info.Plain } :=
  [⟨⟨ascii ".", ascii ".", 0x10, 0⟩, by decide⟩, ⟨RamDisk.gamesEntry, by decide⟩,
    ⟨⟨ascii "README.TXT", ascii "README.TXT", 0x20, 300⟩, by decide⟩]

/-- A FatFs without files in which every directory is `directory`. -/
def fatFs : FatFs State where
  f_mount _ := return FR_OK
  f_open _ _ _ := return RamDisk.FR_NO_FILE
  f_close _ := return FR_OK
  f_read _ _ := return (FR_OK, [])
  f_write _ _ := return (FR_OK, 0)
  f_lseek _ _ := return FR_OK
  f_size _ _ := 0
  f_tell _ _ := 0
  f_unlink _ := return RamDisk.FR_NO_FILE
  f_rename _ _ := return RamDisk.FR_NO_FILE
  f_mkdir _ := return RamDisk.FR_NO_PATH
  f_opendir slot _ := do
    modify fun s => { s with fatfs := Function.update s.fatfs slot directory }
    return FR_OK
  f_readdir slot := do
    let entries := (← get).fatfs slot
    modify fun s => { s with fatfs := Function.update s.fatfs slot entries.tail }
    return (FR_OK, (entries.head?.map Subtype.val).getD ⟨[], [], 0, 0⟩)
  f_closedir _ := return FR_OK
  entriesLeft slot s := (s.fatfs slot).length
  entriesLeft_readdir slot s _ hname := by
    rcases hlist : s.fatfs slot with - | ⟨info, rest⟩
    · simp [hlist] at hname
    · simp [hlist]

/-- What the slots deliver. -/
def view : DirView State := fun x slot => (x slot).map Subtype.val

theorem dirLaws : DirLaws fatFs view where
  plain x slot info hinfo := by
    obtain ⟨⟨info', h⟩, -, rfl⟩ := List.mem_map.1 hinfo
    exact h
  f_readdir_ok slot s _ := by
    rcases hlist : s.fatfs slot with - | ⟨info, rest⟩ <;> simp [view, fatFs, hlist]
  f_readdir slot s i hi := by simp [view, fatFs, hi]
  f_mount _ _ := rfl
  f_opendir slot path s i hi := by simp [view, fatFs, hi]
  f_closedir _ _ _ _ := rfl
  f_read _ _ _ := rfl
  f_write _ _ _ := rfl
  f_lseek _ _ _ := rfl

theorem tableLaws : TableLaws fatFs where
  f_mount _ _ := ⟨rfl, rfl⟩
  f_open _ _ _ _ := ⟨rfl, rfl⟩
  f_close _ _ := ⟨rfl, rfl⟩
  f_read _ _ _ := ⟨rfl, rfl⟩
  f_write _ _ _ := ⟨rfl, rfl⟩
  f_lseek _ _ _ := ⟨rfl, rfl⟩
  f_unlink _ _ := ⟨rfl, rfl⟩
  f_rename _ _ _ := ⟨rfl, rfl⟩
  f_mkdir _ _ := ⟨rfl, rfl⟩
  f_opendir _ _ _ := ⟨rfl, rfl⟩
  f_readdir _ _ := ⟨rfl, rfl⟩
  f_closedir _ _ := ⟨rfl, rfl⟩

theorem readsAtMost : ReadsAtMost fatFs := fun _ _ _ => Nat.zero_le _

/-- Slot 0 is open. -/
def storage : Storage State where
  gRPFSHandles _ := ⟨false, 0, 0⟩
  gRPFSDirHandles slot := ⟨slot = 0, 0⟩
  gUSBFatFsMounted device := device = 0
  usbPresent device := device = 0
  fatfs slot := if slot = 0 then directory else []

/-- The firmware that is asked for an entry at `$3000`. -/
def firmware (s : Storage State) : Firmware State :=
  .start (.running fun cell => (List.lookup cell
    [((0x0B, 0x005), RP_FS_OP_READDIR), ((0x0B, 0x007), 0x02), ((0x0B, 0x008), 1), ((0x00, 0x203), 0x30),
      ((0x00, 0x204), 18)]).getD 0) s

/-- The firmware that is asked for the status. -/
def statusFirmware (s : Storage State) : Firmware State :=
  .start (.running fun cell => (List.lookup cell [((0x0B, 0x005), RP_FS_OP_STATUS), ((0x0B, 0x008), 1)]).getD 0) s

/-- What a request leaves. -/
def step (f : Firmware State) : Storage State := ((rpFsMailboxHandleExec fatFs).final f).storage

/-- The request for the second entry, behind one for the status. -/
def second : Firmware State := firmware (step (statusFirmware (step (firmware storage))))

/-- The request that meets the end. -/
def third : Firmware State := firmware (step second)

/-- The requests for entries. -/
def requests : List (Firmware State × UInt16) := [(firmware storage, 0x3000), (second, 0x3000), (third, 0x3000)]

theorem lists_firmware (s : Storage State) : (firmware s).Lists 0 0x3000 := by
  have hboard : (firmware s).hw = (firmware storage).hw := rfl
  constructor <;> rw [hboard] <;> decide +kernel

theorem served_second : ((rpFsMailboxHandleExec fatFs).final second).hw.view.peek RP_STATUS = RP_DONE := by
  decide +kernel

theorem served_third : ((rpFsMailboxHandleExec fatFs).final third).hw.view.peek RP_STATUS = RP_DONE := by
  decide +kernel

theorem listingRun_requests : ListingRun fatFs 0 storage requests (step third) := by
  have hstatus (s : Storage State) : (statusFirmware s).BrowsesElsewhere 0 := by
    have hboard : (statusFirmware s).hw = (statusFirmware storage).hw := rfl
    constructor <;> rw [hboard] <;> decide +kernel
  refine .readdir (firmware storage) (Machine.settled_running _) (lists_firmware _) (by decide +kernel) ?_
  refine .other (statusFirmware _) (Machine.settled_running _) (hstatus _) ?_
  refine .readdir second (Machine.settled_running _) (lists_firmware _) served_second ?_
  exact .readdir third (Machine.settled_running _) (lists_firmware _) served_third (.done _)

/-- The entries that the directory of handle 0 delivers. -/
def entries : List Dirent := [⟨ascii "GAMESA~1", 0, 512⟩, ⟨ascii "README.TXT", 0x20, 300⟩]

theorem toDeliver_storage : storage.toDeliver view 0 = entries := by decide +kernel

end DirDisk

theorem directory_listed_once_games :
    (∀ i (hi : i < DirDisk.requests.length),
      let f := DirDisk.requests[i].1
      ShowsEntry (f.hw.view.peek RP_ARG1H) DirDisk.requests[i].2 f ((rpFsMailboxHandleExec DirDisk.fatFs).final f)
        DirDisk.entries[i]?) ∧
      (DirDisk.step DirDisk.third).toDeliver DirDisk.view 0 = [] ∧ ∀ e ∈ DirDisk.entries, Dirent.ofRecord e.record = e := by
  obtain ⟨hshows, hrest, hrecords⟩ := directory_listed_once DirDisk.dirLaws DirDisk.tableLaws DirDisk.readsAtMost
    DirDisk.listingRun_requests (by decide)
  have hnone : DirDisk.entries.drop DirDisk.requests.length = [] := rfl
  rw [DirDisk.toDeliver_storage] at hshows hrest hrecords
  exact ⟨hshows, hrest.trans hnone, hrecords⟩

end NeoMmu
