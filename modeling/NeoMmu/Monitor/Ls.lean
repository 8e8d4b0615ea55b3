import NeoMmu.Mailbox.DirListing

/-!
# The monitor's `ls`

`ls` opens a directory, prints a line for each entry that `rp_fs_readdir()` delivers, and closes it. Every way out of
it gives the handle back.
-/

namespace NeoMmu

variable {σ : Type}

/-! ## The command -/

/-- A line of `ls`: the type character, the size and the name. -/
structure LsLine where
  type_char : Char
  size : UInt32
  name : List UInt8
  deriving DecidableEq, Repr

/-- The line of an entry. -/
def lsLine (e : Dirent) : LsLine := ⟨if e.attr &&& 0x10 ≠ 0 then 'd' else '-', e.size, e.name⟩

/-- The last message of `ls`, with the number it gives. -/
inductive LsEnd
  | notReady
  | opendirFailed
  | readdirFailed (count : UInt16)
  | closedirFailed
  | ok (entries : UInt16)
  deriving DecidableEq, Repr

/-- What `ls` prints. -/
structure LsReport where
  lines : List LsLine
  ending : LsEnd
  deriving DecidableEq, Repr

section Ls

variable (ff : FatFs σ)

/-- An entry that is delivered is one less to come. -/
theorem entriesLeft_readdirLoop {handle : UInt8} {n : Nat} {s : Storage σ} {name : List UInt8} {attr : UInt8}
    {size : UInt32} (h : (readdirLoop ff handle n s).1 = .entry name attr size) :
    ff.entriesLeft handle (readdirLoop ff handle n s).2 < ff.entriesLeft handle s := by
  fun_induction readdirLoop ff handle n s with
  | case1 s r s' hfr => cases h
  | case2 s r s' hfr hend => cases h
  | case3 s r s' hfr hend hskip ih => exact (ih h).trans (ff.entriesLeft_readdir handle s (not_not.1 hfr) hend)
  | case4 s r s' hfr hend name' hname hlong => cases h
  | case5 s r s' hfr hend name' hname hfits => exact ff.entriesLeft_readdir handle s (not_not.1 hfr) hend

theorem entriesLeft_rpFsReaddir {handle : UInt8} {s : Storage σ} {name : List UInt8} {attr : UInt8} {size : UInt32}
    (h : (rpFsReaddir ff handle 13).result s = .entry name attr size) :
    ff.entriesLeft handle ((rpFsReaddir ff handle 13).final s) < ff.entriesLeft handle s := by
  obtain ⟨hres, hfin⟩ := rpFsReaddir_eq ff handle s
  rw [hres] at h
  rw [hfin]
  split at h
  · cases h
  · rename_i hopen
    rw [if_neg hopen]
    exact entriesLeft_readdirLoop ff h

/-- `usb_storage_ready()` -/
def Storage.usbStorageReady (s : Storage σ) (device : UInt8) : Bool :=
  device < USB_STORAGE_MAX_DEVICES && s.usbPresent device && s.mounted device

/-- The entries that the loop of `ls` prints, and whether it has come to the end. -/
def lsLoop (handle : UInt8) (s : Storage σ) : (List Dirent × Bool) × Storage σ :=
  let s' := (rpFsReaddir ff handle 13).final s
  match _h : (rpFsReaddir ff handle 13).result s with
  | .error => (([], false), s')
  | .eof => (([], true), s')
  | .entry name attr size =>
    let rest := lsLoop handle s'
    ((⟨name, attr, size⟩ :: rest.1.1, rest.1.2), rest.2)
termination_by ff.entriesLeft handle s
decreasing_by exact entriesLeft_rpFsReaddir ff ‹_›

/-- `cmdLSCallback()`, behind its arguments. -/
def cmdLS (device : UInt8) (path : List UInt8) : Prog (Storage σ) LsReport := do
  if (← get).usbStorageReady device = false then
    return ⟨[], .notReady⟩
  match ← rpFsOpendir83 ff device (if path = [] then [slash] else path) with
  | none => return ⟨[], .opendirFailed⟩
  | some dir_handle =>
    let (entries, ended) ← lsLoop ff dir_handle
    let closed ← rpFsClosedir ff dir_handle
    let count := UInt16.ofNat entries.length
    return ⟨entries.map lsLine,
      if ended = false then .readdirFailed count else if closed then .ok count else .closedirFailed⟩

end Ls

/-! ## What it prints -/

section Exact

variable {ff : FatFs σ} {v : DirView σ} (laws : DirLaws ff v) (tables : TableLaws ff)

include laws in
/-- The loop prints entries in order, and all of them if it comes to the end. -/
theorem lsLoop_spec (handle : UInt8) (s : Storage σ) :
    (lsLoop ff handle s).1.1 <+: s.toDeliver v handle ∧
      ((lsLoop ff handle s).1.2 = true → (lsLoop ff handle s).1.1 = s.toDeliver v handle) := by
  fun_induction lsLoop ff handle s with
  | case1 s s' herror => exact ⟨List.nil_prefix, Bool.noConfusion⟩
  | case2 s s' hend =>
    obtain ⟨hhead, -⟩ := rpFsReaddir_delivers laws (by rw [hend]; simp)
    rw [hend] at hhead
    exact ⟨List.nil_prefix, fun _ => (List.head?_eq_none_iff.1 hhead.symm).symm⟩
  | case3 s s' name attr size hentry rest ih =>
    obtain ⟨hhead, htail⟩ := rpFsReaddir_delivers laws (by rw [hentry]; simp)
    rw [hentry] at hhead
    have hlist : s.toDeliver v handle = ⟨name, attr, size⟩ :: s'.toDeliver v handle := by
      rw [show s'.toDeliver v handle = _ from htail]
      exact List.eq_cons_of_mem_head? (Option.mem_def.2 hhead.symm)
    obtain ⟨hfront, hall⟩ := ih
    rw [hlist]
    exact ⟨List.cons_prefix_cons.2 ⟨rfl, hfront⟩, fun hended => congrArg (_ :: ·) (hall hended)⟩

include tables in
theorem sameTables_lsLoop (handle : UInt8) (s : Storage σ) : SameTables s (lsLoop ff handle s).2 := by
  have hreaddir := keeps_rpFsReaddir tables.f_readdir handle 13
  fun_induction lsLoop ff handle s with
  | case1 s s' herror => exact hreaddir s
  | case2 s s' hend => exact hreaddir s
  | case3 s s' name attr size hentry rest ih => exact trans_of SameTables (hreaddir s) ih

variable (ff) in
/-- How `ls` runs: it does nothing, fails to open the directory, or lists and closes it. -/
theorem cmdLS_cases (device : UInt8) (path : List UInt8) (s : Storage σ) :
    let opendir := rpFsOpendir83 ff device (if path = [] then [slash] else path)
    let m := cmdLS ff device path
    (m.result s = ⟨[], .notReady⟩ ∧ m.final s = s) ∨
      (opendir.result s = none ∧ m.result s = ⟨[], .opendirFailed⟩ ∧ m.final s = opendir.final s) ∨
      ∃ handle, opendir.result s = some handle ∧
        let listed := lsLoop ff handle (opendir.final s)
        let closedir := rpFsClosedir ff handle
        let count := UInt16.ofNat listed.1.1.length
        m.result s = ⟨listed.1.1.map lsLine,
          if listed.1.2 = false then .readdirFailed count
          else if closedir.result listed.2 then .ok count else .closedirFailed⟩ ∧
        m.final s = closedir.final listed.2 := by
  intro opendir m
  simp only [m, cmdLS, Prog.result_bind, Prog.final_bind, Prog.result_get, Prog.final_get, Prog.result_ite,
    Prog.final_ite, Prog.result_pure, Prog.final_pure]
  split
  · exact .inl ⟨rfl, rfl⟩
  right
  rcases hopened : opendir.result s with - | handle
  · exact .inl ⟨rfl, rfl, rfl⟩
  · exact .inr ⟨handle, rfl, rfl, rfl⟩

/-- What the last message says when it gives the number of entries. -/
theorem ending_ok {ended closed : Bool} {n count : UInt16}
    (h : (if ended = false then LsEnd.readdirFailed n else if closed then .ok n else .closedirFailed) = .ok count) :
    ended = true ∧ closed = true ∧ n = count := by
  cases ended <;> cases closed <;> simp at h
  exact ⟨rfl, rfl, h⟩

/-- `ls` prints the entries of the directory in order, all of them if it says so at its end, with their number, and
leaves the tables of handles as they were, whatever FatFs returns. -/
theorem ls_exact (laws : DirLaws ff v) (tables : TableLaws ff) {s : Storage σ} (hblank : s.Blank) (device : UInt8)
    (path : List UInt8) :
    let report := (cmdLS ff device path).result s
    let opendir := rpFsOpendir83 ff device (if path = [] then [slash] else path)
    SameTables s ((cmdLS ff device path).final s) ∧
      (∀ handle, opendir.result s = some handle →
        report.lines <+: ((opendir.final s).toDeliver v handle).map lsLine) ∧
      ∀ count, report.ending = .ok count → ∃ handle, opendir.result s = some handle ∧
        report.lines = ((opendir.final s).toDeliver v handle).map lsLine ∧
          count = UInt16.ofNat report.lines.length := by
  intro report opendir
  have hopendir := tables.opendir_spec device (if path = [] then [slash] else path) s
  rcases cmdLS_cases ff device path s with ⟨hres, hfin⟩ | ⟨hnone, hres, hfin⟩ | ⟨handle, hopened, hres, hfin⟩
  · refine ⟨.of_eq hfin, fun _ _ => ?_, fun count hok => ?_⟩ <;> simp only [report, hres] at *
    · exact List.nil_prefix
    · cases hok
  · have hsame : SameTables s (opendir.final s) := by
      rcases hopendir with ⟨-, hsame⟩ | ⟨slot, -, hsome, -⟩
      · exact hsame
      · cases hnone.symm.trans hsome
    refine ⟨hfin ▸ hsame, fun handle hsome => ?_, fun count hok => ?_⟩
    · cases hnone.symm.trans hsome
    · simp only [report, hres] at hok
      cases hok
  · obtain ⟨hlt, hfree, htables⟩ : handle < RP_FS_MAX_DIR_HANDLES ∧ (s.gRPFSDirHandles handle).in_use = false ∧
        SameTables (s.setDirHandle handle ⟨true, device⟩) (opendir.final s) := by
      rcases hopendir with ⟨hnone, -⟩ | ⟨slot, hlt, hsome, hfree, htables⟩
      · cases hnone.symm.trans hopened
      · cases hsome.symm.trans hopened
        exact ⟨hlt, hfree, htables⟩
    have hlisted := trans_of SameTables htables (sameTables_lsLoop tables handle (opendir.final s))
    have hopen : (lsLoop ff handle (opendir.final s)).2.dirIsOpen handle = true := by
      rw [hlisted.dirIsOpen]
      exact dirIsOpen_setDirHandle s hlt rfl
    have hback := SameTables.giveBackDir hblank hfree _
      (trans_of SameTables (hlisted.setDirHandle handle _) (tables.closedir_spec hopen))
    obtain ⟨hfront, hall⟩ := lsLoop_spec laws handle (opendir.final s)
    refine ⟨hfin ▸ hback, fun handle' hsome => ?_, fun count hok => ?_⟩
    · cases hopened.symm.trans hsome
      simp only [report, hres]
      exact hfront.map lsLine
    · obtain ⟨hended, hclosed, hcount⟩ := ending_ok ((congrArg LsReport.ending hres).symm.trans hok)
      have hlines := congrArg (List.map lsLine) (hall hended)
      refine ⟨handle, hopened, ?_, ?_⟩ <;> simp only [report, hres]
      · exact hlines
      · rw [List.length_map]
        exact hcount.symm

end Exact

/-- What `ls` prints of the directory of three entries. -/
def DirDisk.report : LsReport := ⟨[⟨'-', 512, ascii "GAMESA~1"⟩, ⟨'-', 300, ascii "README.TXT"⟩], .ok 2⟩

theorem ls_exact_games :
    SameTables DirDisk.storage ((cmdLS DirDisk.fatFs 0 []).final DirDisk.storage) ∧
      ∃ handle, (rpFsOpendir83 DirDisk.fatFs 0 [slash]).result DirDisk.storage = some handle ∧
        ((cmdLS DirDisk.fatFs 0 []).result DirDisk.storage).lines =
          (((rpFsOpendir83 DirDisk.fatFs 0 [slash]).final DirDisk.storage).toDeliver DirDisk.view handle).map lsLine ∧
        (2 : UInt16) = UInt16.ofNat ((cmdLS DirDisk.fatFs 0 []).result DirDisk.storage).lines.length := by
  have hblank : DirDisk.storage.Blank := ⟨fun _ _ => rfl, fun i hi => by simpa [DirDisk.storage] using hi⟩
  have hreport : (cmdLS DirDisk.fatFs 0 []).result DirDisk.storage = DirDisk.report := by decide +kernel
  obtain ⟨hsame, -, hall⟩ := ls_exact DirDisk.dirLaws DirDisk.tableLaws hblank 0 []
  exact ⟨hsame, hall 2 (congrArg LsReport.ending hreport)⟩

end NeoMmu
