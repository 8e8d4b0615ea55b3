import NeoMmu.Fs.DrivePath
import NeoMmu.Fs.Files

/-!
# Listed names can be opened

Names are scanned in three places: directory entries and the components of handle-layer paths in `rp_fs.cpp`,
the components of process paths in `rp_fs_path.cpp`. The scanners are written apart and accept one grammar, so
a name that a listing returns is a component that resolution takes.
-/

namespace NeoMmu

/-! ## One grammar -/

/-- Behind its drive prefix a name is scanned as a component is. -/
theorem rpFsIsValid83Name_iff {s : List UInt8} (hs : rpFsPathHasDrivePrefix s = none) :
    rpFsIsValid83Name s = true ↔ Is83 s := by
  rw [rpFsIsValid83Name, dropDrive, hs, Option.isSome_none, if_neg Bool.false_ne_true]
  exact scanner_iff char83_rejected s

theorem rpFsIsValid83Component_eq : rpFsIsValid83Component = rpFsPathComponentValid83 := by
  funext s
  rw [Bool.eq_iff_iff, rpFsIsValid83Component_iff, rpFsPathComponentValid83_iff]

/-- The path scanners differ in the drive alone. -/
theorem rpFsPathValid83_eq_true_iff (path : List UInt8) : rpFsPathValid83 path = true ↔
    rpFsIsValid83Path path = true ∧ ∀ device, rpFsPathHasDrivePrefix path = some device → device < 4 := by
  rw [rpFsIsValid83Path, rpFsIsValid83Component_eq, rpFsPathValid83, dropDrive]
  cases rpFsPathHasDrivePrefix path with
  | none => simp
  | some device =>
    rw [Option.isSome_some, if_pos rfl, Bool.and_eq_true, rpFsPathDeviceValid_iff, and_comm]
    simp

/-! ## Directory entries -/

/-- The names of a FAT volume: neither a colon nor a separator stands in one. -/
def FILINFO.Plain (info : FILINFO) : Prop :=
  (':'.toUInt8 ∉ info.fname ∧ slash ∉ info.fname) ∧ ':'.toUInt8 ∉ info.altname ∧ slash ∉ info.altname

instance (info : FILINFO) : Decidable info.Plain := inferInstanceAs (Decidable (_ ∧ _))

/-- A name without a colon has no drive prefix. -/
theorem no_drivePrefix {s : List UInt8} (hs : ':'.toUInt8 ∉ s) : rpFsPathHasDrivePrefix s = none := by
  by_contra h
  rw [← ne_eq, Option.ne_none_iff_isSome] at h
  exact hs (colon_mem_of_drivePrefix h)

/-- An entry is listed under a name of the 8.3 grammar. -/
theorem is83_of_entryName {info : FILINFO} (hplain : info.Plain) {name : List UInt8}
    (h : entryName info = some name) : Is83 name := by
  unfold entryName at h
  split at h
  · cases h
  split at h
  case isTrue hname =>
    cases h
    exact (rpFsIsValid83Name_iff (no_drivePrefix hplain.1.1)).1 hname
  split at h
  case isTrue halt =>
    cases h
    exact (rpFsIsValid83Name_iff (no_drivePrefix hplain.2.1)).1 halt.2
  · cases h

variable {σ : Type}

theorem is83_of_readdirLoop (ff : FatFs σ) (hplain : ∀ slot s, ((ff.f_readdir slot).result s).2.Plain)
    (handle : UInt8) (name_len : Nat) (s : Storage σ) {name : List UInt8} {attr : UInt8} {size : UInt32}
    (h : (readdirLoop ff handle name_len s).1 = .entry name attr size) : Is83 name := by
  induction s using readdirLoop.induct ff handle name_len with
  | case1 s r hfr =>
    rw [readdirLoop, dif_pos hfr] at h
    cases h
  | case2 s r hfr hend =>
    rw [readdirLoop, dif_neg hfr, dif_pos hend] at h
    cases h
  | case3 s r s' hfr hend hskip ih =>
    rw [readdirLoop, dif_neg hfr, dif_neg hend] at h
    simp only [r] at hskip
    rw [hskip] at h
    exact ih h
  | case4 s r hfr hend name' hname hlong =>
    rw [readdirLoop, dif_neg hfr, dif_neg hend] at h
    simp only [r] at hname
    rw [hname] at h
    simp only [if_pos hlong] at h
    cases h
  | case5 s r hfr hend name' hname hfits =>
    rw [readdirLoop, dif_neg hfr, dif_neg hend] at h
    have hlisted := is83_of_entryName (hplain handle s) hname
    simp only [r] at hname
    rw [hname] at h
    simp only [if_neg hfits] at h
    cases h
    exact hlisted

/-- What `rp_fs_readdir()` returns is a name of the 8.3 grammar. -/
theorem is83_of_rpFsReaddir (ff : FatFs σ) (hplain : ∀ slot s, ((ff.f_readdir slot).result s).2.Plain)
    (handle : UInt8) (name_len : Nat) (s : Storage σ) {name : List UInt8} {attr : UInt8} {size : UInt32}
    (h : (rpFsReaddir ff handle name_len).result s = .entry name attr size) : Is83 name := by
  have hrun : (rpFsReaddir ff handle name_len).result s =
      if s.dirIsOpen handle = false ∨ name_len < 13 then .error
      else (readdirLoop ff handle name_len s).1 := by
    refine Eq.trans ?_ (Prog.result_ite _ (pure .error) (readdirLoop ff handle name_len) s)
    rfl
  rw [hrun] at h
  split at h
  · cases h
  · exact is83_of_readdirLoop ff hplain handle name_len s h

/-- The scanners accept one grammar, path scanners differ in the drive alone, and what is listed is a component
that resolution neither skips nor rejects. -/
theorem validators83_agree (ff : FatFs σ) (hplain : ∀ slot s, ((ff.f_readdir slot).result s).2.Plain) :
    (∀ s, rpFsPathComponentValid83 s = true ↔ Is83 s) ∧
    (∀ s, rpFsIsValid83Component s = true ↔ Is83 s) ∧
    (∀ s, rpFsPathHasDrivePrefix s = none → (rpFsIsValid83Name s = true ↔ Is83 s)) ∧
    (∀ path, rpFsPathValid83 path = true ↔ rpFsIsValid83Path path = true ∧
      ∀ device, rpFsPathHasDrivePrefix path = some device → device < 4) ∧
    ∀ handle name_len s name attr size,
      (rpFsReaddir ff handle name_len).result s = .entry name attr size →
        rpFsPathComponentValid83 name = true ∧ name ≠ [dot] ∧ name ≠ [dot, dot] := by
  refine ⟨rpFsPathComponentValid83_iff, rpFsIsValid83Component_iff, fun s => rpFsIsValid83Name_iff,
    rpFsPathValid83_eq_true_iff, fun handle name_len s name attr size h => ?_⟩
  have hname := is83_of_rpFsReaddir ff hplain handle name_len s h
  exact ⟨(rpFsPathComponentValid83_iff name).2 hname, hname.ne_dot, hname.ne_dots⟩

namespace RamDisk

/-- A directory entry with a long name, listed under its short one. -/
def gamesEntry : FILINFO := ⟨ascii "Games and more", ascii "GAMESA~1", 0, 512⟩

/-- A FatFs with one directory, open at slot 0, that lists one entry. -/
def listingFatFs : FatFs Bool where
  f_mount _ := return FR_OK
  f_open _ _ _ := return FR_NO_FILE
  f_close _ := return FR_OK
  f_read _ _ := return (FR_OK, [])
  f_write _ _ := return (FR_OK, 0)
  f_lseek _ _ := return FR_OK
  f_size _ _ := 0
  f_tell _ _ := 0
  f_unlink _ := return FR_NO_FILE
  f_rename _ _ := return FR_NO_FILE
  f_mkdir _ := return FR_NO_PATH
  f_opendir _ _ := return FR_OK
  f_readdir _ := do
    if (← get).fatfs then
      return (FR_OK, ⟨[], [], 0, 0⟩)
    else
      modify fun s => { s with fatfs := true }
      return (FR_OK, gamesEntry)
  f_closedir _ := return FR_OK
  entriesLeft _ s := if s.fatfs then 0 else 1
  entriesLeft_readdir := by
    intro slot s _ hname
    cases hlisted : s.fatfs with
    | true => simp [hlisted] at hname
    | false => simp [hlisted]

/-- The storage of `listingFatFs` before the entry is read. -/
def listing : Storage Bool where
  gRPFSHandles _ := ⟨false, 0, 0⟩
  gRPFSDirHandles slot := ⟨slot = 0, 0⟩
  gUSBFatFsMounted device := device = 0
  usbPresent device := device = 0
  fatfs := false

theorem plain_listingFatFs (slot : UInt8) (s : Storage Bool) :
    ((listingFatFs.f_readdir slot).result s).2.Plain := by
  have hentries : gamesEntry.Plain ∧ (FILINFO.mk [] [] 0 0).Plain := by decide
  cases hlisted : s.fatfs with
  | true => simpa [listingFatFs, hlisted] using hentries.2
  | false => simpa [listingFatFs, hlisted] using hentries.1

end RamDisk

theorem validators83_agree_listing :
    (rpFsReaddir RamDisk.listingFatFs 0 13).result RamDisk.listing = .entry (ascii "GAMESA~1") 0 512 ∧
      rpFsPathComponentValid83 (ascii "GAMESA~1") = true := by
  have hlisted : (rpFsReaddir RamDisk.listingFatFs 0 13).result RamDisk.listing =
      .entry (ascii "GAMESA~1") 0 512 := by
    have hloop : (readdirLoop RamDisk.listingFatFs 0 13 RamDisk.listing).1 =
        .entry (ascii "GAMESA~1") 0 512 := by
      rw [readdirLoop]
      decide
    exact hloop
  exact ⟨hlisted, ((validators83_agree RamDisk.listingFatFs RamDisk.plain_listingFatFs).2.2.2.2
    0 13 RamDisk.listing (ascii "GAMESA~1") 0 512 hlisted).1⟩

end NeoMmu
