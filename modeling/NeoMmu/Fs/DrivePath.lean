import NeoMmu.Fs.Storage
import NeoMmu.Fs.WorkingDir

/-!
# From resolved paths to FatFs

The handle layer checks paths and puts drives in front of them with functions of its own. What the path
engine resolves passes all of them: FatFs is handed the drive, and the components behind it.
-/

namespace NeoMmu

/-! ## What fits -/

/-- A resolved piece leaves no more than 63 characters. -/
theorem length_resolvePiece {comps comps' : List (List UInt8)} {piece : List UInt8}
    (hfits : (joinSep slash comps).length ≤ 63) (h : resolvePiece comps piece = .ok comps') :
    (joinSep slash comps').length ≤ 63 := by
  unfold resolvePiece at h
  split at h
  · cases h
    exact hfits
  split at h
  · cases h
    rcases List.eq_nil_or_concat' comps with rfl | ⟨comps, c, rfl⟩
    · exact hfits
    · rw [List.dropLast_concat]
      exact (length_joinSep_append slash comps [c]).trans hfits
  split at h
  · cases h
  split at h
  · cases h
  · rename_i hlong
    cases h
    exact Nat.not_lt.1 hlong

theorem length_foldlM_resolvePiece {pieces comps comps' : List (List UInt8)}
    (hfits : (joinSep slash comps).length ≤ 63) (h : pieces.foldlM resolvePiece comps = .ok comps') :
    (joinSep slash comps').length ≤ 63 := by
  induction pieces generalizing comps with
  | nil =>
    cases h
    exact hfits
  | cons piece pieces ih =>
    rw [List.foldlM_cons] at h
    rcases hstep : resolvePiece comps piece with code | mid
    · rw [hstep] at h
      cases h
    · rw [hstep] at h
      exact ih (length_resolvePiece hfits hstep) h

/-- Resolution starts with a list of components that fits. -/
theorem length_referenceStart {cwd : RPFSProcessCwd} (hcwd : cwd.WellFormed) (fallback_device : UInt8)
    (input : List UInt8) :
    (joinSep slash (referenceStart cwd fallback_device input).2.1).length ≤ 63 := by
  have hslot : (joinSep slash cwd.components).length ≤ 63 := by
    have hfits := hcwd.fits
    rw [hcwd.path_eq, RP_FS_NEOX_CWD_MAX] at hfits
    omega
  unfold referenceStart
  split
  · simp
  split
  · simp
  split
  · exact hslot
  · simp

theorem length_resolveReference {table : CwdTable} {pid fallback_device : UInt8} {input : List UInt8}
    {device : UInt8} {comps : List (List UInt8)} (hcwd : (table pid).WellFormed)
    (h : resolveReference table pid fallback_device input = .ok (device, comps)) :
    (joinSep slash comps).length ≤ 63 := by
  have hstart := length_referenceStart hcwd fallback_device input
  simp only [resolveReference] at h
  split at h
  · cases h
  split at h
  · cases h
  split at h
  · cases h
  rcases hfold : ((referenceStart (table pid) fallback_device input).2.2.splitOn slash).foldlM
      resolvePiece (referenceStart (table pid) fallback_device input).2.1 with code | comps'
  · rw [hfold] at h
    cases h
  · rw [hfold] at h
    cases h
    exact length_foldlM_resolvePiece hstart hfold

/-! ## The checks of the handle layer -/

/-- The separator needs no test of its own: it is no name character. -/
theorem rpFsIsValid83Component_iff (s : List UInt8) : rpFsIsValid83Component s = true ↔ Is83 s :=
  scanner_iff (fun c hc => char83_rejected c (List.mem_cons_of_mem _ hc)) s

/-- The guard both builders begin with. -/
theorem valid_device_guard {device : UInt8} (hdevice : rpFsValidDevice device = true) :
    ¬ (rpFsValidDevice device = false ∨ 9 < device) := by
  have hdev : device < 4 := of_decide_eq_true hdevice
  rw [not_or, hdevice, UInt8.not_lt, UInt8.le_iff_toNat_le]
  exact ⟨nofun, (Nat.le_of_lt (UInt8.lt_iff_toNat_lt.1 hdev)).trans (by decide)⟩

section Components

variable {comps : List (List UInt8)} (hcomps : ∀ c ∈ comps, Is83 c)

include hcomps

theorem dropDrive_renderComponents : dropDrive (renderComponents comps) = renderComponents comps := by
  rw [dropDrive, (rpFsPathValid83_renderComponents hcomps).2, Option.isSome_none,
    if_neg Bool.false_ne_true]

theorem driveMatches_renderComponents (device : UInt8) :
    driveMatches device (renderComponents comps) = true := by
  rw [driveMatches, (rpFsPathValid83_renderComponents hcomps).2]

theorem rpFsIsValid83Path_renderComponents : rpFsIsValid83Path (renderComponents comps) = true := by
  rw [rpFsIsValid83Path, dropDrive_renderComponents hcomps]
  exact validLogicalPath_renderComponents hcomps rpFsIsValid83Component_iff

/-- A rendering is the root only without components. -/
theorem renderComponents_eq_root : renderComponents comps = [slash] ↔ comps = [] := by
  refine ⟨fun h => ?_, fun h => by rw [h]; rfl⟩
  by_contra hne
  rw [renderComponents, if_neg hne] at h
  have hhead := (joinSep_relative hcomps).2
  rw [h] at hhead
  exact hhead rfl

theorem renderComponents_ne_nil : renderComponents comps ≠ [] := by
  unfold renderComponents
  split
  · simp
  · rename_i hne
    exact (joinSep_eq_nil hcomps).not.2 hne

variable {device : UInt8} (hdevice : rpFsValidDevice device = true)

include hdevice

/-- A directory is its drive and its components. -/
theorem rpFsMakeDirPath_renderComponents (hfits : (joinSep slash comps).length ≤ 63) :
    rpFsMakeDirPath device (renderComponents comps) = some (drive device ++ joinSep slash comps) := by
  obtain ⟨-, hdrive⟩ := rpFsPathValid83_renderComponents hcomps
  have hvalid := rpFsIsValid83Path_renderComponents hcomps
  have hnil := renderComponents_ne_nil hcomps
  have hsize : ¬ FATFS_PATH_SIZE ≤ 3 + (joinSep slash comps).length := by
    rw [FATFS_PATH_SIZE]
    omega
  rw [rpFsMakeDirPath, if_neg (valid_device_guard hdevice), if_neg (by rw [hvalid]; nofun), hdrive,
    if_neg (by simp)]
  by_cases hroot : renderComponents comps = [slash]
  · obtain rfl := (renderComponents_eq_root hcomps).1 hroot
    rw [if_pos (.inr hroot), joinSep_nil, List.append_nil]
  · rw [if_neg (by rw [not_or]; exact ⟨hnil, hroot⟩), dropRoot_renderComponents hcomps]
    dsimp only
    rw [if_neg hsize]

/-- A file has components, and is its drive and these. -/
theorem rpFsMakePath_renderComponents (hfits : (joinSep slash comps).length ≤ 63) :
    rpFsMakePath device (renderComponents comps) =
      if comps = [] then none else some (drive device ++ joinSep slash comps) := by
  obtain ⟨-, hdrive⟩ := rpFsPathValid83_renderComponents hcomps
  have hvalid := rpFsIsValid83Path_renderComponents hcomps
  have hmatches := driveMatches_renderComponents hcomps device
  have hnil := renderComponents_ne_nil hcomps
  have hsize : ¬ FATFS_PATH_SIZE ≤ 3 + (joinSep slash comps).length := by
    rw [FATFS_PATH_SIZE]
    omega
  rw [rpFsMakePath, if_neg hnil, if_neg (valid_device_guard hdevice), if_neg (by rw [hvalid]; nofun),
    if_neg (by rw [hmatches]; nofun), dropDrive_renderComponents hcomps]
  dsimp only
  by_cases hroot : renderComponents comps = [slash]
  · rw [if_pos (.inr hroot), if_pos ((renderComponents_eq_root hcomps).1 hroot)]
  · have hne := (renderComponents_eq_root hcomps).not.1 hroot
    have hjoin := (joinSep_eq_nil hcomps).not.2 hne
    rw [if_neg (by rw [not_or]; exact ⟨hnil, hroot⟩), hdrive, if_neg (by simp),
      dropRoot_renderComponents hcomps, if_neg (by rw [not_or]; exact ⟨hjoin, hsize⟩), if_neg hne]

/-- Only the drive alone is its root. -/
theorem rpFsIsRootDirPath_drive :
    rpFsIsRootDirPath (drive device ++ joinSep slash comps) = true ↔ comps = [] := by
  have hdigit : ∀ d : UInt8, rpFsValidDevice d = true →
      (rpFsPathHasDrivePrefix (drive d)).isSome = true := by
    decide +kernel
  have hprefix : (rpFsPathHasDrivePrefix (drive device ++ joinSep slash comps)).isSome = true :=
    hdigit device hdevice
  have hlen : (drive device ++ joinSep slash comps).length = 3 + (joinSep slash comps).length := by
    rw [List.length_append]
    rfl
  rw [rpFsIsRootDirPath, hprefix, hlen, Bool.true_and, beq_iff_eq, Nat.add_eq_left,
    List.length_eq_zero_iff, joinSep_eq_nil hcomps]

end Components

/-! ## Resolved paths -/

/-- What the path engine resolves reaches FatFs on its own drive: the builder of directory paths makes
the drive and the components, that of file paths the same unless the path is the root, and the check
for roots tells the two apart. -/
theorem resolved_reaches_fatFs {table : CwdTable} (htable : CwdReachable table)
    (pid fallback_device : UInt8) (input : List UInt8) {r r₀ : RPFSResolvedPath}
    (h : rpFsResolveProcessPath table pid fallback_device input r₀ = (.RP_FS_PATH_OK, r)) :
    r.device < 4 ∧ ∃ comps : List (List UInt8),
      (∀ c ∈ comps, rpFsPathComponentValid83 c = true ∧ c ≠ [dot] ∧ c ≠ [dot, dot]) ∧
      r.path = renderComponents comps ∧ (r.path = [slash] ↔ comps = []) ∧
      let path := ['0'.toUInt8 + r.device, ':'.toUInt8, slash] ++ joinSep slash comps
      path.length ≤ 66 ∧ rpFsMakeDirPath r.device r.path = some path ∧
      (rpFsMakePath r.device r.path = some path ↔ r.path ≠ [slash]) ∧
      ((rpFsMakePath r.device r.path).isSome = true ↔ r.path ≠ [slash]) ∧
      (rpFsIsRootDirPath path = true ↔ r.path = [slash]) := by
  have hcwd := htable.wellFormed pid
  obtain ⟨device, comps, href, rfl⟩ := resolve_ok hcwd h
  obtain ⟨-, hdevice, hcomps⟩ := resolveReference_ok hcwd href
  have hfits := length_resolveReference hcwd href
  have hvalid : rpFsValidDevice device = true := decide_eq_true (UInt8.not_le.1 hdevice)
  have hroot := renderComponents_eq_root hcomps
  have hpath := rpFsMakePath_renderComponents hcomps hvalid hfits
  refine ⟨UInt8.not_le.1 hdevice, comps, fun c hc => ?_, rfl, hroot, ?_,
    rpFsMakeDirPath_renderComponents hcomps hvalid hfits, ?_, ?_, ?_⟩
  · exact ⟨(rpFsPathComponentValid83_iff c).2 (hcomps c hc), (hcomps c hc).ne_dot,
      (hcomps c hc).ne_dots⟩
  · rw [List.length_append]
    simp only [List.length_cons, List.length_nil]
    omega
  · rw [hpath, ne_eq, hroot]
    split
    · rename_i hnil
      simp [hnil]
    · rename_i hne
      exact iff_of_true rfl hne
  · rw [hpath, ne_eq, hroot]
    split
    · rename_i hnil
      simp [hnil]
    · rename_i hne
      exact iff_of_true rfl hne
  · rw [hroot]
    exact rpFsIsRootDirPath_drive hcomps hvalid

/-- `A/./B` reaches FatFs as `2:/A/B`. -/
theorem resolved_reaches_fatFs_example :
    let r : RPFSResolvedPath := ⟨2, ['A'.toUInt8, slash, 'B'.toUInt8]⟩
    r.device < 4 ∧ ∃ comps : List (List UInt8),
      (∀ c ∈ comps, rpFsPathComponentValid83 c = true ∧ c ≠ [dot] ∧ c ≠ [dot, dot]) ∧
      r.path = renderComponents comps ∧ (r.path = [slash] ↔ comps = []) ∧
      let path := ['0'.toUInt8 + r.device, ':'.toUInt8, slash] ++ joinSep slash comps
      path.length ≤ 66 ∧ rpFsMakeDirPath r.device r.path = some path ∧
      (rpFsMakePath r.device r.path = some path ↔ r.path ≠ [slash]) ∧
      ((rpFsMakePath r.device r.path).isSome = true ↔ r.path ≠ [slash]) ∧
      (rpFsIsRootDirPath path = true ↔ r.path = [slash]) := by
  have h : rpFsResolveProcessPath CwdTable.initial 0 2
      ['A'.toUInt8, slash, dot, slash, 'B'.toUInt8] ⟨0, []⟩ =
        (.RP_FS_PATH_OK, ⟨2, ['A'.toUInt8, slash, 'B'.toUInt8]⟩) :=
    (rpFsResolveProcessPath_eq_reference .initial 0 2 _ _).trans (by decide)
  exact resolved_reaches_fatFs .initial 0 2 _ h

end NeoMmu
