import NeoMmu.Fs.PathSemantics

/-!
# The working directory table

From `rp_fs_cwd_reset_all()` on, any calls of the three functions that change the table keep every
slot a short list of 8.3 components on a supported device. The encodings of a working directory, its
slot, the path `/` and the text `N:/...`, then name the same directory, and changing to what a path
resolves to composes with resolution.
-/

namespace NeoMmu

/-! ## Calls -/

/-- A call that changes the table. -/
inductive CwdCall
  /-- `rp_fs_cwd_init_root()` -/
  | initRoot (pid device : UInt8)
  /-- `rp_fs_cwd_clone()` -/
  | clone (child_pid parent_pid : UInt8)
  /-- `rp_fs_cwd_set()` -/
  | set (pid : UInt8) (cwd : RPFSResolvedPath)

namespace CwdCall

/-- The result of a call and the table it leaves. -/
def apply : CwdCall → CwdTable → Bool × CwdTable
  | initRoot pid device, table => rpFsCwdInitRoot table pid device
  | clone child_pid parent_pid, table => rpFsCwdClone table child_pid parent_pid
  | set pid cwd, table => rpFsCwdSet table pid cwd

/-- The process whose slot a call is for. -/
def target : CwdCall → UInt8
  | initRoot pid _ => pid
  | clone child_pid _ => child_pid
  | set pid _ => pid

end CwdCall

/-- The table after `rp_fs_cwd_reset_all()` and some calls. -/
def cwdRun (table : CwdTable) (calls : List CwdCall) : CwdTable :=
  calls.foldl (fun table call => (call.apply table).2) (rpFsCwdResetAll table)

/-! ## The invariant -/

/-- A slot that is in use holds a well-formed directory. -/
def RPFSProcessCwd.Proper (cwd : RPFSProcessCwd) : Prop := cwd.valid = true ∧ cwd.WellFormed

/-- The slots of all processes are in use. -/
def CwdTable.Proper (table : CwdTable) : Prop :=
  ∀ pid, pid < RP_FS_NEOX_MAX_PROCS → (table pid).Proper

theorem RPFSProcessCwd.proper_root {device : UInt8} (hdev : rpFsPathDeviceValid device = true) :
    (RPFSProcessCwd.mk true device []).Proper :=
  ⟨rfl, wellFormed_root true fun _ => hdev⟩

theorem rpFsCwdResetAll_proper (table : CwdTable) : (rpFsCwdResetAll table).Proper := by
  intro pid hpid
  rw [rpFsCwdResetAll, if_pos hpid]
  exact RPFSProcessCwd.proper_root (by decide)

/-- A path `rp_fs_cwd_set()` accepts is a well-formed directory without its root. -/
theorem rpFsCwdSet_cases (table : CwdTable) (pid : UInt8) (cwd : RPFSResolvedPath) :
    rpFsCwdSet table pid cwd = (false, table) ∨
      (RPFSProcessCwd.mk true cwd.device (dropRoot cwd.path)).WellFormed ∧
        rpFsCwdSet table pid cwd =
          (true, Function.update table pid ⟨true, cwd.device, dropRoot cwd.path⟩) := by
  unfold rpFsCwdSet
  split
  · exact .inl rfl
  rename_i hguard
  split
  · exact .inl rfl
  rename_i hdrive
  split
  · exact .inl rfl
  rename_i hvalid
  dsimp only
  split
  · exact .inl rfl
  rename_i hfits
  refine .inr ⟨?_, rfl⟩
  have hdev : rpFsPathDeviceValid cwd.device = true := by simpa using (not_or.1 hguard).2
  rcases pieces_of_rpFsPathValid83 (by simpa using hdrive) (by simpa using hvalid) with h | h
  · rw [h]
    exact RPFSProcessCwd.wellFormed_root true fun _ => hdev
  · exact RPFSProcessCwd.wellFormed_of_pieces h (by simpa using hfits) hdev

/-- A call is refused and changes nothing, or it stores a directory in its target's slot, which is in
use then. -/
theorem CwdCall.apply_cases {table : CwdTable} (htable : table.Proper) (call : CwdCall) :
    call.apply table = (false, table) ∨ ∃ slot : RPFSProcessCwd, slot.Proper ∧
      call.apply table = (true, Function.update table call.target slot) := by
  cases call with
  | initRoot pid device =>
    simp only [apply, target, rpFsCwdInitRoot]
    split
    · exact .inl rfl
    · rename_i hguard
      rw [not_or, Bool.not_eq_false] at hguard
      exact .inr ⟨_, RPFSProcessCwd.proper_root hguard.2, rfl⟩
  | clone child_pid parent_pid =>
    simp only [apply, target, rpFsCwdClone]
    split
    · exact .inl rfl
    · rename_i hguard
      rw [not_or, not_or, UInt8.not_le] at hguard
      exact .inr ⟨_, htable _ (UInt8.not_le.1 hguard.2.1), rfl⟩
  | set pid cwd =>
    rcases rpFsCwdSet_cases table pid cwd with h | ⟨hslot, h⟩
    · exact .inl h
    · exact .inr ⟨_, ⟨rfl, hslot⟩, h⟩

/-- One call keeps the slots in use. -/
theorem CwdCall.proper_apply {table : CwdTable} (htable : table.Proper) (call : CwdCall) :
    CwdTable.Proper (call.apply table).2 := by
  intro pid hpid
  rcases call.apply_cases htable with h | ⟨slot, hslot, h⟩
  · rw [h]
    exact htable pid hpid
  · rw [h]
    show (Function.update table call.target slot pid).Proper
    by_cases htarget : pid = call.target
    · rw [htarget, Function.update_self]
      exact hslot
    · rw [Function.update_of_ne htarget]
      exact htable pid hpid

/-- Any number of calls keep them so. -/
theorem cwdRun_proper (table : CwdTable) (calls : List CwdCall) : (cwdRun table calls).Proper := by
  unfold cwdRun
  have hreset := rpFsCwdResetAll_proper table
  generalize rpFsCwdResetAll table = start at hreset ⊢
  induction calls generalizing start with
  | nil => exact hreset
  | cons call calls ih => exact ih _ (call.proper_apply hreset)

/-- What a slot in use holds. -/
structure RPFSProcessCwd.Canonical (cwd : RPFSProcessCwd) : Prop where
  valid : cwd.valid = true
  device : cwd.device < 4
  components : ∃ comps : List (List UInt8), (∀ c ∈ comps, rpFsPathComponentValid83 c = true) ∧
    cwd.path = joinSep slash comps
  leading : cwd.path.head? ≠ some slash
  trailing : cwd.path.getLast? ≠ some slash
  length : cwd.path.length ≤ 31

theorem RPFSProcessCwd.Proper.canonical {cwd : RPFSProcessCwd} (h : cwd.Proper) : cwd.Canonical := by
  obtain ⟨hvalid, hwf⟩ := h
  have hne : ∀ c ∈ cwd.components, c ≠ [] := fun c hc => (hwf.components_valid c hc).ne_nil
  have hsep : ∀ c ∈ cwd.components, slash ∉ c := fun c hc =>
    (hwf.components_valid c hc).slash_notMem
  refine ⟨hvalid, (rpFsPathDeviceValid_iff _).1 (hwf.device_valid hvalid), ⟨cwd.components, ?_, hwf.path_eq⟩, ?_, ?_, ?_⟩
  · exact fun c hc => (rpFsPathComponentValid83_iff c).2 (hwf.components_valid c hc)
  · rw [hwf.path_eq]
    exact head?_joinSep hne hsep
  · rw [hwf.path_eq]
    exact getLast?_joinSep hne hsep
  · exact Nat.le_of_lt_succ hwf.fits

/-- `rp_fs_cwd_format()` writes the text of a slot in use. -/
theorem rpFsCwdFormat_proper {table : CwdTable} {pid : UInt8} (hpid : pid < RP_FS_NEOX_MAX_PROCS)
    (h : (table pid).Proper) : rpFsCwdFormat table pid RP_FS_NEOX_PATH_MAX =
      some (['0'.toUInt8 + (table pid).device, ':'.toUInt8, slash] ++ (table pid).path) := by
  obtain ⟨hvalid, hwf⟩ := h
  have hguard : ¬ (RP_FS_NEOX_MAX_PROCS ≤ pid ∨ (table pid).valid = false ∨
      rpFsPathDeviceValid (table pid).device = false) := by
    simp [hvalid, hwf.device_valid hvalid, hpid]
  have hfits : ¬ RP_FS_NEOX_PATH_MAX < 3 + (table pid).path.length + 1 := by
    have := hwf.fits
    simp only [RP_FS_NEOX_CWD_MAX, RP_FS_NEOX_PATH_MAX] at this ⊢
    omega
  simp only [rpFsCwdFormat, if_neg hguard, if_neg hfits]

/-- The invariant of the table: after any calls every slot holds a canonical directory that can be
formatted, a call that succeeds changes the slot of its target only, and one that fails none. -/
theorem cwdRun_invariant (table₀ : CwdTable) (calls : List CwdCall) :
    let table := cwdRun table₀ calls
    (∀ pid, pid < RP_FS_NEOX_MAX_PROCS → (table pid).Canonical ∧
        (rpFsCwdFormat table pid RP_FS_NEOX_PATH_MAX).isSome = true) ∧
      ∀ call : CwdCall,
        ((call.apply table).1 = true → ∀ pid, pid ≠ call.target → (call.apply table).2 pid = table pid) ∧
        ((call.apply table).1 = false → (call.apply table).2 = table) := by
  intro table
  have htable : table.Proper := cwdRun_proper table₀ calls
  refine ⟨fun pid hpid => ⟨(htable pid hpid).canonical, ?_⟩, fun call => ?_⟩
  · rw [rpFsCwdFormat_proper hpid (htable pid hpid)]
    rfl
  · rcases call.apply_cases htable with h | ⟨slot, -, h⟩
    · rw [h]
      exact ⟨nofun, fun _ => rfl⟩
    · rw [h]
      exact ⟨fun _ pid hpid => Function.update_of_ne hpid _ _, nofun⟩

/-! ## Component lists as paths -/

namespace Is83

variable {s : List UInt8}

/-- No character of a component ends a drive. -/
theorem colon_notMem (h : Is83 s) : ':'.toUInt8 ∉ s := by
  have hchar : ∀ t : List UInt8, (∀ c ∈ t, isChar83 c = true) → ':'.toUInt8 ∉ t := fun t ht hmem =>
    absurd (ht _ hmem) (by decide)
  obtain ⟨base, hbase, -, -, rfl | ⟨ext, hext, -, -, rfl⟩⟩ := h
  · exact hchar s hbase
  · simp only [List.mem_append, List.mem_cons, not_or]
    exact ⟨hchar base hbase, by decide, hchar ext hext⟩

theorem ne_dot (h : Is83 s) : s ≠ [dot] := by
  rintro rfl
  exact absurd h (by decide)

theorem ne_dots (h : Is83 s) : s ≠ [dot, dot] := by
  rintro rfl
  exact absurd h (by decide)

end Is83

/-- A drive prefix has a colon. -/
theorem colon_mem_of_drivePrefix {path : List UInt8} (h : (rpFsPathHasDrivePrefix path).isSome = true) :
    ':'.toUInt8 ∈ path := by
  unfold rpFsPathHasDrivePrefix at h
  split at h
  · split at h
    · exact absurd h (by simp)
    · rename_i hdrive
      simp only [not_or, not_not] at hdrive
      simp [hdrive.2.2.1]
  · exact absurd h (by simp)

section Components

variable {comps : List (List UInt8)} (hcomps : ∀ c ∈ comps, Is83 c)

include hcomps

theorem joinSep_eq_nil : joinSep slash comps = [] ↔ comps = [] :=
  joinSep_eq_nil_iff fun c hc => (hcomps c hc).ne_nil

/-- The visible path of a slot is the rendering of its components. -/
theorem visiblePath_joinSep : visiblePath (joinSep slash comps) = renderComponents comps := by
  unfold visiblePath renderComponents
  simp only [joinSep_eq_nil hcomps]

theorem components_joinSep {valid : Bool} {device : UInt8} :
    (RPFSProcessCwd.mk valid device (joinSep slash comps)).components = comps :=
  tokens_joinSep (fun c hc => (hcomps c hc).ne_nil) fun c hc => (hcomps c hc).slash_notMem

/-- A joined list of components is no drive and does not begin with the separator. -/
theorem joinSep_relative : rpFsPathHasDrivePrefix (joinSep slash comps) = none ∧
    (joinSep slash comps).head? ≠ some slash := by
  refine ⟨?_, head?_joinSep (fun c hc => (hcomps c hc).ne_nil) fun c hc => (hcomps c hc).slash_notMem⟩
  by_contra hdrive
  rw [← ne_eq, Option.ne_none_iff_isSome] at hdrive
  rcases mem_joinSep (colon_mem_of_drivePrefix hdrive) with h | ⟨c, hc, h⟩
  · exact absurd h (by decide)
  · exact (hcomps c hc).colon_notMem h

theorem dropRoot_renderComponents : dropRoot (renderComponents comps) = joinSep slash comps := by
  unfold renderComponents
  split
  · rename_i h
    rw [h]
    rfl
  · have hhead := (joinSep_relative hcomps).2
    rcases hjoin : joinSep slash comps with - | ⟨c, rest⟩
    · rfl
    · rw [hjoin] at hhead
      rw [dropRoot, if_neg fun hc => hhead (by rw [hc]; rfl)]

/-- A path scanner accepts the rendering of components. -/
theorem validLogicalPath_renderComponents {valid : List UInt8 → Bool}
    (hvalid : ∀ s, valid s = true ↔ Is83 s) : validLogicalPath valid (renderComponents comps) = true := by
  rcases eq_or_ne comps [] with rfl | hne
  · rfl
  have hhead := (joinSep_relative hcomps).2
  have hloop : validPathLoop valid [] (joinSep slash comps) = true := by
    rw [validPathLoop_iff hvalid [] _ (by simp), List.nil_append,
      splitOn_joinSep (fun c hc => (hcomps c hc).slash_notMem) hne]
    exact hcomps
  rw [renderComponents, if_neg hne]
  rcases hjoin : joinSep slash comps with - | ⟨c, rest⟩
  · rfl
  · rw [hjoin] at hhead hloop
    rw [validLogicalPath, if_neg fun hc => hhead (by rw [hc]; rfl)]
    exact hloop

theorem rpFsPathValid83_renderComponents : rpFsPathValid83 (renderComponents comps) = true ∧
    rpFsPathHasDrivePrefix (renderComponents comps) = none := by
  have hdrive : rpFsPathHasDrivePrefix (renderComponents comps) = none := by
    unfold renderComponents
    split
    · decide
    · exact (joinSep_relative hcomps).1
  refine ⟨?_, hdrive⟩
  rw [rpFsPathValid83, hdrive]
  exact validLogicalPath_renderComponents hcomps rpFsPathComponentValid83_iff

/-- `rp_fs_cwd_set()` stores a short list of components. -/
theorem rpFsCwdSet_renderComponents (table : CwdTable) {pid device : UInt8}
    (hpid : pid < RP_FS_NEOX_MAX_PROCS) (hdevice : rpFsPathDeviceValid device = true)
    (hfits : (joinSep slash comps).length < RP_FS_NEOX_CWD_MAX) :
    rpFsCwdSet table pid ⟨device, renderComponents comps⟩ =
      (true, Function.update table pid ⟨true, device, joinSep slash comps⟩) := by
  obtain ⟨hvalid, hdrive⟩ := rpFsPathValid83_renderComponents hcomps
  have hguard : ¬ (RP_FS_NEOX_MAX_PROCS ≤ pid ∨ rpFsPathDeviceValid device = false) := by
    simp [hpid, hdevice]
  simp only [rpFsCwdSet, if_neg hguard, hdrive, hvalid, dropRoot_renderComponents hcomps,
    if_neg (Nat.not_le.2 hfits)]
  rfl

/-- Components that fit are collected in their order. -/
theorem foldlM_resolvePiece_components {start : List (List UInt8)}
    (hfits : (joinSep slash (start ++ comps)).length ≤ 63) :
    comps.foldlM resolvePiece start = .ok (start ++ comps) := by
  induction comps generalizing start with
  | nil => rw [List.append_nil]; rfl
  | cons c comps ih =>
    have hc := hcomps c List.mem_cons_self
    rw [← List.singleton_append, ← List.append_assoc] at hfits ⊢
    have hstep : resolvePiece start c = .ok (start ++ [c]) := by
      have hlong : ¬ 63 < (joinSep slash (start ++ [c])).length :=
        Nat.not_lt.2 ((length_joinSep_append slash (start ++ [c]) comps).trans hfits)
      simp only [resolvePiece, hc.ne_nil, hc.ne_dot, hc.ne_dots, hc, hlong, or_self, not_true,
        if_false]
    rw [List.singleton_append, List.foldlM_cons, hstep]
    exact ih (fun c' hc' => hcomps c' (List.mem_cons_of_mem c hc')) hfits

end Components

/-! ## The encodings of a directory -/

/-- The text of a directory on a supported device has that drive and leaves its path. -/
theorem drivePrefix?_text {device : UInt8} (hdevice : rpFsPathDeviceValid device = true)
    (path : List UInt8) :
    drivePrefix? (['0'.toUInt8 + device, ':'.toUInt8, slash] ++ path) = some (device, path) := by
  have hdigit : ∀ d : UInt8, rpFsPathDeviceValid d = true →
      '0'.toUInt8 ≤ '0'.toUInt8 + d ∧ '0'.toUInt8 + d ≤ '9'.toUInt8 ∧
        '0'.toUInt8 + d - '0'.toUInt8 = d := by
    decide +kernel
  obtain ⟨hlow, hhigh, hsub⟩ := hdigit device hdevice
  simp only [List.cons_append, List.nil_append, drivePrefix?, hlow, hhigh, hsub, and_self, if_true]

section Encodings

variable {table : CwdTable} {p q : UInt8}

/-- `rp_fs_cwd_get()` shows the components of a slot in use. -/
theorem rpFsCwdGet_proper (hp : p < RP_FS_NEOX_MAX_PROCS) (h : (table p).Proper) :
    rpFsCwdGet table p = some ⟨(table p).device, renderComponents (table p).components⟩ := by
  obtain ⟨hvalid, hwf⟩ := h
  have hguard : ¬ (RP_FS_NEOX_MAX_PROCS ≤ p ∨ (table p).valid = false) := by
    simp [hvalid, hp]
  rw [rpFsCwdGet, if_neg hguard, ← visiblePath_joinSep hwf.components_valid, ← hwf.path_eq]

/-- Whatever process asks, the text of a directory resolves to it. -/
theorem resolve_text (hq : q < RP_FS_NEOX_MAX_PROCS) (hp : (table p).Proper)
    (hcwd : (table q).WellFormed) (fallback_device : UInt8) (resolved : RPFSResolvedPath) :
    rpFsResolveProcessPath table q fallback_device
        (['0'.toUInt8 + (table p).device, ':'.toUInt8, slash] ++ (table p).path) resolved =
      (.RP_FS_PATH_OK, ⟨(table p).device, renderComponents (table p).components⟩) := by
  obtain ⟨hvalid, hwf⟩ := hp
  have hdevice := hwf.device_valid hvalid
  have hpid : ¬ 8 ≤ q := UInt8.not_le.2 hq
  have hsupported : ¬ 4 ≤ (table p).device := UInt8.not_le.2 ((rpFsPathDeviceValid_iff _).1 hdevice)
  have hfold : ((table p).path.splitOn slash).foldlM resolvePiece [] =
      .ok (table p).components := by
    rw [foldlM_resolvePiece_splitOn]
    refine foldlM_resolvePiece_components hwf.components_valid ?_
    have hfits := hwf.fits
    rw [hwf.path_eq, RP_FS_NEOX_CWD_MAX] at hfits
    rw [List.nil_append]
    omega
  have href : resolveReference table q fallback_device
      (['0'.toUInt8 + (table p).device, ':'.toUInt8, slash] ++ (table p).path) =
        .ok ((table p).device, (table p).components) := by
    simp only [resolveReference, if_neg hpid, referenceStart, drivePrefix?_text hdevice,
      if_neg hsupported, hfold]
    rfl
  rw [rpFsResolveProcessPath_eq_of_wellFormed hcwd, href]

/-- The piece `.` resolves to the directory itself. -/
theorem resolve_dot (hp : p < RP_FS_NEOX_MAX_PROCS) (h : (table p).Proper) (fallback_device : UInt8)
    (resolved : RPFSResolvedPath) :
    rpFsResolveProcessPath table p fallback_device [dot] resolved =
      (.RP_FS_PATH_OK, ⟨(table p).device, renderComponents (table p).components⟩) := by
  obtain ⟨hvalid, hwf⟩ := h
  have hpid : ¬ 8 ≤ p := UInt8.not_le.2 hp
  have hsupported : ¬ 4 ≤ (table p).device :=
    UInt8.not_le.2 ((rpFsPathDeviceValid_iff _).1 (hwf.device_valid hvalid))
  have hstart : referenceStart (table p) fallback_device [dot] =
      ((table p).device, (table p).components, [dot]) := by
    have hhead : ¬ [dot].head? = some slash := by decide
    simp only [referenceStart, drivePrefix?, if_neg hhead, if_pos hvalid]
  have href : resolveReference table p fallback_device [dot] =
      .ok ((table p).device, (table p).components) := by
    simp only [resolveReference, if_neg hpid, hstart, if_neg hsupported]
    rfl
  rw [rpFsResolveProcessPath_eq_of_wellFormed hwf, href]

end Encodings

/-- After any calls, the text, the visible path and the resolution of `.` of a process's directory are
one directory for every process, and storing it for a process copies the slot. -/
theorem cwdFormat_resolve_inverse (table₀ : CwdTable) (calls : List CwdCall) (p q : UInt8)
    (hp : p < RP_FS_NEOX_MAX_PROCS) (hq : q < RP_FS_NEOX_MAX_PROCS) (fallback_device : UInt8)
    (resolved : RPFSResolvedPath) :
    let table := cwdRun table₀ calls
    ∃ text cwd, rpFsCwdFormat table p RP_FS_NEOX_PATH_MAX = some text ∧
      rpFsCwdGet table p = some cwd ∧
      cwd = ⟨(table p).device, visiblePath (table p).path⟩ ∧
      rpFsResolveProcessPath table q fallback_device text resolved = (.RP_FS_PATH_OK, cwd) ∧
      rpFsResolveProcessPath table p fallback_device [dot] resolved = (.RP_FS_PATH_OK, cwd) ∧
      (rpFsCwdSet table q cwd).1 = true ∧ (rpFsCwdSet table q cwd).2 q = table p := by
  intro table
  have htable : table.Proper := cwdRun_proper table₀ calls
  have hslot := htable p hp
  have hvalid := hslot.1
  have hwf := hslot.2
  refine ⟨_, _, rpFsCwdFormat_proper hp hslot, rpFsCwdGet_proper hp hslot, ?_,
    resolve_text hq hslot (htable q hq).2 fallback_device resolved,
    resolve_dot hp hslot fallback_device resolved, ?_⟩
  · rw [← visiblePath_joinSep hwf.components_valid, ← hwf.path_eq]
  · have hfits := hwf.fits
    rw [hwf.path_eq] at hfits
    rw [rpFsCwdSet_renderComponents hwf.components_valid table hq (hwf.device_valid hvalid) hfits]
    refine ⟨rfl, ?_⟩
    show Function.update table q ⟨true, (table p).device, joinSep slash (table p).components⟩ q = _
    rw [Function.update_self, ← hwf.path_eq, ← hvalid]

/-- Process 1 takes over the directory `A` on drive 2 of process 0. -/
theorem cwdFormat_resolve_clone :
    let table := cwdRun .initial [.set 0 ⟨2, ['A'.toUInt8]⟩]
    ∃ text cwd, rpFsCwdFormat table 0 RP_FS_NEOX_PATH_MAX = some text ∧
      rpFsCwdGet table 0 = some cwd ∧
      cwd = ⟨(table 0).device, visiblePath (table 0).path⟩ ∧
      rpFsResolveProcessPath table 1 3 text ⟨0, []⟩ = (.RP_FS_PATH_OK, cwd) ∧
      rpFsResolveProcessPath table 0 3 [dot] ⟨0, []⟩ = (.RP_FS_PATH_OK, cwd) ∧
      (rpFsCwdSet table 1 cwd).1 = true ∧ (rpFsCwdSet table 1 cwd).2 1 = table 0 :=
  cwdFormat_resolve_inverse .initial _ 0 1 (by decide) (by decide) 3 ⟨0, []⟩

/-! ## Changing directory -/

/-- Only a digit and a colon gain a drive by a separator behind them. -/
theorem drivePrefix?_append {a : List UInt8} (hne : a ≠ []) (hcolon : ∀ n, a ≠ [n, ':'.toUInt8])
    (b : List UInt8) :
    drivePrefix? (a ++ slash :: b) = (drivePrefix? a).map fun r => (r.1, r.2 ++ slash :: b) := by
  rcases a with - | ⟨n, - | ⟨c, - | ⟨s, a⟩⟩⟩
  · exact absurd rfl hne
  · rcases b with - | ⟨c, b⟩
    · rfl
    · have hslash : ¬ ('0'.toUInt8 ≤ n ∧ n ≤ '9'.toUInt8 ∧ slash = ':'.toUInt8 ∧ c = slash) :=
        fun h => absurd h.2.2.1 (by decide)
      simp only [List.cons_append, List.nil_append, drivePrefix?, if_neg hslash, Option.map_none]
  · have hc : c ≠ ':'.toUInt8 := fun h => hcolon n (by rw [h])
    have hno : ¬ ('0'.toUInt8 ≤ n ∧ n ≤ '9'.toUInt8 ∧ c = ':'.toUInt8 ∧ slash = slash) :=
      fun h => hc h.2.2.1
    show (if _ then _ else _) = none
    rw [if_neg hno]
  · simp only [List.cons_append, drivePrefix?]
    split
    · rfl
    · rfl

/-- What a longer input begins with decides where its resolution starts. -/
theorem referenceStart_append (cwd : RPFSProcessCwd) (fallback_device : UInt8) {a : List UInt8}
    (hne : a ≠ []) (hcolon : ∀ n, a ≠ [n, ':'.toUInt8]) (b : List UInt8) :
    referenceStart cwd fallback_device (a ++ slash :: b) =
      ((referenceStart cwd fallback_device a).1, (referenceStart cwd fallback_device a).2.1,
        (referenceStart cwd fallback_device a).2.2 ++ slash :: b) := by
  unfold referenceStart
  rw [drivePrefix?_append hne hcolon, List.head?_append_of_ne_nil a hne]
  rcases drivePrefix? a with - | ⟨n, rest⟩
  · dsimp only [Option.map_none]
    split
    · rfl
    split
    · rfl
    · rfl
  · rfl

theorem resolvePiece_colon (comps : List (List UInt8)) {piece : List UInt8}
    (h : ':'.toUInt8 ∈ piece) :
    resolvePiece comps piece = .error .RP_FS_PATH_INVALID_PATH := by
  have hnil : piece ≠ [] := List.ne_nil_of_mem h
  have hdot : piece ≠ [dot] := by
    rintro rfl
    exact absurd h (by decide)
  have hdots : piece ≠ [dot, dot] := by
    rintro rfl
    exact absurd h (by decide)
  have h83 : ¬ Is83 piece := fun h83 => h83.colon_notMem h
  simp only [resolvePiece, hnil, hdot, hdots, h83, or_self, not_false_eq_true, if_false, if_true]

/-- A digit and a colon do not resolve. -/
theorem resolveReference_colon (table : CwdTable) (pid fallback_device n : UInt8)
    (r : UInt8 × List (List UInt8)) :
    resolveReference table pid fallback_device [n, ':'.toUInt8] ≠ .ok r := by
  intro h
  have hrest : (referenceStart (table pid) fallback_device [n, ':'.toUInt8]).2.2 =
      [n, ':'.toUInt8] := by
    simp only [referenceStart, drivePrefix?]
    split
    · rfl
    split
    · rfl
    · rfl
  have hfold : ∀ comps, ([n, ':'.toUInt8].splitOn slash).foldlM resolvePiece comps =
      .error .RP_FS_PATH_INVALID_PATH := by
    intro comps
    by_cases hn : n = slash
    · subst hn
      show (do let c ← resolvePiece comps []; [[':'.toUInt8]].foldlM resolvePiece c) = _
      have hskip : resolvePiece comps [] = .ok comps := rfl
      rw [hskip]
      show ([[':'.toUInt8]].foldlM resolvePiece comps) = _
      rw [List.foldlM_cons, resolvePiece_colon comps (by simp)]
      rfl
    · have hsep : slash ∉ [n, ':'.toUInt8] := by
        simp only [List.mem_cons, List.not_mem_nil, or_false, not_or]
        exact ⟨Ne.symm hn, by decide⟩
      rw [List.splitOn_eq_singleton hsep, List.foldlM_cons, resolvePiece_colon comps (by simp)]
      rfl
  simp only [resolveReference, hrest, hfold] at h
  split at h
  · cases h
  split at h
  · cases h
  split at h
  · cases h
  · cases h

/-- What an input resolves to, and what follows a separator behind it is resolved from there. -/
theorem resolveReference_append {table : CwdTable} {pid fallback_device : UInt8} {a : List UInt8}
    {device : UInt8} {comps : List (List UInt8)}
    (ha : resolveReference table pid fallback_device a = .ok (device, comps)) (b : List UInt8) :
    resolveReference table pid fallback_device (a ++ slash :: b) =
      ((b.splitOn slash).foldlM resolvePiece comps).map fun comps => (device, comps) := by
  have hcolon : ∀ n, a ≠ [n, ':'.toUInt8] := by
    rintro n rfl
    exact resolveReference_colon table pid fallback_device n _ ha
  simp only [resolveReference] at ha ⊢
  split at ha
  · cases ha
  rename_i hpid
  split at ha
  · cases ha
  rename_i hne
  split at ha
  · cases ha
  rename_i hdevice
  have happend : a ++ slash :: b ≠ [] := List.append_ne_nil_of_left_ne_nil hne _
  rw [if_neg hpid, if_neg happend, referenceStart_append _ _ hne hcolon]
  dsimp only
  rw [if_neg hdevice, List.splitOn_append_cons_self, List.foldlM_append]
  rcases hfold : ((referenceStart (table pid) fallback_device a).2.2.splitOn slash).foldlM resolvePiece
      (referenceStart (table pid) fallback_device a).2.1 with code | comps'
  · rw [hfold] at ha
    cases ha
  · rw [hfold] at ha
    cases ha
    rfl

/-- From a working directory a relative input is resolved piece by piece. -/
theorem resolveReference_relative {table : CwdTable} {pid device : UInt8}
    {comps : List (List UInt8)} (hcomps : ∀ c ∈ comps, Is83 c)
    (hslot : table pid = ⟨true, device, joinSep slash comps⟩) (hpid : ¬ 8 ≤ pid)
    (hdevice : ¬ 4 ≤ device) (fallback_device : UInt8) {b : List UInt8} (hb : b ≠ [])
    (hslash : b.head? ≠ some slash) (hdrive : drivePrefix? b = none) :
    resolveReference table pid fallback_device b =
      ((b.splitOn slash).foldlM resolvePiece comps).map fun comps => (device, comps) := by
  have hstart : referenceStart (table pid) fallback_device b = (device, comps, b) := by
    rw [referenceStart, hdrive, hslot]
    simp only [if_neg hslash, if_true, components_joinSep hcomps]
  simp only [resolveReference, if_neg hpid, if_neg hb, hstart, if_neg hdevice]

theorem resolveReference_ok {table : CwdTable} {pid fallback_device : UInt8} {a : List UInt8}
    {device : UInt8} {comps : List (List UInt8)} (hcwd : (table pid).WellFormed)
    (ha : resolveReference table pid fallback_device a = .ok (device, comps)) :
    ¬ 8 ≤ pid ∧ ¬ 4 ≤ device ∧ ∀ c ∈ comps, Is83 c := by
  simp only [resolveReference] at ha
  split at ha
  · cases ha
  rename_i hpid
  split at ha
  · cases ha
  split at ha
  · cases ha
  rename_i hdevice
  obtain ⟨device', comps', cursor, rest, href, -, -, hcomps⟩ :=
    resolveStart_eq hcwd fallback_device a
  rw [href] at ha hdevice
  dsimp only at ha hdevice
  rcases hfold : (rest.splitOn slash).foldlM resolvePiece comps' with code | comps''
  · rw [hfold] at ha
    cases ha
  · rw [hfold] at ha
    cases ha
    exact ⟨hpid, hdevice, foldlM_resolvePiece_valid hcomps hfold⟩

/-- A failed resolution has the code of an error. -/
theorem foldlM_resolvePiece_error {pieces comps : List (List UInt8)} {code : RpFsPathResult}
    (h : pieces.foldlM resolvePiece comps = .error code) : code ≠ .RP_FS_PATH_OK := by
  induction pieces generalizing comps with
  | nil => cases h
  | cons piece pieces ih =>
    rw [List.foldlM_cons] at h
    rcases hstep : resolvePiece comps piece with code' | comps'
    · rw [hstep] at h
      cases h
      unfold resolvePiece at hstep
      split at hstep
      · cases hstep
      split at hstep
      · cases hstep
      split at hstep
      · cases hstep
        rintro ⟨⟩
      split at hstep
      · cases hstep
        rintro ⟨⟩
      · cases hstep
    · rw [hstep] at h
      exact ih h

theorem resolveReference_error {table : CwdTable} {pid fallback_device : UInt8} {a : List UInt8}
    {code : RpFsPathResult} (h : resolveReference table pid fallback_device a = .error code) :
    code ≠ .RP_FS_PATH_OK := by
  simp only [resolveReference] at h
  split at h
  · cases h
    rintro ⟨⟩
  split at h
  · cases h
    rintro ⟨⟩
  split at h
  · cases h
    rintro ⟨⟩
  · rcases hfold : ((referenceStart (table pid) fallback_device a).2.2.splitOn slash).foldlM
        resolvePiece (referenceStart (table pid) fallback_device a).2.1 with code' | comps
    · rw [hfold] at h
      cases h
      exact foldlM_resolvePiece_error hfold
    · rw [hfold] at h
      cases h

/-- What resolves is a list of components on a supported device. -/
theorem resolve_ok {table : CwdTable} {pid fallback_device : UInt8} {a : List UInt8}
    {r r₀ : RPFSResolvedPath} (hcwd : (table pid).WellFormed)
    (ha : rpFsResolveProcessPath table pid fallback_device a r₀ = (.RP_FS_PATH_OK, r)) :
    ∃ device comps, resolveReference table pid fallback_device a = .ok (device, comps) ∧
      r = ⟨device, renderComponents comps⟩ := by
  rw [rpFsResolveProcessPath_eq_of_wellFormed hcwd] at ha
  rcases href : resolveReference table pid fallback_device a with code | ⟨device, comps⟩
  · rw [href] at ha
    exact absurd (congrArg Prod.fst ha) (resolveReference_error href)
  · rw [href] at ha
    exact ⟨device, comps, rfl, (congrArg Prod.snd ha).symm⟩

/-- Changing to what `a` resolves to and then resolving the relative path `b` is resolving `a/b`. -/
theorem rpFsCwdSet_resolve_append {table : CwdTable} (htable : CwdReachable table)
    (pid fallback_device : UInt8) {a b : List UInt8} {r r₀ : RPFSResolvedPath}
    (ha : rpFsResolveProcessPath table pid fallback_device a r₀ = (.RP_FS_PATH_OK, r))
    (hset : (rpFsCwdSet table pid r).1 = true) (hb : b ≠ []) (hslash : b.head? ≠ some slash)
    (hdrive : rpFsPathHasDrivePrefix b = none) (resolved : RPFSResolvedPath) :
    rpFsResolveProcessPath (rpFsCwdSet table pid r).2 pid fallback_device b resolved =
      rpFsResolveProcessPath table pid fallback_device (a ++ slash :: b) resolved := by
  have hcwd := htable.wellFormed pid
  have hcwd' := (htable.set pid r).wellFormed pid
  obtain ⟨device, comps, href, rfl⟩ := resolve_ok hcwd ha
  obtain ⟨hpid, hdevice, hcomps⟩ := resolveReference_ok hcwd href
  have hslot : (rpFsCwdSet table pid ⟨device, renderComponents comps⟩).2 pid =
      ⟨true, device, joinSep slash comps⟩ := by
    rcases rpFsCwdSet_cases table pid ⟨device, renderComponents comps⟩ with h | ⟨-, h⟩
    · rw [h] at hset
      cases hset
    · rw [h]
      show Function.update table pid ⟨true, device, dropRoot (renderComponents comps)⟩ pid = _
      rw [Function.update_self, dropRoot_renderComponents hcomps]
  have hno : drivePrefix? b = none := by
    have h := rpFsPathHasDrivePrefix_eq b
    rcases hd : drivePrefix? b with - | ⟨n, rest⟩
    · rfl
    · rw [hd] at h
      rw [h.1] at hdrive
      cases hdrive
  rw [rpFsResolveProcessPath_eq_of_wellFormed hcwd', rpFsResolveProcessPath_eq_of_wellFormed hcwd,
    resolveReference_append href, resolveReference_relative hcomps hslot hpid hdevice _ hb hslash hno]

/-- Changing to `A` and resolving `../B` is resolving `A/../B`. -/
theorem rpFsCwdSet_resolve_up :
    let table := rpFsCwdResetAll .initial
    rpFsResolveProcessPath (rpFsCwdSet table 0 ⟨0, ['A'.toUInt8]⟩).2 0 0
        [dot, dot, slash, 'B'.toUInt8] ⟨0, []⟩ =
      rpFsResolveProcessPath table 0 0
        (['A'.toUInt8] ++ slash :: [dot, dot, slash, 'B'.toUInt8]) ⟨0, []⟩ := by
  intro table
  have htable : CwdReachable table := .resetAll .initial
  have ha : rpFsResolveProcessPath table 0 0 ['A'.toUInt8] ⟨0, []⟩ =
      (.RP_FS_PATH_OK, ⟨0, ['A'.toUInt8]⟩) :=
    (rpFsResolveProcessPath_eq_reference htable 0 0 _ _).trans (by decide)
  exact rpFsCwdSet_resolve_append htable 0 0 ha (by decide) (by simp) (by decide) (by decide)
    ⟨0, []⟩

end NeoMmu
