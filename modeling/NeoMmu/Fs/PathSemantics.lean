import NeoMmu.Foundation.Bytes
import NeoMmu.Fs.Path

/-!
# What path resolution means

A path stands for a list of 8.3 components. Resolution is a fold over the pieces of the input between
separators; the theorem of this module says that the in-place editing of `rp_fs_path.cpp` computes
that fold, from every working directory table the firmware can build.
-/

namespace NeoMmu

/-! ## The 8.3 grammar -/

/-- One to eight name characters, then optionally a dot and one to three more. -/
def Is83 (s : List UInt8) : Prop :=
  ∃ base : List UInt8, (∀ c ∈ base, isChar83 c = true) ∧ 1 ≤ base.length ∧ base.length ≤ 8 ∧
    (s = base ∨ ∃ ext : List UInt8, (∀ c ∈ ext, isChar83 c = true) ∧ 1 ≤ ext.length ∧
      ext.length ≤ 3 ∧ s = base ++ dot :: ext)

/-- A name character is none of the characters every scan rejects or treats apart. -/
theorem isChar83_ordinary : ∀ c : UInt8, isChar83 c = true →
    ¬ (c < 33 ∨ 127 ≤ c) ∧ ¬ ('a'.toUInt8 ≤ c ∧ c ≤ 'z'.toUInt8) ∧ c ≠ dot := by
  decide +kernel

namespace Scan83

/-- A counter below its limit goes up without wrapping. -/
theorem toNat_succ {n : Nat} (hn : n ≤ 8) : (UInt8.ofNat n + 1).toNat = n + 1 := by
  rw [UInt8.toNat_add, UInt8.toNat_ofNat_of_lt' (lt_of_le_of_lt hn (by decide))]
  exact Nat.mod_eq_of_lt (by show n + 1 < 256; omega)

theorem ofNat_succ (n : Nat) : UInt8.ofNat n + 1 = UInt8.ofNat (n + 1) := (UInt8.ofNat_add n 1).symm

theorem limit_iff {n : Nat} (hn : n ≤ 8) (limit : UInt8) :
    limit < UInt8.ofNat n + 1 ↔ ¬ n + 1 ≤ limit.toNat := by
  rw [UInt8.lt_iff_toNat_lt, toNat_succ hn]
  omega

section Rejected

variable {rejected : List UInt8} (hrej : ∀ c ∈ rejected, isChar83 c = false ∧ c ≠ dot)

include hrej

/-- Rejecting more characters by name changes nothing for a name character. -/
theorem not_rejected {c : UInt8} (hc : isChar83 c = true) : ¬ (c ∈ rejected ∨ c < 33 ∨ 127 ≤ c) := by
  rintro (h | h)
  · rw [(hrej c h).1] at hc
    cases hc
  · exact (isChar83_ordinary c hc).1 h

theorem step_base {b : Nat} (hb : b ≤ 8) {c : UInt8} (hc : isChar83 c = true) :
    step rejected ⟨UInt8.ofNat b, 0, false⟩ c =
      if b + 1 ≤ 8 then some ⟨UInt8.ofNat (b + 1), 0, false⟩ else none := by
  obtain ⟨-, h₂, h₃⟩ := isChar83_ordinary c hc
  have hlimit : (8 : UInt8) < UInt8.ofNat b + 1 ↔ ¬ b + 1 ≤ 8 := limit_iff hb 8
  rw [step, if_neg (not_rejected hrej hc), if_neg h₂, if_neg h₃, if_neg (by simp [hc]),
    if_neg Bool.false_ne_true, if_congr hlimit rfl rfl, ite_not, ofNat_succ]

theorem step_ext {b : UInt8} {e : Nat} (he : e ≤ 3) {c : UInt8} (hc : isChar83 c = true) :
    step rejected ⟨b, UInt8.ofNat e, true⟩ c =
      if e + 1 ≤ 3 then some ⟨b, UInt8.ofNat (e + 1), true⟩ else none := by
  obtain ⟨-, h₂, h₃⟩ := isChar83_ordinary c hc
  have hlimit : (3 : UInt8) < UInt8.ofNat e + 1 ↔ ¬ e + 1 ≤ 3 := limit_iff (by omega) 3
  rw [step, if_neg (not_rejected hrej hc), if_neg h₂, if_neg h₃, if_neg (by simp [hc]), if_pos rfl,
    if_congr hlimit rfl rfl, ite_not, ofNat_succ]

theorem step_dot (st : Scan83) : step rejected st dot =
    if st.in_ext ∨ st.base_len = 0 then none else some { st with in_ext := true } := by
  have h₁ : ¬ (dot ∈ rejected ∨ dot < 33 ∨ 127 ≤ dot) := by
    rintro (h | h)
    · exact (hrej dot h).2 rfl
    · exact absurd h (by decide)
  rw [step, if_neg h₁, if_neg (by decide), if_pos rfl]

omit hrej in
theorem step_other (st : Scan83) {c : UInt8} (hc : isChar83 c = false) (hd : c ≠ dot) :
    step rejected st c = none := by
  unfold step
  split
  · rfl
  · split
    · rfl
    · rfl

/-- Name characters in the base only count. -/
theorem foldlM_base {s : List UInt8} (hs : ∀ c ∈ s, isChar83 c = true) (r : List UInt8) {b : Nat}
    (hb : b ≤ 8) : (s ++ r).foldlM (step rejected) ⟨UInt8.ofNat b, 0, false⟩ =
      if b + s.length ≤ 8 then r.foldlM (step rejected) ⟨UInt8.ofNat (b + s.length), 0, false⟩
      else none := by
  induction s generalizing b with
  | nil => simp [hb]
  | cons c s ih =>
    have hc : isChar83 c = true := hs c List.mem_cons_self
    have hrest : ∀ d ∈ s, isChar83 d = true := fun d hd => hs d (List.mem_cons_of_mem c hd)
    rw [List.cons_append, List.foldlM_cons, step_base hrej hb hc, List.length_cons]
    by_cases hb' : b + 1 ≤ 8
    · rw [if_pos hb', Option.bind_eq_bind, Option.bind_some, ih hrest hb']
      simp only [Nat.add_assoc, Nat.add_comm 1]
    · rw [if_neg hb', if_neg (by omega)]
      rfl

/-- The extension is accepted exactly when it is at most three name characters. -/
theorem foldlM_ext (s : List UInt8) {b : UInt8} {e : Nat} (he : e ≤ 3) :
    s.foldlM (step rejected) ⟨b, UInt8.ofNat e, true⟩ =
      if (∀ c ∈ s, isChar83 c = true) ∧ e + s.length ≤ 3 then some ⟨b, UInt8.ofNat (e + s.length), true⟩
      else none := by
  induction s generalizing e with
  | nil => simp [he]
  | cons c s ih =>
    rw [List.foldlM_cons, List.length_cons]
    by_cases hc : isChar83 c = true
    · rw [step_ext hrej he hc]
      by_cases he' : e + 1 ≤ 3
      · rw [if_pos he', Option.bind_eq_bind, Option.bind_some, ih he']
        simp [hc, Nat.add_assoc, Nat.add_comm 1]
      · rw [if_neg he', if_neg (by omega)]
        rfl
    · have hc' : isChar83 c = false := by simpa using hc
      have hnone : step rejected ⟨b, UInt8.ofNat e, true⟩ c = none := by
        by_cases hd : c = dot
        · rw [hd, step_dot hrej]
          simp
        · exact step_other _ hc' hd
      rw [hnone, if_neg fun h => hc (h.1 c List.mem_cons_self)]
      rfl

/-- A dot after a nonempty base opens the extension. -/
theorem foldlM_dot_ext {b : UInt8} (hb : b ≠ 0) (ext : List UInt8) :
    (dot :: ext).foldlM (step rejected) ⟨b, 0, false⟩ =
      if (∀ c ∈ ext, isChar83 c = true) ∧ ext.length ≤ 3 then some ⟨b, UInt8.ofNat ext.length, true⟩
      else none := by
  have hdot : step rejected ⟨b, 0, false⟩ dot = some ⟨b, UInt8.ofNat 0, true⟩ := by
    rw [step_dot hrej, if_neg (by simpa using hb)]
    rfl
  rw [List.foldlM_cons, hdot, Option.bind_eq_bind, Option.bind_some, foldlM_ext hrej ext (Nat.zero_le 3)]
  simp only [Nat.zero_add]

omit hrej in
theorem ofNat_eq_zero {n : Nat} (hn : n ≤ 8) : UInt8.ofNat n = 0 ↔ n = 0 := by
  rw [← UInt8.toNat_inj, UInt8.toNat_ofNat_of_lt' (lt_of_le_of_lt hn (by decide))]
  rfl

/-- A scanner that rejects no name character and no dot by name accepts exactly the 8.3 grammar. -/
theorem accepts_iff (s : List UInt8) : accepts rejected s = true ↔ Is83 s := by
  have hzero : ∀ {n : Nat}, n ≤ 8 → (UInt8.ofNat n != 0) = !(n == 0) := fun {n} hn => by
    rw [bne, Bool.not_inj_iff, Bool.eq_iff_iff, beq_iff_eq, beq_iff_eq, ofNat_eq_zero hn]
  have hfold_base : ∀ {base : List UInt8} (_ : ∀ c ∈ base, isChar83 c = true) (rest : List UInt8),
      (base ++ rest).foldlM (step rejected) ⟨0, 0, false⟩ = if base.length ≤ 8 then
        rest.foldlM (step rejected) ⟨UInt8.ofNat base.length, 0, false⟩ else none := by
    intro base hbase rest
    have h := foldlM_base hrej hbase rest (Nat.zero_le 8)
    rw [Nat.zero_add] at h
    exact h
  constructor
  · intro h
    -- Cut at the first character that is no name character.
    have hbase : ∀ c ∈ s.takeWhile isChar83, isChar83 c = true := fun c hc =>
      List.mem_takeWhile_imp hc
    have hsplit : s.takeWhile isChar83 ++ s.dropWhile isChar83 = s :=
      List.takeWhile_append_dropWhile
    have hhead := List.head?_dropWhile_not isChar83 s
    generalize s.takeWhile isChar83 = base at hbase hsplit
    generalize s.dropWhile isChar83 = rest at hhead hsplit
    subst hsplit
    rw [accepts, hfold_base hbase rest] at h
    by_cases hlen : base.length ≤ 8
    swap
    · simp [hlen] at h
    rw [if_pos hlen] at h
    have hpos : base.length ≠ 0 → 1 ≤ base.length := Nat.pos_of_ne_zero
    cases rest with
    | nil =>
      have hne : base.length ≠ 0 := by simpa [hzero hlen] using h
      exact ⟨base, hbase, hpos hne, hlen, .inl (by simp)⟩
    | cons c ext =>
      have hc : isChar83 c = false := by simpa using hhead
      by_cases hd : c = dot
      swap
      · simp [step_other _ hc hd] at h
      subst hd
      by_cases hne : base.length = 0
      · simp [step_dot hrej, hne] at h
      rw [foldlM_dot_ext hrej (mt (ofNat_eq_zero hlen).1 hne)] at h
      by_cases hext : (∀ c ∈ ext, isChar83 c = true) ∧ ext.length ≤ 3
      swap
      · simp [hext] at h
      rw [if_pos hext] at h
      have hext1 : ext.length ≠ 0 := by
        simpa [hzero hlen, hzero (hext.2.trans (by omega : 3 ≤ 8)), hne] using h
      exact ⟨base, hbase, hpos hne, hlen, .inr ⟨ext, hext.1, Nat.pos_of_ne_zero hext1, hext.2, rfl⟩⟩
  · rintro ⟨base, hbase, hpos, hlen, rfl | ⟨ext, hext, hext1, hext3, rfl⟩⟩
    · have hfold := hfold_base hbase []
      rw [List.append_nil, if_pos hlen] at hfold
      have h0 : s.length ≠ 0 := by omega
      simp [accepts, hfold, hzero hlen, h0]
    · have h0 : base.length ≠ 0 := by omega
      have h1 : ext.length ≠ 0 := by omega
      have hfold := hfold_base hbase (dot :: ext)
      rw [if_pos hlen, foldlM_dot_ext hrej (mt (ofNat_eq_zero hlen).1 h0), if_pos ⟨hext, hext3⟩] at hfold
      simp [accepts, hfold, hzero hlen, hzero (hext3.trans (by omega : 3 ≤ 8)),
        List.length_eq_zero_iff.not.1 h0, List.length_eq_zero_iff.not.1 h1]

end Rejected

end Scan83

/-- A scanner that turns the empty string away first. -/
theorem scanner_iff {rejected : List UInt8} (hrej : ∀ c ∈ rejected, isChar83 c = false ∧ c ≠ dot)
    (s : List UInt8) : (if s = [] then false else Scan83.accepts rejected s) = true ↔ Is83 s := by
  rcases eq_or_ne s [] with rfl | hne
  · rw [if_pos rfl]
    refine iff_of_false Bool.false_ne_true ?_
    rintro ⟨base, -, hpos, -, h | ⟨ext, -, -, -, h⟩⟩
    · rw [← h] at hpos
      exact absurd hpos (by decide)
    · exact List.append_ne_nil_of_right_ne_nil base (List.cons_ne_nil dot ext) h.symm
  · rw [if_neg hne]
    exact Scan83.accepts_iff hrej s

/-- The characters that scanners reject by name are no name characters. -/
theorem char83_rejected : ∀ c ∈ [slash, '\\'.toUInt8, ':'.toUInt8], isChar83 c = false ∧ c ≠ dot := by
  decide +kernel

/-- The component check accepts exactly the 8.3 grammar. -/
theorem rpFsPathComponentValid83_iff (s : List UInt8) :
    rpFsPathComponentValid83 s = true ↔ Is83 s :=
  scanner_iff char83_rejected s

instance : DecidablePred Is83 := fun s =>
  decidable_of_iff (rpFsPathComponentValid83 s = true) (rpFsPathComponentValid83_iff s)

namespace Is83

variable {s : List UInt8}

theorem ne_nil (h : Is83 s) : s ≠ [] := by
  obtain ⟨base, -, hpos, -, rfl | ⟨ext, -, -, -, rfl⟩⟩ := h
  · exact List.ne_nil_of_length_pos hpos
  · simp

theorem slash_notMem (h : Is83 s) : slash ∉ s := by
  have hchar : ∀ t : List UInt8, (∀ c ∈ t, isChar83 c = true) → slash ∉ t := fun t ht hmem =>
    absurd (ht slash hmem) (by decide)
  obtain ⟨base, hbase, -, -, rfl | ⟨ext, hext, -, -, rfl⟩⟩ := h
  · exact hchar s hbase
  · simp only [List.mem_append, List.mem_cons, not_or]
    exact ⟨hchar base hbase, by decide, hchar ext hext⟩

end Is83

/-! ## The reference -/

/-- A component list as a path: the root is `/`, other paths have no leading separator. -/
def renderComponents (comps : List (List UInt8)) : List UInt8 :=
  if comps = [] then [slash] else joinSep slash comps

/-- One piece of the input applied to the component list. -/
def resolvePiece (comps : List (List UInt8)) (piece : List UInt8) :
    Except RpFsPathResult (List (List UInt8)) :=
  if piece = [] ∨ piece = [dot] then .ok comps
  else if piece = [dot, dot] then .ok comps.dropLast
  else if ¬ Is83 piece then .error .RP_FS_PATH_INVALID_PATH
  else if 63 < (joinSep slash (comps ++ [piece])).length then .error .RP_FS_PATH_TOO_LONG
  else .ok (comps ++ [piece])

/-- The drive an `N:/` prefix names and what follows it. -/
def drivePrefix? : List UInt8 → Option (UInt8 × List UInt8)
  | n :: c :: s :: rest =>
    if '0'.toUInt8 ≤ n ∧ n ≤ '9'.toUInt8 ∧ c = ':'.toUInt8 ∧ s = slash then
      some (n - '0'.toUInt8, rest)
    else none
  | _ => none

/-- The components of a working directory. -/
def RPFSProcessCwd.components (cwd : RPFSProcessCwd) : List (List UInt8) :=
  tokens (· == slash) cwd.path

/-- The device, the component list to start from and the rest of the input. -/
def referenceStart (cwd : RPFSProcessCwd) (fallback_device : UInt8) (input : List UInt8) :
    UInt8 × List (List UInt8) × List UInt8 :=
  match drivePrefix? input with
  | some (n, rest) => (n, [], rest)
  | none =>
    if input.head? = some slash then (if cwd.valid then cwd.device else fallback_device, [], input)
    else if cwd.valid then (cwd.device, cwd.components, input)
    else (fallback_device, [], input)

/-- Path resolution over component lists. -/
def resolveReference (table : CwdTable) (pid fallback_device : UInt8) (input : List UInt8) :
    Except RpFsPathResult (UInt8 × List (List UInt8)) :=
  if 8 ≤ pid then .error .RP_FS_PATH_INVALID_PID
  else if input = [] then .error .RP_FS_PATH_INVALID_PATH
  else
    let (device, comps, rest) := referenceStart (table pid) fallback_device input
    if 4 ≤ device then .error .RP_FS_PATH_INVALID_DEVICE
    else ((rest.splitOn slash).foldlM resolvePiece comps).map fun comps => (device, comps)

/-! ## The tables the firmware can build -/

/-- The working directory tables reachable by any calls with any arguments. -/
inductive CwdReachable : CwdTable → Prop
  | initial : CwdReachable CwdTable.initial
  | resetAll {table} : CwdReachable table → CwdReachable (rpFsCwdResetAll table)
  | initRoot {table} (pid device : UInt8) :
    CwdReachable table → CwdReachable (rpFsCwdInitRoot table pid device).2
  | clone {table} (child_pid parent_pid : UInt8) :
    CwdReachable table → CwdReachable (rpFsCwdClone table child_pid parent_pid).2
  | set {table} (pid : UInt8) (cwd : RPFSResolvedPath) :
    CwdReachable table → CwdReachable (rpFsCwdSet table pid cwd).2

/-- A slot holds a short list of 8.3 components, and a valid one a supported device. -/
structure RPFSProcessCwd.WellFormed (cwd : RPFSProcessCwd) : Prop where
  components_valid : ∀ c ∈ cwd.components, Is83 c
  path_eq : cwd.path = joinSep slash cwd.components
  fits : cwd.path.length < RP_FS_NEOX_CWD_MAX
  device_valid : cwd.valid = true → rpFsPathDeviceValid cwd.device = true

theorem RPFSProcessCwd.wellFormed_root (valid : Bool) {device : UInt8}
    (hdev : valid = true → rpFsPathDeviceValid device = true) :
    (RPFSProcessCwd.mk valid device []).WellFormed :=
  ⟨by simp [components], by simp [components], Nat.succ_pos 31, hdev⟩

/-- The loop of a path scanner accepts a path whose pieces are all 8.3 components. -/
theorem validPathLoop_iff {valid : List UInt8 → Bool} (hvalid : ∀ s, valid s = true ↔ Is83 s)
    (component path : List UInt8) (hc : slash ∉ component) :
    validPathLoop valid component path = true ↔ ∀ c ∈ (component ++ path).splitOn slash, Is83 c := by
  induction path generalizing component with
  | nil =>
    simp [validPathLoop, List.splitOn_eq_singleton hc, hvalid]
  | cons c p ih =>
    by_cases hcs : c = slash
    · subst hcs
      have hp : validPathLoop valid [] p = true → (p != []) = true := by
        intro h
        cases p with
        | nil => exact absurd rfl ((hvalid []).1 h).ne_nil
        | cons => rfl
      have ih' := ih [] (by simp)
      rw [List.nil_append] at ih'
      rw [List.splitOn_append_cons_self_of_not_mem hc]
      simp only [validPathLoop, if_true, Bool.and_eq_true, hvalid, List.forall_mem_cons]
      exact and_congr_right fun _ => ⟨fun h => ih'.1 h.2, fun h => ⟨hp (ih'.2 h), ih'.2 h⟩⟩
    · have hc' : slash ∉ component ++ [c] := by simp [hc, Ne.symm hcs]
      rw [validPathLoop, if_neg hcs, ih _ hc', List.append_assoc, List.singleton_append]

/-- A path `rp_fs_cwd_set` accepts is empty after its root or has only 8.3 pieces. -/
theorem pieces_of_rpFsPathValid83 {path : List UInt8} (hdrive : rpFsPathHasDrivePrefix path = none)
    (hvalid : rpFsPathValid83 path = true) :
    dropRoot path = [] ∨ ∀ c ∈ (dropRoot path).splitOn slash, Is83 c := by
  have hloop := validPathLoop_iff rpFsPathComponentValid83_iff []
  rw [rpFsPathValid83, hdrive] at hvalid
  cases path with
  | nil => exact .inl rfl
  | cons c rest =>
    by_cases hc : c = slash
    · simp only [validLogicalPath, hc, if_true, Bool.or_eq_true, beq_iff_eq] at hvalid
      simp only [dropRoot, hc, if_true]
      exact hvalid.imp id fun h => (hloop rest (by simp)).1 h
    · simp only [validLogicalPath, hc, if_false] at hvalid
      simp only [dropRoot, hc, if_false]
      exact .inr ((hloop (c :: rest) (by simp)).1 hvalid)

/-- A path whose pieces are all 8.3 components is a well-formed working directory. -/
theorem RPFSProcessCwd.wellFormed_of_pieces {cwd : RPFSProcessCwd}
    (hpieces : ∀ c ∈ cwd.path.splitOn slash, Is83 c) (hfits : cwd.path.length < RP_FS_NEOX_CWD_MAX)
    (hdev : rpFsPathDeviceValid cwd.device = true) : cwd.WellFormed := by
  have hcomps : cwd.components = cwd.path.splitOn slash := by
    rw [components, tokens, ← List.splitOn_eq_splitOnP, List.filter_eq_self]
    intro c hc
    simpa using (hpieces c hc).ne_nil
  refine ⟨by rwa [hcomps], ?_, hfits, fun _ => hdev⟩
  rw [hcomps, joinSep, List.intercalate_splitOn]

/-- Storing a well-formed slot keeps every slot well formed. -/
theorem CwdTable.wellFormed_update {table : CwdTable} (h : ∀ pid, (table pid).WellFormed)
    (target : UInt8) {slot : RPFSProcessCwd} (hslot : slot.WellFormed) (pid : UInt8) :
    (Function.update table target slot pid).WellFormed := by
  by_cases hp : pid = target
  · rw [hp, Function.update_self]
    exact hslot
  · rw [Function.update_of_ne hp]
    exact h pid

/-- Every slot of a reachable table is well formed. -/
theorem CwdReachable.wellFormed {table : CwdTable} (h : CwdReachable table) (pid : UInt8) :
    (table pid).WellFormed := by
  induction h generalizing pid with
  | initial => exact RPFSProcessCwd.wellFormed_root false fun h => absurd h (by decide)
  | resetAll _ ih =>
    unfold rpFsCwdResetAll
    split
    · exact RPFSProcessCwd.wellFormed_root true fun _ => by decide
    · exact ih pid
  | initRoot target device _ ih =>
    unfold rpFsCwdInitRoot
    split
    · exact ih pid
    · rename_i hguard
      have hdev : rpFsPathDeviceValid device = true := by simpa using (not_or.1 hguard).2
      exact CwdTable.wellFormed_update ih target
        (RPFSProcessCwd.wellFormed_root true fun _ => hdev) pid
  | clone child parent _ ih =>
    unfold rpFsCwdClone
    split
    · exact ih pid
    · exact CwdTable.wellFormed_update ih child (ih parent) pid
  | set target cwd _ ih =>
    unfold rpFsCwdSet
    split
    · exact ih pid
    rename_i hguard
    split
    · exact ih pid
    rename_i hdrive
    split
    · exact ih pid
    rename_i hvalid
    dsimp only
    split
    · exact ih pid
    rename_i hfits
    have hdev : rpFsPathDeviceValid cwd.device = true := by simpa using (not_or.1 hguard).2
    refine CwdTable.wellFormed_update ih target ?_ pid
    rcases pieces_of_rpFsPathValid83 (by simpa using hdrive) (by simpa using hvalid) with h | h
    · rw [h]
      exact RPFSProcessCwd.wellFormed_root true fun _ => hdev
    · exact RPFSProcessCwd.wellFormed_of_pieces h (by simpa using hfits) hdev

/-! ## Resolution computes the reference -/

/-- Popping a component path drops its last component. -/
theorem rpFsPathPopComponent_joinSep {comps : List (List UInt8)} (hcomps : ∀ c ∈ comps, Is83 c) :
    rpFsPathPopComponent (joinSep slash comps) = joinSep slash comps.dropLast := by
  rw [rpFsPathPopComponent, dropLastToken_joinSep fun c hc => (hcomps c hc).slash_notMem]
  split
  · rename_i h
    have hnil : comps = [] := (joinSep_eq_nil_iff fun c hc => (hcomps c hc).ne_nil).1 h
    simp [hnil]
  · rfl

/-- Appending succeeds exactly when the joined list still fits the buffer. -/
theorem rpFsPathAppendComponent_joinSep {comps : List (List UInt8)} {c : List UInt8}
    (hcomps : ∀ c ∈ comps, Is83 c) (hc : Is83 c) :
    rpFsPathAppendComponent (joinSep slash comps) RP_FS_NEOX_PATH_MAX c =
      if 63 < (joinSep slash (comps ++ [c])).length then none
      else some (joinSep slash (comps ++ [c])) := by
  have hempty : joinSep slash comps = [] ↔ comps = [] :=
    joinSep_eq_nil_iff fun c hc => (hcomps c hc).ne_nil
  have hjoin : joinSep slash comps ++ (if joinSep slash comps = [] then [] else [slash]) ++ c =
      joinSep slash (comps ++ [c]) := by
    rw [joinSep_append_singleton]
    by_cases h : comps = []
    · simp [h]
    · rw [if_neg (hempty.not.2 h), if_neg h, List.append_assoc, List.singleton_append]
  have hguard : ¬ (RP_FS_NEOX_PATH_MAX = 0 ∨ c = []) := by simp [RP_FS_NEOX_PATH_MAX, hc.ne_nil]
  simp only [rpFsPathAppendComponent, hguard, if_false, ← List.length_append, hjoin]
  rfl

/-- The scanning loop folds `resolvePiece` over the tokens of what the cursor has left. -/
theorem resolveLoop_joinSep (cursor : List UInt8) {comps : List (List UInt8)}
    (hcomps : ∀ c ∈ comps, Is83 c) :
    resolveLoop cursor (joinSep slash comps) =
      ((tokens (· == slash) cursor).foldlM resolvePiece comps).map (joinSep slash) := by
  induction hn : cursor.length using Nat.strong_induction_on generalizing cursor comps with
  | _ n ih =>
  subst hn
  rw [resolveLoop, ← tokens_dropWhile cursor]
  by_cases hnil : cursor.dropWhile (· == slash) = []
  · simp [hnil, Except.map, pure, Except.pure]
  have hlt := length_scan_lt hnil
  have hhead : ∀ a ∈ (cursor.dropWhile (· == slash)).head?, (a == slash) = false := fun a ha => by
    have h := List.head?_dropWhile_not (· == slash) cursor
    rw [Option.mem_def.1 ha] at h
    simpa using h
  simp only [hnil, if_false]
  rw [tokens_scan hnil hhead, List.foldlM_cons]
  have hpiece : (cursor.dropWhile (· == slash)).takeWhile (!· == slash) ≠ [] :=
    mem_tokens (p := (· == slash)) (by rw [tokens_scan hnil hhead]; exact List.mem_cons_self)
  generalize (cursor.dropWhile (· == slash)).takeWhile (!· == slash) = piece at hpiece ⊢
  generalize (cursor.dropWhile (· == slash)).dropWhile (!· == slash) = rest at hlt ⊢
  by_cases hdot : piece = [dot]
  · have hstep : resolvePiece comps piece = .ok comps := by simp [resolvePiece, hdot]
    rw [if_pos hdot, hstep]
    exact ih _ hlt rest hcomps rfl
  by_cases hdots : piece = [dot, dot]
  · have hstep : resolvePiece comps piece = .ok comps.dropLast := by simp [resolvePiece, hdots]
    rw [if_neg hdot, if_pos hdots, hstep, rpFsPathPopComponent_joinSep hcomps]
    exact ih _ hlt rest (fun c hc => hcomps c (List.mem_of_mem_dropLast hc)) rfl
  rw [if_neg hdot, if_neg hdots]
  by_cases h83 : Is83 piece
  swap
  · have hstep : resolvePiece comps piece = .error .RP_FS_PATH_INVALID_PATH := by
      simp [resolvePiece, hpiece, hdot, hdots, h83]
    have hinvalid : rpFsPathComponentValid83 piece = false := by
      simpa using (rpFsPathComponentValid83_iff piece).not.2 h83
    rw [if_pos hinvalid, hstep]
    rfl
  have hvalid : ¬ rpFsPathComponentValid83 piece = false := by
    simpa using (rpFsPathComponentValid83_iff piece).2 h83
  rw [if_neg hvalid, rpFsPathAppendComponent_joinSep hcomps h83]
  by_cases hlong : 63 < (joinSep slash (comps ++ [piece])).length
  · have hstep : resolvePiece comps piece = .error .RP_FS_PATH_TOO_LONG := by
      simp only [resolvePiece, hpiece, hdot, hdots, h83, hlong, or_false, not_true, if_false, if_true]
    rw [if_pos hlong, hstep]
    rfl
  · have hstep : resolvePiece comps piece = .ok (comps ++ [piece]) := by
      simp only [resolvePiece, hpiece, hdot, hdots, h83, hlong, or_false, not_true, if_false]
    rw [if_neg hlong, hstep]
    refine ih _ hlt rest (fun c hc => ?_) rfl
    rcases List.mem_append.1 hc with hc | hc
    · exact hcomps c hc
    · rwa [List.mem_singleton.1 hc]

/-- Empty pieces are skipped, so the reference may fold over the tokens alone. -/
theorem foldlM_resolvePiece_splitOn (s : List UInt8) (comps : List (List UInt8)) :
    (s.splitOn slash).foldlM resolvePiece comps =
      (tokens (· == slash) s).foldlM resolvePiece comps := by
  rw [tokens, List.foldlM_filter, List.splitOn_eq_splitOnP]
  congr 1
  funext acc piece
  cases piece with
  | nil => rfl
  | cons => rfl

/-- Both readings of the drive prefix agree. -/
theorem rpFsPathHasDrivePrefix_eq (input : List UInt8) :
    match drivePrefix? input with
    | some (n, rest) => rpFsPathHasDrivePrefix input = some n ∧ input.drop 3 = rest
    | none => rpFsPathHasDrivePrefix input = none := by
  match input with
  | n :: c :: s :: rest =>
    by_cases h : '0'.toUInt8 ≤ n ∧ n ≤ '9'.toUInt8 ∧ c = ':'.toUInt8 ∧ s = slash
    · have h' : ¬ (n < '0'.toUInt8 ∨ '9'.toUInt8 < n ∨ c ≠ ':'.toUInt8 ∨ s ≠ slash) := by
        simpa [not_or, UInt8.not_lt] using h
      simp only [drivePrefix?, rpFsPathHasDrivePrefix, if_pos h, if_neg h']
      exact ⟨trivial, rfl⟩
    · have h' : n < '0'.toUInt8 ∨ '9'.toUInt8 < n ∨ c ≠ ':'.toUInt8 ∨ s ≠ slash := by
        by_contra hno
        exact h (by simpa [not_or, UInt8.not_lt] using hno)
      simp only [drivePrefix?, rpFsPathHasDrivePrefix, if_neg h, if_pos h']
  | [] | [_] | [_, _] => rfl

/-- The device, cursor and buffer resolution starts with are those of the reference. -/
theorem resolveStart_eq {cwd : RPFSProcessCwd} (hcwd : cwd.WellFormed) (fallback_device : UInt8)
    (input : List UInt8) : ∃ device comps cursor rest,
      referenceStart cwd fallback_device input = (device, comps, rest) ∧
      resolveStart cwd fallback_device input = .ok (device, cursor, joinSep slash comps) ∧
      tokens (· == slash) cursor = tokens (· == slash) rest ∧ ∀ c ∈ comps, Is83 c := by
  have hdrive := rpFsPathHasDrivePrefix_eq input
  unfold referenceStart resolveStart
  cases hd : drivePrefix? input with
  | some nr =>
    obtain ⟨n, rest⟩ := nr
    rw [hd] at hdrive
    obtain ⟨hpre, hrest⟩ := hdrive
    rw [hpre]
    exact ⟨n, [], rest, rest, rfl, by rw [hrest]; rfl, rfl, by simp⟩
  | none =>
    rw [hd] at hdrive
    rw [hdrive]
    dsimp only
    by_cases habs : input.head? = some slash
    · obtain ⟨rest, rfl⟩ := List.head?_eq_some_iff.1 habs
      rw [if_pos habs, if_pos habs]
      exact ⟨_, [], rest, slash :: rest, rfl, rfl, (tokens_cons_of_sep (by simp) rest).symm, by simp⟩
    · rw [if_neg habs, if_neg habs]
      by_cases hv : cwd.valid = true
      · have hfits : ¬ RP_FS_NEOX_PATH_MAX ≤ cwd.path.length := by
          have := hcwd.fits
          simp only [RP_FS_NEOX_CWD_MAX, RP_FS_NEOX_PATH_MAX] at this ⊢
          omega
        rw [if_pos hv, if_pos hv, if_neg hfits]
        exact ⟨_, _, input, input, rfl, by rw [← hcwd.path_eq], rfl, hcwd.components_valid⟩
      · rw [if_neg hv, if_neg hv]
        exact ⟨_, [], input, input, rfl, rfl, rfl, by simp⟩

theorem resolvePiece_valid {comps comps' : List (List UInt8)} {piece : List UInt8}
    (hcomps : ∀ c ∈ comps, Is83 c) (h : resolvePiece comps piece = .ok comps') :
    ∀ c ∈ comps', Is83 c := by
  unfold resolvePiece at h
  split at h
  · cases h
    exact hcomps
  split at h
  · cases h
    exact fun c hc => hcomps c (List.mem_of_mem_dropLast hc)
  split at h
  · cases h
  rename_i h83
  split at h
  · cases h
  cases h
  intro c hc
  rcases List.mem_append.1 hc with hc | hc
  · exact hcomps c hc
  · rw [List.mem_singleton.1 hc]
    exact not_not.1 h83

/-- Resolution only ever collects 8.3 components. -/
theorem foldlM_resolvePiece_valid {pieces comps comps' : List (List UInt8)}
    (hcomps : ∀ c ∈ comps, Is83 c) (h : pieces.foldlM resolvePiece comps = .ok comps') :
    ∀ c ∈ comps', Is83 c := by
  induction pieces generalizing comps with
  | nil =>
    cases h
    exact hcomps
  | cons piece pieces ih =>
    rw [List.foldlM_cons] at h
    cases hstep : resolvePiece comps piece with
    | error code => simp [hstep, bind, Except.bind] at h
    | ok mid =>
      rw [hstep] at h
      exact ih (resolvePiece_valid hcomps hstep) h

/-- The devices of the path engine are those of the storage. -/
theorem rpFsPathDeviceValid_iff (device : UInt8) : rpFsPathDeviceValid device = true ↔ device < 4 := by
  rw [rpFsPathDeviceValid, USB_STORAGE_MAX_DEVICES, Bool.and_eq_true, decide_eq_true_iff, decide_eq_true_iff,
    UInt8.lt_iff_toNat_lt, UInt8.le_iff_toNat_le]
  exact and_iff_left_of_imp fun h => (Nat.le_of_lt h).trans (by decide)

/-- From a well-formed working directory the path engine computes the reference. -/
theorem rpFsResolveProcessPath_eq_of_wellFormed {table : CwdTable} {pid : UInt8}
    (hcwd : (table pid).WellFormed) (fallback_device : UInt8) (input : List UInt8)
    (resolved : RPFSResolvedPath) :
    rpFsResolveProcessPath table pid fallback_device input resolved =
      match resolveReference table pid fallback_device input with
      | .error code => (code, resolved)
      | .ok (device, comps) => (.RP_FS_PATH_OK, ⟨device, renderComponents comps⟩) := by
  have hdev : ∀ device, rpFsPathDeviceValid device = false ↔ 4 ≤ device := by
    intro device
    rw [← Bool.not_eq_true, rpFsPathDeviceValid_iff, UInt8.not_lt]
  obtain ⟨device, comps, cursor, rest, href, hcode, htok, hcomps⟩ :=
    resolveStart_eq hcwd fallback_device input
  simp only [rpFsResolveProcessPath, rpFsResolveProcessPath.resolve, resolveReference,
    RP_FS_NEOX_MAX_PROCS, href, hcode, hdev]
  by_cases hpid : 8 ≤ pid
  · simp only [hpid, if_true]
  by_cases hinput : input = []
  · simp only [hpid, hinput, if_true, if_false]
  by_cases hdevice : 4 ≤ device
  · simp only [hpid, hinput, hdevice, if_true, if_false]
  simp only [hpid, hinput, hdevice, if_false]
  rw [foldlM_resolvePiece_splitOn, ← htok, resolveLoop_joinSep cursor hcomps]
  cases hfold : (tokens (· == slash) cursor).foldlM resolvePiece comps with
  | error code => rfl
  | ok comps' =>
    have hvalid := foldlM_resolvePiece_valid hcomps hfold
    have hroot : joinSep slash comps' = [] ↔ comps' = [] :=
      joinSep_eq_nil_iff fun c hc => (hvalid c hc).ne_nil
    simp only [Except.map, visiblePath, renderComponents, hroot]

/-- `rp_fs_resolve_process_path()` computes the reference, and stores nothing on an error. -/
theorem rpFsResolveProcessPath_eq_reference {table : CwdTable} (htable : CwdReachable table)
    (pid fallback_device : UInt8) (input : List UInt8) (resolved : RPFSResolvedPath) :
    rpFsResolveProcessPath table pid fallback_device input resolved =
      match resolveReference table pid fallback_device input with
      | .error code => (code, resolved)
      | .ok (device, comps) => (.RP_FS_PATH_OK, ⟨device, renderComponents comps⟩) :=
  rpFsResolveProcessPath_eq_of_wellFormed (htable.wellFormed pid) fallback_device input resolved

/-- `A/../B` on an untouched table resolves to `B` on the fallback device. -/
theorem rpFsResolveProcessPath_fallback :
    rpFsResolveProcessPath CwdTable.initial 0 2
        ['A'.toUInt8, slash, dot, dot, slash, 'B'.toUInt8] ⟨0, []⟩ =
      (.RP_FS_PATH_OK, ⟨2, ['B'.toUInt8]⟩) :=
  (rpFsResolveProcessPath_eq_reference .initial 0 2 _ _).trans (by decide)

end NeoMmu
