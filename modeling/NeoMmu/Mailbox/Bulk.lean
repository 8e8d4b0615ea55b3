import NeoMmu.Mailbox.Completion

/-!
# Rejected transfers of whole files

SAVE and LOAD answer `RP_ERR_EINVAL` for a request they cannot read and for a range that does not fit
in 64K. A SAVE opens its target before it looks at the range, and the open truncates: the disk is
untouched by a rejected request exactly when it is not such a SAVE.
-/

namespace NeoMmu

variable {σ δ α : Type}

/-! ## What a request reads -/

namespace Machine.View

/-- A block in a context's private memory, when the range and the context are accepted. -/
def contextBlock (v : View) (context : UInt8) (address length : UInt16) : Option (List UInt8) :=
  if rpFsMbPrivateRange address length = false ∨ maxContexts ≤ context then none
  else some ((v.inContext context).bytes address length.toNat)

/-- A path in a context's private memory. -/
def contextPath (v : View) (context : UInt8) (address max_len : UInt16) (dst_len : Nat) :
    Option (List UInt8) :=
  if dst_len < 2 ∨ max_len = 0 ∨ dst_len < max_len.toNat ∨ address = 0 ∨
      RP_FS_PRIVATE_LIMIT ≤ address.toNat ∨ maxContexts ≤ context then none
  else (v.inContext context).pathFrom address 0 max_len.toNat

/-- A path argument, resolved for a process. -/
def pathArg (v : View) (cwd : CwdTable) (pid context : UInt8) (path_ptr max_len : UInt16)
    (fallback_device : UInt8) : Option RPFSResolvedPath :=
  match v.contextPath context path_ptr max_len RP_FS_NEOX_PATH_MAX with
  | none => none
  | some input =>
    match rpFsResolveProcessPath cwd pid fallback_device input ⟨0, []⟩ with
    | (.RP_FS_PATH_OK, resolved) => some resolved
    | _ => none

/-- The argument block of an operation on one path, and the path, resolved. -/
def blockAndPath (v : View) (cwd : CwdTable) (pid context : UInt8) (args_ptr length : UInt16)
    (valid : List UInt8 → Bool) (path_ptr max_len : List UInt8 → UInt16) (device : List UInt8 → UInt8) :
    Option (List UInt8 × RPFSResolvedPath) :=
  match v.contextBlock context args_ptr length with
  | none => none
  | some raw =>
    if valid raw then (v.pathArg cwd pid context (path_ptr raw) (max_len raw) (device raw)).map (raw, ·)
    else none

/-- The arguments of a SAVE or LOAD: its file, where in memory and its size word. -/
def bulkArgs (v : View) (cwd : CwdTable) (pid context : UInt8) (args_ptr : UInt16) :
    Option (RPFSResolvedPath × UInt16 × UInt16) :=
  match v.contextBlock context args_ptr 8 with
  | none => none
  | some raw =>
    if rawByte raw 7 = 0 then
      (v.pathArg cwd pid context (rpFsMbU16 raw 0) (UInt16.ofNat (RP_FS_NEOX_PATH_MAX - 1))
        (rawByte raw 6)).map fun path => (path, rpFsMbU16 raw 2, rpFsMbU16 raw 4)
    else none

/-- A block that is accepted is valid. -/
theorem valid_of_blockAndPath {v : View} {cwd : CwdTable} {pid context : UInt8} {args_ptr length : UInt16}
    {valid : List UInt8 → Bool} {path_ptr max_len : List UInt8 → UInt16} {device : List UInt8 → UInt8}
    {raw : List UInt8} {path : RPFSResolvedPath}
    (h : v.blockAndPath cwd pid context args_ptr length valid path_ptr max_len device = some (raw, path)) :
    valid raw = true := by
  rw [blockAndPath] at h
  generalize v.contextBlock context args_ptr length = block at h
  rcases block with - | raw'
  · cases h
  · by_cases hvalid : valid raw' = true
    · simp only [hvalid, if_true, Option.map_eq_some_iff, Prod.mk.injEq] at h
      obtain ⟨-, -, rfl, -⟩ := h
      exact hvalid
    · simp only [hvalid, if_false, Bool.false_eq_true] at h
      cases h

theorem bulkArgs_eq (v : View) (cwd : CwdTable) (pid context : UInt8) (args_ptr : UInt16) :
    v.bulkArgs cwd pid context args_ptr =
      (v.blockAndPath cwd pid context args_ptr 8 (fun raw => rawByte raw 7 = 0) (rpFsMbU16 · 0)
        (fun _ => UInt16.ofNat (RP_FS_NEOX_PATH_MAX - 1)) (rawByte · 6)).map fun r =>
          (r.2, rpFsMbU16 r.1 2, rpFsMbU16 r.1 4) := by
  rw [bulkArgs, blockAndPath]
  rcases v.contextBlock context args_ptr 8 with - | raw
  · rfl
  · by_cases hraw : rawByte raw 7 = 0
    · simp only [hraw, decide_true, if_true, Option.map_map]
      rfl
    · simp only [hraw, decide_false, if_false, Bool.false_eq_true]
      rfl

end Machine.View

/-- Nothing but the machine's registers and the trace changes. -/
structure ReadsOnly (f f' : Firmware σ) : Prop where
  storage : f'.storage = f.storage
  cwd : f'.gRPFSProcessCwd = f.gRPFSProcessCwd
  board : f.hw.Settled → f'.hw.Settled ∧ f'.hw.ram = f.hw.ram ∧ f'.hw.mmuRam = f.hw.mmuRam

instance : Std.Refl (ReadsOnly (σ := σ)) where
  refl _ := ⟨rfl, rfl, fun h => ⟨h, rfl, rfl⟩⟩

instance : IsTrans (Firmware σ) ReadsOnly where
  trans f f' f'' h h' := by
    refine ⟨h'.storage.trans h.storage, h'.cwd.trans h.cwd, fun hf => ?_⟩
    obtain ⟨hsettled, hram, hmmu⟩ := h.board hf
    obtain ⟨hsettled', hram', hmmu'⟩ := h'.board hsettled
    exact ⟨hsettled', hram'.trans hram, hmmu'.trans hmmu⟩

/-- Every context shows the same after reads. -/
theorem ReadsOnly.inContext {f f' : Firmware σ} (h : ReadsOnly f f') (hf : f.hw.Settled) (c : UInt8) :
    f'.hw.view.inContext c = f.hw.view.inContext c := by
  obtain ⟨-, hram, hmmu⟩ := h.board hf
  show Machine.View.mk f'.hw.ram f'.hw.mmuRam _ _ _ = Machine.View.mk f.hw.ram f.hw.mmuRam _ _ _
  rw [hram, hmmu]

theorem ReadsOnly.pathArg {f f' : Firmware σ} (h : ReadsOnly f f') (hf : f.hw.Settled)
    (cwd : CwdTable) (pid c : UInt8) (a n : UInt16) (device : UInt8) :
    f'.hw.view.pathArg cwd pid c a n device = f.hw.view.pathArg cwd pid c a n device := by
  simp only [Machine.View.pathArg, Machine.View.contextPath, h.inContext hf]

theorem readsOnly_withContext {cycles : Prog Machine α} {r : Machine.View → α}
    (hcycles : Cycles cycles r []) (c : UInt8) :
    Prog.Keeps (ReadsOnly (σ := σ)) (withContext c (onHw cycles)) := by
  intro f
  rcases Nat.lt_or_ge c.toNat maxContexts.toNat with hc | hc
  · have hlt : c < maxContexts := hc
    have hinside : Prog.Keeps (Inside (σ := σ) fun _ => False) (onHw cycles) :=
      inside_cycles hcycles (by simp)
    refine ⟨?_, ?_, fun hf => ?_⟩
    · simp [withContext, UInt8.not_le.2 hlt, emit, onHw]
    · simp [withContext, UInt8.not_le.2 hlt, emit, onHw]
    · have haccess := withContext_access hf hlt hinside
      refine ⟨haccess.settled, funext fun cell => ?_, haccess.mmuRam⟩
      exact haccess.ram cell fun a ha => ha.elim
  · have hge : maxContexts ≤ c := hc
    rw [(withContext_refused hge _ f).2]
    exact refl f

section Reads

variable {f : Firmware σ}

theorem readsOnly_readContextBlock (c : UInt8) (a n : UInt16) :
    Prog.Keeps (ReadsOnly (σ := σ)) (rpFsMbReadContextBlock c a n) := by
  refine Prog.Keeps.ite (fun _ => Prog.Keeps.pure none) fun _ => ?_
  exact readsOnly_withContext (cycles_readBlock a n.toNat) c

theorem result_readContextBlock (hf : f.hw.Settled) (c : UInt8) (a n : UInt16) :
    (rpFsMbReadContextBlock c a n).result f = f.hw.view.contextBlock c a n := by
  simp only [rpFsMbReadContextBlock, Machine.View.contextBlock, Prog.result_ite, Prog.result_pure]
  by_cases hrange : rpFsMbPrivateRange a n = false
  · rw [if_pos hrange, if_pos (.inl hrange)]
  rw [if_neg hrange]
  by_cases hc : maxContexts ≤ c
  · rw [if_pos (.inr hc), (withContext_refused hc _ f).1]
  · rw [if_neg (not_or.2 ⟨hrange, hc⟩)]
    exact result_withContext hf (UInt8.not_le.1 hc) (cycles_readBlock a n.toNat)

theorem readsOnly_readContextPath (c : UInt8) (a n : UInt16) (dst_len : Nat) :
    Prog.Keeps (ReadsOnly (σ := σ)) (rpFsMbReadContextPath c a n dst_len) := by
  refine Prog.Keeps.ite (fun _ => Prog.Keeps.pure none) fun _ => ?_
  exact (readsOnly_withContext (cycles_readPathLoop a 0 n.toNat) c).bind fun _ => Prog.Keeps.pure _

theorem result_readContextPath (hf : f.hw.Settled) (c : UInt8) (a n : UInt16) (dst_len : Nat) :
    (rpFsMbReadContextPath c a n dst_len).result f = f.hw.view.contextPath c a n dst_len := by
  simp only [rpFsMbReadContextPath, Machine.View.contextPath, Prog.result_ite, Prog.result_pure,
    Prog.result_bind]
  by_cases hargs : dst_len < 2 ∨ n = 0 ∨ dst_len < n.toNat ∨ a = 0 ∨ RP_FS_PRIVATE_LIMIT ≤ a.toNat
  · rw [if_pos hargs, if_pos (by tauto)]
  rw [if_neg hargs]
  by_cases hc : maxContexts ≤ c
  · rw [if_pos (by tauto), (withContext_refused hc _ f).1]
    rfl
  · rw [if_neg (by tauto), result_withContext hf (UInt8.not_le.1 hc) (cycles_readPathLoop a 0 n.toNat)]
    rfl

theorem readsOnly_resolveArgPath (pid c : UInt8) (a n : UInt16) (device : UInt8) :
    Prog.Keeps (ReadsOnly (σ := σ)) (rpFsMbResolveArgPath pid c a n device) := by
  refine (readsOnly_readContextPath c a n _).bind fun input => ?_
  rcases input with - | input
  · exact Prog.Keeps.pure none
  · refine Prog.Keeps.get.bind fun f => ?_
    dsimp only
    split
    · exact Prog.Keeps.pure _
    · exact Prog.Keeps.pure none

theorem result_resolveArgPath (hf : f.hw.Settled) (pid c : UInt8) (a n : UInt16) (device : UInt8) :
    (rpFsMbResolveArgPath pid c a n device).result f =
      f.hw.view.pathArg f.gRPFSProcessCwd pid c a n device := by
  have hcwd := (readsOnly_readContextPath c a n RP_FS_NEOX_PATH_MAX f).cwd
  simp only [rpFsMbResolveArgPath, Machine.View.pathArg, Prog.result_bind,
    result_readContextPath hf]
  rcases f.hw.view.contextPath c a n RP_FS_NEOX_PATH_MAX with - | input
  · rfl
  · simp only [Prog.result_bind, Prog.result_get, hcwd]
    rcases rpFsResolveProcessPath f.gRPFSProcessCwd pid device input ⟨0, []⟩ with ⟨code, resolved⟩
    cases code <;> rfl

theorem readsOnly_rpRead16 (a : UInt16) : Prog.Keeps (ReadsOnly (σ := σ)) (onHw (rpRead16 a)) := by
  refine fun f => ⟨rfl, rfl, fun hf => ?_⟩
  obtain ⟨-, hview, hsettled⟩ := rpRead16_spec hf a
  exact ⟨hsettled, congrArg Machine.View.ram hview, congrArg Machine.View.mmuRam hview⟩

/-- `R` is kept by what a request of a context reads. -/
structure ReadRules (R : Firmware σ → Firmware σ → Prop) (context : UInt8) : Prop where
  read16 : ∀ a, Prog.Keeps R (onHw (rpRead16 a))
  readBlock : ∀ a n, Prog.Keeps R (rpFsMbReadContextBlock context a n)
  resolve : ∀ pid a n device, Prog.Keeps R (rpFsMbResolveArgPath pid context a n device)

theorem readRules_readsOnly (context : UInt8) : ReadRules (ReadsOnly (σ := σ)) context :=
  ⟨readsOnly_rpRead16, readsOnly_readContextBlock context, fun pid => readsOnly_resolveArgPath pid context⟩

/-- The word of the request block in front of an operation. -/
theorem final_readArg0 (hf : f.hw.Settled) (k : UInt16 → Prog (Firmware σ) α) :
    ∃ m : Machine, m.Settled ∧ m.view = f.hw.view ∧
      (readArg0 >>= k).final f = (k (f.hw.view.peek16 RP_ARG0L)).final { f with hw := m } := by
  obtain ⟨hres, hview, hm⟩ := rpRead16_spec hf RP_ARG0L
  refine ⟨_, hm, hview, ?_⟩
  rw [readArg0, Prog.final_bind, onHw, Prog.result_on, Prog.final_on, hres]

/-- The handle of the request block in front of an operation. -/
theorem final_readArg2L (hf : f.hw.Settled) (k : UInt8 → Prog (Firmware σ) α) :
    ∃ m : Machine, m.Settled ∧ m.view = f.hw.view ∧
      (readArg2L >>= k).final f = (k (f.hw.view.peek RP_ARG2L)).final { f with hw := m } := by
  obtain ⟨hres, hview, hm⟩ := snoopRead6502MemoryLoc_spec hf RP_ARG2L
  refine ⟨_, hm, hview, ?_⟩
  rw [readArg2L, Prog.final_bind, onHw, Prog.result_on, Prog.final_on, hres]

/-- A path argument in front of an operation. -/
theorem final_withPath (hf : f.hw.Settled) (pid c : UInt8) (a n : UInt16) (device : UInt8)
    (operation : RPFSResolvedPath → Prog (Firmware σ) MailboxState) :
    ∃ f₁, ReadsOnly f f₁ ∧ (withPath pid c a n device operation).final f =
      match f.hw.view.pathArg f.gRPFSProcessCwd pid c a n device with
      | none => (fsMbError RP_ERR_EINVAL 0).final f₁
      | some path => (operation path).final f₁ := by
  refine ⟨_, readsOnly_resolveArgPath pid c a n device f, ?_⟩
  simp only [withPath, Prog.final_bind, result_resolveArgPath hf]
  rcases f.hw.view.pathArg f.gRPFSProcessCwd pid c a n device with - | path
  · rfl
  · rfl

/-- An argument block in front of an operation. -/
theorem final_withArgs (hf : f.hw.Settled) (c : UInt8) (args_ptr length : UInt16)
    (valid : List UInt8 → Bool) (operation : List UInt8 → Prog (Firmware σ) MailboxState) :
    ∃ f₁, ReadsOnly f f₁ ∧ (withArgs c args_ptr length valid operation).final f =
      match f.hw.view.contextBlock c args_ptr length with
      | none => (fsMbError RP_ERR_EINVAL 0).final f₁
      | some raw => (if valid raw then operation raw else fsMbError RP_ERR_EINVAL 0).final f₁ := by
  refine ⟨_, readsOnly_readContextBlock c args_ptr length f, ?_⟩
  simp only [withArgs, Prog.final_bind, result_readContextBlock hf]
  rcases f.hw.view.contextBlock c args_ptr length with - | raw
  · rfl
  · rfl

/-! ## The exits of a SAVE or LOAD -/

/-- The mode a SAVE or LOAD opens its file in. -/
def bulkMode (operation : UInt8) : UInt8 :=
  if operation = RP_FS_OP_LOAD then FA_READ else FA_WRITE ||| FA_CREATE_ALWAYS

/-- The flags of the handle it opens. -/
def bulkFlags (operation : UInt8) : UInt8 :=
  if operation = RP_FS_OP_LOAD then RP_FS_HANDLE_READ else RP_FS_HANDLE_WRITE

/-- Whatever the number of bytes, a SAVE or LOAD opens its file as `rp_fs_open_mode_83()` does. -/
theorem bulkOpen_eq_open (ff : FatFs σ) (op device : UInt8) (path : List UInt8) (requested : Nat)
    (s : Storage σ) :
    (bulkOpen ff op device path requested).final s =
        (rpFsOpenMode83 ff device path (bulkMode op) (bulkFlags op)).final s ∧
      ((bulkOpen ff op device path requested).result s).1 =
        (rpFsOpenMode83 ff device path (bulkMode op) (bulkFlags op)).result s := by
  by_cases hload : op = RP_FS_OP_LOAD
  · simp only [bulkOpen, bulkMode, bulkFlags, if_pos hload, rpFsOpenReadonly83, Prog.result_bind,
      Prog.final_bind]
    rcases (rpFsOpenMode83 ff device path FA_READ RP_FS_HANDLE_READ).result s with - | handle
    · exact ⟨rfl, rfl⟩
    · exact ⟨rfl, rfl⟩
  · simp only [bulkOpen, bulkMode, bulkFlags, if_neg hload]
    exact ⟨rfl, rfl⟩

/-- The reply that stands in the trace, and the storage it leaves. -/
structure Replied (f' : Firmware σ) (status err : UInt8) (s : Storage σ) : Prop where
  events : f'.events.head? = some (.result status err)
  storage : f'.storage = s

theorem replied_error (err : UInt8) (partialResult : UInt16) (f : Firmware σ) :
    Replied ((fsMbError err partialResult).final f) RP_ERROR err f.storage := by
  simp only [fsMbError, rpMailboxSetError, Prog.final_bind, Prog.final_pure, emit, Prog.final_modify,
    onHw, Prog.final_on]
  exact ⟨rfl, rfl⟩

theorem replied_done (result : UInt16) (flags : UInt8) (f : Firmware σ) :
    Replied ((fsMbDone result flags).final f) RP_DONE RP_ERR_OK f.storage := by
  simp only [fsMbDone, rpMailboxSetDone, Prog.final_bind, Prog.final_pure, emit, Prog.final_modify,
    onHw, Prog.final_on]
  exact ⟨rfl, rfl⟩

variable (ff : FatFs σ)

/-- A request whose arguments are refused ends there; another goes on with its block and its path. -/
theorem final_withArgsPath {R : Firmware σ → Firmware σ → Prop} [IsTrans (Firmware σ) R] {context : UInt8}
    (hR : ReadRules R context) (hf : f.hw.Settled) (pid : UInt8) (args_ptr length : UInt16)
    (valid : List UInt8 → Bool) (path_ptr max_len : List UInt8 → UInt16) (device : List UInt8 → UInt8)
    (operation : List UInt8 → RPFSResolvedPath → Prog (Firmware σ) MailboxState) :
    ∃ f₁, ReadsOnly f f₁ ∧ R f f₁ ∧ (withArgs context args_ptr length valid fun raw =>
        withPath pid context (path_ptr raw) (max_len raw) (device raw) (operation raw)).final f =
      match f.hw.view.blockAndPath f.gRPFSProcessCwd pid context args_ptr length valid path_ptr max_len
          device with
      | none => (fsMbError RP_ERR_EINVAL 0).final f₁
      | some (raw, path) => (operation raw path).final f₁ := by
  have hargs := readsOnly_readContextBlock context args_ptr length f
  have hRargs := hR.readBlock args_ptr length f
  simp only [withArgs, withPath, Machine.View.blockAndPath, Prog.final_bind, result_readContextBlock hf]
  generalize (rpFsMbReadContextBlock context args_ptr length).final f = f₁ at hargs hRargs ⊢
  rcases f.hw.view.contextBlock context args_ptr length with - | raw
  · exact ⟨f₁, hargs, hRargs, rfl⟩
  by_cases hraw : valid raw = true
  swap
  · exact ⟨f₁, hargs, hRargs, by simp [hraw]⟩
  have hRpath := hR.resolve pid (path_ptr raw) (max_len raw) (device raw) f₁
  have hpath := readsOnly_resolveArgPath pid context (path_ptr raw) (max_len raw) (device raw) f₁
  simp only [hraw, if_true, Prog.final_bind, result_resolveArgPath (hargs.board hf).1, hargs.pathArg hf,
    hargs.cwd]
  refine ⟨_, trans_of ReadsOnly hargs hpath, trans_of R hRargs hRpath, ?_⟩
  rcases f.hw.view.pathArg f.gRPFSProcessCwd pid context _ _ _ with - | path
  · rfl
  · rfl

/-- A SAVE or LOAD whose arguments are accepted goes on to open its file. -/
theorem final_execBulk {R : Firmware σ → Firmware σ → Prop} [IsTrans (Firmware σ) R] {context : UInt8}
    (hR : ReadRules R context) (hf : f.hw.Settled) (op pid : UInt8) (args_ptr : UInt16) :
    ∃ f₁, ReadsOnly f f₁ ∧ R f f₁ ∧ (rpFsMbExecBulk ff op pid context args_ptr).final f =
      match f.hw.view.bulkArgs f.gRPFSProcessCwd pid context args_ptr with
      | none => (fsMbError RP_ERR_EINVAL 0).final f₁
      | some (path, mem_ptr, size_word) =>
        (bulkOnPath ff op context path mem_ptr size_word).final f₁ := by
  obtain ⟨f₁, hread, hRf₁, hfin⟩ := final_withArgsPath hR hf pid args_ptr 8
    (fun raw => rawByte raw 7 = 0) (rpFsMbU16 · 0) (fun _ => UInt16.ofNat (RP_FS_NEOX_PATH_MAX - 1))
    (rawByte · 6) fun raw path => bulkOnPath ff op context path (rpFsMbU16 raw 2) (rpFsMbU16 raw 4)
  refine ⟨f₁, hread, hRf₁, ?_⟩
  rw [rpFsMbExecBulk, hfin, Machine.View.bulkArgs_eq]
  rcases f.hw.view.blockAndPath _ _ _ _ _ _ _ _ _ with - | ⟨raw, path⟩
  · rfl
  · rfl

/-- A request whose arguments are accepted comes from a valid context. -/
theorem context_of_bulkArgs {v : Machine.View} {cwd : CwdTable} {pid context : UInt8}
    {args_ptr : UInt16} {args : RPFSResolvedPath × UInt16 × UInt16}
    (h : v.bulkArgs cwd pid context args_ptr = some args) : context < maxContexts := by
  by_contra hc
  rw [UInt8.not_lt] at hc
  simp [Machine.View.bulkArgs, Machine.View.contextBlock, hc] at h

/-- The reply was `RP_ERROR` with `RP_ERR_EINVAL`. -/
def Rejected (f' : Firmware σ) : Prop := f'.events.head? = some (.result RP_ERROR RP_ERR_EINVAL)

theorem Replied.not_rejected {f' : Firmware σ} {status err : UInt8} {s : Storage σ}
    (h : Replied f' status err s) (hne : err ≠ RP_ERR_EINVAL) : ¬ Rejected f' := by
  intro hrejected
  have heq := h.events.symm.trans hrejected
  simp only [Option.some.injEq, Event.result.injEq] at heq
  exact hne heq.2

theorem deviceError_not_rejected (device : UInt8) (f : Firmware σ) :
    ¬ Rejected ((fsMbDeviceError device).final f) := by
  simp only [fsMbDeviceError, Prog.final_bind, Prog.result_get, Prog.final_get, Prog.final_ite]
  split
  · exact (replied_error RP_ERR_ENOENT 0 f).not_rejected (by decide)
  · exact (replied_error RP_ERR_EIO 0 f).not_rejected (by decide)

/-- A file that could not be opened is no rejection. -/
theorem bulkOnPath_failed {f : Firmware σ} {op context : UInt8} {path : RPFSResolvedPath}
    {mem_ptr size_word : UInt16} {n : Nat}
    (h : (bulkOpen ff op path.device path.path (rpFsMbEffective16bitSize size_word)).result f.storage =
      (none, n)) : ¬ Rejected ((bulkOnPath ff op context path mem_ptr size_word).final f) := by
  simp only [bulkOnPath, Prog.final_bind, onStorage, Prog.result_on, Prog.final_on, h]
  exact deviceError_not_rejected path.device _

/-- A range that does not fit is rejected after the file has been opened, and closes it. -/
theorem bulkOnPath_range {f : Firmware σ} {op context : UInt8} {path : RPFSResolvedPath}
    {mem_ptr size_word : UInt16} {handle : UInt8} {n : Nat}
    (h : (bulkOpen ff op path.device path.path (rpFsMbEffective16bitSize size_word)).result f.storage =
      (some handle, n)) (hrange : rpFsMbValid64kRange mem_ptr n = false) :
    Replied ((bulkOnPath ff op context path mem_ptr size_word).final f) RP_ERROR RP_ERR_EINVAL
      ((rpFsClose ff handle).final ((bulkOpen ff op path.device path.path
        (rpFsMbEffective16bitSize size_word)).final f.storage)) := by
  simp only [bulkOnPath, bulkTransfer, Prog.final_bind, onStorage, Prog.result_on, Prog.final_on, h,
    if_pos hrange, Prog.final_discard]
  exact replied_error _ _ _

/-- A range that fits is transferred, which ends in another error or in `RP_DONE`. -/
theorem bulkOnPath_fits {f : Firmware σ} {op context : UInt8} {path : RPFSResolvedPath}
    {mem_ptr size_word : UInt16} {handle : UInt8} {n : Nat} (hc : context < maxContexts)
    (h : (bulkOpen ff op path.device path.path (rpFsMbEffective16bitSize size_word)).result f.storage =
      (some handle, n)) (hrange : rpFsMbValid64kRange mem_ptr n = true) :
    ¬ Rejected ((bulkOnPath ff op context path mem_ptr size_word).final f) := by
  simp only [bulkOnPath, Prog.final_bind, onStorage, Prog.result_on, Prog.final_on, h, bulkTransfer,
    hrange, Bool.true_eq_false, if_false]
  generalize Firmware.mk _ _ _ _ _ _ _ _ _ _ _ _ _ _ _ _ _ = f₁
  obtain ⟨⟨total, failed⟩, htransfer⟩ :=
    withContext_granted hc (bulkLoop ff op handle mem_ptr n 0) f₁
  simp only [htransfer, Prog.final_bind, Prog.final_ite]
  split
  · exact (replied_error _ _ _).not_rejected (by decide)
  · exact (replied_done _ _ _).not_rejected (by decide)

/-! ## A SAVE or LOAD and the disk -/

variable {ff} {files : σ → δ} {truncate : List UInt8 → δ → δ}

/-- A LOAD that opens and closes its file leaves the disk alone. -/
theorem unchanged_load (laws : FileLaws ff files truncate) {s : Storage σ} {device handle : UInt8}
    {filename : List UInt8} {n k : Nat}
    (h : (bulkOpen ff RP_FS_OP_LOAD device filename n).result s = (some handle, k)) :
    Unchanged files s
      ((rpFsClose ff handle).final ((bulkOpen ff RP_FS_OP_LOAD device filename n).final s)) := by
  simp only [bulkOpen, if_true, Prog.result_bind, Prog.final_bind, rpFsOpenReadonly83] at h ⊢
  rcases rpFsOpenMode83_cases ff device filename FA_READ RP_FS_HANDLE_READ s with
    ⟨hnone, -⟩ | ⟨slot, path, hopens, hres, hfin⟩
  · simp [hnone] at h
  simp only [hres, hfin, Prog.result_bind, Prog.final_bind, Prog.result_pure, Prog.final_pure,
    rpFsSize, Prog.final_gets, Prod.mk.injEq, Option.some.injEq] at h ⊢
  obtain ⟨rfl, -⟩ := h
  have hmount := unchanged_ensureMounted laws device s
  have hopen := trans_of (Unchanged files) hmount (laws.f_open_read slot path _)
  exact trans_of (Unchanged files) hopen (unchanged_close_setHandle laws (freeSlot_lt hopens.free) _ _ _)

/-- A SAVE whose open is granted and that closes its file again has truncated the file. -/
theorem truncated_save (laws : FileLaws ff files truncate) {s : Storage σ} {device slot : UInt8}
    {filename path : List UInt8} {n : Nat}
    (h : Opens ff device filename (FA_WRITE ||| FA_CREATE_ALWAYS) s slot path) :
    let s' := (rpFsClose ff slot).final ((bulkOpen ff RP_FS_OP_SAVE device filename n).final s)
    (bulkOpen ff RP_FS_OP_SAVE device filename n).result s = (some slot, n) ∧
      files s'.fatfs = truncate path (files s.fatfs) ∧ FewerHandles s s' := by
  have hsave : ¬ RP_FS_OP_SAVE = RP_FS_OP_LOAD := by decide
  simp only [bulkOpen, if_neg hsave, Prog.result_bind, Prog.final_bind, Prog.result_pure,
    Prog.final_pure, rpFsOpenWriteTruncate83]
  rcases rpFsOpenMode83_cases ff device filename (FA_WRITE ||| FA_CREATE_ALWAYS) RP_FS_HANDLE_WRITE s
    with ⟨-, hnone⟩ | ⟨slot', path', hopens, hres, hfin⟩
  · exact absurd h (hnone slot path)
  obtain rfl := Option.some.inj (hopens.free.symm.trans h.free)
  obtain rfl := Option.some.inj (hopens.named.symm.trans h.named)
  have hmount := unchanged_ensureMounted laws device s
  have hopen := laws.f_open_handles slot' path' (FA_WRITE ||| FA_CREATE_ALWAYS)
    ((ensureMounted ff device).final s)
  have hclose := unchanged_close_setHandle laws (freeSlot_lt h.free)
    ((ff.f_open slot' path' (FA_WRITE ||| FA_CREATE_ALWAYS)).final ((ensureMounted ff device).final s))
    device RP_FS_HANDLE_WRITE
  refine ⟨by rw [hres], ?_, fun i hi => ?_⟩
  · rw [hfin, hclose.files, laws.f_open_create slot' path' _ h.opened, hmount.files]
  · rw [hfin] at hi
    exact hmount.handles i (hopen i (hclose.handles i hi))

/-- A SAVE whose open is not granted has no handle. -/
theorem result_save_refused {s : Storage σ} {device : UInt8} {filename : List UInt8} {n : Nat}
    (h : ∀ slot path, ¬ Opens ff device filename (FA_WRITE ||| FA_CREATE_ALWAYS) s slot path) :
    (bulkOpen ff RP_FS_OP_SAVE device filename n).result s = (none, n) := by
  have hsave : ¬ RP_FS_OP_SAVE = RP_FS_OP_LOAD := by decide
  simp only [bulkOpen, if_neg hsave, Prog.result_bind, Prog.result_pure, rpFsOpenWriteTruncate83]
  rcases rpFsOpenMode83_cases ff device filename (FA_WRITE ||| FA_CREATE_ALWAYS) RP_FS_HANDLE_WRITE s
    with ⟨hres, -⟩ | ⟨slot, path, hopens, -, -⟩
  · rw [hres]
  · exact absurd hopens (h slot path)

/-- A rejected LOAD leaves the disk alone. -/
theorem load_untouched (laws : FileLaws ff files truncate) {f : Firmware σ} {context : UInt8}
    (hc : context < maxContexts) (path : RPFSResolvedPath) (mem_ptr size_word : UInt16)
    (h : Rejected ((bulkOnPath ff RP_FS_OP_LOAD context path mem_ptr size_word).final f)) :
    Unchanged files f.storage
      ((bulkOnPath ff RP_FS_OP_LOAD context path mem_ptr size_word).final f).storage := by
  rcases hopen : (bulkOpen ff RP_FS_OP_LOAD path.device path.path
    (rpFsMbEffective16bitSize size_word)).result f.storage with ⟨- | handle, n⟩
  · exact absurd h (bulkOnPath_failed ff hopen)
  by_cases hrange : rpFsMbValid64kRange mem_ptr n = true
  · exact absurd h (bulkOnPath_fits ff hc hopen hrange)
  rw [(bulkOnPath_range ff hopen (Bool.eq_false_iff.2 hrange)).storage]
  exact unchanged_load laws hopen

/-- A rejected SAVE leaves the disk alone unless it got as far as its range check with a target that
truncation changes. -/
theorem save_untouched_iff (laws : FileLaws ff files truncate) {f : Firmware σ} {context : UInt8}
    (hc : context < maxContexts) (path : RPFSResolvedPath) (mem_ptr size_word : UInt16) :
    let f' := (bulkOnPath ff RP_FS_OP_SAVE context path mem_ptr size_word).final f
    (Rejected f' → Unchanged files f.storage f'.storage) ↔
      ¬ (rpFsMbValid64kRange mem_ptr (rpFsMbEffective16bitSize size_word) = false ∧
        ∃ slot full_path,
          Opens ff path.device path.path (FA_WRITE ||| FA_CREATE_ALWAYS) f.storage slot full_path ∧
            truncate full_path (files f.storage.fatfs) ≠ files f.storage.fatfs) := by
  intro f'
  by_cases hgranted : ∃ slot full_path,
      Opens ff path.device path.path (FA_WRITE ||| FA_CREATE_ALWAYS) f.storage slot full_path
  swap
  · have hopen : (bulkOpen ff RP_FS_OP_SAVE path.device path.path
        (rpFsMbEffective16bitSize size_word)).result f.storage = (none, _) :=
      result_save_refused fun slot full_path h => hgranted ⟨slot, full_path, h⟩
    refine iff_of_true (fun h => absurd h (bulkOnPath_failed ff hopen)) ?_
    rintro ⟨-, slot, full_path, h, -⟩
    exact hgranted ⟨slot, full_path, h⟩
  obtain ⟨slot, full_path, hgranted⟩ := hgranted
  obtain ⟨hopen, htruncated, hhandles⟩ :=
    truncated_save laws hgranted (n := rpFsMbEffective16bitSize size_word)
  by_cases hrange : rpFsMbValid64kRange mem_ptr (rpFsMbEffective16bitSize size_word) = true
  · refine iff_of_true (fun h => absurd h (bulkOnPath_fits ff hc hopen hrange)) ?_
    rintro ⟨h, -⟩
    rw [hrange] at h
    cases h
  obtain ⟨hrejected, hstorage⟩ : Replied ((bulkOnPath ff RP_FS_OP_SAVE context path mem_ptr
      size_word).final f) RP_ERROR RP_ERR_EINVAL _ :=
    bulkOnPath_range ff hopen (Bool.eq_false_iff.2 hrange)
  rw [show f'.storage = _ from hstorage]
  constructor
  · rintro huntouched ⟨-, slot', full_path', h, hne⟩
    obtain rfl := Option.some.inj (hgranted.named.symm.trans h.named)
    exact hne (htruncated.symm.trans (huntouched hrejected).files)
  · rintro hstray -
    refine ⟨?_, hhandles⟩
    by_contra hne
    rw [htruncated] at hne
    exact hstray ⟨Bool.eq_false_iff.2 hrange, slot, full_path, hgranted, hne⟩

end Reads

/-! ## A whole request -/

/-- What a SAVE or LOAD in the request block asks for: its file, where in memory and its size word. -/
def Firmware.bulkRequest (f : Firmware σ) : Option (RPFSResolvedPath × UInt16 × UInt16) :=
  let v := f.hw.view
  if RP_FS_NEOX_MAX_PROCS ≤ v.peek RP_ARG1L then none
  else v.bulkArgs f.gRPFSProcessCwd (v.peek RP_ARG1L) (v.peek RP_ARG1H) (v.peek16 RP_ARG0L)

/-- A rejection leaves the disk alone and no handle open. -/
def RejectionUntouched (ff : FatFs σ) (files : σ → δ) (f : Firmware σ) : Prop :=
  let f' := (rpFsMailboxHandleExec ff).final f
  f'.hw.view.peek RP_STATUS = RP_ERROR → f'.hw.view.peek RP_ERR = RP_ERR_EINVAL →
    Unchanged files f.storage f'.storage

/-- A SAVE whose range does not fit in 64K, whose target the storage opens for truncation, and whose
truncation makes a difference. -/
def StraySave (ff : FatFs σ) (files : σ → δ) (truncate : List UInt8 → δ → δ) (f : Firmware σ) : Prop :=
  f.hw.view.peek RP_STATE = RP_FS_OP_SAVE ∧ ∃ path mem_ptr size_word,
    f.bulkRequest = some (path, mem_ptr, size_word) ∧
      rpFsMbValid64kRange mem_ptr (rpFsMbEffective16bitSize size_word) = false ∧
      ∃ slot full_path,
        Opens ff path.device path.path (FA_WRITE ||| FA_CREATE_ALWAYS) f.storage slot full_path ∧
          truncate full_path (files f.storage.fatfs) ≠ files f.storage.fatfs

section Request

variable (ff : FatFs σ) {f : Firmware σ}

theorem execOperation_bulk {op : UInt8} (h : op = RP_FS_OP_LOAD ∨ op = RP_FS_OP_SAVE)
    (pid context : UInt8) : execOperation ff op pid context = (do
      rpFsMbExecBulk ff op pid context (← readArg0)) := by
  rcases h with rfl | rfl <;> rfl

/-- A machine with the same view has been read only. -/
theorem readsOnly_of_view {m : Machine} (hm : m.Settled) (hview : m.view = f.hw.view) :
    ReadsOnly f { f with hw := m } :=
  ⟨rfl, rfl, fun _ => ⟨hm, congrArg Machine.View.ram hview, congrArg Machine.View.mmuRam hview⟩⟩

/-- The checks in front of a SAVE or LOAD, and its arguments. -/
theorem final_checkedOperation_bulk {R : Firmware σ → Firmware σ → Prop} [Std.Refl R]
    [IsTrans (Firmware σ) R] (hR : ReadRules R (f.hw.view.peek RP_ARG1H)) (hf : f.hw.Settled) {op : UInt8}
    (h : op = RP_FS_OP_LOAD ∨ op = RP_FS_OP_SAVE) :
    let context := f.hw.view.peek RP_ARG1H
    ∃ f₁, ReadsOnly f f₁ ∧ R f f₁ ∧
      (checkedOperation ff op (f.hw.view.peek RP_ARG1L) context).final f =
        match f.bulkRequest with
        | none => (fsMbError RP_ERR_EINVAL 0).final f₁
        | some (path, mem_ptr, size_word) =>
          (bulkOnPath ff op context path mem_ptr size_word).final f₁ := by
  intro context
  simp only [checkedOperation, Firmware.bulkRequest, Prog.final_ite]
  by_cases hpid : RP_FS_NEOX_MAX_PROCS ≤ f.hw.view.peek RP_ARG1L
  · rw [if_pos (.inl hpid), if_pos hpid]
    exact ⟨f, refl f, refl f, rfl⟩
  rw [if_neg hpid]
  by_cases hcontext : maxContexts ≤ context
  · have hnone : f.hw.view.bulkArgs f.gRPFSProcessCwd (f.hw.view.peek RP_ARG1L) context
        (f.hw.view.peek16 RP_ARG0L) = none := by
      simp [Machine.View.bulkArgs, Machine.View.contextBlock, hcontext]
    rw [if_pos (.inr hcontext), hnone]
    exact ⟨f, refl f, refl f, rfl⟩
  rw [if_neg (not_or.2 ⟨hpid, hcontext⟩), execOperation_bulk ff h]
  obtain ⟨hargs, hview, hsettled⟩ := rpRead16_spec hf RP_ARG0L
  have hRarg0 := hR.read16 RP_ARG0L f
  simp only [readArg0, Prog.final_bind, onHw, Prog.result_on, Prog.final_on, hargs] at hRarg0 ⊢
  have hread := readsOnly_of_view hsettled hview
  generalize (rpRead16 RP_ARG0L).final f.hw = m₀ at hview hsettled hread hRarg0 ⊢
  obtain ⟨f₁, hread₁, hR₁, hfin⟩ := final_execBulk ff (f := { f with hw := m₀ }) hR hsettled op
    (f.hw.view.peek RP_ARG1L) (f.hw.view.peek16 RP_ARG0L)
  refine ⟨f₁, trans_of ReadsOnly hread hread₁, trans_of R hRarg0 hR₁, ?_⟩
  rw [hfin]
  simp only [hview]
  rfl

/-- The block shows a rejection exactly when the trace does. -/
theorem Completed.rejected_iff {f f' : Firmware σ} (h : Completed f f') (hf : f.hw.Settled) :
    Rejected f' ↔
      f'.hw.view.peek RP_STATUS = RP_ERROR ∧ f'.hw.view.peek RP_ERR = RP_ERR_EINVAL := by
  obtain ⟨n, status, err, -, hevents, hboard⟩ := h.result
  obtain ⟨-, hstatus, herr, -⟩ := hboard hf
  rw [Rejected, hevents, hstatus, herr]
  simp

/-- A rejected SAVE or LOAD leaves the disk alone and no handle open, unless it is a SAVE whose range
does not fit: that one has truncated its target first. -/
theorem rejectionUntouched_iff {files : σ → δ} {truncate : List UInt8 → δ → δ}
    (laws : FileLaws ff files truncate) (hf : f.hw.Settled)
    (hop : f.hw.view.peek RP_STATE = RP_FS_OP_LOAD ∨ f.hw.view.peek RP_STATE = RP_FS_OP_SAVE) :
    RejectionUntouched ff files f ↔ ¬ StraySave ff files truncate f := by
  obtain ⟨m₀, op, pid, context, hblock, -, hfin⟩ := final_rpFsMailboxHandleExec ff f
  obtain ⟨hm₀, hview₀, rfl, rfl, rfl⟩ := hblock hf
  obtain ⟨f₁, hread, -, hg⟩ := final_checkedOperation_bulk ff (f := { f with hw := m₀ })
    (readRules_readsOnly _) hm₀ hop
  have hcompletes : Completes (checkedOperation ff (f.hw.view.peek RP_STATE) (f.hw.view.peek RP_ARG1L)
    (f.hw.view.peek RP_ARG1H)) := completes_checkedOperation ff _ _
  have hcompleted := (hcompletes { f with hw := m₀ }).2
  have hstorage : f₁.storage = f.storage := hread.storage
  have hrequest : Firmware.bulkRequest { f with hw := m₀ } = f.bulkRequest := by
    simp only [Firmware.bulkRequest, hview₀]
  simp only [hview₀, hrequest] at hg
  generalize (checkedOperation ff _ _ _).final { f with hw := m₀ } = g at hfin hg hcompleted
  -- The property speaks about the state the operation leaves.
  have huntouched : RejectionUntouched ff files f ↔
      (Rejected g → Unchanged files f₁.storage g.storage) := by
    rw [RejectionUntouched, hfin, hcompleted.rejected_iff hm₀, hstorage]
    exact and_imp.symm
  rw [huntouched, hg]
  rcases hargs : f.bulkRequest with - | ⟨path, mem_ptr, size_word⟩
  · refine iff_of_true (fun _ => ?_) ?_
    · rw [(replied_error _ _ _).storage]
      exact refl _
    · rintro ⟨-, path, mem_ptr, size_word, h, -⟩
      rw [hargs] at h
      cases h
  have hcontext : f.hw.view.peek RP_ARG1H < maxContexts := by
    rw [Firmware.bulkRequest] at hargs
    split at hargs
    · cases hargs
    · exact context_of_bulkArgs hargs
  rcases hop with hop | hop
  · rw [hop]
    refine iff_of_true (fun h => load_untouched laws hcontext path mem_ptr size_word h) ?_
    rintro ⟨hsave, -⟩
    rw [hop] at hsave
    exact absurd hsave (by decide)
  · rw [hop]
    refine (save_untouched_iff laws hcontext path mem_ptr size_word).trans (not_congr ?_)
    rw [StraySave, hargs, hstorage]
    simp [hop]

end Request

/-! ## A stray SAVE -/

/-- The memory of a SAVE of two bytes at `FFFF` to `/A` for PID 1 in context 0. -/
def straySaveRam (cell : UInt8 × UInt16) : UInt8 :=
  (List.lookup cell
    [((0x0B, 0x005), RP_FS_OP_SAVE), ((0x0B, 0x007), 0x02), ((0x0B, 0x008), 1),
     ((0x00, 0x200), 0x10), ((0x00, 0x201), 0x02), ((0x00, 0x202), 0xFF), ((0x00, 0x203), 0xFF),
     ((0x00, 0x204), 2), ((0x00, 0x210), slash), ((0x00, 0x211), 'A'.toUInt8)]).getD 0

/-- The firmware that gets the request, with one file on the disk. -/
def straySaveFirmware : Firmware RamDisk :=
  .start (.running straySaveRam) <| RamDisk.mounted fun path =>
    if path = ascii "0:/A" then some (ascii "data") else none

/-- The request is answered with `RP_ERR_EINVAL`, and its file is empty now. -/
theorem straySave_not_untouched : straySaveFirmware.hw.view.peek RP_STATE = RP_FS_OP_SAVE ∧
    ¬ RejectionUntouched RamDisk.fatFs RamDisk.files straySaveFirmware := by
  have hreply : let f' := (rpFsMailboxHandleExec RamDisk.fatFs).final straySaveFirmware
      f'.hw.view.peek RP_STATUS = RP_ERROR ∧ f'.hw.view.peek RP_ERR = RP_ERR_EINVAL ∧
        f'.storage.fatfs.files (ascii "0:/A") = some [] := by
    decide +kernel
  obtain ⟨hstatus, herr, hempty⟩ := hreply
  refine ⟨by decide, fun huntouched => ?_⟩
  have hsame := congrFun (huntouched hstatus herr).files (ascii "0:/A")
  rw [hempty] at hsame
  exact absurd hsame (by decide)

theorem rejectionUntouched_straySave :
    RejectionUntouched RamDisk.fatFs RamDisk.files straySaveFirmware ↔
      ¬ StraySave RamDisk.fatFs RamDisk.files RamDisk.truncate straySaveFirmware :=
  rejectionUntouched_iff RamDisk.fatFs RamDisk.fileLaws (Machine.settled_running _)
    (.inr (by decide))

end NeoMmu
