import NeoMmu.Mailbox.BulkBytes
import NeoMmu.Mailbox.Console
import NeoMmu.Mailbox.RequestFrame

/-!
# Where a request writes

`FsFootprint` lists what the operations write into their caller's context: each of READ, READDIR, GETCWD,
SEEK and TELL a block that has passed `rp_fs_mb_private_range()`, and LOAD the bytes it has read. Nothing else
changes in the 6502's memory but the reply.
-/

namespace NeoMmu

variable {σ α : Type}

/-! ## Blocks -/

/-- The `n` addresses from `start` on, without wrapping. -/
def Span (start : UInt16) (n : Nat) (a : UInt16) : Prop := start.toNat ≤ a.toNat ∧ a.toNat < start.toNat + n

/-- A block of private memory. -/
def PrivateBlock (start : UInt16) (n : Nat) (a : UInt16) : Prop :=
  0 < start.toNat ∧ start.toNat + n ≤ RP_FS_PRIVATE_LIMIT ∧ Span start n a

theorem PrivateBlock.bounds {start : UInt16} {n : Nat} {a : UInt16} (h : PrivateBlock start n a) :
    0 < a.toNat ∧ a.toNat < RP_FS_PRIVATE_LIMIT := by
  obtain ⟨hpos, hlimit, hfrom, hto⟩ := h
  omega

theorem span_of_fits {start : UInt16} {n i : Nat} (hn : start.toNat + n ≤ 2 ^ 16) (hi : i < n) :
    Span start n (start + UInt16.ofNat i) := by
  have hadd : (start + UInt16.ofNat i).toNat = start.toNat + i := by
    rw [UInt16.toNat_add, UInt16.toNat_ofNat', Nat.mod_eq_of_lt (show i < 2 ^ 16 by omega)]
    exact Nat.mod_eq_of_lt (by omega)
  rw [Span, hadd]
  omega

theorem fits_of_valid64kRange {start : UInt16} {n : Nat} (h : rpFsMbValid64kRange start n = true) :
    start.toNat + n ≤ 2 ^ 16 := by
  have hstart := start.toNat_lt
  unfold rpFsMbValid64kRange at h
  split at h
  · omega
  split at h
  · cases h
  split at h
  · rename_i hall
    rw [of_decide_eq_true h, hall]
    decide
  · have hlast := of_decide_eq_true h
    omega

theorem privateBlock_of_range {start : UInt16} {n i : Nat}
    (h : rpFsMbPrivateRange start (UInt16.ofNat n) = true) (hn : n < 2 ^ 16) (hi : i < n) :
    PrivateBlock start n (start + UInt16.ofNat i) := by
  obtain ⟨hstart, -, hlimit⟩ := rpFsMbPrivateRange_iff.1 h
  rw [UInt16.toNat_ofNat', Nat.mod_eq_of_lt hn] at hlimit
  have hpos : start.toNat ≠ 0 := fun hzero => hstart (UInt16.toNat_inj.1 hzero)
  have hfits : start.toNat + n ≤ 2 ^ 16 := hlimit.trans (by decide)
  exact ⟨Nat.pos_of_ne_zero hpos, hlimit, span_of_fits hfits hi⟩

/-! ## Confinement -/

/-- The context in force is the cached one. -/
def Machine.Selected (m : Machine) : Prop := m.gCurrentContext = m.ctxReg.toNat

/-- A settled board whose context is the cached one. -/
structure Machine.Steady (m : Machine) : Prop where
  settled : m.Settled
  selected : m.Selected

theorem Machine.Steady.of_view {m m' : Machine} (hm : m.Steady) (hm' : m'.Settled)
    {ram : UInt8 × UInt16 → UInt8} {s : SysState}
    (hview : m'.view = { m.view with ram := ram, gSysState := s }) : m'.Steady := by
  refine ⟨hm', ?_⟩
  have hcontext : m'.gCurrentContext = m.gCurrentContext := congrArg View.gCurrentContext hview
  have hreg : m'.ctxReg = m.ctxReg := congrArg View.ctxReg hview
  rw [Selected, hcontext, hreg]
  exact hm.selected

theorem Stores.steady {p : Prog Machine Unit} {ws : List (UInt16 × UInt8)} (hp : Stores p ws) {m : Machine}
    (hm : m.Steady) : (p.final m).Steady ∧ (p.final m).view = m.view.writes ws := by
  obtain ⟨hview, hsettled⟩ := hp m hm.settled
  exact ⟨hm.of_view hsettled (hview.trans (m.view.writes_eq_self ws)), hview⟩

/-- No reply goes to the cell, and no address in `A` selects it in context `c`. -/
def Machine.View.Spares (v : Machine.View) (c : UInt8) (A : UInt16 → Prop) (cell : UInt8 × UInt16) :
    Prop :=
  (∀ a ∈ replyAddresses, v.physAddr a ≠ cell) ∧ ∀ a, A a → (v.select c).physAddr a ≠ cell

/-- A pending interrupt stays pending, and of the board only cells change that a reply or the addresses
`A` of context `c` select. -/
structure Confined (c : UInt8) (A : UInt16 → Prop) (f f' : Firmware σ) : Prop where
  gIntrPending : f'.gIntrPending = f.gIntrPending
  board : f.hw.Settled → f.hw.Selected → f'.hw.Settled ∧
    ∃ ram, f'.hw.view = { f.hw.view with ram := ram } ∧
      ∀ cell, f.hw.view.Spares c A cell → ram cell = f.hw.ram cell

section Confined

variable {c : UInt8} {A : UInt16 → Prop}

instance : Std.Refl (Confined (σ := σ) c A) where
  refl f := ⟨rfl, fun hf _ => ⟨hf, f.hw.ram, rfl, fun _ _ => rfl⟩⟩

instance : IsTrans (Firmware σ) (Confined c A) where
  trans f f' f'' h h' := by
    refine ⟨h'.gIntrPending.trans h.gIntrPending, fun hf hsel => ?_⟩
    obtain ⟨hf', ram, hview, hram⟩ := h.board hf hsel
    have hcontext : f'.hw.gCurrentContext = f.hw.gCurrentContext :=
      congrArg Machine.View.gCurrentContext hview
    have hreg : f'.hw.ctxReg = f.hw.ctxReg := congrArg Machine.View.ctxReg hview
    have hsel' : f'.hw.Selected := by
      rw [Machine.Selected, hcontext, hreg]
      exact hsel
    obtain ⟨hf'', ram', hview', hram'⟩ := h'.board hf' hsel'
    rw [hview] at hview' hram'
    refine ⟨hf'', ram', hview', fun cell hcell => ?_⟩
    rw [hram' cell hcell, ← hram cell hcell]
    exact congrFun (congrArg Machine.View.ram hview) cell

theorem confined_onStorage (p : Prog (Storage σ) α) : Prog.Keeps (Confined c A) (onStorage p) :=
  fun f => ⟨rfl, fun hf _ => ⟨hf, f.hw.ram, rfl, fun _ _ => rfl⟩⟩

theorem confined_snoopRead (a : UInt16) :
    Prog.Keeps (Confined (σ := σ) c A) (onHw (snoopRead6502MemoryLoc a)) := by
  refine fun f => ⟨rfl, fun hf _ => ?_⟩
  obtain ⟨-, hview, hf'⟩ := snoopRead6502MemoryLoc_spec hf a
  exact ⟨hf', f.hw.ram, hview, fun _ _ => rfl⟩

theorem confined_reply (res0 res1 : UInt16) (err flags status : UInt8) :
    Prog.Keeps (Confined (σ := σ) c A) (do
      emit (.result status err); onHw (rpMailboxPublish res0 res1 err flags status)) := by
  intro f
  obtain ⟨ws, hstores, hws⟩ := stores_reply res0 res1 err flags status
  have hboard := hstores f.hw
  simp only [Prog.final_bind, emit, Prog.final_modify, onHw, Prog.final_on]
  generalize (rpMailboxPublish res0 res1 err flags status).final f.hw = m at hboard ⊢
  refine ⟨rfl, fun hf _ => ?_⟩
  obtain ⟨hview, hm⟩ := hboard hf
  refine ⟨hm, (f.hw.view.writes ws).ram, ?_, fun cell hcell => ?_⟩
  · exact hview.trans (Machine.View.writes_eq_self f.hw.view ws)
  · exact f.hw.view.ram_writes_of_ne fun w hw => hcell.1 w.1 (hws w hw)

/-- A context access is confined to the addresses it writes with the storage it finds. -/
theorem confined_withContext {f : Firmware σ} {body : Prog (Firmware σ) α}
    (hbody : ∀ g : Firmware σ, g.storage = f.storage → Inside A g (body.final g))
    (hpending : ∀ g, (body.final g).gIntrPending = g.gIntrPending) :
    Confined c A f ((withContext c body).final f) := by
  by_cases hc : c < maxContexts
  · refine ⟨?_, fun hf hsel => ?_⟩
    · simp only [withContext, if_neg (UInt8.not_le.2 hc), Prog.final_bind, Prog.final_pure, emit,
        Prog.final_modify, onHw, Prog.final_on, hpending]
    · obtain ⟨ws, hws, hf', hview⟩ := withContext_view hf hc hbody
      rw [getMMUContext_of_eq hsel] at hview
      refine ⟨hf', ((f.hw.view.select c).writes ws).ram, ?_, fun cell hcell => ?_⟩
      · rw [hview, ← show f.hw.gCurrentContext = f.hw.ctxReg.toNat from hsel]
        rfl
      · exact (f.hw.view.select c).ram_writes_of_ne fun w hw => hcell.2 w.1 (hws w hw)
  · rw [(withContext_refused (UInt8.not_lt.1 hc) body f).2]
    exact refl f

theorem Confined.mono {A' : UInt16 → Prop} {f f' : Firmware σ} (h : Confined c A f f')
    (hA : ∀ a, A a → A' a) : Confined c A' f f' := by
  refine ⟨h.gIntrPending, fun hf hsel => ?_⟩
  obtain ⟨hf', ram, hview, hram⟩ := h.board hf hsel
  exact ⟨hf', ram, hview, fun cell hcell => hram cell ⟨hcell.1, fun a ha => hcell.2 a (hA a ha)⟩⟩

/-- What a request does besides its results is confined to the reply. -/
theorem transferRules_confined (c : UInt8) (A : UInt16 → Prop) :
    TransferRules (Confined (σ := σ) c A) (fun _ _ => True) c where
  storage p _ := confined_onStorage p
  snoopRead := confined_snoopRead
  readBlock a n :=
    Prog.Keeps.ite (fun _ => Prog.Keeps.pure none) fun _ =>
      fun f => confined_withContext (fun g _ => inside_readBlock a n.toNat g) fun _ => rfl
  readPath a n dst_len := by
    refine Prog.Keeps.ite (fun _ => Prog.Keeps.pure none) fun _ => ?_
    have hpath : Prog.Keeps (Confined (σ := σ) c A) (withContext c (onHw (readPathLoop a 0 n.toNat))) :=
      fun f => confined_withContext (fun g _ => inside_readPathLoop a 0 n.toNat g) fun _ => rfl
    exact hpath.bind fun _ => Prog.Keeps.pure _
  reply := confined_reply

theorem confined_cwd (table : Firmware σ → CwdTable) : Prog.Keeps (Confined c A)
    (modify fun f => { f with gRPFSProcessCwd := table f } : Prog (Firmware σ) Unit) :=
  fun f => ⟨rfl, fun hf _ => ⟨hf, f.hw.ram, rfl, fun _ _ => rfl⟩⟩

/-- A result goes to its block, if that is private memory. -/
theorem confined_withResult {address : UInt16} {src : List UInt8} {done : Prog (Firmware σ) MailboxState}
    (hlen : src.length < 2 ^ 16) (hA : ∀ a, PrivateBlock address src.length a → A a)
    (hdone : Prog.Keeps (Confined c A) done) :
    Prog.Keeps (Confined c A) (withResult c address src done) := by
  have hwrite : Prog.Keeps (Confined (σ := σ) c A) (rpFsMbWriteContextBlock c address src) := by
    refine Prog.Keeps.ite (fun _ => Prog.Keeps.pure false) fun hrange => ?_
    have hinside : Prog.Keeps (Inside A) (onHw (σ := σ) (writeBlock address src)) :=
      inside_writeBlock fun i hi => hA _ (privateBlock_of_range (Bool.not_eq_false _ ▸ hrange) hlen hi)
    have hcontext : Prog.Keeps (Confined (σ := σ) c A) (withContext c (onHw (writeBlock address src))) :=
      fun f => confined_withContext (fun g _ => hinside g) fun _ => rfl
    exact hcontext.bind fun _ => Prog.Keeps.pure _
  exact hwrite.bind fun _ => Prog.Keeps.ite (fun _ => hdone) fun _ => (transferRules_confined c A).error _ _

end Confined

/-! ## Footprints -/

/-- The argument block of a request. -/
def Machine.View.fsArgs (v : Machine.View) (length : UInt16) : Option (List UInt8) :=
  v.contextBlock (v.peek RP_ARG1H) (v.peek16 RP_ARG0L) length

/-- The address, in its caller's context, is one that a request may write. -/
inductive FsFootprint (ff : FatFs σ) (v : Machine.View) (cwd : CwdTable) (s : Storage σ) (a : UInt16) : Prop
  /-- READ: what has been read, at `dst` -/
  | read (raw bytes : List UInt8) (hop : v.peek RP_STATE = RP_FS_OP_READ) (hargs : v.fsArgs 6 = some raw)
      (hbytes : (rpFsRead ff (v.peek RP_ARG2L) (clipToChunk (rpFsMbU16 raw 4))).result s = some bytes)
      (hcount : bytes.length ≤ min (rpFsMbU16 raw 4).toNat 256)
      (ha : PrivateBlock (rpFsMbU16 raw 2) bytes.length a)
  /-- READDIR: the entry, at `dst` -/
  | readdir (raw : List UInt8) (hop : v.peek RP_STATE = RP_FS_OP_READDIR) (hargs : v.fsArgs 6 = some raw)
      (ha : PrivateBlock (rpFsMbU16 raw 2) RP_FS_DIRENT_SIZE.toNat a)
  /-- GETCWD: the path with its terminator, at `dst` -/
  | getcwd (raw path : List UInt8) (hop : v.peek RP_STATE = RP_FS_OP_GETCWD) (hargs : v.fsArgs 8 = some raw)
      (hpath : rpFsCwdFormat cwd (v.peek RP_ARG1L) RP_FS_NEOX_PATH_MAX = some path)
      (ha : PrivateBlock (rpFsMbU16 raw 0) (path.length + 1) a)
  /-- GETCWD: its length, in the argument block -/
  | getcwdLength (hop : v.peek RP_STATE = RP_FS_OP_GETCWD) (ha : PrivateBlock (v.peek16 RP_ARG0L + 4) 2 a)
  /-- SEEK: the position, in the argument block -/
  | seek (hop : v.peek RP_STATE = RP_FS_OP_SEEK) (ha : PrivateBlock (v.peek16 RP_ARG0L + 6) 4 a)
  /-- TELL: the position, in the argument block -/
  | tell (hop : v.peek RP_STATE = RP_FS_OP_TELL) (ha : PrivateBlock (v.peek16 RP_ARG0L + 2) 4 a)
  /-- LOAD: the bytes of the file, from `mem_ptr` on -/
  | load (path : RPFSResolvedPath) (mem_ptr size_word : UInt16) (handle : UInt8) (n : Nat) (bytes : List UInt8)
      (hop : v.peek RP_STATE = RP_FS_OP_LOAD) (hpid : v.peek RP_ARG1L < RP_FS_NEOX_MAX_PROCS)
      (hargs : v.bulkArgs cwd (v.peek RP_ARG1L) (v.peek RP_ARG1H) (v.peek16 RP_ARG0L) =
        some (path, mem_ptr, size_word))
      (hopen : (bulkOpen ff RP_FS_OP_LOAD path.device path.path
        (rpFsMbEffective16bitSize size_word)).result s = (some handle, n))
      (hrange : rpFsMbValid64kRange mem_ptr n = true)
      (hbytes : ((loadChunks ff handle n 0).result ((bulkOpen ff RP_FS_OP_LOAD path.device path.path
        (rpFsMbEffective16bitSize size_word)).final s)).1 = bytes)
      (hfits : mem_ptr.toNat + bytes.length ≤ 0x10000) (ha : Span mem_ptr bytes.length a)

/-- The footprint of the request in the block. -/
def Firmware.Footprint (ff : FatFs σ) (f : Firmware σ) (a : UInt16) : Prop :=
  FsFootprint ff f.hw.view f.gRPFSProcessCwd f.storage a

section Operations

variable {c : UInt8} {A : UInt16 → Prop} {f g : Firmware σ}

theorem toNat_clipToChunk (len : UInt16) : (clipToChunk len).toNat = min len.toNat 256 := by
  rw [clipToChunk]
  split
  · rename_i h
    exact (Nat.min_eq_right (UInt16.le_iff_toNat_le.1 (UInt16.le_of_lt h))).symm
  · rename_i h
    exact (Nat.min_eq_left (UInt16.le_iff_toNat_le.1 (UInt16.not_lt.1 h))).symm

theorem confined_of_view {m : Machine} (hview : f.hw.Settled → m.Settled ∧ m.view = f.hw.view) :
    Confined c A f { f with hw := m } := by
  refine ⟨rfl, fun hf _ => ?_⟩
  obtain ⟨hm, hview⟩ := hview hf
  exact ⟨hm, f.hw.ram, hview, fun _ _ => rfl⟩

/-- The address of the argument block is read in front. -/
theorem confined_arg0 (hf : f.hw.Settled) {k : UInt16 → Prog (Firmware σ) MailboxState}
    (hk : ∀ m, m.Settled → m.view = f.hw.view → Confined c A { f with hw := m }
      ((k (f.hw.view.peek16 RP_ARG0L)).final { f with hw := m })) :
    Confined c A f ((readArg0 >>= k).final f) := by
  obtain ⟨hres, hview, hm⟩ := rpRead16_spec hf RP_ARG0L
  rw [Prog.final_bind, readArg0, onHw, Prog.result_on, Prog.final_on, hres]
  exact trans_of (Confined c A) (confined_of_view fun _ => ⟨hm, hview⟩) (hk _ hm hview)

/-- The address of the argument block and the handle are read in front. -/
theorem confined_args (hf : f.hw.Settled) {k : UInt16 → UInt8 → Prog (Firmware σ) MailboxState}
    (hk : ∀ g, ReadsOnly f g →
      Confined c A g ((k (f.hw.view.peek16 RP_ARG0L) (f.hw.view.peek RP_ARG2L)).final g)) :
    Confined c A f (Prog.final (do k (← readArg0) (← readArg2L)) f) := by
  refine confined_arg0 hf fun m hm hview => ?_
  obtain ⟨hres, hview', hm'⟩ := snoopRead6502MemoryLoc_spec hm RP_ARG2L
  rw [Prog.final_bind, readArg2L, onHw, Prog.result_on, Prog.final_on, hres, hview]
  refine trans_of (Confined c A) (confined_of_view fun _ => ⟨hm', hview'⟩) (hk _ ?_)
  exact readsOnly_of_view hm' (hview'.trans hview)

/-- The argument block is read in front, and its bytes are those of the context. -/
theorem confined_withArgs (hf : f.hw.Settled) (hg : ReadsOnly f g) {args_ptr length : UInt16}
    {valid : List UInt8 → Bool} {operation : List UInt8 → Prog (Firmware σ) MailboxState}
    (hop : ∀ raw g', f.hw.view.contextBlock c args_ptr length = some raw → ReadsOnly f g' →
      Confined c A g' ((operation raw).final g')) :
    Confined c A g ((withArgs c args_ptr length valid operation).final g) := by
  have hargs := readsOnly_readContextBlock c args_ptr length g
  have hconfined : Confined c A g _ := (transferRules_confined c A).readBlock args_ptr length g
  have hblock : g.hw.view.contextBlock c args_ptr length = f.hw.view.contextBlock c args_ptr length := by
    simp only [Machine.View.contextBlock, hg.inContext hf]
  rw [withArgs, Prog.final_bind, result_readContextBlock (hg.board hf).1, hblock]
  generalize (rpFsMbReadContextBlock c args_ptr length).final g = g' at hargs hconfined
  refine trans_of (Confined c A) hconfined ?_
  rcases hraw : f.hw.view.contextBlock c args_ptr length with - | raw
  · exact (transferRules_confined c A).error _ _ g'
  · dsimp only
    split
    · exact hop raw g' hraw (trans_of ReadsOnly hg hargs)
    · exact (transferRules_confined c A).error _ _ g'

theorem confined_withOpen {isOpen : Firmware σ → Bool} {operation : Prog (Firmware σ) MailboxState}
    (hop : Confined c A g (operation.final g)) : Confined c A g ((withOpen isOpen operation).final g) := by
  rw [withOpen, Prog.final_bind, Prog.result_get, Prog.final_get, Prog.final_ite]
  split
  · exact hop
  · exact (transferRules_confined c A).error _ _ g

variable {ff : FatFs σ} (hread : ReadsAtMost ff)

theorem confined_tell (hf : f.hw.Settled) (hg : ReadsOnly f g) (hop : f.hw.view.peek RP_STATE = RP_FS_OP_TELL)
    (handle : UInt8) : Confined (f.hw.view.peek RP_ARG1H) (f.Footprint ff) g
      ((rpFsMbExecTell ff (f.hw.view.peek RP_ARG1H) (f.hw.view.peek16 RP_ARG0L) handle).final g) := by
  refine confined_withArgs hf hg fun raw g' _ _ => confined_withOpen ?_
  refine (confined_onStorage _).bind (fun position => ?_) g'
  refine confined_withResult (show 4 < 2 ^ 16 by decide) (fun a ha => .tell hop ha) ?_
  exact (transferRules_confined _ _).done32 position

theorem confined_seek (hf : f.hw.Settled) (hg : ReadsOnly f g) (hop : f.hw.view.peek RP_STATE = RP_FS_OP_SEEK)
    (handle : UInt8) : Confined (f.hw.view.peek RP_ARG1H) (f.Footprint ff) g
      ((rpFsMbExecSeek ff (f.hw.view.peek RP_ARG1H) (f.hw.view.peek16 RP_ARG0L) handle).final g) := by
  have hrules := transferRules_confined (σ := σ) (f.hw.view.peek RP_ARG1H) (f.Footprint ff)
  refine confined_withArgs hf hg fun raw g' _ _ => confined_withOpen ?_
  refine (confined_onStorage _).bind (fun base => ?_) g'
  rcases base with - | base
  · exact hrules.error _ _
  · refine Prog.Keeps.ite (fun _ => hrules.error _ _) fun _ => (confined_onStorage _).bind fun sought => ?_
    refine Prog.Keeps.ite (fun _ => (confined_onStorage _).bind fun position => ?_) fun _ => hrules.error _ _
    refine confined_withResult (show 4 < 2 ^ 16 by decide) (fun a ha => .seek hop ha) ?_
    exact hrules.done32 position

theorem confined_getcwd (hf : f.hw.Settled) (hg : ReadsOnly f g)
    (hop : f.hw.view.peek RP_STATE = RP_FS_OP_GETCWD) : Confined (f.hw.view.peek RP_ARG1H) (f.Footprint ff) g
      ((rpFsMbExecGetcwd (f.hw.view.peek RP_ARG1L) (f.hw.view.peek RP_ARG1H)
        (f.hw.view.peek16 RP_ARG0L)).final g) := by
  have hrules := transferRules_confined (σ := σ) (f.hw.view.peek RP_ARG1H) (f.Footprint ff)
  refine confined_withArgs hf hg fun raw g' hraw hg' => ?_
  rw [Prog.final_bind, Prog.result_get, Prog.final_get, hg'.cwd]
  rcases hpath : rpFsCwdFormat f.gRPFSProcessCwd (f.hw.view.peek RP_ARG1L) RP_FS_NEOX_PATH_MAX with - | path
  · exact hrules.error _ _ g'
  refine Prog.Keeps.ite (fun _ => hrules.error _ _) (fun hfits => ?_) g'
  have hlen : (path ++ [0]).length < 2 ^ 16 := by
    rw [List.length_append]
    exact (Nat.not_lt.1 hfits).trans_lt (rpFsMbU16 raw 2).toNat_lt
  refine confined_withResult hlen (fun a ha => ?_) ?_
  · rw [List.length_append] at ha
    exact .getcwd raw path hop hraw hpath ha
  · refine confined_withResult (show 2 < 2 ^ 16 by decide) (fun a ha => .getcwdLength hop ha) ?_
    exact hrules.done _ _

theorem confined_readdir (hf : f.hw.Settled) (hg : ReadsOnly f g)
    (hop : f.hw.view.peek RP_STATE = RP_FS_OP_READDIR) (handle : UInt8) :
    Confined (f.hw.view.peek RP_ARG1H) (f.Footprint ff) g
      ((rpFsMbExecReaddir ff (f.hw.view.peek RP_ARG1H) (f.hw.view.peek16 RP_ARG0L) handle).final g) := by
  have hrules := transferRules_confined (σ := σ) (f.hw.view.peek RP_ARG1H) (f.Footprint ff)
  refine confined_withArgs hf hg fun raw g' hraw _ => confined_withOpen ?_
  refine Prog.Keeps.ite (fun _ => hrules.error _ _) (fun _ => (confined_onStorage _).bind fun entry => ?_) g'
  rcases entry with ⟨name, attr, size⟩ | - | -
  · have hlen := length_direntBytes name attr size
    refine confined_withResult (by rw [hlen]; decide) (fun a ha => ?_) (hrules.done _ _)
    rw [hlen] at ha
    exact .readdir raw hop hraw ha
  · exact hrules.done _ _
  · exact hrules.error _ _

include hread

theorem confined_read (hf : f.hw.Settled) (hg : ReadsOnly f g)
    (hop : f.hw.view.peek RP_STATE = RP_FS_OP_READ) :
    Confined (f.hw.view.peek RP_ARG1H) (f.Footprint ff) g
      ((rpFsMbExecRead ff (f.hw.view.peek RP_ARG1H) (f.hw.view.peek16 RP_ARG0L)
        (f.hw.view.peek RP_ARG2L)).final g) := by
  have hrules := transferRules_confined (σ := σ) (f.hw.view.peek RP_ARG1H) (f.Footprint ff)
  have hlook : ∀ handle, Prog.Keeps (Confined (f.hw.view.peek RP_ARG1H) (f.Footprint ff)) (do
      let eof ← onStorage (eofFlag ff handle)
      fsMbDone 0 eof) := fun handle => (confined_onStorage _).bind fun _ => hrules.done _ _
  refine confined_withArgs hf hg fun raw g' hraw hg' => confined_withOpen ?_
  simp only [Prog.final_ite]
  split
  · exact hrules.error _ _ g'
  split
  · exact hlook _ g'
  split
  · exact hrules.error _ _ g'
  have hfile : Confined (f.hw.view.peek RP_ARG1H) (f.Footprint ff) g' _ :=
    confined_onStorage (rpFsRead ff (f.hw.view.peek RP_ARG2L) (clipToChunk (rpFsMbU16 raw 4))) g'
  rw [Prog.final_bind]
  refine trans_of (Confined _ _) hfile ?_
  rcases hbytes : (onStorage (rpFsRead ff (f.hw.view.peek RP_ARG2L) (clipToChunk (rpFsMbU16 raw 4)))).result g'
    with - | - | ⟨b, bytes⟩
  · exact hrules.error _ _ _
  · exact hlook _ _
  · replace hbytes : (rpFsRead ff (f.hw.view.peek RP_ARG2L) (clipToChunk (rpFsMbU16 raw 4))).result f.storage =
        some (b :: bytes) := by
      rw [← hg'.storage]
      exact hbytes
    have hlen : (b :: bytes).length ≤ (clipToChunk (rpFsMbU16 raw 4)).toNat :=
      length_rpFsRead ff _ hread _ f.storage hbytes
    refine confined_withResult (hlen.trans_lt (UInt16.toNat_lt _)) (fun a ha => ?_) ?_ _
    · exact .read raw _ hop hraw hbytes (hlen.trans_eq (toNat_clipToChunk _)) ha
    · exact (confined_onStorage _).bind fun _ => hrules.done _ _

/-- What the loop of a SAVE or LOAD writes with the storage it finds, the whole request does. -/
theorem confined_bulkTransfer {op device handle : UInt8} {mem_ptr : UInt16} {n : Nat}
    (hloop : rpFsMbValid64kRange mem_ptr n = true → ∀ g : Firmware σ, g.storage = f.storage →
      Inside A g ((bulkLoop ff op handle mem_ptr n 0).final g)) :
    Confined c A f ((bulkTransfer ff op c device handle mem_ptr n).final f) := by
  have hrules := transferRules_confined (σ := σ) c A
  have hpending : Prog.Keeps (Order.Preimage (fun f : Firmware σ => f.gIntrPending) Eq)
      (bulkLoop ff op handle mem_ptr n 0) :=
    keeps_bulkLoop hread (fun _ _ => rfl) (fun _ _ _ => rfl) (fun _ _ _ => rfl) (fun _ _ _ _ _ => rfl) 0
  have hclose : Prog.Keeps (Confined c A) (onStorage (rpFsClose ff handle)) := confined_onStorage _
  rw [bulkTransfer, Prog.final_ite]
  split
  · exact (hclose.discard.bind fun _ => hrules.error _ _) f
  · rename_i hrange
    have htransfer : Confined c A f ((withContext c (bulkLoop ff op handle mem_ptr n 0)).final f) :=
      confined_withContext (hloop (Bool.not_eq_false _ ▸ hrange)) fun g => (hpending g).symm
    rw [Prog.final_bind]
    refine trans_of (Confined c A) htransfer ?_
    rcases (withContext c (bulkLoop ff op handle mem_ptr n 0)).result f with - | ⟨total, failed⟩
    · exact (hclose.discard.bind fun _ => hrules.error _ _) _
    · refine (hclose.bind fun close_ok => ?_) _
      exact Prog.Keeps.ite (fun _ => hrules.error _ _) fun _ => hrules.done _ _

theorem confined_bulkOnPath {op : UInt8} {path : RPFSResolvedPath} {mem_ptr size_word : UInt16}
    (hloop : ∀ handle n, (bulkOpen ff op path.device path.path
        (rpFsMbEffective16bitSize size_word)).result f.storage = (some handle, n) →
      rpFsMbValid64kRange mem_ptr n = true → ∀ g : Firmware σ,
        g.storage = (bulkOpen ff op path.device path.path
          (rpFsMbEffective16bitSize size_word)).final f.storage →
        Inside A g ((bulkLoop ff op handle mem_ptr n 0).final g)) :
    Confined c A f ((bulkOnPath ff op c path mem_ptr size_word).final f) := by
  have hopens : Confined c A f _ := confined_onStorage (bulkOpen ff op path.device path.path
    (rpFsMbEffective16bitSize size_word)) f
  rw [bulkOnPath, Prog.final_bind]
  refine trans_of (Confined c A) hopens ?_
  rcases hopen : (onStorage (bulkOpen ff op path.device path.path
    (rpFsMbEffective16bitSize size_word))).result f with ⟨- | handle, n⟩
  · exact (transferRules_confined c A).deviceError _ _
  · exact confined_bulkTransfer hread fun hrange g hg => hloop handle n hopen hrange g hg

/-- The loop of a LOAD stores the bytes it reads. -/
theorem inside_load {handle : UInt8} {mem_ptr : UInt16} {n : Nat} (hrange : rpFsMbValid64kRange mem_ptr n = true)
    (hA : ∀ a, Span mem_ptr ((loadChunks ff handle n 0).result g.storage).1.length a → A a) :
    Inside A g ((bulkLoop ff RP_FS_OP_LOAD handle mem_ptr n 0).final g) := by
  obtain ⟨-, m, hfin, hboard⟩ := bulkLoop_load ff handle n mem_ptr 0 g
  have hlen := length_loadChunks handle hread (Nat.zero_le n) g.storage
  have hfits := fits_of_valid64kRange hrange
  rw [hfin]
  refine ⟨rfl, rfl, fun hm => ?_⟩
  obtain ⟨hmode, hview⟩ := hboard hm
  refine ⟨hmode, _, fun w hw => ?_, hview⟩
  obtain ⟨i, hi, heq⟩ := mem_blockWrites hw
  rw [heq, show mem_ptr + UInt16.ofNat 0 = mem_ptr from UInt16.add_zero mem_ptr]
  refine hA _ (span_of_fits ?_ hi)
  omega

/-- A SAVE stores nothing. -/
theorem inside_save {handle : UInt8} {mem_ptr : UInt16} {n : Nat} :
    Inside A g ((bulkLoop ff RP_FS_OP_SAVE handle mem_ptr n 0).final g) := by
  refine keeps_bulkLoop hread (fun _ => inside_onStorage _) (fun _ _ => inside_onStorage _) inside_readBlock
    (fun hload => ?_) 0 g
  exact absurd hload (by decide)

omit hread in
theorem bulkRequest_eq_some {args : RPFSResolvedPath × UInt16 × UInt16} : f.bulkRequest = some args ↔
    f.hw.view.peek RP_ARG1L < RP_FS_NEOX_MAX_PROCS ∧ f.hw.view.bulkArgs f.gRPFSProcessCwd
      (f.hw.view.peek RP_ARG1L) (f.hw.view.peek RP_ARG1H) (f.hw.view.peek16 RP_ARG0L) = some args := by
  rw [Firmware.bulkRequest]
  split
  · rename_i hpid
    exact iff_of_false (by rintro ⟨⟩) fun h => UInt8.not_lt.2 hpid h.1
  · rename_i hpid
    exact ⟨fun h => ⟨UInt8.not_le.1 hpid, h⟩, And.right⟩

/-- The operations, behind the check of PID and context, are confined to their reply and their footprint. -/
theorem confined_checkedOperation (hf : f.hw.Settled) : Confined (f.hw.view.peek RP_ARG1H) (f.Footprint ff) f
    ((checkedOperation ff (f.hw.view.peek RP_STATE) (f.hw.view.peek RP_ARG1L)
      (f.hw.view.peek RP_ARG1H)).final f) := by
  have hrules := transferRules_confined (σ := σ) (f.hw.view.peek RP_ARG1H) (f.Footprint ff)
  by_cases hbulk : f.hw.view.peek RP_STATE = RP_FS_OP_LOAD ∨ f.hw.view.peek RP_STATE = RP_FS_OP_SAVE
  · obtain ⟨f₁, hreads, hconfined, hg⟩ := final_checkedOperation_bulk ff hrules.readRules hf hbulk
    rw [hg]
    refine trans_of (Confined _ _) hconfined ?_
    rcases hargs : f.bulkRequest with - | ⟨path, mem_ptr, size_word⟩
    · exact hrules.error _ _ f₁
    obtain ⟨hpid, hargs⟩ := bulkRequest_eq_some.1 hargs
    refine confined_bulkOnPath hread fun handle n hopen hrange g hg => ?_
    rw [hreads.storage] at hopen hg
    rcases hbulk with hop | hop
    · rw [hop] at hopen hg ⊢
      have hlen := length_loadChunks handle hread (Nat.zero_le n) g.storage
      have hfits := fits_of_valid64kRange hrange
      refine inside_load hread hrange fun a ha => ?_
      rw [hg] at ha hlen
      exact .load path mem_ptr size_word handle n _ hop hpid hargs hopen hrange rfl (by omega) ha
    · rw [hop]
      exact inside_save hread
  by_cases hres : f.hw.view.peek RP_STATE ∈ resultOperations
  swap
  · have hfiles := fileRules_true ff
    exact hrules.keeps_checkedOperation _ confined_cwd (fun h => absurd h hres)
      (hrules.keeps_handleOperation hfiles _ confined_cwd)
      (hrules.keeps_changeOperation hfiles.toAccessRules _) (fun h => absurd h hbulk)
      (fun _ _ _ _ _ => trivial) f
  rw [checkedOperation, Prog.final_ite]
  split
  · exact hrules.error _ _ f
  simp only [resultOperations, List.mem_cons, List.not_mem_nil, or_false] at hres
  rcases hres with hop | hop | hop | hop | hop
  · rw [hop, execOperation_read]
    exact confined_args hf fun g hg => confined_read hread hf hg hop
  · rw [hop, execOperation_seek]
    exact confined_args hf fun g hg => confined_seek hf hg hop _
  · rw [hop, execOperation_tell]
    exact confined_args hf fun g hg => confined_tell hf hg hop _
  · rw [hop, execOperation_readdir]
    exact confined_args hf fun g hg => confined_readdir hf hg hop _
  · rw [hop, execOperation_getcwd]
    exact confined_arg0 hf fun m hm hview => confined_getcwd hf (readsOnly_of_view hm hview) hop

end Operations

/-! ## Whole requests -/

section Request

variable {ff : FatFs σ} (hread : ReadsAtMost ff) {f : Firmware σ}

include hread

/-- A request is confined to its reply and to its footprint in its caller's context. -/
theorem confined_footprint (hf : f.hw.Settled) :
    Confined (f.hw.view.peek RP_ARG1H) (f.Footprint ff) f ((rpFsMailboxHandleExec ff).final f) := by
  obtain ⟨m₀, op, pid, context, hblock, -, hfin⟩ := final_rpFsMailboxHandleExec ff f
  obtain ⟨hm₀, hview₀, rfl, rfl, rfl⟩ := hblock hf
  have hoperation := confined_checkedOperation hread (f := { f with hw := m₀ }) hm₀
  have hsame : Firmware.Footprint ff { f with hw := m₀ } = f.Footprint ff := by
    funext a
    rw [Firmware.Footprint, hview₀]
    rfl
  simp only [hview₀, hsame] at hoperation
  have hrequest : Confined (f.hw.view.peek RP_ARG1H) (f.Footprint ff) f _ :=
    trans_of (Confined _ _) (confined_of_view fun _ => ⟨hm₀, hview₀⟩) hoperation
  rw [hfin]
  exact ⟨hrequest.gIntrPending, hrequest.board⟩

end Request

/-- The addresses in its caller's context that a request may write. -/
def Firmware.Writes (ff : FatFs σ) (f : Firmware σ) (a : UInt16) : Prop :=
  let op := f.hw.view.peek RP_STATE
  if op = RP_FS_OP_LOAD ∨ op = RP_FS_OP_SAVE then
    op = RP_FS_OP_LOAD ∧ ∃ path mem_ptr size_word handle n i,
      f.bulkRequest = some (path, mem_ptr, size_word) ∧
        (bulkOpen ff op path.device path.path (rpFsMbEffective16bitSize size_word)).result f.storage =
          (some handle, n) ∧
        rpFsMbValid64kRange mem_ptr n = true ∧ i < n ∧ a = mem_ptr + UInt16.ofNat i
  else
    a.toNat < RP_FS_PRIVATE_LIMIT

section Request

variable {ff : FatFs σ} (hread : ReadsAtMost ff) {f : Firmware σ} {a : UInt16}

/-- Apart from LOAD the footprint is private memory. -/
theorem FsFootprint.bounds {v : Machine.View} {cwd : CwdTable} {s : Storage σ} (h : FsFootprint ff v cwd s a)
    (hop : v.peek RP_STATE ≠ RP_FS_OP_LOAD) : 0 < a.toNat ∧ a.toNat < RP_FS_PRIVATE_LIMIT := by
  cases h with
  | load _ _ _ _ _ _ hload => exact absurd hload hop
  | read _ _ _ _ _ _ ha => exact ha.bounds
  | readdir _ _ _ ha => exact ha.bounds
  | getcwd _ _ _ _ _ ha => exact ha.bounds
  | getcwdLength _ ha => exact ha.bounds
  | seek _ ha => exact ha.bounds
  | tell _ ha => exact ha.bounds

include hread

theorem Firmware.Footprint.writes (h : f.Footprint ff a) : f.Writes ff a := by
  rw [Firmware.Writes]
  split
  · rename_i hop
    cases h with
    | load path mem_ptr size_word handle n bytes hload hpid hargs hopen hrange hbytes hfits ha =>
      have hlen := length_loadChunks handle hread (Nat.zero_le n)
        ((bulkOpen ff RP_FS_OP_LOAD path.device path.path (rpFsMbEffective16bitSize size_word)).final f.storage)
      rw [hbytes] at hlen
      rw [← hload] at hopen
      obtain ⟨hfrom, hto⟩ := ha
      have hoffset : a = mem_ptr + UInt16.ofNat (a.toNat - mem_ptr.toNat) := by
        rw [UInt16.ofNat_sub hfrom, UInt16.ofNat_toNat, UInt16.ofNat_toNat, UInt16.add_comm,
          UInt16.sub_add_cancel]
      exact ⟨hload, path, mem_ptr, size_word, handle, n, _, bulkRequest_eq_some.2 ⟨hpid, hargs⟩, hopen, hrange,
        by omega, hoffset⟩
    | read _ _ hstate => rcases hop with hop | hop <;> exact absurd (hstate.symm.trans hop) (by decide)
    | readdir _ hstate => rcases hop with hop | hop <;> exact absurd (hstate.symm.trans hop) (by decide)
    | getcwd _ _ hstate => rcases hop with hop | hop <;> exact absurd (hstate.symm.trans hop) (by decide)
    | getcwdLength hstate => rcases hop with hop | hop <;> exact absurd (hstate.symm.trans hop) (by decide)
    | seek hstate => rcases hop with hop | hop <;> exact absurd (hstate.symm.trans hop) (by decide)
    | tell hstate => rcases hop with hop | hop <;> exact absurd (hstate.symm.trans hop) (by decide)
  · rename_i hop
    exact (FsFootprint.bounds h fun hload => hop (.inl hload)).2

/-- A request is confined to its reply and to what it may write in its caller's context. -/
theorem confined_request (hf : f.hw.Settled) :
    Confined (f.hw.view.peek RP_ARG1H) (f.Writes ff) f ((rpFsMailboxHandleExec ff).final f) :=
  (confined_footprint hread hf).mono fun _ ha => ha.writes hread

omit hread in
theorem final_dispatchExec : (rpDispatchMailboxCommand ff RP_GROUP_FS RP_FS_CMD_EXEC).final f =
    (rpFsMailboxHandleExec ff).final { f with hw := rpMailboxClearResultFields.final f.hw } := by
  have hfind : rpFindMailboxCommand ff RP_GROUP_FS RP_FS_CMD_EXEC = some (rpFsMailboxHandleExec ff) := rfl
  rw [rpDispatchMailboxCommand, hfind, Prog.final_bind, onHw, Prog.final_on]

omit hread in
/-- What is confined behind stores into the reply is confined in front of them. -/
theorem confined_behind_stores {cleared f' : Firmware σ} {ws : List (UInt16 × UInt8)} {c : UInt8}
    {A : UInt16 → Prop} (hsteady : cleared.hw.Steady) (hview : cleared.hw.view = f.hw.view.writes ws)
    (hws : ∀ w ∈ ws, w.1 ∈ replyAddresses) (h : Confined c A cleared f') :
    f'.hw.view = { f.hw.view with ram := f'.hw.ram } ∧
      ∀ cell, f.hw.view.Spares c A cell → f'.hw.ram cell = f.hw.ram cell := by
  obtain ⟨-, ram, hview', hram⟩ := h.board hsteady.settled hsteady.selected
  have hboard := hview.trans (Machine.View.writes_eq_self _ _)
  have hram' : f'.hw.ram = ram := congrArg Machine.View.ram hview'
  refine ⟨?_, fun cell hcell => ?_⟩
  · rw [hview', hboard, hram']
  · have hspares : cleared.hw.view.Spares c A cell := by
      rw [hboard]
      exact hcell
    have hstored : cleared.hw.ram cell = (f.hw.view.writes ws).ram cell :=
      congrFun (congrArg Machine.View.ram hview) cell
    rw [hram', hram cell hspares, hstored]
    exact f.hw.view.ram_writes_of_ne fun w hw => hcell.1 w.1 (hws w hw)

/-- Of the 6502's memory a dispatched request changes nothing but its result fields and, in its caller's
context, its footprint. The footprint is that of the block with its result fields cleared. -/
theorem request_footprint (hf : f.hw.Steady) :
    let cleared := { f with hw := rpMailboxClearResultFields.final f.hw }
    let f' := (rpDispatchMailboxCommand ff RP_GROUP_FS RP_FS_CMD_EXEC).final f
    f'.hw.view = { f.hw.view with ram := f'.hw.ram } ∧
      (∀ cell, f.hw.view.Spares (f.hw.view.peek RP_ARG1H) (cleared.Footprint ff) cell →
        f'.hw.ram cell = f.hw.ram cell) ∧
      ∀ a, cleared.Footprint ff a → f.hw.view.peek RP_STATE ≠ RP_FS_OP_LOAD →
        0x0001 ≤ a.toNat ∧ a.toNat ≤ 0x7FFF := by
  obtain ⟨hsteady, hview⟩ := stores_clearResultFields.steady hf
  have hstate := peek_clearResultFields hf.settled (a := RP_STATE) (by decide)
  have hcontext := peek_clearResultFields hf.settled (a := RP_ARG1H) (by decide)
  rw [final_dispatchExec]
  generalize rpMailboxClearResultFields.final f.hw = m at hsteady hview hstate hcontext ⊢
  have hconfined := confined_footprint hread (f := { f with hw := m }) hsteady.settled
  generalize (rpFsMailboxHandleExec ff).final { f with hw := m } = f' at hconfined ⊢
  intro cleared f''
  rw [hcontext] at hconfined
  obtain ⟨hboard, hram⟩ := confined_behind_stores (f := f) hsteady hview (by decide) hconfined
  refine ⟨hboard, hram, fun a ha hop => ?_⟩
  rw [← hstate] at hop
  have hbounds := FsFootprint.bounds ha hop
  rw [RP_FS_PRIVATE_LIMIT] at hbounds
  omega

end Request

/-- A board whose request block asks for the position of a file, with its arguments at `$2000`. -/
def tellFirmware : Firmware RamDisk :=
  .start (.running fun cell => (List.lookup cell
    [((0x0B, 0x005), RP_FS_OP_TELL), ((0x0B, 0x007), 0x20), ((0x0B, 0x008), 1)]).getD 0)
    (RamDisk.mounted fun _ => none)

/-- The request leaves the byte at `$9000` alone. -/
theorem request_footprint_tell :
    ((rpDispatchMailboxCommand RamDisk.fatFs RP_GROUP_FS RP_FS_CMD_EXEC).final tellFirmware).hw.ram
      (0x09, 0x000) = tellFirmware.hw.ram (0x09, 0x000) := by
  have hsteady : tellFirmware.hw.Steady := ⟨Machine.settled_running _, rfl⟩
  obtain ⟨-, hram, hbounds⟩ := request_footprint readsAtMost_ramDisk hsteady
  refine hram _ ⟨by decide, fun a ha hcell => ?_⟩
  obtain ⟨-, hlimit⟩ := hbounds a ha (by decide)
  have hindex : Machine.index a < 8 := by
    rw [Machine.index, UInt8.lt_iff_toNat_lt, UInt16.toNat_toUInt8, UInt16.toNat_shiftRight]
    show a.toNat >>> 12 % 2 ^ 8 < 8
    rw [Nat.shiftRight_eq_div_pow]
    omega
  have hpages : ∀ i : UInt8, i < 8 → gDefaultMMU.getD i.toNat 0 &&& 0x7F ≠ 0x09 := by
    decide +kernel
  exact hpages _ hindex (congrArg Prod.fst hcell)

end NeoMmu
