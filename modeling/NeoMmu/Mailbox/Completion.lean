import NeoMmu.Fs.Files
import NeoMmu.Mailbox.FsMailbox

/-!
# Every request completes once

A filesystem request opens and closes some context accesses, publishes one result, and for a process
asks for the completion interrupt last. `Quiet` is what a handler does in front of its result and
`Completes` is what it does as a whole. Both compose along the program, so the proof about an
operation is one walk over its exits.
-/

namespace NeoMmu

variable {σ α : Type}

/-! ## Publishing a result -/

namespace Machine.View

@[simp] theorem peek_poke_self (v : View) (a : UInt16) (b : UInt8) : (v.poke a b).peek a = b :=
  Function.update_self _ _ _

/-- Addresses with different offsets in their pages are different cells under every mapping. -/
theorem peek_poke_of_ne (v : View) {a a' : UInt16} (b : UInt8) (h : a' &&& 0x0FFF ≠ a &&& 0x0FFF) :
    (v.poke a b).peek a' = v.peek a' :=
  Function.update_of_ne (fun heq => h (congrArg Prod.snd heq)) _ _

theorem peek_writes_of_ne (v : View) {ws : List (UInt16 × UInt8)} {a : UInt16}
    (h : ∀ w ∈ ws, a &&& 0x0FFF ≠ w.1 &&& 0x0FFF) : (v.writes ws).peek a = v.peek a := by
  rw [v.writes_eq_self ws]
  exact v.ram_writes_of_ne fun w hw heq => h w hw (congrArg Prod.snd heq).symm

/-- The last write to an address is the one that is seen. -/
theorem peek_writes_last (v : View) (ws : List (UInt16 × UInt8)) {rest : List (UInt16 × UInt8)}
    {a : UInt16} (b : UInt8) (h : ∀ w ∈ rest, a &&& 0x0FFF ≠ w.1 &&& 0x0FFF) :
    (v.writes (ws ++ (a, b) :: rest)).peek a = b := by
  rw [writes_append, writes_cons, peek_writes_of_ne _ h, peek_poke_self]

end Machine.View

/-- The system state and the context are those before, and the board is settled. -/
structure Undisturbed (m m' : Machine) : Prop where
  settled : m'.Settled
  gSysState : m'.gSysState = m.gSysState
  context : m'.getMMUContext = m.getMMUContext

section Machine

variable {m m' m'' : Machine}

theorem Undisturbed.refl (hm : m.Settled) : Undisturbed m m := ⟨hm, rfl, rfl⟩

theorem Undisturbed.trans (h : Undisturbed m m') (h' : Undisturbed m' m'') : Undisturbed m m'' :=
  ⟨h'.settled, h'.gSysState.trans h.gSysState, h'.context.trans h.context⟩

/-- Writes disturb nothing. -/
theorem undisturbed_of_view (hm' : m'.Settled) {ws : List (UInt16 × UInt8)}
    (hview : m'.view = m.view.writes ws) : Undisturbed m m' := by
  rw [Machine.View.writes_eq_self] at hview
  refine ⟨hm', congrArg Machine.View.gSysState hview, ?_⟩
  rw [Machine.getMMUContext, Machine.getMMUContext]
  exact congrArg (fun v : Machine.View => UInt8.ofInt v.gCurrentContext) hview

/-- On a settled board the program makes the writes `ws` and nothing else. -/
def Stores (p : Prog Machine Unit) (ws : List (UInt16 × UInt8)) : Prop :=
  ∀ m : Machine, m.Settled → (p.final m).view = m.view.writes ws ∧ (p.final m).Settled

theorem Stores.bind {p q : Prog Machine Unit} {ws ws' : List (UInt16 × UInt8)} (hp : Stores p ws)
    (hq : Stores q ws') : Stores (p >>= fun _ => q) (ws ++ ws') := by
  intro m hm
  obtain ⟨hview, hsettled⟩ := hp m hm
  obtain ⟨hview', hsettled'⟩ := hq _ hsettled
  refine ⟨?_, hsettled'⟩
  rw [Prog.final_bind, hview', hview, Machine.View.writes_append]

theorem stores_snoopWrite (a : UInt16) (b : UInt8) : Stores (snoopWrite6502MemoryLoc a b) [(a, b)] :=
  fun _ hm => snoopWrite6502MemoryLoc_spec hm a b

theorem stores_rpWrite16 (addr value : UInt16) : Stores (rpWrite16 addr value)
    [(addr, (value &&& 0xFF).toUInt8), (addr + 1, ((value >>> 8) &&& 0xFF).toUInt8)] :=
  (stores_snoopWrite _ _).bind (stores_snoopWrite _ _)

theorem stores_publish (res0 res1 : UInt16) (err flags status : UInt8) :
    ∃ ws, Stores (rpMailboxPublish res0 res1 err flags status)
      (ws ++ [(RP_ERR, err), (RP_FLAGS, flags), (RP_STATUS, status),
        (RP_DOORBELL, RP_DOORBELL_NONE)]) := by
  have hfields : Stores _ _ :=
    (stores_snoopWrite RP_ERR err).bind <| (stores_snoopWrite RP_FLAGS flags).bind <|
      (stores_snoopWrite RP_STATUS status).bind (stores_snoopWrite RP_DOORBELL RP_DOORBELL_NONE)
  have hblock := (stores_rpWrite16 RP_RES0L res0).bind ((stores_rpWrite16 RP_RES1L res1).bind hfields)
  rw [← List.append_assoc] at hblock
  exact ⟨_, hblock⟩

theorem stores_clearResultFields : Stores rpMailboxClearResultFields
    [(RP_RES0L, 0), (RP_RES0L + 1, 0), (RP_RES1L, 0), (RP_RES1L + 1, 0), (RP_ERR, RP_ERR_OK),
      (RP_FLAGS, 0)] :=
  (stores_rpWrite16 RP_RES0L 0).bind <| (stores_rpWrite16 RP_RES1L 0).bind <|
    (stores_snoopWrite RP_ERR RP_ERR_OK).bind (stores_snoopWrite RP_FLAGS 0)

/-- Clearing the result fields leaves the rest of the block. -/
theorem peek_clearResultFields (hm : m.Settled) {a : UInt16}
    (ha : ∀ w ∈ [RP_RES0L, RP_RES0L + 1, RP_RES1L, RP_RES1L + 1, RP_ERR, RP_FLAGS],
      a &&& 0x0FFF ≠ w &&& 0x0FFF) :
    (rpMailboxClearResultFields.final m).view.peek a = m.view.peek a := by
  obtain ⟨hview, -⟩ := stores_clearResultFields m hm
  rw [hview]
  refine Machine.View.peek_writes_of_ne _ fun w hw => ha w.1 ?_
  exact List.mem_map_of_mem (f := Prod.fst) hw

/-- What is in the block after a result has been published: the doorbell is cleared after the status
has been set. -/
theorem rpMailboxPublish_spec (hm : m.Settled) (res0 res1 : UInt16) (err flags status : UInt8) :
    let m' := (rpMailboxPublish res0 res1 err flags status).final m
    Undisturbed m m' ∧ m'.view.peek RP_STATUS = status ∧ m'.view.peek RP_ERR = err ∧
      m'.view.peek RP_DOORBELL = RP_DOORBELL_NONE := by
  obtain ⟨ws, hstores⟩ := stores_publish res0 res1 err flags status
  obtain ⟨hview, hsettled⟩ := hstores m hm
  refine ⟨undisturbed_of_view hsettled hview, ?_⟩
  simp only [hview, Machine.View.writes_append, Machine.View.writes_cons, Machine.View.writes_nil]
  generalize m.view.writes ws = v
  refine ⟨?_, ?_, Machine.View.peek_poke_self _ _ _⟩
  · rw [Machine.View.peek_poke_of_ne _ _ (by decide), Machine.View.peek_poke_self]
  · rw [Machine.View.peek_poke_of_ne _ _ (by decide), Machine.View.peek_poke_of_ne _ _ (by decide),
      Machine.View.peek_poke_of_ne _ _ (by decide), Machine.View.peek_poke_self]

end Machine

/-! ## In front of the result -/

/-- The trace of `n` context accesses, each closed before the next is opened. -/
def closedAccesses : Nat → List Event
  | 0 => []
  | n + 1 => .contextClose :: .contextOpen :: closedAccesses n

theorem closedAccesses_add (n k : Nat) :
    closedAccesses (n + k) = closedAccesses n ++ closedAccesses k := by
  induction n with
  | zero => rw [Nat.zero_add]; rfl
  | succ n ih => rw [Nat.succ_add]; simp only [closedAccesses, ih, List.cons_append]

/-- Nothing is published: the trace grows by closed accesses, and the board is as it was. -/
structure Quiet (f f' : Firmware σ) : Prop where
  events : ∃ n, f'.events = closedAccesses n ++ f.events
  pending : f'.gFsCompletionPending = f.gFsCompletionPending
  board : f.hw.Settled → Undisturbed f.hw f'.hw

instance : Std.Refl (Quiet (σ := σ)) where
  refl _ := ⟨⟨0, rfl⟩, rfl, Undisturbed.refl⟩

instance : IsTrans (Firmware σ) Quiet where
  trans f f' f'' h h' := by
    obtain ⟨n, hn⟩ := h.events
    obtain ⟨k, hk⟩ := h'.events
    refine ⟨⟨k + n, ?_⟩, h'.pending.trans h.pending, fun hf => ?_⟩
    · rw [hk, hn, closedAccesses_add, List.append_assoc]
    · have hboard := h.board hf
      exact hboard.trans (h'.board hboard.settled)

theorem quiet_onStorage (p : Prog (Storage σ) α) : Prog.Keeps Quiet (onStorage p) :=
  fun _ => ⟨⟨0, rfl⟩, rfl, Undisturbed.refl⟩

theorem quiet_onHw {p : Prog Machine α} (h : ∀ m : Machine, m.Settled → Undisturbed m (p.final m)) :
    Prog.Keeps (Quiet (σ := σ)) (onHw p) :=
  fun f => ⟨⟨0, rfl⟩, rfl, h f.hw⟩

theorem undisturbed_snoopRead {m : Machine} (hm : m.Settled) (a : UInt16) :
    Undisturbed m ((snoopRead6502MemoryLoc a).final m) := by
  obtain ⟨-, hview, hm'⟩ := snoopRead6502MemoryLoc_spec hm a
  exact undisturbed_of_view hm' (hview.trans m.view.writes_nil.symm)

theorem quiet_snoopRead (a : UInt16) :
    Prog.Keeps (Quiet (σ := σ)) (onHw (snoopRead6502MemoryLoc a)) :=
  quiet_onHw fun _ hm => undisturbed_snoopRead hm a

theorem quiet_rpRead16 (a : UInt16) : Prog.Keeps (Quiet (σ := σ)) (onHw (rpRead16 a)) :=
  quiet_onHw fun _ hm =>
    have hlo := undisturbed_snoopRead hm a
    hlo.trans (undisturbed_snoopRead hlo.settled (a + 1))

/-- A context access leaves its opening and its closing. -/
theorem quiet_withContext {c : UInt8} {A : UInt16 → Prop} {body : Prog (Firmware σ) α}
    (hbody : Prog.Keeps (Inside A) body) : Prog.Keeps Quiet (withContext c body) := by
  intro f
  rcases Nat.lt_or_ge c.toNat maxContexts.toNat with hc | hc
  · have hlt : c < maxContexts := hc
    obtain ⟨hevents, hpending⟩ := withContext_events hlt hbody f
    refine ⟨⟨1, hevents⟩, hpending, fun hf => ?_⟩
    have haccess := withContext_access hf hlt hbody
    exact ⟨haccess.settled, haccess.gSysState, haccess.context⟩
  · have hge : maxContexts ≤ c := hc
    rw [(withContext_refused hge body f).2]
    exact refl f

theorem quiet_readContextBlock (c : UInt8) (a n : UInt16) :
    Prog.Keeps (Quiet (σ := σ)) (rpFsMbReadContextBlock c a n) := by
  refine Prog.Keeps.ite (fun _ => Prog.Keeps.pure none) fun _ => ?_
  exact quiet_withContext (inside_readBlock (A := fun _ => True) a n.toNat)

theorem quiet_writeContextBlock (c : UInt8) (a : UInt16) (bs : List UInt8) :
    Prog.Keeps (Quiet (σ := σ)) (rpFsMbWriteContextBlock c a bs) := by
  refine Prog.Keeps.ite (fun _ => Prog.Keeps.pure false) fun _ => ?_
  have hwrite : Prog.Keeps (Inside (σ := σ) fun _ => True) (onHw (writeBlock a bs)) :=
    inside_writeBlock fun _ _ => trivial
  exact (quiet_withContext hwrite).bind fun _ => Prog.Keeps.pure _

theorem quiet_readContextPath (c : UInt8) (a n : UInt16) (dst_len : Nat) :
    Prog.Keeps (Quiet (σ := σ)) (rpFsMbReadContextPath c a n dst_len) := by
  refine Prog.Keeps.ite (fun _ => Prog.Keeps.pure none) fun _ => ?_
  have hread : Prog.Keeps (Inside (σ := σ) fun _ => True) (onHw (readPathLoop a 0 n.toNat)) :=
    inside_readPathLoop a 0 n.toNat
  exact (quiet_withContext hread).bind fun _ => Prog.Keeps.pure _

theorem quiet_resolveArgPath (pid c : UInt8) (a n : UInt16) (device : UInt8) :
    Prog.Keeps (Quiet (σ := σ)) (rpFsMbResolveArgPath pid c a n device) := by
  refine (quiet_readContextPath c a n _).bind fun input => ?_
  rcases input with - | input
  · exact Prog.Keeps.pure none
  · refine Prog.Keeps.get.bind fun f => ?_
    dsimp only
    split
    · exact Prog.Keeps.pure _
    · exact Prog.Keeps.pure none

/-- Changing the CWD table is quiet. -/
theorem quiet_setTable (table : Firmware σ → CwdTable) :
    Prog.Keeps Quiet (modify fun f => { f with gRPFSProcessCwd := table f } : Prog (Firmware σ) Unit) :=
  Prog.Keeps.modify fun _ => ⟨⟨0, rfl⟩, rfl, Undisturbed.refl⟩

/-- The transfers of a LOAD and of a SAVE stay inside their access. -/
theorem inside_bulkLoop (ff : FatFs σ) (operation handle : UInt8) (mem_ptr : UInt16)
    (transfer_size total : Nat) :
    Prog.Keeps (Inside fun _ => True) (bulkLoop ff operation handle mem_ptr transfer_size total) := by
  fun_induction bulkLoop ff operation handle mem_ptr transfer_size total with
  | case1 total hlt chunk address hload ih =>
    refine (inside_onStorage _).bind fun count => ?_
    rcases count with - | - | ⟨b, bytes⟩
    · exact Prog.Keeps.pure _
    · exact Prog.Keeps.pure _
    · refine (inside_writeBlock fun _ _ => trivial).bind fun _ => ?_
      exact ih bytes
  | case2 total hlt chunk address hsave ih =>
    refine (inside_readBlock _ _).bind fun buffer => ?_
    refine (inside_onStorage _).bind fun count => ?_
    rcases count with - | count
    · exact Prog.Keeps.pure _
    · refine Prog.Keeps.ite (fun _ => Prog.Keeps.pure _) fun _ => ?_
      exact ih count
  | case3 total hge => exact Prog.Keeps.pure _

/-! ## The result -/

/-- `RP_DONE` comes with no error, `RP_ERROR` with one. -/
def Outcome (status err : UInt8) : Prop :=
  status = RP_DONE ∧ err = RP_ERR_OK ∨ status = RP_ERROR ∧ err ≠ RP_ERR_OK

/-- One result has been published, after the last context access was closed. -/
structure Completed (f f' : Firmware σ) : Prop where
  result : ∃ n status err, Outcome status err ∧
    f'.events = .result status err :: (closedAccesses n ++ f.events) ∧
    (f.hw.Settled → Undisturbed f.hw f'.hw ∧ f'.hw.view.peek RP_STATUS = status ∧
      f'.hw.view.peek RP_ERR = err ∧ f'.hw.view.peek RP_DOORBELL = RP_DOORBELL_NONE)
  pending : f'.gFsCompletionPending = f.gFsCompletionPending

/-- The program completes a request: it returns `mbDONE` and has published one result. -/
def Completes (m : Prog (Firmware σ) MailboxState) : Prop :=
  ∀ f, m.result f = .mbDONE ∧ Completed f (m.final f)

/-- What was quiet in front of a completed request belongs to it. -/
theorem Completed.of_quiet {f f' f'' : Firmware σ} (h : Quiet f f') (h' : Completed f' f'') :
    Completed f f'' := by
  obtain ⟨k, hk⟩ := h.events
  obtain ⟨n, status, err, houtcome, hevents, hboard⟩ := h'.result
  refine ⟨⟨n + k, status, err, houtcome, ?_, fun hf => ?_⟩, h'.pending.trans h.pending⟩
  · rw [hevents, hk, closedAccesses_add, List.append_assoc]
  · have hquiet := h.board hf
    obtain ⟨hundisturbed, hblock⟩ := hboard hquiet.settled
    exact ⟨hquiet.trans hundisturbed, hblock⟩

theorem Completes.bind {m : Prog (Firmware σ) α} {k : α → Prog (Firmware σ) MailboxState}
    (hm : Prog.Keeps Quiet m) (hk : ∀ a, Completes (k a)) : Completes (m >>= k) := by
  intro f
  obtain ⟨hres, hfin⟩ := hk (m.result f) (m.final f)
  exact ⟨hres, hfin.of_quiet (hm f)⟩

theorem Completes.ite {c : Prop} [Decidable c] {m n : Prog (Firmware σ) MailboxState}
    (hm : Completes m) (hn : Completes n) : Completes (if c then m else n) := by
  split
  · exact hm
  · exact hn

/-- Publishing any result that has an outcome completes a request. -/
theorem completes_publish {status err : UInt8} (h : Outcome status err) (res0 res1 : UInt16)
    (flags : UInt8) : Completes (do
      (do emit (σ := σ) (.result status err); onHw (rpMailboxPublish res0 res1 err flags status))
      return .mbDONE) := by
  intro f
  have hboard := fun hf : f.hw.Settled => rpMailboxPublish_spec hf res0 res1 err flags status
  simp only [Prog.result_bind, Prog.final_bind, emit, Prog.final_modify, onHw, Prog.final_on,
    Prog.result_pure, Prog.final_pure]
  generalize (rpMailboxPublish res0 res1 err flags status).final f.hw = m' at hboard ⊢
  exact ⟨trivial, ⟨0, status, err, h, rfl, hboard⟩, rfl⟩

theorem completes_done (result : UInt16) (flags : UInt8) :
    Completes (fsMbDone (σ := σ) result flags) := by
  unfold fsMbDone rpMailboxSetDone
  exact completes_publish (.inl ⟨rfl, rfl⟩) result 0 flags

theorem completes_done32 (result : UInt32) : Completes (fsMbDone32 (σ := σ) result) := by
  unfold fsMbDone32 rpMailboxSetDone32
  exact completes_publish (.inl ⟨rfl, rfl⟩) _ _ 0

theorem completes_error {err : UInt8} (h : err ≠ RP_ERR_OK) (partialResult : UInt16) :
    Completes (fsMbError (σ := σ) err partialResult) := by
  unfold fsMbError rpMailboxSetError
  exact completes_publish (.inr ⟨rfl, h⟩) partialResult 0 0

theorem completes_einval : Completes (fsMbError (σ := σ) RP_ERR_EINVAL 0) :=
  completes_error (by decide) 0

theorem completes_eio (partialResult : UInt16) :
    Completes (fsMbError (σ := σ) RP_ERR_EIO partialResult) :=
  completes_error (by decide) partialResult

theorem completes_deviceError (device : UInt8) : Completes (fsMbDeviceError (σ := σ) device) := by
  refine Completes.bind Prog.Keeps.get fun f => ?_
  exact Completes.ite (completes_error (by decide) 0) (completes_eio 0)

/-! ## The parts the operations share -/

section Operations

variable {context : UInt8} {operation : List UInt8 → Prog (Firmware σ) MailboxState}

theorem completes_withArgs {args_ptr length : UInt16} {valid : List UInt8 → Bool}
    (h : ∀ raw, Completes (operation raw)) :
    Completes (withArgs context args_ptr length valid operation) := by
  refine Completes.bind (quiet_readContextBlock _ _ _) fun raw => ?_
  rcases raw with - | raw
  · exact completes_einval
  · exact Completes.ite (h raw) completes_einval

theorem completes_withPath {pid : UInt8} {path_ptr max_len : UInt16} {device : UInt8}
    {operation : RPFSResolvedPath → Prog (Firmware σ) MailboxState}
    (h : ∀ path, Completes (operation path)) :
    Completes (withPath pid context path_ptr max_len device operation) := by
  refine Completes.bind (quiet_resolveArgPath _ _ _ _ _) fun path => ?_
  rcases path with - | path
  · exact completes_einval
  · exact h path

theorem completes_withOpen {isOpen : Firmware σ → Bool} {operation : Prog (Firmware σ) MailboxState}
    (h : Completes operation) : Completes (withOpen isOpen operation) := by
  refine Completes.bind Prog.Keeps.get fun f => ?_
  exact Completes.ite h completes_einval

theorem completes_withResult {address : UInt16} {src : List UInt8}
    {done : Prog (Firmware σ) MailboxState} (h : Completes done) :
    Completes (withResult context address src done) := by
  refine Completes.bind (quiet_writeContextBlock _ _ _) fun written => ?_
  exact Completes.ite h completes_einval

/-- A storage call in front of a completion. -/
theorem completes_onStorage {p : Prog (Storage σ) α} {k : α → Prog (Firmware σ) MailboxState}
    (h : ∀ a, Completes (k a)) : Completes (onStorage p >>= k) :=
  Completes.bind (quiet_onStorage p) h

/-! ## The operations -/

variable (ff : FatFs σ) (pid : UInt8) (args_ptr : UInt16) (handle : UInt8)

theorem completes_open : Completes (rpFsMbExecOpen ff pid context args_ptr) := by
  refine completes_withArgs fun raw => completes_withPath fun path => ?_
  refine Completes.bind Prog.Keeps.get fun f => ?_
  refine Completes.ite (completes_error (by decide) 0) (completes_onStorage fun handle => ?_)
  rcases handle with - | handle
  · exact completes_deviceError _
  · exact completes_done _ _

theorem completes_singlePath (op : UInt8) :
    Completes (rpFsMbExecSinglePath ff op pid context args_ptr) := by
  refine completes_withArgs fun raw => completes_withPath fun path => ?_
  refine completes_onStorage fun ok => ?_
  exact Completes.ite (completes_done _ _) (completes_deviceError _)

theorem completes_rename : Completes (rpFsMbExecRename ff pid context args_ptr) := by
  refine completes_withArgs fun raw => completes_withPath fun old_path => ?_
  refine completes_withPath fun new_path => Completes.ite completes_einval ?_
  refine completes_onStorage fun ok => ?_
  exact Completes.ite (completes_done _ _) (completes_deviceError _)

theorem completes_opendir : Completes (rpFsMbExecOpendir ff pid context args_ptr) := by
  refine completes_withArgs fun raw => completes_withPath fun path => ?_
  refine completes_onStorage fun handle => ?_
  rcases handle with - | handle
  · exact completes_deviceError _
  · exact completes_done _ _

theorem completes_chdir : Completes (rpFsMbExecChdir ff pid context args_ptr) := by
  refine completes_withArgs fun raw => completes_withPath fun path => ?_
  refine completes_onStorage fun handle => ?_
  rcases handle with - | handle
  · exact completes_deviceError _
  · refine completes_onStorage fun close_ok => Completes.ite (completes_eio 0) ?_
    have hset : Prog.Keeps (Quiet (σ := σ)) (setCwd pid path) :=
      Prog.Keeps.get.bind fun _ => (quiet_setTable _).bind fun _ => Prog.Keeps.pure _
    refine Completes.bind hset fun ok => ?_
    exact Completes.ite (completes_done _ _) (completes_eio 0)

theorem completes_getcwd : Completes (rpFsMbExecGetcwd (σ := σ) pid context args_ptr) := by
  refine completes_withArgs fun raw => Completes.bind Prog.Keeps.get fun f => ?_
  dsimp only
  split
  · exact completes_einval
  · refine Completes.ite completes_einval ?_
    exact completes_withResult (completes_withResult (completes_done _ _))

theorem completes_bulkTransfer (op device : UInt8) (mem_ptr : UInt16) (transfer_size : Nat) :
    Completes (bulkTransfer ff op context device handle mem_ptr transfer_size) := by
  have hclose : Completes (do
      discard <| onStorage (rpFsClose ff handle)
      fsMbError (σ := σ) RP_ERR_EINVAL 0) :=
    Completes.bind (quiet_onStorage _).discard fun _ => completes_einval
  refine Completes.ite hclose ?_
  refine Completes.bind (quiet_withContext (inside_bulkLoop ff _ _ _ _ _)) fun transferred => ?_
  rcases transferred with - | ⟨total, failed⟩
  · exact hclose
  · refine completes_onStorage fun close_ok => ?_
    refine Completes.ite ?_ ?_
    · exact completes_eio (UInt16.ofNat total)
    · exact completes_done (UInt16.ofNat total) device

theorem completes_bulk (op : UInt8) : Completes (rpFsMbExecBulk ff op pid context args_ptr) := by
  refine completes_withArgs fun raw => completes_withPath fun path => ?_
  refine completes_onStorage fun r => ?_
  obtain ⟨handle, transfer_size⟩ := r
  rcases handle with - | handle
  · exact completes_deviceError _
  · exact completes_bulkTransfer ff handle op path.device _ transfer_size

theorem completes_read : Completes (rpFsMbExecRead ff context args_ptr handle) := by
  refine completes_withArgs fun raw => completes_withOpen ?_
  refine Completes.ite completes_einval (Completes.ite ?_ (Completes.ite completes_einval ?_))
  · exact completes_onStorage fun eof => completes_done _ _
  · refine completes_onStorage fun bytes => ?_
    rcases bytes with - | - | ⟨b, bytes⟩
    · exact completes_eio 0
    · exact completes_onStorage fun eof => completes_done _ _
    · exact completes_withResult (completes_onStorage fun eof => completes_done _ _)

theorem completes_write : Completes (rpFsMbExecWrite ff context args_ptr handle) := by
  refine completes_withArgs fun raw => completes_withOpen ?_
  refine Completes.ite completes_einval (Completes.ite (completes_done _ _) ?_)
  refine Completes.bind (quiet_readContextBlock _ _ _) fun buffer => ?_
  rcases buffer with - | buffer
  · exact completes_einval
  · refine completes_onStorage fun count => ?_
    rcases count with - | count
    · exact completes_eio 0
    · exact completes_done _ _

theorem completes_seek : Completes (rpFsMbExecSeek ff context args_ptr handle) := by
  refine completes_withArgs fun raw => completes_withOpen ?_
  refine completes_onStorage fun base => ?_
  rcases base with - | base
  · exact completes_einval
  · refine Completes.ite completes_einval (completes_onStorage fun sought => ?_)
    refine Completes.ite (completes_onStorage fun position => ?_) (completes_eio 0)
    exact completes_withResult (completes_done32 position)

theorem completes_tell : Completes (rpFsMbExecTell ff context args_ptr handle) := by
  refine completes_withArgs fun raw => completes_withOpen ?_
  refine completes_onStorage fun position => ?_
  exact completes_withResult (completes_done32 position)

theorem completes_readdir : Completes (rpFsMbExecReaddir ff context args_ptr handle) := by
  refine completes_withArgs fun raw => completes_withOpen ?_
  refine Completes.ite completes_einval (completes_onStorage fun entry => ?_)
  rcases entry with ⟨name, attr, size⟩ | - | -
  · exact completes_withResult (completes_done _ _)
  · exact completes_done _ _
  · exact completes_eio 0

theorem completes_status : Completes (rpFsMbExecStatus (σ := σ)) := by
  refine Completes.bind Prog.Keeps.get fun f => ?_
  exact completes_done _ _

theorem completes_close : Completes (rpFsMbExecClose ff handle) := by
  refine completes_withOpen (completes_onStorage fun ok => ?_)
  exact Completes.ite (completes_done _ _) (completes_eio 0)

theorem completes_closedir : Completes (rpFsMbExecClosedir ff handle) := by
  refine completes_withOpen (completes_onStorage fun ok => ?_)
  exact Completes.ite (completes_done _ _) (completes_eio 0)

theorem completes_cwd (change : CwdTable → Bool × CwdTable) :
    Completes (execCwd (σ := σ) change) := by
  refine Completes.bind Prog.Keeps.get fun f => ?_
  refine Completes.bind (quiet_setTable _) fun _ => ?_
  exact Completes.ite (completes_done _ _) completes_einval

/-- An operation on the argument block `ARG0`. -/
theorem completes_arg0 {k : UInt16 → Prog (Firmware σ) MailboxState} (h : ∀ a, Completes (k a)) :
    Completes (readArg0 >>= k) :=
  Completes.bind (quiet_rpRead16 _) h

/-- An operation on the handle in `ARG2L`. -/
theorem completes_arg2L {k : UInt8 → Prog (Firmware σ) MailboxState} (h : ∀ a, Completes (k a)) :
    Completes (readArg2L >>= k) :=
  Completes.bind (quiet_snoopRead _) h

theorem completes_arg2H {k : UInt8 → Prog (Firmware σ) MailboxState} (h : ∀ a, Completes (k a)) :
    Completes (readArg2H >>= k) :=
  Completes.bind (quiet_snoopRead _) h

/-- Every operation, and every number that names none, completes the request. -/
theorem completes_execOperation (op : UInt8) : Completes (execOperation ff op pid context) := by
  refine Completes.ite completes_status <|
    Completes.ite (completes_arg0 fun _ => completes_open ff pid _) <|
    Completes.ite (completes_arg0 fun _ => completes_arg2L fun _ => completes_read ff _ _) <|
    Completes.ite (completes_arg0 fun _ => completes_arg2L fun _ => completes_write ff _ _) <|
    Completes.ite (completes_arg2L fun _ => completes_close ff _) <|
    Completes.ite (completes_arg0 fun _ => completes_bulk ff pid _ op) <|
    Completes.ite (completes_arg0 fun _ => completes_singlePath ff pid _ op) <|
    Completes.ite (completes_arg0 fun _ => completes_rename ff pid _) <|
    Completes.ite (completes_arg0 fun _ => completes_opendir ff pid _) <|
    Completes.ite (completes_arg0 fun _ => completes_arg2L fun _ => completes_seek ff _ _) <|
    Completes.ite (completes_arg0 fun _ => completes_arg2L fun _ => completes_tell ff _ _) <|
    Completes.ite (completes_arg0 fun _ => completes_arg2L fun _ => completes_readdir ff _ _) <|
    Completes.ite (completes_arg2L fun _ => completes_closedir ff _) <|
    Completes.ite (completes_arg0 fun _ => completes_chdir ff pid _) <|
    Completes.ite (completes_arg0 fun _ => completes_getcwd pid _) ?_
  refine Completes.ite ?_ (Completes.ite ?_ completes_einval)
  · exact completes_arg2L fun target_pid => completes_arg2H fun device => completes_cwd _
  · exact completes_arg2L fun child_pid => completes_arg2H fun parent_pid => completes_cwd _

theorem completes_checkedOperation (op : UInt8) :
    Completes (checkedOperation ff op pid context) :=
  Completes.ite completes_einval (completes_execOperation ff pid op)

end Operations

/-! ## The request -/

/-- The completion interrupt of a process is requested after the result, that of PID 0 never. -/
def completionEvents (pid : UInt8) : List Event := if pid = 0 then [] else [.completionIRQ]

/-- A read in front of a program hands it a byte, on a settled board the one the memory shows. -/
theorem bind_snoopRead (f : Firmware σ) (a : UInt16) : ∃ (m₀ : Machine) (b : UInt8),
    (f.hw.Settled → m₀.Settled ∧ m₀.view = f.hw.view ∧ b = f.hw.view.peek a) ∧
      ∀ k : UInt8 → Prog (Firmware σ) MailboxState,
        (onHw (snoopRead6502MemoryLoc a) >>= k).result f = (k b).result { f with hw := m₀ } ∧
          (onHw (snoopRead6502MemoryLoc a) >>= k).final f = (k b).final { f with hw := m₀ } := by
  refine ⟨(snoopRead6502MemoryLoc a).final f.hw, (snoopRead6502MemoryLoc a).result f.hw,
    fun hf => ?_, fun k => ⟨rfl, rfl⟩⟩
  obtain ⟨hres, hview, hsettled⟩ := snoopRead6502MemoryLoc_spec hf a
  exact ⟨hsettled, hview, hres⟩

/-- A program and the completion interrupt behind it. -/
theorem final_request (m : Prog (Firmware σ) MailboxState) (pid : UInt8) (f : Firmware σ) :
    let request := do
      let next_state ← m
      if pid ≠ 0 then requestFSCompletionIRQ
      return next_state
    request.result f = m.result f ∧ request.final f = { m.final f with
      events := completionEvents pid ++ (m.final f).events
      gFsCompletionPending := (m.final f).gFsCompletionPending || pid != 0 } := by
  by_cases hpid : pid = 0
  · simp [hpid, completionEvents]
  · simp [hpid, completionEvents, requestFSCompletionIRQ, emit]

/-- A request is its operation, on a settled board with the block as the memory shows it, and the
interrupt. -/
theorem final_rpFsMailboxHandleExec (ff : FatFs σ) (f : Firmware σ) :
    ∃ (m₀ : Machine) (op pid context : UInt8),
      let operation := checkedOperation ff op pid context
      (f.hw.Settled → m₀.Settled ∧ m₀.view = f.hw.view ∧ op = f.hw.view.peek RP_STATE ∧
        pid = f.hw.view.peek RP_ARG1L ∧ context = f.hw.view.peek RP_ARG1H) ∧
      (rpFsMailboxHandleExec ff).result f = operation.result { f with hw := m₀ } ∧
      (rpFsMailboxHandleExec ff).final f = { operation.final { f with hw := m₀ } with
        events := completionEvents pid ++ (operation.final { f with hw := m₀ }).events
        gFsCompletionPending :=
          (operation.final { f with hw := m₀ }).gFsCompletionPending || pid != 0 } := by
  obtain ⟨m₁, op, h₁, hread₁⟩ := bind_snoopRead f RP_STATE
  obtain ⟨m₂, pid, h₂, hread₂⟩ := bind_snoopRead { f with hw := m₁ } RP_ARG1L
  obtain ⟨m₃, context, h₃, hread₃⟩ := bind_snoopRead { f with hw := m₂ } RP_ARG1H
  refine ⟨m₃, op, pid, context, fun hf => ?_, ?_⟩
  · obtain ⟨hs₁, hview₁, hop⟩ := h₁ hf
    obtain ⟨hs₂, hview₂, hpid⟩ := h₂ hs₁
    obtain ⟨hs₃, hview₃, hcontext⟩ := h₃ hs₂
    refine ⟨hs₃, (hview₃.trans hview₂).trans hview₁, hop, ?_, ?_⟩
    · rw [hpid, hview₁]
    · rw [hcontext, hview₂, hview₁]
  · unfold rpFsMailboxHandleExec
    rw [(hread₁ _).1, (hread₁ _).2, (hread₂ _).1, (hread₂ _).2, (hread₃ _).1, (hread₃ _).2]
    exact final_request _ _ _

/-- A request is completed exactly once whatever the block, the memory, the tables and FatFs hold:
after its context accesses are closed one result is published, and then the interrupt requested. -/
theorem rpFsMailboxHandleExec_completes_once (ff : FatFs σ) (f : Firmware σ) (hf : f.hw.Settled) :
    let f' := (rpFsMailboxHandleExec ff).final f
    let pid := f.hw.view.peek RP_ARG1L
    (rpFsMailboxHandleExec ff).result f = .mbDONE ∧
      ∃ n status err, Outcome status err ∧
        f'.events =
          completionEvents pid ++ .result status err :: (closedAccesses n ++ f.events) ∧
        f'.gFsCompletionPending = (f.gFsCompletionPending || pid != 0) ∧
        f'.hw.view.peek RP_STATUS = status ∧ f'.hw.view.peek RP_ERR = err ∧
        f'.hw.view.peek RP_DOORBELL = RP_DOORBELL_NONE := by
  obtain ⟨m₀, op, pid, context, hblock, hres, hfin⟩ := final_rpFsMailboxHandleExec ff f
  obtain ⟨hm₀, -, -, hpid, -⟩ := hblock hf
  rw [← hpid]
  obtain ⟨hdone, ⟨n, status, err, houtcome, hevents, hboard⟩, hpending⟩ :=
    (completes_checkedOperation ff pid op : Completes (checkedOperation ff op pid context))
      { f with hw := m₀ }
  obtain ⟨-, hstatus, herr, hdoorbell⟩ := hboard hm₀
  refine ⟨hres.trans hdone, n, status, err, houtcome, ?_⟩
  rw [hfin]
  exact ⟨by rw [hevents], by rw [hpending], hstatus, herr, hdoorbell⟩

/-- A firmware whose block asks for the status on behalf of PID 1. -/
def statusFirmware : Firmware RamDisk :=
  .start
    (.running fun cell => (List.lookup cell [((0x0B, 0x005), RP_FS_OP_STATUS), ((0x0B, 0x008), 1)]).getD 0)
    (RamDisk.mounted fun _ => none)

theorem statusFirmware_completes_once :
    let f' := (rpFsMailboxHandleExec RamDisk.fatFs).final statusFirmware
    let pid := statusFirmware.hw.view.peek RP_ARG1L
    (rpFsMailboxHandleExec RamDisk.fatFs).result statusFirmware = .mbDONE ∧
      ∃ n status err, Outcome status err ∧
        f'.events =
          completionEvents pid ++ .result status err :: (closedAccesses n ++ statusFirmware.events) ∧
        f'.gFsCompletionPending = (statusFirmware.gFsCompletionPending || pid != 0) ∧
        f'.hw.view.peek RP_STATUS = status ∧ f'.hw.view.peek RP_ERR = err ∧
        f'.hw.view.peek RP_DOORBELL = RP_DOORBELL_NONE :=
  rpFsMailboxHandleExec_completes_once RamDisk.fatFs statusFirmware (Machine.settled_running _)

end NeoMmu
