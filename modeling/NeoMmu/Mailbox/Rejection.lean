import NeoMmu.Mailbox.Bulk

/-!
# Rejected requests change nothing

Every operation but SAVE and LOAD answers `RP_ERR_EINVAL` only in front of its effects: a request is
`Harmless` up to its last check and `Accepts` behind it. The second check of a result on its way to the
caller is one that cannot fail, since the range of the arguments or of the buffer covers it.
-/

namespace NeoMmu

variable {σ α : Type}

/-! ## Ranges -/

theorem rpFsMbPrivateRange_iff {a n : UInt16} : rpFsMbPrivateRange a n = true ↔
    a ≠ 0 ∧ n ≠ 0 ∧ a.toNat + n.toNat ≤ RP_FS_PRIVATE_LIMIT := by
  have hlen : n ≠ 0 → 0 < n.toNat := by
    intro hn
    rw [Nat.pos_iff_ne_zero]
    exact fun h => hn (UInt16.toNat_inj.1 h)
  unfold rpFsMbPrivateRange
  split
  · rename_i hguard
    constructor
    · nofun
    · rintro ⟨ha, hn, hsum⟩
      have := hlen hn
      rcases hguard with h | h | h
      · exact absurd h ha
      · exact absurd h hn
      · omega
  · rename_i hguard
    simp only [not_or] at hguard
    rw [decide_eq_true_iff]
    exact ⟨fun h => ⟨hguard.1, hguard.2.1, h⟩, fun h => h.2.2⟩

/-- A part of a private range is private. -/
theorem rpFsMbPrivateRange_part {a n k m : UInt16} (h : rpFsMbPrivateRange a n = true) (hm : m ≠ 0)
    (hpart : k.toNat + m.toNat ≤ n.toNat) : rpFsMbPrivateRange (a + k) m = true := by
  obtain ⟨ha, -, hsum⟩ := rpFsMbPrivateRange_iff.1 h
  rw [RP_FS_PRIVATE_LIMIT] at hsum
  have hpos : 0 < a.toNat := by
    rw [Nat.pos_iff_ne_zero]
    exact fun h => ha (UInt16.toNat_inj.1 h)
  have hadd : (a + k).toNat = a.toNat + k.toNat := by
    rw [UInt16.toNat_add]
    exact Nat.mod_eq_of_lt (by omega)
  refine rpFsMbPrivateRange_iff.2 ⟨fun hzero => ?_, hm, ?_⟩
  · rw [hzero] at hadd
    have hzero' : (0 : UInt16).toNat = 0 := rfl
    omega
  · rw [hadd, RP_FS_PRIVATE_LIMIT]
    omega

/-! ## Nothing happened -/

/-- What a reply is written to. -/
def replyAddresses : List UInt16 :=
  [RP_RES0L, RP_RES0L + 1, RP_RES1L, RP_RES1L + 1, RP_ERR, RP_FLAGS, RP_STATUS, RP_DOORBELL]

/-- The file system, the handle tables with the position of every file and directory, the working
directories, the MMU's mapping and, but for the reply, the memory are those before. -/
structure Untouched (f f' : Firmware σ) : Prop where
  storage : f'.storage = f.storage
  cwd : f'.gRPFSProcessCwd = f.gRPFSProcessCwd
  mmuRam : f'.hw.mmuRam = f.hw.mmuRam
  ram : ∀ cell, (∀ a ∈ replyAddresses, f'.hw.view.physAddr a ≠ cell) → f'.hw.ram cell = f.hw.ram cell

/-- What was only read in front belongs to it. -/
theorem Untouched.of_readsOnly {f f' f'' : Firmware σ} (hf : f.hw.Settled) (h : ReadsOnly f f')
    (h' : Untouched f' f'') : Untouched f f'' := by
  obtain ⟨-, hram, hmmu⟩ := h.board hf
  refine ⟨h'.storage.trans h.storage, h'.cwd.trans h.cwd, h'.mmuRam.trans hmmu, fun cell hcell => ?_⟩
  rw [h'.ram cell hcell, hram]

theorem stores_reply (res0 res1 : UInt16) (err flags status : UInt8) :
    ∃ ws, Stores (rpMailboxPublish res0 res1 err flags status) ws ∧ ∀ w ∈ ws, w.1 ∈ replyAddresses := by
  have hfields : Stores _ _ :=
    (stores_snoopWrite RP_ERR err).bind <| (stores_snoopWrite RP_FLAGS flags).bind <|
      (stores_snoopWrite RP_STATUS status).bind (stores_snoopWrite RP_DOORBELL RP_DOORBELL_NONE)
  refine ⟨_, (stores_rpWrite16 RP_RES0L res0).bind ((stores_rpWrite16 RP_RES1L res1).bind hfields), ?_⟩
  simp [replyAddresses]

/-- A reply changes nothing but the block. -/
theorem untouched_reply {f : Firmware σ} (hf : f.hw.Settled) (res0 res1 : UInt16) (err flags status : UInt8) :
    Untouched f ((do emit (.result status err); onHw (rpMailboxPublish res0 res1 err flags status) :
      Prog (Firmware σ) Unit).final f) := by
  obtain ⟨ws, hstores, hws⟩ := stores_reply res0 res1 err flags status
  obtain ⟨hview, -⟩ := hstores f.hw hf
  simp only [Prog.final_bind, emit, Prog.final_modify, onHw, Prog.final_on]
  generalize (rpMailboxPublish res0 res1 err flags status).final f.hw = m at hview ⊢
  have hparts := hview.trans (Machine.View.writes_eq_self f.hw.view ws)
  refine ⟨rfl, rfl, congrArg Machine.View.mmuRam hparts, fun cell hcell => ?_⟩
  have hphys : ∀ a, m.view.physAddr a = f.hw.view.physAddr a := by
    intro a
    rw [hparts]
    rfl
  show m.view.ram cell = f.hw.view.ram cell
  rw [hview]
  exact f.hw.view.ram_writes_of_ne fun w hw => by
    rw [← hphys]
    exact hcell w.1 (hws w hw)

theorem untouched_fsMbError {f : Firmware σ} (hf : f.hw.Settled) (err : UInt8) (partialResult : UInt16) :
    Untouched f ((fsMbError err partialResult).final f) := by
  have hreply := untouched_reply hf partialResult 0 err 0 RP_ERROR
  simp only [fsMbError, rpMailboxSetError, Prog.final_bind, Prog.final_pure] at hreply ⊢
  exact hreply

theorem untouched_fsMbDone {f : Firmware σ} (hf : f.hw.Settled) (result : UInt16) (flags : UInt8) :
    Untouched f ((fsMbDone result flags).final f) := by
  have hreply := untouched_reply hf result 0 RP_ERR_OK flags RP_DONE
  simp only [fsMbDone, rpMailboxSetDone, Prog.final_bind, Prog.final_pure] at hreply ⊢
  exact hreply

/-! ## In front of the last check and behind it -/

/-- The program rejects only what it has not begun. -/
def Harmless (m : Prog (Firmware σ) MailboxState) : Prop :=
  ∀ f, f.hw.Settled → Rejected (m.final f) → Untouched f (m.final f)

/-- The program rejects nothing. -/
def Accepts (m : Prog (Firmware σ) MailboxState) : Prop := ∀ f, ¬ Rejected (m.final f)

theorem Accepts.harmless {m : Prog (Firmware σ) MailboxState} (h : Accepts m) : Harmless m :=
  fun f _ hrejected => absurd hrejected (h f)

theorem Accepts.bind {m : Prog (Firmware σ) α} {k : α → Prog (Firmware σ) MailboxState}
    (h : ∀ f, Accepts (k (m.result f))) : Accepts (m >>= k) :=
  fun f => h f (m.final f)

theorem Accepts.ite {c : Prop} [Decidable c] {m n : Prog (Firmware σ) MailboxState} (hm : c → Accepts m)
    (hn : ¬ c → Accepts n) : Accepts (if c then m else n) := by
  split
  · exact hm ‹_›
  · exact hn ‹_›

theorem accepts_done (result : UInt16) (flags : UInt8) : Accepts (fsMbDone (σ := σ) result flags) :=
  fun f => (replied_done result flags f).not_rejected (by decide)

theorem accepts_done32 (result : UInt32) : Accepts (fsMbDone32 (σ := σ) result) := by
  intro f h
  simp only [Rejected, fsMbDone32, rpMailboxSetDone32, Prog.final_bind, Prog.final_pure, emit,
    Prog.final_modify, onHw, Prog.final_on, List.head?_cons, Option.some.injEq, Event.result.injEq] at h
  exact absurd h.1 (by decide)

theorem accepts_error {err : UInt8} (h : err ≠ RP_ERR_EINVAL) (partialResult : UInt16) :
    Accepts (fsMbError (σ := σ) err partialResult) :=
  fun f => (replied_error err partialResult f).not_rejected h

theorem accepts_deviceError (device : UInt8) : Accepts (fsMbDeviceError (σ := σ) device) :=
  fun f => deviceError_not_rejected device f

/-- A result that goes to a private range of the caller gets there. -/
theorem accepts_withResult {context : UInt8} (hc : context < maxContexts) {address : UInt16}
    {src : List UInt8} {done : Prog (Firmware σ) MailboxState}
    (hrange : rpFsMbPrivateRange address (UInt16.ofNat src.length) = true) (h : Accepts done) :
    Accepts (withResult context address src done) := by
  refine Accepts.bind fun f => Accepts.ite (fun _ => h) fun hrefused => absurd ?_ hrefused
  obtain ⟨r, hr⟩ := withContext_granted hc (onHw (writeBlock address src)) f
  have hpass : ¬ rpFsMbPrivateRange address (UInt16.ofNat src.length) = false := by
    rw [hrange]
    nofun
  simp only [rpFsMbWriteContextBlock, if_neg hpass, Prog.result_bind, hr, Prog.result_pure,
    Option.isSome_some]

theorem harmless_einval : Harmless (fsMbError (σ := σ) RP_ERR_EINVAL 0) :=
  fun _ hf _ => untouched_fsMbError hf RP_ERR_EINVAL 0

theorem Harmless.bind {m : Prog (Firmware σ) α} {k : α → Prog (Firmware σ) MailboxState}
    (hm : Prog.Keeps ReadsOnly m) (hk : ∀ f, Harmless (k (m.result f))) : Harmless (m >>= k) := by
  intro f hf hrejected
  have hread := hm f
  exact (hk f _ (hread.board hf).1 hrejected).of_readsOnly hf hread

theorem Harmless.ite {c : Prop} [Decidable c] {m n : Prog (Firmware σ) MailboxState}
    (hm : c → Harmless m) (hn : ¬ c → Harmless n) : Harmless (if c then m else n) := by
  split
  · exact hm ‹_›
  · exact hn ‹_›

/-- A result whose range is refused has not been written. -/
theorem harmless_withResult {context : UInt8} (hc : context < maxContexts) {address : UInt16}
    {src : List UInt8} {done : Prog (Firmware σ) MailboxState} (h : Accepts done) :
    Harmless (withResult context address src done) := by
  by_cases hrange : rpFsMbPrivateRange address (UInt16.ofNat src.length) = true
  · exact (accepts_withResult hc hrange h).harmless
  · rw [Bool.not_eq_true] at hrange
    have hrefused : withResult context address src done = fsMbError RP_ERR_EINVAL 0 := by
      rw [withResult, rpFsMbWriteContextBlock, if_pos hrange, pure_bind, if_neg Bool.false_ne_true]
    rw [hrefused]
    exact harmless_einval

theorem readsOnly_snoopRead (a : UInt16) :
    Prog.Keeps (ReadsOnly (σ := σ)) (onHw (snoopRead6502MemoryLoc a)) := by
  refine fun f => ⟨rfl, rfl, fun hf => ?_⟩
  obtain ⟨-, hview, hsettled⟩ := snoopRead6502MemoryLoc_spec hf a
  exact ⟨hsettled, congrArg Machine.View.ram hview, congrArg Machine.View.mmuRam hview⟩

/-! ## The operations -/

section Operations

variable {context : UInt8} (hc : context < maxContexts)

/-- An operation on an argument block may count on the range of the block. -/
theorem harmless_withArgs {args_ptr length : UInt16} {valid : List UInt8 → Bool}
    {operation : List UInt8 → Prog (Firmware σ) MailboxState}
    (h : rpFsMbPrivateRange args_ptr length = true → ∀ raw, Harmless (operation raw)) :
    Harmless (withArgs context args_ptr length valid operation) := by
  refine Harmless.bind (readsOnly_readContextBlock _ _ _) fun f => ?_
  by_cases hrange : rpFsMbPrivateRange args_ptr length = true
  · rcases (rpFsMbReadContextBlock context args_ptr length).result f with - | raw
    · exact harmless_einval
    · exact Harmless.ite (fun _ => h hrange raw) fun _ => harmless_einval
  · rw [Bool.not_eq_true] at hrange
    rw [rpFsMbReadContextBlock, if_pos hrange]
    exact harmless_einval

theorem harmless_withPath {pid : UInt8} {path_ptr max_len : UInt16} {device : UInt8}
    {operation : RPFSResolvedPath → Prog (Firmware σ) MailboxState}
    (h : ∀ path, Harmless (operation path)) :
    Harmless (withPath pid context path_ptr max_len device operation) := by
  refine Harmless.bind (readsOnly_resolveArgPath _ _ _ _ _) fun f => ?_
  rcases (rpFsMbResolveArgPath pid context path_ptr max_len device).result f with - | path
  · exact harmless_einval
  · exact h path

theorem harmless_withOpen {isOpen : Firmware σ → Bool} {operation : Prog (Firmware σ) MailboxState}
    (h : Harmless operation) : Harmless (withOpen isOpen operation) :=
  Harmless.bind Prog.Keeps.get fun _ => Harmless.ite (fun _ => h) fun _ => harmless_einval

variable (ff : FatFs σ) (pid : UInt8) (args_ptr : UInt16) (handle : UInt8)

theorem harmless_open : Harmless (rpFsMbExecOpen ff pid context args_ptr) := by
  refine harmless_withArgs fun _ raw => harmless_withPath fun path => Accepts.harmless ?_
  refine Accepts.bind fun f => Accepts.ite (fun _ => accepts_error (by decide) 0) fun _ => ?_
  refine Accepts.bind fun f => ?_
  rcases (onStorage (openByMode ff (rawByte raw 4) path.device path.path)).result f with - | handle
  · exact accepts_deviceError _
  · exact accepts_done _ _

theorem harmless_singlePath (op : UInt8) :
    Harmless (rpFsMbExecSinglePath ff op pid context args_ptr) := by
  refine harmless_withArgs fun _ raw => harmless_withPath fun path => Accepts.harmless ?_
  refine Accepts.bind fun f => ?_
  exact Accepts.ite (fun _ => accepts_done _ _) fun _ => accepts_deviceError _

theorem harmless_rename : Harmless (rpFsMbExecRename ff pid context args_ptr) := by
  refine harmless_withArgs fun _ raw => harmless_withPath fun old_path => ?_
  refine harmless_withPath fun new_path => Harmless.ite (fun _ => harmless_einval) fun _ => ?_
  refine Accepts.harmless (Accepts.bind fun f => ?_)
  exact Accepts.ite (fun _ => accepts_done _ _) fun _ => accepts_deviceError _

theorem harmless_opendir : Harmless (rpFsMbExecOpendir ff pid context args_ptr) := by
  refine harmless_withArgs fun _ raw => harmless_withPath fun path => Accepts.harmless ?_
  refine Accepts.bind fun f => ?_
  rcases (onStorage (rpFsOpendir83 ff path.device path.path)).result f with - | handle
  · exact accepts_deviceError _
  · exact accepts_done _ _

theorem harmless_chdir : Harmless (rpFsMbExecChdir ff pid context args_ptr) := by
  refine harmless_withArgs fun _ raw => harmless_withPath fun path => Accepts.harmless ?_
  refine Accepts.bind fun f => ?_
  rcases (onStorage (rpFsOpendir83 ff path.device path.path)).result f with - | handle
  · exact accepts_deviceError _
  · refine Accepts.bind fun f => Accepts.ite (fun _ => accepts_error (by decide) 0) fun _ => ?_
    refine Accepts.bind fun f => ?_
    exact Accepts.ite (fun _ => accepts_done _ _) fun _ => accepts_error (by decide) 0

theorem harmless_close : Harmless (rpFsMbExecClose ff handle) := by
  refine harmless_withOpen (Accepts.harmless (Accepts.bind fun f => ?_))
  exact Accepts.ite (fun _ => accepts_done _ _) fun _ => accepts_error (by decide) 0

theorem harmless_closedir : Harmless (rpFsMbExecClosedir ff handle) := by
  refine harmless_withOpen (Accepts.harmless (Accepts.bind fun f => ?_))
  exact Accepts.ite (fun _ => accepts_done _ _) fun _ => accepts_error (by decide) 0

theorem harmless_status : Harmless (rpFsMbExecStatus (σ := σ)) :=
  Accepts.harmless (Accepts.bind fun _ => accepts_done _ _)

theorem harmless_write : Harmless (rpFsMbExecWrite ff context args_ptr handle) := by
  refine harmless_withArgs fun _ raw => harmless_withOpen ?_
  refine Harmless.ite (fun _ => harmless_einval) fun _ => ?_
  refine Harmless.ite (fun _ => (accepts_done _ _).harmless) fun _ => ?_
  refine Harmless.bind (readsOnly_readContextBlock _ _ _) fun f => ?_
  rcases (rpFsMbReadContextBlock context _ _).result f with - | buffer
  · exact harmless_einval
  · refine Accepts.harmless (Accepts.bind fun f => ?_)
    rcases (onStorage (rpFsWrite ff handle buffer)).result f with - | count
    · exact accepts_error (by decide) 0
    · exact accepts_done _ _

/-- A change of the table that is refused changes nothing. -/
theorem harmless_cwd {change : CwdTable → Bool × CwdTable}
    (h : ∀ table, (change table).1 = false → (change table).2 = table) :
    Harmless (execCwd (σ := σ) change) := by
  intro f hf hrejected
  rcases hok : (change f.gRPFSProcessCwd).1 with - | -
  · simp only [execCwd, Prog.final_bind, Prog.result_get, Prog.final_get, Prog.final_modify, hok,
      Bool.false_eq_true, if_false, h _ hok]
    exact untouched_fsMbError hf RP_ERR_EINVAL 0
  · simp only [execCwd, Prog.final_bind, Prog.result_get, Prog.final_get, Prog.final_modify, hok,
      if_true] at hrejected
    exact absurd hrejected (accepts_done _ _ _)

theorem readsOnly_seekBase (whence : UInt8) :
    Prog.Keeps (ReadsOnly (σ := σ)) (onStorage (seekBase ff handle whence)) := by
  have hsame : ∀ s, (seekBase ff handle whence).final s = s := by
    intro s
    unfold seekBase
    split
    · rfl
    split
    · rfl
    split
    · rfl
    · rfl
  intro f
  rw [onStorage, Prog.final_on, hsame]
  exact refl f

theorem length_direntBytes (name : List UInt8) (attr : UInt8) (size : UInt32) :
    (direntBytes name attr size).length = 18 := by
  have hname : (name.take 12).length ≤ 13 := (List.length_take_le 12 name).trans (by decide)
  simp only [direntBytes, littleEndian32, List.length_append, List.rightpad, List.length_replicate,
    List.length_cons, List.length_nil]
  omega

/-- The bytes FatFs reports are no more than were asked for. -/
def ReadsAtMost (ff : FatFs σ) : Prop :=
  ∀ slot len s, ((ff.f_read slot len).result s).2.length ≤ len.toNat

theorem length_rpFsRead (hread : ReadsAtMost ff) (len : UInt16) (s : Storage σ) {bytes : List UInt8}
    (h : (rpFsRead ff handle len).result s = some bytes) : bytes.length ≤ len.toNat := by
  simp only [rpFsRead, Prog.result_bind, Prog.result_get, Prog.final_get, Prog.result_ite,
    Prog.result_pure] at h
  split at h
  · cases h
  split at h
  · cases h
  split at h
  · cases h
    exact Nat.zero_le _
  split at h
  · cases h
  · cases h
    exact hread handle len s

include hc

/-- The length word lies in the argument block, so only the path can be refused, and it goes first. -/
theorem harmless_getcwd : Harmless (rpFsMbExecGetcwd (σ := σ) pid context args_ptr) := by
  refine harmless_withArgs fun hargs raw => Harmless.bind Prog.Keeps.get fun f => ?_
  dsimp only
  split
  · exact harmless_einval
  · refine Harmless.ite (fun _ => harmless_einval) fun _ => ?_
    refine harmless_withResult hc (accepts_withResult hc ?_ (accepts_done _ _))
    show rpFsMbPrivateRange (args_ptr + 4) 2 = true
    exact rpFsMbPrivateRange_part hargs (by decide) (by decide)

theorem harmless_tell : Harmless (rpFsMbExecTell ff context args_ptr handle) := by
  refine harmless_withArgs fun hargs raw => harmless_withOpen (Accepts.harmless ?_)
  refine Accepts.bind fun f => accepts_withResult hc ?_ (accepts_done32 _)
  show rpFsMbPrivateRange (args_ptr + 2) 4 = true
  exact rpFsMbPrivateRange_part hargs (by decide) (by decide)

/-- The position goes to the argument block. -/
theorem harmless_seek : Harmless (rpFsMbExecSeek ff context args_ptr handle) := by
  refine harmless_withArgs fun hargs raw => harmless_withOpen ?_
  refine Harmless.bind (readsOnly_seekBase ff handle _) fun f => ?_
  rcases (onStorage (seekBase ff handle (rawByte raw 1))).result f with - | base
  · exact harmless_einval
  · refine Harmless.ite (fun _ => harmless_einval) fun _ => Accepts.harmless ?_
    refine Accepts.bind fun f => Accepts.ite (fun _ => ?_) fun _ => accepts_error (by decide) 0
    refine Accepts.bind fun f => accepts_withResult hc ?_ (accepts_done32 _)
    show rpFsMbPrivateRange (args_ptr + 6) 4 = true
    exact rpFsMbPrivateRange_part hargs (by decide) (by decide)

/-- The buffer has been checked for a whole entry. -/
theorem harmless_readdir : Harmless (rpFsMbExecReaddir ff context args_ptr handle) := by
  refine harmless_withArgs fun hargs raw => harmless_withOpen ?_
  refine Harmless.ite (fun _ => harmless_einval) fun hbuffer => Accepts.harmless ?_
  rw [not_or, Bool.not_eq_false] at hbuffer
  refine Accepts.bind fun f => ?_
  rcases (onStorage (rpFsReaddir ff handle 13)).result f with ⟨name, attr, size⟩ | - | -
  · refine accepts_withResult hc ?_ (accepts_done _ _)
    rw [length_direntBytes]
    exact hbuffer.2
  · exact accepts_done _ _
  · exact accepts_error (by decide) 0

/-- The buffer has been checked for as many bytes as are asked for. -/
theorem harmless_read (hread : ReadsAtMost ff) :
    Harmless (rpFsMbExecRead ff context args_ptr handle) := by
  refine harmless_withArgs fun hargs raw => harmless_withOpen ?_
  dsimp only
  generalize rpFsMbU16 raw 2 = dst
  generalize rpFsMbU16 raw 4 = len
  refine Harmless.ite (fun _ => harmless_einval) fun _ => Harmless.ite (fun _ => ?_) fun _ => ?_
  · exact Accepts.harmless (Accepts.bind fun _ => accepts_done _ _)
  refine Harmless.ite (fun _ => harmless_einval) fun hbuffer => Accepts.harmless ?_
  rw [Bool.not_eq_false] at hbuffer
  refine Accepts.bind fun f => ?_
  rcases hbytes : (onStorage (rpFsRead ff handle (clipToChunk len))).result f with
    - | - | ⟨b, bytes⟩
  · exact accepts_error (by decide) 0
  · exact Accepts.bind fun _ => accepts_done _ _
  · have hlen : (b :: bytes).length ≤ (clipToChunk len).toNat :=
      length_rpFsRead ff handle hread _ f.storage hbytes
    have hword : (UInt16.ofNat (b :: bytes).length).toNat = (b :: bytes).length :=
      UInt16.toNat_ofNat_of_lt' (hlen.trans_lt (clipToChunk len).toNat_lt)
    refine accepts_withResult hc ?_ (Accepts.bind fun _ => accepts_done _ _)
    have hpart := rpFsMbPrivateRange_part (k := 0) (m := UInt16.ofNat (b :: bytes).length) hbuffer
      (fun hzero => by rw [hzero] at hword; cases hword) (by rw [hword]; simpa using hlen)
    rwa [UInt16.add_zero] at hpart

omit hc in
theorem harmless_arg0 {k : UInt16 → Prog (Firmware σ) MailboxState} (h : ∀ a, Harmless (k a)) :
    Harmless (readArg0 >>= k) :=
  Harmless.bind (readsOnly_rpRead16 _) fun _ => h _

omit hc in
theorem harmless_arg2L {k : UInt8 → Prog (Firmware σ) MailboxState} (h : ∀ a, Harmless (k a)) :
    Harmless (readArg2L >>= k) :=
  Harmless.bind (readsOnly_snoopRead _) fun _ => h _

omit hc in
theorem harmless_arg2H {k : UInt8 → Prog (Firmware σ) MailboxState} (h : ∀ a, Harmless (k a)) :
    Harmless (readArg2H >>= k) :=
  Harmless.bind (readsOnly_snoopRead _) fun _ => h _

/-- Every operation but SAVE and LOAD, and every number that names none, is harmless. -/
theorem harmless_execOperation (hread : ReadsAtMost ff) {op : UInt8}
    (hop : ¬ (op = RP_FS_OP_LOAD ∨ op = RP_FS_OP_SAVE)) :
    Harmless (execOperation ff op pid context) := by
  rw [execOperation, if_neg hop]
  refine Harmless.ite (fun _ => harmless_status) fun _ => ?_
  refine Harmless.ite (fun _ => harmless_arg0 fun _ => harmless_open ff pid _) fun _ => ?_
  refine Harmless.ite (fun _ => harmless_arg0 fun _ => harmless_arg2L fun _ =>
    harmless_read hc ff _ _ hread) fun _ => ?_
  refine Harmless.ite (fun _ => harmless_arg0 fun _ => harmless_arg2L fun _ =>
    harmless_write ff _ _) fun _ => ?_
  refine Harmless.ite (fun _ => harmless_arg2L fun _ => harmless_close ff _) fun _ => ?_
  refine Harmless.ite (fun _ => harmless_arg0 fun _ => harmless_singlePath ff pid _ op) fun _ => ?_
  refine Harmless.ite (fun _ => harmless_arg0 fun _ => harmless_rename ff pid _) fun _ => ?_
  refine Harmless.ite (fun _ => harmless_arg0 fun _ => harmless_opendir ff pid _) fun _ => ?_
  refine Harmless.ite (fun _ => harmless_arg0 fun _ => harmless_arg2L fun _ =>
    harmless_seek hc ff _ _) fun _ => ?_
  refine Harmless.ite (fun _ => harmless_arg0 fun _ => harmless_arg2L fun _ =>
    harmless_tell hc ff _ _) fun _ => ?_
  refine Harmless.ite (fun _ => harmless_arg0 fun _ => harmless_arg2L fun _ =>
    harmless_readdir hc ff _ _) fun _ => ?_
  refine Harmless.ite (fun _ => harmless_arg2L fun _ => harmless_closedir ff _) fun _ => ?_
  refine Harmless.ite (fun _ => harmless_arg0 fun _ => harmless_chdir ff pid _) fun _ => ?_
  refine Harmless.ite (fun _ => harmless_arg0 fun _ => harmless_getcwd hc pid _) fun _ => ?_
  refine Harmless.ite (fun _ => ?_) fun _ => Harmless.ite (fun _ => ?_) fun _ => harmless_einval
  · refine harmless_arg2L fun target_pid => harmless_arg2H fun device => harmless_cwd fun table h => ?_
    unfold rpFsCwdInitRoot at h ⊢
    split
    · rfl
    · rename_i hguard
      rw [if_neg hguard] at h
      cases h
  · refine harmless_arg2L fun child_pid => harmless_arg2H fun parent_pid =>
      harmless_cwd fun table h => ?_
    unfold rpFsCwdClone at h ⊢
    split
    · rfl
    · rename_i hguard
      rw [if_neg hguard] at h
      cases h

end Operations

/-! ## The request -/

/-- A request other than SAVE and LOAD that is answered with `RP_ERR_EINVAL` has changed nothing but
the reply. -/
theorem untouched_of_einval {ff : FatFs σ} (hread : ReadsAtMost ff) {f : Firmware σ} (hf : f.hw.Settled)
    (hop : ¬ (f.hw.view.peek RP_STATE = RP_FS_OP_LOAD ∨ f.hw.view.peek RP_STATE = RP_FS_OP_SAVE)) :
    let f' := (rpFsMailboxHandleExec ff).final f
    f'.hw.view.peek RP_STATUS = RP_ERROR → f'.hw.view.peek RP_ERR = RP_ERR_EINVAL →
      Untouched f f' := by
  obtain ⟨m₀, op, pid, context, hblock, -, hfin⟩ := final_rpFsMailboxHandleExec ff f
  obtain ⟨hm₀, hview₀, rfl, -, -⟩ := hblock hf
  have hcompletes : Completes (checkedOperation ff (f.hw.view.peek RP_STATE) pid context) :=
    completes_checkedOperation ff pid _
  have hcompleted := (hcompletes { f with hw := m₀ }).2
  have hharmless : Harmless (checkedOperation ff (f.hw.view.peek RP_STATE) pid context) := by
    refine Harmless.ite (fun _ => harmless_einval) fun hguard => ?_
    rw [not_or, UInt8.not_le, UInt8.not_le] at hguard
    exact harmless_execOperation hguard.2 ff pid hread hop
  rw [hfin]
  intro f' hstatus herr
  have hrejected := (hcompleted.rejected_iff hm₀).2 ⟨hstatus, herr⟩
  have hrest := (hharmless { f with hw := m₀ } hm₀ hrejected).of_readsOnly hf
    (readsOnly_of_view hm₀ hview₀)
  exact ⟨hrest.storage, hrest.cwd, hrest.mmuRam, hrest.ram⟩

/-! ## The calls of FatFs -/

/-- The storage without the count of calls. -/
def Storage.uncounted (s : Storage (Nat × σ)) : Storage σ := { s with fatfs := s.fatfs.2 }

/-- A call of FatFs that adds `n` to the count. -/
def counted (n : Nat) (p : Prog (Storage σ) α) : Prog (Storage (Nat × σ)) α :=
  p.on Storage.uncounted fun s t => { t with fatfs := (s.fatfs.1 + n, t.fatfs) }

/-- FatFs with a count of the calls of `f_read`, `f_lseek` and `f_readdir`. -/
def FatFs.counting (ff : FatFs σ) : FatFs (Nat × σ) where
  f_mount device := counted 0 (ff.f_mount device)
  f_open slot path mode := counted 0 (ff.f_open slot path mode)
  f_close slot := counted 0 (ff.f_close slot)
  f_read slot len := counted 1 (ff.f_read slot len)
  f_write slot src := counted 0 (ff.f_write slot src)
  f_lseek slot position := counted 1 (ff.f_lseek slot position)
  f_size slot s := ff.f_size slot s.uncounted
  f_tell slot s := ff.f_tell slot s.uncounted
  f_unlink path := counted 0 (ff.f_unlink path)
  f_rename old_path new_path := counted 0 (ff.f_rename old_path new_path)
  f_mkdir path := counted 0 (ff.f_mkdir path)
  f_opendir slot path := counted 0 (ff.f_opendir slot path)
  f_readdir slot := counted 1 (ff.f_readdir slot)
  f_closedir slot := counted 0 (ff.f_closedir slot)
  entriesLeft slot s := ff.entriesLeft slot s.uncounted
  entriesLeft_readdir slot s := ff.entriesLeft_readdir slot s.uncounted

/-- A request other than SAVE and LOAD that is answered with `RP_ERR_EINVAL` has changed nothing but
the reply, and has called none of `f_read`, `f_lseek` and `f_readdir`. -/
theorem einval_untouched (ff : FatFs σ) (hread : ReadsAtMost ff) :
    (∀ f : Firmware σ, f.hw.Settled →
      ¬ (f.hw.view.peek RP_STATE = RP_FS_OP_LOAD ∨ f.hw.view.peek RP_STATE = RP_FS_OP_SAVE) →
      let f' := (rpFsMailboxHandleExec ff).final f
      f'.hw.view.peek RP_STATUS = RP_ERROR → f'.hw.view.peek RP_ERR = RP_ERR_EINVAL →
        Untouched f f') ∧
    ∀ f : Firmware (Nat × σ), f.hw.Settled →
      ¬ (f.hw.view.peek RP_STATE = RP_FS_OP_LOAD ∨ f.hw.view.peek RP_STATE = RP_FS_OP_SAVE) →
      let f' := (rpFsMailboxHandleExec ff.counting).final f
      f'.hw.view.peek RP_STATUS = RP_ERROR → f'.hw.view.peek RP_ERR = RP_ERR_EINVAL →
        f'.storage.fatfs.1 = f.storage.fatfs.1 := by
  refine ⟨fun f hf hop => untouched_of_einval hread hf hop, ?_⟩
  intro f hf hop f' hstatus herr
  have hcounting : ReadsAtMost ff.counting := fun slot len s => hread slot len s.uncounted
  exact congrArg (·.fatfs.1) (untouched_of_einval hcounting hf hop hstatus herr).storage

/-- A firmware whose block asks for a READ from a handle that is not open. -/
def strayReadFirmware : Firmware RamDisk :=
  .start
    (.running fun cell => (List.lookup cell [((0x0B, 0x005), RP_FS_OP_READ), ((0x0B, 0x007), 0x20),
      ((0x0B, 0x008), 1), ((0x0B, 0x00A), 2)]).getD 0)
    (RamDisk.mounted fun _ => none)

theorem readsAtMost_ramDisk : ReadsAtMost RamDisk.fatFs := fun slot len s =>
  List.length_take_le len.toNat ((RamDisk.contents slot s).drop (s.fatfs.fil slot).2)

theorem strayRead_untouched :
    Untouched strayReadFirmware ((rpFsMailboxHandleExec RamDisk.fatFs).final strayReadFirmware) :=
  (einval_untouched RamDisk.fatFs readsAtMost_ramDisk).1 strayReadFirmware
    (Machine.settled_running _) (by decide +kernel) (by decide +kernel) (by decide +kernel)

end NeoMmu
