import NeoMmu.Mailbox.Rejection

/-!
# What a request keeps

`RequestRules` is the induction principle of the filesystem requests: a relation that the accesses, the
file calls, the working directories and the replies keep is kept by every operation but SAVE and
LOAD; without the writes to the caller's memory, `TransferRules` does for the others what is left.
-/

namespace NeoMmu

variable {σ α : Type}

/-! ## Rules for requests -/

/-- `Q` is kept by the file calls of the requests that neither take nor give back a handle. -/
structure AccessRules (ff : FatFs σ) (Q : Storage σ → Storage σ → Prop) : Prop where
  singlePath : ∀ op device path, Prog.Keeps Q (singlePathOperation ff op device path)
  rename : ∀ device old_path new_path, Prog.Keeps Q (rpFsRename83 ff device old_path new_path)
  readdir : ∀ handle n, Prog.Keeps Q (rpFsReaddir ff handle n)
  read : ∀ handle len, Prog.Keeps Q (rpFsRead ff handle len)
  write : ∀ handle src, Prog.Keeps Q (rpFsWrite ff handle src)
  seek : ∀ handle position, Prog.Keeps Q (rpFsSeek ff handle position)

/-- `Q` is kept by the file calls of the requests, but for those that open a file. -/
structure FileRules (ff : FatFs σ) (Q : Storage σ → Storage σ → Prop) : Prop
    extends AccessRules ff Q where
  opendir : ∀ device path, Prog.Keeps Q (rpFsOpendir83 ff device path)
  closedir : ∀ handle, Prog.Keeps Q (rpFsClosedir ff handle)
  close : ∀ handle, Prog.Keeps Q (rpFsClose ff handle)

theorem fileRules_true (ff : FatFs σ) : FileRules ff fun _ _ => True := by
  refine ⟨?_, ?_, ?_, ?_⟩
  · constructor
    all_goals intros; exact fun _ => trivial
  all_goals intros; exact fun _ => trivial

/-- `Q` is kept by mounting and by the calls of FatFs that neither open nor close. -/
structure AccessCalls (ff : FatFs σ) (Q : Storage σ → Storage σ → Prop) : Prop where
  mount : ∀ device, Prog.Keeps Q (ensureMounted ff device)
  f_read : ∀ slot len, Prog.Keeps Q (ff.f_read slot len)
  f_write : ∀ slot src, Prog.Keeps Q (ff.f_write slot src)
  f_lseek : ∀ slot position, Prog.Keeps Q (ff.f_lseek slot position)
  f_unlink : ∀ path, Prog.Keeps Q (ff.f_unlink path)
  f_rename : ∀ old_path new_path, Prog.Keeps Q (ff.f_rename old_path new_path)
  f_mkdir : ∀ path, Prog.Keeps Q (ff.f_mkdir path)
  f_readdir : ∀ slot, Prog.Keeps Q (ff.f_readdir slot)

/-- `Q` is kept by mounting, by closing and by the calls of FatFs that open nothing. -/
structure CallRules (ff : FatFs σ) (Q : Storage σ → Storage σ → Prop) : Prop
    extends AccessCalls ff Q where
  opendir : ∀ device path, Prog.Keeps Q (rpFsOpendir83 ff device path)
  closedir : ∀ handle, Prog.Keeps Q (rpFsClosedir ff handle)
  close : ∀ handle, Prog.Keeps Q (rpFsClose ff handle)

section Handles

variable {ff : FatFs σ} {Q : Storage σ → Storage σ → Prop} [Std.Refl Q] [IsTrans (Storage σ) Q]
  {handle : UInt8}

theorem keeps_rpFsRead (h : ∀ len, Prog.Keeps Q (ff.f_read handle len)) (len : UInt16) :
    Prog.Keeps Q (rpFsRead ff handle len) := by
  refine Prog.Keeps.get.bind fun s => Prog.Keeps.ite (fun _ => Prog.Keeps.pure none) fun _ => ?_
  refine Prog.Keeps.ite (fun _ => Prog.Keeps.pure none) fun _ => ?_
  refine Prog.Keeps.ite (fun _ => Prog.Keeps.pure _) fun _ => (h _).bind fun r => ?_
  exact Prog.Keeps.pure _

theorem keeps_rpFsWrite (h : ∀ src, Prog.Keeps Q (ff.f_write handle src)) (src : List UInt8) :
    Prog.Keeps Q (rpFsWrite ff handle src) := by
  refine Prog.Keeps.get.bind fun s => Prog.Keeps.ite (fun _ => Prog.Keeps.pure none) fun _ => ?_
  refine Prog.Keeps.ite (fun _ => Prog.Keeps.pure none) fun _ => ?_
  refine Prog.Keeps.ite (fun _ => Prog.Keeps.pure _) fun _ => (h _).bind fun r => ?_
  exact Prog.Keeps.pure _

theorem keeps_rpFsSeek (h : ∀ position, Prog.Keeps Q (ff.f_lseek handle position)) (position : UInt32) :
    Prog.Keeps Q (rpFsSeek ff handle position) :=
  Prog.Keeps.get.bind fun _ => Prog.Keeps.ite
    (fun _ => (h _).bind fun _ => Prog.Keeps.pure _) fun _ => Prog.Keeps.pure false

theorem keeps_rpFsClose (h : Prog.Keeps Q (ff.f_close handle))
    (hfree : ∀ s : Storage σ, Q s (s.setHandle handle ⟨false, 0, 0⟩)) : Prog.Keeps Q (rpFsClose ff handle) := by
  refine Prog.Keeps.get.bind fun _ => Prog.Keeps.ite (fun _ => ?_) fun _ => Prog.Keeps.pure false
  exact h.bind fun fr => (Prog.Keeps.modify fun s => hfree s).bind fun _ => Prog.Keeps.pure _

omit [Std.Refl Q] in
theorem keeps_readdirLoop (h : ∀ slot, Prog.Keeps Q (ff.f_readdir slot)) (handle : UInt8) (n : Nat)
    (s : Storage σ) : Q s (readdirLoop ff handle n s).2 := by
  fun_induction NeoMmu.readdirLoop ff handle n s with
  | case1 s r s' hfr => exact h handle s
  | case2 s r s' hfr hend => exact h handle s
  | case3 s r s' hfr hend hskip ih => exact trans_of Q (h handle s) ih
  | case4 s r s' hfr hend name hname hlong => exact h handle s
  | case5 s r s' hfr hend name hname hlong => exact h handle s

theorem keeps_rpFsReaddir (h : ∀ slot, Prog.Keeps Q (ff.f_readdir slot)) (handle : UInt8) (n : Nat) :
    Prog.Keeps Q (rpFsReaddir ff handle n) :=
  Prog.Keeps.get.bind fun _ => Prog.Keeps.ite (fun _ => Prog.Keeps.pure _) fun _ =>
    keeps_readdirLoop h handle n

end Handles

namespace AccessCalls

variable {ff : FatFs σ} {Q : Storage σ → Storage σ → Prop} [Std.Refl Q] [IsTrans (Storage σ) Q]
  (h : AccessCalls ff Q)

include h

theorem delete (device : UInt8) (path : List UInt8) : Prog.Keeps Q (rpFsDelete83 ff device path) := by
  refine (h.mount device).bind fun ok => Prog.Keeps.ite (fun _ => ?_) fun _ => Prog.Keeps.pure false
  split
  · exact Prog.Keeps.pure false
  · exact (h.f_unlink _).bind fun _ => Prog.Keeps.pure _

theorem mkdir (device : UInt8) (path : List UInt8) : Prog.Keeps Q (rpFsMkdir83 ff device path) := by
  refine (h.mount device).bind fun ok => Prog.Keeps.ite (fun _ => ?_) fun _ => Prog.Keeps.pure false
  split
  · exact Prog.Keeps.pure false
  · refine Prog.Keeps.ite (fun _ => Prog.Keeps.pure false) fun _ => ?_
    exact (h.f_mkdir _).bind fun _ => Prog.Keeps.pure _

theorem rmdir (device : UInt8) (path : List UInt8) : Prog.Keeps Q (rpFsRmdir83 ff device path) := by
  refine (h.mount device).bind fun ok => Prog.Keeps.ite (fun _ => ?_) fun _ => Prog.Keeps.pure false
  split
  · exact Prog.Keeps.pure false
  · refine Prog.Keeps.ite (fun _ => Prog.Keeps.pure false) fun _ => ?_
    exact (h.f_unlink _).bind fun _ => Prog.Keeps.pure _

theorem rename (device : UInt8) (old_path new_path : List UInt8) :
    Prog.Keeps Q (rpFsRename83 ff device old_path new_path) := by
  refine (h.mount device).bind fun ok => Prog.Keeps.ite (fun _ => ?_) fun _ => Prog.Keeps.pure false
  split
  · exact (h.f_rename _ _).bind fun _ => Prog.Keeps.pure _
  · exact Prog.Keeps.pure false

theorem readdir (handle : UInt8) (n : Nat) : Prog.Keeps Q (rpFsReaddir ff handle n) :=
  keeps_rpFsReaddir h.f_readdir handle n

theorem read (handle : UInt8) (len : UInt16) : Prog.Keeps Q (rpFsRead ff handle len) :=
  keeps_rpFsRead (h.f_read handle) len

theorem write (handle : UInt8) (src : List UInt8) : Prog.Keeps Q (rpFsWrite ff handle src) :=
  keeps_rpFsWrite (h.f_write handle) src

theorem seek (handle : UInt8) (position : UInt32) : Prog.Keeps Q (rpFsSeek ff handle position) :=
  keeps_rpFsSeek (h.f_lseek handle) position

theorem accessRules : AccessRules ff Q where
  singlePath op device path := by
    refine Prog.Keeps.ite (fun _ => h.delete device path) fun _ => ?_
    refine Prog.Keeps.ite (fun _ => h.mkdir device path) fun _ => ?_
    exact Prog.Keeps.ite (fun _ => h.rmdir device path) fun _ => Prog.Keeps.pure false
  rename := h.rename
  readdir := h.readdir
  read := h.read
  write := h.write
  seek := h.seek

end AccessCalls

theorem CallRules.fileRules {ff : FatFs σ} {Q : Storage σ → Storage σ → Prop} [Std.Refl Q]
    [IsTrans (Storage σ) Q] (h : CallRules ff Q) : FileRules ff Q where
  toAccessRules := h.toAccessCalls.accessRules
  opendir := h.opendir
  closedir := h.closedir
  close := h.close

/-- `R` is kept by everything that the requests of a context are made of but their results, as far as
the calls on the storage keep `Q`. -/
structure TransferRules (R : Firmware σ → Firmware σ → Prop) (Q : Storage σ → Storage σ → Prop)
    (context : UInt8) : Prop where
  storage : ∀ {α : Type} (p : Prog (Storage σ) α), Prog.Keeps Q p → Prog.Keeps R (onStorage p)
  snoopRead : ∀ a, Prog.Keeps R (onHw (snoopRead6502MemoryLoc a))
  readBlock : ∀ a n, Prog.Keeps R (rpFsMbReadContextBlock context a n)
  readPath : ∀ a n dst_len, Prog.Keeps R (rpFsMbReadContextPath context a n dst_len)
  reply : ∀ res0 res1 err flags status,
    Prog.Keeps R (do emit (.result status err); onHw (rpMailboxPublish res0 res1 err flags status))

/-- `R` is kept by everything that the requests of a context are made of, as far as the calls on the
storage keep `Q`. -/
structure RequestRules (R : Firmware σ → Firmware σ → Prop) (Q : Storage σ → Storage σ → Prop)
    (context : UInt8) : Prop
    extends TransferRules R Q context where
  writeBlock : ∀ a src, src.length < 2 ^ 16 → Prog.Keeps R (rpFsMbWriteContextBlock context a src)
  cwd : ∀ table : Firmware σ → CwdTable,
    Prog.Keeps R (modify fun f => { f with gRPFSProcessCwd := table f } : Prog (Firmware σ) Unit)

/-- Looking at a file's position and size changes nothing. -/
theorem final_eofFlag (ff : FatFs σ) (handle : UInt8) (s : Storage σ) :
    (eofFlag ff handle).final s = s := rfl

theorem final_seekBase (ff : FatFs σ) (handle whence : UInt8) (s : Storage σ) :
    (seekBase ff handle whence).final s = s := by
  simp only [seekBase, Prog.final_ite, Prog.final_pure, Prog.final_bind, rpFsPosition, rpFsSize,
    Prog.final_gets, ite_self]

/-- The operations that put a result into their caller's memory. -/
def resultOperations : List UInt8 :=
  [RP_FS_OP_READ, RP_FS_OP_SEEK, RP_FS_OP_TELL, RP_FS_OP_READDIR, RP_FS_OP_GETCWD]

/-- The operations, but for those on whole files and OPEN, that take or give back a handle. -/
def handleOperations : List UInt8 :=
  [RP_FS_OP_CLOSE, RP_FS_OP_OPENDIR, RP_FS_OP_CLOSEDIR, RP_FS_OP_CHDIR]

/-- The operations that only change files. -/
def changeOperations : List UInt8 :=
  [RP_FS_OP_WRITE, RP_FS_OP_DELETE, RP_FS_OP_MKDIR, RP_FS_OP_RMDIR, RP_FS_OP_RENAME]

section Operations

variable (ff : FatFs σ) (pid context : UInt8)

theorem execOperation_write : execOperation ff RP_FS_OP_WRITE pid context =
    (do rpFsMbExecWrite ff context (← readArg0) (← readArg2L)) := rfl

theorem execOperation_delete : execOperation ff RP_FS_OP_DELETE pid context =
    (do rpFsMbExecSinglePath ff RP_FS_OP_DELETE pid context (← readArg0)) := rfl

theorem execOperation_mkdir : execOperation ff RP_FS_OP_MKDIR pid context =
    (do rpFsMbExecSinglePath ff RP_FS_OP_MKDIR pid context (← readArg0)) := rfl

theorem execOperation_rmdir : execOperation ff RP_FS_OP_RMDIR pid context =
    (do rpFsMbExecSinglePath ff RP_FS_OP_RMDIR pid context (← readArg0)) := rfl

theorem execOperation_rename : execOperation ff RP_FS_OP_RENAME pid context =
    (do rpFsMbExecRename ff pid context (← readArg0)) := rfl

theorem execOperation_read : execOperation ff RP_FS_OP_READ pid context =
    (do rpFsMbExecRead ff context (← readArg0) (← readArg2L)) := rfl

theorem execOperation_seek : execOperation ff RP_FS_OP_SEEK pid context =
    (do rpFsMbExecSeek ff context (← readArg0) (← readArg2L)) := rfl

theorem execOperation_tell : execOperation ff RP_FS_OP_TELL pid context =
    (do rpFsMbExecTell ff context (← readArg0) (← readArg2L)) := rfl

theorem execOperation_readdir : execOperation ff RP_FS_OP_READDIR pid context =
    (do rpFsMbExecReaddir ff context (← readArg0) (← readArg2L)) := rfl

theorem execOperation_getcwd : execOperation ff RP_FS_OP_GETCWD pid context =
    (do rpFsMbExecGetcwd pid context (← readArg0)) := rfl

theorem execOperation_open : execOperation ff RP_FS_OP_OPEN pid context =
    (do rpFsMbExecOpen ff pid context (← readArg0)) := rfl

theorem execOperation_close : execOperation ff RP_FS_OP_CLOSE pid context =
    (do rpFsMbExecClose ff (← readArg2L)) := rfl

theorem execOperation_opendir : execOperation ff RP_FS_OP_OPENDIR pid context =
    (do rpFsMbExecOpendir ff pid context (← readArg0)) := rfl

theorem execOperation_closedir : execOperation ff RP_FS_OP_CLOSEDIR pid context =
    (do rpFsMbExecClosedir ff (← readArg2L)) := rfl

theorem execOperation_chdir : execOperation ff RP_FS_OP_CHDIR pid context =
    (do rpFsMbExecChdir ff pid context (← readArg0)) := rfl

end Operations

section Rules

variable {R : Firmware σ → Firmware σ → Prop} [Std.Refl R] [IsTrans (Firmware σ) R]
  {Q : Storage σ → Storage σ → Prop} {context : UInt8}

namespace TransferRules

variable (h : TransferRules R Q context)

include h

theorem done (result : UInt16) (flags : UInt8) : Prog.Keeps R (fsMbDone result flags) :=
  (h.reply result 0 RP_ERR_OK flags RP_DONE).bind fun _ => Prog.Keeps.pure _

theorem done32 (result : UInt32) : Prog.Keeps R (fsMbDone32 result) :=
  (h.reply _ _ RP_ERR_OK 0 RP_DONE).bind fun _ => Prog.Keeps.pure _

theorem error (err : UInt8) (partialResult : UInt16) : Prog.Keeps R (fsMbError err partialResult) :=
  (h.reply partialResult 0 err 0 RP_ERROR).bind fun _ => Prog.Keeps.pure _

theorem deviceError (device : UInt8) : Prog.Keeps R (fsMbDeviceError device) :=
  Prog.Keeps.get.bind fun _ => Prog.Keeps.ite (fun _ => h.error _ _) fun _ => h.error _ _

/-- What a request reads. -/
theorem readRules : ReadRules R context := by
  refine ⟨fun a => ?_, h.readBlock, fun pid a n device => ?_⟩
  · have hread : Prog.Keeps R (do
        let lo ← onHw (snoopRead6502MemoryLoc a)
        let hi ← onHw (snoopRead6502MemoryLoc (a + 1))
        return lo.toUInt16 ||| (hi.toUInt16 <<< 8) : Prog (Firmware σ) UInt16) :=
      (h.snoopRead _).bind fun _ => (h.snoopRead _).bind fun _ => Prog.Keeps.pure _
    exact hread
  · refine (h.readPath _ _ _).bind fun input => ?_
    rcases input with - | input
    · exact Prog.Keeps.pure none
    · refine Prog.Keeps.get.bind fun f => ?_
      dsimp only
      split
      · exact Prog.Keeps.pure _
      · exact Prog.Keeps.pure none

theorem withArgs {args_ptr length : UInt16} {valid : List UInt8 → Bool}
    {operation : List UInt8 → Prog (Firmware σ) MailboxState}
    (hop : ∀ raw, Prog.Keeps R (operation raw)) :
    Prog.Keeps R (withArgs context args_ptr length valid operation) := by
  refine (h.readBlock _ _).bind fun raw => ?_
  rcases raw with - | raw
  · exact h.error _ _
  · exact Prog.Keeps.ite (fun _ => hop raw) fun _ => h.error _ _

theorem withPath {pid : UInt8} {path_ptr max_len : UInt16} {device : UInt8}
    {operation : RPFSResolvedPath → Prog (Firmware σ) MailboxState}
    (hop : ∀ path, Prog.Keeps R (operation path)) :
    Prog.Keeps R (withPath pid context path_ptr max_len device operation) := by
  refine (h.readRules.resolve pid path_ptr max_len device).bind fun path => ?_
  rcases path with - | path
  · exact h.error _ _
  · exact hop path

theorem withOpen {isOpen : Firmware σ → Bool} {operation : Prog (Firmware σ) MailboxState}
    (hop : Prog.Keeps R operation) : Prog.Keeps R (withOpen isOpen operation) :=
  Prog.Keeps.get.bind fun _ => Prog.Keeps.ite (fun _ => hop) fun _ => h.error _ _

/-- A SAVE or LOAD keeps the relation when the transfer of a valid range does. -/
theorem keeps_bulkTransfer {ff : FatFs σ} {op device handle : UInt8} {mem_ptr : UInt16} {n : Nat}
    (hclose : Prog.Keeps Q (rpFsClose ff handle))
    (htransfer : rpFsMbValid64kRange mem_ptr n = true →
      Prog.Keeps R (withContext context (bulkLoop ff op handle mem_ptr n 0))) :
    Prog.Keeps R (bulkTransfer ff op context device handle mem_ptr n) := by
  have hrefused : Prog.Keeps R (do
      discard <| onStorage (rpFsClose ff handle)
      fsMbError RP_ERR_EINVAL 0 : Prog (Firmware σ) MailboxState) :=
    (h.storage _ hclose).discard.bind fun _ => h.error _ _
  refine Prog.Keeps.ite (fun _ => hrefused) fun hrange => ?_
  refine (htransfer (Bool.not_eq_false _ ▸ hrange)).bind fun transferred => ?_
  rcases transferred with - | ⟨total, failed⟩
  · exact hrefused
  · exact (h.storage _ hclose).bind fun _ => Prog.Keeps.ite (fun _ => h.error _ _) fun _ => h.done _ _

theorem keeps_execBulk {ff : FatFs σ} {op pid : UInt8} {args_ptr : UInt16}
    (htransfer : ∀ path mem_ptr size_word, Prog.Keeps R (bulkOnPath ff op context path mem_ptr size_word)) :
    Prog.Keeps R (rpFsMbExecBulk ff op pid context args_ptr) :=
  h.withArgs fun _ => h.withPath fun path => htransfer path _ _

variable {ff : FatFs σ} (access : AccessRules ff Q) (files : FileRules ff Q) (pid : UInt8)
  (args_ptr : UInt16) (handle : UInt8)

theorem keeps_open (hopen : ∀ mode device path, Prog.Keeps Q (openByMode ff mode device path)) :
    Prog.Keeps R (rpFsMbExecOpen ff pid context args_ptr) := by
  refine h.withArgs fun raw => h.withPath fun path => Prog.Keeps.get.bind fun f => ?_
  refine Prog.Keeps.ite (fun _ => h.error _ _) fun _ => (h.storage _ (hopen _ _ _)).bind fun handle => ?_
  rcases handle with - | handle
  · exact h.deviceError _
  · exact h.done _ _

theorem keeps_cwd (hcwd : ∀ table : Firmware σ → CwdTable,
      Prog.Keeps R (modify fun f => { f with gRPFSProcessCwd := table f } : Prog (Firmware σ) Unit))
    (change : CwdTable → Bool × CwdTable) : Prog.Keeps R (execCwd change) :=
  Prog.Keeps.get.bind fun _ => (hcwd _).bind fun _ =>
    Prog.Keeps.ite (fun _ => h.done _ _) fun _ => h.error _ _

theorem arg0 {k : UInt16 → Prog (Firmware σ) MailboxState} (hk : ∀ a, Prog.Keeps R (k a)) :
    Prog.Keeps R (readArg0 >>= k) :=
  (h.readRules.read16 RP_ARG0L).bind hk

omit [Std.Refl R] in
theorem arg2L {k : UInt8 → Prog (Firmware σ) MailboxState} (hk : ∀ a, Prog.Keeps R (k a)) :
    Prog.Keeps R (readArg2L >>= k) :=
  (h.snoopRead _).bind hk

omit [Std.Refl R] in
theorem arg2H {k : UInt8 → Prog (Firmware σ) MailboxState} (hk : ∀ a, Prog.Keeps R (k a)) :
    Prog.Keeps R (readArg2H >>= k) :=
  (h.snoopRead _).bind hk

theorem keeps_singlePath (op : UInt8)
    (hsingle : ∀ device path, Prog.Keeps Q (singlePathOperation ff op device path)) :
    Prog.Keeps R (rpFsMbExecSinglePath ff op pid context args_ptr) := by
  refine h.withArgs fun raw => h.withPath fun path => (h.storage _ (hsingle _ _)).bind fun ok => ?_
  exact Prog.Keeps.ite (fun _ => h.done _ _) fun _ => h.deviceError _

theorem keeps_rename
    (hrename : ∀ device old_path new_path, Prog.Keeps Q (rpFsRename83 ff device old_path new_path)) :
    Prog.Keeps R (rpFsMbExecRename ff pid context args_ptr) := by
  refine h.withArgs fun raw => h.withPath fun old_path => h.withPath fun new_path => ?_
  refine Prog.Keeps.ite (fun _ => h.error _ _) fun _ => (h.storage _ (hrename _ _ _)).bind fun ok => ?_
  exact Prog.Keeps.ite (fun _ => h.done _ _) fun _ => h.deviceError _

theorem keeps_write (hwrite : ∀ src, Prog.Keeps Q (rpFsWrite ff handle src)) :
    Prog.Keeps R (rpFsMbExecWrite ff context args_ptr handle) := by
  refine h.withArgs fun raw => h.withOpen (Prog.Keeps.ite (fun _ => h.error _ _) fun _ => ?_)
  refine Prog.Keeps.ite (fun _ => h.done _ _) fun _ => (h.readBlock _ _).bind fun buffer => ?_
  rcases buffer with - | buffer
  · exact h.error _ _
  · refine (h.storage _ (hwrite _)).bind fun count => ?_
    rcases count with - | count
    · exact h.error _ _
    · exact h.done _ _

include access

/-- The operations that only change files keep what their storage calls keep. -/
theorem keeps_changeOperation {op : UInt8} (hop : op ∈ changeOperations) :
    Prog.Keeps R (execOperation ff op pid context) := by
  simp only [changeOperations, List.mem_cons, List.not_mem_nil, or_false] at hop
  rcases hop with rfl | rfl | rfl | rfl | rfl
  · rw [execOperation_write]
    exact h.arg0 fun _ => h.arg2L fun handle => h.keeps_write _ handle (access.write handle)
  · rw [execOperation_delete]
    exact h.arg0 fun _ => h.keeps_singlePath pid _ _ (access.singlePath _)
  · rw [execOperation_mkdir]
    exact h.arg0 fun _ => h.keeps_singlePath pid _ _ (access.singlePath _)
  · rw [execOperation_rmdir]
    exact h.arg0 fun _ => h.keeps_singlePath pid _ _ (access.singlePath _)
  · rw [execOperation_rename]
    exact h.arg0 fun _ => h.keeps_rename pid _ access.rename

omit access

/-- The operations, behind the check of PID and context, keep the relation if those do that put a result
into the caller's memory, those that take or give back a handle, those that only change files and those
that transfer a whole one. -/
theorem keeps_checkedOperation
    (hcwd : ∀ table : Firmware σ → CwdTable,
      Prog.Keeps R (modify fun f => { f with gRPFSProcessCwd := table f } : Prog (Firmware σ) Unit))
    {op : UInt8} (hresult : op ∈ resultOperations → Prog.Keeps R (execOperation ff op pid context))
    (hhandles : op ∈ handleOperations → Prog.Keeps R (execOperation ff op pid context))
    (hchange : op ∈ changeOperations → Prog.Keeps R (execOperation ff op pid context))
    (hbulk : op = RP_FS_OP_LOAD ∨ op = RP_FS_OP_SAVE → ∀ args_ptr,
      Prog.Keeps R (rpFsMbExecBulk ff op pid context args_ptr))
    (hopen : op = RP_FS_OP_OPEN → ∀ mode device path, Prog.Keeps Q (openByMode ff mode device path)) :
    Prog.Keeps R (checkedOperation ff op pid context) := by
  rw [checkedOperation]
  refine Prog.Keeps.ite (fun _ => h.error _ _) fun _ => ?_
  by_cases hres : op ∈ resultOperations
  · exact hresult hres
  by_cases hhan : op ∈ handleOperations
  · exact hhandles hhan
  by_cases hcha : op ∈ changeOperations
  · exact hchange hcha
  simp only [resultOperations, handleOperations, changeOperations, List.mem_cons, List.not_mem_nil, or_false,
    not_or] at hres hhan hcha
  obtain ⟨hread, hseek, htell, hreaddir, hgetcwd⟩ := hres
  obtain ⟨hclose, hopendir, hclosedir, hchdir⟩ := hhan
  obtain ⟨hwrite, hdelete, hmkdir, hrmdir, hrename⟩ := hcha
  rw [execOperation]
  refine Prog.Keeps.ite (fun _ => Prog.Keeps.get.bind fun _ => h.done _ _) fun _ => ?_
  refine Prog.Keeps.ite (fun ho => h.arg0 fun _ => h.keeps_open pid _ (hopen ho)) fun _ => ?_
  refine Prog.Keeps.ite (fun ho => absurd ho hread) fun _ => ?_
  refine Prog.Keeps.ite (fun ho => absurd ho hwrite) fun _ => ?_
  refine Prog.Keeps.ite (fun ho => absurd ho hclose) fun _ => ?_
  refine Prog.Keeps.ite (fun hop => h.arg0 fun _ => hbulk hop _) fun _ => ?_
  refine Prog.Keeps.ite (fun ho => absurd ho (by simp [hdelete, hmkdir, hrmdir])) fun _ => ?_
  refine Prog.Keeps.ite (fun ho => absurd ho hrename) fun _ => ?_
  refine Prog.Keeps.ite (fun ho => absurd ho hopendir) fun _ => ?_
  refine Prog.Keeps.ite (fun ho => absurd ho hseek) fun _ => ?_
  refine Prog.Keeps.ite (fun ho => absurd ho htell) fun _ => ?_
  refine Prog.Keeps.ite (fun ho => absurd ho hreaddir) fun _ => ?_
  refine Prog.Keeps.ite (fun ho => absurd ho hclosedir) fun _ => ?_
  refine Prog.Keeps.ite (fun ho => absurd ho hchdir) fun _ => ?_
  refine Prog.Keeps.ite (fun ho => absurd ho hgetcwd) fun _ => ?_
  refine Prog.Keeps.ite (fun _ => h.arg2L fun _ => h.arg2H fun _ => h.keeps_cwd hcwd _) fun _ => ?_
  exact Prog.Keeps.ite (fun _ => h.arg2L fun _ => h.arg2H fun _ => h.keeps_cwd hcwd _) fun _ => h.error _ _

theorem keeps_opendir (hopendir : ∀ device path, Prog.Keeps Q (rpFsOpendir83 ff device path)) :
    Prog.Keeps R (rpFsMbExecOpendir ff pid context args_ptr) := by
  refine h.withArgs fun raw => h.withPath fun path => (h.storage _ (hopendir _ _)).bind fun handle => ?_
  rcases handle with - | handle
  · exact h.deviceError _
  · exact h.done _ _

theorem keeps_chdir (hcwd : ∀ table : Firmware σ → CwdTable,
      Prog.Keeps R (modify fun f => { f with gRPFSProcessCwd := table f } : Prog (Firmware σ) Unit))
    (hopendir : ∀ device path, Prog.Keeps Q (rpFsOpendir83 ff device path))
    (hclosedir : ∀ handle, Prog.Keeps Q (rpFsClosedir ff handle)) :
    Prog.Keeps R (rpFsMbExecChdir ff pid context args_ptr) := by
  refine h.withArgs fun raw => h.withPath fun path => (h.storage _ (hopendir _ _)).bind fun handle => ?_
  rcases handle with - | handle
  · exact h.deviceError _
  · refine (h.storage _ (hclosedir _)).bind fun close_ok => Prog.Keeps.ite (fun _ => h.error _ _) fun _ => ?_
    have hset : Prog.Keeps R (setCwd pid path) :=
      Prog.Keeps.get.bind fun _ => (hcwd _).bind fun _ => Prog.Keeps.pure _
    exact hset.bind fun ok => Prog.Keeps.ite (fun _ => h.done _ _) fun _ => h.error _ _

theorem keeps_close (hclose : Prog.Keeps Q (rpFsClose ff handle)) : Prog.Keeps R (rpFsMbExecClose ff handle) :=
  h.withOpen <| (h.storage _ hclose).bind fun _ => Prog.Keeps.ite (fun _ => h.done _ _) fun _ => h.error _ _

theorem keeps_closedir (hclosedir : Prog.Keeps Q (rpFsClosedir ff handle)) :
    Prog.Keeps R (rpFsMbExecClosedir ff handle) :=
  h.withOpen <| (h.storage _ hclosedir).bind fun _ => Prog.Keeps.ite (fun _ => h.done _ _) fun _ => h.error _ _

include files

theorem keeps_handleOperation
    (hcwd : ∀ table : Firmware σ → CwdTable,
      Prog.Keeps R (modify fun f => { f with gRPFSProcessCwd := table f } : Prog (Firmware σ) Unit))
    {op : UInt8} (hop : op ∈ handleOperations) : Prog.Keeps R (execOperation ff op pid context) := by
  simp only [handleOperations, List.mem_cons, List.not_mem_nil, or_false] at hop
  rcases hop with rfl | rfl | rfl | rfl
  · rw [execOperation_close]
    exact h.arg2L fun handle => h.keeps_close handle (files.close handle)
  · rw [execOperation_opendir]
    exact h.arg0 fun _ => h.keeps_opendir pid _ files.opendir
  · rw [execOperation_closedir]
    exact h.arg2L fun handle => h.keeps_closedir handle (files.closedir handle)
  · rw [execOperation_chdir]
    exact h.arg0 fun _ => h.keeps_chdir pid _ hcwd files.opendir files.closedir

end TransferRules

namespace RequestRules

variable (h : RequestRules R Q context)

include h

theorem withResult {address : UInt16} {src : List UInt8} {done : Prog (Firmware σ) MailboxState}
    (hlen : src.length < 2 ^ 16) (hdone : Prog.Keeps R done) :
    Prog.Keeps R (withResult context address src done) :=
  (h.writeBlock _ _ hlen).bind fun _ => Prog.Keeps.ite (fun _ => hdone) fun _ => h.error _ _

variable {ff : FatFs σ} (access : AccessRules ff Q) (pid : UInt8) (args_ptr : UInt16) (handle : UInt8)

theorem keeps_getcwd : Prog.Keeps R (rpFsMbExecGetcwd pid context args_ptr) := by
  refine h.withArgs fun raw => Prog.Keeps.get.bind fun f => ?_
  dsimp only
  split
  · exact h.error _ _
  · rename_i cwd _
    refine Prog.Keeps.ite (fun _ => h.error _ _) fun hfits => ?_
    have hlen : (cwd ++ [0]).length < 2 ^ 16 := by
      rw [List.length_append]
      exact (Nat.not_lt.1 hfits).trans_lt (rpFsMbU16 raw 2).toNat_lt
    exact h.withResult hlen (h.withResult (show 2 < 2 ^ 16 by decide) (h.done _ _))

theorem keeps_tell [Std.Refl Q] : Prog.Keeps R (rpFsMbExecTell ff context args_ptr handle) :=
  h.withArgs fun _ => h.withOpen <| (h.storage _ (Prog.Keeps.gets _)).bind fun position =>
    h.withResult (show 4 < 2 ^ 16 by decide) (h.done32 position)

theorem keeps_read [Std.Refl Q] (hread : ReadsAtMost ff)
    (hfileRead : ∀ len, Prog.Keeps Q (rpFsRead ff handle len)) :
    Prog.Keeps R (rpFsMbExecRead ff context args_ptr handle) := by
  have hlook : Prog.Keeps R (onStorage (eofFlag ff handle)) :=
    h.storage _ fun s => by rw [final_eofFlag]; exact refl s
  refine h.withArgs fun raw => h.withOpen (Prog.Keeps.ite (fun _ => h.error _ _) fun _ => ?_)
  refine Prog.Keeps.ite (fun _ => hlook.bind fun _ => h.done _ _) fun _ => ?_
  refine Prog.Keeps.ite (fun _ => h.error _ _) fun _ => (h.storage _ (hfileRead _)).bind_result fun f => ?_
  rcases hbytes : (onStorage (rpFsRead ff handle (clipToChunk (rpFsMbU16 raw 4)))).result f with
    - | - | ⟨b, bytes⟩
  · exact h.error _ _
  · exact hlook.bind fun _ => h.done _ _
  · have hlen : (b :: bytes).length ≤ (clipToChunk (rpFsMbU16 raw 4)).toNat :=
      length_rpFsRead ff handle hread _ f.storage hbytes
    exact h.withResult (hlen.trans_lt (UInt16.toNat_lt _)) (hlook.bind fun _ => h.done _ _)

theorem keeps_seek [Std.Refl Q] (hseek : ∀ position, Prog.Keeps Q (rpFsSeek ff handle position)) :
    Prog.Keeps R (rpFsMbExecSeek ff context args_ptr handle) := by
  refine h.withArgs fun raw => h.withOpen ((h.storage _ fun s => ?_).bind fun base => ?_)
  · rw [final_seekBase]
    exact refl s
  rcases base with - | base
  · exact h.error _ _
  · refine Prog.Keeps.ite (fun _ => h.error _ _) fun _ => (h.storage _ (hseek _)).bind fun sought => ?_
    refine Prog.Keeps.ite (fun _ => ?_) fun _ => h.error _ _
    exact (h.storage _ (Prog.Keeps.gets _)).bind fun position => h.withResult (show 4 < 2 ^ 16 by decide) (h.done32 position)

theorem keeps_readdir (hreaddir : ∀ n, Prog.Keeps Q (rpFsReaddir ff handle n)) :
    Prog.Keeps R (rpFsMbExecReaddir ff context args_ptr handle) := by
  refine h.withArgs fun raw => h.withOpen (Prog.Keeps.ite (fun _ => h.error _ _) fun _ => ?_)
  refine (h.storage _ (hreaddir _)).bind fun entry => ?_
  rcases entry with ⟨name, attr, size⟩ | - | -
  · refine h.withResult ?_ (h.done _ _)
    rw [length_direntBytes]
    decide
  · exact h.done _ _
  · exact h.error _ _

include access

theorem keeps_resultOperation [Std.Refl Q] (hread : ReadsAtMost ff) {op : UInt8}
    (hop : op ∈ resultOperations) : Prog.Keeps R (execOperation ff op pid context) := by
  simp only [resultOperations, List.mem_cons, List.not_mem_nil, or_false] at hop
  rcases hop with rfl | rfl | rfl | rfl | rfl
  · rw [execOperation_read]
    exact h.arg0 fun _ => h.arg2L fun handle => h.keeps_read _ handle hread (access.read handle)
  · rw [execOperation_seek]
    exact h.arg0 fun _ => h.arg2L fun handle => h.keeps_seek _ handle (access.seek handle)
  · rw [execOperation_tell]
    exact h.arg0 fun _ => h.arg2L fun _ => h.keeps_tell _ _
  · rw [execOperation_readdir]
    exact h.arg0 fun _ => h.arg2L fun handle => h.keeps_readdir _ handle (access.readdir handle)
  · rw [execOperation_getcwd]
    exact h.arg0 fun _ => h.keeps_getcwd pid _

omit access

/-- The operations, behind the check of PID and context, keep the relation if those that transfer a whole
file and those that open one do. -/
theorem keeps_checkedOperation [Std.Refl Q] (files : FileRules ff Q) (hread : ReadsAtMost ff) {op : UInt8}
    (hbulk : op = RP_FS_OP_LOAD ∨ op = RP_FS_OP_SAVE → ∀ args_ptr,
      Prog.Keeps R (rpFsMbExecBulk ff op pid context args_ptr))
    (hopen : op = RP_FS_OP_OPEN → ∀ mode device path, Prog.Keeps Q (openByMode ff mode device path)) :
    Prog.Keeps R (checkedOperation ff op pid context) :=
  h.toTransferRules.keeps_checkedOperation pid h.cwd
    (h.keeps_resultOperation files.toAccessRules pid hread)
    (h.toTransferRules.keeps_handleOperation files pid h.cwd)
    (h.toTransferRules.keeps_changeOperation files.toAccessRules pid) hbulk hopen

end RequestRules

end Rules

/-- A transfer keeps what its storage calls, its reads and its writes keep; a LOAD writes inside its
range. -/
theorem keeps_bulkLoop {R : Firmware σ → Firmware σ → Prop} [Std.Refl R] [IsTrans (Firmware σ) R]
    {ff : FatFs σ} (hread : ReadsAtMost ff) {op handle : UInt8}
    (hfileRead : ∀ len, Prog.Keeps R (onStorage (rpFsRead ff handle len)))
    (hfileWrite : op ≠ RP_FS_OP_LOAD → ∀ src, Prog.Keeps R (onStorage (rpFsWrite ff handle src)))
    (hreadBlock : ∀ a n, Prog.Keeps R (onHw (readBlock a n))) {mem_ptr : UInt16}
    {n : Nat} (hwriteBlock : op = RP_FS_OP_LOAD → ∀ total bytes, total + bytes.length ≤ n →
      Prog.Keeps R (onHw (writeBlock (mem_ptr + UInt16.ofNat total) bytes))) (total : Nat) :
    Prog.Keeps R (bulkLoop ff op handle mem_ptr n total) := by
  fun_induction bulkLoop ff op handle mem_ptr n total with
  | case1 total hlt chunk address hload ih =>
    have hchunk : (UInt16.ofNat chunk).toNat ≤ n - total := by
      rw [UInt16.toNat_ofNat']
      exact (Nat.mod_le _ _).trans (Nat.min_le_right _ _)
    refine (hfileRead _).bind_result fun f => ?_
    rcases hbytes : (onStorage (rpFsRead ff handle (UInt16.ofNat chunk))).result f with
      - | - | ⟨b, bytes⟩
    · exact Prog.Keeps.pure _
    · exact Prog.Keeps.pure _
    · have hlen : (b :: bytes).length ≤ (UInt16.ofNat chunk).toNat :=
        length_rpFsRead ff handle hread _ f.storage hbytes
      exact (hwriteBlock hload total _ (by omega)).bind fun _ => ih bytes
  | case2 total hlt chunk address hsave ih =>
    refine (hreadBlock _ _).bind fun buffer => (hfileWrite hsave _).bind fun count => ?_
    rcases count with - | count
    · exact Prog.Keeps.pure _
    · exact Prog.Keeps.ite (fun _ => Prog.Keeps.pure _) fun _ => ih count
  | case3 total hge => exact Prog.Keeps.pure _

/-! ## Relations of the storage -/

/-- The storages are in the relation. -/
abbrev OnStorage (Q : Storage σ → Storage σ → Prop) : Firmware σ → Firmware σ → Prop :=
  Order.Preimage (fun f => f.storage) Q

section OnStorage

variable {Q : Storage σ → Storage σ → Prop}

theorem onStorage_onHw [Std.Refl Q] (p : Prog Machine α) : Prog.Keeps (OnStorage Q) (onHw p) :=
  fun f => refl_of Q f.storage

theorem onStorage_emit [Std.Refl Q] (e : Event) : Prog.Keeps (OnStorage Q) (emit e) :=
  Prog.Keeps.modify fun f => refl_of Q f.storage

theorem onStorage_withContext [Std.Refl Q] [IsTrans (Storage σ) Q] {c : UInt8}
    {body : Prog (Firmware σ) α} (hbody : Prog.Keeps (OnStorage Q) body) :
    Prog.Keeps (OnStorage Q) (withContext c body) := by
  refine Prog.Keeps.ite (fun _ => Prog.Keeps.pure none) fun _ => (onStorage_emit _).bind fun _ => ?_
  refine (onStorage_onHw _).bind fun _ => hbody.bind fun _ => (onStorage_onHw _).bind fun _ => ?_
  exact (onStorage_emit _).bind fun _ => Prog.Keeps.pure _

theorem onStorage_readsOnly [Std.Refl Q] {m : Prog (Firmware σ) α} (h : Prog.Keeps ReadsOnly m) :
    Prog.Keeps (OnStorage Q) m := by
  intro f
  rw [OnStorage, Order.Preimage, (h f).storage]
  exact refl_of Q f.storage

/-- Only the calls on the storage touch it. -/
theorem requestRules_onStorage [Std.Refl Q] [IsTrans (Storage σ) Q] (context : UInt8) :
    RequestRules (OnStorage Q) Q context where
  storage _ hp := fun f => hp f.storage
  snoopRead _ := onStorage_onHw _
  readBlock a n := onStorage_readsOnly (readsOnly_readContextBlock context a n)
  readPath a n dst_len := onStorage_readsOnly (readsOnly_readContextPath context a n dst_len)
  reply _ _ _ _ _ := (onStorage_emit _).bind fun _ => onStorage_onHw _
  writeBlock a src _ := by
    refine Prog.Keeps.ite (fun _ => Prog.Keeps.pure false) fun _ => ?_
    exact (onStorage_withContext (onStorage_onHw _)).bind fun _ => Prog.Keeps.pure _
  cwd _ := Prog.Keeps.modify fun f => refl_of Q f.storage

variable [Std.Refl Q] [IsTrans (Storage σ) Q] {ff : FatFs σ}

/-- The transfer of a SAVE or LOAD and the close behind it. -/
theorem onStorage_bulkTransfer (hread : ReadsAtMost ff) {op c device handle : UInt8} {mem_ptr : UInt16}
    {n : Nat} (hfileRead : ∀ len, Prog.Keeps Q (rpFsRead ff handle len))
    (hfileWrite : op ≠ RP_FS_OP_LOAD → ∀ src, Prog.Keeps Q (rpFsWrite ff handle src))
    (hclose : Prog.Keeps Q (rpFsClose ff handle)) :
    Prog.Keeps (OnStorage Q) (bulkTransfer ff op c device handle mem_ptr n) := by
  have hrules : RequestRules (OnStorage Q) Q c := requestRules_onStorage c
  refine hrules.keeps_bulkTransfer hclose fun _ => onStorage_withContext ?_
  exact keeps_bulkLoop hread (fun _ => hrules.storage _ (hfileRead _))
    (fun hsave _ => hrules.storage _ (hfileWrite hsave _)) (fun _ _ => onStorage_onHw _)
    (fun _ _ _ _ => onStorage_onHw _) 0

/-- A request keeps what its operations keep. -/
theorem onStorage_request (files : FileRules ff Q) (hread : ReadsAtMost ff) {f : Firmware σ}
    (hf : f.hw.Settled)
    (hbulk : f.hw.view.peek RP_STATE = RP_FS_OP_LOAD ∨ f.hw.view.peek RP_STATE = RP_FS_OP_SAVE →
      ∀ c path mem_ptr size_word, Prog.Keeps (OnStorage Q)
        (bulkOnPath ff (f.hw.view.peek RP_STATE) c path mem_ptr size_word))
    (hopen : f.hw.view.peek RP_STATE = RP_FS_OP_OPEN →
      ∀ mode device path, Prog.Keeps Q (openByMode ff mode device path)) :
    Q f.storage ((rpFsMailboxHandleExec ff).final f).storage := by
  obtain ⟨m₀, op, pid, context, hblock, -, hfin⟩ := final_rpFsMailboxHandleExec ff f
  obtain ⟨-, -, rfl, rfl, rfl⟩ := hblock hf
  have hrules : RequestRules (OnStorage Q) Q (f.hw.view.peek RP_ARG1H) := requestRules_onStorage _
  have hoperation := hrules.keeps_checkedOperation (f.hw.view.peek RP_ARG1L) files hread
    (fun hop _ => hrules.keeps_execBulk (hbulk hop _)) hopen { f with hw := m₀ }
  rw [hfin]
  exact hoperation

/-- As `onStorage_request`, when every operation keeps the relation. -/
theorem onStorage_handleExec (files : FileRules ff Q) (hread : ReadsAtMost ff)
    (hbulk : ∀ op c path mem_ptr size_word,
      Prog.Keeps (OnStorage Q) (bulkOnPath ff op c path mem_ptr size_word))
    (hopen : ∀ mode device path, Prog.Keeps Q (openByMode ff mode device path)) :
    Prog.Keeps (OnStorage Q) (rpFsMailboxHandleExec ff) := by
  intro f
  obtain ⟨m₀, op, pid, context, -, -, hfin⟩ := final_rpFsMailboxHandleExec ff f
  have hrules : RequestRules (OnStorage Q) Q context := requestRules_onStorage _
  have hoperation := hrules.keeps_checkedOperation pid files hread
    (fun _ _ => hrules.keeps_execBulk (hbulk op _)) (fun _ => hopen) { f with hw := m₀ }
  rw [hfin]
  exact hoperation

end OnStorage

end NeoMmu
