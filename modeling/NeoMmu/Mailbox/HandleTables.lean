import NeoMmu.Mailbox.Handles

/-!
# The handle tables

What the operations do to the two handle tables while no device is detached. OPEN and OPENDIR take one free
slot, CLOSE and CLOSEDIR free one, and CHDIR, SAVE and LOAD give back the slot they borrow: since a free
slot is blank, the tables are then the same as before.
-/

namespace NeoMmu

variable {σ α : Type}

/-! ## Tables -/

/-- Both tables are the same. -/
structure SameTables (s s' : Storage σ) : Prop where
  handles : s'.gRPFSHandles = s.gRPFSHandles
  dirHandles : s'.gRPFSDirHandles = s.gRPFSDirHandles

instance : Std.Refl (SameTables (σ := σ)) where
  refl _ := ⟨rfl, rfl⟩

instance : IsTrans (Storage σ) SameTables where
  trans _ _ _ h h' := ⟨h'.handles.trans h.handles, h'.dirHandles.trans h.dirHandles⟩

/-- A free slot holds no device and no flags. -/
structure Storage.Blank (s : Storage σ) : Prop where
  handles : ∀ i, (s.gRPFSHandles i).in_use = false → s.gRPFSHandles i = ⟨false, 0, 0⟩
  dirHandles : ∀ i, (s.gRPFSDirHandles i).in_use = false → s.gRPFSDirHandles i = ⟨false, 0⟩

namespace SameTables

variable {s s' : Storage σ}

theorem of_eq (h : s' = s) : SameTables s s' := ⟨by rw [h], by rw [h]⟩

theorem blank (h : SameTables s s') (hs : s.Blank) : s'.Blank :=
  ⟨by rw [h.handles]; exact hs.handles, by rw [h.dirHandles]; exact hs.dirHandles⟩

theorem isOpen (h : SameTables s s') (handle : UInt8) : s'.isOpen handle = s.isOpen handle := by
  rw [Storage.isOpen, Storage.isOpen, h.handles]

theorem dirIsOpen (h : SameTables s s') (handle : UInt8) : s'.dirIsOpen handle = s.dirIsOpen handle := by
  rw [Storage.dirIsOpen, Storage.dirIsOpen, h.dirHandles]

theorem freeSlot (h : SameTables s s') : s'.freeSlot = s.freeSlot := by
  rw [Storage.freeSlot, Storage.freeSlot, h.handles]

theorem freeDirSlot (h : SameTables s s') : s'.freeDirSlot = s.freeDirSlot := by
  rw [Storage.freeDirSlot, Storage.freeDirSlot, h.dirHandles]

theorem setHandle (h : SameTables s s') (slot : UInt8) (r : RPFSHandle) :
    SameTables (s.setHandle slot r) (s'.setHandle slot r) :=
  ⟨by simp only [Storage.setHandle, h.handles], h.dirHandles⟩

theorem setDirHandle (h : SameTables s s') (slot : UInt8) (r : RPFSDirHandle) :
    SameTables (s.setDirHandle slot r) (s'.setDirHandle slot r) :=
  ⟨h.handles, by simp only [Storage.setDirHandle, h.dirHandles]⟩

/-- A slot that was free and blank is given back as it was. -/
theorem giveBack (hs : s.Blank) {slot : UInt8} (hfree : (s.gRPFSHandles slot).in_use = false)
    (r : RPFSHandle) (h : SameTables ((s.setHandle slot r).setHandle slot ⟨false, 0, 0⟩) s') :
    SameTables s s' := by
  refine ⟨?_, h.dirHandles⟩
  rw [h.handles, ← hs.handles slot hfree]
  simp only [Storage.setHandle, Function.update_idem, Function.update_eq_self]

theorem giveBackDir (hs : s.Blank) {slot : UInt8} (hfree : (s.gRPFSDirHandles slot).in_use = false)
    (r : RPFSDirHandle) (h : SameTables ((s.setDirHandle slot r).setDirHandle slot ⟨false, 0⟩) s') :
    SameTables s s' := by
  refine ⟨h.handles, ?_⟩
  rw [h.dirHandles, ← hs.dirHandles slot hfree]
  simp only [Storage.setDirHandle, Function.update_idem, Function.update_eq_self]

end SameTables

theorem freeSlot_spec {s : Storage σ} {slot : UInt8} (h : s.freeSlot = some slot) :
    slot < RP_FS_MAX_HANDLES ∧ (s.gRPFSHandles slot).in_use = false := by
  have hfound := List.find?_some h
  exact ⟨freeSlot_lt h, by simpa using hfound⟩

theorem freeDirSlot_spec {s : Storage σ} {slot : UInt8} (h : s.freeDirSlot = some slot) :
    slot < RP_FS_MAX_DIR_HANDLES ∧ (s.gRPFSDirHandles slot).in_use = false := by
  have hfound := List.find?_some h
  exact ⟨mem_bytesBelow.1 (List.mem_of_find?_eq_some h), by simpa using hfound⟩

theorem dirIsOpen_setDirHandle (s : Storage σ) {slot : UInt8} (hslot : slot < RP_FS_MAX_DIR_HANDLES)
    {r : RPFSDirHandle} (hr : r.in_use = true) : (s.setDirHandle slot r).dirIsOpen slot = true := by
  simp [Storage.dirIsOpen, Storage.setDirHandle, hslot, hr]

/-! ## Calls without a detach -/

/-- No call of FatFs changes the tables, as is the case when no device is detached in it. -/
structure TableLaws (ff : FatFs σ) : Prop where
  f_mount : ∀ device, Prog.Keeps SameTables (ff.f_mount device)
  f_open : ∀ slot path mode, Prog.Keeps SameTables (ff.f_open slot path mode)
  f_close : ∀ slot, Prog.Keeps SameTables (ff.f_close slot)
  f_read : ∀ slot len, Prog.Keeps SameTables (ff.f_read slot len)
  f_write : ∀ slot src, Prog.Keeps SameTables (ff.f_write slot src)
  f_lseek : ∀ slot position, Prog.Keeps SameTables (ff.f_lseek slot position)
  f_unlink : ∀ path, Prog.Keeps SameTables (ff.f_unlink path)
  f_rename : ∀ old_path new_path, Prog.Keeps SameTables (ff.f_rename old_path new_path)
  f_mkdir : ∀ path, Prog.Keeps SameTables (ff.f_mkdir path)
  f_opendir : ∀ slot path, Prog.Keeps SameTables (ff.f_opendir slot path)
  f_readdir : ∀ slot, Prog.Keeps SameTables (ff.f_readdir slot)
  f_closedir : ∀ slot, Prog.Keeps SameTables (ff.f_closedir slot)

/-- The flags of a handle opened in a mode. -/
def openFlags (mode : UInt8) : UInt8 :=
  if mode = 0x00 then RP_FS_HANDLE_READ
  else if mode = 0x01 ∨ mode = 0x02 then RP_FS_HANDLE_WRITE
  else RP_FS_HANDLE_READ ||| RP_FS_HANDLE_WRITE

/-- The open has failed and changed no slot, or has returned a free slot that it has set to `r`. -/
def OpensOne (r : RPFSHandle) (m : Prog (Storage σ) (Option UInt8)) : Prop :=
  ∀ s, (m.result s = none ∧ SameTables s (m.final s)) ∨
    ∃ slot < RP_FS_MAX_HANDLES, m.result s = some slot ∧ (s.gRPFSHandles slot).in_use = false ∧
      SameTables (s.setHandle slot r) (m.final s)

namespace TableLaws

variable {ff : FatFs σ} (laws : TableLaws ff)

include laws

theorem mount (device : UInt8) : Prog.Keeps SameTables (ensureMounted ff device) :=
  keeps_ensureMounted laws.f_mount (fun _ _ => ⟨rfl, rfl⟩) device

theorem accessCalls : AccessCalls ff SameTables where
  mount := laws.mount
  f_read := laws.f_read
  f_write := laws.f_write
  f_lseek := laws.f_lseek
  f_unlink := laws.f_unlink
  f_rename := laws.f_rename
  f_mkdir := laws.f_mkdir
  f_readdir := laws.f_readdir

theorem opensOne (device : UInt8) (filename : List UInt8) (mode flags : UInt8) :
    OpensOne ⟨true, device, flags⟩ (rpFsOpenMode83 ff device filename mode flags) := by
  intro s
  have hmount := laws.mount device s
  rcases rpFsOpenMode83_final ff device filename mode flags s with
    ⟨hres, hfin⟩ | ⟨slot, path, -, hslot, -, hopen⟩
  · exact .inl ⟨hres, hfin ▸ hmount⟩
  have hopened := trans_of SameTables hmount (laws.f_open slot path mode _)
  rcases hopen with ⟨hres, hfin⟩ | ⟨-, hres, hfin⟩
  · exact .inl ⟨hres, hfin ▸ hopened⟩
  · rw [hmount.freeSlot] at hslot
    obtain ⟨hlt, hfree⟩ := freeSlot_spec hslot
    exact .inr ⟨slot, hlt, hres, hfree, hfin ▸ hopened.setHandle slot _⟩

theorem opensOne_byMode {mode : UInt8} (hmode : mode ≤ RP_FS_OPEN_RW_CREATE) (device : UInt8)
    (path : List UInt8) : OpensOne ⟨true, device, openFlags mode⟩ (openByMode ff mode device path) := by
  have hcases : mode = 0 ∨ mode = 1 ∨ mode = 2 ∨ mode = 3 ∨ mode = 4 := by
    revert mode
    decide +kernel
  rcases hcases with rfl | rfl | rfl | rfl | rfl
  · exact laws.opensOne device path FA_READ _
  · exact laws.opensOne device path (FA_WRITE ||| FA_CREATE_ALWAYS) _
  · exact laws.opensOne device path (FA_READ ||| FA_WRITE ||| FA_OPEN_EXISTING) _
  · exact laws.opensOne device path (FA_READ ||| FA_WRITE ||| FA_OPEN_EXISTING) _
  · exact laws.opensOne device path (FA_READ ||| FA_WRITE ||| FA_OPEN_ALWAYS) _

theorem opendir_spec (device : UInt8) (dirname : List UInt8) (s : Storage σ) :
    let m := rpFsOpendir83 ff device dirname
    (m.result s = none ∧ SameTables s (m.final s)) ∨
      ∃ slot < RP_FS_MAX_DIR_HANDLES, m.result s = some slot ∧ (s.gRPFSDirHandles slot).in_use = false ∧
        SameTables (s.setDirHandle slot ⟨true, device⟩) (m.final s) := by
  have hmount := laws.mount device s
  rcases rpFsOpendir83_final ff device dirname s with
    ⟨hres, hfin⟩ | ⟨slot, path, -, hslot, -, hopen⟩
  · exact .inl ⟨hres, hfin ▸ hmount⟩
  have hopened := trans_of SameTables hmount (laws.f_opendir slot path _)
  rcases hopen with ⟨hres, hfin⟩ | ⟨-, hres, hfin⟩
  · exact .inl ⟨hres, hfin ▸ hopened⟩
  · rw [hmount.freeDirSlot] at hslot
    obtain ⟨hlt, hfree⟩ := freeDirSlot_spec hslot
    exact .inr ⟨slot, hlt, hres, hfree, hfin ▸ hopened.setDirHandle slot _⟩

/-- A close frees its slot whatever FatFs reports. -/
theorem close_spec {handle : UInt8} {s : Storage σ} (hopen : s.isOpen handle = true) :
    SameTables (s.setHandle handle ⟨false, 0, 0⟩) ((rpFsClose ff handle).final s) := by
  simp only [rpFsClose, Prog.final_bind, Prog.result_get, Prog.final_get, hopen, if_true,
    Prog.final_modify, Prog.final_pure]
  exact (laws.f_close handle s).setHandle handle _

theorem closedir_spec {handle : UInt8} {s : Storage σ} (hopen : s.dirIsOpen handle = true) :
    SameTables (s.setDirHandle handle ⟨false, 0⟩) ((rpFsClosedir ff handle).final s) := by
  simp only [rpFsClosedir, Prog.final_bind, Prog.result_get, Prog.final_get, hopen, if_true,
    Prog.final_modify, Prog.final_pure]
  exact (laws.f_closedir handle s).setDirHandle handle _

end TableLaws

/-! ## Operations -/

/-- The request has failed and changed no slot. -/
structure Refused (f f' : Firmware σ) : Prop where
  tables : SameTables f.storage f'.storage
  failed : f'.Failed

/-- The reply says that the request has been served, and returns a handle. -/
structure Returned (v : Machine.View) (handle : UInt8) : Prop where
  done : v.peek RP_STATUS = RP_DONE
  result : v.peek16 RP_RES0L = handle.toUInt16

/-- The reply returns one slot, which was free and now holds `r`; the other slots are the same. -/
def TakesHandle (r : RPFSHandle) (s s' : Storage σ) (v' : Machine.View) : Prop :=
  ∃ slot < RP_FS_MAX_HANDLES, Returned v' slot ∧ (s.gRPFSHandles slot).in_use = false ∧
    SameTables (s.setHandle slot r) s'

/-- The same for a directory. -/
def TakesDirHandle (r : RPFSDirHandle) (s s' : Storage σ) (v' : Machine.View) : Prop :=
  ∃ slot < RP_FS_MAX_DIR_HANDLES, Returned v' slot ∧ (s.gRPFSDirHandles slot).in_use = false ∧
    SameTables (s.setDirHandle slot r) s'

/-- The valid arguments of an OPEN. -/
def validOpen (raw : List UInt8) : Bool := !(RP_FS_OPEN_RW_CREATE < rawByte raw 4 || 9 < rawByte raw 5)

/-- The valid arguments of an OPENDIR or CHDIR. -/
def validDir (raw : List UInt8) : Bool := rawByte raw 5 = 0

theorem mode_of_validOpen {raw : List UInt8} (h : validOpen raw = true) :
    rawByte raw 4 ≤ RP_FS_OPEN_RW_CREATE := by
  simp only [validOpen, Bool.not_eq_true', Bool.or_eq_false_iff, decide_eq_false_iff_not] at h
  exact UInt8.not_lt.1 h.1

theorem refused_error {f : Firmware σ} (hf : f.hw.Settled) (err : UInt8) (partialResult : UInt16) :
    Refused f ((fsMbError err partialResult).final f) := by
  obtain ⟨hstorage, hfailed⟩ := error_spec hf err partialResult
  exact ⟨.of_eq hstorage, hfailed⟩

theorem refused_deviceError {f : Firmware σ} (hf : f.hw.Settled) (device : UInt8) :
    Refused f ((fsMbDeviceError device).final f) := by
  obtain ⟨hstorage, hfailed⟩ := deviceError_spec hf device
  exact ⟨.of_eq hstorage, hfailed⟩

theorem Refused.of_tables {f g f' : Firmware σ} (h : SameTables f.storage g.storage) (h' : Refused g f') :
    Refused f f' :=
  ⟨trans_of SameTables h h'.tables, h'.failed⟩

theorem returned_done {f : Firmware σ} (hf : f.hw.Settled) (handle flags : UInt8) :
    Returned ((fsMbDone handle.toUInt16 flags).final f).hw.view handle ∧
      ((fsMbDone handle.toUInt16 flags).final f).storage = f.storage := by
  obtain ⟨hstorage, hdone, hresult⟩ := done_spec hf handle.toUInt16 flags
  exact ⟨⟨hdone, hresult⟩, hstorage⟩

section Operations

variable {ff : FatFs σ} {f : Firmware σ} (hf : f.hw.Settled) (pid context : UInt8) (args_ptr : UInt16)

include hf

/-- An operation on one path is refused, or goes on with its block and its path. -/
theorem withArgsPath_cases {A : List UInt8 → RPFSResolvedPath → Firmware σ → Prop} {length : UInt16}
    {valid : List UInt8 → Bool} {path_ptr max_len : List UInt8 → UInt16} {device : List UInt8 → UInt8}
    {operation : List UInt8 → RPFSResolvedPath → Prog (Firmware σ) MailboxState}
    (haccepted : ∀ f₁ raw path, f₁.hw.Settled → f₁.storage = f.storage → valid raw = true →
      let f' := (operation raw path).final f₁
      Refused f₁ f' ∨ A raw path f') :
    let f' := (withArgs context args_ptr length valid fun raw =>
      withPath pid context (path_ptr raw) (max_len raw) (device raw) (operation raw)).final f
    Refused f f' ∨ ∃ raw path, f.hw.view.blockAndPath f.gRPFSProcessCwd pid context args_ptr length valid
      path_ptr max_len device = some (raw, path) ∧ A raw path f' := by
  intro f'
  obtain ⟨f₁, hread, -, hfin⟩ := final_withArgsPath (readRules_readsOnly context) hf pid args_ptr length
    valid path_ptr max_len device operation
  have hf₁ := (hread.board hf).1
  have htables : SameTables f.storage f₁.storage := .of_eq hread.storage
  rw [show f' = _ from hfin]
  rcases hargs : f.hw.view.blockAndPath f.gRPFSProcessCwd pid context args_ptr length valid path_ptr
    max_len device with - | ⟨raw, path⟩
  · exact .inl ((refused_error hf₁ RP_ERR_EINVAL 0).of_tables htables)
  rcases haccepted f₁ raw path hf₁ hread.storage (Machine.View.valid_of_blockAndPath hargs) with
    hrefused | haccepted
  · exact .inl (hrefused.of_tables htables)
  · exact .inr ⟨raw, path, rfl, haccepted⟩

variable (laws : TableLaws ff)

include laws

/-- An OPEN is refused, or takes one slot for the path and the mode of its block. -/
theorem exec_open : let f' := (rpFsMbExecOpen ff pid context args_ptr).final f
    Refused f f' ∨ ∃ raw path, f.hw.view.blockAndPath f.gRPFSProcessCwd pid context args_ptr 6 validOpen
      (rpFsMbU16 · 0) (rpFsMbU16 · 2) (rawByte · 5) = some (raw, path) ∧
        TakesHandle ⟨true, path.device, openFlags (rawByte raw 4)⟩ f.storage f'.storage f'.hw.view := by
  refine withArgsPath_cases hf pid context args_ptr
    (A := fun raw path f' => TakesHandle ⟨true, path.device, openFlags (rawByte raw 4)⟩ f.storage f'.storage f'.hw.view) fun f₁ raw path hf₁ hstorage hvalid => ?_
  rw [Prog.final_bind, Prog.result_get, Prog.final_get, Prog.final_ite]
  split
  · exact .inl (refused_error hf₁ _ _)
  simp only [Prog.final_bind, onStorage, Prog.result_on, Prog.final_on]
  rcases laws.opensOne_byMode (mode_of_validOpen hvalid) path.device path.path f₁.storage with
    ⟨hres, htables⟩ | ⟨slot, hslot, hres, hfree, htables⟩
  · rw [hres]
    generalize (openByMode ff _ _ _).final f₁.storage = s at htables
    exact .inl ((refused_deviceError (f := { f₁ with storage := s }) hf₁ path.device).of_tables htables)
  · rw [hres]
    generalize (openByMode ff _ _ _).final f₁.storage = s at htables
    obtain ⟨hreturned, hs⟩ := returned_done (f := { f₁ with storage := s }) hf₁ slot path.device
    rw [hstorage] at hfree htables
    exact .inr ⟨slot, hslot, hreturned, hfree, trans_of SameTables htables (.of_eq hs)⟩

/-- An OPENDIR is refused, or takes one slot for the path of its block. -/
theorem exec_opendir : let f' := (rpFsMbExecOpendir ff pid context args_ptr).final f
    Refused f f' ∨ ∃ raw path, f.hw.view.blockAndPath f.gRPFSProcessCwd pid context args_ptr 6 validDir
      (rpFsMbU16 · 0) (rpFsMbU16 · 2) (rawByte · 4) = some (raw, path) ∧
        TakesDirHandle ⟨true, path.device⟩ f.storage f'.storage f'.hw.view := by
  refine withArgsPath_cases hf pid context args_ptr
    (A := fun raw path f' => TakesDirHandle ⟨true, path.device⟩ f.storage f'.storage f'.hw.view) fun f₁ raw path hf₁ hstorage hvalid => ?_
  simp only [Prog.final_bind, onStorage, Prog.result_on, Prog.final_on]
  rcases laws.opendir_spec path.device path.path f₁.storage with
    ⟨hres, htables⟩ | ⟨slot, hslot, hres, hfree, htables⟩
  · rw [hres]
    generalize (rpFsOpendir83 ff _ _).final f₁.storage = s at htables
    exact .inl ((refused_deviceError (f := { f₁ with storage := s }) hf₁ path.device).of_tables htables)
  · rw [hres]
    generalize (rpFsOpendir83 ff _ _).final f₁.storage = s at htables
    obtain ⟨hreturned, hs⟩ := returned_done (f := { f₁ with storage := s }) hf₁ slot path.device
    rw [hstorage] at hfree htables
    exact .inr ⟨slot, hslot, hreturned, hfree, trans_of SameTables htables (.of_eq hs)⟩

omit pid context args_ptr in
/-- A CLOSE frees the slot of a handle in use, whatever FatFs reports. -/
theorem exec_close (handle : UInt8) : let f' := (rpFsMbExecClose ff handle).final f
    if f.storage.isOpen handle then SameTables (f.storage.setHandle handle ⟨false, 0, 0⟩) f'.storage
    else SameTables f.storage f'.storage := by
  have hrules : RequestRules (OnStorage (σ := σ) SameTables) SameTables 0 := requestRules_onStorage 0
  simp only [rpFsMbExecClose, withOpen, Prog.final_bind, Prog.result_get, Prog.final_get, Prog.final_ite]
  split
  · rename_i hopen
    have hclose := laws.close_spec hopen
    simp only [onStorage, Prog.result_on, Prog.final_on]
    generalize (rpFsClose ff handle).final f.storage = s at hclose ⊢
    split
    · exact trans_of SameTables hclose (hrules.done 0 0 { f with storage := s })
    · exact trans_of SameTables hclose (hrules.error RP_ERR_EIO 0 { f with storage := s })
  · exact (refused_error hf RP_ERR_EINVAL 0).tables

omit pid context args_ptr in
theorem exec_closedir (handle : UInt8) : let f' := (rpFsMbExecClosedir ff handle).final f
    if f.storage.dirIsOpen handle then SameTables (f.storage.setDirHandle handle ⟨false, 0⟩) f'.storage
    else SameTables f.storage f'.storage := by
  have hrules : RequestRules (OnStorage (σ := σ) SameTables) SameTables 0 := requestRules_onStorage 0
  simp only [rpFsMbExecClosedir, withOpen, Prog.final_bind, Prog.result_get, Prog.final_get, Prog.final_ite]
  split
  · rename_i hopen
    have hclose := laws.closedir_spec hopen
    simp only [onStorage, Prog.result_on, Prog.final_on]
    generalize (rpFsClosedir ff handle).final f.storage = s at hclose ⊢
    split
    · exact trans_of SameTables hclose (hrules.done 0 0 { f with storage := s })
    · exact trans_of SameTables hclose (hrules.error RP_ERR_EIO 0 { f with storage := s })
  · exact (refused_error hf RP_ERR_EINVAL 0).tables

end Operations

/-! ## Slots that are borrowed -/

/-- With blank free slots the tables end as they began. -/
def TablesKept (s s' : Storage σ) : Prop := s.Blank → SameTables s s'

instance : Std.Refl (TablesKept (σ := σ)) where
  refl s _ := refl s

instance : IsTrans (Storage σ) TablesKept where
  trans _ _ _ h h' := fun hs => trans_of SameTables (h hs) (h' ((h hs).blank hs))

theorem TablesKept.of_keeps {p : Prog (Storage σ) α} (h : Prog.Keeps SameTables p) : Prog.Keeps TablesKept p :=
  h.mono fun _ _ h _ => h

section Borrowed

variable {ff : FatFs σ} (laws : TableLaws ff) (pid context : UInt8)

include laws

theorem accessRules_tablesKept : AccessRules ff TablesKept := by
  have haccess := laws.accessCalls.accessRules
  exact ⟨fun op device path => .of_keeps (haccess.singlePath op device path),
    fun device old_path new_path => .of_keeps (haccess.rename device old_path new_path),
    fun handle n => .of_keeps (haccess.readdir handle n), fun handle len => .of_keeps (haccess.read handle len),
    fun handle src => .of_keeps (haccess.write handle src),
    fun handle position => .of_keeps (haccess.seek handle position)⟩

/-- A CHDIR gives back the slot it borrows. -/
theorem tablesKept_chdir (args_ptr : UInt16) :
    Prog.Keeps (OnStorage TablesKept) (rpFsMbExecChdir ff pid context args_ptr) := by
  have hrules : RequestRules (OnStorage (σ := σ) TablesKept) TablesKept context := requestRules_onStorage _
  refine hrules.withArgs fun raw => hrules.withPath fun path f hblank => ?_
  simp only [Prog.final_bind, onStorage, Prog.result_on, Prog.final_on]
  rcases laws.opendir_spec path.device path.path f.storage with
    ⟨hres, htables⟩ | ⟨slot, hslot, hres, hfree, htables⟩
  · rw [hres]
    generalize (rpFsOpendir83 ff _ _).final f.storage = s at htables
    have herror := hrules.deviceError path.device { f with storage := s }
    exact trans_of SameTables htables (herror (htables.blank hblank))
  · rw [hres]
    generalize (rpFsOpendir83 ff _ _).final f.storage = s at htables
    have hopen : s.dirIsOpen slot = true := by
      rw [htables.dirIsOpen]
      exact dirIsOpen_setDirHandle f.storage hslot rfl
    have hback : SameTables f.storage ((rpFsClosedir ff slot).final s) :=
      SameTables.giveBackDir hblank hfree _ (trans_of SameTables (htables.setDirHandle slot _)
        (laws.closedir_spec hopen))
    simp only [Prog.final_bind, Prog.result_on, Prog.final_on]
    generalize (rpFsClosedir ff slot).final s = s₁ at hback
    have hset : Prog.Keeps (OnStorage (TablesKept (σ := σ))) (setCwd pid path) :=
      Prog.Keeps.get.bind fun _ => (hrules.cwd _).bind fun _ => Prog.Keeps.pure _
    have hend : ∀ close_ok : Bool, Prog.Keeps (OnStorage (TablesKept (σ := σ))) (do
        if close_ok = false then
          fsMbError RP_ERR_EIO 0
        else
          if ← setCwd pid path then
            fsMbDone 0 path.device
          else
            fsMbError RP_ERR_EIO 0) := fun close_ok =>
      Prog.Keeps.ite (fun _ => hrules.error _ _) fun _ => hset.bind fun ok =>
        Prog.Keeps.ite (fun _ => hrules.done _ _) fun _ => hrules.error _ _
    exact trans_of SameTables hback (hend _ { f with storage := s₁ } (hback.blank hblank))

theorem bulkOpen_spec (op device : UInt8) (path : List UInt8) (requested : Nat) (s : Storage σ) :
    let m := bulkOpen ff op device path requested
    ((m.result s).1 = none ∧ SameTables s (m.final s)) ∨
      ∃ slot < RP_FS_MAX_HANDLES, ∃ r : RPFSHandle, r.in_use = true ∧ (m.result s).1 = some slot ∧
        (s.gRPFSHandles slot).in_use = false ∧ SameTables (s.setHandle slot r) (m.final s) := by
  intro m
  obtain ⟨hfin, hres⟩ := bulkOpen_eq_open ff op device path requested s
  rw [show m.final s = _ from hfin, show (m.result s).1 = _ from hres]
  rcases laws.opensOne device path (bulkMode op) (bulkFlags op) s with
    ⟨hres, htables⟩ | ⟨slot, hslot, hres, hfree, htables⟩
  · exact .inl ⟨hres, htables⟩
  · exact .inr ⟨slot, hslot, _, rfl, hres, hfree, htables⟩

/-- Every exit of a transfer closes the handle once. -/
theorem bulkTransfer_spec (hread : ReadsAtMost ff) (op device : UInt8) (mem_ptr : UInt16) (n : Nat)
    {handle : UInt8} {f : Firmware σ} (hopen : f.storage.isOpen handle = true) :
    SameTables (f.storage.setHandle handle ⟨false, 0, 0⟩)
      ((bulkTransfer ff op context device handle mem_ptr n).final f).storage := by
  have hrules : RequestRules (OnStorage (σ := σ) SameTables) SameTables context := requestRules_onStorage _
  have haccess := laws.accessCalls.accessRules
  have hloop : Prog.Keeps (OnStorage SameTables) (withContext context (bulkLoop ff op handle mem_ptr n 0)) :=
    onStorage_withContext <| keeps_bulkLoop hread (fun _ => hrules.storage _ (haccess.read handle _))
      (fun _ _ => hrules.storage _ (haccess.write handle _)) (fun _ _ => onStorage_onHw _)
      (fun _ _ _ _ => onStorage_onHw _) 0
  -- Behind a part that keeps the tables, a close and a reply.
  have hclosed : ∀ (g : Firmware σ), SameTables f.storage g.storage →
      ∀ k : Prog (Firmware σ) MailboxState, Prog.Keeps (OnStorage SameTables) k →
        SameTables (f.storage.setHandle handle ⟨false, 0, 0⟩)
          (k.final { g with storage := (rpFsClose ff handle).final g.storage }).storage := by
    intro g hg k hk
    have hclose := laws.close_spec (by rw [hg.isOpen]; exact hopen : g.storage.isOpen handle = true)
    exact trans_of SameTables (trans_of SameTables (hg.setHandle handle _) hclose)
      (hk { g with storage := (rpFsClose ff handle).final g.storage })
  simp only [bulkTransfer, Prog.final_ite, Prog.final_bind, Prog.final_discard]
  split
  · exact hclosed f (refl f.storage) _ (hrules.error _ _)
  have htransferred : SameTables f.storage _ := hloop f
  generalize (withContext context (bulkLoop ff op handle mem_ptr n 0)).final f = g at htransferred ⊢
  rcases (withContext context (bulkLoop ff op handle mem_ptr n 0)).result f with - | ⟨total, failed⟩
  · simp only [Prog.final_bind, Prog.final_discard]
    exact hclosed g htransferred _ (hrules.error _ _)
  · simp only [Prog.final_bind, Prog.final_ite]
    split
    · exact hclosed g htransferred _ (hrules.error _ _)
    · exact hclosed g htransferred _ (hrules.done _ _)

/-- A SAVE or LOAD gives back the slot it borrows. -/
theorem tablesKept_bulkOnPath (hread : ReadsAtMost ff) (op : UInt8) (path : RPFSResolvedPath)
    (mem_ptr size_word : UInt16) :
    Prog.Keeps (OnStorage TablesKept) (bulkOnPath ff op context path mem_ptr size_word) := by
  intro f hblank
  have hrules : RequestRules (OnStorage (σ := σ) SameTables) SameTables context := requestRules_onStorage _
  have hopen := bulkOpen_spec laws op path.device path.path (rpFsMbEffective16bitSize size_word) f.storage
  dsimp only at hopen
  simp only [bulkOnPath, Prog.final_bind, onStorage, Prog.result_on, Prog.final_on]
  generalize (bulkOpen ff op path.device path.path _).final f.storage = s at hopen ⊢
  generalize (bulkOpen ff op path.device path.path _).result f.storage = opened at hopen ⊢
  obtain ⟨handle, n⟩ := opened
  rcases hopen with ⟨rfl, htables⟩ | ⟨slot, hslot, r, hr, rfl, hfree, htables⟩
  · exact trans_of SameTables htables (hrules.deviceError path.device { f with storage := s })
  · have hin : s.isOpen slot = true := by
      rw [htables.isOpen]
      exact isOpen_setHandle f.storage hslot hr
    exact SameTables.giveBack hblank hfree r (trans_of SameTables (htables.setHandle slot _)
      (bulkTransfer_spec laws context hread op path.device mem_ptr n (f := { f with storage := s }) hin))

/-- Whatever takes no slot for its client and frees none ends with the tables it began with. -/
theorem tablesKept_checkedOperation (hread : ReadsAtMost ff) {op : UInt8} (hopen : op ≠ RP_FS_OP_OPEN)
    (hclose : op ≠ RP_FS_OP_CLOSE) (hopendir : op ≠ RP_FS_OP_OPENDIR) (hclosedir : op ≠ RP_FS_OP_CLOSEDIR) :
    Prog.Keeps (OnStorage TablesKept) (checkedOperation ff op pid context) := by
  have hrules : RequestRules (OnStorage (σ := σ) TablesKept) TablesKept context := requestRules_onStorage _
  have haccess := accessRules_tablesKept laws
  refine hrules.toTransferRules.keeps_checkedOperation pid hrules.cwd
    (hrules.keeps_resultOperation haccess pid hread) (fun hop => ?_)
    (hrules.toTransferRules.keeps_changeOperation haccess pid)
    (fun _ _ => hrules.keeps_execBulk (tablesKept_bulkOnPath laws context hread op))
    fun h => absurd h hopen
  simp only [handleOperations, List.mem_cons, List.not_mem_nil, or_false] at hop
  rcases hop with h | h | h | rfl
  · exact absurd h hclose
  · exact absurd h hopendir
  · exact absurd h hclosedir
  · rw [execOperation_chdir]
    exact hrules.arg0 fun _ => tablesKept_chdir laws pid context _

end Borrowed

end NeoMmu
