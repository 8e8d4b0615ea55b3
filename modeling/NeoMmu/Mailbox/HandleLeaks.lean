import NeoMmu.Mailbox.HandleTables

/-!
# No handle leaks

A request takes one slot of the handle tables for its client, frees one, or ends with the tables it began
with. It does so in every state the firmware can reach, for there a free slot is blank, as long as no
device is detached inside of its calls of FatFs.
-/

namespace NeoMmu

variable {τ σ α : Type}

/-! ## Requests -/

namespace Firmware

variable (f : Firmware σ)

/-- The arguments of an OPEN in the block, with its mode, and its path. -/
def openRequest : Option (List UInt8 × RPFSResolvedPath) :=
  f.hw.view.blockAndPath f.gRPFSProcessCwd (f.hw.view.peek RP_ARG1L) (f.hw.view.peek RP_ARG1H)
    (f.hw.view.peek16 RP_ARG0L) 6 validOpen (rpFsMbU16 · 0) (rpFsMbU16 · 2) (rawByte · 5)

/-- The arguments of an OPENDIR in the block, and its path. -/
def opendirRequest : Option (List UInt8 × RPFSResolvedPath) :=
  f.hw.view.blockAndPath f.gRPFSProcessCwd (f.hw.view.peek RP_ARG1L) (f.hw.view.peek RP_ARG1H)
    (f.hw.view.peek16 RP_ARG0L) 6 validDir (rpFsMbU16 · 0) (rpFsMbU16 · 2) (rawByte · 4)

/-- The request passes the check of PID and context. -/
def Admitted : Prop :=
  ¬ (RP_FS_NEOX_MAX_PROCS ≤ f.hw.view.peek RP_ARG1L ∨ maxContexts ≤ f.hw.view.peek RP_ARG1H)

end Firmware

/-- What a request may do to the handle tables, where a CLOSE or CLOSEDIR has to be `admitted`. -/
inductive HandleEffect (admitted : Firmware σ → Prop) (f f' : Firmware σ) : Prop
  /-- A successful OPEN returns the slot it takes. -/
  | opened (raw : List UInt8) (path : RPFSResolvedPath) (hop : f.hw.view.peek RP_STATE = RP_FS_OP_OPEN)
      (hdone : f'.hw.view.peek RP_STATUS = RP_DONE) (hrequest : f.openRequest = some (raw, path))
      (htaken : TakesHandle ⟨true, path.device, openFlags (rawByte raw 4)⟩ f.storage f'.storage f'.hw.view)
  /-- A successful OPENDIR returns the slot it takes. -/
  | openedDir (raw : List UInt8) (path : RPFSResolvedPath)
      (hop : f.hw.view.peek RP_STATE = RP_FS_OP_OPENDIR) (hdone : f'.hw.view.peek RP_STATUS = RP_DONE)
      (hrequest : f.opendirRequest = some (raw, path))
      (htaken : TakesDirHandle ⟨true, path.device⟩ f.storage f'.storage f'.hw.view)
  /-- A CLOSE of a handle in use frees its slot. -/
  | closed (hop : f.hw.view.peek RP_STATE = RP_FS_OP_CLOSE) (hadmitted : admitted f)
      (hopen : f.storage.isOpen (f.hw.view.peek RP_ARG2L) = true)
      (htables : SameTables (f.storage.setHandle (f.hw.view.peek RP_ARG2L) ⟨false, 0, 0⟩) f'.storage)
  /-- A CLOSEDIR of a handle in use frees its slot. -/
  | closedDir (hop : f.hw.view.peek RP_STATE = RP_FS_OP_CLOSEDIR) (hadmitted : admitted f)
      (hopen : f.storage.dirIsOpen (f.hw.view.peek RP_ARG2L) = true)
      (htables : SameTables (f.storage.setDirHandle (f.hw.view.peek RP_ARG2L) ⟨false, 0⟩) f'.storage)
  /-- Every other request, and every OPEN or OPENDIR that fails, leaves the tables alone. -/
  | unchanged (hopen : f.hw.view.peek RP_STATE = RP_FS_OP_OPEN ∨ f.hw.view.peek RP_STATE = RP_FS_OP_OPENDIR →
        f'.hw.view.peek RP_STATUS ≠ RP_DONE)
      (hclose : f.hw.view.peek RP_STATE = RP_FS_OP_CLOSE → admitted f →
        f.storage.isOpen (f.hw.view.peek RP_ARG2L) = false)
      (hclosedir : f.hw.view.peek RP_STATE = RP_FS_OP_CLOSEDIR → admitted f →
        f.storage.dirIsOpen (f.hw.view.peek RP_ARG2L) = false)
      (htables : SameTables f.storage f'.storage)

/-- A request that fails and changes no slot, with nothing to close. -/
theorem HandleEffect.of_refused {admitted : Firmware σ → Prop} {f f' : Firmware σ} (h : Refused f f')
    (hclose : f.hw.view.peek RP_STATE = RP_FS_OP_CLOSE → ¬ admitted f)
    (hclosedir : f.hw.view.peek RP_STATE = RP_FS_OP_CLOSEDIR → ¬ admitted f) : HandleEffect admitted f f' := by
  refine .unchanged (fun _ hdone => ?_) (fun hop had => absurd had (hclose hop))
    (fun hop had => absurd had (hclosedir hop)) h.tables
  exact absurd (h.failed.symm.trans hdone) (by decide)

section Requests

variable {ff : FatFs σ} (laws : TableLaws ff) {f : Firmware σ} (hf : f.hw.Settled)

include laws hf

/-- An OPEN behind the check of PID and context. -/
theorem checked_open :
    let f' := (checkedOperation ff RP_FS_OP_OPEN (f.hw.view.peek RP_ARG1L) (f.hw.view.peek RP_ARG1H)).final f
    Refused f f' ∨ ∃ raw path, f.openRequest = some (raw, path) ∧
      TakesHandle ⟨true, path.device, openFlags (rawByte raw 4)⟩ f.storage f'.storage f'.hw.view := by
  rw [checkedOperation, Prog.final_ite]
  split
  · exact .inl (refused_error hf _ _)
  obtain ⟨hargs, hview, hm⟩ := rpRead16_spec hf RP_ARG0L
  rw [execOperation_open, readArg0, Prog.final_bind, onHw, Prog.result_on, Prog.final_on, hargs]
  generalize (rpRead16 RP_ARG0L).final f.hw = m at hview hm
  have hopen := exec_open (f := { f with hw := m }) hm (f.hw.view.peek RP_ARG1L) (f.hw.view.peek RP_ARG1H)
    (f.hw.view.peek16 RP_ARG0L) laws
  rw [Firmware.openRequest, ← hview]
  rw [← hview] at hopen
  rcases hopen with hrefused | hopened
  · exact .inl ⟨hrefused.tables, hrefused.failed⟩
  · exact .inr hopened

/-- An OPENDIR behind the check. -/
theorem checked_opendir : let f' := (checkedOperation ff RP_FS_OP_OPENDIR (f.hw.view.peek RP_ARG1L)
      (f.hw.view.peek RP_ARG1H)).final f
    Refused f f' ∨ ∃ raw path, f.opendirRequest = some (raw, path) ∧
      TakesDirHandle ⟨true, path.device⟩ f.storage f'.storage f'.hw.view := by
  rw [checkedOperation, Prog.final_ite]
  split
  · exact .inl (refused_error hf _ _)
  obtain ⟨hargs, hview, hm⟩ := rpRead16_spec hf RP_ARG0L
  rw [execOperation_opendir, readArg0, Prog.final_bind, onHw, Prog.result_on, Prog.final_on, hargs]
  generalize (rpRead16 RP_ARG0L).final f.hw = m at hview hm
  have hopen := exec_opendir (f := { f with hw := m }) hm (f.hw.view.peek RP_ARG1L)
    (f.hw.view.peek RP_ARG1H) (f.hw.view.peek16 RP_ARG0L) laws
  rw [Firmware.opendirRequest, ← hview]
  rw [← hview] at hopen
  rcases hopen with hrefused | hopened
  · exact .inl ⟨hrefused.tables, hrefused.failed⟩
  · exact .inr hopened

omit hf in
/-- A CLOSE behind the check. -/
theorem checked_close (hf : f.hw.Settled) (admitted : f.Admitted) : let f' := (checkedOperation ff
      RP_FS_OP_CLOSE (f.hw.view.peek RP_ARG1L) (f.hw.view.peek RP_ARG1H)).final f
    if f.storage.isOpen (f.hw.view.peek RP_ARG2L) then
      SameTables (f.storage.setHandle (f.hw.view.peek RP_ARG2L) ⟨false, 0, 0⟩) f'.storage
    else SameTables f.storage f'.storage := by
  obtain ⟨hhandle, -, hm⟩ := snoopRead6502MemoryLoc_spec hf RP_ARG2L
  rw [checkedOperation, if_neg admitted, execOperation_close, readArg2L, Prog.final_bind, onHw,
    Prog.result_on, Prog.final_on, hhandle]
  exact exec_close (f := { f with hw := _ }) hm laws _

omit hf in
/-- A CLOSEDIR behind the check. -/
theorem checked_closedir (hf : f.hw.Settled) (admitted : f.Admitted) : let f' := (checkedOperation ff
      RP_FS_OP_CLOSEDIR (f.hw.view.peek RP_ARG1L) (f.hw.view.peek RP_ARG1H)).final f
    if f.storage.dirIsOpen (f.hw.view.peek RP_ARG2L) then
      SameTables (f.storage.setDirHandle (f.hw.view.peek RP_ARG2L) ⟨false, 0⟩) f'.storage
    else SameTables f.storage f'.storage := by
  obtain ⟨hhandle, -, hm⟩ := snoopRead6502MemoryLoc_spec hf RP_ARG2L
  rw [checkedOperation, if_neg admitted, execOperation_closedir, readArg2L, Prog.final_bind, onHw,
    Prog.result_on, Prog.final_on, hhandle]
  exact exec_closedir (f := { f with hw := _ }) hm laws _

omit laws in
/-- What is not admitted changes no slot. -/
theorem checked_refused (hrefused : ¬ f.Admitted) (op : UInt8) : Refused f
    ((checkedOperation ff op (f.hw.view.peek RP_ARG1L) (f.hw.view.peek RP_ARG1H)).final f) := by
  rw [checkedOperation, if_pos (not_not.1 hrefused)]
  exact refused_error hf _ _

/-- The effect of a checked operation. -/
theorem handleEffect_checked (hread : ReadsAtMost ff) (hblank : f.storage.Blank) {op : UInt8}
    (hop : f.hw.view.peek RP_STATE = op) : HandleEffect Firmware.Admitted f
      ((checkedOperation ff op (f.hw.view.peek RP_ARG1L) (f.hw.view.peek RP_ARG1H)).final f) := by
  by_cases hadmitted : f.Admitted
  swap
  · exact .of_refused (checked_refused hf hadmitted op) (fun _ => hadmitted) fun _ => hadmitted
  by_cases hopen : op = RP_FS_OP_OPEN
  · subst hopen
    rcases checked_open laws hf with hrefused | ⟨raw, path, hrequest, htaken⟩
    · exact .of_refused hrefused (fun h => absurd (hop.symm.trans h) (by decide))
        fun h => absurd (hop.symm.trans h) (by decide)
    · obtain ⟨slot, hslot, hreturned, hfree, htables⟩ := htaken
      exact .opened raw path hop hreturned.done hrequest ⟨slot, hslot, hreturned, hfree, htables⟩
  by_cases hopendir : op = RP_FS_OP_OPENDIR
  · subst hopendir
    rcases checked_opendir laws hf with hrefused | ⟨raw, path, hrequest, htaken⟩
    · exact .of_refused hrefused (fun h => absurd (hop.symm.trans h) (by decide))
        fun h => absurd (hop.symm.trans h) (by decide)
    · obtain ⟨slot, hslot, hreturned, hfree, htables⟩ := htaken
      exact .openedDir raw path hop hreturned.done hrequest ⟨slot, hslot, hreturned, hfree, htables⟩
  have hnot : ¬ (f.hw.view.peek RP_STATE = RP_FS_OP_OPEN ∨ f.hw.view.peek RP_STATE = RP_FS_OP_OPENDIR) := by
    rw [hop]
    exact not_or.2 ⟨hopen, hopendir⟩
  by_cases hclose : op = RP_FS_OP_CLOSE
  · subst hclose
    have hspec := checked_close laws hf hadmitted
    dsimp only at hspec
    split at hspec
    · exact .closed hop hadmitted ‹_› hspec
    · exact .unchanged (fun h => absurd h hnot) (fun _ _ => Bool.not_eq_true _ ▸ ‹_›)
        (fun h => absurd (hop.symm.trans h) (by decide)) hspec
  by_cases hclosedir : op = RP_FS_OP_CLOSEDIR
  · subst hclosedir
    have hspec := checked_closedir laws hf hadmitted
    dsimp only at hspec
    split at hspec
    · exact .closedDir hop hadmitted ‹_› hspec
    · exact .unchanged (fun h => absurd h hnot) (fun h => absurd (hop.symm.trans h) (by decide))
        (fun _ _ => Bool.not_eq_true _ ▸ ‹_›) hspec
  exact .unchanged (fun h => absurd h hnot) (fun h => absurd (hop.symm.trans h) hclose)
    (fun h => absurd (hop.symm.trans h) hclosedir)
    (tablesKept_checkedOperation laws _ _ hread hopen hclose hopendir hclosedir f hblank)

/-- A request takes one slot for its client, frees one, or ends with the tables it began with. -/
theorem handleEffect_request (hread : ReadsAtMost ff) (hblank : f.storage.Blank) :
    HandleEffect Firmware.Admitted f ((rpFsMailboxHandleExec ff).final f) := by
  obtain ⟨m₀, op, pid, context, hblock, -, hfin⟩ := final_rpFsMailboxHandleExec ff f
  obtain ⟨hm₀, hview₀, rfl, rfl, rfl⟩ := hblock hf
  have hchecked := handleEffect_checked laws (f := { f with hw := m₀ }) hm₀ hread hblank
    (congrArg (·.peek RP_STATE) hview₀)
  rw [hfin]
  dsimp only at hchecked
  rw [hview₀] at hchecked
  generalize (checkedOperation ff _ _ _).final { f with hw := m₀ } = g at hchecked ⊢
  have hopen : ({ f with hw := m₀ } : Firmware σ).openRequest = f.openRequest := by
    rw [Firmware.openRequest, Firmware.openRequest, ← hview₀]
  have hopendir : ({ f with hw := m₀ } : Firmware σ).opendirRequest = f.opendirRequest := by
    rw [Firmware.opendirRequest, Firmware.opendirRequest, ← hview₀]
  have hadmits : ({ f with hw := m₀ } : Firmware σ).Admitted ↔ f.Admitted := by
    rw [Firmware.Admitted, Firmware.Admitted, ← hview₀]
  cases hchecked with
  | opened raw path hop hdone hrequest htaken =>
    rw [hview₀] at hop
    exact .opened raw path hop hdone (hopen ▸ hrequest) htaken
  | openedDir raw path hop hdone hrequest htaken =>
    rw [hview₀] at hop
    exact .openedDir raw path hop hdone (hopendir ▸ hrequest) htaken
  | closed hop hadmitted hin htables =>
    rw [hview₀] at hop hin htables
    exact .closed hop (hadmits.1 hadmitted) hin htables
  | closedDir hop hadmitted hin htables =>
    rw [hview₀] at hop hin htables
    exact .closedDir hop (hadmits.1 hadmitted) hin htables
  | unchanged hnot hclose hclosedir htables =>
    rw [hview₀] at hnot hclose hclosedir
    exact .unchanged hnot (fun h had => hclose h (hadmits.2 had)) (fun h had => hclosedir h (hadmits.2 had))
      htables

end Requests

/-! ## Runs -/

/-- Blank slots stay blank. -/
def Blanking (s s' : Storage σ) : Prop := s.Blank → s'.Blank

instance : Std.Refl (Blanking (σ := σ)) where
  refl _ := id

instance : IsTrans (Storage σ) Blanking where
  trans _ _ _ h h' := fun hs => h' (h hs)

theorem Storage.Blank.setHandle {s : Storage σ} (hs : s.Blank) (i : UInt8) {r : RPFSHandle}
    (hr : r.in_use = false → r = ⟨false, 0, 0⟩) : (s.setHandle i r).Blank := by
  refine ⟨fun j hj => ?_, hs.dirHandles⟩
  by_cases heq : j = i
  · subst heq
    simp only [Storage.setHandle, Function.update_self] at hj ⊢
    exact hr hj
  · simp only [Storage.setHandle, Function.update_of_ne heq] at hj ⊢
    exact hs.handles j hj

theorem Storage.Blank.setDirHandle {s : Storage σ} (hs : s.Blank) (i : UInt8) {r : RPFSDirHandle}
    (hr : r.in_use = false → r = ⟨false, 0⟩) : (s.setDirHandle i r).Blank := by
  refine ⟨hs.handles, fun j hj => ?_⟩
  by_cases heq : j = i
  · subst heq
    simp only [Storage.setDirHandle, Function.update_self] at hj ⊢
    exact hr hj
  · simp only [Storage.setDirHandle, Function.update_of_ne heq] at hj ⊢
    exact hs.dirHandles j hj

theorem keptByTables_blanking : KeptByTables (Blanking (σ := UsbHost τ)) :=
  fun _ _ hhandles hdirHandles _ hs => SameTables.blank ⟨hhandles, hdirHandles⟩ hs

section Blanking

variable {ff : UsbFatFs τ}

theorem detachRules_blanking (hclose : ∀ slot, Prog.Keeps Blanking (ff.f_close slot))
    (hclosedir : ∀ slot, Prog.Keeps Blanking (ff.f_closedir slot))
    (hunmount : ∀ device, Prog.Keeps Blanking (ff.f_unmount device)) : DetachRules ff Blanking where
  f_unmount := hunmount
  closing i := (hclose i).discard.bind fun _ => Prog.Keeps.modify fun _ hs => hs.setHandle i fun _ => rfl
  closingDir i :=
    (hclosedir i).discard.bind fun _ => Prog.Keeps.modify fun _ hs => hs.setDirHandle i fun _ => rfl
  tables := keptByTables_blanking

/-- Waiting leaves a free slot blank. -/
theorem Waits.blanking {s s' : Storage (UsbHost τ)} (h : Waits s s') : Blanking s s' := by
  induction h with
  | refl s => exact refl_of Blanking s
  | trans _ _ ih ih' => exact trans_of Blanking ih ih'
  | fatfs s host slots => exact fun hs => ⟨hs.handles, hs.dirHandles⟩
  | attach s dev_addr block_count block_size now =>
    exact keeps_mountCb keptByTables_blanking dev_addr block_count block_size now s
  | detach ff f_close f_closedir f_unmount s dev_addr ihclose ihclosedir ihunmount =>
    exact (detachRules_blanking ihclose ihclosedir ihunmount).umountCb dev_addr s

variable (laws : WaitLaws ff)

include laws

theorem hostRules_blanking : HostRules ff Blanking where
  toDetachRules := detachRules_blanking (fun slot s => (laws.f_close slot s).blanking)
    (fun slot s => (laws.f_closedir slot s).blanking) fun device s => (laws.f_unmount device s).blanking
  f_mount device s := (laws.f_mount device s).blanking
  hostTask s := (laws.hostTask s).blanking

theorem blanking_open (device : UInt8) (filename : List UInt8) (mode flags : UInt8) :
    Prog.Keeps Blanking (rpFsOpenMode83 ff.toFatFs device filename mode flags) := by
  intro s hs
  have hs₁ := (hostRules_blanking laws).ensureMounted device s hs
  rcases rpFsOpenMode83_final ff.toFatFs device filename mode flags s with
    ⟨-, hfin⟩ | ⟨slot, path, -, -, -, ⟨-, hfin⟩ | ⟨-, -, hfin⟩⟩
  · rw [hfin]
    exact hs₁
  · rw [hfin]
    exact (laws.f_open slot path mode _).blanking hs₁
  · rw [hfin]
    exact ((laws.f_open slot path mode _).blanking hs₁).setHandle slot nofun

theorem blanking_opendir (device : UInt8) (dirname : List UInt8) :
    Prog.Keeps Blanking (rpFsOpendir83 ff.toFatFs device dirname) := by
  intro s hs
  have hs₁ := (hostRules_blanking laws).ensureMounted device s hs
  rcases rpFsOpendir83_final ff.toFatFs device dirname s with
    ⟨-, hfin⟩ | ⟨slot, path, -, -, -, ⟨-, hfin⟩ | ⟨-, -, hfin⟩⟩
  · rw [hfin]
    exact hs₁
  · rw [hfin]
    exact (laws.f_opendir slot path _).blanking hs₁
  · rw [hfin]
    exact ((laws.f_opendir slot path _).blanking hs₁).setDirHandle slot nofun

theorem layerRules_blanking : LayerRules ff Blanking where
  mount := (hostRules_blanking laws).ensureMounted
  f_read slot len s := (laws.f_read slot len s).blanking
  f_write slot src s := (laws.f_write slot src s).blanking
  f_lseek slot position s := (laws.f_lseek slot position s).blanking
  f_unlink path s := (laws.f_unlink path s).blanking
  f_rename old_path new_path s := (laws.f_rename old_path new_path s).blanking
  f_mkdir path s := (laws.f_mkdir path s).blanking
  f_readdir slot s := (laws.f_readdir slot s).blanking
  opendir := blanking_opendir laws
  closedir := (hostRules_blanking laws).toDetachRules.closedir
  close := (hostRules_blanking laws).toDetachRules.close
  usbMount := (hostRules_blanking laws).mount
  openFile := blanking_open laws
  closeAll := (hostRules_blanking laws).toDetachRules.closeAll
  task := (hostRules_blanking laws).taskUSBStorage

end Blanking

/-- The storage is one that the firmware can reach. FatFs and the devices may behave differently at every
step, and between two steps everything but the storage may change. -/
inductive Storage.Reached : Storage (UsbHost τ) → Prop
  | boot (host : UsbHost τ) : Reached (.boot host)
  | step (ff : UsbFatFs τ) (laws : WaitLaws ff) (hread : ReadsAtMost ff.toFatFs) (f : Firmware (UsbHost τ))
    (h : Reached f.storage) (l : StorageStep) : Reached (l.step ff f).storage

theorem Storage.Reached.blank {s : Storage (UsbHost τ)} (h : s.Reached) : s.Blank := by
  induction h with
  | boot host => exact ⟨fun _ _ => rfl, fun _ _ => rfl⟩
  | step ff laws hread f _ l ih => exact (layerRules_blanking laws).step hread f l ih

/-- What may happen while FatFs runs and no device is detached. -/
inductive Undetached : Storage (UsbHost τ) → Storage (UsbHost τ) → Prop
  | refl (s) : Undetached s s
  | trans {s s' s''} (first : Undetached s s') (second : Undetached s' s'') : Undetached s s''
  | fatfs (s) (host : UsbHost τ) : Undetached s { s with fatfs := host }
  | attach (s) (dev_addr : UInt8) (block_count block_size now : UInt32) :
    Undetached s ((tuhMscMountCb dev_addr block_count block_size now).final s)

theorem Undetached.sameTables {s s' : Storage (UsbHost τ)} (h : Undetached s s') : SameTables s s' := by
  induction h with
  | refl s => exact refl_of SameTables s
  | trans _ _ ih ih' => exact trans_of SameTables ih ih'
  | fatfs s host => exact ⟨rfl, rfl⟩
  | attach s dev_addr block_count block_size now =>
    exact keeps_mountCb (fun _ _ hhandles hdirHandles _ => ⟨hhandles, hdirHandles⟩) dev_addr block_count
      block_size now s

/-- No device is detached inside of a call of FatFs. -/
structure UndetachedLaws (ff : FatFs (UsbHost τ)) : Prop where
  f_mount : ∀ device, Prog.Keeps Undetached (ff.f_mount device)
  f_open : ∀ slot path mode, Prog.Keeps Undetached (ff.f_open slot path mode)
  f_close : ∀ slot, Prog.Keeps Undetached (ff.f_close slot)
  f_read : ∀ slot len, Prog.Keeps Undetached (ff.f_read slot len)
  f_write : ∀ slot src, Prog.Keeps Undetached (ff.f_write slot src)
  f_lseek : ∀ slot position, Prog.Keeps Undetached (ff.f_lseek slot position)
  f_unlink : ∀ path, Prog.Keeps Undetached (ff.f_unlink path)
  f_rename : ∀ old_path new_path, Prog.Keeps Undetached (ff.f_rename old_path new_path)
  f_mkdir : ∀ path, Prog.Keeps Undetached (ff.f_mkdir path)
  f_opendir : ∀ slot path, Prog.Keeps Undetached (ff.f_opendir slot path)
  f_readdir : ∀ slot, Prog.Keeps Undetached (ff.f_readdir slot)
  f_closedir : ∀ slot, Prog.Keeps Undetached (ff.f_closedir slot)

theorem UndetachedLaws.tableLaws {ff : FatFs (UsbHost τ)} (laws : UndetachedLaws ff) : TableLaws ff where
  f_mount device s := (laws.f_mount device s).sameTables
  f_open slot path mode s := (laws.f_open slot path mode s).sameTables
  f_close slot s := (laws.f_close slot s).sameTables
  f_read slot len s := (laws.f_read slot len s).sameTables
  f_write slot src s := (laws.f_write slot src s).sameTables
  f_lseek slot position s := (laws.f_lseek slot position s).sameTables
  f_unlink path s := (laws.f_unlink path s).sameTables
  f_rename old_path new_path s := (laws.f_rename old_path new_path s).sameTables
  f_mkdir path s := (laws.f_mkdir path s).sameTables
  f_opendir slot path s := (laws.f_opendir slot path s).sameTables
  f_readdir slot s := (laws.f_readdir slot s).sameTables
  f_closedir slot s := (laws.f_closedir slot s).sameTables

/-- In every state that the firmware can reach, a request during which no device is detached takes one slot
for its client, frees one, or ends with the tables it began with. -/
theorem no_handle_leak (ff : FatFs (UsbHost τ)) (laws : UndetachedLaws ff) (hread : ReadsAtMost ff)
    (f : Firmware (UsbHost τ)) (hf : f.hw.Settled) (hreached : f.storage.Reached) :
    HandleEffect Firmware.Admitted f ((rpFsMailboxHandleExec ff).final f) :=
  handleEffect_request laws.tableLaws hf hread hreached.blank

/-! ## A CLOSE that is not admitted -/

theorem undetached_overHost {σ : Type} (p : Prog (Storage σ) α) : Prog.Keeps Undetached (overHost p) :=
  fun s => Undetached.fatfs s _

theorem RamDisk.undetachedLaws (dev_addr : UInt8) : UndetachedLaws (RamDisk.usbFatFs dev_addr).toFatFs where
  f_mount _ := undetached_overHost _
  f_open _ _ _ := undetached_overHost _
  f_close _ := undetached_overHost _
  f_read _ _ := undetached_overHost _
  f_write _ _ := undetached_overHost _
  f_lseek _ _ := undetached_overHost _
  f_unlink _ := undetached_overHost _
  f_rename _ _ := undetached_overHost _
  f_mkdir _ := undetached_overHost _
  f_opendir _ _ := undetached_overHost _
  f_readdir _ := undetached_overHost _
  f_closedir _ := undetached_overHost _

/-- The steps that find the disk, mount it and open a file on it. -/
def openingSteps : List StorageStep :=
  [.task 0 0 0, .task 3000 3000 3000,
    .call (.openFile 0 (ascii "A") (FA_WRITE ||| FA_CREATE_ALWAYS) RP_FS_HANDLE_WRITE)]

/-- A CLOSE of handle 0 by a process, behind these steps. -/
def closingFirmware (pid : UInt8) : Firmware (UsbHost RamDisk) :=
  let f := openingSteps.foldl (StorageStep.step (RamDisk.usbFatFs 1)) startedFirmware
  { f with hw := .running fun cell =>
    if cell = (0x0B, 0x005) then RP_FS_OP_CLOSE else if cell = (0x0B, 0x008) then pid else 0 }

theorem reached_closingFirmware (pid : UInt8) : (closingFirmware pid).storage.Reached := by
  have hstep := Storage.Reached.step (RamDisk.usbFatFs 1) (RamDisk.waitLaws 1) (readsAtMost_usbFatFs 1)
  have hfound := hstep startedFirmware (Storage.Reached.boot _) (.task 0 0 0)
  have hmounted := hstep _ hfound (.task 3000 3000 3000)
  exact hstep _ hmounted (.call (.openFile 0 (ascii "A") (FA_WRITE ||| FA_CREATE_ALWAYS) RP_FS_HANDLE_WRITE))

theorem no_handle_leak_close : HandleEffect Firmware.Admitted (closingFirmware 1)
    ((rpFsMailboxHandleExec (RamDisk.usbFatFs 1).toFatFs).final (closingFirmware 1)) :=
  no_handle_leak (RamDisk.usbFatFs 1).toFatFs (RamDisk.undetachedLaws 1) (readsAtMost_usbFatFs 1)
    (closingFirmware 1) (Machine.settled_running _) (reached_closingFirmware 1)

/-- A CLOSE for a PID beyond the process table is refused, and its handle stays in use. -/
theorem close_refused :
    UndetachedLaws (RamDisk.usbFatFs 1).toFatFs ∧ ReadsAtMost (RamDisk.usbFatFs 1).toFatFs ∧
      (closingFirmware 0xFF).hw.Settled ∧ (closingFirmware 0xFF).storage.Reached ∧
      ¬ HandleEffect (fun _ => True) (closingFirmware 0xFF)
        ((rpFsMailboxHandleExec (RamDisk.usbFatFs 1).toFatFs).final (closingFirmware 0xFF)) := by
  refine ⟨RamDisk.undetachedLaws 1, readsAtMost_usbFatFs 1, Machine.settled_running _,
    reached_closingFirmware 0xFF, fun h => ?_⟩
  have hop : (closingFirmware 0xFF).hw.view.peek RP_STATE = RP_FS_OP_CLOSE := by decide
  cases h with
  | opened raw path hopen => exact absurd (hop.symm.trans hopen) (by decide)
  | openedDir raw path hopen => exact absurd (hop.symm.trans hopen) (by decide)
  | closed _ _ _ htables =>
    have hfree := congrArg RPFSHandle.in_use (congrFun htables.handles 0)
    exact absurd hfree (by decide)
  | closedDir hclose => exact absurd (hop.symm.trans hclose) (by decide)
  | unchanged _ hclose =>
    have hfree := hclose hop trivial
    exact absurd hfree (by decide)

end NeoMmu
