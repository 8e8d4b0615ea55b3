import NeoMmu.Fs.Directories
import NeoMmu.Mailbox.HandleLeaks

/-!
# Removing directories

RMDIR hands its path to the function of FatFs that also removes files, and nobody looks at what the path
names. A request that names a file therefore loses it; every other request removes an empty directory or
nothing.
-/

namespace NeoMmu

variable {σ κ : Type}

instance (f : Firmware σ) : Decidable f.Admitted := inferInstanceAs (Decidable (¬ _))

/-- The device and the path that an RMDIR hands to FatFs. -/
def Firmware.rmdirTarget (f : Firmware σ) : Option (UInt8 × List UInt8) :=
  if f.Admitted then
    f.opendirRequest.bind fun r => (rmdirPath r.2.device r.2.path).map (r.2.device, ·)
  else none

/-- A served RMDIR named an empty directory that is gone, and every file is still there. -/
structure RemovesDirectory (tree : σ → DirTree κ (List UInt8)) (locate : List UInt8 → List κ)
    (f f' : Firmware σ) : Prop where
  removed : f'.hw.view.peek RP_STATUS = RP_DONE → ∃ device path, f.rmdirTarget = some (device, path) ∧
    (tree f.storage.fatfs).EmptyDirectory (locate path) ∧ tree f'.storage.fatfs (locate path) = none
  files : (tree f.storage.fatfs).KeepsFiles (tree f'.storage.fatfs)

/-- What an RMDIR does: nothing, or the removal of what it names. -/
inductive RmdirEffect [DecidableEq κ] (ff : FatFs σ) (tree : σ → DirTree κ (List UInt8))
    (locate : List UInt8 → List κ) (locked : σ → List κ → Prop) (f f' : Firmware σ) : Prop
  | failed (hfailed : f'.Failed) (htree : tree f'.storage.fatfs = tree f.storage.fatfs)
    (hnot : ∀ device path, f.rmdirTarget = some (device, path) →
      ¬ Unlinks ff tree locked f.storage device (locate path))
  | removed (device : UInt8) (path : List UInt8) (htarget : f.rmdirTarget = some (device, path))
    (hunlinks : Unlinks ff tree locked f.storage device (locate path))
    (hdone : f'.hw.view.peek RP_STATUS = RP_DONE)
    (htree : tree f'.storage.fatfs = (tree f.storage.fatfs).erase (locate path))

/-- The reads in front of an operation do not change what it aims at. -/
theorem RmdirEffect.of_view [DecidableEq κ] {ff : FatFs σ} {tree : σ → DirTree κ (List UInt8)}
    {locate : List UInt8 → List κ} {locked : σ → List κ → Prop} {f f' : Firmware σ} {m : Machine}
    (hview : m.view = f.hw.view) (h : RmdirEffect ff tree locate locked { f with hw := m } f') :
    RmdirEffect ff tree locate locked f f' := by
  have htarget : ({ f with hw := m } : Firmware σ).rmdirTarget = f.rmdirTarget := by
    have hadmits : ({ f with hw := m } : Firmware σ).Admitted ↔ f.Admitted := by
      rw [Firmware.Admitted, Firmware.Admitted, ← hview]
    have hrequest : ({ f with hw := m } : Firmware σ).opendirRequest = f.opendirRequest := by
      rw [Firmware.opendirRequest, Firmware.opendirRequest, ← hview]
    rw [Firmware.rmdirTarget, Firmware.rmdirTarget, hrequest]
    simp only [hadmits]
  cases h with
  | failed hfailed htree hnot => exact .failed hfailed htree (htarget ▸ hnot)
  | removed device path haims hunlinks hdone htree =>
    exact .removed device path (htarget ▸ haims) hunlinks hdone htree

section Request

variable [DecidableEq κ] {ff : FatFs σ} {tree : σ → DirTree κ (List UInt8)} {locate : List UInt8 → List κ}
  {locked : σ → List κ → Prop} (laws : RemovalLaws ff tree locate locked) {f : Firmware σ}
  (hf : f.hw.Settled)

include laws hf

/-- The operation behind the check of PID and context. -/
theorem exec_rmdir (hadmitted : f.Admitted) : RmdirEffect ff tree locate locked f
    ((rpFsMbExecSinglePath ff RP_FS_OP_RMDIR (f.hw.view.peek RP_ARG1L) (f.hw.view.peek RP_ARG1H)
      (f.hw.view.peek16 RP_ARG0L)).final f) := by
  obtain ⟨f₁, hread, -, hfin⟩ := final_withArgsPath (readRules_readsOnly (f.hw.view.peek RP_ARG1H)) hf
    (f.hw.view.peek RP_ARG1L) (f.hw.view.peek16 RP_ARG0L) 6 validDir (rpFsMbU16 · 0) (rpFsMbU16 · 2) (rawByte · 4)
    fun _ path => do
      if ← onStorage (singlePathOperation ff RP_FS_OP_RMDIR path.device path.path) then
        fsMbDone 0 path.device
      else
        fsMbDeviceError path.device
  have hf₁ := (hread.board hf).1
  have hstorage := hread.storage
  rw [show (rpFsMbExecSinglePath ff RP_FS_OP_RMDIR _ _ _).final f = _ from hfin]
  have htarget : f.rmdirTarget = f.opendirRequest.bind fun r =>
      (rmdirPath r.2.device r.2.path).map (r.2.device, ·) := if_pos hadmitted
  rw [Firmware.opendirRequest] at htarget
  generalize f.hw.view.blockAndPath _ _ _ _ _ _ _ _ _ = request at htarget ⊢
  rcases request with - | ⟨raw, path⟩
  · obtain ⟨hsame, hfailed⟩ := error_spec hf₁ RP_ERR_EINVAL 0
    refine .failed hfailed (by rw [hsame, hstorage]) ?_
    rw [htarget]
    rintro _ _ ⟨⟩
  simp only [Prog.final_bind, onStorage, Prog.result_on, Prog.final_on, hstorage]
  have hrmdir := rpFsRmdir83_spec laws path.device path.path f.storage
  rw [show singlePathOperation ff RP_FS_OP_RMDIR path.device path.path =
    rpFsRmdir83 ff path.device path.path from rfl]
  rcases hrmdir with ⟨hres, htree, hnot⟩ | ⟨target, hpath, hunlinks, hres, htree⟩
  · rw [hres]
    generalize (rpFsRmdir83 ff _ _).final f.storage = s at htree ⊢
    obtain ⟨hsame, hfailed⟩ := deviceError_spec (f := { f₁ with storage := s }) hf₁ path.device
    refine .failed hfailed (htree ▸ congrArg (fun s => tree s.fatfs) hsame) fun device target h => ?_
    rw [htarget, Option.bind_some, Option.map_eq_some_iff] at h
    obtain ⟨target', hpath, heq⟩ := h
    obtain ⟨rfl, rfl⟩ := Prod.mk.inj heq
    exact hnot _ hpath
  · rw [hres]
    generalize (rpFsRmdir83 ff _ _).final f.storage = s at htree ⊢
    obtain ⟨hsame, hdone, -⟩ := done_spec (f := { f₁ with storage := s }) hf₁ 0 path.device
    refine .removed path.device target ?_ hunlinks hdone (htree ▸ congrArg (fun s => tree s.fatfs) hsame)
    rw [htarget, Option.bind_some, hpath, Option.map_some]

theorem checked_rmdir : RmdirEffect ff tree locate locked f
    ((checkedOperation ff RP_FS_OP_RMDIR (f.hw.view.peek RP_ARG1L) (f.hw.view.peek RP_ARG1H)).final f) := by
  rw [checkedOperation, Prog.final_ite]
  split
  · rename_i hrefused
    obtain ⟨hsame, hfailed⟩ := error_spec hf RP_ERR_EINVAL 0
    refine .failed hfailed (by rw [hsame]) ?_
    have hadmitted : ¬ f.Admitted := not_not.2 hrefused
    rw [Firmware.rmdirTarget, if_neg hadmitted]
    rintro _ _ ⟨⟩
  rename_i hadmitted
  obtain ⟨hargs, hview, hm⟩ := rpRead16_spec hf RP_ARG0L
  rw [execOperation_rmdir, readArg0, Prog.final_bind, onHw, Prog.result_on, Prog.final_on, hargs]
  generalize (rpRead16 RP_ARG0L).final f.hw = m at hview hm
  have hexec := exec_rmdir laws (f := { f with hw := m }) hm (by rw [Firmware.Admitted, hview]; exact hadmitted)
  rw [hview] at hexec
  exact hexec.of_view hview

/-- An RMDIR removes what FatFs removes for its path, or nothing. -/
theorem rmdirEffect_request (hop : f.hw.view.peek RP_STATE = RP_FS_OP_RMDIR) :
    RmdirEffect ff tree locate locked f ((rpFsMailboxHandleExec ff).final f) := by
  obtain ⟨m₀, op, pid, context, hblock, -, hfin⟩ := final_rpFsMailboxHandleExec ff f
  obtain ⟨hm₀, hview₀, rfl, rfl, rfl⟩ := hblock hf
  have hchecked := checked_rmdir laws (f := { f with hw := m₀ }) hm₀
  rw [hview₀] at hchecked
  rw [hfin, hop]
  cases hchecked.of_view hview₀ with
  | failed hfailed htree hnot => exact .failed hfailed htree hnot
  | removed device path htarget hunlinks hdone htree =>
    exact .removed device path htarget hunlinks hdone htree

end Request

/-- An RMDIR spares the files, and removes an empty directory when it is served, exactly if its path does
not name a file that FatFs removes. -/
theorem rmdir_removesDirectory_iff [DecidableEq κ] (ff : FatFs σ) (tree : σ → DirTree κ (List UInt8))
    (locate : List UInt8 → List κ) (locked : σ → List κ → Prop) (laws : RemovalLaws ff tree locate locked)
    (f : Firmware σ) (hf : f.hw.Settled) (hop : f.hw.view.peek RP_STATE = RP_FS_OP_RMDIR) :
    RemovesDirectory tree locate f ((rpFsMailboxHandleExec ff).final f) ↔
      ¬ ∃ device path contents, f.rmdirTarget = some (device, path) ∧
        tree f.storage.fatfs (locate path) = some (.file contents) ∧
        Unlinks ff tree locked f.storage device (locate path) := by
  constructor
  · rintro hremoves ⟨device, path, contents, htarget, hfile, hunlinks⟩
    cases rmdirEffect_request laws hf hop with
    | failed _ _ hnot => exact hnot device path htarget hunlinks
    | removed device' path' htarget' _ _ htree =>
      obtain ⟨rfl, rfl⟩ := Prod.mk.inj (Option.some.inj (htarget.symm.trans htarget'))
      have hfiles := hremoves.files
      rw [htree, DirTree.keepsFiles_erase_iff] at hfiles
      exact hfiles contents hfile
  · intro hnofile
    cases rmdirEffect_request laws hf hop with
    | failed hfailed htree _ =>
      refine ⟨fun hdone => absurd (hdone.symm.trans hfailed) (by decide), ?_⟩
      rw [htree]
      exact fun _ _ h => h
    | removed device path htarget hunlinks _ htree =>
      have hnot : ∀ contents, tree f.storage.fatfs (locate path) ≠ some (.file contents) :=
        fun contents hfile => hnofile ⟨device, path, contents, htarget, hfile, hunlinks⟩
      refine ⟨fun _ => ⟨device, path, htarget, ?_, ?_⟩, ?_⟩
      · rcases hunlinks.removable with ⟨contents, hfile⟩ | hempty
        · exact absurd hfile (hnot contents)
        · exact hempty
      · rw [htree, DirTree.erase_self]
      · rw [htree, DirTree.keepsFiles_erase_iff]
        exact hnot

/-! ## A file and an empty directory -/

/-- The memory of an RMDIR of `/D` or `/F` for PID 1 in context 0. -/
def rmdirRam (name : UInt8) (cell : UInt8 × UInt16) : UInt8 :=
  (List.lookup cell
    [((0x0B, 0x005), RP_FS_OP_RMDIR), ((0x0B, 0x007), 0x02), ((0x0B, 0x008), 1),
     ((0x00, 0x200), 0x10), ((0x00, 0x201), 0x02), ((0x00, 0x202), 8),
     ((0x00, 0x210), slash), ((0x00, 0x211), name)]).getD 0

/-- The firmware that gets the request, with the directory `D` and the file `F` on its disk. -/
def rmdirFirmware (name : UInt8) : Firmware TreeDisk :=
  .start (.running (rmdirRam name))
    { gRPFSHandles := fun _ => ⟨false, 0, 0⟩, gRPFSDirHandles := fun _ => ⟨false, 0⟩,
      gUSBFatFsMounted := (· = 0), usbPresent := (· = 0),
      fatfs := ⟨[([ascii "0:", ascii "D"], .directory), ([ascii "0:", ascii "F"], .file (ascii "data"))]⟩ }

theorem rmdir_removes_empty : RemovesDirectory TreeDisk.tree TreeDisk.locate (rmdirFirmware 'D'.toUInt8)
    ((rpFsMailboxHandleExec TreeDisk.fatFs).final (rmdirFirmware 'D'.toUInt8)) := by
  refine (rmdir_removesDirectory_iff TreeDisk.fatFs TreeDisk.tree TreeDisk.locate (fun _ _ => False)
    TreeDisk.removalLaws (rmdirFirmware 'D'.toUInt8) (Machine.settled_running _) (by decide)).2 ?_
  rintro ⟨device, path, contents, htarget, hfile, -⟩
  have hpath : (rmdirFirmware 'D'.toUInt8).rmdirTarget = some (0, ascii "0:/D") := by decide +kernel
  obtain ⟨rfl, rfl⟩ := Prod.mk.inj (Option.some.inj (hpath.symm.trans htarget))
  have hhere : TreeDisk.tree (rmdirFirmware 'D'.toUInt8).storage.fatfs (TreeDisk.locate (ascii "0:/D")) =
      some .directory := by
    decide
  cases hhere.symm.trans hfile

/-- An RMDIR of `/F` is served, and the file is gone. -/
theorem rmdir_removes_file : RemovalLaws TreeDisk.fatFs TreeDisk.tree TreeDisk.locate (fun _ _ => False) ∧
    (rmdirFirmware 'F'.toUInt8).hw.Settled ∧
    (rmdirFirmware 'F'.toUInt8).hw.view.peek RP_STATE = RP_FS_OP_RMDIR ∧
    ¬ RemovesDirectory TreeDisk.tree TreeDisk.locate (rmdirFirmware 'F'.toUInt8)
      ((rpFsMailboxHandleExec TreeDisk.fatFs).final (rmdirFirmware 'F'.toUInt8)) := by
  refine ⟨TreeDisk.removalLaws, Machine.settled_running _, by decide, fun hremoves => ?_⟩
  have hkept := hremoves.files [ascii "0:", ascii "F"] (ascii "data") (by decide)
  have hgone : TreeDisk.tree ((rpFsMailboxHandleExec TreeDisk.fatFs).final
      (rmdirFirmware 'F'.toUInt8)).storage.fatfs [ascii "0:", ascii "F"] = none := by
    decide +kernel
  cases hgone.symm.trans hkept

end NeoMmu
