import Mathlib.Algebra.Group.Nat.Defs
import NeoMmu.Fs.Files

/-!
# Open files as streams

`StreamLaws` is what the firmware relies on when a client reads a file through its handle while others work on other
files: reading returns the bytes behind the position and advances it, and what FatFs does for another slot leaves
alone the file and the handle, where it writes and seeks as long as that slot is on another file. `Spares` says that
the file and the handle are as before.
-/

namespace NeoMmu

variable {σ φ α : Type}

/-! ## The laws of FatFs -/

/-- What an observer sees of the volumes: the contents of the files, the file and the position of each slot,
and which paths lead to a file. -/
structure FileView (σ φ : Type) where
  data : σ → φ → List UInt8
  fil : σ → UInt8 → φ × Nat
  names : σ → List UInt8 → φ → Prop

/-- The file has its contents, and the handle is on the same file at the same position. -/
structure Leaves (v : FileView σ φ) (handle : UInt8) (file : φ) (s s' : Storage σ) : Prop where
  data : v.data s'.fatfs file = v.data s.fatfs file
  fil : v.fil s'.fatfs handle = v.fil s.fatfs handle

/-- As `Leaves`, for a slot that is on another file, and stays on another. -/
def LeavesBeside (v : FileView σ φ) (handle : UInt8) (file : φ) (slot : UInt8) (s s' : Storage σ) : Prop :=
  (v.fil s.fatfs slot).1 ≠ file → Leaves v handle file s s' ∧ (v.fil s'.fatfs slot).1 ≠ file

/-- What FatFs does to a file and to the handle that a client has on it. -/
structure StreamLaws (ff : FatFs σ) (v : FileView σ φ) (handle : UInt8) (file : φ) : Prop where
  f_read_ok : ∀ len s, (v.fil s.fatfs handle).1 = file → ((ff.f_read handle len).result s).1 = FR_OK →
    let chunk := ((ff.f_read handle len).result s).2
    let s' := (ff.f_read handle len).final s
    chunk = ((v.data s.fatfs file).drop (v.fil s.fatfs handle).2).take len.toNat ∧
      v.fil s'.fatfs handle = (file, (v.fil s.fatfs handle).2 + chunk.length) ∧
      v.data s'.fatfs file = v.data s.fatfs file
  f_size : ∀ s, (v.fil s.fatfs handle).1 = file → (v.data s.fatfs file).length < 2 ^ 32 →
    (ff.f_size handle s).toNat = (v.data s.fatfs file).length
  f_tell : ∀ s, (v.fil s.fatfs handle).1 = file → (v.fil s.fatfs handle).2 < 2 ^ 32 →
    (ff.f_tell handle s).toNat = (v.fil s.fatfs handle).2
  f_mount : ∀ device, Prog.Keeps (Leaves v handle file) (ff.f_mount device)
  f_mount_names : ∀ device s path,
    v.names ((ff.f_mount device).final s).fatfs path file = v.names s.fatfs path file
  f_read : ∀ slot ≠ handle, ∀ len, Prog.Keeps (Leaves v handle file) (ff.f_read slot len)
  f_read_beside : ∀ slot ≠ handle, ∀ len, Prog.Keeps (LeavesBeside v handle file slot) (ff.f_read slot len)
  f_write : ∀ slot ≠ handle, ∀ src, Prog.Keeps (LeavesBeside v handle file slot) (ff.f_write slot src)
  f_lseek : ∀ slot ≠ handle, ∀ position, Prog.Keeps (LeavesBeside v handle file slot) (ff.f_lseek slot position)
  f_close : ∀ slot ≠ handle, Prog.Keeps (Leaves v handle file) (ff.f_close slot)
  f_close_beside : ∀ slot ≠ handle, Prog.Keeps (LeavesBeside v handle file slot) (ff.f_close slot)
  f_open : ∀ slot ≠ handle, ∀ path mode s, mode = FA_READ ∨ ¬ v.names s.fatfs path file →
    Leaves v handle file s ((ff.f_open slot path mode).final s)
  f_open_ok : ∀ slot ≠ handle, ∀ path mode s, (ff.f_open slot path mode).result s = FR_OK →
    ¬ v.names s.fatfs path file → (v.fil ((ff.f_open slot path mode).final s).fatfs slot).1 ≠ file
  f_unlink : ∀ path s, ¬ v.names s.fatfs path file → Leaves v handle file s ((ff.f_unlink path).final s)
  f_rename : ∀ old_path new_path s, ¬ v.names s.fatfs old_path file → ¬ v.names s.fatfs new_path file →
    Leaves v handle file s ((ff.f_rename old_path new_path).final s)
  f_mkdir : ∀ path, Prog.Keeps (Leaves v handle file) (ff.f_mkdir path)
  f_opendir : ∀ slot path, Prog.Keeps (Leaves v handle file) (ff.f_opendir slot path)
  f_readdir : ∀ slot, Prog.Keeps (Leaves v handle file) (ff.f_readdir slot)
  f_closedir : ∀ slot, Prog.Keeps (Leaves v handle file) (ff.f_closedir slot)

/-! ## A file and a handle on it -/

/-- As `Leaves`, and the handle has its record. -/
structure Spares (v : FileView σ φ) (handle : UInt8) (file : φ) (s s' : Storage σ) : Prop where
  data : v.data s'.fatfs file = v.data s.fatfs file
  fil : v.fil s'.fatfs handle = v.fil s.fatfs handle
  record : s'.gRPFSHandles handle = s.gRPFSHandles handle

section Spares

variable {v : FileView σ φ} {handle : UInt8} {file : φ}

instance : Std.Refl (Spares v handle file) where
  refl _ := ⟨rfl, rfl, rfl⟩

instance : IsTrans (Storage σ) (Spares v handle file) where
  trans _ _ _ h h' := ⟨h'.data.trans h.data, h'.fil.trans h.fil, h'.record.trans h.record⟩

theorem Spares.isOpen {s s' : Storage σ} (h : Spares v handle file s s') :
    s'.isOpen handle = s.isOpen handle := by
  rw [Storage.isOpen, Storage.isOpen, h.record]

theorem Leaves.spares {s s' : Storage σ} (h : Leaves v handle file s s')
    (hrecord : s'.gRPFSHandles = s.gRPFSHandles) : Spares v handle file s s' :=
  ⟨h.data, h.fil, congrFun hrecord handle⟩

/-- Setting the record of another slot. -/
theorem spares_setHandle {slot : UInt8} (hne : slot ≠ handle) (s : Storage σ) (r : RPFSHandle) :
    Spares v handle file s (s.setHandle slot r) :=
  ⟨rfl, rfl, by simp only [Storage.setHandle, Function.update_of_ne hne.symm]⟩

/-- As `Spares`, for as long as another slot is on another file, which it stays. -/
def SparesBeside (v : FileView σ φ) (handle : UInt8) (file : φ) (slot : UInt8) (s s' : Storage σ) : Prop :=
  (v.fil s.fatfs slot).1 ≠ file → Spares v handle file s s' ∧ (v.fil s'.fatfs slot).1 ≠ file

instance (slot : UInt8) : Std.Refl (SparesBeside v handle file slot) where
  refl s h := ⟨refl s, h⟩

instance (slot : UInt8) : IsTrans (Storage σ) (SparesBeside v handle file slot) where
  trans _ _ _ h h' := fun hfile =>
    let ⟨hspares, hfile'⟩ := h hfile
    let ⟨hspares', hfile''⟩ := h' hfile'
    ⟨trans_of (Spares v handle file) hspares hspares', hfile''⟩

theorem LeavesBeside.spares {slot : UInt8} {s s' : Storage σ} (h : LeavesBeside v handle file slot s s')
    (hrecord : s'.gRPFSHandles = s.gRPFSHandles) : SparesBeside v handle file slot s s' :=
  fun hfile => ⟨(h hfile).1.spares hrecord, (h hfile).2⟩

end Spares

end NeoMmu
