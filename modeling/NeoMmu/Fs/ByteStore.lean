import NeoMmu.Fs.Files

/-!
# FatFs as a store of bytes

`ByteStore` is what the firmware relies on when it saves bytes to a file and loads them again: creating a
file empties it, a write that reports all its bytes has stored them, and a file that is open for reading
returns the bytes behind its position, as many as are asked for and left. The laws are about the file a
slot is on, and say nothing of the others.
-/

namespace NeoMmu

variable {σ : Type}

/-- FatFs has changed its own state only. -/
def OwnState (s s' : Storage σ) : Prop := s' = { s with fatfs := s'.fatfs }

instance : Std.Refl (OwnState (σ := σ)) where
  refl _ := rfl

instance : IsTrans (Storage σ) OwnState where
  trans s s' s'' h h' := by
    rw [OwnState] at h h' ⊢
    rw [h', h]

/-- What FatFs shows of its files: the bytes of the file that a path leads to, the path and the position of
each slot, and whether it is open for reading. -/
structure FileBytes (σ : Type) where
  file : σ → List UInt8 → Option (List UInt8)
  fil : σ → UInt8 → List UInt8 × Nat
  readable : σ → UInt8 → Prop

/-- A faithful store of bytes. -/
structure ByteStore (ff : FatFs σ) (v : FileBytes σ) : Prop where
  open_own : ∀ slot path mode, Prog.Keeps OwnState (ff.f_open slot path mode)
  read_own : ∀ slot len, Prog.Keeps OwnState (ff.f_read slot len)
  write_own : ∀ slot src, Prog.Keeps OwnState (ff.f_write slot src)
  close_own : ∀ slot, Prog.Keeps OwnState (ff.f_close slot)
  /-- `FA_CREATE_ALWAYS` empties the file. -/
  f_open_create : ∀ slot path s,
    (ff.f_open slot path (FA_WRITE ||| FA_CREATE_ALWAYS)).result s = FR_OK →
      let s' := (ff.f_open slot path (FA_WRITE ||| FA_CREATE_ALWAYS)).final s
      v.file s'.fatfs path = some [] ∧ v.fil s'.fatfs slot = (path, 0)
  /-- A file that exists can be opened for reading. -/
  f_open_read : ∀ slot path s, (v.file s.fatfs path).isSome = true →
    let s' := (ff.f_open slot path FA_READ).final s
    (ff.f_open slot path FA_READ).result s = FR_OK ∧ v.file s'.fatfs path = v.file s.fatfs path ∧
      v.fil s'.fatfs slot = (path, 0) ∧ v.readable s'.fatfs slot
  /-- As many bytes are read as are asked for and left. -/
  f_read : ∀ slot len s path position bytes, v.readable s.fatfs slot →
    v.fil s.fatfs slot = (path, position) → v.file s.fatfs path = some bytes →
      let chunk := (bytes.drop position).take len.toNat
      let s' := (ff.f_read slot len).final s
      (ff.f_read slot len).result s = (FR_OK, chunk) ∧ v.file s'.fatfs path = some bytes ∧
        v.fil s'.fatfs slot = (path, position + chunk.length) ∧ v.readable s'.fatfs slot
  /-- A write that reports all its bytes has stored them. -/
  f_write : ∀ slot src s path position bytes, v.fil s.fatfs slot = (path, position) →
    v.file s.fatfs path = some bytes → position ≤ bytes.length →
      (ff.f_write slot src).result s = (FR_OK, src.length) →
        let s' := (ff.f_write slot src).final s
        v.file s'.fatfs path = some (bytes.take position ++ src ++ bytes.drop (position + src.length)) ∧
          v.fil s'.fatfs slot = (path, position + src.length)
  f_close : ∀ slot s, (ff.f_close slot).result s = FR_OK →
    v.file ((ff.f_close slot).final s).fatfs = v.file s.fatfs
  f_close_read : ∀ slot s, v.readable s.fatfs slot → (ff.f_close slot).result s = FR_OK
  f_size : ∀ slot s path position bytes, v.fil s.fatfs slot = (path, position) →
    v.file s.fatfs path = some bytes → bytes.length < UInt32.size → (ff.f_size slot s).toNat = bytes.length

/-- A handle is in use on a file, which holds some bytes, at a position. -/
structure Storage.OnFile (v : FileBytes σ) (slot : UInt8) (record : RPFSHandle) (path : List UInt8)
    (position : Nat) (bytes : List UInt8) (s : Storage σ) : Prop where
  isOpen : s.isOpen slot = true
  record : s.gRPFSHandles slot = record
  fil : v.fil s.fatfs slot = (path, position)
  file : v.file s.fatfs path = some bytes

/-- A mounted device has a file of this name, which holds some bytes, and a handle is free. -/
structure Storage.Stored (v : FileBytes σ) (device : UInt8) (filename bytes : List UInt8) (s : Storage σ) :
    Prop where
  mounted : s.mounted device = true
  free : ∃ slot, s.freeSlot = some slot
  file : ∃ path, rpFsMakePath device filename = some path ∧ v.file s.fatfs path = some bytes

section Handles

variable {ff : FatFs σ} {v : FileBytes σ} (store : ByteStore ff v) {s : Storage σ} {slot : UInt8}

theorem OwnState.isOpen {s' : Storage σ} (h : OwnState s s') (slot : UInt8) : s'.isOpen slot = s.isOpen slot := by
  rw [show s' = _ from h]
  rfl

theorem OwnState.gRPFSHandles {s' : Storage σ} (h : OwnState s s') : s'.gRPFSHandles = s.gRPFSHandles := by
  rw [show s' = _ from h]

theorem OwnState.mounted {s' : Storage σ} (h : OwnState s s') (device : UInt8) :
    s'.mounted device = s.mounted device := by
  rw [show s' = _ from h]
  rfl

/-- A device that is mounted is not mounted again. -/
theorem ensureMounted_of_mounted (ff : FatFs σ) {device : UInt8} (h : s.mounted device = true) :
    (ensureMounted ff device).result s = true ∧ (ensureMounted ff device).final s = s := by
  have hvalid : rpFsValidDevice device = true := (Bool.and_eq_true_iff.1 h).1
  rw [ensureMounted, hvalid, if_neg (by decide)]
  simp only [Prog.result_bind, Prog.final_bind, Prog.result_get, Prog.final_get, h, if_true, Prog.result_pure,
    Prog.final_pure, and_self]

/-- A slot that is given back is free. -/
theorem freeSlot_of_setHandle {r : RPFSHandle} (hslot : slot < RP_FS_MAX_HANDLES) (hr : r.in_use = false)
    (s : Storage σ) : ∃ slot', (s.setHandle slot r).freeSlot = some slot' := by
  rw [← Option.isSome_iff_exists, Storage.freeSlot, List.find?_isSome]
  refine ⟨slot, mem_bytesBelow.2 hslot, ?_⟩
  simp [Storage.setHandle, hr]

include store

/-- A file that is created is empty, and its handle at its beginning. -/
theorem onFile_create {device : UInt8} {filename : List UInt8} {flags : UInt8}
    (h : (rpFsOpenMode83 ff device filename (FA_WRITE ||| FA_CREATE_ALWAYS) flags).result s = some slot) :
    let s' := (rpFsOpenMode83 ff device filename (FA_WRITE ||| FA_CREATE_ALWAYS) flags).final s
    s'.mounted device = true ∧ ∃ path, rpFsMakePath device filename = some path ∧
      s'.OnFile v slot ⟨true, device, flags⟩ path 0 [] := by
  intro s'
  rcases rpFsOpenMode83_cases ff device filename (FA_WRITE ||| FA_CREATE_ALWAYS) flags s with
    ⟨hnone, -⟩ | ⟨slot', path, hopens, hres, hfin⟩
  · rw [hnone] at h
    cases h
  obtain rfl := Option.some.inj (hres.symm.trans h)
  have hown := store.open_own slot' path (FA_WRITE ||| FA_CREATE_ALWAYS) ((ensureMounted ff device).final s)
  obtain ⟨hfile, hfil⟩ := store.f_open_create slot' path _ hopens.opened
  have hmounted := mounted_ensureMounted ff hopens.mounted
  rw [← hown.mounted device] at hmounted
  rw [show s' = _ from hfin]
  refine ⟨hmounted, path, hopens.named, isOpen_setHandle _ (freeSlot_lt hopens.free) rfl, ?_, hfil, hfile⟩
  exact Function.update_self _ _ _

/-- A file that is there is opened for reading at its beginning. -/
theorem onFile_open {device : UInt8} {filename bytes : List UInt8} {flags : UInt8}
    (h : s.Stored v device filename bytes) :
    ∃ slot path, let s' := (rpFsOpenMode83 ff device filename FA_READ flags).final s
      (rpFsOpenMode83 ff device filename FA_READ flags).result s = some slot ∧
        s'.OnFile v slot ⟨true, device, flags⟩ path 0 bytes ∧ v.readable s'.fatfs slot := by
  obtain ⟨hresult, hfinal⟩ := ensureMounted_of_mounted ff h.mounted
  obtain ⟨slot, hslot⟩ := h.free
  obtain ⟨path, hpath, hfile⟩ := h.file
  obtain ⟨hopened, hfile', hfil, hreadable⟩ :=
    store.f_open_read slot path s (Option.isSome_iff_exists.2 ⟨bytes, hfile⟩)
  rcases rpFsOpenMode83_cases ff device filename FA_READ flags s with
    ⟨-, hnone⟩ | ⟨slot', path', hopens, hres, hfin⟩
  · exact absurd ⟨hresult, by rw [hfinal]; exact hslot, hpath, by rw [hfinal]; exact hopened⟩ (hnone slot path)
  have hfree := hopens.free
  rw [hfinal] at hfree hfin
  obtain rfl := Option.some.inj (hslot.symm.trans hfree)
  obtain rfl := Option.some.inj (hpath.symm.trans hopens.named)
  refine ⟨slot, path, hres, ?_, ?_⟩
  · rw [hfin]
    exact ⟨isOpen_setHandle _ (freeSlot_lt hslot) rfl, Function.update_self _ _ _, hfil, hfile'.trans hfile⟩
  · rw [hfin]
    exact hreadable

variable {record : RPFSHandle} {path bytes : List UInt8} {position : Nat}

/-- Reading some bytes through a handle. -/
theorem onFile_read (h : s.OnFile v slot record path position bytes) (hreadable : v.readable s.fatfs slot)
    (hflags : record.flags &&& RP_FS_HANDLE_READ ≠ 0) {len : UInt16} (hlen : len ≠ 0) :
    let chunk := (bytes.drop position).take len.toNat
    let s' := (rpFsRead ff slot len).final s
    (rpFsRead ff slot len).result s = some chunk ∧ OwnState s s' ∧
      s'.OnFile v slot record path (position + chunk.length) bytes ∧ v.readable s'.fatfs slot := by
  have hopen : ¬ s.isOpen slot = false := by
    rw [h.isOpen]
    decide
  have hown := store.read_own slot len s
  obtain ⟨hres, hfile, hfil, hreadable'⟩ := store.f_read slot len s path position bytes hreadable h.fil h.file
  rw [← h.record] at hflags
  simp only [rpFsRead, Prog.result_bind, Prog.final_bind, Prog.result_get, Prog.final_get, if_neg hopen,
    if_neg hflags, if_neg hlen, hres, Prog.result_pure, Prog.final_pure]
  refine ⟨rfl, hown, ⟨(hown.isOpen slot).trans h.isOpen, ?_, hfil, hfile⟩, hreadable'⟩
  rw [hown.gRPFSHandles]
  exact h.record

/-- Writing behind the last byte through a handle, where all bytes are reported. -/
theorem onFile_write (h : s.OnFile v slot record path bytes.length bytes) {src : List UInt8} (hsrc : src ≠ [])
    (hres : (rpFsWrite ff slot src).result s = some src.length) :
    let s' := (rpFsWrite ff slot src).final s
    s'.OnFile v slot record path (bytes ++ src).length (bytes ++ src) := by
  have hopen : ¬ s.isOpen slot = false := by
    rw [h.isOpen]
    decide
  simp only [rpFsWrite, Prog.result_bind, Prog.final_bind, Prog.result_get, Prog.final_get, if_neg hopen] at hres ⊢
  by_cases hflags : (s.gRPFSHandles slot).flags &&& RP_FS_HANDLE_WRITE = 0
  · rw [if_pos hflags] at hres
    cases hres
  simp only [if_neg hflags, if_neg hsrc, Prog.result_bind, Prog.final_bind, Prog.result_pure,
    Prog.final_pure] at hres ⊢
  by_cases hok : ((ff.f_write slot src).result s).1 = FR_OK
  swap
  · rw [if_pos hok] at hres
    cases hres
  rw [if_neg (not_not.2 hok)] at hres
  have hown := store.write_own slot src s
  obtain ⟨hfile, hfil⟩ := store.f_write slot src s path bytes.length bytes h.fil h.file le_rfl
    (Prod.ext hok (Option.some.inj hres))
  refine ⟨(hown.isOpen slot).trans h.isOpen, ?_, ?_, ?_⟩
  · rw [hown.gRPFSHandles]
    exact h.record
  · rw [hfil, List.length_append]
  · rw [hfile, List.take_length, List.drop_of_length_le (Nat.le_add_right _ _), List.append_nil]

theorem own_rpFsWrite (slot : UInt8) (src : List UInt8) : Prog.Keeps OwnState (rpFsWrite ff slot src) := by
  refine Prog.Keeps.get.bind fun s => Prog.Keeps.ite (fun _ => Prog.Keeps.pure _) fun _ => ?_
  refine Prog.Keeps.ite (fun _ => Prog.Keeps.pure _) fun _ => Prog.Keeps.ite (fun _ => Prog.Keeps.pure _) fun _ => ?_
  exact (store.write_own slot src).bind fun _ => Prog.Keeps.pure _

/-- A file that is closed keeps its bytes, and its handle is free. -/
theorem stored_close {device : UInt8} {filename : List UInt8} (h : s.OnFile v slot record path position bytes)
    (hmounted : s.mounted device = true) (hpath : rpFsMakePath device filename = some path)
    (hclosed : (rpFsClose ff slot).result s = true) :
    ((rpFsClose ff slot).final s).Stored v device filename bytes := by
  simp only [rpFsClose, Prog.result_bind, Prog.final_bind, Prog.result_get, Prog.final_get, h.isOpen, if_true,
    Prog.result_pure, Prog.final_pure, Prog.final_modify, decide_eq_true_eq] at hclosed ⊢
  have hslot : slot < RP_FS_MAX_HANDLES := of_decide_eq_true (Bool.and_eq_true_iff.1 h.isOpen).1
  have hown := store.close_own slot s
  refine ⟨?_, freeSlot_of_setHandle hslot rfl _, path, hpath, ?_⟩
  · exact (hown.mounted device).trans hmounted
  · exact (congrFun (store.f_close slot s hclosed) path).trans h.file

/-- A file that was read is closed. -/
theorem closed_of_readable (h : s.isOpen slot = true) (hreadable : v.readable s.fatfs slot) :
    (rpFsClose ff slot).result s = true := by
  simp only [rpFsClose, Prog.result_bind, Prog.result_get, Prog.final_get, h, if_true, Prog.result_pure,
    store.f_close_read slot s hreadable, decide_true]

end Handles

/-! ## A disk in memory -/

namespace RamDisk

/-- The files in memory, by their paths. -/
def fileBytes : FileBytes RamDisk where
  file := RamDisk.files
  fil := RamDisk.fil
  readable _ _ := True

theorem byteStore : ByteStore fatFs fileBytes where
  open_own slot path mode := by
    intro s
    simp only [fatFs, Prog.final_ite, Prog.final_bind, Prog.final_modify, Prog.final_pure, Prog.final_get,
      Prog.result_get]
    split_ifs
    · rfl
    · rfl
    · rfl
  read_own _ _ _ := rfl
  write_own _ _ _ := rfl
  close_own _ := Prog.Keeps.pure FR_OK
  f_open_create slot path s _ := ⟨Function.update_self _ _ _, Function.update_self _ _ _⟩
  f_open_read slot path s h := by
    have hread : ¬ FA_READ &&& FA_CREATE_ALWAYS ≠ 0 := fun h => absurd rfl h
    have hfile : (s.fatfs.files path).isSome = true := h
    simp only [fatFs, if_neg hread, Prog.result_bind, Prog.final_bind, Prog.result_get, Prog.final_get, hfile, if_true,
      Prog.result_pure, Prog.final_pure, Prog.final_modify]
    exact ⟨trivial, rfl, Function.update_self _ _ _, trivial⟩
  f_read slot len s path position bytes _ hfil hfile := by
    have hbytes : contents slot s = bytes := by
      rw [contents, show s.fatfs.fil slot = _ from hfil, show s.fatfs.files path = _ from hfile]
      rfl
    simp only [fatFs, Prog.result_bind, Prog.final_bind, Prog.result_get, Prog.final_get, Prog.result_pure,
      Prog.final_pure, Prog.final_modify, hbytes, show s.fatfs.fil slot = _ from hfil]
    exact ⟨trivial, hfile, Function.update_self _ _ _, trivial⟩
  f_write slot src s path position bytes hfil hfile _ _ := by
    have hbytes : contents slot s = bytes := by
      rw [contents, show s.fatfs.fil slot = _ from hfil, show s.fatfs.files path = _ from hfile]
      rfl
    simp only [fatFs, Prog.final_bind, Prog.result_get, Prog.final_get, Prog.final_pure, Prog.final_modify, hbytes,
      show s.fatfs.fil slot = _ from hfil]
    exact ⟨Function.update_self _ _ _, Function.update_self _ _ _⟩
  f_close _ _ _ := rfl
  f_close_read _ _ _ := rfl
  f_size slot s path position bytes hfil hfile hlen := by
    have hbytes : contents slot s = bytes := by
      rw [contents, show s.fatfs.fil slot = _ from hfil, show s.fatfs.files path = _ from hfile]
      rfl
    rw [show fatFs.f_size slot s = UInt32.ofNat (contents slot s).length from rfl, hbytes]
    exact Nat.mod_eq_of_lt hlen

end RamDisk

end NeoMmu
