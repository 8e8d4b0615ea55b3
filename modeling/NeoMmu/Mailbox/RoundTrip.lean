import NeoMmu.Fs.ByteStore
import NeoMmu.Mailbox.BulkBytes
import NeoMmu.Mailbox.Handles

/-!
# A LOAD behind a SAVE

With a FatFs that stores bytes faithfully, a SAVE that is answered with `RP_DONE` leaves a file with the bytes
it has read from memory, and a LOAD of this file puts as many of them as it is asked for into its own memory.
On the way there the loop counter of the SAVE is the length of its file, and that of the LOAD its position.
-/

namespace NeoMmu

variable {σ : Type}

/-! ## The loops and the file -/

section Chunks

variable {ff : FatFs σ} {v : FileBytes σ} (store : ByteStore ff v) {slot : UInt8} {record : RPFSHandle}
  {path : List UInt8}

include store

theorem own_saveChunks (bytes : List UInt8) (total : Nat) :
    Prog.Keeps OwnState (saveChunks ff slot bytes total) := by
  fun_induction saveChunks ff slot bytes total with
  | case1 => exact Prog.Keeps.pure _
  | case2 bytes total hne buffer ih =>
    refine (own_rpFsWrite store slot buffer).bind fun written => ?_
    rcases written with - | count
    · exact Prog.Keeps.pure _
    · exact Prog.Keeps.ite (fun _ => Prog.Keeps.pure _) fun _ => ih count

/-- A SAVE that has not failed has appended all its bytes. -/
theorem onFile_saveChunks {pre bytes : List UInt8} {total : Nat} {s : Storage σ}
    (h : s.OnFile v slot record path pre.length pre)
    (hsaved : ((saveChunks ff slot bytes total).result s).2 = false) :
    ((saveChunks ff slot bytes total).result s).1 = total + bytes.length ∧
      ((saveChunks ff slot bytes total).final s).OnFile v slot record path (pre ++ bytes).length (pre ++ bytes) := by
  fun_induction saveChunks ff slot bytes total generalizing pre s with
  | case1 total =>
    rw [List.append_nil]
    exact ⟨rfl, h⟩
  | case2 bytes total hne buffer =>
    rename_i ih
    have hbuffer : buffer ≠ [] := by
      have hpos := List.length_pos_iff.2 hne
      refine List.ne_nil_of_length_pos ?_
      rw [List.length_take, RP_FS_MAILBOX_CHUNK_SIZE]
      omega
    simp only [Prog.result_bind, Prog.final_bind] at hsaved ⊢
    rcases hwritten : (rpFsWrite ff slot buffer).result s with - | count
    · rw [hwritten] at hsaved
      cases hsaved
    rw [hwritten] at hsaved
    by_cases hcount : count = buffer.length
    swap
    · simp only [if_pos hcount] at hsaved
      cases hsaved
    subst hcount
    simp only [ne_eq, not_true_eq_false, if_false] at hsaved ⊢
    obtain ⟨hres, hfile⟩ := ih buffer.length (onFile_write store h hbuffer hwritten) hsaved
    have hparts : buffer ++ bytes.drop RP_FS_MAILBOX_CHUNK_SIZE = bytes := List.take_append_drop _ _
    rw [List.append_assoc, hparts] at hfile
    refine ⟨?_, hfile⟩
    rw [hres, Nat.add_assoc, ← List.length_append, hparts]

/-- A LOAD that asks for no more than its file holds gets it. -/
theorem onFile_loadChunks {bytes : List UInt8} {transfer_size total : Nat} (hsize : transfer_size ≤ bytes.length)
    (htotal : total ≤ transfer_size) (hflags : record.flags &&& RP_FS_HANDLE_READ ≠ 0) {s : Storage σ}
    (h : s.OnFile v slot record path total bytes) (hreadable : v.readable s.fatfs slot) :
    let s' := (loadChunks ff slot transfer_size total).final s
    (loadChunks ff slot transfer_size total).result s =
        ((bytes.drop total).take (transfer_size - total), false) ∧
      s'.isOpen slot = true ∧ v.readable s'.fatfs slot := by
  fun_induction loadChunks ff slot transfer_size total generalizing s with
  | case1 total hlt chunk ih =>
    have hchunk : (UInt16.ofNat chunk).toNat = chunk := by
      have hmax : chunk ≤ RP_FS_MAILBOX_CHUNK_SIZE := Nat.min_le_left _ _
      rw [RP_FS_MAILBOX_CHUNK_SIZE] at hmax
      rw [UInt16.toNat_ofNat', Nat.mod_eq_of_lt (by omega)]
    have hne : UInt16.ofNat chunk ≠ 0 := by
      intro hzero
      have hnone : chunk = 0 := hchunk.symm.trans (congrArg UInt16.toNat hzero)
      rw [show chunk = min RP_FS_MAILBOX_CHUNK_SIZE (transfer_size - total) from rfl, RP_FS_MAILBOX_CHUNK_SIZE] at hnone
      omega
    have hlast : chunk ≤ transfer_size - total := Nat.min_le_right _ _
    obtain ⟨hres, -, hfile, hreadable'⟩ := onFile_read store h hreadable hflags hne
    rw [hchunk] at hres hfile
    have hlength : ((bytes.drop total).take chunk).length = chunk := by
      rw [List.length_take, List.length_drop]
      omega
    simp only [Prog.result_bind, Prog.final_bind, hres]
    rcases hbytes : (bytes.drop total).take chunk with - | ⟨b, bs⟩
    · rw [hbytes] at hlength
      exact absurd (congrArg UInt16.ofNat hlength.symm) hne
    rw [hbytes] at hfile hlength
    rw [List.length_cons] at hfile hlength
    obtain ⟨hrest, hopen, hreadable''⟩ := ih bs (by omega) hfile hreadable'
    simp only [Prog.result_bind, Prog.final_bind, Prog.result_pure, Prog.final_pure, hrest]
    refine ⟨?_, hopen, hreadable''⟩
    rw [← hbytes, hlength, ← List.drop_drop, ← List.take_add, show chunk + (transfer_size - (total + chunk)) = transfer_size - total by omega]
  | case2 total hge =>
    rw [show transfer_size - total = 0 by omega, List.take_zero]
    exact ⟨rfl, h.isOpen, hreadable⟩

end Chunks

/-! ## The requests -/

theorem rpFsMbEffective16bitSize_le (size_word : UInt16) : rpFsMbEffective16bitSize size_word ≤ 65536 := by
  rw [rpFsMbEffective16bitSize]
  split
  · exact le_rfl
  · exact size_word.toNat_lt.le

/-- A range that ends by the end of the memory is valid. -/
theorem rpFsMbValid64kRange_of_le {start : UInt16} {count : Nat} (h : start.toNat + count ≤ 65536) :
    rpFsMbValid64kRange start count = true := by
  rw [rpFsMbValid64kRange]
  split
  · rfl
  rw [if_neg (by omega)]
  split
  · have hzero : start.toNat = 0 := by omega
    exact decide_eq_true (UInt16.toNat_inj.1 hzero)
  · exact decide_eq_true (by omega)

/-- A reply leaves the mapping. -/
theorem physAddr_fsMbDone {f : Firmware σ} (hf : f.hw.Settled) (result : UInt16) (flags : UInt8) :
    ((fsMbDone result flags).final f).hw.view.physAddr = f.hw.view.physAddr := by
  obtain ⟨ws, hstores, -⟩ := stores_reply result 0 RP_ERR_OK flags RP_DONE
  have hview := (hstores f.hw hf).1
  simp only [fsMbDone, rpMailboxSetDone, Prog.final_bind, Prog.final_pure, emit, Prog.final_modify, onHw,
    Prog.final_on]
  rw [hview, Machine.View.writes_eq_self]
  rfl

section Bulk

variable {ff : FatFs σ} {v : FileBytes σ} (store : ByteStore ff v) {f : Firmware σ} (hf : f.hw.Settled)
  {context : UInt8} (hc : context < maxContexts) (path : RPFSResolvedPath) (mem_ptr size_word : UInt16)

include store hf hc

/-- A SAVE whose transfer is done has put the bytes of its range into the file that it has open. -/
theorem stored_of_transfer {device slot : UInt8} {filename full_path : List UInt8} {n : Nat}
    (h : f.storage.OnFile v slot ⟨true, device, RP_FS_HANDLE_WRITE⟩ full_path 0 [])
    (hmounted : f.storage.mounted device = true) (hpath : rpFsMakePath device filename = some full_path)
    (hdone : ((bulkTransfer ff RP_FS_OP_SAVE context device slot mem_ptr n).final f).hw.view.peek RP_STATUS =
      RP_DONE) :
    ((bulkTransfer ff RP_FS_OP_SAVE context device slot mem_ptr n).final f).storage.Stored v device filename
      ((f.hw.view.inContext context).bytes mem_ptr n) := by
  obtain ⟨g, hstorage, hmode, hview, hres, hfin, hboard⟩ :=
    withContext_run hf hc (bulkLoop ff RP_FS_OP_SAVE slot mem_ptr n 0)
  obtain ⟨hloop, m, hend, hmode', hview'⟩ := bulkLoop_save ff slot mem_ptr (Nat.zero_le n) g hmode
  have hstart : mem_ptr + UInt16.ofNat 0 = mem_ptr := UInt16.add_zero mem_ptr
  rw [hstorage, hview, hstart, Nat.sub_zero] at hloop hend
  have hsettled := (hboard [] (by rw [hend]; exact hmode') (by rw [hend]; exact hview')).1
  rw [hend] at hfin
  rw [hloop] at hres
  generalize (f.hw.view.inContext context).bytes mem_ptr n = bytes at hres hfin ⊢
  have hown : OwnState f.storage ((saveChunks ff slot bytes 0).final f.storage) := own_saveChunks store bytes 0 f.storage
  have hempty : f.storage.OnFile v slot ⟨true, device, RP_FS_HANDLE_WRITE⟩ full_path ([] : List UInt8).length [] := h
  have hsaved : ((saveChunks ff slot bytes 0).result f.storage).2 = false → _ := onFile_saveChunks store hempty
  rw [bulkTransfer, Prog.final_ite] at hdone ⊢
  by_cases hrange : rpFsMbValid64kRange mem_ptr n = false
  · rw [if_pos hrange, Prog.final_bind] at hdone
    refine absurd hdone (not_done_of_failed (error_spec ?_ RP_ERR_EINVAL 0).2)
    rw [Prog.final_discard, onStorage, Prog.final_on]
    exact hf
  rw [if_neg hrange, Prog.final_bind, hres] at hdone ⊢
  generalize (saveChunks ff slot bytes 0).result f.storage = r at hdone hsaved ⊢
  generalize (withContext context (bulkLoop ff RP_FS_OP_SAVE slot mem_ptr n 0)).final f = f₁ at hdone hfin hsettled ⊢
  obtain ⟨total, failed⟩ := r
  dsimp only at hfin hsaved
  simp only [Prog.final_bind, onStorage, Prog.result_on, Prog.final_on, Prog.final_ite] at hdone ⊢
  rw [hfin] at hdone ⊢
  generalize (saveChunks ff slot bytes 0).final f.storage = s at hdone hown hsaved ⊢
  by_cases hfailed : failed = true ∨ (rpFsClose ff slot).result s = false ∨ total ≠ n
  · rw [if_pos hfailed] at hdone
    exact absurd hdone (not_done_of_failed (error_spec (by exact hsettled) _ _).2)
  rw [if_neg hfailed] at hdone ⊢
  rw [not_or, not_or, Bool.not_eq_true, Bool.not_eq_false] at hfailed
  obtain ⟨hsuccess, hclosed, -⟩ := hfailed
  rw [(done_spec (by exact hsettled) _ _).1]
  exact stored_close store (hsaved hsuccess).2 ((hown.mounted device).trans hmounted) hpath hclosed

/-- A SAVE that is done has left a file with what it saw in memory. -/
theorem stored_of_save
    (hdone : ((bulkOnPath ff RP_FS_OP_SAVE context path mem_ptr size_word).final f).hw.view.peek RP_STATUS =
      RP_DONE) :
    ((bulkOnPath ff RP_FS_OP_SAVE context path mem_ptr size_word).final f).storage.Stored v path.device path.path
      ((f.hw.view.inContext context).bytes mem_ptr (rpFsMbEffective16bitSize size_word)) := by
  generalize hsize : rpFsMbEffective16bitSize size_word = n
  obtain ⟨hopened, hhandle⟩ := bulkOpen_eq_open ff RP_FS_OP_SAVE path.device path.path n f.storage
  rw [bulkMode, bulkFlags, if_neg (by decide), if_neg (by decide)] at hopened hhandle
  have hcreate : ∀ slot, (rpFsOpenMode83 ff path.device path.path (FA_WRITE ||| FA_CREATE_ALWAYS)
      RP_FS_HANDLE_WRITE).result f.storage = some slot → _ := fun _ => onFile_create store
  rw [← hopened, ← hhandle] at hcreate
  have hrequested : ((bulkOpen ff RP_FS_OP_SAVE path.device path.path n).result f.storage).2 = n := rfl
  simp only [bulkOnPath, hsize, Prog.final_bind, onStorage, Prog.result_on, Prog.final_on] at hdone ⊢
  generalize (bulkOpen ff RP_FS_OP_SAVE path.device path.path n).final f.storage = s at hdone hcreate ⊢
  generalize (bulkOpen ff RP_FS_OP_SAVE path.device path.path n).result f.storage = opened
    at hdone hcreate hrequested ⊢
  obtain ⟨- | slot, transfer_size⟩ := opened
  · exact absurd hdone (not_done_of_failed (deviceError_spec (by exact hf) path.device).2)
  obtain rfl : transfer_size = n := hrequested
  obtain ⟨hmounted, full_path, hpath, hfile⟩ := hcreate slot rfl
  exact stored_of_transfer store (f := { f with storage := s }) hf hc mem_ptr hfile hmounted hpath hdone

/-- What a LOAD of `bytes` to `mem_ptr` does: it replies with their number, and but for the reply the memory
is that before with the bytes stored. -/
structure Loaded (context : UInt8) (mem_ptr : UInt16) (bytes : List UInt8) (f f' : Firmware σ) : Prop where
  status : f'.hw.view.peek RP_STATUS = RP_DONE
  result : f'.hw.view.peek16 RP_RES0L = UInt16.ofNat bytes.length
  mmuRam : f'.hw.mmuRam = f.hw.mmuRam
  ram : ∀ cell, (∀ a ∈ replyAddresses, (f.hw.view.inContext f.hw.getMMUContext).physAddr a ≠ cell) →
    f'.hw.ram cell = ((f.hw.view.inContext context).writes (blockWrites mem_ptr bytes)).ram cell

/-- A LOAD transfers what it has room for of the file that it has open. -/
theorem loaded_of_transfer {device slot : UInt8} {full_path bytes : List UInt8} {n : Nat}
    (h : f.storage.OnFile v slot ⟨true, device, RP_FS_HANDLE_READ⟩ full_path 0 bytes)
    (hreadable : v.readable f.storage.fatfs slot) (hn : n ≤ bytes.length) (hfits : mem_ptr.toNat + n ≤ 65536) :
    Loaded context mem_ptr (bytes.take n) f
      ((bulkTransfer ff RP_FS_OP_LOAD context device slot mem_ptr n).final f) := by
  obtain ⟨g, hstorage, hmode, hview, hres, hfin, hboard⟩ :=
    withContext_run hf hc (bulkLoop ff RP_FS_OP_LOAD slot mem_ptr n 0)
  obtain ⟨hloop, m, hend, hwritten⟩ := bulkLoop_load ff slot n mem_ptr 0 g
  obtain ⟨hmode', hview'⟩ := hwritten hmode
  have hstart : mem_ptr + UInt16.ofNat 0 = mem_ptr := UInt16.add_zero mem_ptr
  obtain ⟨hchunks, hopen, hreadable'⟩ :=
    onFile_loadChunks store hn (Nat.zero_le n) (show RP_FS_HANDLE_READ &&& RP_FS_HANDLE_READ ≠ 0 by decide) h hreadable
  rw [hstorage, hchunks] at hloop
  rw [hstorage, hchunks, hstart] at hview'
  rw [hstorage] at hend
  dsimp only at hloop hview'
  rw [List.drop_zero, Nat.sub_zero] at hloop hview'
  obtain ⟨hsettled, hstored⟩ := hboard _ (by rw [hend]; exact hmode') (by rw [hend]; exact hview')
  rw [hend] at hfin
  rw [hloop, Nat.zero_add, List.length_take, Nat.min_eq_left hn] at hres
  have hclosed := closed_of_readable store hopen hreadable'
  rw [bulkTransfer, if_neg (by rw [rpFsMbValid64kRange_of_le hfits]; decide), Prog.final_bind, hres]
  generalize (withContext context (bulkLoop ff RP_FS_OP_LOAD slot mem_ptr n 0)).final f = f₁
    at hfin hsettled hstored ⊢
  dsimp only at hfin
  simp only [Prog.final_bind, onStorage, Prog.result_on, Prog.final_on, hfin, hclosed]
  rw [if_neg (by simp)]
  generalize (rpFsClose ff slot).final ((loadChunks ff slot n 0).final f.storage) = s
  obtain ⟨-, hstatus, hresult⟩ := done_spec (f := { f₁ with storage := s }) hsettled (UInt16.ofNat n) device
  have huntouched := untouched_fsMbDone (f := { f₁ with storage := s }) hsettled (UInt16.ofNat n) device
  refine ⟨hstatus, ?_, ?_, fun cell hcell => ?_⟩
  · rw [List.length_take, Nat.min_eq_left hn]
    exact hresult
  · exact huntouched.mmuRam.trans (congrArg Machine.View.mmuRam hstored)
  · have hreplied : ∀ a ∈ replyAddresses,
        ((fsMbDone (UInt16.ofNat n) device).final { f₁ with storage := s }).hw.view.physAddr a ≠ cell := by
      intro a ha
      rw [physAddr_fsMbDone (f := { f₁ with storage := s }) hsettled]
      dsimp only
      rw [hstored]
      exact hcell a ha
    rw [huntouched.ram cell hreplied, show f₁.hw.ram = _ from congrArg Machine.View.ram hstored]
    have hram := congrArg Machine.View.ram (Machine.View.writes_eq (f.hw.view.select context)
      (blockWrites mem_ptr (bytes.take n)) context.toNat .sRPI)
    exact (congrFun hram cell).symm

/-- A LOAD of a file that is there. -/
theorem loaded_of_stored {bytes : List UInt8} (h : f.storage.Stored v path.device path.path bytes)
    (hlength : bytes.length ≤ 65536)
    (hfits : mem_ptr.toNat + min (rpFsMbEffective16bitSize size_word) bytes.length ≤ 65536) :
    Loaded context mem_ptr (bytes.take (rpFsMbEffective16bitSize size_word)) f
      ((bulkOnPath ff RP_FS_OP_LOAD context path mem_ptr size_word).final f) := by
  generalize hsize : rpFsMbEffective16bitSize size_word = n at hfits ⊢
  obtain ⟨slot, full_path, hslot, hfile, hreadable⟩ := @onFile_open _ _ _ store _ _ _ _ RP_FS_HANDLE_READ h
  have hopened := (bulkOpen_eq_open ff RP_FS_OP_LOAD path.device path.path n f.storage).1
  rw [bulkMode, bulkFlags, if_pos rfl, if_pos rfl] at hopened
  have hresult : (bulkOpen ff RP_FS_OP_LOAD path.device path.path n).result f.storage =
      (some slot, min n bytes.length) := by
    rw [bulkOpen, if_pos rfl, Prog.result_bind, rpFsOpenReadonly83, hslot]
    simp only [Prog.result_bind, Prog.result_pure, rpFsSize, Prog.result_gets, hfile.isOpen, if_true]
    rw [store.f_size slot _ full_path 0 bytes hfile.fil hfile.file (hlength.trans_lt (by decide))]
  rw [bulkOnPath, hsize, Prog.final_bind, onStorage, Prog.result_on, Prog.final_on, hresult, hopened]
  generalize (rpFsOpenMode83 ff path.device path.path FA_READ RP_FS_HANDLE_READ).final f.storage = s at hfile hreadable ⊢
  obtain ⟨hstatus, hcount, hmmu, hram⟩ := loaded_of_transfer store (f := { f with storage := s }) hf hc mem_ptr hfile
    hreadable (Nat.min_le_right n bytes.length) hfits
  rw [← List.take_eq_take_min] at hcount hram
  exact ⟨hstatus, hcount, hmmu, hram⟩

end Bulk

section Loaded

variable {f f' : Firmware σ} {context : UInt8} {mem_ptr : UInt16} {bytes : List UInt8}
  (h : Loaded context mem_ptr bytes f f')

include h

/-- A byte is found at its address, where neither the reply nor a byte behind it is in its cell. -/
theorem Loaded.peek {i : Nat} (hi : i < bytes.length)
    (hbehind : ∀ j, i < j → j < bytes.length → (f.hw.view.inContext context).physAddr (mem_ptr + UInt16.ofNat j) ≠
      (f.hw.view.inContext context).physAddr (mem_ptr + UInt16.ofNat i))
    (hreply : ∀ a ∈ replyAddresses, (f.hw.view.inContext f.hw.getMMUContext).physAddr a ≠
      (f.hw.view.inContext context).physAddr (mem_ptr + UInt16.ofNat i)) :
    (f'.hw.view.inContext context).peek (mem_ptr + UInt16.ofNat i) = bytes[i] := by
  have hphys : (f'.hw.view.inContext context).physAddr = (f.hw.view.inContext context).physAddr := by
    show (Machine.View.mk _ f'.hw.mmuRam _ _ _).physAddr = _
    rw [h.mmuRam]
    rfl
  show f'.hw.ram ((f'.hw.view.inContext context).physAddr _) = _
  rw [hphys, h.ram _ hreply]
  exact Machine.View.ram_writes_block_of_ne _ mem_ptr hi hbehind

/-- The other cells keep their bytes. -/
theorem Loaded.ram_of_ne {cell : UInt8 × UInt16}
    (hbeside : ∀ i < bytes.length, (f.hw.view.inContext context).physAddr (mem_ptr + UInt16.ofNat i) ≠ cell)
    (hreply : ∀ a ∈ replyAddresses, (f.hw.view.inContext f.hw.getMMUContext).physAddr a ≠ cell) :
    f'.hw.ram cell = f.hw.ram cell := by
  rw [h.ram cell hreply, Machine.View.ram_writes_of_ne]
  · rfl
  · intro w hw
    obtain ⟨i, hi, hat⟩ := mem_blockWrites hw
    rw [hat]
    exact hbeside i hi

end Loaded

/-! ## Whole requests -/

/-- The board stays settled, and in its context. -/
def SameContext (f f' : Firmware σ) : Prop :=
  f.hw.Settled → f'.hw.Settled ∧ f'.hw.getMMUContext = f.hw.getMMUContext

instance : Std.Refl (SameContext (σ := σ)) where
  refl _ := fun hf => ⟨hf, rfl⟩

instance : IsTrans (Firmware σ) SameContext where
  trans _ _ _ h h' := by
    intro hf
    obtain ⟨hsettled, hcontext⟩ := h hf
    obtain ⟨hsettled', hcontext'⟩ := h' hsettled
    exact ⟨hsettled', hcontext'.trans hcontext⟩

theorem getMMUContext_of_view {m m' : Machine} (h : m'.view = m.view) : m'.getMMUContext = m.getMMUContext := by
  rw [Machine.getMMUContext, Machine.getMMUContext,
    show m'.gCurrentContext = m.gCurrentContext from congrArg Machine.View.gCurrentContext h]

theorem sameContext_withContext {α : Type} {cycles : Prog Machine α} {r : Machine.View → α}
    (hcycles : Cycles cycles r []) (c : UInt8) :
    Prog.Keeps (SameContext (σ := σ)) (withContext c (onHw cycles)) := by
  intro f hf
  by_cases hc : maxContexts ≤ c
  · rw [(withContext_refused hc _ f).2]
    exact ⟨hf, rfl⟩
  · have haccess := withContext_access hf (UInt8.not_le.1 hc)
      (inside_cycles (σ := σ) (A := fun _ => False) hcycles (by simp))
    exact ⟨haccess.settled, haccess.context⟩

theorem readRules_sameContext (context : UInt8) : ReadRules (SameContext (σ := σ)) context where
  read16 a f hf := by
    obtain ⟨-, hview, hm⟩ := rpRead16_spec hf a
    exact ⟨hm, getMMUContext_of_view hview⟩
  readBlock a n := by
    refine Prog.Keeps.ite (fun _ => Prog.Keeps.pure none) fun _ => ?_
    exact sameContext_withContext (cycles_readBlock a n.toNat) context
  resolve pid a n device := by
    have hpath : Prog.Keeps SameContext (rpFsMbReadContextPath (σ := σ) context a n RP_FS_NEOX_PATH_MAX) := by
      refine Prog.Keeps.ite (fun _ => Prog.Keeps.pure none) fun _ => ?_
      exact (sameContext_withContext (cycles_readPathLoop a 0 n.toNat) context).bind fun _ => Prog.Keeps.pure _
    refine hpath.bind fun input => ?_
    rcases input with - | input
    · exact Prog.Keeps.pure none
    · refine Prog.Keeps.get.bind fun f => ?_
      dsimp only
      split
      · exact Prog.Keeps.pure _
      · exact Prog.Keeps.pure none

/-- A LOAD behind what reads its arguments. -/
theorem Loaded.of_reads {f f₁ f' : Firmware σ} {context : UInt8} {mem_ptr : UInt16} {bytes : List UInt8}
    (hf : f.hw.Settled) (hread : ReadsOnly f f₁) (hsame : SameContext f f₁)
    (h : Loaded context mem_ptr bytes f₁ f') : Loaded context mem_ptr bytes f f' := by
  obtain ⟨-, -, hmmu⟩ := hread.board hf
  refine ⟨h.status, h.result, h.mmuRam.trans hmmu, fun cell hcell => ?_⟩
  rw [← (hsame hf).2, ← hread.inContext hf] at hcell
  rw [h.ram cell hcell, hread.inContext hf]

/-- A SAVE or LOAD in the block: of a file, from or to `start`, with a size word. -/
structure Firmware.Transfers (f : Firmware σ) (op : UInt8) (path : RPFSResolvedPath) (start size_word : UInt16) :
    Prop where
  operation : f.hw.view.peek RP_STATE = op
  request : f.bulkRequest = some (path, start, size_word)

section Requests

variable {ff : FatFs σ} {v : FileBytes σ} (store : ByteStore ff v)

theorem context_of_bulkRequest {f : Firmware σ} {args : RPFSResolvedPath × UInt16 × UInt16}
    (h : f.bulkRequest = some args) : f.hw.view.peek RP_ARG1H < maxContexts := by
  rw [Firmware.bulkRequest] at h
  split at h
  · cases h
  · exact context_of_bulkArgs h

/-- A SAVE or LOAD whose arguments are accepted is what it does with its file, on a board that has only been
read, and the interrupt. -/
theorem final_transfer (ff : FatFs σ) {f : Firmware σ} (hf : f.hw.Settled) {op : UInt8} {path : RPFSResolvedPath}
    {start size_word : UInt16} (h : f.Transfers op path start size_word)
    (hop : op = RP_FS_OP_LOAD ∨ op = RP_FS_OP_SAVE) :
    ∃ g, ReadsOnly f g ∧ SameContext f g ∧
      let g' := (bulkOnPath ff op (f.hw.view.peek RP_ARG1H) path start size_word).final g
      ((rpFsMailboxHandleExec ff).final f).hw = g'.hw ∧ ((rpFsMailboxHandleExec ff).final f).storage = g'.storage := by
  obtain ⟨m₀, op', pid, context, hblock, -, hfin⟩ := final_rpFsMailboxHandleExec ff f
  obtain ⟨hm₀, hview₀, rfl, rfl, rfl⟩ := hblock hf
  obtain ⟨g, hread, hsame, hg⟩ := final_checkedOperation_bulk ff (f := { f with hw := m₀ }) (readRules_sameContext _)
    hm₀ hop
  have hrequest : Firmware.bulkRequest { f with hw := m₀ } = f.bulkRequest := by
    simp only [Firmware.bulkRequest, hview₀]
  simp only [hview₀, hrequest, h.request] at hg
  have hcontext : SameContext f { f with hw := m₀ } := fun _ => ⟨hm₀, getMMUContext_of_view hview₀⟩
  refine ⟨g, trans_of ReadsOnly (readsOnly_of_view hm₀ hview₀) hread, trans_of SameContext hcontext hsame, ?_⟩
  rw [hfin, h.operation, hg]
  exact ⟨rfl, rfl⟩

include store in
/-- A LOAD of a file that is there. -/
theorem loaded_of_request {g : Firmware σ} (hg : g.hw.Settled) {path : RPFSResolvedPath} {start size_word : UInt16}
    (hload : g.Transfers RP_FS_OP_LOAD path start size_word) {bytes : List UInt8}
    (hstored : g.storage.Stored v path.device path.path bytes) (hlength : bytes.length ≤ 65536)
    (hfits : start.toNat + min (rpFsMbEffective16bitSize size_word) bytes.length ≤ 65536) :
    Loaded (g.hw.view.peek RP_ARG1H) start (bytes.take (rpFsMbEffective16bitSize size_word)) g
      ((rpFsMailboxHandleExec ff).final g) := by
  obtain ⟨g₁, hread, hsame, hhw, -⟩ := final_transfer ff hg hload (.inl rfl)
  rw [← hread.storage] at hstored
  obtain ⟨hstatus, hcount, hmmu, hram⟩ := (loaded_of_stored store (hread.board hg).1
    (context_of_bulkRequest hload.request) path start size_word hstored hlength hfits).of_reads hg hread hsame
  rw [← hhw] at hstatus hcount hmmu hram
  exact ⟨hstatus, hcount, hmmu, hram⟩

include store in
/-- A LOAD of a file that a SAVE has stored, with the storage as the SAVE has left it, stores as many of the
bytes as it has room for and tells their number. Where the range has a cell for each of its addresses, beside
those of the reply, it holds what the SAVE has read, and nothing else is changed but by the reply. -/
theorem load_returns_saved {f g : Firmware σ} (hf : f.hw.Settled) (hg : g.hw.Settled) {path : RPFSResolvedPath}
    {saveStart saveSize loadStart loadSize : UInt16} (hsave : f.Transfers RP_FS_OP_SAVE path saveStart saveSize)
    (hdone : ((rpFsMailboxHandleExec ff).final f).hw.view.peek RP_STATUS = RP_DONE)
    (hload : g.Transfers RP_FS_OP_LOAD path loadStart loadSize)
    (hnext : g.storage = ((rpFsMailboxHandleExec ff).final f).storage) :
    let count := min (rpFsMbEffective16bitSize loadSize) (rpFsMbEffective16bitSize saveSize)
    let saved := f.hw.view.inContext (f.hw.view.peek RP_ARG1H)
    let target := g.hw.view.inContext (g.hw.view.peek RP_ARG1H)
    let cell := fun i => target.physAddr (loadStart + UInt16.ofNat i)
    let reply := replyAddresses.map (g.hw.view.inContext g.hw.getMMUContext).physAddr
    let g' := (rpFsMailboxHandleExec ff).final g
    loadStart.toNat + count ≤ 65536 →
      g'.hw.view.peek RP_STATUS = RP_DONE ∧ g'.hw.view.peek16 RP_RES0L = UInt16.ofNat count ∧
        ((∀ i < count, cell i ∉ reply ∧ ∀ j < i, cell j ≠ cell i) → ∀ i < count,
          (g'.hw.view.inContext (g.hw.view.peek RP_ARG1H)).peek (loadStart + UInt16.ofNat i) =
            saved.peek (saveStart + UInt16.ofNat i)) ∧
        ∀ other, other ∉ reply → (∀ i < count, cell i ≠ other) → g'.hw.ram other = g.hw.ram other := by
  intro count saved target cell reply g' hfits
  have hfileLength := rpFsMbEffective16bitSize_le saveSize
  obtain ⟨f₁, hread, -, hhw, hstorage⟩ := final_transfer ff hf hsave (.inr rfl)
  rw [hhw] at hdone
  have hstored := stored_of_save store (hread.board hf).1 (context_of_bulkRequest hsave.request) path saveStart
    saveSize hdone
  rw [← hstorage, ← hnext, hread.inContext hf] at hstored
  have hlength : (saved.bytes saveStart (rpFsMbEffective16bitSize saveSize)).length =
      rpFsMbEffective16bitSize saveSize := Machine.View.length_bytes _ _ _
  have hloaded : Loaded (g.hw.view.peek RP_ARG1H) loadStart _ g g' :=
    loaded_of_request store hg hload hstored (by rw [hlength]; exact hfileLength) (by rw [hlength]; exact hfits)
  rw [show f.hw.view.inContext (f.hw.view.peek RP_ARG1H) = saved from rfl, List.take_eq_take_min, hlength,
    saved.take_bytes saveStart (Nat.min_le_right _ _)] at hloaded
  change Loaded _ _ (saved.bytes saveStart count) g g' at hloaded
  clear_value g'
  have hcount : (saved.bytes saveStart count).length = count := Machine.View.length_bytes _ _ _
  have hreply : ∀ other, other ∉ reply → ∀ a ∈ replyAddresses,
      (g.hw.view.inContext g.hw.getMMUContext).physAddr a ≠ other := by
    rintro other hother a ha rfl
    exact hother (List.mem_map_of_mem ha)
  refine ⟨hloaded.status, ?_, fun hcells i hi => ?_, fun other hother hbeside => ?_⟩
  · rw [hloaded.result, Machine.View.length_bytes]
  · rw [hloaded.peek (by omega) (fun j hij hj => ?_) (hreply _ (hcells i hi).1)]
    · exact Option.some.inj ((List.getElem?_eq_getElem _).symm.trans (saved.getElem?_bytes saveStart hi))
    · exact ((hcells j (by omega)).2 i hij).symm
  · exact hloaded.ram_of_ne (fun i hi => hbeside i (by omega)) (hreply other hother)

end Requests

/-! ## Two bytes -/

/-- The memory of a SAVE or LOAD of `/A` for PID 1 in context 0, with two bytes at 0x3000. -/
def twoBytesRam (op page size : UInt8) (cell : UInt8 × UInt16) : UInt8 :=
  (List.lookup cell
    [((0x0B, 0x005), op), ((0x0B, 0x007), 0x02), ((0x0B, 0x008), 1),
     ((0x00, 0x200), 0x10), ((0x00, 0x201), 0x02), ((0x00, 0x203), page), ((0x00, 0x204), size),
     ((0x00, 0x210), slash), ((0x00, 0x211), 'A'.toUInt8),
     ((0x03, 0x000), 'h'.toUInt8), ((0x03, 0x001), 'i'.toUInt8)]).getD 0

/-- The firmware that gets the SAVE, with no file on the disk. -/
def savingFirmware : Firmware RamDisk :=
  .start (.running (twoBytesRam RP_FS_OP_SAVE 0x30 2)) (RamDisk.mounted fun _ => none)

/-- The firmware that gets the LOAD of five bytes to 0x4000 behind it. -/
def loadingFirmware : Firmware RamDisk :=
  .start (.running (twoBytesRam RP_FS_OP_LOAD 0x40 5)) ((rpFsMailboxHandleExec RamDisk.fatFs).final savingFirmware).storage

theorem load_returns_saved_two :
    let g' := (rpFsMailboxHandleExec RamDisk.fatFs).final loadingFirmware
    g'.hw.view.peek RP_STATUS = RP_DONE ∧ g'.hw.view.peek16 RP_RES0L = 2 ∧
      (g'.hw.view.inContext 0).peek 0x4001 = 'i'.toUInt8 := by
  have hsave : savingFirmware.Transfers RP_FS_OP_SAVE ⟨0, ['A'.toUInt8]⟩ 0x3000 2 :=
    ⟨by decide, by decide +kernel⟩
  have hload : loadingFirmware.Transfers RP_FS_OP_LOAD ⟨0, ['A'.toUInt8]⟩ 0x4000 5 :=
    ⟨by decide, by decide +kernel⟩
  obtain ⟨hstatus, hresult, hbytes, -⟩ := load_returns_saved RamDisk.byteStore (Machine.settled_running _)
    (Machine.settled_running _) hsave (by decide +kernel) hload rfl (by decide)
  exact ⟨hstatus, hresult, hbytes (by decide +kernel) 1 (by decide)⟩

end NeoMmu
