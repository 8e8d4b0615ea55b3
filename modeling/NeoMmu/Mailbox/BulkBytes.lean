import NeoMmu.Mailbox.Rejection

/-!
# The bytes of a SAVE or LOAD

`rp_fs_mb_exec_bulk()` transfers in chunks. For a LOAD the chunks come from the file alone, so what the loop
reads is a computation on the storage, `loadChunks`; the loop stores it in one block from `mem_ptr` on. For a
SAVE they come from memory, which the loop leaves alone, and `saveChunks` is what it does with these bytes.
-/

namespace NeoMmu

variable {σ : Type}

/-- The bytes that a LOAD reads behind its first `total` ones, and whether it failed. -/
def loadChunks (ff : FatFs σ) (handle : UInt8) (transfer_size total : Nat) :
    Prog (Storage σ) (List UInt8 × Bool) :=
  if total < transfer_size then do
    let chunk := min RP_FS_MAILBOX_CHUNK_SIZE (transfer_size - total)
    match ← rpFsRead ff handle (UInt16.ofNat chunk) with
    | none => return ([], true)
    | some [] => return ([], true)
    | some (b :: bytes) =>
      let (rest, failed) ← loadChunks ff handle transfer_size (total + (bytes.length + 1))
      return (b :: bytes ++ rest, failed)
  else
    return ([], false)
termination_by transfer_size - total
decreasing_by omega

section Load

variable {ff : FatFs σ} (handle : UInt8) {transfer_size : Nat}

/-- A LOAD reads no more than it is to transfer. -/
theorem length_loadChunks (hread : ReadsAtMost ff) {total : Nat} (htotal : total ≤ transfer_size)
    (s : Storage σ) :
    total + ((loadChunks ff handle transfer_size total).result s).1.length ≤ transfer_size := by
  fun_induction loadChunks ff handle transfer_size total generalizing s with
  | case1 total hlt chunk ih =>
    rw [Prog.result_bind]
    rcases hbytes : (rpFsRead ff handle (UInt16.ofNat chunk)).result s with - | - | ⟨b, bytes⟩
    · exact htotal
    · exact htotal
    · have hchunk : (UInt16.ofNat chunk).toNat ≤ transfer_size - total := by
        rw [UInt16.toNat_ofNat']
        exact (Nat.mod_le _ _).trans (Nat.min_le_right _ _)
      have hlen := length_rpFsRead ff handle hread _ s hbytes
      rw [List.length_cons] at hlen
      have hrest := ih bytes (by omega) ((rpFsRead ff handle (UInt16.ofNat chunk)).final s)
      simp only [Prog.result_bind, Prog.result_pure, List.length_append, List.length_cons] at hrest ⊢
      omega
  | case2 total hge =>
    rw [Prog.result_pure]
    exact htotal

variable (ff transfer_size) in
/-- The loop of a LOAD reads its chunks and stores them one behind the other. -/
theorem bulkLoop_load (mem_ptr : UInt16) (total : Nat) (f : Firmware σ) :
    let r := (loadChunks ff handle transfer_size total).result f.storage
    (bulkLoop ff RP_FS_OP_LOAD handle mem_ptr transfer_size total).result f = (total + r.1.length, r.2) ∧
      ∃ m, (bulkLoop ff RP_FS_OP_LOAD handle mem_ptr transfer_size total).final f =
          { f with storage := (loadChunks ff handle transfer_size total).final f.storage, hw := m } ∧
        (f.hw.gControlMode = .mRPI → m.gControlMode = .mRPI ∧
          m.view = f.hw.view.writes (blockWrites (mem_ptr + UInt16.ofNat total) r.1)) := by
  fun_induction loadChunks ff handle transfer_size total generalizing f with
  | case1 total hlt chunk ih =>
    rw [bulkLoop, if_pos hlt, if_pos rfl]
    simp only [Prog.result_bind, Prog.final_bind, onStorage, Prog.result_on, Prog.final_on]
    rcases (rpFsRead ff handle (UInt16.ofNat chunk)).result f.storage with - | - | ⟨b, bytes⟩
    · exact ⟨rfl, f.hw, rfl, fun hm => ⟨hm, rfl⟩⟩
    · exact ⟨rfl, f.hw, rfl, fun hm => ⟨hm, rfl⟩⟩
    · obtain ⟨hres, m, hfin, hboard⟩ := ih bytes { f with
        storage := (rpFsRead ff handle (UInt16.ofNat chunk)).final f.storage
        hw := (writeBlock (mem_ptr + UInt16.ofNat total) (b :: bytes)).final f.hw }
      simp only [Prog.result_bind, Prog.final_bind, Prog.result_pure, Prog.final_pure, onHw, Prog.final_on]
      refine ⟨?_, m, hfin, fun hm => ?_⟩
      · rw [hres, List.length_append, List.length_cons, Nat.add_assoc]
      · obtain ⟨hview, hmode⟩ := writeBlock_spec hm (mem_ptr + UInt16.ofNat total) (b :: bytes)
        obtain ⟨hmode', hview'⟩ := hboard hmode
        refine ⟨hmode', ?_⟩
        rw [hview', hview, ← Machine.View.writes_append, blockWrites_append, List.length_cons,
          UInt16.add_assoc, ← UInt16.ofNat_add]
  | case2 total hge =>
    rw [bulkLoop, if_neg hge]
    exact ⟨rfl, f.hw, rfl, fun hm => ⟨hm, rfl⟩⟩

end Load

/-- What a SAVE writes of the bytes it still has to transfer: how many it has transferred at the end, and
whether it failed. -/
def saveChunks (ff : FatFs σ) (handle : UInt8) (bytes : List UInt8) (total : Nat) :
    Prog (Storage σ) (Nat × Bool) :=
  if _h : bytes = [] then
    return (total, false)
  else do
    let buffer := bytes.take RP_FS_MAILBOX_CHUNK_SIZE
    match ← rpFsWrite ff handle buffer with
    | none => return (total, true)
    | some count =>
      if count ≠ buffer.length then return (total + count, true)
      else saveChunks ff handle (bytes.drop RP_FS_MAILBOX_CHUNK_SIZE) (total + buffer.length)
termination_by bytes.length
decreasing_by
  have hpos := List.length_pos_iff.2 _h
  rw [List.length_drop, RP_FS_MAILBOX_CHUNK_SIZE]
  omega

/-- The loop of a SAVE reads its chunks one behind the other and writes them. -/
theorem bulkLoop_save (ff : FatFs σ) (handle : UInt8) (mem_ptr : UInt16) {transfer_size total : Nat}
    (htotal : total ≤ transfer_size) (f : Firmware σ) (hf : f.hw.gControlMode = .mRPI) :
    let bytes := f.hw.view.bytes (mem_ptr + UInt16.ofNat total) (transfer_size - total)
    (bulkLoop ff RP_FS_OP_SAVE handle mem_ptr transfer_size total).result f =
        (saveChunks ff handle bytes total).result f.storage ∧
      ∃ m, (bulkLoop ff RP_FS_OP_SAVE handle mem_ptr transfer_size total).final f =
          { f with storage := (saveChunks ff handle bytes total).final f.storage, hw := m } ∧
        m.gControlMode = .mRPI ∧ m.view = f.hw.view := by
  induction hn : transfer_size - total using Nat.strong_induction_on generalizing total f with
  | _ n ih =>
    subst hn
    intro bytes
    have hlength : bytes.length = transfer_size - total := Machine.View.length_bytes _ _ _
    by_cases hlt : total < transfer_size
    swap
    · have hempty : bytes = [] := List.eq_nil_of_length_eq_zero (by omega)
      rw [bulkLoop, if_neg hlt, saveChunks, dif_pos hempty]
      exact ⟨rfl, f.hw, rfl, hf, rfl⟩
    have hne : bytes ≠ [] := List.ne_nil_of_length_pos (by omega)
    have hload : ¬ RP_FS_OP_SAVE = RP_FS_OP_LOAD := by decide
    generalize hchunk : min RP_FS_MAILBOX_CHUNK_SIZE (transfer_size - total) = chunk
    have hpos : 0 < chunk := by
      rw [← hchunk, RP_FS_MAILBOX_CHUNK_SIZE]
      omega
    have hfewer : transfer_size - (total + chunk) < transfer_size - total := by omega
    -- The bytes that are left are the chunk and those behind it.
    have hbuffer : bytes.take RP_FS_MAILBOX_CHUNK_SIZE = f.hw.view.bytes (mem_ptr + UInt16.ofNat total) chunk := by
      rw [List.take_eq_take_min, hlength, hchunk]
      exact f.hw.view.take_bytes _ (by omega)
    have hrest : bytes.drop RP_FS_MAILBOX_CHUNK_SIZE =
        f.hw.view.bytes (mem_ptr + UInt16.ofNat (total + chunk)) (transfer_size - (total + chunk)) := by
      rw [List.drop_eq_drop_min, hlength, hchunk]
      refine (f.hw.view.drop_bytes _ _ _).trans ?_
      rw [UInt16.add_assoc, ← UInt16.ofNat_add, Nat.sub_sub]
    obtain ⟨hread, hview, hmode⟩ := readBlock_spec hf (mem_ptr + UInt16.ofNat total) chunk
    rw [bulkLoop, if_pos hlt, if_neg hload, saveChunks, dif_neg hne]
    simp only [hchunk, hbuffer, hrest, Prog.result_bind, Prog.final_bind, onHw, onStorage, Prog.result_on,
      Prog.final_on, hread, Machine.View.length_bytes]
    rcases (rpFsWrite ff handle (f.hw.view.bytes (mem_ptr + UInt16.ofNat total) chunk)).result f.storage with - | count
    · exact ⟨rfl, _, rfl, hmode, hview⟩
    by_cases hcount : count = chunk
    swap
    · simp only [if_pos hcount]
      exact ⟨rfl, _, rfl, hmode, hview⟩
    · simp only [hcount, ne_eq, not_true_eq_false, if_false]
      obtain ⟨hres, m, hfin, hmode', hview'⟩ := @ih _ hfewer (total + chunk) (by omega) { f with
        storage := (rpFsWrite ff handle (f.hw.view.bytes (mem_ptr + UInt16.ofNat total) chunk)).final f.storage
        hw := (readBlock (mem_ptr + UInt16.ofNat total) chunk).final f.hw } hmode rfl
      dsimp only at hres hfin hview'
      rw [hview] at hres hfin hview'
      exact ⟨hres, m, hfin, hmode', hview'⟩

end NeoMmu
