import NeoMmu.Mailbox.Streams

/-!
# SEEK is exact

A SEEK adds a signed offset of 32 bits, which comes in four bytes, to the start, the position or the size of a
file. The sum is one of integers: where it is no position the request is refused and nothing moves, and otherwise
`f_lseek()` gets it as it is. The new position is published twice, in the result registers and in the argument
block.
-/

namespace NeoMmu

variable {σ : Type}

/-! ## Numbers in bytes -/

/-- The number in some bytes, the lowest first. -/
def littleEndian (bytes : List UInt8) : Nat := bytes.foldr (fun b n => b.toNat + 256 * n) 0

theorem littleEndian_littleEndian32 (v : UInt32) : littleEndian (littleEndian32 v) = v.toNat := by
  have hv := v.toNat_lt
  simp only [littleEndian, littleEndian32, List.foldr_cons, List.foldr_nil, UInt32.toNat_toUInt8,
    UInt32.toNat_shiftRight, UInt32.reduceToNat, Nat.shiftRight_eq_div_pow, Nat.reduceMod, Nat.reducePow]
  omega

theorem length_littleEndian32 (v : UInt32) : (littleEndian32 v).length = 4 := rfl

theorem toNat_rpFsMbU16 (raw : List UInt8) (i : Nat) :
    (rpFsMbU16 raw i).toNat = (rawByte raw i).toNat + 256 * (rawByte raw (i + 1)).toNat := by
  have hlow := (rawByte raw i).toNat_lt
  have hhigh := (rawByte raw (i + 1)).toNat_lt
  have hshift : ((rawByte raw (i + 1)).toUInt16 <<< 8).toNat = (rawByte raw (i + 1)).toNat <<< 8 := by
    simp only [UInt16.toNat_shiftLeft, UInt8.toNat_toUInt16, UInt16.reduceToNat, Nat.reduceMod,
      Nat.shiftLeft_eq, Nat.reducePow]
    omega
  rw [rpFsMbU16, UInt16.toNat_or, hshift, UInt8.toNat_toUInt16, Nat.or_comm,
    ← Nat.shiftLeft_add_eq_or_of_lt (by omega), Nat.shiftLeft_eq]
  omega

/-- The words of an offset put together are the number in its bytes. -/
theorem toNat_offset_bits (raw : List UInt8) :
    ((rpFsMbU16 raw 2).toUInt32 ||| ((rpFsMbU16 raw 4).toUInt32 <<< 16)).toNat =
      littleEndian [rawByte raw 2, rawByte raw 3, rawByte raw 4, rawByte raw 5] := by
  have hlow := (rpFsMbU16 raw 2).toNat_lt
  have hhigh := (rpFsMbU16 raw 4).toNat_lt
  have hshift : ((rpFsMbU16 raw 4).toUInt32 <<< 16).toNat = (rpFsMbU16 raw 4).toNat <<< 16 := by
    simp only [UInt32.toNat_shiftLeft, UInt16.toNat_toUInt32, UInt32.reduceToNat, Nat.reduceMod,
      Nat.shiftLeft_eq, Nat.reducePow]
    omega
  rw [UInt32.toNat_or, hshift, UInt16.toNat_toUInt32, Nat.or_comm,
    ← Nat.shiftLeft_add_eq_or_of_lt (by omega), Nat.shiftLeft_eq, toNat_rpFsMbU16, toNat_rpFsMbU16]
  simp only [littleEndian, List.foldr_cons, List.foldr_nil, Nat.reduceAdd]
  omega

/-- The number of some bits in two's complement. -/
def twosComplement (bits n : Nat) : Int := (n : Int).bmod (2 ^ bits)

theorem toInt_toInt32 (v : UInt32) : v.toInt32.toInt = twosComplement 32 v.toNat := by
  show v.toBitVec.toInt = _
  rw [BitVec.toInt_eq_toNat_bmod]
  rfl

/-! ## The request -/

/-- What FatFs does to a position. -/
structure SeekLaws (ff : FatFs σ) : Prop where
  f_lseek : ∀ slot position, Prog.Keeps SameTables (ff.f_lseek slot position)
  f_lseek_ok : ∀ slot position s, (ff.f_lseek slot position).result s = FR_OK →
    ff.f_tell slot ((ff.f_lseek slot position).final s) ≤ position
  f_lseek_failed : ∀ slot position s, (ff.f_lseek slot position).result s ≠ FR_OK →
    ff.f_tell slot ((ff.f_lseek slot position).final s) = ff.f_tell slot s

/-- The position a SEEK counts from. -/
def Storage.seekOrigin (ff : FatFs σ) (s : Storage σ) (handle whence : UInt8) : Option Nat :=
  if whence = 0 then some 0
  else if whence = 1 then some (ff.f_tell handle s).toNat
  else if whence = 2 then some (ff.f_size handle s).toNat
  else none

/-- The position a SEEK is to reach, if there is one. -/
def Storage.seekTarget (ff : FatFs σ) (s : Storage σ) (handle whence : UInt8) (offset : Int) : Option UInt32 :=
  (s.seekOrigin ff handle whence).bind fun origin =>
    if 0 ≤ origin + offset ∧ origin + offset < 2 ^ 32 then some (.ofNat (origin + offset).toNat) else none

/-- A SEEK in the block, on an open handle, with its arguments in the caller's memory. -/
structure Firmware.Seeks (f : Firmware σ) (handle whence : UInt8) (offset : Int) : Prop where
  operation : f.hw.view.peek RP_STATE = RP_FS_OP_SEEK
  pid : f.hw.view.peek RP_ARG1L < RP_FS_NEOX_MAX_PROCS
  isOpen : f.storage.isOpen handle = true
  handle : f.hw.view.peek RP_ARG2L = handle
  args : (f.hw.view.contextBlock (f.hw.view.peek RP_ARG1H) (f.hw.view.peek16 RP_ARG0L) 10).map
    (fun raw => (rawByte raw 1,
      twosComplement 32 (littleEndian [rawByte raw 2, rawByte raw 3, rawByte raw 4, rawByte raw 5]))) =
    some (whence, offset)

/-- The reply is an error. -/
structure Firmware.FailedWith (f : Firmware σ) (err : UInt8) : Prop where
  status : f.hw.view.peek RP_STATUS = RP_ERROR
  err : f.hw.view.peek RP_ERR = err

/-- The reply is a position: it is in the result registers, and in the four cells of the argument block, but where
the reply has been put over them. -/
structure ReportsPosition (context : UInt8) (args_ptr : UInt16) (f f' : Firmware σ) (position : Nat) : Prop where
  status : f'.hw.view.peek RP_STATUS = RP_DONE
  registers : (f'.hw.view.peek16 RP_RES0L).toNat + 2 ^ 16 * (f'.hw.view.peek16 RP_RES1L).toNat = position
  stored : ∃ bytes : List UInt8, bytes.length = 4 ∧ littleEndian bytes = position ∧
    ∀ i (hi : i < bytes.length),
      let cell := (f.hw.view.inContext context).physAddr (args_ptr + 6 + UInt16.ofNat i)
      (∀ a ∈ replyAddresses, f'.hw.view.physAddr a ≠ cell) → f'.hw.ram cell = bytes[i]

/-- FatFs gets the position to reach, and the reply is the one it has reached. -/
structure Reached (ff : FatFs σ) (handle : UInt8) (target : UInt32) (context : UInt8) (args_ptr : UInt16)
    (f f' : Firmware σ) : Prop where
  storage : f'.storage = (ff.f_lseek handle target).final f.storage
  done : (ff.f_lseek handle target).result f.storage = FR_OK →
    ReportsPosition context args_ptr f f' (ff.f_tell handle f'.storage).toNat ∧
      ff.f_tell handle f'.storage ≤ target
  failed : (ff.f_lseek handle target).result f.storage ≠ FR_OK →
    f'.FailedWith RP_ERR_EIO ∧ ff.f_tell handle f'.storage = ff.f_tell handle f.storage

/-- What a SEEK does. -/
structure Sought (ff : FatFs σ) (handle whence : UInt8) (offset : Int) (context : UInt8) (args_ptr : UInt16)
    (f f' : Firmware σ) : Prop where
  /-- Where there is no position to reach, nothing moves. -/
  refused : f.storage.seekTarget ff handle whence offset = none →
    f'.FailedWith RP_ERR_EINVAL ∧ f'.storage = f.storage
  sought : ∀ target, f.storage.seekTarget ff handle whence offset = some target →
    Reached ff handle target context args_ptr f f'

section Congr

variable {ff : FatFs σ} {handle whence : UInt8} {offset : Int} {context : UInt8} {args_ptr : UInt16}
  {f f₁ f' f₁' : Firmware σ}

theorem Firmware.FailedWith.congr {err : UInt8} (hhw : f₁'.hw = f'.hw) (h : f₁'.FailedWith err) :
    f'.FailedWith err := by
  obtain ⟨hstatus, herr⟩ := h
  rw [hhw] at hstatus herr
  exact ⟨hstatus, herr⟩

theorem ReportsPosition.congr {position : Nat}
    (hview : f₁.hw.view.inContext context = f.hw.view.inContext context) (hhw : f₁'.hw = f'.hw)
    (h : ReportsPosition context args_ptr f₁ f₁' position) :
    ReportsPosition context args_ptr f f' position := by
  obtain ⟨hstatus, hregisters, bytes, hlength, hvalue, hstored⟩ := h
  rw [hhw] at hstatus hregisters
  refine ⟨hstatus, hregisters, bytes, hlength, hvalue, fun i hi => ?_⟩
  have hcell := hstored i hi
  rw [hview, hhw] at hcell
  exact hcell

/-- A SEEK is about the storage and the context in front, and about the storage and the board behind. -/
theorem Sought.congr (hstorage : f₁.storage = f.storage)
    (hview : f₁.hw.view.inContext context = f.hw.view.inContext context) (hstorage' : f₁'.storage = f'.storage)
    (hhw : f₁'.hw = f'.hw) (h : Sought ff handle whence offset context args_ptr f₁ f₁') :
    Sought ff handle whence offset context args_ptr f f' := by
  obtain ⟨hrefused, hsought⟩ := h
  rw [hstorage, hstorage'] at hrefused
  rw [hstorage] at hsought
  refine ⟨fun hnone => ?_, fun target htarget => ?_⟩
  · obtain ⟨hfailed, hsame⟩ := hrefused hnone
    exact ⟨hfailed.congr hhw, hsame⟩
  · obtain ⟨hreached, hdone, hfailed⟩ := hsought target htarget
    rw [hstorage, hstorage'] at hreached hdone hfailed
    refine ⟨hreached, fun hok => ?_, fun hbad => ?_⟩
    · exact ⟨(hdone hok).1.congr hview hhw, (hdone hok).2⟩
    · exact ⟨(hfailed hbad).1.congr hhw, (hfailed hbad).2⟩

end Congr

/-! ## Replies -/

theorem failedWith_error {f : Firmware σ} (hf : f.hw.Settled) (err : UInt8) :
    ((fsMbError err 0).final f).storage = f.storage ∧ ((fsMbError err 0).final f).FailedWith err := by
  have hreply := rpMailboxPublish_spec hf 0 0 err 0 RP_ERROR
  refine ⟨(error_spec hf err 0).1, (error_spec hf err 0).2, ?_⟩
  simp only [fsMbError, rpMailboxSetError, Prog.final_bind, Prog.final_pure, emit, Prog.final_modify, onHw,
    Prog.final_on] at hreply ⊢
  exact hreply.2.2.1

/-- The second result of a reply. -/
theorem reply_res1 {m : Machine} (hm : m.Settled) (res0 res1 : UInt16) (err flags status : UInt8) :
    ((rpMailboxPublish res0 res1 err flags status).final m).view.peek16 RP_RES1L = res1 := by
  have hfields : Stores (rpMailboxPublish res0 res1 err flags status) _ :=
    (stores_rpWrite16 RP_RES0L res0).bind <| (stores_rpWrite16 RP_RES1L res1).bind <|
      (stores_snoopWrite RP_ERR err).bind <| (stores_snoopWrite RP_FLAGS flags).bind <|
      (stores_snoopWrite RP_STATUS status).bind (stores_snoopWrite RP_DOORBELL RP_DOORBELL_NONE)
  obtain ⟨hview, -⟩ := hfields m hm
  generalize (rpMailboxPublish res0 res1 err flags status).final m = m' at hview
  have hlow : m'.view.peek RP_RES1L = (res1 &&& 0xFF).toUInt8 := by
    rw [hview]
    refine Machine.View.peek_writes_last _ [_, _] _ ?_
    simp
    decide
  have hhigh : m'.view.peek (RP_RES1L + 1) = ((res1 >>> 8) &&& 0xFF).toUInt8 := by
    rw [hview]
    refine Machine.View.peek_writes_last _ [_, _, _] _ ?_
    simp
    decide
  rw [Machine.View.peek16, hlow, hhigh, word_of_bytes]

/-- The two words of a number. -/
theorem words_of_uint32 (v : UInt32) :
    (v &&& 0xFFFF).toUInt16.toNat + 2 ^ 16 * ((v >>> 16) &&& 0xFFFF).toUInt16.toNat = v.toNat := by
  have hv := v.toNat_lt
  have hmask : ∀ n : Nat, n &&& 65535 = n % 65536 := fun n => Nat.and_two_pow_sub_one_eq_mod n 16
  simp only [UInt32.toNat_toUInt16, UInt32.toNat_and, UInt32.toNat_shiftRight, UInt32.reduceToNat, hmask,
    Nat.shiftRight_eq_div_pow, Nat.reduceMod, Nat.reducePow]
  omega

theorem done32_spec {f : Firmware σ} (hf : f.hw.Settled) (result : UInt32) :
    let f' := (fsMbDone32 result).final f
    Untouched f f' ∧ f'.hw.view.peek RP_STATUS = RP_DONE ∧
      (f'.hw.view.peek16 RP_RES0L).toNat + 2 ^ 16 * (f'.hw.view.peek16 RP_RES1L).toNat = result.toNat := by
  have huntouched := untouched_reply hf (result &&& 0xFFFF).toUInt16 ((result >>> 16) &&& 0xFFFF).toUInt16
    RP_ERR_OK 0 RP_DONE
  have hreply := reply_spec hf (result &&& 0xFFFF).toUInt16 ((result >>> 16) &&& 0xFFFF).toUInt16
    RP_ERR_OK 0 RP_DONE
  have hres1 := reply_res1 hf (result &&& 0xFFFF).toUInt16 ((result >>> 16) &&& 0xFFFF).toUInt16
    RP_ERR_OK 0 RP_DONE
  simp only [fsMbDone32, rpMailboxSetDone32, Prog.final_bind, Prog.final_pure, emit, Prog.final_modify, onHw,
    Prog.final_on] at huntouched hreply ⊢
  refine ⟨huntouched, hreply.2.1, ?_⟩
  rw [hreply.2.2.1, hres1]
  exact words_of_uint32 result

/-! ## The operation -/

/-- `rp_fs_mb_exec_seek()` behind its argument block and the check of the handle. -/
def seekBehindBlock (ff : FatFs σ) (context : UInt8) (args_ptr : UInt16) (handle whence : UInt8) (offset : Int) :
    Prog (Firmware σ) MailboxState := do
  match ← onStorage (seekBase ff handle whence) with
  | none => fsMbError RP_ERR_EINVAL 0
  | some base =>
    let target := base + offset
    if target < 0 ∨ 0xFFFFFFFF < target then
      fsMbError RP_ERR_EINVAL 0
    else
      if ← onStorage (rpFsSeek ff handle (UInt32.ofNat target.toNat)) then
        let position ← onStorage (rpFsPosition ff handle)
        withResult context (args_ptr + 6) (littleEndian32 position) (fsMbDone32 position)
      else
        fsMbError RP_ERR_EIO 0

theorem rpFsMbExecSeek_eq (ff : FatFs σ) (context : UInt8) (args_ptr : UInt16) (handle : UInt8) :
    rpFsMbExecSeek ff context args_ptr handle = withArgs context args_ptr 10 (fun _ => true) fun raw =>
      withOpen (fun f => f.storage.isOpen handle) <|
        seekBehindBlock ff context args_ptr handle (rawByte raw 1)
          ((rpFsMbU16 raw 2).toUInt32 ||| ((rpFsMbU16 raw 4).toUInt32 <<< 16)).toInt32.toInt := rfl

theorem result_seekBase (ff : FatFs σ) {s : Storage σ} {handle : UInt8} (hopen : s.isOpen handle = true)
    (whence : UInt8) : (seekBase ff handle whence).result s = (s.seekOrigin ff handle whence).map Int.ofNat := by
  simp only [seekBase, Storage.seekOrigin, rpFsPosition, rpFsSize, Prog.result_ite, Prog.result_bind,
    Prog.result_pure, Prog.result_gets, hopen, if_true]
  split_ifs
  · rfl
  · rfl
  · rfl
  · rfl

section Operation

variable {ff : FatFs σ} (laws : SeekLaws ff) {f : Firmware σ} (hf : f.hw.Settled) {context handle : UInt8}
  (hc : context < maxContexts)

include laws hf hc

/-- A position that can be reached goes to FatFs, and the one reached is published. -/
theorem reported_position {args_ptr : UInt16} (hrange : rpFsMbPrivateRange args_ptr 10 = true)
    (hopen : f.storage.isOpen handle = true) (target : UInt32) :
    Reached ff handle target context args_ptr f ((do
      if ← onStorage (rpFsSeek ff handle target) then
        let position ← onStorage (rpFsPosition ff handle)
        withResult context (args_ptr + 6) (littleEndian32 position) (fsMbDone32 position)
      else
        fsMbError RP_ERR_EIO 0 : Prog (Firmware σ) MailboxState).final f) := by
  have hfin : (rpFsSeek ff handle target).final f.storage = (ff.f_lseek handle target).final f.storage := by
    rw [rpFsSeek, Prog.final_bind, Prog.result_get, Prog.final_get, if_pos hopen]
    rfl
  have hres : (rpFsSeek ff handle target).result f.storage =
      decide ((ff.f_lseek handle target).result f.storage = FR_OK) := by
    rw [rpFsSeek, Prog.result_bind, Prog.result_get, Prog.final_get, if_pos hopen]
    rfl
  have hkept := laws.f_lseek handle target f.storage
  have hok := laws.f_lseek_ok handle target f.storage
  have hfailed := laws.f_lseek_failed handle target f.storage
  rw [Prog.final_bind, onStorage, Prog.result_on, Prog.final_on, hfin, hres]
  generalize hs : (ff.f_lseek handle target).final f.storage = s at hkept hok hfailed ⊢
  by_cases hfr : (ff.f_lseek handle target).result f.storage = FR_OK
  swap
  · rw [if_neg (by simpa using hfr)]
    obtain ⟨hstorage, herror⟩ := failedWith_error (f := { f with storage := s }) hf RP_ERR_EIO
    refine ⟨hstorage.trans hs.symm, fun h => absurd h hfr, fun _ => ⟨herror, ?_⟩⟩
    rw [hstorage]
    exact hfailed hfr
  rw [if_pos (decide_eq_true hfr), Prog.final_bind, onStorage, Prog.result_on, Prog.final_on]
  have hposition : (rpFsPosition ff handle).result s = ff.f_tell handle s := by
    rw [rpFsPosition, Prog.result_gets, if_pos ((hkept.isOpen handle).trans hopen)]
  have hsame : (rpFsPosition ff handle).final s = s := Prog.final_gets _ s
  rw [hposition, hsame]
  have hpart : rpFsMbPrivateRange (args_ptr + 6) (UInt16.ofNat (littleEndian32 (ff.f_tell handle s)).length) =
      true := by
    rw [length_littleEndian32]
    exact rpFsMbPrivateRange_part hrange (by decide) (by decide)
  obtain ⟨hwritten, hstorage, hsettled, hcells⟩ := writeContextBlock_spec (f := { f with storage := s }) hf hc
    (by rw [length_littleEndian32]; decide) hpart
  rw [withResult, Prog.final_bind, hwritten, if_pos rfl]
  generalize (rpFsMbWriteContextBlock context (args_ptr + 6) _).final { f with storage := s } = g at hstorage hsettled hcells ⊢
  obtain ⟨huntouched, hstatus, hregisters⟩ := done32_spec hsettled (ff.f_tell handle s)
  have hstorage' := huntouched.storage.trans hstorage
  refine ⟨hstorage'.trans hs.symm, fun _ => ?_, fun h => absurd hfr h⟩
  rw [hstorage']
  refine ⟨⟨hstatus, hregisters, _, rfl, littleEndian_littleEndian32 _, fun i hi => ?_⟩, hok hfr⟩
  intro cell hcell
  rw [huntouched.ram cell hcell]
  exact hcells i hi

theorem sought_behindBlock {args_ptr : UInt16} (hrange : rpFsMbPrivateRange args_ptr 10 = true)
    (hopen : f.storage.isOpen handle = true) (whence : UInt8) (offset : Int) :
    Sought ff handle whence offset context args_ptr f
      ((seekBehindBlock ff context args_ptr handle whence offset).final f) := by
  rw [seekBehindBlock, Prog.final_bind, onStorage, Prog.result_on, Prog.final_on, final_seekBase,
    result_seekBase ff hopen]
  rcases horigin : f.storage.seekOrigin ff handle whence with - | origin
  · obtain ⟨hstorage, hfailed⟩ := failedWith_error hf RP_ERR_EINVAL
    refine ⟨fun _ => ⟨hfailed, hstorage⟩, fun target htarget => ?_⟩
    rw [Storage.seekTarget, horigin] at htarget
    cases htarget
  have htarget : f.storage.seekTarget ff handle whence offset =
      if 0 ≤ origin + offset ∧ origin + offset < 2 ^ 32 then some (.ofNat (origin + offset).toNat) else none := by
    rw [Storage.seekTarget, horigin, Option.bind_some]
  dsimp only [Option.map_some]
  rw [Prog.final_ite]
  by_cases hrefused : Int.ofNat origin + offset < 0 ∨ 0xFFFFFFFF < Int.ofNat origin + offset
  · rw [if_pos hrefused]
    obtain ⟨hstorage, hfailed⟩ := failedWith_error hf RP_ERR_EINVAL
    have hnone : ¬ (0 ≤ (origin : Int) + offset ∧ (origin : Int) + offset < 2 ^ 32) := by
      rw [Int.ofNat_eq_natCast] at hrefused
      omega
    rw [if_neg hnone] at htarget
    exact ⟨fun _ => ⟨hfailed, hstorage⟩, fun target h => absurd (h.symm.trans htarget) (Option.some_ne_none _)⟩
  · rw [if_neg hrefused]
    have hsome : 0 ≤ (origin : Int) + offset ∧ (origin : Int) + offset < 2 ^ 32 := by
      rw [Int.ofNat_eq_natCast] at hrefused
      omega
    rw [if_pos hsome] at htarget
    refine ⟨fun h => absurd (htarget.symm.trans h) (Option.some_ne_none _), fun target h => ?_⟩
    obtain rfl := Option.some.inj (htarget.symm.trans h)
    exact reported_position laws hf hc hrange hopen _

/-- A SEEK on an open handle. -/
theorem exec_seek {args_ptr : UInt16} {raw : List UInt8} (hopen : f.storage.isOpen handle = true)
    (hblock : f.hw.view.contextBlock context args_ptr 10 = some raw) :
    Sought ff handle (rawByte raw 1)
      (twosComplement 32 (littleEndian [rawByte raw 2, rawByte raw 3, rawByte raw 4, rawByte raw 5]))
      context args_ptr f ((rpFsMbExecSeek ff context args_ptr handle).final f) := by
  have hrange : rpFsMbPrivateRange args_ptr 10 = true := by
    rw [Machine.View.contextBlock] at hblock
    split_ifs at hblock with hrefused
    exact Bool.not_eq_false _ ▸ fun h => hrefused (.inl h)
  rw [rpFsMbExecSeek_eq]
  obtain ⟨f₁, hreads, hfin⟩ := final_withArgs hf context args_ptr 10 (fun _ => true) _
  rw [hfin, hblock]
  have hf₁ := (hreads.board hf).1
  rw [← hreads.storage] at hopen
  dsimp only
  rw [if_pos rfl, withOpen, Prog.final_bind, Prog.result_get, Prog.final_get, if_pos hopen, toInt_toInt32,
    toNat_offset_bits]
  exact (sought_behindBlock laws hf₁ hc hrange hopen _ _).congr hreads.storage (hreads.inContext hf context)
    rfl rfl

end Operation

section Request

variable {ff : FatFs σ} (laws : SeekLaws ff) {f : Firmware σ} (hf : f.hw.Settled) {handle whence : UInt8}
  {offset : Int}

include laws hf

/-- A SEEK behind the check of PID and context. -/
theorem checked_seek (hseeks : f.Seeks handle whence offset) :
    Sought ff handle whence offset (f.hw.view.peek RP_ARG1H) (f.hw.view.peek16 RP_ARG0L) f
      ((checkedOperation ff RP_FS_OP_SEEK (f.hw.view.peek RP_ARG1L) (f.hw.view.peek RP_ARG1H)).final f) := by
  obtain ⟨-, hpid, hopen, rfl, hargs⟩ := hseeks
  obtain ⟨raw, hraw, heq⟩ := Option.map_eq_some_iff.1 hargs
  obtain ⟨rfl, rfl⟩ := Prod.mk.inj heq
  have hc : f.hw.view.peek RP_ARG1H < maxContexts := by
    rw [Machine.View.contextBlock] at hraw
    split_ifs at hraw with hrefused
    exact UInt8.not_le.1 fun h => hrefused (.inr h)
  have hadmitted : ¬ (RP_FS_NEOX_MAX_PROCS ≤ f.hw.view.peek RP_ARG1L ∨ maxContexts ≤ f.hw.view.peek RP_ARG1H) :=
    fun h => h.elim (UInt8.not_le.2 hpid) (UInt8.not_le.2 hc)
  rw [checkedOperation, if_neg hadmitted, execOperation_seek]
  obtain ⟨m₁, hm₁, hview₁, hfin₁⟩ := final_readArg0 hf fun a => do
    rpFsMbExecSeek ff (f.hw.view.peek RP_ARG1H) a (← readArg2L)
  obtain ⟨m₂, hm₂, hview₂, hfin₂⟩ := final_readArg2L (f := { f with hw := m₁ }) hm₁
    (rpFsMbExecSeek ff (f.hw.view.peek RP_ARG1H) (f.hw.view.peek16 RP_ARG0L))
  rw [hfin₁, hfin₂, hview₁]
  have hview : m₂.view = f.hw.view := hview₂.trans hview₁
  have hraw₂ : m₂.view.contextBlock (f.hw.view.peek RP_ARG1H) (f.hw.view.peek16 RP_ARG0L) 10 = some raw := by
    rw [hview]
    exact hraw
  have hsought := exec_seek laws (f := { f with hw := m₂ }) hm₂ hc hopen hraw₂
  have hfront : m₂.view.inContext (f.hw.view.peek RP_ARG1H) = f.hw.view.inContext (f.hw.view.peek RP_ARG1H) := by
    rw [hview]
  generalize (rpFsMbExecSeek ff _ _ _).final { f with hw := m₂ } = f' at hsought ⊢
  refine Sought.congr ?_ ?_ ?_ ?_ hsought
  · rfl
  · exact hfront
  · rfl
  · rfl

/-- What a SEEK does, for every handle, origin, offset, file size and position. -/
theorem seek_exact (hseeks : f.Seeks handle whence offset) :
    Sought ff handle whence offset (f.hw.view.peek RP_ARG1H) (f.hw.view.peek16 RP_ARG0L) f
      ((rpFsMailboxHandleExec ff).final f) := by
  obtain ⟨m₀, op, pid, context, hblock, -, hfin⟩ := final_rpFsMailboxHandleExec ff f
  obtain ⟨hm₀, hview₀, rfl, rfl, rfl⟩ := hblock hf
  have hseeks₀ : Firmware.Seeks { f with hw := m₀ } handle whence offset := by
    obtain ⟨hop, hpid, hopen, hhandle, hargs⟩ := hseeks
    exact ⟨hview₀ ▸ hop, hview₀ ▸ hpid, hopen, hview₀ ▸ hhandle, hview₀ ▸ hargs⟩
  have hchecked := checked_seek laws (f := { f with hw := m₀ }) hm₀ hseeks₀
  rw [hview₀] at hchecked
  rw [hfin, hseeks.operation]
  have hfront : m₀.view.inContext (f.hw.view.peek RP_ARG1H) = f.hw.view.inContext (f.hw.view.peek RP_ARG1H) := by
    rw [hview₀]
  generalize (checkedOperation ff RP_FS_OP_SEEK _ _).final { f with hw := m₀ } = g at hchecked ⊢
  refine Sought.congr ?_ ?_ ?_ ?_ hchecked
  · rfl
  · exact hfront
  · rfl
  · rfl

end Request

theorem RamDisk.seekLaws : SeekLaws fatFs where
  f_lseek := RamDisk.tableLaws.f_lseek
  f_lseek_ok slot position s _ := by
    have htell : fatFs.f_tell slot ((fatFs.f_lseek slot position).final s) = position := by
      simp [fatFs, seek]
    rw [htell]
    exact UInt32.le_refl position
  f_lseek_failed slot position s h := absurd rfl h

/-- The memory of a request of PID 1 in context 0, which seeks one back from the position of handle 0. -/
def backRam (cell : UInt8 × UInt16) : UInt8 :=
  (List.lookup cell
    [((0x0B, 0x005), RP_FS_OP_SEEK), ((0x0B, 0x007), 0x02), ((0x0B, 0x008), 1), ((0x00, 0x201), 1),
     ((0x00, 0x202), 0xFF), ((0x00, 0x203), 0xFF), ((0x00, 0x204), 0xFF), ((0x00, 0x205), 0xFF)]).getD 0

/-- The firmware that gets it, with the handle at byte 1. -/
def backFirmware : Firmware RamDisk := .start (.running backRam) pieceStorage

/-- The handle is at the start. -/
theorem seek_exact_back :
    ReportsPosition (backFirmware.hw.view.peek RP_ARG1H) (backFirmware.hw.view.peek16 RP_ARG0L) backFirmware
      ((rpFsMailboxHandleExec RamDisk.fatFs).final backFirmware) 0 := by
  have hseeks : backFirmware.Seeks 0 1 (-1) :=
    ⟨by decide, by decide, by decide, by decide, by decide⟩
  have hreached := (seek_exact RamDisk.seekLaws (Machine.settled_running _) hseeks).sought 0 (by decide)
  have hreported := (hreached.done (by decide)).1
  have htell : (RamDisk.fatFs.f_tell 0 ((rpFsMailboxHandleExec RamDisk.fatFs).final backFirmware).storage).toNat =
      0 := by
    rw [hreached.storage]
    decide
  rwa [htell] at hreported

end NeoMmu
