import NeoMmu.Foundation.Cursor
import NeoMmu.Mailbox.Seek

/-!
# An open file is a cursor

READ, WRITE and SEEK through a handle are what they are on a sequence of bytes with a position, whatever requests on
other handles and files come in between: a READ delivers the bytes that are next, a WRITE puts bytes of the caller's
memory over them, and a SEEK goes where it reports to have gone. What was written can be read again.
-/

namespace NeoMmu

variable {σ φ α : Type}

/-! ## The laws of FatFs -/

/-- What FatFs does to a file through the handle that a client has on it, whose position is not behind its end. -/
structure CursorLaws (ff : FatFs σ) (v : FileView σ φ) (handle : UInt8) (file : φ) : Prop where
  f_write_ok : ∀ src s, (v.fil s.fatfs handle).1 = file → ((ff.f_write handle src).result s).1 = FR_OK →
    let bytes := v.data s.fatfs file
    let position := (v.fil s.fatfs handle).2
    let count := ((ff.f_write handle src).result s).2
    let s' := (ff.f_write handle src).final s
    position ≤ bytes.length → count ≤ src.length ∧
      v.data s'.fatfs file = bytes.take position ++ src.take count ++ bytes.drop (position + count) ∧
      v.fil s'.fatfs handle = (file, position + count)
  f_lseek_ok : ∀ target s, (v.fil s.fatfs handle).1 = file → (ff.f_lseek handle target).result s = FR_OK →
    let bytes := v.data s.fatfs file
    let s' := (ff.f_lseek handle target).final s
    let bytes' := v.data s'.fatfs file
    let position := (v.fil s'.fatfs handle).2
    (v.fil s'.fatfs handle).1 = file ∧
      (target.toNat ≤ bytes.length → bytes' = bytes ∧ position = target.toNat) ∧
      (bytes.length < target.toNat → bytes <+: bytes' ∧ position = bytes'.length ∧ position ≤ target.toNat)

/-- The handle is on a file at a position, as the cursor shows them. -/
structure Storage.AtCursor (v : FileView σ φ) (handle : UInt8) (file : φ) (c : Cursor UInt8) (s : Storage σ) :
    Prop where
  isOpen : s.isOpen handle = true
  fil : v.fil s.fatfs handle = (file, c.position)
  data : v.data s.fatfs file = c.contents

/-! ## Requests -/

/-- What a client asks of a handle. -/
inductive CursorRequest
  | read (dst len : UInt16)
  | write (src len : UInt16)
  | seek (whence : UInt8) (offset : Int)

/-- The request in the block. -/
def Firmware.Asks (f : Firmware σ) (handle : UInt8) : CursorRequest → Prop
  | .read dst len => f.HandleTransfer RP_FS_OP_READ handle dst len
  | .write src len => f.HandleTransfer RP_FS_OP_WRITE handle src len
  | .seek whence offset => f.Seeks handle whence offset

/-- What the origin of a SEEK stands for. -/
def seekOriginOf (whence : UInt8) : Option Cursor.Origin :=
  if whence = 0 then some .start
  else if whence = 1 then some .current
  else if whence = 2 then some .behind
  else none

/-- What a request and its reply show of an action. A READ stores what it delivers in the caller's memory, but where
the reply has been put over it; a WRITE takes as many bytes as it reports from there; neither is for more than a
buffer of 256 bytes; and a SEEK reports where it went. -/
def CursorRequest.Performs (f f' : Firmware σ) : CursorRequest → Cursor.Action UInt8 → Prop
  | .read dst len, .read n chunk =>
    n = min len.toNat 256 ∧ f'.hw.view.peek16 RP_RES0L = UInt16.ofNat chunk.length ∧
      ∀ i (hi : i < chunk.length),
        let cell := (f.hw.view.inContext (f.hw.view.peek RP_ARG1H)).physAddr (dst + UInt16.ofNat i)
        (∀ a ∈ replyAddresses, f'.hw.view.physAddr a ≠ cell) → f'.hw.ram cell = chunk[i]
  | .write src len, .write bytes =>
    let count := (f'.hw.view.peek16 RP_RES0L).toNat
    count ≤ min len.toNat 256 ∧ bytes = (f.hw.view.inContext (f.hw.view.peek RP_ARG1H)).bytes src count
  | .seek whence offset, .seek origin offset' reached =>
    seekOriginOf whence = some origin ∧ offset' = offset ∧
      ReportsPosition (f.hw.view.peek RP_ARG1H) (f.hw.view.peek16 RP_ARG0L) f f' reached
  | _, _ => False

/-- Requests of some clients that are served one after the other, from one storage to another: READs, WRITEs and
SEEKs of the handle, on a file that is smaller than FatFs can make it, and requests that work elsewhere. All but the
storage may change in between. -/
inductive CursorRun (ff : FatFs σ) (v : FileView σ φ) (handle : UInt8) (file : φ) :
    Storage σ → List (Firmware σ × CursorRequest) → Storage σ → Prop
  | done (s : Storage σ) : CursorRun ff v handle file s [] s
  | on (f : Firmware σ) {request : CursorRequest} (settled : f.hw.Settled) (asks : f.Asks handle request)
    (small : (v.data f.storage.fatfs file).length < 2 ^ 32)
    (served : ((rpFsMailboxHandleExec ff).final f).hw.view.peek RP_STATUS = RP_DONE)
    {rest : List (Firmware σ × CursorRequest)} {s' : Storage σ}
    (next : CursorRun ff v handle file ((rpFsMailboxHandleExec ff).final f).storage rest s') :
    CursorRun ff v handle file f.storage ((f, request) :: rest) s'
  | other (f : Firmware σ) (settled : f.hw.Settled) (elsewhere : f.Elsewhere v handle file)
    {rest : List (Firmware σ × CursorRequest)} {s' : Storage σ}
    (next : CursorRun ff v handle file ((rpFsMailboxHandleExec ff).final f).storage rest s') :
    CursorRun ff v handle file f.storage rest s'

/-! ## WRITE -/

/-- `rp_fs_mb_exec_write()` behind its argument block. -/
def writeBehindBlock (ff : FatFs σ) (handle context : UInt8) (src len : UInt16) : Prog (Firmware σ) MailboxState :=
  withOpen (fun f => f.storage.isOpen handle) <|
    if src = 0 then fsMbError RP_ERR_EINVAL 0
    else if len = 0 then fsMbDone 0 0
    else do
      match ← rpFsMbReadContextBlock context src (clipToChunk len) with
      | none => fsMbError RP_ERR_EINVAL 0
      | some buffer =>
        match ← onStorage (rpFsWrite ff handle buffer) with
        | none => fsMbError RP_ERR_EIO 0
        | some count => fsMbDone (UInt16.ofNat count) 0

/-- What a served WRITE does: bytes of the caller's memory go to `rp_fs_write()`, and the reply tells how many were
written. -/
structure TakesBytes (ff : FatFs σ) (handle context : UInt8) (src len : UInt16) (f f' : Firmware σ)
    (buffer : List UInt8) (count : Nat) : Prop where
  source : f.hw.view.contextBlock context src (clipToChunk len) = some buffer
  written : (rpFsWrite ff handle buffer).result f.storage = some count
  storage : f'.storage = (rpFsWrite ff handle buffer).final f.storage
  result : f'.hw.view.peek16 RP_RES0L = UInt16.ofNat count

section Write

variable {ff : FatFs σ} {handle context : UInt8} {f : Firmware σ} (hf : f.hw.Settled)

include hf

/-- A WRITE of some bytes that is served, behind its argument block. -/
theorem takesBytes_behindBlock {src len : UInt16} (hlen : len ≠ 0)
    (hdone : ((writeBehindBlock ff handle context src len).final f).hw.view.peek RP_STATUS = RP_DONE) :
    ∃ buffer count,
      TakesBytes ff handle context src len f ((writeBehindBlock ff handle context src len).final f) buffer count := by
  have herror : ∀ {g : Firmware σ}, g.hw.Settled → ∀ err,
      ((fsMbError err 0).final g).hw.view.peek RP_STATUS ≠ RP_DONE :=
    fun hg err => not_done_of_failed (error_spec hg err 0).2
  rw [writeBehindBlock] at hdone ⊢
  have hfin := final_withOpen_of_done hf hdone
  rw [hfin, if_neg hlen, Prog.final_bind, result_readContextBlock hf] at hdone ⊢
  have hreads := readsOnly_readContextBlock context src (clipToChunk len) f
  have hf₁ := (hreads.board hf).1
  generalize (rpFsMbReadContextBlock context src (clipToChunk len)).final f = f₁ at hreads hf₁ hdone ⊢
  -- A range that is not private is refused before anything is written.
  rcases hsource : f.hw.view.contextBlock context src (clipToChunk len) with - | buffer
  · rw [hsource] at hdone
    exact absurd hdone (herror hf₁ _)
  rw [hsource] at hdone
  dsimp only at hdone ⊢
  rw [Prog.final_bind, onStorage, Prog.result_on, Prog.final_on, hreads.storage] at hdone ⊢
  rcases hwritten : (rpFsWrite ff handle buffer).result f.storage with - | count
  · rw [hwritten] at hdone
    exact absurd hdone (herror (g := { f₁ with storage := _ }) hf₁ _)
  generalize hs : (rpFsWrite ff handle buffer).final f.storage = s
  obtain ⟨hstorage, -, hresult⟩ := done_spec (f := { f₁ with storage := s }) hf₁ (UInt16.ofNat count) 0
  exact ⟨buffer, count, hsource, hwritten, hstorage.trans hs.symm, hresult⟩

/-- A WRITE of no bytes that is served. -/
theorem writeNothing_behindBlock {src : UInt16}
    (hdone : ((writeBehindBlock ff handle context src 0).final f).hw.view.peek RP_STATUS = RP_DONE) :
    ((writeBehindBlock ff handle context src 0).final f).storage = f.storage ∧
      ((writeBehindBlock ff handle context src 0).final f).hw.view.peek16 RP_RES0L = 0 := by
  rw [writeBehindBlock] at hdone ⊢
  have hfin := final_withOpen_of_done hf hdone
  rw [hfin, if_pos rfl]
  obtain ⟨hstorage, -, hresult⟩ := done_spec hf 0 0
  exact ⟨hstorage, hresult⟩

/-- A READ of no bytes that is served. -/
theorem readNothing_behindBlock {dst : UInt16}
    (hdone : ((readBehindBlock ff handle context dst 0).final f).hw.view.peek RP_STATUS = RP_DONE) :
    ((readBehindBlock ff handle context dst 0).final f).storage = f.storage ∧
      ((readBehindBlock ff handle context dst 0).final f).hw.view.peek16 RP_RES0L = 0 := by
  rw [readBehindBlock] at hdone ⊢
  have hfin := final_withOpen_of_done hf hdone
  rw [hfin, if_pos rfl]
  obtain ⟨huntouched, hresult, -⟩ := eofDone_spec ff handle hf 0
  exact ⟨huntouched.storage, hresult⟩

end Write

/-! ## Steps of the cursor -/

/-- A block of a context is the bytes that it holds. -/
theorem bytes_of_contextBlock {v : Machine.View} {context : UInt8} {address length : UInt16} {block : List UInt8}
    (h : v.contextBlock context address length = some block) :
    block = (v.inContext context).bytes address length.toNat := by
  rw [Machine.View.contextBlock] at h
  split_ifs at h
  exact (Option.some.inj h).symm

/-- A write that reports bytes is a call of `f_write()`, or has nothing to write. -/
theorem write_some {ff : FatFs σ} {handle : UInt8} {src : List UInt8} {s : Storage σ} {count : Nat}
    (h : (rpFsWrite ff handle src).result s = some count) :
    (src = [] ∧ count = 0 ∧ (rpFsWrite ff handle src).final s = s) ∨
      ((ff.f_write handle src).result s).1 = FR_OK ∧ ((ff.f_write handle src).result s).2 = count ∧
        (rpFsWrite ff handle src).final s = (ff.f_write handle src).final s := by
  simp only [rpFsWrite, Prog.result_bind, Prog.result_get, Prog.final_get, Prog.final_bind, Prog.result_ite,
    Prog.final_ite, Prog.result_pure, Prog.final_pure] at h ⊢
  split_ifs at h ⊢ with hclosed hflags hempty hok
  · exact .inl ⟨hempty, (Option.some.inj h).symm, rfl⟩
  · exact .inr ⟨not_not.1 hok, Option.some.inj h, rfl⟩

section Steps

variable {ff : FatFs σ} {v : FileView σ φ} {handle : UInt8} {file : φ} {c : Cursor UInt8} {f : Firmware σ}

/-- A READ that is served reads at the cursor. -/
theorem step_read (laws : StreamLaws ff v handle file) (tables : TableLaws ff) (hread : ReadsAtMost ff)
    (hf : f.hw.Settled) {dst len : UInt16} (hreads : f.HandleTransfer RP_FS_OP_READ handle dst len)
    (hdone : ((rpFsMailboxHandleExec ff).final f).hw.view.peek RP_STATUS = RP_DONE)
    (hcursor : f.storage.AtCursor v handle file c) :
    ∃ n chunk c', CursorRequest.Performs f ((rpFsMailboxHandleExec ff).final f) (.read dst len) (.read n chunk) ∧
      Cursor.Step c (.read n chunk) c' ∧ ((rpFsMailboxHandleExec ff).final f).storage.AtCursor v handle file c' := by
  have hasked : ∀ n, Cursor.Step c (.read n (c.next n)) (c.skip n) := Cursor.Step.read c
  -- A READ of no bytes does not call `f_read()`, and takes no step.
  by_cases hlen : len = 0
  · subst hlen
    obtain ⟨-, f₁, hreads₁, hstorage, hhw⟩ := behindBlock_of_served
      (readBehindBlock ff) (fun pid context => execOperation_read ff pid context) hf hreads hdone
    rw [hhw] at hdone
    obtain ⟨hkept, hresult⟩ := readNothing_behindBlock (hreads₁.board hf).1 hdone
    refine ⟨0, c.next 0, c.skip 0, ⟨rfl, ?_, fun i hi => ?_⟩, hasked 0, ?_⟩
    · rw [hhw]
      exact hresult
    · exact absurd hi (Nat.not_lt_zero i)
    · rw [hstorage, hkept, hreads₁.storage, Cursor.skip_zero]
      exact hcursor
  obtain ⟨chunk, hserves⟩ := serves_request hread hf ⟨hreads.operation, hreads.handle, hreads.args, hlen⟩ hdone
  have hclip : clipToChunk len ≠ 0 := by
    intro h
    have hzero := toNat_clipToChunk len
    have hpos : len.toNat ≠ 0 := fun h => hlen (UInt16.toNat_inj.1 h)
    rw [h, UInt16.toNat_zero] at hzero
    omega
  obtain ⟨hok, hbytes, hfinal⟩ := read_some hclip hserves.read
  obtain ⟨hchunk, hfil, hdata⟩ :=
    laws.f_read_ok (clipToChunk len) f.storage (congrArg Prod.fst hcursor.fil) hok
  have htable := tables.f_read handle (clipToChunk len) f.storage
  rw [hbytes, hcursor.fil, hcursor.data, toNat_clipToChunk] at hchunk
  rw [hbytes, hcursor.fil] at hfil
  obtain rfl : chunk = c.next (min len.toNat 256) := hchunk
  refine ⟨_, _, c.skip (min len.toNat 256), ⟨rfl, hserves.result, hserves.stored⟩, hasked _, ?_⟩
  rw [hserves.storage, hfinal]
  exact ⟨(htable.isOpen handle).trans hcursor.isOpen, hfil, hdata.trans hcursor.data⟩

/-- A WRITE that is served writes at the cursor. -/
theorem step_write (tables : TableLaws ff) (cursor : CursorLaws ff v handle file) (hf : f.hw.Settled)
    {src len : UInt16} (hwrites : f.HandleTransfer RP_FS_OP_WRITE handle src len)
    (hdone : ((rpFsMailboxHandleExec ff).final f).hw.view.peek RP_STATUS = RP_DONE)
    (hcursor : f.storage.AtCursor v handle file c) :
    ∃ bytes c', CursorRequest.Performs f ((rpFsMailboxHandleExec ff).final f) (.write src len) (.write bytes) ∧
      Cursor.Step c (.write bytes) c' ∧ ((rpFsMailboxHandleExec ff).final f).storage.AtCursor v handle file c' := by
  obtain ⟨-, f₁, hreads₁, hstorage, hhw⟩ := behindBlock_of_served
    (writeBehindBlock ff) (fun pid context => execOperation_write ff pid context) hf hwrites hdone
  rw [hhw] at hdone
  by_cases hlen : len = 0
  · subst hlen
    obtain ⟨hkept, hresult⟩ := writeNothing_behindBlock (hreads₁.board hf).1 hdone
    refine ⟨[], c.write [], ⟨?_, ?_⟩, .write c [], ?_⟩
    · rw [hhw, hresult]
      exact Nat.zero_le _
    · rw [hhw, hresult]
      rfl
    · rw [hstorage, hkept, hreads₁.storage, Cursor.write_nil]
      exact hcursor
  obtain ⟨buffer, count, htakes⟩ := takesBytes_behindBlock (hreads₁.board hf).1 hlen hdone
  have hbuffer := bytes_of_contextBlock htakes.source
  rw [hreads₁.inContext hf, toNat_clipToChunk] at hbuffer
  have hlength : buffer.length = min len.toNat 256 := by rw [hbuffer, Machine.View.length_bytes]
  rw [hstorage, htakes.storage, hreads₁.storage]
  have hwritten := htakes.written
  rw [hreads₁.storage] at hwritten
  rcases write_some hwritten with ⟨rfl, rfl, -⟩ | ⟨hok, hcount, hfinal⟩
  · -- The range of a WRITE of some bytes is not empty.
    have hpos : len.toNat ≠ 0 := fun h => hlen (UInt16.toNat_inj.1 h)
    rw [List.length_nil] at hlength
    omega
  have hlaw := cursor.f_write_ok buffer f.storage (congrArg Prod.fst hcursor.fil) hok
  have htable := tables.f_write handle buffer f.storage
  dsimp only at hlaw
  rw [hcursor.fil, hcursor.data, hcount] at hlaw
  obtain ⟨hle, hbytes, hfil⟩ := hlaw c.le
  -- On a full volume fewer bytes are written than were taken: the action is the part that is in the file.
  have htaken : (buffer.take count).length = count := by rw [List.length_take, Nat.min_eq_left hle]
  have hresult : (((rpFsMailboxHandleExec ff).final f).hw.view.peek16 RP_RES0L).toNat = count := by
    rw [hhw, htakes.result, UInt16.toNat_ofNat', Nat.mod_eq_of_lt (by omega)]
  refine ⟨buffer.take count, c.write (buffer.take count), ⟨?_, ?_⟩, .write c _, ?_⟩
  · rw [hresult]
    omega
  · rw [hresult, hbuffer, Machine.View.take_bytes _ _ (by omega)]
  rw [hfinal]
  refine ⟨(htable.isOpen handle).trans hcursor.isOpen, ?_, ?_⟩
  · rw [hfil]
    show (file, c.position + count) = (file, c.position + (buffer.take count).length)
    rw [htaken]
  · rw [hbytes]
    show _ = c.contents.take c.position ++ buffer.take count ++ c.contents.drop (c.position + (buffer.take count).length)
    rw [htaken]

/-- The position a SEEK is to reach is counted from the cursor. -/
theorem seekTarget_eq (laws : StreamLaws ff v handle file) {s : Storage σ} (hcursor : s.AtCursor v handle file c)
    (hsmall : (v.data s.fatfs file).length < 2 ^ 32) {whence : UInt8} {offset : Int} {target : UInt32}
    (h : s.seekTarget ff handle whence offset = some target) :
    ∃ origin, seekOriginOf whence = some origin ∧ c.base origin + offset = target.toNat := by
  have hle := c.le
  rw [hcursor.data] at hsmall
  have htell : (ff.f_tell handle s).toNat = c.position := by
    have htell := laws.f_tell s
    rw [hcursor.fil] at htell
    exact htell rfl (by omega)
  have hsize : (ff.f_size handle s).toNat = c.contents.length := by
    have hsize := laws.f_size s
    rw [hcursor.fil, hcursor.data] at hsize
    exact hsize rfl hsmall
  have horigin : s.seekOrigin ff handle whence = (seekOriginOf whence).map c.base := by
    rw [Storage.seekOrigin, seekOriginOf, htell, hsize]
    split_ifs <;> rfl
  rw [Storage.seekTarget, horigin] at h
  rcases hof : seekOriginOf whence with - | origin
  · rw [hof] at h
    cases h
  rw [hof, Option.map_some, Option.bind_some] at h
  split_ifs at h with hrange
  obtain rfl := Option.some.inj h
  refine ⟨origin, rfl, ?_⟩
  rw [UInt32.toNat_ofNat']
  omega

/-- A SEEK that is served moves the cursor. -/
theorem step_seek (laws : StreamLaws ff v handle file) (seek : SeekLaws ff) (cursor : CursorLaws ff v handle file)
    (hf : f.hw.Settled) {whence : UInt8} {offset : Int} (hseeks : f.Seeks handle whence offset)
    (hsmall : (v.data f.storage.fatfs file).length < 2 ^ 32)
    (hdone : ((rpFsMailboxHandleExec ff).final f).hw.view.peek RP_STATUS = RP_DONE)
    (hcursor : f.storage.AtCursor v handle file c) :
    ∃ origin reached c', CursorRequest.Performs f ((rpFsMailboxHandleExec ff).final f) (.seek whence offset)
        (.seek origin offset reached) ∧ Cursor.Step c (.seek origin offset reached) c' ∧
      ((rpFsMailboxHandleExec ff).final f).storage.AtCursor v handle file c' := by
  obtain ⟨m₀, hm₀, hview₀, hstorage, hhw⟩ := exec_of_checked ff hf
  have hseeks₀ : Firmware.Seeks { f with hw := m₀ } handle whence offset := by
    obtain ⟨hop, hpid, hopen, hhandle, hargs⟩ := hseeks
    exact ⟨hview₀ ▸ hop, hview₀ ▸ hpid, hopen, hview₀ ▸ hhandle, hview₀ ▸ hargs⟩
  have hchecked := checked_seek seek (f := { f with hw := m₀ }) hm₀ hseeks₀
  rw [hseeks.operation] at hstorage hhw
  rw [hview₀] at hchecked
  have hfront : m₀.view.inContext (f.hw.view.peek RP_ARG1H) = f.hw.view.inContext (f.hw.view.peek RP_ARG1H) := by
    rw [hview₀]
  generalize (checkedOperation ff RP_FS_OP_SEEK (f.hw.view.peek RP_ARG1L) (f.hw.view.peek RP_ARG1H)).final
    { f with hw := m₀ } = g at hstorage hhw hchecked
  have hsought : Sought ff handle whence offset (f.hw.view.peek RP_ARG1H) (f.hw.view.peek16 RP_ARG0L) f
      ((rpFsMailboxHandleExec ff).final f) := by
    refine Sought.congr ?_ ?_ ?_ ?_ hchecked
    · rfl
    · exact hfront
    · exact hstorage.symm
    · exact hhw.symm
  -- A SEEK that is refused, or fails, is not served.
  have hfailed : ∀ err, ¬ ((rpFsMailboxHandleExec ff).final f).FailedWith err := by
    intro err h
    rw [h.status] at hdone
    exact absurd hdone (by decide)
  rcases htarget : f.storage.seekTarget ff handle whence offset with - | target
  · exact absurd (hsought.refused htarget).1 (hfailed _)
  have hreached := hsought.sought target htarget
  by_cases hok : (ff.f_lseek handle target).result f.storage = FR_OK
  swap
  · exact absurd (hreached.failed hok).1 (hfailed _)
  obtain ⟨hreports, -⟩ := hreached.done hok
  obtain ⟨origin, horigin, hsum⟩ := seekTarget_eq laws hcursor hsmall htarget
  have hlaw := cursor.f_lseek_ok target f.storage (congrArg Prod.fst hcursor.fil) hok
  have htable := seek.f_lseek handle target f.storage
  have htell := laws.f_tell ((rpFsMailboxHandleExec ff).final f).storage
  rw [hreached.storage] at hreports htell ⊢
  generalize (ff.f_lseek handle target).final f.storage = s' at hlaw htable htell hreports ⊢
  dsimp only at hlaw
  rw [hcursor.data] at hlaw
  obtain ⟨hfile, hinside, hbeyond⟩ := hlaw
  -- `f_lseek()` may extend the file, but not beyond the target.
  have hle : (v.fil s'.fatfs handle).2 ≤ (v.data s'.fatfs file).length ∧ (v.fil s'.fatfs handle).2 < 2 ^ 32 := by
    have htarget := target.toNat_lt
    rcases Nat.lt_or_ge c.contents.length target.toNat with hlt | hge
    · obtain ⟨-, hend, hmost⟩ := hbeyond hlt
      omega
    · obtain ⟨hsame, hposition⟩ := hinside hge
      rw [hsame, hposition]
      exact ⟨hge, htarget⟩
  have hreaches : Cursor.Reaches target.toNat c ⟨v.data s'.fatfs file, (v.fil s'.fatfs handle).2, hle.1⟩ :=
    ⟨hinside, hbeyond⟩
  refine ⟨origin, (v.fil s'.fatfs handle).2, _, ⟨horigin, rfl, ?_⟩, .seek hsum hreaches, ?_, ?_, rfl⟩
  · rw [← htell hfile hle.2]
    exact hreports
  · exact (htable.isOpen handle).trans hcursor.isOpen
  · exact Prod.ext hfile rfl

/-- Requests elsewhere do not move the cursor. -/
theorem atCursor_of_elsewhere (laws : StreamLaws ff v handle file) (tables : TableLaws ff) (hread : ReadsAtMost ff)
    (hf : f.hw.Settled) (helsewhere : f.Elsewhere v handle file) (hcursor : f.storage.AtCursor v handle file c) :
    ((rpFsMailboxHandleExec ff).final f).storage.AtCursor v handle file c := by
  have hspares := spares_request laws tables hf hread hcursor.isOpen helsewhere
  exact ⟨hspares.isOpen.trans hcursor.isOpen, hspares.fil.trans hcursor.fil, hspares.data.trans hcursor.data⟩

end Steps

/-! ## Runs of the cursor -/

/-- The requests of WRITEs show what was written. -/
theorem exists_srcs {ff : FatFs σ} {writes : List (Firmware σ × UInt16 × UInt16)}
    {actions : List (Cursor.Action UInt8)}
    (h : List.Forall₂ (fun r a => CursorRequest.Performs r.1 ((rpFsMailboxHandleExec ff).final r.1) r.2 a)
      (writes.map fun w => (w.1, .write w.2.1 w.2.2)) actions) :
    ∃ srcs : List (List UInt8), actions = srcs.map .write ∧
      List.Forall₂ (fun w src =>
        CursorRequest.Performs w.1 ((rpFsMailboxHandleExec ff).final w.1) (.write w.2.1 w.2.2) (.write src))
        writes srcs := by
  induction writes generalizing actions with
  | nil =>
    cases h
    exact ⟨[], rfl, .nil⟩
  | cons w writes ih =>
    obtain ⟨a, rest, hperforms, hrest, rfl⟩ := List.forall₂_cons_left_iff.1 h
    obtain ⟨srcs, rfl, hsrcs⟩ := ih hrest
    cases a with
    | write src => exact ⟨src :: srcs, rfl, .cons hperforms hsrcs⟩
    | read n chunk => exact hperforms.elim
    | seek origin offset reached => exact hperforms.elim

/-- The requests of READs show what was read. -/
theorem exists_chunks {ff : FatFs σ} {reads : List (Firmware σ × UInt16 × UInt16)}
    {actions : List (Cursor.Action UInt8)}
    (h : List.Forall₂ (fun r a => CursorRequest.Performs r.1 ((rpFsMailboxHandleExec ff).final r.1) r.2 a)
      (reads.map fun r => (r.1, .read r.2.1 r.2.2)) actions) :
    ∃ chunks : List (Nat × List UInt8), actions = chunks.map (fun r => .read r.1 r.2) ∧
      chunks.map Prod.fst = reads.map (fun r => min r.2.2.toNat 256) ∧
      List.Forall₂ (fun r chunk => CursorRequest.Performs r.1 ((rpFsMailboxHandleExec ff).final r.1) (.read r.2.1 r.2.2)
        (.read (min r.2.2.toNat 256) chunk)) reads (chunks.map Prod.snd) := by
  induction reads generalizing actions with
  | nil =>
    cases h
    exact ⟨[], rfl, rfl, .nil⟩
  | cons r reads ih =>
    obtain ⟨a, rest, hperforms, hrest, rfl⟩ := List.forall₂_cons_left_iff.1 h
    obtain ⟨chunks, rfl, hasked, hchunks⟩ := ih hrest
    cases a with
    | read n chunk =>
      obtain rfl : n = min r.2.2.toNat 256 := hperforms.1
      exact ⟨(_, chunk) :: chunks, rfl, congrArg (_ :: ·) hasked, .cons hperforms hchunks⟩
    | write src => exact hperforms.elim
    | seek origin offset reached => exact hperforms.elim

section Runs

variable {ff : FatFs σ} {v : FileView σ φ} {handle : UInt8} {file : φ} (laws : StreamLaws ff v handle file)
  (tables : TableLaws ff) (seek : SeekLaws ff) (cursor : CursorLaws ff v handle file) (hread : ReadsAtMost ff)
  {s s' : Storage σ} {c : Cursor UInt8}

/-- What the requests of a run show of some actions. -/
abbrev Shows (ff : FatFs σ) (requests : List (Firmware σ × CursorRequest)) (actions : List (Cursor.Action UInt8)) :
    Prop :=
  List.Forall₂ (fun r a => CursorRequest.Performs r.1 ((rpFsMailboxHandleExec ff).final r.1) r.2 a) requests actions

include laws tables seek cursor hread

/-- The actions of a run, one after the other. -/
theorem exists_actions {requests : List (Firmware σ × CursorRequest)}
    (hrun : CursorRun ff v handle file s requests s') (hcursor : s.AtCursor v handle file c) :
    ∃ actions c', Shows ff requests actions ∧ Cursor.Run c actions c' ∧ s'.AtCursor v handle file c' := by
  -- By the run, with the cursor of the handle in front of each request: requests elsewhere do not move it.
  induction hrun generalizing c with
  | done s => exact ⟨[], c, .nil, rfl, hcursor⟩
  | other f settled elsewhere next ih => exact ih (atCursor_of_elsewhere laws tables hread settled elsewhere hcursor)
  | @on f request settled asks small served rest s' next ih =>
    have hstep : ∃ a c₁, CursorRequest.Performs f ((rpFsMailboxHandleExec ff).final f) request a ∧ Cursor.Step c a c₁ ∧
        ((rpFsMailboxHandleExec ff).final f).storage.AtCursor v handle file c₁ := by
      cases request with
      | read dst len =>
        obtain ⟨n, chunk, c₁, h⟩ := step_read laws tables hread settled asks served hcursor
        exact ⟨_, c₁, h⟩
      | write src len =>
        obtain ⟨bytes, c₁, h⟩ := step_write tables cursor settled asks served hcursor
        exact ⟨_, c₁, h⟩
      | seek whence offset =>
        obtain ⟨origin, reached, c₁, h⟩ := step_seek laws seek cursor settled asks small served hcursor
        exact ⟨_, c₁, h⟩
    obtain ⟨a, c₁, hperforms, hmoves, hcursor₁⟩ := hstep
    obtain ⟨actions, c', hshows, hactions, hcursor'⟩ := ih hcursor₁
    exact ⟨a :: actions, c', .cons hperforms hshows, ⟨c₁, hmoves, hactions⟩, hcursor'⟩

/-- The requests of a handle, whatever requests on other handles and files come in between, are actions of a cursor
on its file, which never becomes shorter. -/
theorem handle_refines_cursor {requests : List (Firmware σ × CursorRequest)}
    (hrun : CursorRun ff v handle file s requests s') (hcursor : s.AtCursor v handle file c) :
    ∃ actions c', Shows ff requests actions ∧ Cursor.Run c actions c' ∧ s'.AtCursor v handle file c' ∧
      (v.data s.fatfs file).length ≤ (v.data s'.fatfs file).length := by
  obtain ⟨actions, c', hshows, hactions, hcursor'⟩ := exists_actions laws tables seek cursor hread hrun hcursor
  refine ⟨actions, c', hshows, hactions, hcursor', ?_⟩
  rw [hcursor.data, hcursor'.data]
  exact Cursor.length_le_of_run hactions

/-- WRITEs, a SEEK that reports the position from before them, and READs: what the WRITEs took from memory is
delivered, as many bytes as the READs ask for, and behind it what the file held there before. -/
theorem written_then_read {writes reads : List (Firmware σ × UInt16 × UInt16)} {f : Firmware σ} {whence : UInt8}
    {offset : Int}
    (hrun : CursorRun ff v handle file s (writes.map (fun w => (w.1, .write w.2.1 w.2.2)) ++
      (f, .seek whence offset) :: reads.map fun r => (r.1, .read r.2.1 r.2.2)) s')
    (hcursor : s.AtCursor v handle file c)
    (hback : (((rpFsMailboxHandleExec ff).final f).hw.view.peek16 RP_RES0L).toNat +
      2 ^ 16 * (((rpFsMailboxHandleExec ff).final f).hw.view.peek16 RP_RES1L).toNat = c.position) :
    ∃ srcs chunks : List (List UInt8),
      List.Forall₂ (fun w src =>
        CursorRequest.Performs w.1 ((rpFsMailboxHandleExec ff).final w.1) (.write w.2.1 w.2.2) (.write src))
        writes srcs ∧
      List.Forall₂ (fun r chunk => CursorRequest.Performs r.1 ((rpFsMailboxHandleExec ff).final r.1) (.read r.2.1 r.2.2)
        (.read (min r.2.2.toNat 256) chunk)) reads chunks ∧
      chunks.flatten = (srcs.flatten ++ c.contents.drop (c.position + srcs.flatten.length)).take
        (reads.map fun r => min r.2.2.toNat 256).sum := by
  obtain ⟨actions, c', hshows, hactions, -⟩ := exists_actions laws tables seek cursor hread hrun hcursor
  -- The actions are those of the WRITEs, the one of the SEEK, and those of the READs.
  obtain ⟨srcs, hsrcs, hwrites⟩ := exists_srcs (List.forall₂_take_append _ _ _ hshows.flip).flip
  have hrest := (List.forall₂_drop_append _ _ _ hshows.flip).flip
  obtain ⟨a, rest, hperforms, hrest, hdrop⟩ := List.forall₂_cons_left_iff.1 hrest
  obtain ⟨chunks, rfl, hasked, hreads⟩ := exists_chunks hrest
  refine ⟨srcs, chunks.map Prod.snd, hwrites, hreads, ?_⟩
  rw [← List.take_append_drop (writes.map _).length actions, hsrcs, hdrop] at hactions
  cases a with
  | seek origin offset' reached =>
    obtain ⟨-, -, hreports⟩ := hperforms
    obtain rfl : reached = c.position := hreports.registers.symm.trans hback
    rw [← hasked]
    exact Cursor.read_back hactions
  | read n chunk => exact hperforms.elim
  | write src => exact hperforms.elim

end Runs

/-! ## Two bytes that are written and read again -/

namespace RamDisk

/-- A disk in memory on which no position is behind the end of its file. -/
def clippingFatFs : FatFs RamDisk :=
  { fatFs with
    f_lseek := fun slot position => do
      let s ← get
      modify (seek slot (s.fatfs.fil slot).1 (min position.toNat (contents slot s).length))
      return FR_OK }

theorem clippingTableLaws : TableLaws clippingFatFs := { tableLaws with f_lseek := fun _ _ _ => ⟨rfl, rfl⟩ }

theorem clippingStreamLaws (handle : UInt8) (file : List UInt8) : StreamLaws clippingFatFs view handle file :=
  { streamLaws handle file with
    f_lseek := fun slot hne position s hfile =>
      ⟨⟨rfl, Function.update_of_ne hne.symm _ _⟩, by simpa [view, clippingFatFs, seek] using hfile⟩ }

theorem clippingSeekLaws : SeekLaws clippingFatFs where
  f_lseek := clippingTableLaws.f_lseek
  f_lseek_ok slot position s _ := by
    have htell : clippingFatFs.f_tell slot ((clippingFatFs.f_lseek slot position).final s) =
        UInt32.ofNat (min position.toNat (contents slot s).length) := by
      simp [clippingFatFs, fatFs, seek]
    have hposition := position.toNat_lt
    rw [htell, UInt32.le_iff_toNat_le, UInt32.toNat_ofNat']
    omega
  f_lseek_failed slot position s h := absurd rfl h

theorem clippingCursorLaws (handle : UInt8) (file : List UInt8) : CursorLaws clippingFatFs view handle file where
  f_write_ok src s hfile _ := by
    intro bytes position count s' hle
    subst hfile
    have hcount : count = src.length := rfl
    refine ⟨hcount.le, ?_, ?_⟩
    · rw [hcount, List.take_length]
      simp [s', bytes, position, view, clippingFatFs, fatFs, seek, write, contents]
    · simp [s', position, hcount, view, clippingFatFs, fatFs, seek, write]
  f_lseek_ok target s hfile _ := by
    intro bytes s' bytes' position
    subst hfile
    have hsame : bytes' = bytes := rfl
    have hposition : position = min target.toNat bytes.length := by
      simp [position, s', bytes, view, clippingFatFs, seek, contents]
    refine ⟨?_, fun h => ⟨hsame, ?_⟩, fun h => ⟨hsame ▸ List.prefix_rfl, ?_, ?_⟩⟩
    · simp [s', view, clippingFatFs, seek]
    · rw [hposition, Nat.min_eq_left h]
    · rw [hposition, hsame, Nat.min_eq_right h.le]
    · rw [hposition]
      exact Nat.min_le_left _ _

theorem readsAtMost_clipping : ReadsAtMost clippingFatFs := readsAtMost_ramDisk

end RamDisk

/-- Handle 0 is open at byte 1 of the file `A`, which holds `abcde`, for reading and writing. -/
def overStorage : Storage RamDisk :=
  { pieceStorage with gRPFSHandles := fun _ => ⟨true, 0, RP_FS_HANDLE_READ ||| RP_FS_HANDLE_WRITE⟩ }

/-- The firmware that is asked to seek byte 1. -/
def overSeek (s : Storage RamDisk) : Firmware RamDisk :=
  .start (.running fun cell => (List.lookup cell
    [((0x0B, 0x005), RP_FS_OP_SEEK), ((0x0B, 0x007), 0x02), ((0x0B, 0x008), 1), ((0x00, 0x202), 1)]).getD 0) s

/-- What a request leaves. -/
def overStep (f : Firmware RamDisk) : Storage RamDisk :=
  ((rpFsMailboxHandleExec RamDisk.clippingFatFs).final f).storage

/-- The storage behind a WRITE of two bytes. -/
def overWritten : Storage RamDisk := overStep (pieceFirmware RP_FS_OP_WRITE 2 overStorage)

/-- The requests: a WRITE of two bytes, a SEEK, and a READ of as many as five bytes. -/
def overRequests : List (Firmware RamDisk × CursorRequest) :=
  [(pieceFirmware RP_FS_OP_WRITE 2 overStorage, .write 0x3000 2), (overSeek overWritten, .seek 0 1),
    (pieceFirmware RP_FS_OP_READ 5 (overStep (overSeek overWritten)), .read 0x3000 5)]

theorem cursorRun_over : CursorRun RamDisk.clippingFatFs RamDisk.view 0 (ascii "A") overStorage overRequests
    (overStep (pieceFirmware RP_FS_OP_READ 5 (overStep (overSeek overWritten)))) := by
  have hwrite : (pieceFirmware RP_FS_OP_WRITE 2 overStorage).Asks 0 (.write 0x3000 2) := by
    show Firmware.HandleTransfer _ _ _ _ _
    exact ⟨by decide +kernel, by decide +kernel, by decide +kernel⟩
  have hseek : (overSeek overWritten).Asks 0 (.seek 0 1) := by
    show Firmware.Seeks _ _ _ _
    exact ⟨by decide +kernel, by decide +kernel, by decide +kernel, by decide +kernel, by decide +kernel⟩
  have hread : (pieceFirmware RP_FS_OP_READ 5 (overStep (overSeek overWritten))).Asks 0 (.read 0x3000 5) := by
    show Firmware.HandleTransfer _ _ _ _ _
    exact ⟨by decide +kernel, by decide +kernel, by decide +kernel⟩
  refine .on (pieceFirmware RP_FS_OP_WRITE 2 overStorage) (Machine.settled_running _) hwrite (by decide +kernel)
    (by decide +kernel) ?_
  refine .on (overSeek overWritten) (Machine.settled_running _) hseek (by decide +kernel) (by decide +kernel) ?_
  exact .on (pieceFirmware RP_FS_OP_READ 5 _) (Machine.settled_running _) hread (by decide +kernel)
    (by decide +kernel) (.done _)

theorem atCursor_over : overStorage.AtCursor RamDisk.view 0 (ascii "A") ⟨ascii "abcde", 1, by decide⟩ :=
  ⟨by decide, rfl, by decide⟩

theorem handle_refines_cursor_over : ∃ actions c', Shows RamDisk.clippingFatFs overRequests actions ∧
    Cursor.Run ⟨ascii "abcde", 1, by decide⟩ actions c' ∧
      (overStep (pieceFirmware RP_FS_OP_READ 5 (overStep (overSeek overWritten)))).AtCursor RamDisk.view 0 (ascii "A")
        c' ∧
      (RamDisk.view.data overStorage.fatfs (ascii "A")).length ≤ (RamDisk.view.data
        (overStep (pieceFirmware RP_FS_OP_READ 5 (overStep (overSeek overWritten)))).fatfs (ascii "A")).length :=
  handle_refines_cursor (RamDisk.clippingStreamLaws 0 (ascii "A")) RamDisk.clippingTableLaws RamDisk.clippingSeekLaws
    (RamDisk.clippingCursorLaws 0 (ascii "A")) RamDisk.readsAtMost_clipping cursorRun_over atCursor_over

theorem written_then_read_over : ∃ srcs chunks : List (List UInt8),
    List.Forall₂ (fun w src => CursorRequest.Performs w.1 ((rpFsMailboxHandleExec RamDisk.clippingFatFs).final w.1)
      (.write w.2.1 w.2.2) (.write src)) [(pieceFirmware RP_FS_OP_WRITE 2 overStorage, 0x3000, 2)] srcs ∧
    List.Forall₂ (fun r chunk => CursorRequest.Performs r.1 ((rpFsMailboxHandleExec RamDisk.clippingFatFs).final r.1)
      (.read r.2.1 r.2.2) (.read (min r.2.2.toNat 256) chunk))
      [(pieceFirmware RP_FS_OP_READ 5 (overStep (overSeek overWritten)), 0x3000, 5)] chunks ∧
    chunks.flatten = (srcs.flatten ++ (ascii "abcde").drop (1 + srcs.flatten.length)).take 5 :=
  written_then_read (RamDisk.clippingStreamLaws 0 (ascii "A")) RamDisk.clippingTableLaws RamDisk.clippingSeekLaws
    (RamDisk.clippingCursorLaws 0 (ascii "A")) RamDisk.readsAtMost_clipping cursorRun_over atCursor_over
    (by decide +kernel)

end NeoMmu
