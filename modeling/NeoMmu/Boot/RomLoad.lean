import NeoMmu.Boot.Rom

/-!
# What loading a cartridge leaves in memory

A cartridge file is good or not by its bytes alone. A good one leaves its payload in the memory of the current
context and over it the vectors its header selects; one that is refused leaves the memory alone.
-/

namespace NeoMmu

/-! ## Good cartridges -/

/-- `STARTADDRESS_H` and `STARTADDRESS_L` -/
def DefROM.startAddress (hdr : DefROM) : UInt16 :=
  hdr.STARTADDRESS_H.toUInt16 * 256 + hdr.STARTADDRESS_L.toUInt16

/-- `SIZE_H` and `SIZE_L` -/
def DefROM.romSize (hdr : DefROM) : UInt16 := hdr.SIZE_H.toUInt16 * 256 + hdr.SIZE_L.toUInt16

/-- The header that the first sixteen bytes of a file spell. -/
def FlashFile.hdr (file : FlashFile) : DefROM := .ofBytes (file.data.take sizeofDefROM)

/-- The bytes behind the header. -/
def FlashFile.payload (file : FlashFile) : List UInt8 := file.data.drop sizeofDefROM

/-- The header and the length of a file are right. -/
structure FlashFile.Accepted (file : FlashFile) : Prop where
  holds_header : sizeofDefROM ≤ file.data.length
  SOH : file.hdr.SOH = 0x5A
  EOH : file.hdr.EOH = 0xA5
  VERSION_MAJOR : file.hdr.VERSION_MAJOR = 1
  CSUM : file.hdr.csum = file.hdr.CSUM
  fits : file.hdr.startAddress.toNat + file.hdr.romSize.toNat ≤ 0x10000
  length_eq : file.data.length = sizeofDefROM + file.hdr.romSize.toNat

instance (file : FlashFile) : Decidable file.Accepted :=
  decidable_of_iff (sizeofDefROM ≤ file.data.length ∧ file.hdr.SOH = 0x5A ∧ file.hdr.EOH = 0xA5 ∧
      file.hdr.VERSION_MAJOR = 1 ∧ file.hdr.csum = file.hdr.CSUM ∧
      file.hdr.startAddress.toNat + file.hdr.romSize.toNat ≤ 0x10000 ∧
      file.data.length = sizeofDefROM + file.hdr.romSize.toNat)
    ⟨fun ⟨h₁, h₂, h₃, h₄, h₅, h₆, h₇⟩ => ⟨h₁, h₂, h₃, h₄, h₅, h₆, h₇⟩,
      fun ⟨h₁, h₂, h₃, h₄, h₅, h₆, h₇⟩ => ⟨h₁, h₂, h₃, h₄, h₅, h₆, h₇⟩⟩

/-- Besides, no read of the file comes short. -/
def FlashFile.Loads (file : FlashFile) : Prop := file.Accepted ∧ file.data.length ≤ file.readable

instance (file : FlashFile) : Decidable file.Loads := inferInstanceAs (Decidable (_ ∧ _))

/-- The byte of a vector that a header selects. -/
def DefROM.vector (hdr : DefROM) (a : UInt16) : Option UInt8 :=
  if a = 0xFFFA ∧ hdr.TYPE &&& 0x01 ≠ 0 then some hdr.NMI_L
  else if a = 0xFFFB ∧ hdr.TYPE &&& 0x01 ≠ 0 then some hdr.NMI_H
  else if a = 0xFFFC ∧ hdr.TYPE &&& 0x02 ≠ 0 then some hdr.RESET_L
  else if a = 0xFFFD ∧ hdr.TYPE &&& 0x02 ≠ 0 then some hdr.RESET_H
  else if a = 0xFFFE ∧ hdr.TYPE &&& 0x04 ≠ 0 then some hdr.IRQ_L
  else if a = 0xFFFF ∧ hdr.TYPE &&& 0x04 ≠ 0 then some hdr.IRQ_H
  else none

/-- The memory with a cartridge in it: the vectors lie over the payload. -/
def FlashFile.memory (file : FlashFile) (mem : UInt16 → UInt8) (a : UInt16) : UInt8 :=
  (file.hdr.vector a).getD (overlay mem file.hdr.startAddress file.payload a)

/-! ## The vectors -/

/-- The stores of a vector. -/
def vectorWrites (selected : Bool) (a : UInt16) (low high : UInt8) : List (UInt16 × UInt8) :=
  if selected then [(a, low), (a + 1, high)] else []

/-- The stores of `installROMVectors()`. -/
def DefROM.vectorWrites (hdr : DefROM) : List (UInt16 × UInt8) :=
  NeoMmu.vectorWrites (hdr.TYPE &&& 0x01 ≠ 0) 0xFFFA hdr.NMI_L hdr.NMI_H ++
    (NeoMmu.vectorWrites (hdr.TYPE &&& 0x02 ≠ 0) 0xFFFC hdr.RESET_L hdr.RESET_H ++
      NeoMmu.vectorWrites (hdr.TYPE &&& 0x04 ≠ 0) 0xFFFE hdr.IRQ_L hdr.IRQ_H)

/-- The stores of a whole cartridge. -/
def FlashFile.writes (file : FlashFile) : List (UInt16 × UInt8) :=
  blockWrites file.hdr.startAddress file.payload ++ file.hdr.vectorWrites

section Vectors

theorem cycles_bind {p q : Prog Machine Unit} {ws ws' : List (UInt16 × UInt8)}
    (hp : Cycles p (fun _ => ()) ws) (hq : Cycles q (fun _ => ()) ws') :
    Cycles (p >>= fun _ => q) (fun _ => ()) (ws ++ ws') := by
  intro m hm
  obtain ⟨-, hview, hm'⟩ := hp m hm
  obtain ⟨-, hview', hm''⟩ := hq _ hm'
  rw [Prog.final_bind]
  exact ⟨rfl, by rw [hview', hview, Machine.View.writes_append], hm''⟩

theorem cycles_pure : Cycles (pure () : Prog Machine Unit) (fun _ => ()) [] := fun _ hm => ⟨rfl, rfl, hm⟩

/-- A vector in front of what follows. -/
theorem cycles_vector (selected : Prop) [Decidable selected] (a a' : UInt16) (ha : a' = a + 1)
    (low high : UInt8) {next : Prog Machine Unit} {ws : List (UInt16 × UInt8)}
    (hnext : Cycles next (fun _ => ()) ws) :
    Cycles (do
        if selected then
          write6502Memory a low
          write6502Memory a' high
        next)
      (fun _ => ()) (vectorWrites selected a low high ++ ws) := by
  by_cases h : selected
  · rw [if_pos h, vectorWrites, if_pos (decide_eq_true h), ← ha]
    have hhigh := cycles_bind (cycles_write6502Memory a' high) hnext
    change Cycles _ _ ([(a, low)] ++ ([(a', high)] ++ ws))
    exact cycles_bind (cycles_write6502Memory a low) hhigh
  · rw [if_neg h, vectorWrites, if_neg (by simpa using h)]
    exact hnext

theorem cycles_installROMVectors (hdr : DefROM) :
    Cycles (installROMVectors hdr) (fun _ => ()) hdr.vectorWrites := by
  refine cycles_vector (hdr.TYPE &&& 0x01 ≠ 0) 0xFFFA 0xFFFB rfl _ _ ?_
  refine cycles_vector (hdr.TYPE &&& 0x02 ≠ 0) 0xFFFC 0xFFFD rfl _ _ ?_
  by_cases h : hdr.TYPE &&& 0x04 ≠ 0
  · rw [if_pos h, vectorWrites, if_pos (decide_eq_true h)]
    change Cycles _ _ ([(0xFFFE, hdr.IRQ_L)] ++ [(0xFFFF, hdr.IRQ_H)])
    exact cycles_bind (cycles_write6502Memory _ _) (cycles_write6502Memory _ _)
  · rw [if_neg h, vectorWrites, if_neg (by simpa using h)]
    exact cycles_pure

/-- A stored vector lies over what was there. -/
theorem peek_writes_vector {v : Machine.View} (hv : Function.Injective v.physAddr) (selected : Bool)
    (a x : UInt16) (low high : UInt8) : (v.writes (vectorWrites selected a low high)).peek x =
      if x = a + 1 ∧ selected then high else if x = a ∧ selected then low else v.peek x := by
  have hpoke : ∀ (v' : Machine.View), Function.Injective v'.physAddr → ∀ b c,
      (v'.poke b c).peek x = if x = b then c else v'.peek x := by
    intro v' hv' b c
    split
    · rename_i hx
      rw [hx]
      exact Function.update_self _ _ _
    · rename_i hx
      exact Function.update_of_ne (fun h => hx (hv' h)) _ _
  cases selected with
  | false => simp [vectorWrites]
  | true =>
    rw [vectorWrites, if_pos rfl, Machine.View.writes_cons, Machine.View.writes_cons,
      Machine.View.writes_nil, hpoke (v.poke a low) hv, hpoke v hv]
    simp

/-- The stores of the vectors are the bytes that the header selects. -/
theorem peek_vectorWrites {v : Machine.View} (hv : Function.Injective v.physAddr) (hdr : DefROM)
    (x : UInt16) : (v.writes hdr.vectorWrites).peek x = (hdr.vector x).getD (v.peek x) := by
  have hkept : ∀ ws, Function.Injective (v.writes ws).physAddr := by
    intro ws
    rw [v.writes_eq_self]
    exact hv
  rw [DefROM.vectorWrites, Machine.View.writes_append, Machine.View.writes_append,
    ← Machine.View.writes_append v, peek_writes_vector (hkept _), Machine.View.writes_append, peek_writes_vector (hkept _),
    peek_writes_vector hv, DefROM.vector]
  simp only [decide_eq_true_eq]
  split_ifs <;> simp_all

end Vectors

/-! ## The payload -/

section Payload

variable {file : FlashFile} {m : Machine}

/-- A read that the file can serve is a part of its bytes. -/
theorem FlashFile.read_eq {position n : Nat} (h : position + n ≤ file.readable) :
    file.read position n = (file.data.drop position).take n := by
  rw [FlashFile.read, List.drop_take, List.take_take, Nat.min_eq_left (by omega)]

/-- A read past what the file can serve comes short. -/
theorem FlashFile.length_read_lt (file : FlashFile) (position : Nat) {n : Nat} (h : file.readable < position + n) (hn : 0 < n) :
    (file.read position n).length < n := by
  rw [FlashFile.read, List.length_take, List.length_drop, List.length_take]
  omega

/-- A chunk that the reads deliver is the next part of the payload. -/
theorem read_payload {romSize : UInt16} (hlength : file.data.length = sizeofDefROM + romSize.toNat)
    (hread : file.data.length ≤ file.readable) {offset requested : Nat}
    (hfits : requested ≤ romSize.toNat - offset) (hlt : offset < romSize.toNat) :
    file.read (sizeofDefROM + offset) requested = (file.payload.drop offset).take requested ∧
      ((file.payload.drop offset).take requested).length = requested := by
  constructor
  · rw [FlashFile.read_eq (by omega), FlashFile.payload, List.drop_drop]
  · rw [List.length_take, FlashFile.payload, List.length_drop, List.length_drop]
    omega

/-- A turn of the loop that the reads serve. -/
theorem loadPayload_turn {startAddress romSize : UInt16}
    (hlength : file.data.length = sizeofDefROM + romSize.toNat) (hread : file.data.length ≤ file.readable)
    {offset : Nat} (hlt : offset < romSize.toNat) :
    let requested := min (romSize.toNat - offset) LOAD_CHUNK_SIZE
    loadPayload file startAddress romSize offset = (do
      writeBlock (startAddress + UInt16.ofNat offset) ((file.payload.drop offset).take requested)
      loadPayload file startAddress romSize (offset + requested)) := by
  intro requested
  obtain ⟨hbuffer, hwidth⟩ := read_payload hlength hread (Nat.min_le_left _ LOAD_CHUNK_SIZE) hlt
  rw [loadPayload, if_pos hlt]
  change (if (file.read (sizeofDefROM + offset) requested).length ≠ requested then _ else _) = _
  rw [hbuffer, if_neg (not_not.2 hwidth)]

theorem result_loadPayload {startAddress romSize : UInt16}
    (hlength : file.data.length = sizeofDefROM + romSize.toNat) (hread : file.data.length ≤ file.readable)
    {offset : Nat} (hoffset : offset ≤ romSize.toNat) :
    (loadPayload file startAddress romSize offset).result m = true := by
  obtain ⟨rest, hrest⟩ : ∃ rest, romSize.toNat - offset = rest := ⟨_, rfl⟩
  induction rest using Nat.strongRecOn generalizing offset m with
  | ind rest ih =>
    rcases Nat.eq_or_lt_of_le hoffset with heq | hlt
    · rw [loadPayload, if_neg (by omega)]
      rfl
    · have hpos : 0 < min (romSize.toNat - offset) LOAD_CHUNK_SIZE :=
        Nat.lt_min.2 ⟨Nat.sub_pos_of_lt hlt, by decide⟩
      rw [loadPayload_turn hlength hread hlt, Prog.result_bind]
      exact ih _ (by omega) (by omega) rfl

/-- A payload that the reads deliver is stored from `offset` on. -/
theorem view_loadPayload (startAddress : UInt16) {romSize : UInt16} (hm : m.gControlMode = .mRPI)
    (hlength : file.data.length = sizeofDefROM + romSize.toNat) (hread : file.data.length ≤ file.readable)
    {offset : Nat} (hoffset : offset ≤ romSize.toNat) :
    ((loadPayload file startAddress romSize offset).final m).view =
        m.view.writes (blockWrites (startAddress + UInt16.ofNat offset) (file.payload.drop offset)) ∧
      ((loadPayload file startAddress romSize offset).final m).gControlMode = .mRPI := by
  obtain ⟨rest, hrest⟩ : ∃ rest, romSize.toNat - offset = rest := ⟨_, rfl⟩
  induction rest using Nat.strongRecOn generalizing offset m with
  | ind rest ih =>
    rcases Nat.eq_or_lt_of_le hoffset with heq | hlt
    · have hpayload : file.payload.length ≤ offset := by
        rw [FlashFile.payload, List.length_drop]
        omega
      rw [loadPayload, if_neg (by omega), List.drop_of_length_le hpayload]
      exact ⟨rfl, hm⟩
    · have hpos : 0 < min (romSize.toNat - offset) LOAD_CHUNK_SIZE :=
        Nat.lt_min.2 ⟨Nat.sub_pos_of_lt hlt, by decide⟩
      have hwidth := (read_payload hlength hread (Nat.min_le_left _ LOAD_CHUNK_SIZE) hlt).2
      rw [loadPayload_turn hlength hread hlt, Prog.final_bind]
      generalize min (romSize.toNat - offset) LOAD_CHUNK_SIZE = requested at hpos hwidth ⊢
      obtain ⟨hstored, hmode⟩ := writeBlock_spec hm (startAddress + UInt16.ofNat offset)
        ((file.payload.drop offset).take requested)
      have hfits : offset + requested ≤ romSize.toNat := by
        rw [List.length_take, FlashFile.payload, List.length_drop, List.length_drop] at hwidth
        omega
      obtain ⟨hview, hmode'⟩ := ih _ (by omega) hmode hfits rfl
      have hnext : startAddress + UInt16.ofNat (offset + requested) = startAddress + UInt16.ofNat offset +
          UInt16.ofNat ((file.payload.drop offset).take requested).length := by
        rw [hwidth, UInt16.ofNat_add, UInt16.add_assoc]
      refine ⟨?_, hmode'⟩
      rw [hview, hstored, hnext, ← List.drop_drop, ← Machine.View.writes_append, ← blockWrites_append,
        List.take_append_drop]

/-- A payload that the reads do not deliver is noticed. -/
theorem loadPayload_short {startAddress romSize : UInt16}
    (hlength : file.data.length = sizeofDefROM + romSize.toNat) (hread : file.readable < file.data.length)
    {offset : Nat} (hoffset : offset ≤ romSize.toNat) (hserved : sizeofDefROM + offset ≤ file.readable) :
    (loadPayload file startAddress romSize offset).result m = false := by
  induction offset using loadPayload.induct file romSize generalizing m with
  | case1 offset hlt requested buffer =>
    rename_i hshort
    rw [loadPayload, if_pos hlt]
    exact congrFun (congrArg Prog.result (if_pos hshort)) m
  | case2 offset hlt requested buffer hfull =>
    rename_i ih
    have hfits : requested ≤ romSize.toNat - offset := Nat.min_le_left _ _
    have hpos : 0 < requested := Nat.lt_min.2 ⟨Nat.sub_pos_of_lt hlt, by decide⟩
    have hnot : ¬ (file.read (sizeofDefROM + offset) requested).length ≠ requested :=
      not_not.2 (not_not.1 hfull)
    have hserved' : sizeofDefROM + (offset + requested) ≤ file.readable := by
      by_contra hpast
      exact absurd (not_not.1 hnot) (Nat.ne_of_lt (file.length_read_lt _ (by omega) hpos))
    rw [loadPayload, if_pos hlt]
    change (if (file.read (sizeofDefROM + offset) requested).length ≠ requested then pure false else _ :
      Prog Machine Bool).result m = false
    rw [if_neg hnot, Prog.result_bind]
    exact ih (by omega) hserved'
  | case3 offset hge => omega

end Payload

/-! ## The file -/

/-- The header's checks. -/
theorem validateROMHeader_eq (hdr : DefROM) : validateROMHeader hdr =
    if hdr.SOH = 0x5A ∧ hdr.EOH = 0xA5 ∧ hdr.VERSION_MAJOR = 1 ∧ hdr.csum = hdr.CSUM ∧
        hdr.startAddress.toNat + hdr.romSize.toNat ≤ 0x10000 then some (hdr.startAddress, hdr.romSize)
    else none := by
  unfold validateROMHeader
  split_ifs with h₁ h₂ h₃ h₄ h₅ h₅ <;> simp_all [DefROM.startAddress, DefROM.romSize]

section File

variable {m : Machine} (flash : Flash) (path : List UInt8)

/-- What is left of loading a file when its header and its length are looked at. -/
theorem loadROMCartridgeFile_eq {file : FlashFile} (hfile : flash path = some file) :
    loadROMCartridgeFile flash path =
      if file.Accepted ∧ sizeofDefROM ≤ file.readable then do
        if ← loadPayload file file.hdr.startAddress file.hdr.romSize 0 then
          installROMVectors file.hdr
          return true
        else
          return false
      else
        return false := by
  unfold loadROMCartridgeFile
  rw [hfile]
  dsimp only
  by_cases hsmall : file.size < sizeofDefROM
  · rw [if_pos hsmall, if_neg fun h => absurd h.1.holds_header (Nat.not_le.2 hsmall)]
  rw [if_neg hsmall]
  have hsize : sizeofDefROM ≤ file.data.length := Nat.not_lt.1 hsmall
  by_cases hheader : file.readable < sizeofDefROM
  · have hshort := file.length_read_lt 0 (n := sizeofDefROM) (by omega) (by decide)
    rw [if_pos (Nat.ne_of_lt hshort), if_neg fun h => absurd h.2 (Nat.not_le.2 hheader)]
  have hread : file.read 0 sizeofDefROM = file.data.take sizeofDefROM :=
    FlashFile.read_eq (by omega)
  rw [hread, if_neg (not_not.2 (by rw [List.length_take]; omega))]
  rw [show DefROM.ofBytes (file.data.take sizeofDefROM) = file.hdr from rfl, validateROMHeader_eq]
  by_cases hgood : file.hdr.SOH = 0x5A ∧ file.hdr.EOH = 0xA5 ∧ file.hdr.VERSION_MAJOR = 1 ∧
      file.hdr.csum = file.hdr.CSUM ∧ file.hdr.startAddress.toNat + file.hdr.romSize.toNat ≤ 0x10000
  · obtain ⟨h₁, h₂, h₃, h₄, h₅⟩ := hgood
    rw [if_pos ⟨h₁, h₂, h₃, h₄, h₅⟩]
    dsimp only
    by_cases hlength : file.size = sizeofDefROM + file.hdr.romSize.toNat
    · rw [if_neg (not_not.2 hlength), if_pos ⟨⟨hsize, h₁, h₂, h₃, h₄, h₅, hlength⟩, Nat.not_lt.1 hheader⟩]
    · rw [if_pos hlength, if_neg fun h => hlength h.1.length_eq]
  · rw [if_neg hgood, if_neg fun h => hgood ⟨h.1.SOH, h.1.EOH, h.1.VERSION_MAJOR, h.1.CSUM, h.1.fits⟩]

/-- Whether a cartridge loads depends on the flash alone. -/
theorem result_loadROMCartridgeFile (m : Machine) : (loadROMCartridgeFile flash path).result m = true ↔
    ∃ file, flash path = some file ∧ file.Loads := by
  cases hfile : flash path with
  | none =>
    unfold loadROMCartridgeFile
    rw [hfile]
    exact ⟨nofun, nofun⟩
  | some file =>
    rw [loadROMCartridgeFile_eq flash path hfile]
    have hsome : (∃ file', some file = some file' ∧ file'.Loads) ↔ file.Loads := by simp
    rw [hsome]
    by_cases hgood : file.Accepted ∧ sizeofDefROM ≤ file.readable
    · rw [if_pos hgood, Prog.result_bind]
      rcases Nat.lt_or_ge file.readable file.data.length with hshort | hfull
      · rw [loadPayload_short hgood.1.length_eq hshort (Nat.zero_le _) hgood.2]
        exact ⟨nofun, fun h => absurd h.2 (Nat.not_le.2 hshort)⟩
      · rw [result_loadPayload hgood.1.length_eq hfull (Nat.zero_le _)]
        exact ⟨fun _ => ⟨hgood.1, hfull⟩, fun _ => rfl⟩
    · rw [if_neg hgood]
      exact ⟨nofun, fun h => absurd ⟨h.1, Nat.le_trans h.1.holds_header h.2⟩ hgood⟩

/-- A cartridge that loads is stored. -/
theorem view_loadROMCartridgeFile (hm : m.gControlMode = .mRPI) {file : FlashFile}
    (hfile : flash path = some file) (hloads : file.Loads) :
    ((loadROMCartridgeFile flash path).final m).view = m.view.writes file.writes := by
  obtain ⟨hview, hmode⟩ := view_loadPayload file.hdr.startAddress hm
    hloads.1.length_eq hloads.2 (Nat.zero_le _)
  obtain ⟨-, hvectors, -⟩ := cycles_installROMVectors file.hdr _ hmode
  have hserved : sizeofDefROM ≤ file.readable := Nat.le_trans hloads.1.holds_header hloads.2
  rw [loadROMCartridgeFile_eq flash path hfile, if_pos ⟨hloads.1, hserved⟩, Prog.final_bind,
    result_loadPayload hloads.1.length_eq hloads.2 (Nat.zero_le _)]
  change ((installROMVectors file.hdr).final _).view = _
  rw [hvectors, hview, FlashFile.writes, Machine.View.writes_append]
  simp

/-- Without a good header and length nothing is stored. -/
theorem final_loadROMCartridgeFile_refused (m : Machine)
    (hrefused : ∀ file, flash path = some file → ¬ file.Accepted) :
    (loadROMCartridgeFile flash path).final m = m := by
  cases hfile : flash path with
  | none =>
    unfold loadROMCartridgeFile
    rw [hfile]
    rfl
  | some file =>
    rw [loadROMCartridgeFile_eq flash path hfile, if_neg fun h => hrefused file hfile h.1]
    rfl

/-- Loading a cartridge is exact: it succeeds exactly on a good file; then the memory of the current context is
the one before, with the payload laid over it and the vectors over that; and without a good header and length
nothing is changed. The stores alone say what happens where addresses share a cell. -/
theorem loadROMCartridgeFile_exact (hm : m.gControlMode = .mRPI) :
    ((loadROMCartridgeFile flash path).result m = true ↔ ∃ file, flash path = some file ∧ file.Loads) ∧
      (∀ file, flash path = some file → (loadROMCartridgeFile flash path).result m = true →
        ((loadROMCartridgeFile flash path).final m).view = m.view.writes file.writes ∧
          (Function.Injective m.physAddr →
            ∀ a, ((loadROMCartridgeFile flash path).final m).peek a = file.memory m.peek a)) ∧
      ((∀ file, flash path = some file → ¬ file.Accepted) →
        ((loadROMCartridgeFile flash path).final m).view = m.view) := by
  refine ⟨result_loadROMCartridgeFile flash path m, fun file hfile htrue => ?_, fun hrefused => ?_⟩
  · obtain ⟨file', hfile', hloads⟩ := (result_loadROMCartridgeFile flash path m).1 htrue
    obtain rfl : file' = file := Option.some.inj (hfile'.symm.trans hfile)
    have hview := view_loadROMCartridgeFile flash path hm hfile hloads
    refine ⟨hview, fun hphys a => ?_⟩
    have hlength : file'.payload.length ≤ 65536 := by
      have hfits := hloads.1.fits
      have hdata := hloads.1.length_eq
      rw [FlashFile.payload, List.length_drop]
      omega
    have hstored : Function.Injective
        (m.view.writes (blockWrites file'.hdr.startAddress file'.payload)).physAddr := by
      rw [Machine.View.writes_eq_self]
      exact hphys
    rw [← Machine.peek_view, hview, FlashFile.writes, Machine.View.writes_append, peek_vectorWrites hstored,
      Machine.View.peek_writes_block (v := m.view) hphys hlength]
    rfl
  · rw [final_loadROMCartridgeFile_refused flash path m hrefused]

/-- A cartridge whose payload of two bytes ends at `FFFF`, under an IRQ vector: it loads on any board that the
RP drives, its vector over its payload. -/
theorem loadROMCartridgeFile_atTop :
    let file : FlashFile := ⟨[0x5A, 0, 1, 0xFE, 0xFF, 2, 0, 4, 0, 0, 0, 0, 7, 8, 0x12, 0xA5, 1, 2], 18⟩
    let board := Machine.setup6502 0 0 0 (fun entry => gDefaultMMU.getD entry.2.toNat 0) fun _ => 0
    ((loadROMCartridgeFile (fun _ => some file) []).result board = true ↔
        ∃ file', some file = some file' ∧ file'.Loads) ∧ file.Loads ∧
      file.memory board.peek 0xFFFE = 7 ∧ file.memory board.peek 0xFFFF = 8 :=
  ⟨(loadROMCartridgeFile_exact (fun _ => some _) [] rfl).1, by decide, by decide, by decide⟩

end File

end NeoMmu
