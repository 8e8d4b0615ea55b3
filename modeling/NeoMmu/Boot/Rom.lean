import NeoMmu.Hardware.Settling

/-!
# ROM cartridges

`rom.cpp`: a cartridge file is a header of sixteen bytes and a payload, which is streamed into the
memory of the current context.
-/

namespace NeoMmu

/-- An open LittleFS file: its bytes, and how many of them reads deliver before one comes short. -/
structure FlashFile where
  data : List UInt8
  readable : Nat

/-- `LittleFS.open()` of a path, for reading. -/
abbrev Flash := List UInt8 → Option FlashFile

/-- `File::size()` -/
def FlashFile.size (file : FlashFile) : Nat := file.data.length

/-- `File::read()` of up to `n` bytes at a position. -/
def FlashFile.read (file : FlashFile) (position n : Nat) : List UInt8 :=
  ((file.data.take file.readable).drop position).take n

/-- `defROM` -/
structure DefROM where
  SOH : UInt8
  VERSION_MINOR : UInt8
  VERSION_MAJOR : UInt8
  STARTADDRESS_L : UInt8
  STARTADDRESS_H : UInt8
  SIZE_L : UInt8
  SIZE_H : UInt8
  TYPE : UInt8
  NMI_L : UInt8
  NMI_H : UInt8
  RESET_L : UInt8
  RESET_H : UInt8
  IRQ_L : UInt8
  IRQ_H : UInt8
  CSUM : UInt8
  EOH : UInt8
  deriving DecidableEq, Repr

/-- `sizeof(defROM)` -/
def sizeofDefROM : Nat := 16

/-- The header that sixteen bytes spell. -/
def DefROM.ofBytes (bytes : List UInt8) : DefROM where
  SOH := bytes.getD 0 0
  VERSION_MINOR := bytes.getD 1 0
  VERSION_MAJOR := bytes.getD 2 0
  STARTADDRESS_L := bytes.getD 3 0
  STARTADDRESS_H := bytes.getD 4 0
  SIZE_L := bytes.getD 5 0
  SIZE_H := bytes.getD 6 0
  TYPE := bytes.getD 7 0
  NMI_L := bytes.getD 8 0
  NMI_H := bytes.getD 9 0
  RESET_L := bytes.getD 10 0
  RESET_H := bytes.getD 11 0
  IRQ_L := bytes.getD 12 0
  IRQ_H := bytes.getD 13 0
  CSUM := bytes.getD 14 0
  EOH := bytes.getD 15 0

/-- The checksum of a header. -/
def DefROM.csum (hdr : DefROM) : UInt8 :=
  hdr.STARTADDRESS_L + hdr.STARTADDRESS_H + hdr.SIZE_L + hdr.SIZE_H + hdr.TYPE + hdr.NMI_L + hdr.NMI_H +
    hdr.RESET_L + hdr.RESET_H + hdr.IRQ_L + hdr.IRQ_H

/-- `validateROMHeader()`: the load address and the payload size. -/
def validateROMHeader (hdr : DefROM) : Option (UInt16 × UInt16) :=
  if hdr.SOH ≠ 0x5A ∨ hdr.EOH ≠ 0xA5 then none
  else if hdr.VERSION_MAJOR ≠ 0x01 then none
  else if hdr.csum ≠ hdr.CSUM then none
  else
    let startAddress := hdr.STARTADDRESS_H.toUInt16 * 256 + hdr.STARTADDRESS_L.toUInt16
    let romSize := hdr.SIZE_H.toUInt16 * 256 + hdr.SIZE_L.toUInt16
    if 0x10000 < startAddress.toNat + romSize.toNat then none else some (startAddress, romSize)

/-- `installROMVectors()` -/
def installROMVectors (hdr : DefROM) : Prog Machine Unit := do
  if hdr.TYPE &&& 0x01 ≠ 0 then
    write6502Memory 0xFFFA hdr.NMI_L
    write6502Memory 0xFFFB hdr.NMI_H
  if hdr.TYPE &&& 0x02 ≠ 0 then
    write6502Memory 0xFFFC hdr.RESET_L
    write6502Memory 0xFFFD hdr.RESET_H
  if hdr.TYPE &&& 0x04 ≠ 0 then
    write6502Memory 0xFFFE hdr.IRQ_L
    write6502Memory 0xFFFF hdr.IRQ_H

/-- `LOAD_CHUNK_SIZE` -/
def LOAD_CHUNK_SIZE : Nat := 512

/-- The loop of `loadROMCartridgeFile()` from `offset` on; `false` is a read that came short. -/
def loadPayload (file : FlashFile) (startAddress romSize : UInt16) (offset : Nat) : Prog Machine Bool :=
  if offset < romSize.toNat then do
    let requested := min (romSize.toNat - offset) LOAD_CHUNK_SIZE
    let buffer := file.read (sizeofDefROM + offset) requested
    if buffer.length ≠ requested then
      return false
    else
      writeBlock (startAddress + UInt16.ofNat offset) buffer
      loadPayload file startAddress romSize (offset + requested)
  else
    return true
termination_by romSize.toNat - offset
decreasing_by
  simp only [LOAD_CHUNK_SIZE]
  omega

/-- `loadROMCartridgeFile()` -/
def loadROMCartridgeFile (flash : Flash) (path : List UInt8) : Prog Machine Bool := do
  match flash path with
  | none => return false
  | some file =>
    if file.size < sizeofDefROM then
      return false
    else
      let header := file.read 0 sizeofDefROM
      if header.length ≠ sizeofDefROM then
        return false
      else
        let hdr := DefROM.ofBytes header
        match validateROMHeader hdr with
        | none => return false
        | some (startAddress, romSize) =>
          if file.size ≠ sizeofDefROM + romSize.toNat then
            return false
          else if ← loadPayload file startAddress romSize 0 then
            installROMVectors hdr
            return true
          else
            return false

/-! ## Loading selects nothing -/

theorem selecting_installROMVectors (hdr : DefROM) : Prog.Keeps Selecting (installROMVectors hdr) := by
  have hvector : ∀ (c : Prop) [Decidable c] (a : UInt16) (b : UInt8) (a' : UInt16) (b' : UInt8)
      (next : Prog Machine Unit), Prog.Keeps Selecting next → Prog.Keeps Selecting (do
        if c then
          write6502Memory a b
          write6502Memory a' b'
        next) := by
    intro c _ a b a' b' next hnext
    refine Prog.Keeps.ite (fun _ => ?_) fun _ => hnext
    exact (selecting_write6502Memory a b).bind fun _ => (selecting_write6502Memory a' b').bind fun _ =>
      hnext
  refine hvector _ _ _ _ _ _ (hvector _ _ _ _ _ _ (Prog.Keeps.ite (fun _ => ?_) fun _ =>
    Prog.Keeps.pure ()))
  exact (selecting_write6502Memory _ _).bind fun _ => selecting_write6502Memory _ _

theorem selecting_loadPayload (file : FlashFile) (startAddress romSize : UInt16) (offset : Nat) :
    Prog.Keeps Selecting (loadPayload file startAddress romSize offset) := by
  induction offset using loadPayload.induct file romSize with
  | case1 offset hlt requested buffer hshort =>
    rw [loadPayload, if_pos hlt]
    exact Prog.Keeps.ite (fun _ => Prog.Keeps.pure _) fun h => absurd hshort h
  | case2 offset hlt requested buffer hfull ih =>
    rw [loadPayload, if_pos hlt]
    refine Prog.Keeps.ite (fun h => absurd h hfull) fun _ => ?_
    exact (selecting_writeBlock _ _).bind fun _ => ih
  | case3 offset hge =>
    rw [loadPayload, if_neg hge]
    exact Prog.Keeps.pure true

theorem selecting_loadROMCartridgeFile (flash : Flash) (path : List UInt8) :
    Prog.Keeps Selecting (loadROMCartridgeFile flash path) := by
  unfold loadROMCartridgeFile
  split
  · exact Prog.Keeps.pure false
  refine Prog.Keeps.ite (fun _ => Prog.Keeps.pure _) fun _ =>
    Prog.Keeps.ite (fun _ => Prog.Keeps.pure _) fun _ => ?_
  dsimp only
  split
  · exact Prog.Keeps.pure false
  refine Prog.Keeps.ite (fun _ => Prog.Keeps.pure _) fun _ =>
    (selecting_loadPayload _ _ _ 0).bind fun _ => Prog.Keeps.ite (fun _ => ?_) fun _ =>
      Prog.Keeps.pure _
  exact (selecting_installROMVectors _).bind fun _ => Prog.Keeps.pure true

end NeoMmu
