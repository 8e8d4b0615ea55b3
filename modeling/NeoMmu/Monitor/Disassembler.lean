import NeoMmu.Foundation.Hex
import NeoMmu.Hardware.Snoop

/-!
# The disassembler

`disasm6502.cpp`: the opcode table of the W65C02, the labels that the first pass collects from the vectors and the
targets of branches and jumps, and the lines that the second pass prints. A line is kept as what stands in it; its
text is what goes to the serial console.
-/

namespace NeoMmu.Disassembler

/-! ## Opcodes -/

/-- Addressing modes (`AddrMode`). -/
inductive AddrMode
  | IMP
  | ACC
  | IMM
  | ZP
  | ZPX
  | ZPY
  | ABS
  | ABSX
  | ABSY
  | IND
  | INDX
  | INDY
  | ZPIND
  | REL
  | ZPREL
  | ABXI
  deriving DecidableEq, Repr

/-- `Opcode` -/
structure Opcode where
  name : String
  mode : AddrMode
  len : UInt8
  deriving DecidableEq, Repr

/-- `optable` -/
def optable : List Opcode :=
  [⟨"BRK", .IMP, 1⟩, ⟨"ORA", .INDX, 2⟩, ⟨"???", .IMP, 1⟩, ⟨"???", .IMP, 1⟩,
   ⟨"TSB", .ZP, 2⟩, ⟨"ORA", .ZP, 2⟩, ⟨"ASL", .ZP, 2⟩, ⟨"RMB0", .ZP, 2⟩,
   ⟨"PHP", .IMP, 1⟩, ⟨"ORA", .IMM, 2⟩, ⟨"ASL", .ACC, 1⟩, ⟨"???", .IMP, 1⟩,
   ⟨"TSB", .ABS, 3⟩, ⟨"ORA", .ABS, 3⟩, ⟨"ASL", .ABS, 3⟩, ⟨"BBR0", .ZPREL, 3⟩,
   ⟨"BPL", .REL, 2⟩, ⟨"ORA", .INDY, 2⟩, ⟨"ORA", .ZPIND, 2⟩, ⟨"???", .IMP, 1⟩,
   ⟨"TRB", .ZP, 2⟩, ⟨"ORA", .ZPX, 2⟩, ⟨"ASL", .ZPX, 2⟩, ⟨"RMB1", .ZP, 2⟩,
   ⟨"CLC", .IMP, 1⟩, ⟨"ORA", .ABSY, 3⟩, ⟨"INC", .ACC, 1⟩, ⟨"???", .IMP, 1⟩,
   ⟨"TRB", .ABS, 3⟩, ⟨"ORA", .ABSX, 3⟩, ⟨"ASL", .ABSX, 3⟩, ⟨"BBR1", .ZPREL, 3⟩,
   ⟨"JSR", .ABS, 3⟩, ⟨"AND", .INDX, 2⟩, ⟨"???", .IMP, 1⟩, ⟨"???", .IMP, 1⟩,
   ⟨"BIT", .ZP, 2⟩, ⟨"AND", .ZP, 2⟩, ⟨"ROL", .ZP, 2⟩, ⟨"RMB2", .ZP, 2⟩,
   ⟨"PLP", .IMP, 1⟩, ⟨"AND", .IMM, 2⟩, ⟨"ROL", .ACC, 1⟩, ⟨"???", .IMP, 1⟩,
   ⟨"BIT", .ABS, 3⟩, ⟨"AND", .ABS, 3⟩, ⟨"ROL", .ABS, 3⟩, ⟨"BBR2", .ZPREL, 3⟩,
   ⟨"BMI", .REL, 2⟩, ⟨"AND", .INDY, 2⟩, ⟨"AND", .ZPIND, 2⟩, ⟨"???", .IMP, 1⟩,
   ⟨"BIT", .ZPX, 2⟩, ⟨"AND", .ZPX, 2⟩, ⟨"ROL", .ZPX, 2⟩, ⟨"RMB3", .ZP, 2⟩,
   ⟨"SEC", .IMP, 1⟩, ⟨"AND", .ABSY, 3⟩, ⟨"DEC", .ACC, 1⟩, ⟨"???", .IMP, 1⟩,
   ⟨"BIT", .ABSX, 3⟩, ⟨"AND", .ABSX, 3⟩, ⟨"ROL", .ABSX, 3⟩, ⟨"BBR3", .ZPREL, 3⟩,
   ⟨"RTI", .IMP, 1⟩, ⟨"EOR", .INDX, 2⟩, ⟨"???", .IMP, 1⟩, ⟨"???", .IMP, 1⟩,
   ⟨"???", .IMP, 1⟩, ⟨"EOR", .ZP, 2⟩, ⟨"LSR", .ZP, 2⟩, ⟨"RMB4", .ZP, 2⟩,
   ⟨"PHA", .IMP, 1⟩, ⟨"EOR", .IMM, 2⟩, ⟨"LSR", .ACC, 1⟩, ⟨"???", .IMP, 1⟩,
   ⟨"JMP", .ABS, 3⟩, ⟨"EOR", .ABS, 3⟩, ⟨"LSR", .ABS, 3⟩, ⟨"BBR4", .ZPREL, 3⟩,
   ⟨"BVC", .REL, 2⟩, ⟨"EOR", .INDY, 2⟩, ⟨"EOR", .ZPIND, 2⟩, ⟨"???", .IMP, 1⟩,
   ⟨"???", .IMP, 1⟩, ⟨"EOR", .ZPX, 2⟩, ⟨"LSR", .ZPX, 2⟩, ⟨"RMB5", .ZP, 2⟩,
   ⟨"CLI", .IMP, 1⟩, ⟨"EOR", .ABSY, 3⟩, ⟨"PHY", .IMP, 1⟩, ⟨"???", .IMP, 1⟩,
   ⟨"???", .IMP, 1⟩, ⟨"EOR", .ABSX, 3⟩, ⟨"LSR", .ABSX, 3⟩, ⟨"BBR5", .ZPREL, 3⟩,
   ⟨"RTS", .IMP, 1⟩, ⟨"ADC", .INDX, 2⟩, ⟨"???", .IMP, 1⟩, ⟨"???", .IMP, 1⟩,
   ⟨"STZ", .ZP, 2⟩, ⟨"ADC", .ZP, 2⟩, ⟨"ROR", .ZP, 2⟩, ⟨"RMB6", .ZP, 2⟩,
   ⟨"PLA", .IMP, 1⟩, ⟨"ADC", .IMM, 2⟩, ⟨"ROR", .ACC, 1⟩, ⟨"???", .IMP, 1⟩,
   ⟨"JMP", .IND, 3⟩, ⟨"ADC", .ABS, 3⟩, ⟨"ROR", .ABS, 3⟩, ⟨"BBR6", .ZPREL, 3⟩,
   ⟨"BVS", .REL, 2⟩, ⟨"ADC", .INDY, 2⟩, ⟨"ADC", .ZPIND, 2⟩, ⟨"???", .IMP, 1⟩,
   ⟨"STZ", .ZPX, 2⟩, ⟨"ADC", .ZPX, 2⟩, ⟨"ROR", .ZPX, 2⟩, ⟨"RMB7", .ZP, 2⟩,
   ⟨"SEI", .IMP, 1⟩, ⟨"ADC", .ABSY, 3⟩, ⟨"PLY", .IMP, 1⟩, ⟨"???", .IMP, 1⟩,
   ⟨"JMP", .ABXI, 3⟩, ⟨"ADC", .ABSX, 3⟩, ⟨"ROR", .ABSX, 3⟩, ⟨"BBR7", .ZPREL, 3⟩,
   ⟨"BRA", .REL, 2⟩, ⟨"STA", .INDX, 2⟩, ⟨"???", .IMP, 1⟩, ⟨"???", .IMP, 1⟩,
   ⟨"STY", .ZP, 2⟩, ⟨"STA", .ZP, 2⟩, ⟨"STX", .ZP, 2⟩, ⟨"SMB0", .ZP, 2⟩,
   ⟨"DEY", .IMP, 1⟩, ⟨"BIT", .IMM, 2⟩, ⟨"TXA", .IMP, 1⟩, ⟨"???", .IMP, 1⟩,
   ⟨"STY", .ABS, 3⟩, ⟨"STA", .ABS, 3⟩, ⟨"STX", .ABS, 3⟩, ⟨"BBS0", .ZPREL, 3⟩,
   ⟨"BCC", .REL, 2⟩, ⟨"STA", .INDY, 2⟩, ⟨"STA", .ZPIND, 2⟩, ⟨"???", .IMP, 1⟩,
   ⟨"STY", .ZPX, 2⟩, ⟨"STA", .ZPX, 2⟩, ⟨"STX", .ZPY, 2⟩, ⟨"SMB1", .ZP, 2⟩,
   ⟨"TYA", .IMP, 1⟩, ⟨"STA", .ABSY, 3⟩, ⟨"TXS", .IMP, 1⟩, ⟨"???", .IMP, 1⟩,
   ⟨"STZ", .ABS, 3⟩, ⟨"STA", .ABSX, 3⟩, ⟨"STZ", .ABSX, 3⟩, ⟨"BBS1", .ZPREL, 3⟩,
   ⟨"LDY", .IMM, 2⟩, ⟨"LDA", .INDX, 2⟩, ⟨"LDX", .IMM, 2⟩, ⟨"???", .IMP, 1⟩,
   ⟨"LDY", .ZP, 2⟩, ⟨"LDA", .ZP, 2⟩, ⟨"LDX", .ZP, 2⟩, ⟨"SMB2", .ZP, 2⟩,
   ⟨"TAY", .IMP, 1⟩, ⟨"LDA", .IMM, 2⟩, ⟨"TAX", .IMP, 1⟩, ⟨"???", .IMP, 1⟩,
   ⟨"LDY", .ABS, 3⟩, ⟨"LDA", .ABS, 3⟩, ⟨"LDX", .ABS, 3⟩, ⟨"BBS2", .ZPREL, 3⟩,
   ⟨"BCS", .REL, 2⟩, ⟨"LDA", .INDY, 2⟩, ⟨"LDA", .ZPIND, 2⟩, ⟨"???", .IMP, 1⟩,
   ⟨"LDY", .ZPX, 2⟩, ⟨"LDA", .ZPX, 2⟩, ⟨"LDX", .ZPY, 2⟩, ⟨"SMB3", .ZP, 2⟩,
   ⟨"CLV", .IMP, 1⟩, ⟨"LDA", .ABSY, 3⟩, ⟨"TSX", .IMP, 1⟩, ⟨"???", .IMP, 1⟩,
   ⟨"LDY", .ABSX, 3⟩, ⟨"LDA", .ABSX, 3⟩, ⟨"LDX", .ABSY, 3⟩, ⟨"BBS3", .ZPREL, 3⟩,
   ⟨"CPY", .IMM, 2⟩, ⟨"CMP", .INDX, 2⟩, ⟨"???", .IMP, 1⟩, ⟨"???", .IMP, 1⟩,
   ⟨"CPY", .ZP, 2⟩, ⟨"CMP", .ZP, 2⟩, ⟨"DEC", .ZP, 2⟩, ⟨"SMB4", .ZP, 2⟩,
   ⟨"INY", .IMP, 1⟩, ⟨"CMP", .IMM, 2⟩, ⟨"DEX", .IMP, 1⟩, ⟨"WAI", .IMP, 1⟩,
   ⟨"CPY", .ABS, 3⟩, ⟨"CMP", .ABS, 3⟩, ⟨"DEC", .ABS, 3⟩, ⟨"BBS4", .ZPREL, 3⟩,
   ⟨"BNE", .REL, 2⟩, ⟨"CMP", .INDY, 2⟩, ⟨"CMP", .ZPIND, 2⟩, ⟨"???", .IMP, 1⟩,
   ⟨"???", .IMP, 1⟩, ⟨"CMP", .ZPX, 2⟩, ⟨"DEC", .ZPX, 2⟩, ⟨"SMB5", .ZP, 2⟩,
   ⟨"CLD", .IMP, 1⟩, ⟨"CMP", .ABSY, 3⟩, ⟨"PHX", .IMP, 1⟩, ⟨"STP", .IMP, 1⟩,
   ⟨"???", .IMP, 1⟩, ⟨"CMP", .ABSX, 3⟩, ⟨"DEC", .ABSX, 3⟩, ⟨"BBS5", .ZPREL, 3⟩,
   ⟨"CPX", .IMM, 2⟩, ⟨"SBC", .INDX, 2⟩, ⟨"???", .IMP, 1⟩, ⟨"???", .IMP, 1⟩,
   ⟨"CPX", .ZP, 2⟩, ⟨"SBC", .ZP, 2⟩, ⟨"INC", .ZP, 2⟩, ⟨"SMB6", .ZP, 2⟩,
   ⟨"INX", .IMP, 1⟩, ⟨"SBC", .IMM, 2⟩, ⟨"NOP", .IMP, 1⟩, ⟨"NOP", .IMP, 1⟩,
   ⟨"CPX", .ABS, 3⟩, ⟨"SBC", .ABS, 3⟩, ⟨"INC", .ABS, 3⟩, ⟨"BBS6", .ZPREL, 3⟩,
   ⟨"BEQ", .REL, 2⟩, ⟨"SBC", .INDY, 2⟩, ⟨"SBC", .ZPIND, 2⟩, ⟨"???", .IMP, 1⟩,
   ⟨"???", .IMP, 1⟩, ⟨"SBC", .ZPX, 2⟩, ⟨"INC", .ZPX, 2⟩, ⟨"SMB7", .ZP, 2⟩,
   ⟨"SED", .IMP, 1⟩, ⟨"SBC", .ABSY, 3⟩, ⟨"PLX", .IMP, 1⟩, ⟨"???", .IMP, 1⟩,
   ⟨"???", .IMP, 1⟩, ⟨"SBC", .ABSX, 3⟩, ⟨"INC", .ABSX, 3⟩, ⟨"BBS7", .ZPREL, 3⟩]

/-- The entry of an opcode. -/
def opcode (b : UInt8) : Opcode := optable.getD b.toNat ⟨"???", .IMP, 1⟩

/-! ## Labels -/

/-- `MAX_LABELS` -/
def MAX_LABELS : Nat := 128

/-- `LABEL_WIDTH` -/
def LABEL_WIDTH : Nat := 7

/-- `Label`; the name is without its NUL. -/
structure Label where
  addr : UInt16
  name : List Char
  fixed : Bool
  deriving DecidableEq, Repr

/-- `findLabel()` -/
def findLabel (labels : List Label) (addr : UInt16) : Option (List Char) :=
  (labels.find? (·.addr = addr)).map Label.name

/-- `createNamedLabel()` -/
def createNamedLabel (addr : UInt16) (name : List Char) (labels : List Label) : List Label :=
  if MAX_LABELS ≤ labels.length then labels else labels ++ [⟨addr, name.take 7, true⟩]

/-- The name of the label that `createLabel()` makes. -/
def labelName (addr : UInt16) : List Char := 'L' :: hexDigits 4 addr.toNat

/-- `createLabel()` -/
def createLabel (addr : UInt16) (labels : List Label) : List Label :=
  match findLabel labels addr with
  | some _ => labels
  | none => if MAX_LABELS ≤ labels.length then labels else labels ++ [⟨addr, labelName addr, false⟩]

/-! ## Instructions -/

/-- A signed offset as it is added to an address. -/
def signed (b : UInt8) : UInt16 := if b < 0x80 then b.toUInt16 else b.toUInt16 + 0xFF00

/-- A little-endian word. -/
def word (lo hi : UInt8) : UInt16 := (hi.toUInt16 <<< 8) ||| lo.toUInt16

/-- The address that the first pass makes a label for. -/
def Opcode.target (op : Opcode) (addr : UInt16) (b1 b2 : UInt8) : Option UInt16 :=
  match op.mode with
  | .REL => some (addr + 2 + signed b1)
  | .ZPREL => some (addr + 3 + signed b2)
  | .ABS => if op.name = "JSR" ∨ op.name = "JMP" then some (word b1 b2) else none
  | .ABXI => if op.name = "JMP" then some (word b1 b2) else none
  | _ => none

/-- The label of an address, or else the address. -/
def addressText (labels : List Label) (t : UInt16) : List Char :=
  match findLabel labels t with
  | some l => l
  | none => '$' :: hexDigits 4 t.toNat

/-- A byte in hexadecimal. -/
def hex2 (b : UInt8) : List Char := hexDigits 2 b.toNat

/-- What is printed behind the name. -/
def Opcode.operand (op : Opcode) (labels : List Label) (addr : UInt16) (b1 b2 : UInt8) : List Char :=
  match op.mode with
  | .IMP => []
  | .ACC => ['A']
  | .IMM => ['#', '$'] ++ hex2 b1
  | .ZP => ['$'] ++ hex2 b1
  | .ZPX => ['$'] ++ hex2 b1 ++ [',', 'X']
  | .ZPY => ['$'] ++ hex2 b1 ++ [',', 'Y']
  | .ABS => addressText labels (word b1 b2)
  | .ABSX => ['$'] ++ hex2 b2 ++ hex2 b1 ++ [',', 'X']
  | .ABSY => ['$'] ++ hex2 b2 ++ hex2 b1 ++ [',', 'Y']
  | .IND => ['(', '$'] ++ hex2 b2 ++ hex2 b1 ++ [')']
  | .INDX => ['(', '$'] ++ hex2 b1 ++ [',', 'X', ')']
  | .INDY => ['(', '$'] ++ hex2 b1 ++ [')', ',', 'Y']
  | .ZPIND => ['(', '$'] ++ hex2 b1 ++ [')']
  | .REL => addressText labels (addr + 2 + signed b1)
  | .ABXI => ['(', '$'] ++ hex2 b2 ++ hex2 b1 ++ [',', 'X', ')']
  | .ZPREL => ['$'] ++ hex2 b1 ++ [','] ++ addressText labels (addr + 3 + signed b2)

/-! ## Lines -/

/-- A printed line. -/
structure Line where
  label : Option (List Char)
  addr : UInt16
  /-- The bytes of the instruction. -/
  bytes : List UInt8
  name : String
  operand : List Char
  deriving DecidableEq, Repr

/-- What `println()` sends. -/
def println : List Char := ['\r', '\n']

/-- A text with blanks up to a width behind it. -/
def padRight (width : Nat) (text : List Char) : List Char := text ++ List.replicate (width - text.length) ' '

/-- The text of a line. -/
def Line.text (line : Line) : List Char :=
  (match line.label with
    | some lbl => println ++ padRight LABEL_WIDTH ((lbl ++ [':']).take 9)
    | none => List.replicate 7 ' ') ++
  hexDigits 4 line.addr.toNat ++ [' ', ' '] ++
  padRight 9 (line.bytes.flatMap fun b => hex2 b ++ [' ']) ++
  [' '] ++ padRight 4 line.name.toList ++ [' '] ++ line.operand ++ println

/-- The line of an instruction. -/
def line (labels : List Label) (addr : UInt16) (b : List UInt8) : Line :=
  let op := opcode (b.getD 0 0)
  { label := findLabel labels addr
    addr := addr
    bytes := b.take op.len.toNat
    name := op.name
    operand := op.operand labels addr (b.getD 1 0) (b.getD 2 0) }

/-! ## The two passes -/

/-- The board and the statics of `disasm6502.cpp`. -/
structure Disasm where
  hw : Machine
  labels : List Label

/-- A program on the board. -/
def onHw {α : Type} (p : Prog Machine α) : Prog Disasm α := p.on (·.hw) fun d m => { d with hw := m }

/-- `disasmResetLabels()` -/
def disasmResetLabels : Prog Disasm Unit := modify fun d => { d with labels := [] }

/-- `readWord()` -/
def readWord (addr : UInt16) : Prog Disasm UInt16 := do
  let b ← onHw (snoopRead6502Memory addr 2)
  return word (b.getD 0 0) (b.getD 1 0)

/-- `seedVectors()` -/
def seedVectors : Prog Disasm Unit := do
  let nmi ← readWord 0xFFFA
  let reset ← readWord 0xFFFC
  let irq ← readWord 0xFFFE
  modify fun d => { d with labels := createNamedLabel nmi ['N', 'M', 'I'] d.labels }
  modify fun d => { d with labels := createNamedLabel reset ['R', 'E', 'S', 'E', 'T'] d.labels }
  modify fun d => { d with labels := createNamedLabel irq ['I', 'R', 'Q'] d.labels }

/-- The labels behind an instruction of the first pass. -/
def scanned (addr : UInt16) (b : List UInt8) (labels : List Label) : List Label :=
  match (opcode (b.getD 0 0)).target addr (b.getD 1 0) (b.getD 2 0) with
  | some t => createLabel t labels
  | none => labels

/-- `scanLabels()` -/
def scanLabels (addr : UInt16) : Nat → Prog Disasm Unit
  | 0 => return
  | lines + 1 => do
    let b ← onHw (snoopRead6502Memory addr 3)
    modify fun d => { d with labels := scanned addr b d.labels }
    scanLabels (addr + (opcode (b.getD 0 0)).len.toUInt16) lines

/-- The loop of `disasm6502()`: the lines, and the address behind them. -/
def printLines (addr : UInt16) : Nat → Prog Disasm (List Line × UInt16)
  | 0 => return ([], addr)
  | lines + 1 => do
    let b ← onHw (snoopRead6502Memory addr 3)
    let d ← get
    let (rest, behind) ← printLines (addr + (opcode (b.getD 0 0)).len.toUInt16) lines
    return (line d.labels addr b :: rest, behind)

/-- `disasm6502()` -/
def disasm6502 (addr lines : UInt16) (simple : Bool) : Prog Disasm (List Line × UInt16) := do
  if simple = false then
    disasmResetLabels
    seedVectors
    scanLabels addr lines.toNat
  printLines addr lines.toNat

end NeoMmu.Disassembler
