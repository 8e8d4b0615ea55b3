import NeoMmu.Foundation.Tokens
import NeoMmu.Mailbox.Monitor
import NeoMmu.Monitor.Listing

/-!
# Looking at memory and changing it

The monitor commands that show memory and enter bytes (`ram.cpp` and `monitor.cpp`). A dump shows every address of
its range once, and what stands in a line of it can be entered again: it stores the same bytes at the same place.
-/

namespace NeoMmu

/-! ## Numbers -/

/-- `x2i()`, whose `int` wraps around. -/
def x2i (s : List Char) : UInt32 := go 0 s
where
  /-- The loop, with the value so far. -/
  go (x : UInt32) : List Char → UInt32
    | [] => x
    | c :: s =>
      match hexValue c with
      | some d => go (x * 16 + UInt32.ofNat d) s
      | none => x

/-- `x2i()` as an address. -/
def x2iAddress (s : List Char) : UInt16 := (x2i s &&& 0xFFFF).toUInt16

/-- `x2i()` as a byte. -/
def x2iByte (s : List Char) : UInt8 := (x2i s &&& 0xFF).toUInt8

/-! ## Dumps -/

/-- The text that `dump16()` prints. -/
def dumpText (vAddress : UInt16) (bytes : List UInt8) : List Char :=
  hexDigits 4 vAddress.toNat ++ [':'] ++ (bytes.take 8).flatMap (fun dat => ' ' :: Disassembler.hex2 dat) ++ [' '] ++
    (bytes.drop 8).flatMap (fun dat => ' ' :: Disassembler.hex2 dat) ++ Disassembler.println

/-- The reads of `dump16()`. -/
def dumpBytes (vAddress : UInt16) : Nat → Prog Machine (List UInt8)
  | 0 => return []
  | n + 1 => do
    let dat ← snoopRead6502MemoryLoc vAddress
    return dat :: (← dumpBytes (vAddress + 1) n)

/-- `dump16()`: the text of the line. -/
def dump16 (vAddress : UInt16) : Prog Machine (List Char) := do
  return dumpText vAddress (← dumpBytes vAddress 16)

/-- The loop of `dumpMemory()`. -/
def dumpLines (vStartAddress : UInt16) : Nat → Prog Machine (List (List Char))
  | 0 => return []
  | n + 1 => do
    let text ← dump16 vStartAddress
    return text :: (← dumpLines (vStartAddress + 16) n)

/-- How many lines `dumpMemory()` prints; the quotient is cut towards zero. -/
def dumpCount (vStartAddress vEndAddress : UInt16) : Nat :=
  (((vEndAddress.toNat : Int) - vStartAddress.toNat).tdiv 16 + 1).toNat

/-- `dumpMemory()`: the texts of its lines. -/
def dumpMemory (vStartAddress vEndAddress : UInt16) : Prog Machine (List (List Char)) :=
  dumpLines vStartAddress (dumpCount vStartAddress vEndAddress)

/-- The last address that `cmdDumpCallback()` shows. -/
def dumpEnd (lFrom toAddress : UInt16) : UInt16 :=
  let lTo := UInt16.ofNat (max toAddress.toNat (lFrom.toNat + 15))
  if lTo ≤ lFrom then 0xFFFF else lTo

/-- `cmdDumpCallback()` -/
def cmdDump (fromArg toArg : List Char) : Prog Machine (List (List Char)) := do
  let lFrom := x2iAddress fromArg
  dumpMemory lFrom (dumpEnd lFrom (x2iAddress toArg))

/-! ## Entering bytes -/

/-- The loop of `cmdMemCallback()`. -/
def enterBytes (lAddress : UInt16) : List (List Char) → Prog Machine UInt16
  | [] => return lAddress
  | arg :: args => do
    snoopWrite6502Memory lAddress [x2iByte arg]
    enterBytes (lAddress + 1) args

/-- `cmdMemCallback()` with its arguments, of which a line of the monitor holds fewer than 256; `none` if there are
too few. -/
def cmdMem : List (List Char) → Prog Machine (Option (List (List Char)))
  | addressArg :: arg :: args => do
    let lStartAddress := x2iAddress addressArg
    let lAddress ← enterBytes lStartAddress (arg :: args)
    return some (← dumpMemory lStartAddress (lAddress - 1))
  | _ => return none

/-- `cmdDisAsmCallback()` with the number of lines that `atoi()` makes of its argument. -/
def cmdDisAsm (fromArg : List Char) (lines : UInt8) : Prog Disassembler.Disasm (List Disassembler.Line) := do
  let (printed, _) ← Disassembler.disasm6502 (x2iAddress fromArg) lines.toUInt16 false
  return printed

/-- What a single step disassembles, its addresses without their text, is a listing of one line. -/
theorem hw_disasm6502_line (m : Machine) (labels : List Disassembler.Label) (addr : UInt16) :
    ((Disassembler.disasm6502 addr 1 false).final ⟨m, labels⟩).hw = (disasm6502 addr).final m := by
  simp only [Disassembler.disasm6502, if_pos, Disassembler.disasmResetLabels, Disassembler.seedVectors,
    Disassembler.readWord, UInt16.reduceToNat, Disassembler.scanLabels, Disassembler.printLines, Disassembler.onHw,
    disasm6502, Prog.final_bind, Prog.final_modify, Prog.final_pure, Prog.final_discard, Prog.final_on, Prog.final_get]

/-! ## What is read and written -/

theorem x2i_go (x : Nat) (s : List Char) : x2i.go (UInt32.ofNat x) s = UInt32.ofNat (readHex x s) := by
  induction s generalizing x with
  | nil => rfl
  | cons c s ih =>
    rw [x2i.go, readHex]
    cases hexValue c with
    | none => rfl
    | some d =>
      have hnext : UInt32.ofNat x * 16 + UInt32.ofNat d = UInt32.ofNat (x * 16 + d) := by
        rw [UInt32.ofNat_add, UInt32.ofNat_mul]
        rfl
      simp only [hnext, ih]

/-- The number in front of a string. -/
theorem x2i_eq (s : List Char) : x2i s = UInt32.ofNat (readHex 0 s) := x2i_go 0 s

theorem x2iAddress_eq (s : List Char) : x2iAddress s = UInt16.ofNat (readHex 0 s) := by
  apply UInt16.toNat_inj.1
  rw [x2iAddress, x2i_eq, UInt32.toNat_toUInt16, UInt32.toNat_and, UInt32.toNat_ofNat', UInt16.toNat_ofNat',
    show (0xFFFF : UInt32).toNat = 2 ^ 16 - 1 from rfl, Nat.and_two_pow_sub_one_eq_mod, Nat.mod_mod]
  omega

theorem x2iByte_eq (s : List Char) : x2iByte s = UInt8.ofNat (readHex 0 s) := by
  apply UInt8.toNat_inj.1
  rw [x2iByte, x2i_eq, UInt32.toNat_toUInt8, UInt32.toNat_and, UInt32.toNat_ofNat', UInt8.toNat_ofNat',
    show (0xFF : UInt32).toNat = 2 ^ 8 - 1 from rfl, Nat.and_two_pow_sub_one_eq_mod, Nat.mod_mod]
  omega

/-- The address that a line of a dump begins with is read up to its colon. -/
theorem x2iAddress_hexDigits (a : UInt16) {rest : List Char} (hrest : ∀ c ∈ rest.head?, hexValue c = none) :
    x2iAddress (hexDigits 4 a.toNat ++ rest) = a := by
  rw [x2iAddress_eq, readHex_hexDigits a.toNat_lt hrest, UInt16.ofNat_toNat]

@[simp] theorem x2iByte_hex2 (b : UInt8) : x2iByte (Disassembler.hex2 b) = b := by
  have hread : readHex 0 (hexDigits 2 b.toNat ++ []) = b.toNat := readHex_hexDigits b.toNat_lt (by simp)
  rw [List.append_nil] at hread
  rw [x2iByte_eq, Disassembler.hex2, hread, UInt8.ofNat_toNat]

section Commands

variable {m : Machine}

theorem dumpBytes_spec (hm : m.Settled) (a : UInt16) (n : Nat) :
    (dumpBytes a n).result m = m.view.bytes a n ∧ ((dumpBytes a n).final m).view = m.view ∧
      ((dumpBytes a n).final m).Settled := by
  induction n generalizing m a with
  | zero => exact ⟨rfl, rfl, hm⟩
  | succ n ih =>
    obtain ⟨hres, hview, hsettled⟩ := snoopRead6502MemoryLoc_spec hm a
    obtain ⟨ihres, ihview, ihsettled⟩ := ih hsettled (a + 1)
    simp only [dumpBytes, Prog.result_bind, Prog.final_bind, Prog.result_pure, Prog.final_pure]
    refine ⟨?_, ihview.trans hview, ihsettled⟩
    rw [hres, ihres, hview]
    rfl

/-- A dump shows sixteen bytes a line, from address to address, and changes nothing. -/
theorem dumpLines_spec (hm : m.Settled) (a : UInt16) (n : Nat) :
    (dumpLines a n).result m =
        (List.range n).map (fun i =>
          dumpText (a + UInt16.ofNat (16 * i)) (m.view.bytes (a + UInt16.ofNat (16 * i)) 16)) ∧
      ((dumpLines a n).final m).view = m.view ∧ ((dumpLines a n).final m).Settled := by
  induction n generalizing m a with
  | zero => exact ⟨rfl, rfl, hm⟩
  | succ n ih =>
    obtain ⟨hres, hview, hsettled⟩ := dumpBytes_spec hm a 16
    obtain ⟨ihres, ihview, ihsettled⟩ := ih hsettled (a + 16)
    simp only [dumpLines, dump16, Prog.result_bind, Prog.final_bind, Prog.result_pure, Prog.final_pure]
    refine ⟨?_, ihview.trans hview, ihsettled⟩
    have hshift : ∀ i, a + 16 + UInt16.ofNat (16 * i) = a + UInt16.ofNat (16 * (i + 1)) := by
      intro i
      rw [Nat.mul_add_one, Nat.add_comm, UInt16.ofNat_add, UInt16.add_assoc]
      rfl
    rw [hres, ihres, hview, List.range_succ_eq_map, List.map_cons, List.map_map]
    simp only [Function.comp_def, Nat.succ_eq_add_one, hshift]
    simp

/-- Bytes that are entered are stored from address to address. -/
theorem enterBytes_spec (hm : m.Settled) (a : UInt16) (args : List (List Char)) :
    (enterBytes a args).result m = a + UInt16.ofNat args.length ∧
      ((enterBytes a args).final m).view = m.view.writes (blockWrites a (args.map x2iByte)) ∧
      ((enterBytes a args).final m).Settled := by
  induction args generalizing m a with
  | nil => exact ⟨by simp [enterBytes], rfl, hm⟩
  | cons arg args ih =>
    obtain ⟨hview, hsettled⟩ := snoopWrite6502Memory_spec hm a [x2iByte arg]
    obtain ⟨ihres, ihview, ihsettled⟩ := ih hsettled (a + 1)
    simp only [enterBytes, Prog.result_bind, Prog.final_bind]
    refine ⟨?_, ?_, ihsettled⟩
    · rw [ihres, List.length_cons, Nat.add_comm, UInt16.ofNat_add, UInt16.add_assoc]
      rfl
    · rw [ihview, hview]
      rfl

theorem cmdMem_spec (hm : m.Settled) (addressArg : List Char) {args : List (List Char)} (hargs : args ≠ []) :
    ((cmdMem (addressArg :: args)).final m).view =
        m.view.writes (blockWrites (x2iAddress addressArg) (args.map x2iByte)) ∧
      ((cmdMem (addressArg :: args)).final m).Settled := by
  obtain ⟨arg, args, rfl⟩ := List.exists_cons_of_ne_nil hargs
  obtain ⟨hres, hview, hsettled⟩ := enterBytes_spec hm (x2iAddress addressArg) (arg :: args)
  obtain ⟨-, hview', hsettled'⟩ := dumpLines_spec hsettled (x2iAddress addressArg)
    (dumpCount (x2iAddress addressArg) ((enterBytes (x2iAddress addressArg) (arg :: args)).result m - 1))
  simp only [cmdMem, dumpMemory, Prog.final_bind, Prog.final_pure]
  exact ⟨hview'.trans hview, hsettled'⟩

end Commands

/-! ## The range of a dump -/

theorem dumpEnd_ge (lFrom toAddress : UInt16) : lFrom.toNat ≤ (dumpEnd lFrom toAddress).toNat := by
  have hlt := lFrom.toNat_lt
  rw [dumpEnd]
  split
  · simp only [UInt16.reduceToNat]
    omega
  · rename_i h
    rw [UInt16.le_iff_toNat_le] at h
    omega

/-- Where the range does not end before it starts, it is counted in lines of sixteen bytes. -/
theorem dumpCount_eq {vStartAddress vEndAddress : UInt16} (h : vStartAddress.toNat ≤ vEndAddress.toNat) :
    dumpCount vStartAddress vEndAddress = (vEndAddress.toNat - vStartAddress.toNat) / 16 + 1 := by
  have hdiff : (vEndAddress.toNat : Int) - vStartAddress.toNat =
      ((vEndAddress.toNat - vStartAddress.toNat : Nat) : Int) := by
    omega
  rw [dumpCount, hdiff, Int.tdiv_eq_ediv_of_nonneg (by omega)]
  omega

/-- The lines of a dump. -/
def dumpOf (v : Machine.View) (lFrom toAddress : UInt16) : List (List Char) :=
  (List.range (dumpCount lFrom (dumpEnd lFrom toAddress))).map fun i =>
    dumpText (lFrom + UInt16.ofNat (16 * i)) (v.bytes (lFrom + UInt16.ofNat (16 * i)) 16)

theorem cmdDump_spec {m : Machine} (hm : m.Settled) (fromArg toArg : List Char) :
    (cmdDump fromArg toArg).result m = dumpOf m.view (x2iAddress fromArg) (x2iAddress toArg) ∧
      ((cmdDump fromArg toArg).final m).view = m.view ∧ ((cmdDump fromArg toArg).final m).Settled :=
  dumpLines_spec hm _ _

/-! ## Entering a dump -/

/-- What stands between the words of a line. -/
def isBlank (c : Char) : Bool := c = ' ' ∨ c = '\r' ∨ c = '\n'

theorem not_isBlank_of_mem_hexDigits {width n : Nat} {c : Char} (h : c ∈ hexDigits width n) : isBlank c = false := by
  rw [isBlank, decide_eq_false_iff_not]
  rintro (rfl | rfl | rfl) <;> exact not_mem_hexDigits (by decide) h

/-- A byte that is printed is a word of its own. -/
theorem tokens_hex2 (b : UInt8) {s : List Char} (hs : ∀ c ∈ s.head?, isBlank c = true) :
    tokens isBlank (' ' :: Disassembler.hex2 b ++ s) = Disassembler.hex2 b :: tokens isBlank s := by
  have hne : Disassembler.hex2 b ≠ [] := by
    intro h
    have hlen := congrArg List.length h
    rw [Disassembler.hex2, length_hexDigits] at hlen
    cases hlen
  rw [List.cons_append, tokens_cons_of_sep (by decide)]
  exact tokens_append hne (fun c hc => not_isBlank_of_mem_hexDigits hc) hs

theorem tokens_flatMap_hex2 (bytes : List UInt8) {s : List Char} (hs : ∀ c ∈ s.head?, isBlank c = true) :
    tokens isBlank (bytes.flatMap (fun dat => ' ' :: Disassembler.hex2 dat) ++ s) =
      bytes.map Disassembler.hex2 ++ tokens isBlank s := by
  induction bytes with
  | nil => rfl
  | cons b bytes ih =>
    have hhead : ∀ c ∈ (bytes.flatMap (fun dat => ' ' :: Disassembler.hex2 dat) ++ s).head?, isBlank c = true := by
      cases bytes with
      | nil => exact hs
      | cons b' bytes => exact fun c hc => by simpa [← (Option.mem_some_iff.1 hc)] using (by decide : isBlank ' ' = true)
    rw [List.flatMap_cons, List.append_assoc, tokens_hex2 b hhead, ih, List.map_cons, List.cons_append]

/-- The words of a line of a dump are its address and its bytes. -/
theorem tokens_dumpText (a : UInt16) (bytes : List UInt8) :
    tokens isBlank (dumpText a bytes) = (hexDigits 4 a.toNat ++ [':']) :: bytes.map Disassembler.hex2 := by
  have hword : ∀ c ∈ hexDigits 4 a.toNat ++ [':'], isBlank c = false := by
    intro c hc
    rcases List.mem_append.1 hc with hc | hc
    · exact not_isBlank_of_mem_hexDigits hc
    · rw [List.mem_singleton.1 hc]
      decide
  have hprint : tokens isBlank Disassembler.println = [] := by
    rw [Disassembler.println, tokens_cons_of_sep (by decide), tokens_cons_of_sep (by decide), tokens_nil]
  have hhead : ∀ c ∈ (Disassembler.println).head?, isBlank c = true := fun c hc => by
    cases hc
    decide
  have hsecond := tokens_flatMap_hex2 (bytes.drop 8) hhead
  have hfirst := tokens_flatMap_hex2 (bytes.take 8)
    (s := [' '] ++ ((bytes.drop 8).flatMap (fun dat => ' ' :: Disassembler.hex2 dat) ++ Disassembler.println))
    (by simp [isBlank])
  rw [List.singleton_append, tokens_cons_of_sep (by decide), hsecond, hprint, List.append_nil, ← List.map_append,
    List.take_append_drop] at hfirst
  have hne : hexDigits 4 a.toNat ++ [':'] ≠ [] := by simp
  have hrest : ∀ c ∈ ((bytes.take 8).flatMap (fun dat => ' ' :: Disassembler.hex2 dat) ++
      ' ' :: ((bytes.drop 8).flatMap (fun dat => ' ' :: Disassembler.hex2 dat) ++ Disassembler.println)).head?,
      isBlank c = true := by
    cases bytes <;> simp [isBlank]
  rw [← hfirst, ← tokens_append hne hword hrest]
  simp only [dumpText, List.append_assoc, List.cons_append, List.nil_append]

/-- The commands that enter the first bytes of each line. -/
def enterLines (k : Nat) (lines : List (List Char)) : Prog Machine Unit :=
  lines.forM fun text => do
    discard <| cmdMem ((tokens isBlank text).take (k + 1))

/-- What these commands store. -/
def shownWrites (v : Machine.View) (lFrom : UInt16) (k n : Nat) : List (UInt16 × UInt8) :=
  (List.range n).flatMap fun i =>
    blockWrites (lFrom + UInt16.ofNat (16 * i)) (v.bytes (lFrom + UInt16.ofNat (16 * i)) k)

theorem cmdMem_dumpText {m m' : Machine} (hm' : m'.Settled) (a : UInt16) {k : Nat} (hk : 1 ≤ k) (hk' : k ≤ 16) :
    let p := cmdMem ((tokens isBlank (dumpText a (m.view.bytes a 16))).take (k + 1))
    (p.final m').view = m'.view.writes (blockWrites a (m.view.bytes a k)) ∧ (p.final m').Settled := by
  have hargs : (m.view.bytes a k).map Disassembler.hex2 ≠ [] := by
    intro h
    have hlen := congrArg List.length h
    rw [List.length_map, Machine.View.length_bytes, List.length_nil] at hlen
    omega
  have hspec := cmdMem_spec hm' (hexDigits 4 a.toNat ++ [':']) hargs
  have hbytes : ((m.view.bytes a k).map Disassembler.hex2).map x2iByte = m.view.bytes a k := by
    simp [Function.comp_def]
  have hcolon : ∀ c ∈ [':'].head?, hexValue c = none := by
    simp only [List.head?_cons, Option.mem_some_iff, forall_eq']
    decide
  rw [x2iAddress_hexDigits a hcolon, hbytes] at hspec
  simp only [tokens_dumpText, List.take_succ_cons, ← List.map_take, m.view.take_bytes a hk']
  exact hspec

theorem enterLines_spec {m m' : Machine} (hm' : m'.Settled) (lFrom : UInt16) {k : Nat} (hk : 1 ≤ k) (hk' : k ≤ 16)
    (is : List Nat) :
    let lines := is.map fun i =>
      dumpText (lFrom + UInt16.ofNat (16 * i)) (m.view.bytes (lFrom + UInt16.ofNat (16 * i)) 16)
    ((enterLines k lines).final m').view = m'.view.writes (is.flatMap fun i =>
        blockWrites (lFrom + UInt16.ofNat (16 * i)) (m.view.bytes (lFrom + UInt16.ofNat (16 * i)) k)) ∧
      ((enterLines k lines).final m').Settled := by
  induction is generalizing m' with
  | nil => exact ⟨rfl, hm'⟩
  | cons i is ih =>
    obtain ⟨hview, hsettled⟩ := cmdMem_dumpText (m := m) hm' (lFrom + UInt16.ofNat (16 * i)) hk hk'
    obtain ⟨ihview, ihsettled⟩ := ih hsettled
    rw [hview, ← Machine.View.writes_append] at ihview
    exact ⟨ihview, ihsettled⟩

/-- A block that is read somewhere is written address by address. -/
theorem blockWrites_bytes (v : Machine.View) (a : UInt16) (k : Nat) :
    blockWrites a (v.bytes a k) = (List.range k).map fun j => (a + UInt16.ofNat j, v.peek (a + UInt16.ofNat j)) := by
  induction k generalizing a with
  | zero => rfl
  | succ k ih =>
    have hshift : ∀ j, a + 1 + UInt16.ofNat j = a + UInt16.ofNat (j + 1) := by
      intro j
      rw [Nat.add_comm, UInt16.ofNat_add, UInt16.add_assoc]
      rfl
    rw [Machine.View.bytes, blockWrites, ih, List.range_succ_eq_map, List.map_cons, List.map_map]
    simp only [Function.comp_def, Nat.succ_eq_add_one, hshift]
    simp

/-- Writes that copy a memory leave it at the addresses that they write. -/
theorem peek_writes_of_agree {v : Machine.View} (hv : Function.Injective v.physAddr) {f : UInt16 → UInt8}
    {ws : List (UInt16 × UInt8)} (hws : ∀ w ∈ ws, w.2 = f w.1) (x : UInt16) :
    (v.writes ws).peek x = if x ∈ ws.map Prod.fst then f x else v.peek x := by
  induction ws generalizing v with
  | nil => simp
  | cons w ws ih =>
    rw [List.forall_mem_cons] at hws
    rw [Machine.View.writes_cons, ih (v := v.poke w.1 w.2) hv hws.2, List.map_cons]
    by_cases hrest : x ∈ ws.map Prod.fst
    · rw [if_pos hrest, if_pos (List.mem_cons_of_mem _ hrest)]
    · rw [if_neg hrest]
      by_cases hx : x = w.1
      · subst hx
        rw [if_pos List.mem_cons_self, ← hws.1]
        exact Function.update_self _ _ _
      · rw [if_neg (by simpa [hx] using hrest)]
        exact Function.update_of_ne (fun h => hx (hv h)) _ _

/-- The addresses that are written lie in the first columns of the lines. -/
theorem mem_shownWrites {v : Machine.View} {lFrom x : UInt16} {k n : Nat} (hk' : k ≤ 16) (hn : 16 * n ≤ 65536) :
    x ∈ (shownWrites v lFrom k n).map Prod.fst ↔ (x - lFrom).toNat < 16 * n ∧ (x - lFrom).toNat % 16 < k := by
  have hmem : x ∈ (shownWrites v lFrom k n).map Prod.fst ↔
      ∃ i < n, ∃ j < k, x = lFrom + UInt16.ofNat (16 * i + j) := by
    simp only [shownWrites, List.map_flatMap, List.mem_flatMap, List.mem_range, blockWrites_bytes, List.map_map,
      List.mem_map, Function.comp_def, UInt16.add_assoc, ← UInt16.ofNat_add, eq_comm]
  have hx := (x - lFrom).toNat_lt
  rw [hmem]
  constructor
  · rintro ⟨i, hi, j, hj, rfl⟩
    have hoffset : (lFrom + UInt16.ofNat (16 * i + j) - lFrom).toNat = 16 * i + j := by
      rw [UInt16.add_comm, UInt16.add_sub_cancel, UInt16.toNat_ofNat']
      omega
    rw [hoffset]
    omega
  · rintro ⟨hline, hcolumn⟩
    refine ⟨(x - lFrom).toNat / 16, by omega, (x - lFrom).toNat % 16, hcolumn, ?_⟩
    rw [Nat.div_add_mod, UInt16.ofNat_toNat, UInt16.add_comm, UInt16.sub_add_cancel]

theorem shownWrites_agree (v : Machine.View) (lFrom : UInt16) (k n : Nat) :
    ∀ w ∈ shownWrites v lFrom k n, w.2 = v.peek w.1 := by
  intro w hw
  obtain ⟨i, -, hw⟩ := List.mem_flatMap.1 hw
  rw [blockWrites_bytes] at hw
  obtain ⟨j, -, rfl⟩ := List.mem_map.1 hw
  rfl

/-- A dump shows every address of its range. Where each address has a cell of its own, entering the first words of
every line, on this board or another, makes the memory of the first columns what the dump shows, and changes no
other address. -/
theorem dump_restores {m m' : Machine} (hm : m.Settled) (hm' : m'.Settled)
    (hcells : Function.Injective m'.view.physAddr) (fromArg toArg : List Char) {k : Nat} (hk : 1 ≤ k) (hk' : k ≤ 16) :
    let lFrom := x2iAddress fromArg
    let lines := (cmdDump fromArg toArg).result m
    let entered := (enterLines k lines).final m'
    (∀ a, lFrom ≤ a → a ≤ dumpEnd lFrom (x2iAddress toArg) → (a - lFrom).toNat < 16 * lines.length) ∧
      ∀ a, entered.view.peek a =
        if (a - lFrom).toNat < 16 * lines.length ∧ (a - lFrom).toNat % 16 < k then m.view.peek a
        else m'.view.peek a := by
  intro lFrom lines entered
  have hlines : lines = dumpOf m.view lFrom (x2iAddress toArg) := (cmdDump_spec hm fromArg toArg).1
  have hge := dumpEnd_ge lFrom (x2iAddress toArg)
  have hcount := dumpCount_eq hge
  have hlen : lines.length = dumpCount lFrom (dumpEnd lFrom (x2iAddress toArg)) := by
    rw [hlines, dumpOf, List.length_map, List.length_range]
  have hend := (dumpEnd lFrom (x2iAddress toArg)).toNat_lt
  refine ⟨fun a hfrom hto => ?_, fun a => ?_⟩
  · rw [UInt16.le_iff_toNat_le] at hfrom hto
    rw [hlen, hcount, UInt16.toNat_sub_of_le _ _ hfrom]
    omega
  · have hentered : entered.view = m'.view.writes (shownWrites m.view lFrom k lines.length) := by
      show ((enterLines k lines).final m').view = _
      rw [hlen, hlines]
      exact (enterLines_spec hm' lFrom hk hk' _).1
    have hfits : 16 * lines.length ≤ 65536 := by
      rw [hlen, hcount]
      omega
    rw [hentered, peek_writes_of_agree hcells (shownWrites_agree m.view lFrom k lines.length) a]
    exact if_congr (mem_shownWrites hk' hfits) rfl rfl

/-- Eleven words are as many as a typed line has room for behind an address. -/
theorem dump_restores_line :
    ((enterLines 11 ((cmdDump ['2', '0', '0'] []).result (.running fun _ => 0xEA))).final
      (.running fun _ => 0)).view.peek 0x020A = 0xEA :=
  ((dump_restores (Machine.settled_running fun _ => 0xEA) (Machine.settled_running fun _ => 0)
    (Machine.View.physAddr_injective (by decide +kernel)) ['2', '0', '0'] [] (by decide)
    (by decide)).2 0x020A).trans (by decide +kernel)

end NeoMmu
