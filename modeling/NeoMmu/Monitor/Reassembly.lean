import NeoMmu.Monitor.Listing

/-!
# Reading a listing

An assembler can read a listing back: the operand shows the addressing mode among those that share a name, the name
and the mode are those of one opcode, and a number or a label stands for one byte, word or target, where the vectors
are known that `NMI`, `RESET` and `IRQ` stand for. So the names and the operands of a listing determine the memory it
shows, where it has no undefined opcode and no `NOP`, which stands for two.
-/

namespace NeoMmu.Disassembler

variable {labels labels' : List Label}

/-! ## Numbers and addresses -/

/-- The two digits of a byte. -/
theorem exists_hex2 (b : UInt8) : ∃ x y, hex2 b = [x, y] ∧ x ≠ ',' ∧ y ≠ ',' := by
  have hlength : (hex2 b).length = 2 := length_hexDigits 2 _
  obtain ⟨x, y, hxy⟩ := List.length_eq_two.1 hlength
  have hcomma : ',' ∉ hex2 b := not_mem_hexDigits (by decide)
  rw [hxy] at hcomma
  simp only [List.mem_cons, not_or, List.not_mem_nil, not_false_eq_true, and_true] at hcomma
  exact ⟨x, y, hxy, Ne.symm hcomma.1, Ne.symm hcomma.2⟩

theorem hex2_inj {b b' : UInt8} (h : hex2 b = hex2 b') : b = b' :=
  UInt8.toNat_inj.1 (hexDigits_inj (Nat.lt_of_lt_of_le b.toNat_lt (by decide))
    (Nat.lt_of_lt_of_le b'.toNat_lt (by decide)) h)

theorem toNat_word (lo hi : UInt8) : (word lo hi).toNat = hi.toNat * 256 + lo.toNat := by
  have hlo := lo.toNat_lt
  have hhi := hi.toNat_lt
  have hshift : hi.toNat <<< 8 < 65536 := by
    rw [Nat.shiftLeft_eq]
    omega
  rw [word, UInt16.toNat_or, UInt16.toNat_shiftLeft, UInt8.toNat_toUInt16, UInt8.toNat_toUInt16]
  simp only [UInt16.reduceToNat, Nat.reduceMod, Nat.reducePow]
  rw [Nat.mod_eq_of_lt hshift, ← Nat.shiftLeft_add_eq_or_of_lt hlo, Nat.shiftLeft_eq]

theorem word_inj {lo hi lo' hi' : UInt8} (h : word lo hi = word lo' hi') : lo = lo' ∧ hi = hi' := by
  have hnat := congrArg UInt16.toNat h
  rw [toNat_word, toNat_word] at hnat
  have hlo := lo.toNat_lt
  have hlo' := lo'.toNat_lt
  exact ⟨UInt8.toNat_inj.1 (by omega), UInt8.toNat_inj.1 (by omega)⟩

/-- An offset is extended by its sign. -/
theorem toNat_signed (b : UInt8) : (signed b).toNat = if b.toNat < 128 then b.toNat else b.toNat + 65280 := by
  have hb := b.toNat_lt
  have hlt : b < 0x80 ↔ b.toNat < 128 := UInt8.lt_iff_toNat_lt
  rw [signed]
  simp only [hlt]
  split
  · exact UInt8.toNat_toUInt16 b
  · rw [UInt16.toNat_add, UInt8.toNat_toUInt16]
    simp only [UInt16.reduceToNat]
    omega

theorem signed_inj {b b' : UInt8} (h : signed b = signed b') : b = b' := by
  have hnat := congrArg UInt16.toNat h
  have hb := b.toNat_lt
  have hb' := b'.toNat_lt
  rw [toNat_signed, toNat_signed] at hnat
  apply UInt8.toNat_inj.1
  split at hnat <;> split at hnat <;> omega

/-- The first letter of a label is that of its name. -/
theorem Proper.head (h : Proper labels) {t : UInt16} {name : List Char} (hname : findLabel labels t = some name) :
    ∃ c rest, name = c :: rest ∧ c ∈ ['N', 'R', 'I', 'L'] ∧ rest ≠ [] := by
  obtain ⟨l, hl, -, rfl⟩ := exists_of_findLabel hname
  rcases h.made l hl with ⟨-, hvector⟩ | ⟨-, hmade⟩
  · simp only [vectorNames, List.mem_cons, List.not_mem_nil, or_false] at hvector
    rcases hvector with hname | hname | hname
    · exact ⟨'N', ['M', 'I'], hname, by decide, by decide⟩
    · exact ⟨'R', ['E', 'S', 'E', 'T'], hname, by decide, by decide⟩
    · exact ⟨'I', ['R', 'Q'], hname, by decide, by decide⟩
  · refine ⟨'L', hexDigits 4 l.addr.toNat, hmade, by decide, fun hnone => ?_⟩
    have hlength := length_hexDigits 4 l.addr.toNat
    rw [hnone] at hlength
    cases hlength

/-- Two tables of labels in which a name stands for the same address. -/
structure Alike (labels labels' : List Label) : Prop where
  left : Proper labels
  right : Proper labels'
  addr_eq : ∀ l ∈ labels, ∀ l' ∈ labels', l.name = l'.name → l.addr = l'.addr

/-- A label is no number. -/
theorem Proper.ne_number (h : Proper labels) {s s' : UInt16} {name : List Char}
    (hname : findLabel labels s = some name) : name ≠ '$' :: hexDigits 4 s'.toNat := by
  rintro rfl
  obtain ⟨c, rest, hcons, hletter, -⟩ := h.head hname
  rw [← (List.cons.inj hcons).1] at hletter
  exact absurd hletter (by decide)

/-- A reference stands for one address. -/
theorem Alike.addressText_inj (h : Alike labels labels') {t t' : UInt16}
    (heq : addressText labels t = addressText labels' t') : t = t' := by
  unfold addressText at heq
  rcases hlabel : findLabel labels t with - | name <;> rcases hlabel' : findLabel labels' t' with - | name' <;>
    rw [hlabel, hlabel'] at heq
  · have hdigits := List.cons_injective heq
    exact UInt16.toNat_inj.1 (hexDigits_inj (Nat.lt_of_lt_of_le t.toNat_lt (by decide))
      (Nat.lt_of_lt_of_le t'.toNat_lt (by decide)) hdigits)
  · exact absurd heq.symm (h.right.ne_number hlabel')
  · exact absurd heq (h.left.ne_number hlabel)
  · obtain ⟨l, hl, rfl, rfl⟩ := exists_of_findLabel hlabel
    obtain ⟨l', hl', rfl, rfl⟩ := exists_of_findLabel hlabel'
    exact h.addr_eq l hl l' hl' heq

/-! ## Addressing modes -/

/-- The addressing mode that an operand shows, where it is no branch. -/
def readMode (text : List Char) : AddrMode :=
  if text = [] then .IMP
  else if text = ['A'] then .ACC
  else if text.head? = some '#' then .IMM
  else if text.head? = some '(' then
    if ',' ∈ text then
      if text.getLast? = some 'Y' then .INDY else if text.length = 7 then .INDX else .ABXI
    else if text.length = 5 then .ZPIND else .IND
  else if text.head? = some '$' ∧ ',' ∈ text then
    if text.getLast? = some 'X' then (if text.length = 5 then .ZPX else .ABSX)
    else if text.length = 5 then .ZPY else .ABSY
  else if text.head? = some '$' ∧ text.length = 3 then .ZP
  else .ABS

/-- The reference of an instruction with a two-byte address is read as one. -/
theorem Proper.readMode_addressText (h : Proper labels) (t : UInt16) : readMode (addressText labels t) = .ABS := by
  unfold addressText
  rcases hlabel : findLabel labels t with - | name
  · have hcomma : ',' ∉ hexDigits 4 t.toNat := not_mem_hexDigits (by decide)
    simp [readMode, hcomma]
  · obtain ⟨c, rest, rfl, hletter, hrest⟩ := h.head hlabel
    have hc : c ≠ '#' ∧ c ≠ '(' ∧ c ≠ '$' := by
      refine ⟨?_, ?_, ?_⟩ <;> rintro rfl <;> exact absurd hletter (by decide)
    simp [readMode, hc, hrest]

/-- The operand shows the mode. -/
theorem Proper.readMode_operand (h : Proper labels) (op : Opcode) (hmode : op.mode ≠ .REL ∧ op.mode ≠ .ZPREL)
    (a : UInt16) (b1 b2 : UInt8) : readMode (op.operand labels a b1 b2) = op.mode := by
  obtain ⟨x, y, hb1, hx, hy⟩ := exists_hex2 b1
  obtain ⟨z, w, hb2, hz, hw⟩ := exists_hex2 b2
  obtain ⟨name, mode, len⟩ := op
  cases mode with
  | REL => exact absurd rfl hmode.1
  | ZPREL => exact absurd rfl hmode.2
  | ABS => exact h.readMode_addressText _
  | _ => simp [Opcode.operand, readMode, hb1, hb2, hx.symm, hy.symm, hz.symm, hw.symm]

/-- A branch goes to another address with every offset. -/
theorem offset_inj {a : UInt16} {n : UInt16} {b b' : UInt8} (h : a + n + signed b = a + n + signed b') : b = b' :=
  signed_inj ((UInt16.add_right_inj _).1 h)

/-- The operands of one opcode differ where the bytes behind it do. -/
theorem Alike.operand_inj (h : Alike labels labels') {op : Opcode} {a : UInt16} {b1 b2 b1' b2' : UInt8}
    (heq : op.operand labels a b1 b2 = op.operand labels' a b1' b2') :
    (op.mode ≠ .IMP → op.mode ≠ .ACC → b1 = b1') ∧
      (op.mode ∈ [.ABS, .ABSX, .ABSY, .IND, .ABXI, .ZPREL] → b2 = b2') := by
  obtain ⟨x, y, hb1, -, -⟩ := exists_hex2 b1
  obtain ⟨z, w, hb2, -, -⟩ := exists_hex2 b2
  obtain ⟨x', y', hb1', -, -⟩ := exists_hex2 b1'
  obtain ⟨z', w', hb2', -, -⟩ := exists_hex2 b2'
  have hone : x = x' ∧ y = y' → b1 = b1' := fun ⟨hx, hy⟩ => hex2_inj (by rw [hb1, hb1', hx, hy])
  have htwo : z = z' ∧ w = w' → b2 = b2' := fun ⟨hz, hw⟩ => hex2_inj (by rw [hb2, hb2', hz, hw])
  obtain ⟨name, mode, len⟩ := op
  cases mode with
  | IMP | ACC => simp
  | IMM | ZP | ZPX | ZPY | INDX | INDY | ZPIND =>
    simp only [Opcode.operand, hb1, hb1', List.cons_append, List.nil_append, List.cons.injEq, and_true, true_and] at heq
    exact ⟨fun _ _ => hone heq, by simp⟩
  | ABSX | ABSY | IND | ABXI =>
    simp only [Opcode.operand, hb1, hb1', hb2, hb2', List.cons_append, List.nil_append, List.cons.injEq, and_true,
      true_and] at heq
    obtain ⟨hz, hw, hx, hy⟩ := heq
    exact ⟨fun _ _ => hone ⟨hx, hy⟩, fun _ => htwo ⟨hz, hw⟩⟩
  | ABS =>
    obtain ⟨hlo, hhi⟩ := word_inj (h.addressText_inj heq)
    exact ⟨fun _ _ => hlo, fun _ => hhi⟩
  | REL => exact ⟨fun _ _ => offset_inj (h.addressText_inj heq), by simp⟩
  | ZPREL =>
    simp only [Opcode.operand, hb1, hb1', List.cons_append, List.nil_append, List.cons.injEq, true_and] at heq
    obtain ⟨hx, hy, htarget⟩ := heq
    exact ⟨fun _ _ => hone ⟨hx, hy⟩, fun _ => offset_inj (h.addressText_inj htarget)⟩

/-! ## Opcodes -/

/-- A branch. -/
def AddrMode.isBranch (mode : AddrMode) : Bool := mode == .REL || mode == .ZPREL

/-- The names that stand for more than one opcode. -/
def sharedNames : List String := ["???", "NOP"]

/-- Entries of one mode have different names. -/
theorem names_of_mode (mode : AddrMode) :
    optable.Pairwise fun op op' =>
      op.mode = mode → op'.mode = mode → op.name = op'.name → op.name ∈ sharedNames := by
  have hfilter : (optable.filter (·.mode = mode)).Pairwise
      fun op op' => op.name = op'.name → op.name ∈ sharedNames := by
    cases mode <;> decide +kernel
  simpa only [List.pairwise_filter, decide_eq_true_eq] using hfilter

/-- The mode of a branch, from its name. -/
def branchMode (name : String) : Option AddrMode :=
  if name.toList.head? = some 'B' ∧ name ∉ ["BRK", "BIT"] then
    if name.length = 3 then some .REL else some .ZPREL
  else none

/-- A branch is known by its name. -/
theorem branchMode_name : ∀ op ∈ optable, branchMode op.name = if op.mode.isBranch then some op.mode else none := by
  decide +kernel

theorem toNat_lt_length_optable (b : UInt8) : b.toNat < optable.length := by
  have hlength : optable.length = 256 := by decide +kernel
  rw [hlength]
  exact b.toNat_lt

theorem opcode_eq_getElem {b : UInt8} (hb : b.toNat < optable.length) : opcode b = optable[b.toNat] :=
  (List.getD_eq_getElem?_getD ..).trans (by rw [List.getElem?_eq_getElem hb, Option.getD_some])

theorem opcode_mem (b : UInt8) : opcode b ∈ optable := by
  rw [opcode_eq_getElem (toNat_lt_length_optable b)]
  exact List.getElem_mem _

/-- The name and the mode are those of one opcode. -/
theorem opcode_inj {b b' : UInt8} (hname : (opcode b).name = (opcode b').name)
    (hmode : (opcode b).mode = (opcode b').mode) (hown : (opcode b).name ∉ sharedNames) : b = b' := by
  have hb := toNat_lt_length_optable b
  have hb' := toNat_lt_length_optable b'
  rw [opcode_eq_getElem hb, opcode_eq_getElem hb'] at hname hmode
  rw [opcode_eq_getElem hb] at hown
  have hpairs := List.pairwise_iff_getElem.1 (names_of_mode optable[b.toNat].mode)
  by_contra hne
  rcases Nat.lt_or_gt_of_ne fun h => hne (UInt8.toNat_inj.1 h) with hlt | hlt
  · exact hown (hpairs _ _ _ _ hlt rfl hmode.symm hname)
  · exact hown (hname ▸ hpairs _ _ _ _ hlt hmode.symm rfl hname.symm)

/-- A name of a branch is that of no other mode. -/
theorem mode_eq_of_branch {b b' : UInt8} (hname : (opcode b).name = (opcode b').name)
    (hbranch : (opcode b).mode.isBranch = true) : (opcode b).mode = (opcode b').mode := by
  have h := branchMode_name _ (opcode_mem b)
  have h' := branchMode_name _ (opcode_mem b')
  rw [if_pos hbranch, hname, h'] at h
  split at h
  · exact (Option.some.inj h).symm
  · cases h

theorem not_isBranch {mode : AddrMode} (h : ¬ mode.isBranch = true) : mode ≠ .REL ∧ mode ≠ .ZPREL := by
  refine ⟨?_, ?_⟩ <;> rintro rfl <;> exact h rfl

/-- The name and the operand are those of one opcode. -/
theorem Alike.opcode_eq (h : Alike labels labels') {a : UInt16} {b b1 b2 b' b1' b2' : UInt8}
    (hname : (opcode b).name = (opcode b').name)
    (hoperand : (opcode b).operand labels a b1 b2 = (opcode b').operand labels' a b1' b2')
    (hown : (opcode b).name ∉ sharedNames) : b = b' := by
  refine opcode_inj hname ?_ hown
  -- A branch is known by its name; the mode of any other opcode is read off the operand.
  by_cases hbranch : (opcode b).mode.isBranch = true
  · exact mode_eq_of_branch hname hbranch
  by_cases hbranch' : (opcode b').mode.isBranch = true
  · exact (mode_eq_of_branch hname.symm hbranch').symm
  · rw [← h.left.readMode_operand (opcode b) (not_isBranch hbranch) a b1 b2, hoperand,
      h.right.readMode_operand (opcode b') (not_isBranch hbranch')]

/-! ## Lines and listings -/

/-- The bytes that the operand of a mode shows. -/
theorem len_of_mode : ∀ op ∈ optable, op.len.toNat =
    if op.mode = .IMP ∨ op.mode = .ACC then 1
    else if op.mode ∈ [.ABS, .ABSX, .ABSY, .IND, .ABXI, .ZPREL] then 3 else 2 := by
  decide +kernel

/-- Two memories hold the same instruction at an address. -/
structure SameAt (v v' : Machine.View) (a : UInt16) : Prop where
  zero : v.peek a = v'.peek a
  one : (opcode (v.peek a)).mode ≠ .IMP → (opcode (v.peek a)).mode ≠ .ACC → v.peek (a + 1) = v'.peek (a + 1)
  two : (opcode (v.peek a)).mode ∈ [.ABS, .ABSX, .ABSY, .IND, .ABXI, .ZPREL] →
    v.peek (a + 1 + 1) = v'.peek (a + 1 + 1)

section Listings

variable {v v' : Machine.View} {a : UInt16}

theorem SameAt.next (h : SameAt v v' a) : next v a = next v' a := by
  rw [Disassembler.next, Disassembler.next, h.zero]

/-- The bytes of the instruction are the same. -/
theorem SameAt.bytes (h : SameAt v v' a) :
    (line labels a (v.bytes a 3)).bytes = (line labels' a (v'.bytes a 3)).bytes := by
  have hop := h.zero
  have hlen := len_of_mode _ (opcode_mem (v.peek a))
  rw [bytes_line, bytes_line, ← hop, hlen]
  split
  · simp only [Machine.View.bytes, hop]
  · rename_i hmode
    rw [not_or] at hmode
    have hone := h.one hmode.1 hmode.2
    split
    · rename_i hlong
      simp only [Machine.View.bytes, hop, hone, h.two hlong]
    · simp only [Machine.View.bytes, hop, hone]

/-- The target of the instruction is the same. -/
theorem SameAt.targetAt (h : SameAt v v' a) : targetAt v a = targetAt v' a := by
  have htwo : a + 1 + 1 = a + 2 := UInt16.add_assoc a 1 1
  have hone := h.one
  have htwo' := h.two
  rw [htwo] at htwo'
  rw [Disassembler.targetAt, Disassembler.targetAt, ← h.zero]
  generalize opcode (v.peek a) = op at hone htwo'
  obtain ⟨name, mode, len⟩ := op
  cases mode with
  | REL => simp only [Opcode.target, hone (by simp) (by simp)]
  | ZPREL | ABS | ABXI => simp only [Opcode.target, hone (by simp) (by simp), htwo' (by simp)]
  | _ => rfl

/-- The name and the operand of a line determine its instruction. -/
theorem Alike.sameAt (h : Alike labels labels')
    (hname : (line labels a (v.bytes a 3)).name = (line labels' a (v'.bytes a 3)).name)
    (hoperand : (line labels a (v.bytes a 3)).operand = (line labels' a (v'.bytes a 3)).operand)
    (hown : (line labels a (v.bytes a 3)).name ∉ sharedNames) : SameAt v v' a := by
  have hop : v.peek a = v'.peek a := h.opcode_eq hname hoperand hown
  have heq : (opcode (v.peek a)).operand labels a (v.peek (a + 1)) (v.peek (a + 1 + 1)) =
      (opcode (v.peek a)).operand labels' a (v'.peek (a + 1)) (v'.peek (a + 1 + 1)) := by
    have hright : (line labels' a (v'.bytes a 3)).operand =
        (opcode (v'.peek a)).operand labels' a (v'.peek (a + 1)) (v'.peek (a + 1 + 1)) := rfl
    rw [hright, ← hop] at hoperand
    exact hoperand
  obtain ⟨hone, htwo⟩ := h.operand_inj heq
  exact ⟨hop, hone, htwo⟩

/-- What an assembler reads of a line. -/
def Line.code (l : Line) : String × List Char := (l.name, l.operand)

/-- Two listings with the same names and operands are of the same instructions. -/
theorem Alike.sameAt_addresses (h : Alike labels labels') (n : Nat) (a : UInt16)
    (hcode : (listing v labels a n).map Line.code = (listing v' labels' a n).map Line.code)
    (hown : ∀ l ∈ listing v labels a n, l.name ∉ sharedNames) :
    addresses v a n = addresses v' a n ∧ ∀ x ∈ addresses v a n, SameAt v v' x := by
  -- By the lines: each one fixes its instruction, and so where the next one stands.
  induction n generalizing a with
  | zero => exact ⟨rfl, fun _ hx => absurd hx List.not_mem_nil⟩
  | succ n ih =>
    have hlist : ∀ (v : Machine.View) (labels : List Label), listing v labels a (n + 1) =
        line labels a (v.bytes a 3) :: listing v labels (next v a) n := fun _ _ => rfl
    rw [hlist, hlist, List.map_cons, List.map_cons] at hcode
    rw [hlist, List.forall_mem_cons] at hown
    obtain ⟨hfirst, hrest⟩ := List.cons.inj hcode
    obtain ⟨hname, hoperand⟩ := Prod.mk.inj hfirst
    have hsame := h.sameAt hname hoperand hown.1
    rw [← hsame.next] at hrest
    obtain ⟨ihaddresses, ihsame⟩ := ih (next v a) hrest hown.2
    refine ⟨?_, List.forall_mem_cons.2 ⟨hsame, ihsame⟩⟩
    show a :: addresses v (next v a) n = a :: addresses v' (next v' a) n
    rw [ihaddresses, hsame.next]

/-- The first pass finds the same labels behind the same instructions. -/
theorem listingLabels_congr (hvectors : vectorLabels v = vectorLabels v') {n : Nat}
    (haddresses : addresses v a n = addresses v' a n) (hsame : ∀ x ∈ addresses v a n, SameAt v v' x) :
    listingLabels v a n = listingLabels v' a n := by
  rw [listingLabels, listingLabels, ← haddresses, hvectors]
  refine List.foldl_ext _ _ _ fun labels x hx => ?_
  rw [scanned_bytes, scanned_bytes, (hsame x hx).targetAt]

/-- The second pass prints the same lines of the same instructions. -/
theorem listing_congr {n : Nat} (haddresses : addresses v a n = addresses v' a n)
    (hsame : ∀ x ∈ addresses v a n, SameAt v v' x)
    (hcode : (listing v labels a n).map Line.code = (listing v' labels a n).map Line.code) :
    listing v labels a n = listing v' labels a n := by
  unfold listing at hcode ⊢
  rw [← haddresses] at hcode ⊢
  rw [List.map_map, List.map_map] at hcode
  refine List.map_congr_left fun x hx => ?_
  obtain ⟨hname, hoperand⟩ := Prod.mk.inj (List.map_inj_left.1 hcode x hx)
  have hbytes : (line labels x (v.bytes x 3)).bytes = (line labels x (v'.bytes x 3)).bytes := (hsame x hx).bytes
  simp only [line, Line.mk.injEq, true_and]
  exact ⟨hbytes, hname, hoperand⟩

/-- The labels of two listings are alike where the vectors are the same. -/
theorem alike_listingLabels (hvectors : vectorLabels v = vectorLabels v') (a : UInt16) (n : Nat) :
    Alike (listingLabels v a n) (listingLabels v' a n) := by
  have h := labelled_listingLabels v a n
  have h' := labelled_listingLabels v' a n
  refine ⟨h.proper, h'.proper, fun l hl l' hl' hname => ?_⟩
  -- The name of a vector is never that of an address.
  rcases h.proper.made l hl with ⟨hfixed, hvector⟩ | ⟨-, hmade⟩ <;>
    rcases h'.proper.made l' hl' with ⟨hfixed', hvector'⟩ | ⟨-, hmade'⟩
  · have hseeded : l ∈ vectorLabels v' := hvectors ▸ (h.asked l hl).resolve_right fun hnew => by simp [hfixed] at hnew
    have hseeded' : l' ∈ vectorLabels v' := (h'.asked l' hl').resolve_right fun hnew => by simp [hfixed'] at hnew
    rw [List.inj_on_of_nodup_map (proper_vectorLabels v').names hseeded hseeded' hname]
  · rw [hname, hmade'] at hvector
    exact absurd hvector (labelName_not_mem_vectorNames _)
  · rw [← hname, hmade] at hvector'
    exact absurd hvector' (labelName_not_mem_vectorNames _)
  · exact labelName_inj (hmade.symm.trans (hname.trans hmade'))

end Listings

/-- The labels of the vectors are those of six bytes. -/
theorem vectorLabels_eq_of_bytes {v v' : Machine.View} (h : v.bytes 0xFFFA 6 = v'.bytes 0xFFFA 6) :
    vectorLabels v = vectorLabels v' := by
  obtain ⟨h0, h1, h2, h3, h4, h5⟩ : v.peek 0xFFFA = v'.peek 0xFFFA ∧ v.peek 0xFFFB = v'.peek 0xFFFB ∧
      v.peek 0xFFFC = v'.peek 0xFFFC ∧ v.peek 0xFFFD = v'.peek 0xFFFD ∧ v.peek 0xFFFE = v'.peek 0xFFFE ∧
      v.peek 0xFFFF = v'.peek 0xFFFF := by
    simpa only [Machine.View.bytes, UInt16.reduceAdd, List.cons.injEq, and_true] using h
  rw [vectorLabels, vectorLabels, h0, h1, h2, h3, h4, h5]

/-- Where two listings of memories with the same vectors have the same names and operands, and no name that stands
for more than one opcode, they are the same and show the same memory. -/
theorem listing_determines_memory {d d' : Disasm} (hd : d.hw.Settled) (hd' : d'.hw.Settled) (addr lines : UInt16)
    (hvectors : d.hw.view.bytes 0xFFFA 6 = d'.hw.view.bytes 0xFFFA 6) :
    let printed := ((disasm6502 addr lines false).result d).1
    let printed' := ((disasm6502 addr lines false).result d').1
    printed.map Line.code = printed'.map Line.code → (∀ l ∈ printed, l.name ∉ sharedNames) →
      printed = printed' ∧ d.hw.view.bytes addr (printed.flatMap Line.bytes).length =
        d'.hw.view.bytes addr (printed.flatMap Line.bytes).length := by
  intro printed printed' hcode hown
  obtain ⟨-, hshown, -⟩ := listing_exact hd addr lines false
  obtain ⟨-, hshown', -⟩ := listing_exact hd' addr lines false
  obtain ⟨hres, -⟩ := disasm6502_spec hd addr lines false
  obtain ⟨hres', -⟩ := disasm6502_spec hd' addr lines false
  have hprinted : printed = listing d.hw.view (listingLabels d.hw.view addr lines.toNat) addr lines.toNat :=
    congrArg Prod.fst hres
  have hprinted' : printed' = listing d'.hw.view (listingLabels d'.hw.view addr lines.toNat) addr lines.toNat :=
    congrArg Prod.fst hres'
  have hseeded := vectorLabels_eq_of_bytes hvectors
  -- The labels of the two calls are alike, which is enough to compare instructions; from these they are the same.
  have heq : printed = printed' := by
    rw [hprinted, hprinted'] at hcode ⊢
    rw [hprinted] at hown
    obtain ⟨haddresses, hsame⟩ := (alike_listingLabels hseeded addr lines.toNat).sameAt_addresses _ _ hcode hown
    rw [← listingLabels_congr hseeded haddresses hsame] at hcode ⊢
    exact listing_congr haddresses hsame hcode
  refine ⟨heq, hshown.symm.trans ?_⟩
  show printed.flatMap Line.bytes = _
  rw [heq]
  exact hshown'

/-- A board full of `LDA`, with another byte in the cell behind the first instruction or not. -/
def loadingDisasm (b : UInt8) : Disasm := ⟨.running fun cell => if cell = (0, 2) then b else 0xA9, []⟩

/-- What stands behind the last line makes no difference. -/
theorem listing_determines_memory_load :
    (loadingDisasm 0x60).hw.view.bytes 0 2 = (loadingDisasm 0xA9).hw.view.bytes 0 2 :=
  have hd : (loadingDisasm 0x60).hw.Settled := Machine.settled_running _
  have hd' : (loadingDisasm 0xA9).hw.Settled := Machine.settled_running _
  (listing_determines_memory hd hd' 0 1 (by decide +kernel) (by decide +kernel) (by decide +kernel)).2

end NeoMmu.Disassembler
