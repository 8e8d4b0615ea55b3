import NeoMmu.Foundation.Bytes
import NeoMmu.Monitor.Disassembler

/-!
# What a listing shows

Both passes of the disassembler visit the same addresses, and the lines cut the memory into instructions without a
gap. The labels are those of the vectors and of the targets in the range that no vector has, while there is room for
them. The name and the operand of a line determine the bytes of its instruction.
-/

namespace NeoMmu.Disassembler

/-! ## The passes without the board -/

/-- The address behind the instruction at an address. -/
def next (v : Machine.View) (addr : UInt16) : UInt16 := addr + (opcode (v.peek addr)).len.toUInt16

/-- The addresses of the instructions from an address on. -/
def addresses (v : Machine.View) (addr : UInt16) : Nat → List UInt16
  | 0 => []
  | n + 1 => addr :: addresses v (next v addr) n

/-- The address behind so many instructions. -/
def behind (v : Machine.View) (addr : UInt16) (n : Nat) : UInt16 := (next v)^[n] addr

/-- The labels of the vectors. -/
def vectorLabels (v : Machine.View) : List Label :=
  createNamedLabel (word (v.peek 0xFFFE) (v.peek 0xFFFF)) ['I', 'R', 'Q']
    (createNamedLabel (word (v.peek 0xFFFC) (v.peek 0xFFFD)) ['R', 'E', 'S', 'E', 'T']
      (createNamedLabel (word (v.peek 0xFFFA) (v.peek 0xFFFB)) ['N', 'M', 'I'] []))

/-- The labels behind the first pass. -/
def listingLabels (v : Machine.View) (addr : UInt16) (n : Nat) : List Label :=
  (addresses v addr n).foldl (fun labels a => scanned a (v.bytes a 3) labels) (vectorLabels v)

/-- The lines that the second pass prints with some labels. -/
def listing (v : Machine.View) (labels : List Label) (addr : UInt16) (n : Nat) : List Line :=
  (addresses v addr n).map fun a => line labels a (v.bytes a 3)

section Passes

variable {d : Disasm} {v : Machine.View}

@[simp] theorem getD_bytes_zero (v : Machine.View) (a : UInt16) (n : Nat) :
    (v.bytes a (n + 1)).getD 0 0 = v.peek a := rfl

@[simp] theorem getD_bytes_one (v : Machine.View) (a : UInt16) (n : Nat) :
    (v.bytes a (n + 2)).getD 1 0 = v.peek (a + 1) := rfl

/-- A read of the disassembler changes nothing that it sees. -/
theorem onHw_read_spec (hd : d.hw.Settled) (addr n : UInt16) :
    (onHw (snoopRead6502Memory addr n)).result d = d.hw.view.bytes addr n.toNat ∧
      ((onHw (snoopRead6502Memory addr n)).final d).hw.view = d.hw.view ∧
      ((onHw (snoopRead6502Memory addr n)).final d).hw.Settled ∧
      ((onHw (snoopRead6502Memory addr n)).final d).labels = d.labels := by
  obtain ⟨hres, hview, hsettled⟩ := snoopRead6502Memory_spec hd addr n
  exact ⟨hres, hview, hsettled, rfl⟩

theorem readWord_spec (hd : d.hw.Settled) (addr : UInt16) :
    (readWord addr).result d = word (d.hw.view.peek addr) (d.hw.view.peek (addr + 1)) ∧
      ((readWord addr).final d).hw.view = d.hw.view ∧ ((readWord addr).final d).hw.Settled ∧
      ((readWord addr).final d).labels = d.labels := by
  obtain ⟨hres, hrest⟩ := onHw_read_spec hd addr 2
  refine ⟨?_, hrest⟩
  simp only [readWord, Prog.result_bind, Prog.result_pure, hres]
  rfl

theorem seedVectors_spec (hd : d.hw.Settled) (hnone : d.labels = []) :
    (seedVectors.final d).hw.view = d.hw.view ∧ (seedVectors.final d).hw.Settled ∧
      (seedVectors.final d).labels = vectorLabels d.hw.view := by
  obtain ⟨hnmi, hview, hsettled, hlabels⟩ := readWord_spec hd 0xFFFA
  obtain ⟨hreset, hview', hsettled', hlabels'⟩ := readWord_spec hsettled 0xFFFC
  obtain ⟨hirq, hview'', hsettled'', hlabels''⟩ := readWord_spec hsettled' 0xFFFE
  rw [hview] at hreset hview'
  rw [hview'] at hirq hview''
  simp only [seedVectors, Prog.final_bind, Prog.final_modify, hnmi, hreset, hirq]
  refine ⟨hview'', hsettled'', ?_⟩
  rw [hlabels'', hlabels', hlabels, hnone]
  rfl

theorem scanLabels_spec (n : Nat) (addr : UInt16) (hd : d.hw.Settled) :
    ((scanLabels addr n).final d).hw.view = d.hw.view ∧ ((scanLabels addr n).final d).hw.Settled ∧
      ((scanLabels addr n).final d).labels =
        (addresses d.hw.view addr n).foldl (fun labels a => scanned a (d.hw.view.bytes a 3) labels) d.labels := by
  induction n generalizing d addr with
  | zero => exact ⟨rfl, hd, rfl⟩
  | succ n ih =>
    obtain ⟨hres, hview, hsettled, hlabels⟩ := onHw_read_spec hd addr 3
    simp only [scanLabels, Prog.final_bind, Prog.final_modify, hres, UInt16.reduceToNat, getD_bytes_zero]
    generalize hd' : (onHw (snoopRead6502Memory addr 3)).final d = d' at hview hsettled hlabels
    obtain ⟨ihview, ihsettled, ihlabels⟩ :=
      ih (d := { d' with labels := scanned addr (d.hw.view.bytes addr 3) d'.labels })
      (addr + (opcode (d.hw.view.peek addr)).len.toUInt16) hsettled
    refine ⟨ihview.trans hview, ihsettled, ?_⟩
    rw [ihlabels, addresses, List.foldl_cons, hview, hlabels]
    rfl

theorem printLines_spec (n : Nat) (addr : UInt16) (hd : d.hw.Settled) :
    (printLines addr n).result d = (listing d.hw.view d.labels addr n, behind d.hw.view addr n) ∧
      ((printLines addr n).final d).hw.view = d.hw.view ∧ ((printLines addr n).final d).hw.Settled ∧
      ((printLines addr n).final d).labels = d.labels := by
  induction n generalizing d addr with
  | zero => exact ⟨rfl, rfl, hd, rfl⟩
  | succ n ih =>
    obtain ⟨hres, hview, hsettled, hlabels⟩ := onHw_read_spec hd addr 3
    simp only [printLines, Prog.result_bind, Prog.final_bind, Prog.result_get, Prog.final_get, Prog.result_pure,
      Prog.final_pure, hres, UInt16.reduceToNat, getD_bytes_zero]
    generalize (onHw (snoopRead6502Memory addr 3)).final d = d' at hview hsettled hlabels
    obtain ⟨ihres, ihview, ihsettled, ihlabels⟩ := ih (addr + (opcode (d.hw.view.peek addr)).len.toUInt16) hsettled
    rw [ihres, hview, hlabels]
    exact ⟨rfl, ihview.trans hview, ihsettled, ihlabels.trans hlabels⟩

/-- `disasm6502()` prints the listing with the labels of the range, or with those that are there, and leaves the
board as it was. -/
theorem disasm6502_spec (hd : d.hw.Settled) (addr lines : UInt16) (simple : Bool) :
    let labels := if simple then d.labels else listingLabels d.hw.view addr lines.toNat
    (disasm6502 addr lines simple).result d =
        (listing d.hw.view labels addr lines.toNat, behind d.hw.view addr lines.toNat) ∧
      ((disasm6502 addr lines simple).final d).hw.view = d.hw.view ∧
      ((disasm6502 addr lines simple).final d).hw.Settled ∧
      ((disasm6502 addr lines simple).final d).labels = labels := by
  cases simple with
  | true => exact printLines_spec lines.toNat addr hd
  | false =>
    obtain ⟨hview, hsettled, hlabels⟩ := seedVectors_spec (d := { d with labels := [] }) hd rfl
    obtain ⟨hview', hsettled', hlabels'⟩ := scanLabels_spec lines.toNat addr hsettled
    obtain ⟨hres, hview'', hsettled'', hlabels''⟩ := printLines_spec lines.toNat addr hsettled'
    rw [hview] at hview' hlabels'
    rw [hlabels] at hlabels'
    rw [hview', hlabels'] at hres
    rw [hview'] at hview''
    rw [hlabels'] at hlabels''
    exact ⟨hres, hview'', hsettled'', hlabels''⟩

end Passes

/-! ## Lines and memory -/

/-- An instruction has one to three bytes. -/
theorem len_opcode (b : UInt8) : 1 ≤ (opcode b).len.toNat ∧ (opcode b).len.toNat ≤ 3 := by
  have hall : ∀ b : UInt8, 1 ≤ (opcode b).len.toNat ∧ (opcode b).len.toNat ≤ 3 := by decide +kernel
  exact hall b

theorem bytes_append (v : Machine.View) (a : UInt16) (n k : Nat) :
    v.bytes a n ++ v.bytes (a + UInt16.ofNat n) k = v.bytes a (n + k) := by
  have htake := v.take_bytes a (Nat.le_add_right n k)
  have hdrop := v.drop_bytes a (n + k) n
  rw [Nat.add_sub_cancel_left] at hdrop
  rw [← htake, ← hdrop, List.take_append_drop]

section Lines

variable (v : Machine.View) (labels : List Label)

theorem bytes_line (a : UInt16) : (line labels a (v.bytes a 3)).bytes = v.bytes a (opcode (v.peek a)).len.toNat :=
  v.take_bytes a (len_opcode _).2

/-- The lines show the memory without a gap, and each stands where those in front of it end. -/
theorem listing_tiles (n : Nat) (addr : UInt16) :
    let shown := (listing v labels addr n).flatMap Line.bytes
    (listing v labels addr n).length = n ∧ shown = v.bytes addr shown.length ∧
      behind v addr n = addr + UInt16.ofNat shown.length ∧
      ∀ i (hi : i < (listing v labels addr n).length), (listing v labels addr n)[i].addr =
        addr + UInt16.ofNat (((listing v labels addr n).take i).flatMap Line.bytes).length := by
  induction n generalizing addr with
  | zero => exact ⟨rfl, rfl, (UInt16.add_zero addr).symm, fun i hi => absurd hi (Nat.not_lt_zero i)⟩
  | succ n ih =>
    obtain ⟨ihlength, ihshown, ihbehind, ihaddr⟩ := ih (next v addr)
    have hnext : next v addr = addr + UInt16.ofNat (opcode (v.peek addr)).len.toNat := by
      rw [next, UInt16.ofNat_uInt8ToNat]
    have hlist : listing v labels addr (n + 1) = line labels addr (v.bytes addr 3) :: listing v labels (next v addr) n :=
      rfl
    have hbehind : behind v addr (n + 1) = behind v (next v addr) n := rfl
    generalize listing v labels (next v addr) n = rest at ihlength ihshown ihbehind ihaddr hlist
    rw [hlist, hbehind, ihbehind]
    simp only [List.flatMap_cons, bytes_line, List.length_append, Machine.View.length_bytes, List.length_cons]
    refine ⟨by rw [ihlength], ?_, ?_, fun i hi => ?_⟩
    · rw [← bytes_append, ← hnext, ← ihshown]
    · rw [hnext, UInt16.ofNat_add, UInt16.add_assoc]
    · cases i with
      | zero => exact (UInt16.add_zero addr).symm
      | succ i =>
        rw [List.getElem_cons_succ, List.take_succ_cons, List.flatMap_cons, bytes_line, List.length_append,
          Machine.View.length_bytes, ihaddr i (Nat.lt_of_succ_lt_succ hi), hnext, UInt16.ofNat_add, UInt16.add_assoc]

/-- Every line is the one of the instruction at its address. -/
theorem eq_line_of_mem_listing {n : Nat} {addr : UInt16} {l : Line} (h : l ∈ listing v labels addr n) :
    l = line labels l.addr (v.bytes l.addr 3) := by
  obtain ⟨a, -, rfl⟩ := List.mem_map.1 h
  rfl

end Lines

/-- The lines that `disasm6502()` prints are those of the instructions one behind the other from the address on:
they show every byte up to the returned address once, and the board is as before. -/
theorem listing_exact {d : Disasm} (hd : d.hw.Settled) (addr lines : UInt16) (simple : Bool) :
    let printed := ((disasm6502 addr lines simple).result d).1
    let d' := (disasm6502 addr lines simple).final d
    let shown := printed.flatMap Line.bytes
    printed.length = lines.toNat ∧ shown = d.hw.view.bytes addr shown.length ∧
      ((disasm6502 addr lines simple).result d).2 = addr + UInt16.ofNat shown.length ∧
      (∀ i (hi : i < printed.length),
        printed[i].addr = addr + UInt16.ofNat ((printed.take i).flatMap Line.bytes).length) ∧
      (∀ l ∈ printed, l = line d'.labels l.addr (d.hw.view.bytes l.addr 3)) ∧
      d'.hw.view = d.hw.view ∧ d'.hw.Settled := by
  obtain ⟨hres, hview, hsettled, hlabels⟩ := disasm6502_spec hd addr lines simple
  generalize (if simple then d.labels else listingLabels d.hw.view addr lines.toNat) = labels at hres hlabels
  obtain ⟨hlength, hshown, hbehind, haddr⟩ := listing_tiles d.hw.view labels lines.toNat addr
  rw [hres]
  refine ⟨hlength, hshown, hbehind, haddr, fun l hl => ?_, hview, hsettled⟩
  rw [hlabels]
  exact eq_line_of_mem_listing d.hw.view labels hl

/-- A board full of `BRA` to itself. -/
def loopingDisasm : Disasm := ⟨.running fun cell => if cell.2 % 2 = 0 then 0x80 else 0xFE, []⟩

theorem listing_exact_loop : ((disasm6502 0x0200 3 false).result loopingDisasm).2 = 0x0206 :=
  (listing_exact (d := loopingDisasm) (Machine.settled_running _) 0x0200 3 false).2.2.1.trans (by decide +kernel)

/-! ## Labels -/

/-- The names of the vectors. -/
def vectorNames : List (List Char) := [['N', 'M', 'I'], ['R', 'E', 'S', 'E', 'T'], ['I', 'R', 'Q']]

/-- Every label has the name of a vector or that of its address, and no name is given twice. -/
structure Proper (labels : List Label) : Prop where
  names : (labels.map Label.name).Nodup
  made : ∀ l ∈ labels, l.fixed = true ∧ l.name ∈ vectorNames ∨ l.fixed = false ∧ l.name = labelName l.addr

section Labels

variable {labels : List Label} {a a' : UInt16}

theorem findLabel_eq_none : findLabel labels a = none ↔ ∀ l ∈ labels, l.addr ≠ a := by
  simp [findLabel]

theorem exists_of_findLabel {name : List Char} (h : findLabel labels a = some name) :
    ∃ l ∈ labels, l.addr = a ∧ l.name = name := by
  obtain ⟨l, hl, rfl⟩ := Option.map_eq_some_iff.1 h
  exact ⟨l, List.mem_of_find?_eq_some hl, by simpa using List.find?_some hl, rfl⟩

theorem isSome_findLabel {l : Label} (h : l ∈ labels) : (findLabel labels l.addr).isSome := by
  rw [findLabel, Option.isSome_map, List.find?_isSome]
  exact ⟨l, h, by simp⟩

theorem labelName_inj (h : labelName a = labelName a') : a = a' := by
  have hdigits := List.cons_injective h
  exact UInt16.toNat_inj.1 (hexDigits_inj (Nat.lt_of_lt_of_le a.toNat_lt (by decide))
    (Nat.lt_of_lt_of_le a'.toNat_lt (by decide)) hdigits)

/-- The name of an address is that of no vector. -/
theorem labelName_not_mem_vectorNames (t : UInt16) : labelName t ∉ vectorNames := by
  simp [vectorNames, labelName]

theorem proper_vectorLabels (v : Machine.View) : Proper (vectorLabels v) where
  names := show [['N', 'M', 'I'], ['R', 'E', 'S', 'E', 'T'], ['I', 'R', 'Q']].Nodup by decide
  made := by
    intro l hl
    rcases List.mem_cons.1 hl with rfl | hl
    · exact .inl ⟨rfl, show ['N', 'M', 'I'] ∈ vectorNames by decide⟩
    rcases List.mem_cons.1 hl with rfl | hl
    · exact .inl ⟨rfl, show ['R', 'E', 'S', 'E', 'T'] ∈ vectorNames by decide⟩
    rcases List.mem_cons.1 hl with rfl | hl
    · exact .inl ⟨rfl, show ['I', 'R', 'Q'] ∈ vectorNames by decide⟩
    cases hl

/-- `createLabel()` adds a label that is not there, while there is room. -/
theorem createLabel_eq (t : UInt16) (labels : List Label) : createLabel t labels =
    if (∃ l ∈ labels, l.addr = t) ∨ MAX_LABELS ≤ labels.length then labels
    else labels ++ [⟨t, labelName t, false⟩] := by
  rw [createLabel]
  split
  · rename_i hfound
    obtain ⟨l, hl, haddr, -⟩ := exists_of_findLabel hfound
    rw [if_pos (.inl ⟨l, hl, haddr⟩)]
  · rename_i hnone
    have habsent : ¬ ∃ l ∈ labels, l.addr = t := fun ⟨l, hl, haddr⟩ => findLabel_eq_none.1 hnone l hl haddr
    simp only [habsent, false_or]

theorem Proper.createLabel (h : Proper labels) (t : UInt16) : Proper (createLabel t labels) := by
  rw [createLabel_eq]
  split
  · exact h
  · rename_i hnew
    have habsent : ∀ l ∈ labels, l.addr ≠ t := fun l hl haddr => hnew (.inl ⟨l, hl, haddr⟩)
    refine ⟨?_, fun l hl => ?_⟩
    · rw [List.map_append, List.nodup_append]
      refine ⟨h.names, List.nodup_singleton _, fun name hname name' hname' heq => ?_⟩
      obtain ⟨l, hl, rfl⟩ := List.mem_map.1 hname
      rw [List.map_singleton, List.mem_singleton] at hname'
      rw [hname'] at heq
      rcases h.made l hl with ⟨-, hvector⟩ | ⟨-, hmade⟩
      · rw [heq] at hvector
        exact absurd hvector (labelName_not_mem_vectorNames t)
      · exact habsent l hl (labelName_inj (hmade.symm.trans heq))
    · rcases List.mem_append.1 hl with hl | hl
      · exact h.made l hl
      · rw [List.mem_singleton.1 hl]
        exact .inr ⟨rfl, rfl⟩

/-- The target of the instruction at an address. -/
def targetAt (v : Machine.View) (a : UInt16) : Option UInt16 :=
  (opcode (v.peek a)).target a (v.peek (a + 1)) (v.peek (a + 2))

/-- The first pass labels the target of an instruction. -/
theorem scanned_bytes (v : Machine.View) (a : UInt16) (labels : List Label) : scanned a (v.bytes a 3) labels =
    match targetAt v a with
    | some t => createLabel t labels
    | none => labels := by
  have hsecond : (v.bytes a 3).getD 2 0 = v.peek (a + 2) := by
    show v.peek (a + 1 + 1) = _
    rw [UInt16.add_assoc]
    rfl
  rw [scanned, hsecond]
  rfl

/-- The targets of the instructions of the first pass. -/
def targets (v : Machine.View) (addr : UInt16) (n : Nat) : List UInt16 := (addresses v addr n).filterMap (targetAt v)

/-- The labels behind some targets: there are no more than fit, the ones from before stay in front, the new ones
are those of targets, and while there is room every target has one. -/
structure Labelled (before : List Label) (targets : List UInt16) (labels : List Label) : Prop where
  proper : Proper labels
  length_le : labels.length ≤ MAX_LABELS
  kept : before <+: labels
  asked : ∀ l ∈ labels, l ∈ before ∨ l.fixed = false ∧ l.addr ∈ targets ∧ ∀ l' ∈ before, l'.addr ≠ l.addr
  complete : labels.length < MAX_LABELS → ∀ t ∈ targets, (findLabel labels t).isSome

theorem findLabel_isSome_iff : (findLabel labels a).isSome ↔ ∃ l ∈ labels, l.addr = a := by
  constructor
  · intro h
    obtain ⟨name, hname⟩ := Option.isSome_iff_exists.1 h
    obtain ⟨l, hl, haddr, -⟩ := exists_of_findLabel hname
    exact ⟨l, hl, haddr⟩
  · rintro ⟨l, hl, rfl⟩
    exact isSome_findLabel hl

theorem Labelled.createLabel {before : List Label} {ts : List UInt16} (h : Labelled before ts labels) (t : UInt16) :
    Labelled before (ts ++ [t]) (createLabel t labels) := by
  have hproper := h.proper.createLabel t
  rw [createLabel_eq] at hproper ⊢
  by_cases hold : ∃ l ∈ labels, l.addr = t
  · rw [if_pos (.inl hold)] at hproper ⊢
    refine ⟨hproper, h.length_le, h.kept, fun l hl => ?_, fun hroom t' ht' => ?_⟩
    · exact (h.asked l hl).imp_right fun ⟨hmade, hasked, hnew⟩ => ⟨hmade, List.mem_append_left _ hasked, hnew⟩
    · rcases List.mem_append.1 ht' with ht' | ht'
      · exact h.complete hroom t' ht'
      · rw [List.mem_singleton.1 ht']
        exact findLabel_isSome_iff.2 hold
  by_cases hfull : MAX_LABELS ≤ labels.length
  · rw [if_pos (.inr hfull)] at hproper ⊢
    refine ⟨hproper, h.length_le, h.kept, fun l hl => ?_, fun hroom => absurd hroom (Nat.not_lt.2 hfull)⟩
    exact (h.asked l hl).imp_right fun ⟨hmade, hasked, hnew⟩ => ⟨hmade, List.mem_append_left _ hasked, hnew⟩
  · rw [if_neg (not_or.2 ⟨hold, hfull⟩)] at hproper ⊢
    refine ⟨hproper, ?_, h.kept.trans (List.prefix_append _ _), fun l hl => ?_, fun hroom t' ht' => ?_⟩
    · rw [List.length_append, List.length_singleton]
      omega
    · rcases List.mem_append.1 hl with hl | hl
      · exact (h.asked l hl).imp_right fun ⟨hmade, hasked, hnew⟩ => ⟨hmade, List.mem_append_left _ hasked, hnew⟩
      · rw [List.mem_singleton.1 hl]
        refine .inr ⟨rfl, List.mem_append_right _ (List.mem_singleton.2 rfl), fun l' hl' haddr => ?_⟩
        exact hold ⟨l', h.kept.subset hl', haddr⟩
    · rw [findLabel_isSome_iff]
      rcases List.mem_append.1 ht' with ht' | ht'
      · obtain ⟨l, hl, haddr⟩ := findLabel_isSome_iff.1 (h.complete (Nat.not_le.1 hfull) t' ht')
        exact ⟨l, List.mem_append_left _ hl, haddr⟩
      · exact ⟨⟨t, labelName t, false⟩, List.mem_append_right _ (List.mem_singleton.2 rfl),
          (List.mem_singleton.1 ht').symm⟩

/-- The first pass labels the targets of its instructions. -/
theorem labelled_addresses {before : List Label} (v : Machine.View) {ts : List UInt16} (as : List UInt16)
    (h : Labelled before ts labels) :
    Labelled before (ts ++ as.filterMap (targetAt v))
      (as.foldl (fun labels a => scanned a (v.bytes a 3) labels) labels) := by
  induction as generalizing ts labels with
  | nil =>
    rw [List.filterMap_nil, List.append_nil]
    exact h
  | cons a as ih =>
    rw [List.foldl_cons, scanned_bytes]
    rcases htarget : targetAt v a with - | t
    · rw [List.filterMap_cons_none htarget]
      exact ih h
    · rw [List.filterMap_cons_some htarget, List.append_cons]
      exact ih (h.createLabel t)

theorem labelled_listingLabels (v : Machine.View) (addr : UInt16) (n : Nat) :
    Labelled (vectorLabels v) (targets v addr n) (listingLabels v addr n) :=
  labelled_addresses v (addresses v addr n) ⟨proper_vectorLabels v, show 3 ≤ 128 by decide, List.prefix_rfl,
    fun _ hl => .inl hl, fun _ _ ht => absurd ht List.not_mem_nil⟩

end Labels

/-- The labels of a listing are those of the three vectors and, while there is room, one for each target of its
branches and jumps that no vector has, and no others. No name is given twice; vectors that are equal label their
address each. -/
theorem labels_exact {d : Disasm} (hd : d.hw.Settled) (addr lines : UInt16) :
    let d' := (disasm6502 addr lines false).final d
    Labelled (vectorLabels d.hw.view) (targets d.hw.view addr lines.toNat) d'.labels := by
  intro d'
  obtain ⟨-, -, -, hlabels⟩ := disasm6502_spec hd addr lines false
  show Labelled _ _ ((disasm6502 addr lines false).final d).labels
  rw [hlabels]
  exact labelled_listingLabels _ _ _

theorem labels_exact_loop : (findLabel ((disasm6502 0x0200 3 false).final loopingDisasm).labels 0x0202).isSome :=
  (labels_exact (d := loopingDisasm) (Machine.settled_running _) 0x0200 3).complete (by decide +kernel) 0x0202
    (by decide +kernel)

end NeoMmu.Disassembler
