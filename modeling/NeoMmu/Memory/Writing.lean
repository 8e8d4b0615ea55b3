import NeoMmu.Foundation.Log
import NeoMmu.Memory.Comments
import NeoMmu.Memory.Completeness

/-!
# The text of a configuration

The firmware only reads `/memory.ini`. Here a configuration is spelled out in the format of that file, with a section
for each model, region and context and a line for each of their fields. `parseMemoryIni()` reads the configuration back
from its text, and refuses the text exactly for what `validateConfig()` finds in it.
-/

namespace NeoMmu

/-! ## The text -/

/-- The digit of a number below ten. -/
def digitByte (d : Nat) : UInt8 := UInt8.ofNat ('0'.toNat + d)

/-- The decimal digits of a byte. -/
def decimalDigits (n : Nat) : List Nat :=
  if n < 10 then [n] else if n < 100 then [n / 10, n % 10] else [n / 100, n / 10 % 10, n % 10]

/-- A byte in decimal digits. -/
def decimal (n : UInt8) : List UInt8 := (decimalDigits n.toNat).map digitByte

/-- `<key>=<value>` -/
def keyLine (key val : List UInt8) : List UInt8 := key ++ '='.toUInt8 :: val

/-- `[<part>.<part>…]` -/
def headerLine (parts : List (List UInt8)) : List UInt8 :=
  '['.toUInt8 :: (joinSep '.'.toUInt8 parts ++ [']'.toUInt8])

/-- `true` or `false` -/
def boolText (b : Bool) : List UInt8 := if b then ascii "true" else ascii "false"

/-- `io` or `normal` -/
def MemoryRegionType.text : MemoryRegionType → List UInt8
  | MemoryRegionType.MEMORY_REGION_IO => ascii "io"
  | MemoryRegionType.MEMORY_REGION_NORMAL => ascii "normal"

def MemoryModel.iniLines (model : MemoryModel) : List (List UInt8) :=
  [headerLine [ascii "model", model.name.val], keyLine (ascii "contexts") (decimal model.contexts)]

def MemoryLayoutRegion.iniLines (model layout : Name) (region : MemoryLayoutRegion) : List (List UInt8) :=
  [headerLine [ascii "layout", model.val, layout.val, ascii "region", region.name.val],
    keyLine (ascii "start") (decimal region.start), keyLine (ascii "pages") (decimal region.pages),
    keyLine (ascii "shared") (boolText region.shared), keyLine (ascii "trap_write") (boolText region.trap_write),
    keyLine (ascii "type") region.type.text]

def MemoryLayout.iniLines (layout : MemoryLayout) : List (List UInt8) :=
  layout.regions.flatMap (·.iniLines layout.model layout.name)

def MemoryContextBinding.iniLines (binding : MemoryContextBinding) : List (List UInt8) :=
  [headerLine [ascii "context", binding.model.val, decimal binding.context],
    keyLine (ascii "layout") binding.layout.val]

namespace MemoryConfig

variable (cfg : MemoryConfig)

def systemLines : List (List UInt8) :=
  [headerLine [ascii "system"], keyLine (ascii "config_version") (decimal cfg.version),
    keyLine (ascii "active_model") cfg.active_model.val, keyLine (ascii "boot_context") (decimal cfg.boot_context)]

def iniLines : List (List UInt8) :=
  cfg.systemLines ++ cfg.models.flatMap (·.iniLines) ++ cfg.layouts.flatMap (·.iniLines) ++
    cfg.contexts.flatMap (·.iniLines)

/-- The file. -/
def toIni : List UInt8 := cfg.iniLines.flatMap (· ++ ['\n'.toUInt8])

end MemoryConfig

/-- A byte that every place of a name keeps: no blank, no end of a line or of a string, and nothing that ends a part of
a header. -/
def IsNameByte (c : UInt8) : Prop :=
  c ∉ [0, '\t'.toUInt8, '\n'.toUInt8, '\r'.toUInt8, ' '.toUInt8, '.'.toUInt8, ']'.toUInt8]

instance : DecidablePred IsNameByte := fun c => inferInstanceAs (Decidable (c ∉ _))

/-- A name that can be written. -/
def Name.Writable (name : Name) : Prop := name.val ≠ [] ∧ ∀ c ∈ name.val, IsNameByte c

/-- A configuration that can be written. The header of a region has room for 47 bytes of names. -/
structure MemoryConfig.Writable (cfg : MemoryConfig) : Prop where
  names : ∀ name ∈ cfg.names, name.Writable
  bounded : cfg.Bounded
  named : cfg.Named
  distinct : cfg.Distinct
  bindings : (cfg.contexts.map fun b => (b.model, b.context)).Nodup
  regions : ∀ layout ∈ cfg.layouts, layout.regions ≠ []
  fits : ∀ layout ∈ cfg.layouts, ∀ region ∈ layout.regions,
    layout.model.val.length + layout.name.val.length + region.name.val.length ≤ 47
  contexts : ∀ b ∈ cfg.contexts, b.context < 16
  boot_context : cfg.boot_context < 16

/-! ## Lines -/

/-- A line that is read as it stands. -/
structure PlainLine (line : List UInt8) : Prop where
  bytes : ∀ c ∈ line, c ∉ [0, '\n'.toUInt8, '\r'.toUInt8]
  length_lt : line.length < 159

theorem lineString_plainLine {line : List UInt8} (h : PlainLine line) : lineString line = line := by
  have hend : line.rdropWhile (fun c => c = '\r'.toUInt8 || c = '\n'.toUInt8) = line := by
    rw [List.rdropWhile_eq_self_iff]
    intro hne hlast
    have hbyte := h.bytes _ (List.getLast_mem hne)
    simp only [List.mem_cons, not_or] at hbyte
    simp [hbyte] at hlast
  rw [lineString, hend, List.takeWhile_eq_self_iff]
  intro c hc
  have hbyte := h.bytes c hc
  simp only [List.mem_cons, not_or] at hbyte
  simpa using hbyte.1

theorem readLines_plainLine {line : List UInt8} (h : PlainLine line) : readLines (line ++ ['\n'.toUInt8]) = [line] := by
  have hnewline : '\n'.toUInt8 ∉ line := fun hmem => by simpa using h.bytes _ hmem
  have hread := readLine_line hnewline
  rw [List.take_of_length_le h.length_lt.le, if_neg (not_le.2 h.length_lt)] at hread
  rw [readLines, dif_neg (by simp), hread, readLines, dif_pos rfl]

/-- The lines of a file that is written are read one by one. -/
theorem readLines_flatMap {lines : List (List UInt8)} (h : ∀ line ∈ lines, PlainLine line) :
    readLines (lines.flatMap (· ++ ['\n'.toUInt8])) = lines := by
  induction lines with
  | nil => rw [List.flatMap_nil, readLines, dif_pos rfl]
  | cons line lines ih =>
    -- The line ends in a newline, so the next one is read from its start.
    have hstart : AtLineStart (line ++ ['\n'.toUInt8]) := .inr List.getLast?_concat
    rw [List.flatMap_cons, readLines_append hstart, readLines_plainLine (h line List.mem_cons_self),
      ih fun l hl => h l (List.mem_cons_of_mem _ hl), List.singleton_append]

/-! ## Values -/

/-- A value that is read as it stands. -/
structure PlainValue (val : List UInt8) : Prop where
  bytes : ∀ c ∈ val, c ∉ [0, '\t'.toUInt8, '\n'.toUInt8, '\r'.toUInt8, ' '.toUInt8]
  length_le : val.length ≤ MAX_MEMORY_NAME

theorem ascii_ne {l l' : List Char} (h : l.map Char.toUInt8 ≠ l'.map Char.toUInt8) :
    ascii (String.ofList l) ≠ ascii (String.ofList l') := by
  rwa [ascii_ofList, ascii_ofList]

theorem length_ascii (l : List Char) : (ascii (String.ofList l)).length = l.length := by
  rw [ascii_ofList, List.length_map]

/-- The words of the format. -/
def iniWords : List (List UInt8) :=
  [ascii "system", ascii "model", ascii "layout", ascii "region", ascii "context", ascii "config_version",
    ascii "active_model", ascii "boot_context", ascii "contexts", ascii "start", ascii "pages", ascii "shared",
    ascii "trap_write", ascii "type", ascii "true", ascii "false", ascii "io", ascii "normal"]

theorem iniWords_all : (iniWords.all fun word => decide (word ≠ []) &&
    word.all (fun c => '_'.toUInt8 ≤ c && c ≤ 'z'.toUInt8) && decide (word.length ≤ 14)) = true := by
  rw [iniWords, show ascii "system" = _ from ascii_ofList _, show ascii "model" = _ from ascii_ofList _,
    show ascii "layout" = _ from ascii_ofList _, show ascii "region" = _ from ascii_ofList _,
    show ascii "context" = _ from ascii_ofList _, show ascii "config_version" = _ from ascii_ofList _,
    show ascii "active_model" = _ from ascii_ofList _, show ascii "boot_context" = _ from ascii_ofList _,
    show ascii "contexts" = _ from ascii_ofList _, show ascii "start" = _ from ascii_ofList _,
    show ascii "pages" = _ from ascii_ofList _, show ascii "shared" = _ from ascii_ofList _,
    show ascii "trap_write" = _ from ascii_ofList _, show ascii "type" = _ from ascii_ofList _,
    show ascii "true" = _ from ascii_ofList _, show ascii "false" = _ from ascii_ofList _,
    show ascii "io" = _ from ascii_ofList _, show ascii "normal" = _ from ascii_ofList _]
  rfl

theorem iniWords_spec : ∀ word ∈ iniWords, word ≠ [] ∧ (∀ c ∈ word, '_'.toUInt8 ≤ c ∧ c ≤ 'z'.toUInt8) ∧
    word.length ≤ 14 := by
  have hall := iniWords_all
  simp only [List.all_eq_true, Bool.and_eq_true, decide_eq_true_eq] at hall
  exact fun word hword => ⟨(hall word hword).1.1, (hall word hword).1.2, (hall word hword).2⟩

/-- What is looked for in a line is no letter and no underscore. -/
theorem notMem_of_letter {c : UInt8} (h : '_'.toUInt8 ≤ c ∧ c ≤ 'z'.toUInt8) {seps : List UInt8}
    (hseps : (seps.all fun a => a < '_'.toUInt8) = true) : c ∉ seps :=
  fun hmem => absurd h.1 (UInt8.not_le.2 (of_decide_eq_true (List.all_eq_true.1 hseps c hmem)))

theorem isNameByte_word {word : List UInt8} (h : word ∈ iniWords) : ∀ c ∈ word, IsNameByte c :=
  fun c hc => notMem_of_letter ((iniWords_spec word h).2.1 c hc) rfl

theorem plainValue_of_nameBytes {val : List UInt8} (h : ∀ c ∈ val, IsNameByte c)
    (hlength : val.length ≤ MAX_MEMORY_NAME) : PlainValue val := by
  refine ⟨fun c hc hmem => h c hc ?_, hlength⟩
  simp only [List.mem_cons] at hmem ⊢
  tauto

/-- A digit is none of the bytes that the places of a number look for. -/
theorem digitByte_spec : ∀ d < 10, isDigit (digitByte d) = true ∧ (digitByte d - '0'.toUInt8).toNat = d ∧
    IsNameByte (digitByte d) ∧
    (digitByte d = 32 || (9 ≤ digitByte d && digitByte d ≤ 13)) = false ∧ digitByte d ≠ '-'.toUInt8 ∧
    digitByte d ≠ '+'.toUInt8 := by
  decide

theorem decimalDigits_spec {n : Nat} (h : n < 256) : decimalDigits n ≠ [] ∧ (decimalDigits n).length ≤ 3 ∧
    (∀ d ∈ decimalDigits n, d < 10) ∧ (decimalDigits n).foldl (fun n d => n * 10 + d) 0 = n := by
  rw [decimalDigits]
  split
  · simpa
  split
  · simp
    omega
  · simp
    omega

theorem foldl_digitByte {ds : List Nat} (hds : ∀ d ∈ ds, d < 10) (n : Nat) :
    (ds.map digitByte).foldl (fun n c => n * 10 + (c - '0'.toUInt8).toNat) n = ds.foldl (fun n d => n * 10 + d) n := by
  induction ds generalizing n with
  | nil => rfl
  | cons d ds ih =>
    rw [List.map_cons, List.foldl_cons, List.foldl_cons, (digitByte_spec d (hds d List.mem_cons_self)).2.1,
      ih fun d hd => hds d (List.mem_cons_of_mem _ hd)]

theorem strtol10_digits {ds : List Nat} (hne : ds ≠ []) (hds : ∀ d ∈ ds, d < 10) :
    strtol10 (ds.map digitByte) = some
      (max (-2147483648) (min ((ds.foldl (fun n d => n * 10 + d) 0 : Nat) : Int) 2147483647), []) := by
  have hdigits : ∀ c ∈ ds.map digitByte, isDigit c = true := by
    intro c hc
    obtain ⟨d, hd, rfl⟩ := List.mem_map.1 hc
    exact (digitByte_spec d (hds d hd)).1
  rw [← foldl_digitByte hds]
  rcases ds with - | ⟨d, ds⟩
  · exact absurd rfl hne
  -- The first digit is neither a blank nor a sign, so the whole text counts as digits.
  obtain ⟨-, -, -, hspace, hminus, hplus⟩ := digitByte_spec d (hds d List.mem_cons_self)
  have hfront : ((d :: ds).map digitByte).dropWhile (fun c => c = 32 || (9 ≤ c && c ≤ 13)) = (d :: ds).map digitByte :=
    List.dropWhile_cons_of_neg (by rw [hspace]; exact Bool.false_ne_true)
  have hall : ((d :: ds).map digitByte).takeWhile isDigit = (d :: ds).map digitByte :=
    List.takeWhile_eq_self_iff.2 hdigits
  have hnone : ((d :: ds).map digitByte).dropWhile isDigit = [] := List.dropWhile_eq_nil_iff.2 hdigits
  have hsign : ((d :: ds).map digitByte).head? ≠ some '-'.toUInt8 ∧
      ((d :: ds).map digitByte).head? ≠ some '+'.toUInt8 :=
    ⟨fun h => hminus (Option.some.inj h), fun h => hplus (Option.some.inj h)⟩
  have hcons : (d :: ds).map digitByte ≠ [] := List.cons_ne_nil _ _
  simp only [strtol10, hfront, hsign.1, hsign.2, or_self, if_false, hall, hnone, hcons]

theorem parseU8Strict_decimal (n : UInt8) : parseU8Strict (decimal n) = some n := by
  have hlt : n.toNat < 256 := n.toNat_lt
  obtain ⟨hne, -, hds, hvalue⟩ := decimalDigits_spec hlt
  have hclip : max (-2147483648) (min (n.toNat : Int) 2147483647) = n.toNat := by omega
  rw [parseU8Strict, decimal, strtol10_digits hne hds, hvalue, hclip]
  show (if ([] : List UInt8) ≠ [] then none else if (n.toNat : Int) < 0 ∨ 255 < (n.toNat : Int) then none
    else some (UInt8.ofNat (n.toNat : Int).toNat)) = some n
  rw [if_neg (not_not.2 rfl), if_neg (by omega), Int.toNat_natCast, UInt8.ofNat_toNat]

theorem parseContextIdStrict_decimal {n : UInt8} (h : n < 16) : parseContextIdStrict (decimal n) = some n := by
  rw [parseContextIdStrict, parseU8Strict_decimal]
  simp [h]

theorem decimal_bytes (n : UInt8) : ∀ c ∈ decimal n, IsNameByte c := by
  intro c hc
  obtain ⟨d, hd, rfl⟩ := List.mem_map.1 hc
  exact (digitByte_spec d ((decimalDigits_spec n.toNat_lt).2.2.1 d hd)).2.2.1

theorem decimal_ne_nil (n : UInt8) : decimal n ≠ [] :=
  fun h => (decimalDigits_spec n.toNat_lt).1 (List.map_eq_nil_iff.1 h)

theorem length_decimal (n : UInt8) : (decimal n).length ≤ 3 := by
  rw [decimal, List.length_map]
  exact (decimalDigits_spec n.toNat_lt).2.1

theorem plainValue_decimal (n : UInt8) : PlainValue (decimal n) :=
  plainValue_of_nameBytes (decimal_bytes n) ((length_decimal n).trans (by decide))

theorem parseBoolValue_boolText (b : Bool) : parseBoolValue (boolText b) = some b := by
  cases b with
  | false => exact (if_neg (ascii_ne (by decide))).trans (if_pos rfl)
  | true => exact if_pos rfl

theorem plainValue_word {word : List UInt8} (h : word ∈ iniWords) : PlainValue word :=
  plainValue_of_nameBytes (isNameByte_word h) ((iniWords_spec word h).2.2.trans (by decide))

theorem plainValue_boolText (b : Bool) : PlainValue (boolText b) := by
  cases b with
  | false => exact plainValue_word (by simp [boolText, iniWords])
  | true => exact plainValue_word (by simp [boolText, iniWords])

theorem plainValue_typeText (type : MemoryRegionType) : PlainValue type.text := by
  cases type with
  | MEMORY_REGION_NORMAL => exact plainValue_word (by simp [MemoryRegionType.text, iniWords])
  | MEMORY_REGION_IO => exact plainValue_word (by simp [MemoryRegionType.text, iniWords])

theorem trimBlanks_plainValue {val : List UInt8} (h : PlainValue val) : trimBlanks val = val := by
  have hblank : ∀ c ∈ val, (c = ' '.toUInt8 || c = '\t'.toUInt8) = false := by
    intro c hc
    have hbyte := h.bytes c hc
    simp only [List.mem_cons, not_or] at hbyte
    simp [hbyte]
  have hfront : val.dropWhile (fun c => c = ' '.toUInt8 || c = '\t'.toUInt8) = val := by
    rw [List.dropWhile_eq_self_iff]
    intro hlength
    rw [hblank _ (List.getElem_mem hlength)]
    exact Bool.false_ne_true
  have hback : val.rdropWhile (fun c => c = ' '.toUInt8 || c = '\t'.toUInt8) = val := by
    rw [List.rdropWhile_eq_self_iff]
    intro hne
    rw [hblank _ (List.getLast_mem hne)]
    exact Bool.false_ne_true
  rw [trimBlanks, hfront, hback]

/-! ## What lines do -/

/-- Where the parser stands: in a section, and perhaps in the region of a layout. -/
structure ParseState.Stands (st : ParseState) (cfg : MemoryConfig) (sectionText : List UInt8)
    (place : Option (Nat × Nat)) : Prop where
  cfg : st.cfg = cfg
  sectionText : st.sectionText = sectionText
  currentLayout : st.currentLayout = place.map Prod.fst
  currentRegion : st.currentRegion = place.map Prod.snd

namespace Parser

/-- From every state of `P` the step succeeds with `a`, in a state of `Q`. -/
def Gives {α : Type} (P : ParseState → Prop) (p : Parser α) (a : α) (Q : ParseState → Prop) : Prop :=
  ∀ st, P st → p.run.result st = .ok a ∧ Q (p.run.final st)

/-- The lines are read, each as it stands. -/
structure Reads (P : ParseState → Prop) (lines : List (List UInt8)) (Q : ParseState → Prop) : Prop where
  plain : ∀ line ∈ lines, PlainLine line
  gives : Gives P (lines.forM readBuffer) () Q

variable {P Q R : ParseState → Prop} {lines lines' : List (List UInt8)}

theorem Gives.bind {α β : Type} {p : Parser α} {f : α → Parser β} {a : α} {b : β} (hp : Gives P p a Q)
    (hf : Gives Q (f a) b R) : Gives P (p >>= f) b R := by
  intro st hst
  obtain ⟨hok, hmid⟩ := hp st hst
  obtain ⟨hok', hend⟩ := hf _ hmid
  exact ⟨result_bind_ok.2 ⟨a, hok, hok'⟩, final_bind_ok hok ▸ hend⟩

/-- A look at the state. -/
theorem Gives.get_bind {β : Type} {f : ParseState → Parser β} {b : β} (h : ∀ st, P st → Gives (· = st) (f st) b Q) :
    Gives P (get >>= f) b Q := fun st hst => h st hst st rfl

theorem Gives.pure {α : Type} {a : α} (h : ∀ st, P st → Q st) : Gives P (pure a) a Q := fun st hst => ⟨rfl, h st hst⟩

theorem Gives.modify {f : ParseState → ParseState} (h : ∀ st, P st → Q (f st)) : Gives P (modify f) () Q :=
  fun st hst => ⟨rfl, h st hst⟩

theorem Gives.modifyConfig {f : MemoryConfig → MemoryConfig} {cfg cfg' : MemoryConfig} {sectionText : List UInt8}
    {place : Option (Nat × Nat)} (h : f cfg = cfg') :
    Gives (·.Stands cfg sectionText place) (modifyConfig f) () (·.Stands cfg' sectionText place) :=
  fun _ hst => ⟨rfl, (congrArg f hst.cfg).trans h, hst.sectionText, hst.currentLayout, hst.currentRegion⟩

theorem Reads.imp {P' Q' : ParseState → Prop} (h : Reads P lines Q) (hP : ∀ st, P' st → P st)
    (hQ : ∀ st, Q st → Q' st) : Reads P' lines Q' := by
  refine ⟨h.plain, fun st hst => ?_⟩
  obtain ⟨hok, hend⟩ := h.gives st (hP st hst)
  exact ⟨hok, hQ _ hend⟩

theorem Reads.append (h : Reads P lines Q) (h' : Reads Q lines' R) : Reads P (lines ++ lines') R := by
  refine ⟨List.forall_mem_append.2 ⟨h.plain, h'.plain⟩, ?_⟩
  rw [readBuffers_append]
  exact h.gives.bind h'.gives

theorem Reads.cons {line : List UInt8} (h : Reads P [line] Q) (h' : Reads Q lines R) : Reads P (line :: lines) R :=
  h.append h'

/-- One item after the other is read. -/
theorem Reads.flatMap {α : Type} {f : α → List (List UInt8)} (stage : List α → ParseState → Prop) {items : List α}
    (h : ∀ pre a, pre ++ [a] <+: items → Reads (stage pre) (f a) (stage (pre ++ [a]))) :
    Reads (stage []) (items.flatMap f) (stage items) := by
  induction items using List.reverseRecOn with
  | nil => exact ⟨List.forall_mem_nil _, fun st hst => ⟨rfl, hst⟩⟩
  | append_singleton items a ih =>
    -- The last item is read where the items before it leave the parser.
    rw [List.flatMap_append, List.flatMap_singleton]
    exact (ih fun pre b hpre => h pre b (hpre.trans (List.prefix_append _ _))).append (h items a List.prefix_rfl)

/-- What a header does to the configuration. -/
def openSection (sectionText : List UInt8) : Parser Unit :=
  if sectionText = ascii "system" then
    return
  else if (ascii "model.").isPrefixOf sectionText then
    modelHeader sectionText
  else if (ascii "layout.").isPrefixOf sectionText then
    layoutHeader sectionText
  else if (ascii "context.").isPrefixOf sectionText then
    contextHeader sectionText
  else
    fail .MEMORY_INI_UNKNOWN_SECTION sectionText none none

/-- What a value does. -/
def setKey (inRegion : Bool) (sectionText key val : List UInt8) : Parser Unit :=
  if sectionText = ascii "system" then
    systemKey sectionText key val
  else if (ascii "model.").isPrefixOf sectionText then
    modelKey sectionText key val
  else if inRegion then
    regionKey sectionText key val
  else if (ascii "context.").isPrefixOf sectionText then
    contextKey sectionText key val
  else
    fail .MEMORY_INI_UNKNOWN_SECTION sectionText key val

/-- The text of a header that is read as it stands. -/
structure PlainHeader (text : List UInt8) : Prop where
  bytes : ∀ c ∈ text, c ∉ [0, '\n'.toUInt8, '\r'.toUInt8, ']'.toUInt8]
  length_lt : text.length < 64

theorem PlainHeader.plainLine {text : List UInt8} (h : PlainHeader text) :
    PlainLine ('['.toUInt8 :: (text ++ [']'.toUInt8])) := by
  constructor
  · intro c hc hmem
    rw [List.mem_cons, List.mem_append, List.mem_singleton] at hc
    rcases hc with rfl | hc | rfl
    · revert hmem
      decide
    · refine h.bytes c hc ?_
      simp only [List.mem_cons] at hmem ⊢
      tauto
    · revert hmem
      decide
  · have hlength := h.length_lt
    rw [List.length_cons, List.length_append, List.length_singleton]
    omega

theorem header_eq {text : List UInt8} (h : PlainHeader text) : header ('['.toUInt8 :: (text ++ [']'.toUInt8])) =
    modify (fun st => { st with sectionText := text, currentLayout := none, currentRegion := none }) >>= fun _ =>
      openSection text := by
  have hcontains : ('['.toUInt8 :: (text ++ [']'.toUInt8])).contains ']'.toUInt8 ≠ false := by simp
  have hbytes : ∀ c ∈ text, (c != ']'.toUInt8) = true := by
    intro c hc
    have hbyte := h.bytes c hc
    simp only [List.mem_cons, not_or] at hbyte
    simpa using hbyte.2.2.2.1
  have htake : (('['.toUInt8 :: (text ++ [']'.toUInt8])).drop 1).takeWhile (· != ']'.toUInt8) = text := by
    rw [List.drop_one, List.tail_cons, List.takeWhile_append_of_pos hbytes, List.takeWhile_cons_of_neg (by simp),
      List.append_nil]
  have hcopy : copyTrunc 64 text = text := List.take_of_length_le (Nat.le_of_lt_succ h.length_lt)
  rw [header, if_neg hcontains]
  simp only [htake, hcopy]
  rfl

/-- A header is read from any section. -/
theorem reads_header {text : List UInt8} {cfg : MemoryConfig} (hplain : PlainHeader text)
    (h : Gives (·.Stands cfg text none) (openSection text) () Q) :
    Reads (·.cfg = cfg) ['['.toUInt8 :: (text ++ [']'.toUInt8])] Q := by
  refine ⟨List.forall_mem_singleton.2 hplain.plainLine, fun st hst => ?_⟩
  have hline := lineString_plainLine hplain.plainLine
  have hread : readBuffer ('['.toUInt8 :: (text ++ [']'.toUInt8])) = modify (ParseState.later 1) >>= fun _ =>
      modify (fun st => { st with sectionText := text, currentLayout := none, currentRegion := none }) >>= fun _ =>
        openSection text := by
    rw [readBuffer_header (by rw [hline]; rfl), hline, header_eq hplain]
  rw [readBuffers_cons, hread]
  refine Gives.bind (P := fun s => s = st) (Q := Q) (a := ()) ?_ (fun s hs => ⟨rfl, hs⟩) st rfl
  rintro _ rfl
  exact h _ ⟨hst, rfl, rfl, rfl⟩

/-- A key that is read as it stands. -/
structure PlainKey (key : List UInt8) : Prop where
  bytes : ∀ c ∈ key, c ∉ [0, '\t'.toUInt8, '\n'.toUInt8, '\r'.toUInt8, ' '.toUInt8, '='.toUInt8]
  head : ∀ c ∈ key.head?, c ∉ ['#'.toUInt8, ';'.toUInt8, '['.toUInt8]
  ne_nil : key ≠ []
  length_le : key.length ≤ 14

theorem plainLine_keyLine {key val : List UInt8} (hkey : PlainKey key) (hval : PlainValue val) :
    PlainLine (keyLine key val) := by
  constructor
  · intro c hc hmem
    rw [keyLine, List.mem_append, List.mem_cons] at hc
    simp only [List.mem_cons] at hmem
    rcases hc with hc | rfl | hc
    · refine hkey.bytes c hc ?_
      simp only [List.mem_cons]
      tauto
    · revert hmem
      decide
    · refine hval.bytes c hc ?_
      simp only [List.mem_cons]
      tauto
  · have hshort := hkey.length_le
    have hroom := hval.length_le
    rw [keyLine, List.length_append, List.length_cons]
    simp only [MAX_MEMORY_NAME] at hroom
    omega

theorem keyValue_eq {key val : List UInt8} (hkey : PlainKey key) (hval : PlainValue val) :
    keyValue (keyLine key val) = get >>= fun st => setKey st.currentRegion.isSome st.sectionText key val := by
  have hcontains : (keyLine key val).contains '='.toUInt8 ≠ false := by simp [keyLine]
  have hbytes : ∀ c ∈ key, (c != '='.toUInt8) = true := by
    intro c hc
    have hbyte := hkey.bytes c hc
    simp only [List.mem_cons, not_or] at hbyte
    simpa using hbyte.2.2.2.2.2.1
  have htake : (keyLine key val).takeWhile (· != '='.toUInt8) = key := by
    rw [keyLine, List.takeWhile_append_of_pos hbytes, List.takeWhile_cons_of_neg (by simp), List.append_nil]
  have hdrop : ((keyLine key val).dropWhile (· != '='.toUInt8)).drop 1 = val := by
    rw [keyLine, List.dropWhile_append_of_pos hbytes, List.dropWhile_cons_of_neg (by simp), List.drop_one,
      List.tail_cons]
  have hplain : PlainValue key := by
    refine ⟨fun c hc hmem => hkey.bytes c hc ?_, hkey.length_le.trans (by decide)⟩
    simp only [List.mem_cons] at hmem ⊢
    tauto
  have htrim := trimBlanks_plainValue hplain
  have hval' := trimBlanks_plainValue hval
  refine bind_congr fun st => ?_
  dsimp only
  rw [if_neg hcontains]
  simp only [htake, hdrop, htrim, hval']
  rfl

/-- A key is read in its section. -/
theorem reads_key {key val sectionText : List UInt8} {cfg : MemoryConfig} {place : Option (Nat × Nat)}
    (hkey : PlainKey key) (hval : PlainValue val)
    (h : Gives (·.Stands cfg sectionText place) (setKey place.isSome sectionText key val) () Q) :
    Reads (·.Stands cfg sectionText place) [keyLine key val] Q := by
  have hplain := plainLine_keyLine hkey hval
  refine ⟨List.forall_mem_singleton.2 hplain, fun st hst => ?_⟩
  have hline := lineString_plainLine hplain
  obtain ⟨c, rest, rfl⟩ := List.exists_cons_of_ne_nil hkey.ne_nil
  have hhead := hkey.head c rfl
  simp only [List.mem_cons, not_or] at hhead
  have hskipped : ¬ Skipped (keyLine (c :: rest) val) := by
    rintro (hnil | hhash | hsemicolon)
    · cases hnil
    · exact hhead.1 (Option.some.inj hhash)
    · exact hhead.2.1 (Option.some.inj hsemicolon)
  have hread : readBuffer (keyLine (c :: rest) val) = modify (ParseState.later 1) >>= fun _ =>
      get >>= fun st => setKey st.currentRegion.isSome st.sectionText (c :: rest) val := by
    rw [readBuffer_keyValue (by rwa [hline]) (by rw [hline]; exact fun h => hhead.2.2.1 (Option.some.inj h)), hline,
      keyValue_eq hkey hval]
  rw [readBuffers_cons, hread]
  refine Gives.bind (P := fun s => s = st) (Q := Q) (a := ()) ?_ (fun s hs => ⟨rfl, hs⟩) st rfl
  rintro st rfl
  have hregion : st.currentRegion.isSome = place.isSome := by rw [hst.currentRegion, Option.isSome_map]
  have hkeys := h (st.later 1) ⟨hst.cfg, hst.sectionText, hst.currentLayout, hst.currentRegion⟩
  rw [← hregion, ← hst.sectionText] at hkeys
  exact hkeys

/-! ## Headers -/

theorem ascii_system : ascii "system" = [115, 121, 115, 116, 101, 109] := ascii_ofList _

theorem ascii_model : ascii "model." = [109, 111, 100, 101, 108, 46] := ascii_ofList _

theorem ascii_layout : ascii "layout." = [108, 97, 121, 111, 117, 116, 46] := ascii_ofList _

theorem ascii_context : ascii "context." = [99, 111, 110, 116, 101, 120, 116, 46] := ascii_ofList _

section Texts

variable (text : List UInt8)

theorem openSection_system : openSection (ascii "system") = pure () := if_pos rfl

theorem openSection_model : openSection (ascii "model." ++ text) = modelHeader (ascii "model." ++ text) := by
  simp [openSection, ascii_model, ascii_system]

theorem openSection_layout : openSection (ascii "layout." ++ text) = layoutHeader (ascii "layout." ++ text) := by
  simp [openSection, ascii_layout, ascii_model, ascii_system]

theorem openSection_context : openSection (ascii "context." ++ text) = contextHeader (ascii "context." ++ text) := by
  simp [openSection, ascii_context, ascii_layout, ascii_model, ascii_system]

variable (key val : List UInt8)

theorem setKey_system : setKey false (ascii "system") key val = systemKey (ascii "system") key val := if_pos rfl

theorem setKey_model : setKey false (ascii "model." ++ text) key val = modelKey (ascii "model." ++ text) key val := by
  simp [setKey, ascii_model, ascii_system]

theorem setKey_layout :
    setKey true (ascii "layout." ++ text) key val = regionKey (ascii "layout." ++ text) key val := by
  simp [setKey, ascii_layout, ascii_model, ascii_system]

theorem setKey_context :
    setKey false (ascii "context." ++ text) key val = contextKey (ascii "context." ++ text) key val := by
  simp [setKey, ascii_context, ascii_model, ascii_system]

end Texts

theorem joinSep_cons {a : UInt8} {t u : List UInt8} {ts : List (List UInt8)} :
    joinSep a (t :: u :: ts) = t ++ a :: joinSep a (u :: ts) := by
  simp [joinSep, List.intercalate_cons_of_ne_nil]

theorem joinSep_singleton {a : UInt8} {t : List UInt8} : joinSep a [t] = t := by
  simp [joinSep]

/-- The parts of a header. -/
structure PlainParts (parts : List (List UInt8)) : Prop where
  ne_nil : ∀ part ∈ parts, part ≠ []
  bytes : ∀ part ∈ parts, ∀ c ∈ part, IsNameByte c
  length_lt : (joinSep '.'.toUInt8 parts).length < 64

theorem PlainParts.plainHeader {parts : List (List UInt8)} (h : PlainParts parts) :
    PlainHeader (joinSep '.'.toUInt8 parts) := by
  refine ⟨fun c hc hmem => ?_, h.length_lt⟩
  rcases mem_joinSep hc with rfl | ⟨part, hpart, hc⟩
  · revert hmem
    decide
  · refine h.bytes part hpart c hc ?_
    simp only [List.mem_cons] at hmem ⊢
    tauto

theorem PlainParts.tokens {parts : List (List UInt8)} (h : PlainParts parts) :
    tokens (· == '.'.toUInt8) (joinSep '.'.toUInt8 parts) = parts :=
  tokens_joinSep h.ne_nil fun part hpart hmem => absurd (h.bytes part hpart _ hmem) (by decide)

theorem plainKey {key : List UInt8} (h : key ∈ iniWords) : PlainKey key := by
  obtain ⟨hne, hbytes, hlength⟩ := iniWords_spec key h
  exact ⟨fun c hc => notMem_of_letter (hbytes c hc) rfl,
    fun c hc => notMem_of_letter (hbytes c (List.mem_of_head? hc)) rfl, hne, hlength⟩

/-! ## The system -/

theorem systemKey_version (text : List UInt8) (v : UInt8) :
    systemKey text (ascii "config_version") (decimal v) = modifyConfig fun cfg => { cfg with version := v } := by
  rw [systemKey, if_pos rfl, parseU8Strict_decimal]

theorem systemKey_active_model (text : List UInt8) (name : Name) :
    systemKey text (ascii "active_model") name.val = modifyConfig fun cfg => { cfg with active_model := name } := by
  have hversion : ascii "active_model" ≠ ascii "config_version" := ascii_ne (by decide)
  rw [systemKey, if_neg hversion, if_pos rfl, copyName_val]

theorem systemKey_boot_context (text : List UInt8) {v : UInt8} (hv : v < 16) :
    systemKey text (ascii "boot_context") (decimal v) = modifyConfig fun cfg => { cfg with boot_context := v } := by
  have hversion : ascii "boot_context" ≠ ascii "config_version" := ascii_ne (by decide)
  have hactive : ascii "boot_context" ≠ ascii "active_model" := ascii_ne (by decide)
  rw [systemKey, if_neg hversion, if_neg hactive, if_pos rfl, parseContextIdStrict_decimal hv]

theorem reads_system {cfg : MemoryConfig} (hname : cfg.active_model.Writable) (hboot : cfg.boot_context < 16) :
    Reads (·.cfg = .empty) cfg.systemLines (·.cfg = { cfg with models := [], layouts := [], contexts := [] }) := by
  have hword : ascii "system" ∈ iniWords := by simp [iniWords]
  have hparts : PlainParts [ascii "system"] := by
    refine ⟨?_, ?_, ?_⟩
    · simpa using (iniWords_spec _ hword).1
    · simpa using isNameByte_word hword
    · rw [joinSep_singleton]
      exact lt_of_le_of_lt (iniWords_spec _ hword).2.2 (by decide)
  have hheader : Reads (·.cfg = .empty) [headerLine [ascii "system"]] (·.Stands .empty (ascii "system") none) := by
    refine reads_header hparts.plainHeader ?_
    rw [joinSep_singleton, openSection_system]
    exact Gives.pure fun _ => id
  have hkey : ∀ (c : MemoryConfig) {key val : List UInt8} {f : MemoryConfig → MemoryConfig},
      PlainKey key → PlainValue val → systemKey (ascii "system") key val = modifyConfig f →
      Reads (·.Stands c (ascii "system") none) [keyLine key val] (·.Stands (f c) (ascii "system") none) := by
    intro c key val f hkey hval heq
    refine reads_key hkey hval ?_
    rw [Option.isSome_none, setKey_system, heq]
    exact Gives.modifyConfig rfl
  have hversion := hkey .empty (plainKey (by simp [iniWords])) (plainValue_decimal cfg.version) (systemKey_version _ _)
  have hactive := hkey { MemoryConfig.empty with version := cfg.version } (plainKey (by simp [iniWords]))
    (plainValue_of_nameBytes hname.2 cfg.active_model.property) (systemKey_active_model _ _)
  have hboot := hkey { MemoryConfig.empty with version := cfg.version, active_model := cfg.active_model }
    (plainKey (by simp [iniWords])) (plainValue_decimal cfg.boot_context) (systemKey_boot_context _ hboot)
  exact (hheader.cons (hversion.cons (hactive.cons hboot))).imp (fun _ => id) fun _ hend => hend.cfg

/-! ## Models -/

theorem plainParts_model {name : Name} (h : name.Writable) : PlainParts [ascii "model", name.val] := by
  have hword : ascii "model" ∈ iniWords := by simp [iniWords]
  obtain ⟨hne, -, hlength⟩ := iniWords_spec _ hword
  have hbytes := isNameByte_word hword
  refine ⟨?_, ?_, ?_⟩
  · simpa using ⟨hne, h.1⟩
  · simpa using ⟨hbytes, h.2⟩
  · have hname := name.property
    rw [joinSep_cons, joinSep_singleton, List.length_append, List.length_cons]
    simp only [MAX_MEMORY_NAME] at hname
    omega

theorem joinSep_model (name : List UInt8) :
    joinSep '.'.toUInt8 [ascii "model", name] = ascii "model." ++ name := by
  have hword : ascii "model." = ascii "model" ++ ['.'.toUInt8] := by
    rw [ascii_model, show ascii "model" = _ from ascii_ofList _]
    rfl
  rw [joinSep_cons, joinSep_singleton, hword, List.append_assoc, List.singleton_append]

theorem findIdx?_concat {α : Type} {p : α → Bool} {l : List α} {a : α} (hl : ∀ b ∈ l, p b = false) (ha : p a = true) :
    (l ++ [a]).findIdx? p = some l.length := by
  rw [List.findIdx?_append, List.findIdx?_eq_none_iff.2 hl, List.findIdx?_singleton, if_pos ha]
  simp

theorem modify_concat {α : Type} (l : List α) (a : α) (f : α → α) : (l ++ [a]).modify l.length f = l ++ [f a] :=
  modify_append_cons l [] a f

variable {cfg : MemoryConfig}

/-- The name behind `model.` in a header. -/
theorem copyName_model (name : Name) : copyName ((ascii "model." ++ name.val).drop 6) = name := by
  rw [List.drop_append_of_le_length (by simp [ascii_model]), ascii_model]
  exact copyName_val name

theorem gives_modelHeader {name : Name} (hnew : ∀ m ∈ cfg.models, m.name ≠ name)
    (hroom : cfg.models.length < MAX_MEMORY_MODELS) :
    Gives (·.Stands cfg (ascii "model." ++ name.val) none) (modelHeader (ascii "model." ++ name.val)) ()
      (·.Stands { cfg with models := cfg.models ++ [⟨name, 0⟩] } (ascii "model." ++ name.val) none) := by
  have hname := copyName_model name
  refine Gives.get_bind fun st hst => ?_
  have hfind : ¬ (st.cfg.findModel (copyName ((ascii "model." ++ name.val).drop 6)).val).isSome = true := by
    rw [hname, hst.cfg, MemoryConfig.findModel, List.find?_isSome]
    rintro ⟨m, hm, heq⟩
    exact hnew m hm (Subtype.ext (of_decide_eq_true heq))
  have hfull : ¬ MAX_MEMORY_MODELS ≤ st.cfg.models.length := by
    rw [hst.cfg]
    exact not_le.2 hroom
  dsimp only
  rw [if_neg hfind, if_neg hfull, hname, copyName_val]
  rintro _ rfl
  exact Gives.modifyConfig rfl _ hst

theorem gives_modelKey {name : Name} {models : List MemoryModel} (hnew : ∀ m ∈ models, m.name ≠ name) (v : UInt8) :
    Gives (·.Stands { cfg with models := models ++ [⟨name, 0⟩] } (ascii "model." ++ name.val) none)
      (modelKey (ascii "model." ++ name.val) (ascii "contexts") (decimal v)) ()
      (·.cfg = { cfg with models := models ++ [⟨name, v⟩] }) := by
  have hname := copyName_model name
  refine Gives.get_bind fun st hst => ?_
  have hfind : st.cfg.models.findIdx? (·.name = name) = some models.length := by
    rw [hst.cfg]
    exact findIdx?_concat (fun m hm => decide_eq_false (hnew m hm)) (decide_eq_true rfl)
  rw [hname, hfind]
  dsimp only
  rw [if_pos rfl, parseU8Strict_decimal]
  rintro s rfl
  obtain ⟨hok, hend⟩ := Gives.modifyConfig rfl s hst
  refine ⟨hok, hend.cfg.trans ?_⟩
  simp only [modify_concat]

/-- A model is read. -/
theorem reads_model {model : MemoryModel} (hname : model.name.Writable) (hnew : ∀ m ∈ cfg.models, m.name ≠ model.name)
    (hroom : cfg.models.length < MAX_MEMORY_MODELS) :
    Reads (·.cfg = cfg) model.iniLines (·.cfg = { cfg with models := cfg.models ++ [model] }) := by
  have hheader : Reads (·.cfg = cfg) [headerLine [ascii "model", model.name.val]] (·.Stands
      { cfg with models := cfg.models ++ [⟨model.name, 0⟩] } (ascii "model." ++ model.name.val) none) := by
    refine reads_header (plainParts_model hname).plainHeader ?_
    rw [joinSep_model, openSection_model]
    exact gives_modelHeader hnew hroom
  refine hheader.cons (reads_key (plainKey (by simp [iniWords])) (plainValue_decimal _) ?_)
  rw [Option.isSome_none, setKey_model]
  exact gives_modelKey hnew model.contexts

/-! ## Regions -/

/-- The configuration with a layout whose regions are read so far, which is there from the first of them on. -/
def withRegions (cfg : MemoryConfig) (model name : Name) (regions : List MemoryLayoutRegion) : MemoryConfig :=
  if regions = [] then cfg else { cfg with layouts := cfg.layouts ++ [⟨model, name, regions⟩] }

theorem plainParts_region {model layout region : Name} (hmodel : model.Writable) (hlayout : layout.Writable)
    (hregion : region.Writable) (hfits : model.val.length + layout.val.length + region.val.length ≤ 47) :
    PlainParts [ascii "layout", model.val, layout.val, ascii "region", region.val] := by
  have hword : ascii "layout" ∈ iniWords := by simp [iniWords]
  have hword' : ascii "region" ∈ iniWords := by simp [iniWords]
  have hlength : (ascii "layout").length = 6 := length_ascii _
  have hlength' : (ascii "region").length = 6 := length_ascii _
  refine ⟨?_, ?_, ?_⟩
  · simpa using ⟨(iniWords_spec _ hword).1, hmodel.1, hlayout.1, (iniWords_spec _ hword').1, hregion.1⟩
  · simpa using ⟨isNameByte_word hword, hmodel.2, hlayout.2, isNameByte_word hword', hregion.2⟩
  · simp only [joinSep_cons, joinSep_singleton, List.length_append, List.length_cons, hlength, hlength']
    omega

theorem joinSep_layout (model : List UInt8) (parts : List (List UInt8)) :
    joinSep '.'.toUInt8 (ascii "layout" :: model :: parts) =
      ascii "layout." ++ joinSep '.'.toUInt8 (model :: parts) := by
  have hword : ascii "layout." = ascii "layout" ++ ['.'.toUInt8] := by
    rw [ascii_layout, show ascii "layout" = _ from ascii_ofList _]
    rfl
  rw [joinSep_cons, hword, List.append_assoc, List.singleton_append]

section Layout

variable {model name : Name} {text : List UInt8} {regions : List MemoryLayoutRegion}

/-- The layout of a region is found where it stands, or appended. -/
theorem gives_selectLayout (hnew : ∀ l ∈ cfg.layouts, ¬ (l.model = model ∧ l.name = name))
    (hroom : cfg.layouts.length < MAX_MEMORY_LAYOUTS) :
    Gives (·.Stands (withRegions cfg model name regions) text none) (selectLayout text model name) cfg.layouts.length
      (·.Stands { cfg with layouts := cfg.layouts ++ [⟨model, name, regions⟩] } text none) := by
  refine Gives.get_bind fun st hst => ?_
  have hnone : ∀ l ∈ cfg.layouts, decide (l.model = model ∧ l.name = name) = false :=
    fun l hl => decide_eq_false (hnew l hl)
  -- The first region of a layout appends it, and the others find it at the end.
  rcases eq_or_ne regions [] with rfl | hregions
  · have hcfg : st.cfg = cfg := hst.cfg.trans (if_pos rfl)
    have hfind : st.cfg.layouts.findIdx? (fun l => l.model = model ∧ l.name = name) = none := by
      rw [hcfg]
      exact List.findIdx?_eq_none_iff.2 hnone
    have hfull : ¬ MAX_MEMORY_LAYOUTS ≤ st.cfg.layouts.length := by
      rw [hcfg]
      exact not_le.2 hroom
    dsimp only
    rw [hfind]
    dsimp only
    rw [if_neg hfull, copyName_val, copyName_val, hcfg]
    rintro s rfl
    exact ⟨rfl, by rw [← hcfg]; rfl, hst.sectionText, hst.currentLayout, hst.currentRegion⟩
  · have hcfg : st.cfg = { cfg with layouts := cfg.layouts ++ [⟨model, name, regions⟩] } :=
      hst.cfg.trans (if_neg hregions)
    have hfind : st.cfg.layouts.findIdx? (fun l => l.model = model ∧ l.name = name) = some cfg.layouts.length := by
      rw [hcfg]
      exact findIdx?_concat hnone (decide_eq_true ⟨rfl, rfl⟩)
    dsimp only
    rw [hfind]
    rintro s rfl
    exact ⟨rfl, hcfg, hst.sectionText, hst.currentLayout, hst.currentRegion⟩

theorem gives_layoutHeader {region : Name}
    (hparts : PlainParts [ascii "layout", model.val, name.val, ascii "region", region.val])
    (htext : text = joinSep '.'.toUInt8 [ascii "layout", model.val, name.val, ascii "region", region.val])
    (hnew : ∀ l ∈ cfg.layouts, ¬ (l.model = model ∧ l.name = name)) (hroom : cfg.layouts.length < MAX_MEMORY_LAYOUTS)
    (hregion : ∀ r ∈ regions, r.name ≠ region) (hspace : regions.length < MAX_MEMORY_REGIONS) :
    Gives (·.Stands (withRegions cfg model name regions) text none) (layoutHeader text) ()
      (·.Stands { cfg with layouts := cfg.layouts ++
          [⟨model, name, regions ++ [⟨region, 0, 0, false, MemoryRegionType.MEMORY_REGION_NORMAL, false⟩]⟩] } text
        (some (cfg.layouts.length, regions.length))) := by
  have htokens : (tokens (· == '.'.toUInt8) text).take 5 =
      [ascii "layout", model.val, name.val, ascii "region", region.val] := by
    rw [htext, hparts.tokens]
    rfl
  rw [layoutHeader, htokens]
  dsimp only
  rw [if_neg (by simp), copyName_val, copyName_val, copyName_val]
  refine (gives_selectLayout hnew hroom).bind ?_
  refine Gives.bind (Gives.modify (Q := fun st =>
    st.cfg = { cfg with layouts := cfg.layouts ++ [⟨model, name, regions⟩] } ∧ st.sectionText = text ∧
      st.currentLayout = some cfg.layouts.length) fun st hst => ⟨hst.cfg, hst.sectionText, rfl⟩) ?_
  refine Gives.get_bind fun st hst => ?_
  have hlayout : st.cfg.layouts[cfg.layouts.length]?.getD ⟨Name.empty, Name.empty, []⟩ = ⟨model, name, regions⟩ := by
    rw [hst.1]
    simp
  have hfind : ¬ (MemoryLayout.findRegion ⟨model, name, regions⟩ region.val).isSome = true := by
    rw [MemoryLayout.findRegion, List.find?_isSome]
    rintro ⟨r, hr, heq⟩
    exact hregion r hr (Subtype.ext (of_decide_eq_true heq))
  rw [hlayout, if_neg hfind, if_neg (not_le.2 hspace), copyName_val]
  refine Gives.bind (Gives.modify (Q := fun st => st.cfg = { cfg with layouts := cfg.layouts ++
      [⟨model, name, regions ++ [⟨region, 0, 0, false, MemoryRegionType.MEMORY_REGION_NORMAL, false⟩]⟩] } ∧
    st.sectionText = text ∧ st.currentLayout = some cfg.layouts.length) ?_)
    (Gives.modify fun st hst => ⟨hst.1, hst.2.1, hst.2.2, rfl⟩)
  rintro s rfl
  refine ⟨?_, hst.2⟩
  simp only [hst.1, modify_concat]

theorem gives_modifyRegion {region : MemoryLayoutRegion} (f : MemoryLayoutRegion → MemoryLayoutRegion) :
    Gives (·.Stands { cfg with layouts := cfg.layouts ++ [⟨model, name, regions ++ [region]⟩] } text
        (some (cfg.layouts.length, regions.length))) (modifyRegion f) ()
      (·.Stands { cfg with layouts := cfg.layouts ++ [⟨model, name, regions ++ [f region]⟩] } text
        (some (cfg.layouts.length, regions.length))) := by
  refine Gives.modify fun st hst => ?_
  obtain ⟨hcfg, htext, hlayout, hregion⟩ := hst
  simp only [Option.map_some] at hlayout hregion
  simp only [hlayout, hregion]
  exact ⟨by simp only [hcfg, modify_concat], htext, rfl, rfl⟩

theorem regionKey_start (v : UInt8) :
    regionKey text (ascii "start") (decimal v) = modifyRegion fun region => { region with start := v } := by
  rw [regionKey, if_pos rfl, parseU8Strict_decimal]

theorem regionKey_pages (v : UInt8) :
    regionKey text (ascii "pages") (decimal v) = modifyRegion fun region => { region with pages := v } := by
  have hstart : ascii "pages" ≠ ascii "start" := ascii_ne (by decide)
  rw [regionKey, if_neg hstart, if_pos rfl, parseU8Strict_decimal]

theorem regionKey_shared (b : Bool) :
    regionKey text (ascii "shared") (boolText b) = modifyRegion fun region => { region with shared := b } := by
  have hstart : ascii "shared" ≠ ascii "start" := ascii_ne (by decide)
  have hpages : ascii "shared" ≠ ascii "pages" := ascii_ne (by decide)
  rw [regionKey, if_neg hstart, if_neg hpages, if_pos rfl, parseBoolValue_boolText]

theorem regionKey_trap_write (b : Bool) :
    regionKey text (ascii "trap_write") (boolText b) = modifyRegion fun region => { region with trap_write := b } := by
  have hstart : ascii "trap_write" ≠ ascii "start" := ascii_ne (by decide)
  have hpages : ascii "trap_write" ≠ ascii "pages" := ascii_ne (by decide)
  have hshared : ascii "trap_write" ≠ ascii "shared" := ascii_ne (by decide)
  rw [regionKey, if_neg hstart, if_neg hpages, if_neg hshared, if_pos rfl, parseBoolValue_boolText]

theorem regionKey_type (type : MemoryRegionType) :
    regionKey text (ascii "type") type.text = modifyRegion fun region => { region with type := type } := by
  have hstart : ascii "type" ≠ ascii "start" := ascii_ne (by decide)
  have hpages : ascii "type" ≠ ascii "pages" := ascii_ne (by decide)
  have hshared : ascii "type" ≠ ascii "shared" := ascii_ne (by decide)
  have htrap : ascii "type" ≠ ascii "trap_write" := ascii_ne (by decide)
  have hio : ascii "normal" ≠ ascii "io" := ascii_ne (by decide)
  rw [regionKey, if_neg hstart, if_neg hpages, if_neg hshared, if_neg htrap, if_pos rfl]
  cases type with
  | MEMORY_REGION_NORMAL => rw [MemoryRegionType.text, if_neg hio, if_pos rfl]
  | MEMORY_REGION_IO => rw [MemoryRegionType.text, if_pos rfl]

/-- A region is read. -/
theorem reads_region {region : MemoryLayoutRegion} (hmodel : model.Writable) (hname : name.Writable)
    (hregion : region.name.Writable) (hfits : model.val.length + name.val.length + region.name.val.length ≤ 47)
    (hnew : ∀ l ∈ cfg.layouts, ¬ (l.model = model ∧ l.name = name)) (hroom : cfg.layouts.length < MAX_MEMORY_LAYOUTS)
    (hdistinct : ∀ r ∈ regions, r.name ≠ region.name) (hspace : regions.length < MAX_MEMORY_REGIONS) :
    Reads (·.cfg = withRegions cfg model name regions) (region.iniLines model name)
      (·.cfg = withRegions cfg model name (regions ++ [region])) := by
  have hparts := plainParts_region hmodel hname hregion hfits
  obtain ⟨text, htext⟩ : ∃ text, joinSep '.'.toUInt8 [ascii "layout", model.val, name.val, ascii "region",
      region.name.val] = ascii "layout." ++ text := ⟨_, joinSep_layout _ _⟩
  have hopen := gives_layoutHeader hparts htext.symm hnew hroom hdistinct hspace
  rw [← openSection_layout] at hopen
  have hheader := reads_header (htext ▸ hparts.plainHeader) hopen
  have hline : headerLine [ascii "layout", model.val, name.val, ascii "region", region.name.val] =
      '['.toUInt8 :: (ascii "layout." ++ text ++ [']'.toUInt8]) := by rw [headerLine, htext]
  have hkey : ∀ (r : MemoryLayoutRegion) {key val : List UInt8} {f : MemoryLayoutRegion → MemoryLayoutRegion},
      PlainKey key → PlainValue val → regionKey (ascii "layout." ++ text) key val = modifyRegion f →
      Reads (·.Stands { cfg with layouts := cfg.layouts ++ [⟨model, name, regions ++ [r]⟩] } (ascii "layout." ++ text)
          (some (cfg.layouts.length, regions.length))) [keyLine key val]
        (·.Stands { cfg with layouts := cfg.layouts ++ [⟨model, name, regions ++ [f r]⟩] } (ascii "layout." ++ text)
          (some (cfg.layouts.length, regions.length))) := by
    intro r key val f hkey hval heq
    refine reads_key hkey hval ?_
    rw [Option.isSome_some, setKey_layout, heq]
    exact gives_modifyRegion f
  have hstart := hkey ⟨region.name, 0, 0, false, MemoryRegionType.MEMORY_REGION_NORMAL, false⟩
    (plainKey (by simp [iniWords])) (plainValue_decimal region.start) (regionKey_start _)
  have hpages := hkey ⟨region.name, region.start, 0, false, MemoryRegionType.MEMORY_REGION_NORMAL, false⟩
    (plainKey (by simp [iniWords])) (plainValue_decimal region.pages) (regionKey_pages _)
  have hshared := hkey ⟨region.name, region.start, region.pages, false, MemoryRegionType.MEMORY_REGION_NORMAL, false⟩
    (plainKey (by simp [iniWords])) (plainValue_boolText region.shared) (regionKey_shared _)
  have htrap := hkey ⟨region.name, region.start, region.pages, region.shared,
    MemoryRegionType.MEMORY_REGION_NORMAL, false⟩ (plainKey (by simp [iniWords]))
    (plainValue_boolText region.trap_write) (regionKey_trap_write _)
  have htypes := hkey ⟨region.name, region.start, region.pages, region.shared, MemoryRegionType.MEMORY_REGION_NORMAL,
    region.trap_write⟩ (plainKey (by simp [iniWords])) (plainValue_typeText region.type) (regionKey_type _)
  rw [MemoryLayoutRegion.iniLines, hline]
  exact (hheader.cons (hstart.cons (hpages.cons (hshared.cons (htrap.cons htypes))))).imp (fun _ => id)
    fun _ hend => hend.cfg.trans (if_neg (List.concat_ne_nil _ _)).symm

end Layout

/-! ## Contexts -/

theorem plainParts_context {model : Name} (h : model.Writable) (ctx : UInt8) :
    PlainParts [ascii "context", model.val, decimal ctx] := by
  have hword : ascii "context" ∈ iniWords := by simp [iniWords]
  obtain ⟨hne, -, hlength⟩ := iniWords_spec _ hword
  have hbytes := isNameByte_word hword
  have hdigits := length_decimal ctx
  have hmodel := model.property
  refine ⟨?_, ?_, ?_⟩
  · simpa using ⟨hne, h.1, decimal_ne_nil ctx⟩
  · simpa using ⟨hbytes, h.2, decimal_bytes ctx⟩
  · simp only [joinSep_cons, joinSep_singleton, List.length_append, List.length_cons]
    simp only [MAX_MEMORY_NAME] at hmodel
    omega

theorem joinSep_context (model : List UInt8) (parts : List (List UInt8)) :
    joinSep '.'.toUInt8 (ascii "context" :: model :: parts) =
      ascii "context." ++ joinSep '.'.toUInt8 (model :: parts) := by
  have hword : ascii "context." = ascii "context" ++ ['.'.toUInt8] := by
    rw [ascii_context, show ascii "context" = _ from ascii_ofList _]
    rfl
  rw [joinSep_cons, hword, List.append_assoc, List.singleton_append]

section Context

variable {model : Name} {ctx : UInt8} {text : List UInt8} {contexts : List MemoryContextBinding}

theorem contextParts_eq (hparts : PlainParts [ascii "context", model.val, decimal ctx])
    (htext : text = joinSep '.'.toUInt8 [ascii "context", model.val, decimal ctx]) (hctx : ctx < 16) :
    contextParts text = pure (model.val, decimal ctx, ctx) := by
  have htokens : (tokens (· == '.'.toUInt8) text).take 3 = [ascii "context", model.val, decimal ctx] := by
    rw [htext, hparts.tokens]
    rfl
  rw [contextParts, htokens]
  dsimp only
  rw [if_neg (by simp), parseContextIdStrict_decimal hctx]

theorem gives_contextHeader (hparts : contextParts text = pure (model.val, decimal ctx, ctx))
    (hnew : ∀ b ∈ cfg.contexts, ¬ (b.model = model ∧ b.context = ctx))
    (hroom : cfg.contexts.length < MAX_MEMORY_CONTEXTS) :
    Gives (·.Stands cfg text none) (contextHeader text) ()
      (·.Stands { cfg with contexts := cfg.contexts ++ [⟨model, ctx, Name.empty⟩] } text none) := by
  rw [contextHeader, hparts, pure_bind]
  refine Gives.get_bind fun st hst => ?_
  have hfind : ¬ (st.cfg.findContextBinding model.val ctx).isSome = true := by
    rw [hst.cfg, MemoryConfig.findContextBinding, List.find?_isSome]
    rintro ⟨b, hb, heq⟩
    obtain ⟨hmodel, hcontext⟩ := of_decide_eq_true heq
    exact hnew b hb ⟨Subtype.ext hmodel, hcontext⟩
  have hfull : ¬ MAX_MEMORY_CONTEXTS ≤ st.cfg.contexts.length := by
    rw [hst.cfg]
    exact not_le.2 hroom
  dsimp only
  rw [if_neg hfind, if_neg hfull, copyName_val]
  rintro _ rfl
  exact Gives.modifyConfig rfl _ hst

variable (cfg) in
theorem gives_contextKey (hparts : contextParts text = pure (model.val, decimal ctx, ctx))
    (hnew : ∀ b ∈ contexts, ¬ (b.model = model ∧ b.context = ctx)) (layout : Name) :
    Gives (·.Stands { cfg with contexts := contexts ++ [⟨model, ctx, Name.empty⟩] } text none)
      (contextKey text (ascii "layout") layout.val) ()
      (·.cfg = { cfg with contexts := contexts ++ [⟨model, ctx, layout⟩] }) := by
  rw [contextKey, hparts, pure_bind]
  refine Gives.get_bind fun st hst => ?_
  have hfind : st.cfg.contexts.findIdx? (fun b => b.model.val = model.val ∧ b.context = ctx) =
      some contexts.length := by
    rw [hst.cfg]
    exact findIdx?_concat (fun b hb => decide_eq_false fun h => hnew b hb ⟨Subtype.ext h.1, h.2⟩)
      (decide_eq_true ⟨rfl, rfl⟩)
  rw [hfind]
  dsimp only
  rw [if_pos rfl, copyName_val]
  rintro s rfl
  obtain ⟨hok, hend⟩ := Gives.modifyConfig rfl s hst
  refine ⟨hok, hend.cfg.trans ?_⟩
  simp only [modify_concat]

end Context

/-- A context is read. -/
theorem reads_context {binding : MemoryContextBinding} (hmodel : binding.model.Writable)
    (hlayout : binding.layout.Writable) (hctx : binding.context < 16)
    (hnew : ∀ b ∈ cfg.contexts, ¬ (b.model = binding.model ∧ b.context = binding.context))
    (hroom : cfg.contexts.length < MAX_MEMORY_CONTEXTS) :
    Reads (·.cfg = cfg) binding.iniLines (·.cfg = { cfg with contexts := cfg.contexts ++ [binding] }) := by
  have hplain := plainParts_context hmodel binding.context
  obtain ⟨text, htext⟩ : ∃ text, joinSep '.'.toUInt8 [ascii "context", binding.model.val, decimal binding.context] =
      ascii "context." ++ text := ⟨_, joinSep_context _ _⟩
  have hparts := contextParts_eq hplain htext.symm hctx
  have hopen := gives_contextHeader hparts hnew hroom
  rw [← openSection_context] at hopen
  have hheader := reads_header (htext ▸ hplain.plainHeader) hopen
  have hset := gives_contextKey cfg hparts hnew binding.layout
  rw [← setKey_context] at hset
  have hkey := reads_key (plainKey (by simp [iniWords]))
    (plainValue_of_nameBytes hlayout.2 binding.layout.property) hset
  have hline : headerLine [ascii "context", binding.model.val, decimal binding.context] =
      '['.toUInt8 :: (ascii "context." ++ text ++ [']'.toUInt8]) := by rw [headerLine, htext]
  rw [MemoryContextBinding.iniLines, hline]
  exact hheader.cons hkey

/-! ## The file -/

/-- An item is new behind the items before it. -/
theorem notMem_of_front {α β : Type} {f : α → β} {pre items : List α} {a : α} (h : (items.map f).Nodup)
    (hpre : pre ++ [a] <+: items) : ∀ b ∈ pre, f b ≠ f a := by
  have hnodup : ((pre ++ [a]).map f).Nodup := h.sublist (hpre.map f).sublist
  rw [List.map_append, List.nodup_append] at hnodup
  intro b hb
  exact hnodup.2.2 _ (List.mem_map_of_mem hb) _ (List.mem_map_of_mem List.mem_cons_self)

/-- There is room for an item when there is room for all. -/
theorem length_lt_of_front {α : Type} {pre items : List α} {a : α} {n : Nat} (h : items.length ≤ n)
    (hpre : pre ++ [a] <+: items) : pre.length < n := by
  have hlength := hpre.length_le
  rw [List.length_append, List.length_singleton] at hlength
  omega

theorem mem_of_front {α : Type} {pre items : List α} {a : α} (hpre : pre ++ [a] <+: items) : a ∈ items :=
  hpre.subset (List.mem_append_right _ List.mem_cons_self)

theorem reads_models (h : cfg.Writable) :
    Reads (·.cfg = { cfg with models := [], layouts := [], contexts := [] }) (cfg.models.flatMap (·.iniLines))
      (·.cfg = { cfg with layouts := [], contexts := [] }) := by
  refine Reads.flatMap (fun pre st => st.cfg = { cfg with models := pre, layouts := [], contexts := [] })
    fun pre model hpre => ?_
  have hname : model.name ∈ cfg.names := by
    simp only [MemoryConfig.names, List.mem_append, List.mem_cons, List.mem_map]
    exact .inl (.inl (.inr ⟨model, mem_of_front hpre, rfl⟩))
  exact reads_model (h.names _ hname) (notMem_of_front h.named.models hpre)
    (length_lt_of_front h.bounded.models hpre)

/-- A layout is read with its regions. -/
theorem reads_layout (h : cfg.Writable) {pre : List MemoryLayout} {layout : MemoryLayout}
    (hpre : pre ++ [layout] <+: cfg.layouts) :
    Reads (·.cfg = { cfg with layouts := pre, contexts := [] }) layout.iniLines
      (·.cfg = { cfg with layouts := pre ++ [layout], contexts := [] }) := by
  have hlayout := mem_of_front hpre
  have hnames : ∀ name ∈ layout.model :: layout.name :: layout.regions.map (·.name), name.Writable := by
    intro name hname
    refine h.names name (List.mem_append_left _ (List.mem_append_right _ ?_))
    exact List.mem_flatMap.2 ⟨layout, hlayout, hname⟩
  have hnew := notMem_of_front h.named.layouts hpre
  -- Nothing of the layout is there before its first region, which is why it needs one.
  refine (Reads.flatMap (fun regions st => st.cfg = withRegions { cfg with layouts := pre, contexts := [] } layout.model
    layout.name regions) fun regions region hregions => ?_).imp (fun _ hst => hst.trans (if_pos rfl).symm)
    fun _ hst => hst.trans (if_neg (h.regions layout hlayout))
  have hregion := mem_of_front hregions
  refine reads_region ?_ ?_ ?_ (h.fits layout hlayout region hregion) ?_ ?_ ?_ ?_
  · exact hnames _ List.mem_cons_self
  · exact hnames _ (List.mem_cons_of_mem _ List.mem_cons_self)
  · exact hnames _ (List.mem_cons_of_mem _ (List.mem_cons_of_mem _ (List.mem_map_of_mem hregion)))
  · exact fun l hl heq => hnew l hl (Prod.ext heq.1 heq.2)
  · exact length_lt_of_front h.bounded.layouts hpre
  · exact notMem_of_front (h.distinct layout hlayout) hregions
  · exact length_lt_of_front (h.bounded.regions layout hlayout) hregions

theorem reads_contexts (h : cfg.Writable) :
    Reads (·.cfg = { cfg with contexts := [] }) (cfg.contexts.flatMap (·.iniLines)) (·.cfg = cfg) := by
  refine Reads.flatMap (fun pre st => st.cfg = { cfg with contexts := pre }) fun pre binding hpre => ?_
  have hbinding := mem_of_front hpre
  have hnames : ∀ name ∈ [binding.model, binding.layout], name.Writable := fun name hname =>
    h.names name (List.mem_append_right _ (List.mem_flatMap.2 ⟨binding, hbinding, hname⟩))
  refine reads_context ?_ ?_ (h.contexts binding hbinding) ?_ ?_
  · exact hnames _ List.mem_cons_self
  · exact hnames _ (List.mem_cons_of_mem _ List.mem_cons_self)
  · exact fun b hb heq => notMem_of_front h.bindings hpre b hb (Prod.ext heq.1 heq.2)
  · exact length_lt_of_front h.bounded.contexts hpre

/-- The lines of a configuration are read one by one, and build it. -/
theorem reads_iniLines (h : cfg.Writable) : Reads (·.cfg = .empty) cfg.iniLines (·.cfg = cfg) := by
  have hactive : cfg.active_model ∈ cfg.names := by simp [MemoryConfig.names]
  have hlayouts : Reads (·.cfg = { cfg with layouts := [], contexts := [] }) (cfg.layouts.flatMap (·.iniLines))
      (·.cfg = { cfg with contexts := [] }) :=
    Reads.flatMap (fun pre st => st.cfg = { cfg with layouts := pre, contexts := [] }) fun _ _ => reads_layout h
  exact (((reads_system (h.names _ hactive) h.boot_context).append (reads_models h)).append hlayouts).append
    (reads_contexts h)

theorem result_bind_of_ok {α β : Type} {p : Parser α} {f : α → Parser β} {st : ParseState} {a : α}
    (h : p.run.result st = .ok a) : (p >>= f).run.result st = (f a).run.result (p.run.final st) := by
  rw [ExceptT.run_bind, Prog.result_bind, h]

theorem result_validate (st : ParseState) : validate.run.result st = validateConfig st.cfg := by
  rw [validate, result_get_bind]
  rcases validateConfig st.cfg with e | ⟨⟩
  · rfl
  · rfl

end Parser

/-- The text of a configuration is read back as that configuration, and is accepted exactly when the configuration
passes the validation. -/
theorem written_config_read_back {cfg : MemoryConfig} (h : cfg.Writable) :
    parseMemoryIni cfg.toIni = (validateConfig cfg, cfg) := by
  obtain ⟨hplain, hgives⟩ := Parser.reads_iniLines h
  obtain ⟨hok, hend⟩ := hgives .initial rfl
  have hparse : Parser.parse cfg.toIni = cfg.iniLines.forM Parser.readBuffer >>= fun _ => Parser.validate := by
    rw [← readLines_flatMap hplain]
    rfl
  rw [parseMemoryIni, hparse, Parser.final_bind_ok hok, Parser.final_validate, Parser.result_bind_of_ok hok,
    Parser.result_validate, hend]

theorem writable_twoContexts : twoContexts.Writable := by
  have hchecks : (∀ name ∈ twoContexts.names, name.val ≠ [] ∧ ∀ c ∈ name.val, IsNameByte c) ∧
      (∀ layout ∈ twoContexts.layouts, (layout.regions.map (·.name)).Nodup) ∧
      (twoContexts.contexts.map fun b => (b.model, b.context)).Nodup ∧
      ∀ layout ∈ twoContexts.layouts, ∀ region ∈ layout.regions,
        layout.model.val.length + layout.name.val.length + region.name.val.length ≤ 47 := by
    decide +kernel
  obtain ⟨hnames, hdistinct, hbindings, hfits⟩ := hchecks
  refine ⟨hnames, ⟨?_, ?_, ?_, ?_⟩, ⟨?_, ?_⟩, hdistinct, hbindings, ?_, hfits, ?_, ?_⟩
  · decide
  · decide
  · decide
  · decide
  · exact List.nodup_singleton _
  · exact List.nodup_singleton _
  · decide
  · decide
  · decide

theorem twoContexts_read_back : parseMemoryIni twoContexts.toIni = (validateConfig twoContexts, twoContexts) :=
  written_config_read_back writable_twoContexts

end NeoMmu
