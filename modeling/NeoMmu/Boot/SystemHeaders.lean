import NeoMmu.Boot.SystemIni
import NeoMmu.Memory.Validation

/-!
# The headers of system.ini

The syntax that `sys_config.cpp` documents, and what `parseSystemIni()` makes of it. The headers of an
accepted file follow the syntax exactly when their dots are single, there are at most three of them and a
context number starts with a digit: the tokenizer joins neighbouring dots and is not asked for a fifth
part, and `strtol()` reads a sign.
-/

namespace NeoMmu

/-! ## The documented syntax -/

/-- The number that some digits stand for. -/
def decimalValue (digits : List UInt8) : Nat := digits.foldl (fun n c => n * 10 + (c - '0'.toUInt8).toNat) 0

/-- A decimal numeral below a bound. -/
structure IsNumeral (bound : Nat) (s : List UInt8) : Prop where
  nonempty : s ≠ []
  digits : ∀ c ∈ s, isDigit c = true
  below : decimalValue s < bound

/-- The text of a header. Blanks may stand around an identifier and around a context number. -/
inductive HeaderSyntax : List UInt8 → Prop
  | system : HeaderSyntax (ascii "system")
  | cartridge {name : List UInt8} : isValidIdentifier (trim name) = true →
      HeaderSyntax (ascii "cartridge." ++ name)
  | config {name : List UInt8} : isValidIdentifier (trim name) = true →
      HeaderSyntax (ascii "config." ++ name)
  | context {name context : List UInt8} : isValidIdentifier (trim name) = true →
      IsNumeral 128 (trim context) →
      HeaderSyntax (ascii "config." ++ name ++ ascii ".context." ++ context)

/-- The lines of a file. -/
def fileLines (file : List UInt8) : List (List UInt8) := file.splitOnP (· == '\n'.toUInt8)

/-- The trimmed text between `[` and the first `]` of a header line. -/
def headerText (line : List UInt8) : Option (List UInt8) :=
  match stripLine line with
  | [] => none
  | c :: cs => if c = '['.toUInt8 then some (trim (cs.takeWhile (· != ']'.toUInt8))) else none

/-! ## Single dots -/

/-- The parts of a header between single dots. -/
def dotParts (text : List UInt8) : List (List UInt8) := text.splitOn '.'.toUInt8

/-- A header of a configuration has at most four parts, none empty, and the fourth one starts with a digit. -/
structure TidyParts (parts : List (List UInt8)) : Prop where
  nonempty : [] ∉ parts
  short : parts.length ≤ 4
  numeral : ∀ context ∈ parts[3]?, (trim context).head?.any isDigit = true

instance : DecidablePred TidyParts := fun parts =>
  decidable_of_iff ([] ∉ parts ∧ parts.length ≤ 4 ∧
      ∀ context ∈ parts[3]?, (trim context).head?.any isDigit = true)
    ⟨fun ⟨hnonempty, hshort, hnumeral⟩ => ⟨hnonempty, hshort, hnumeral⟩,
      fun ⟨hnonempty, hshort, hnumeral⟩ => ⟨hnonempty, hshort, hnumeral⟩⟩

/-- Headers of other kinds are not cut at dots. -/
def TidyHeader (text : List UInt8) : Prop :=
  (ascii "config.").isPrefixOf text = true → TidyParts (dotParts text)

instance : DecidablePred TidyHeader := fun text =>
  inferInstanceAs (Decidable ((ascii "config.").isPrefixOf text = true → TidyParts (dotParts text)))

/-- A header with no empty part is its tokens. -/
theorem tokens_eq_dotParts {text : List UInt8} (h : [] ∉ dotParts text) :
    tokens (· == '.'.toUInt8) text = dotParts text := by
  rw [tokens, ← List.splitOn_eq_splitOnP]
  refine List.filter_eq_self.2 ?_
  intro part hpart
  have hne : part ≠ [] := fun hnil => h (hnil ▸ hpart)
  simpa using hne

theorem joinSep_dotParts (text : List UInt8) : joinSep '.'.toUInt8 (dotParts text) = text :=
  List.intercalate_splitOn '.'.toUInt8

/-! ## Numerals -/

/-- `strtol()` on a string that starts with a digit. -/
theorem strtol10_of_isDigit {c : UInt8} {cs : List UInt8} (h : isDigit c = true) :
    strtol10 (c :: cs) =
      some (max (-2147483648) (min (decimalValue ((c :: cs).takeWhile isDigit) : Int) 2147483647),
        (c :: cs).dropWhile isDigit) := by
  have hplain : ∀ c : UInt8, isDigit c = true →
      (c = 32 || (9 ≤ c && c ≤ 13)) = false ∧ c ≠ '-'.toUInt8 ∧ c ≠ '+'.toUInt8 := by decide +kernel
  obtain ⟨hblank, hminus, hplus⟩ := hplain c h
  have hdigits : (c :: cs).takeWhile isDigit ≠ [] := by
    rw [List.takeWhile_cons_of_pos h]
    exact List.cons_ne_nil _ _
  unfold strtol10
  rw [List.dropWhile_cons_of_neg (by simpa using hblank)]
  simp only [List.head?_cons, Option.some.injEq, hminus, hplus, or_self, if_false, hdigits]
  rfl

/-- A number that starts with a digit and fills its string is a numeral. -/
theorem isNumeral_of_parseContextStrict {s : List UInt8} {ctx : UInt8} (h : parseContextStrict s = some ctx)
    (hdigit : s.head?.any isDigit = true) : IsNumeral 128 s := by
  match s, hdigit with
  | c :: cs, hdigit =>
    rw [parseContextStrict, strtol10_of_isDigit hdigit] at h
    dsimp only at h
    split_ifs at h with hrest hrange
    rw [not_not, List.dropWhile_eq_nil_iff] at hrest
    have hall : (c :: cs).takeWhile isDigit = c :: cs := List.takeWhile_eq_self_iff.2 hrest
    have hmax : (NUM_CONTEXTS : Int) = 128 := rfl
    rw [hall, hmax] at hrange
    exact ⟨List.cons_ne_nil c cs, hrest, by omega⟩

/-- What `trim()` cuts off are blanks. -/
theorem mem_of_notMem_trim {s : List UInt8} {c : UInt8} (h : c ∈ s) (htrim : c ∉ trim s) :
    c = ' '.toUInt8 ∨ c = '\t'.toUInt8 ∨ c = '\r'.toUInt8 ∨ c = '\n'.toUInt8 := by
  rw [← List.takeWhile_append_dropWhile (p := fun c => c = ' '.toUInt8 || c = '\t'.toUInt8) (l := s),
    List.mem_append] at h
  rcases h with hfront | hrest
  · have hblank := List.mem_takeWhile_imp hfront
    simp only [Bool.or_eq_true, decide_eq_true_eq] at hblank
    exact hblank.imp id .inl
  · rw [← List.rdropWhile_append_rtakeWhile (p := fun c => c = ' '.toUInt8 || c = '\t'.toUInt8 ||
      c = '\r'.toUInt8 || c = '\n'.toUInt8) (l := s.dropWhile _), List.mem_append] at hrest
    have hblank := List.mem_rtakeWhile_imp (hrest.resolve_left htrim)
    simpa only [Bool.or_eq_true, decide_eq_true_eq, or_assoc] using hblank

theorem dot_notMem_of_isValidIdentifier {name : List UInt8} (h : isValidIdentifier name = true) :
    '.'.toUInt8 ∉ name := by
  have hdot : isAlpha '.'.toUInt8 = false ∧
    (isAlpha '.'.toUInt8 || isDigit '.'.toUInt8 || '.'.toUInt8 = '_'.toUInt8) = false := by decide
  unfold isValidIdentifier at h
  split at h
  · cases h
  · split_ifs at h with hlen halpha
    intro hmem
    rcases List.mem_cons.1 hmem with rfl | hmem
    · exact halpha hdot.1
    · exact absurd (List.all_eq_true.1 h _ hmem) (by simpa using hdot.2)

theorem dot_notMem_of_trim {s : List UInt8} (h : '.'.toUInt8 ∉ trim s) : '.'.toUInt8 ∉ s := by
  intro hmem
  have hblank := mem_of_notMem_trim hmem h
  exact absurd hblank (by decide)

/-! ## The syntax is tidy -/

theorem config_eq_joinSep (name : List UInt8) :
    ascii "config." ++ name = joinSep '.'.toUInt8 [ascii "config", name] := by
  have hconfig : ascii "config." = ascii "config" ++ ['.'.toUInt8] := by decide
  rw [hconfig]
  simp only [joinSep, List.intercalate, List.intersperse, List.flatten_cons, List.flatten_nil,
    List.append_nil, List.append_assoc]

theorem context_eq_joinSep (name context : List UInt8) :
    ascii "config." ++ name ++ ascii ".context." ++ context =
      joinSep '.'.toUInt8 [ascii "config", name, ascii "context", context] := by
  have hconfig : ascii "config." = ascii "config" ++ ['.'.toUInt8] := by decide
  have hcontext : ascii ".context." = ['.'.toUInt8] ++ ascii "context" ++ ['.'.toUInt8] := by decide
  rw [hconfig, hcontext]
  simp only [joinSep, List.intercalate, List.intersperse, List.flatten_cons, List.flatten_nil,
    List.append_nil, List.append_assoc]

theorem ne_nil_of_trim {s : List UInt8} (h : trim s ≠ []) : s ≠ [] := by
  rintro rfl
  exact h rfl

theorem ne_nil_of_isValidIdentifier {name : List UInt8} (h : isValidIdentifier name = true) : name ≠ [] := by
  rintro rfl
  cases h

theorem dotParts_joinSep {parts : List (List UInt8)} (hparts : parts ≠ [])
    (h : ∀ part ∈ parts, '.'.toUInt8 ∉ part) : dotParts (joinSep '.'.toUInt8 parts) = parts :=
  splitOn_joinSep h hparts

theorem tidy_of_headerSyntax {text : List UInt8} (h : HeaderSyntax text) : TidyHeader text := by
  have hconfig : '.'.toUInt8 ∉ ascii "config" ∧ ascii "config" ≠ [] := by decide
  have hword : '.'.toUInt8 ∉ ascii "context" ∧ ascii "context" ≠ [] := by decide
  intro hprefix
  cases h with
  | system => exact absurd hprefix (by decide)
  | @cartridge name _ =>
    have hcartridge : ascii "cartridge." = 'c'.toUInt8 :: 'a'.toUInt8 :: ascii "rtridge." := by decide
    have hc : ascii "config." = 'c'.toUInt8 :: 'o'.toUInt8 :: ascii "nfig." := by decide
    rw [hcartridge, hc] at hprefix
    cases hprefix
  | @config name hname =>
    have hdot := dot_notMem_of_trim (dot_notMem_of_isValidIdentifier hname)
    have hne := ne_nil_of_trim (ne_nil_of_isValidIdentifier hname)
    rw [config_eq_joinSep, dotParts_joinSep (by simp) (by simp [hconfig.1, hdot])]
    exact ⟨by simp [hconfig.2.symm, hne.symm], by simp, by simp⟩
  | @context name context hname hcontext =>
    have hdot := dot_notMem_of_trim (dot_notMem_of_isValidIdentifier hname)
    have hne := ne_nil_of_trim (ne_nil_of_isValidIdentifier hname)
    have hdigit : isDigit '.'.toUInt8 = false := by decide
    have hdot' : '.'.toUInt8 ∉ trim context := fun hmem =>
      absurd (hcontext.digits _ hmem) (by rw [hdigit]; exact Bool.false_ne_true)
    have hne' := ne_nil_of_trim hcontext.nonempty
    rw [context_eq_joinSep, dotParts_joinSep (by simp)
      (by simp [hconfig.1, hdot, hword.1, dot_notMem_of_trim hdot'])]
    refine ⟨by simp [hconfig.2.symm, hne.symm, hword.2.symm, hne'.symm], by simp, ?_⟩
    intro part hpart
    obtain rfl : context = part := Option.some.inj hpart
    obtain ⟨c, cs, hcs⟩ := List.exists_cons_of_ne_nil hcontext.nonempty
    have hc := hcontext.digits c (hcs ▸ List.mem_cons_self)
    rw [hcs]
    exact hc

/-! ## Headers the parser accepts -/

theorem valid_of_cartridgeHeader {name : List UInt8} {st st' : IniState}
    (h : IniState.cartridgeHeader name st = .ok st') : isValidIdentifier name = true := by
  unfold IniState.cartridgeHeader at h
  split at h
  · cases h
  · rename_i hvalid
    simpa using hvalid

theorem valid_of_configHeader {name : List UInt8} {st st' : IniState}
    (h : IniState.configHeader name st = .ok st') : isValidIdentifier name = true := by
  unfold IniState.configHeader at h
  split at h
  · cases h
  · rename_i hvalid
    simpa using hvalid

theorem valid_of_contextHeader {name context : List UInt8} {st st' : IniState}
    (h : IniState.contextHeader name context st = .ok st') :
    isValidIdentifier name = true ∧ ∃ ctx, parseContextStrict context = some ctx := by
  unfold IniState.contextHeader at h
  split at h
  · cases h
  rename_i hvalid
  refine ⟨by simpa using hvalid, ?_⟩
  cases hctx : parseContextStrict context with
  | none =>
    rw [hctx] at h
    cases h
  | some ctx => exact ⟨ctx, rfl⟩

/-- A tidy header with two tokens is a configuration, one with four a context. -/
theorem parts_of_tokens {text : List UInt8} (htidy : TidyParts (dotParts text)) {parts : List (List UInt8)}
    (h : (tokens (· == '.'.toUInt8) text).take 4 = parts) :
    text = joinSep '.'.toUInt8 parts ∧ ∀ context ∈ parts[3]?, (trim context).head?.any isDigit = true := by
  rw [tokens_eq_dotParts htidy.nonempty, List.take_of_length_le htidy.short] at h
  rw [← h]
  exact ⟨(joinSep_dotParts text).symm, htidy.numeral⟩

theorem headerSyntax_of_header {line : List UInt8} {st st' : IniState}
    (hok : IniState.header line st = .ok st')
    (htidy : TidyHeader (trim ((line.drop 1).takeWhile (· != ']'.toUInt8)))) :
    HeaderSyntax (trim ((line.drop 1).takeWhile (· != ']'.toUInt8))) := by
  unfold IniState.header at hok
  split at hok
  · cases hok
  dsimp only at hok
  generalize trim ((line.drop 1).takeWhile (· != ']'.toUInt8)) = text at hok htidy ⊢
  split at hok
  · rename_i hsystem
    rw [hsystem]
    exact .system
  split at hok
  · rename_i hcartridge
    have hname := valid_of_cartridgeHeader hok
    obtain ⟨name, rfl⟩ := List.isPrefixOf_iff_prefix.1 hcartridge
    have hdrop : (ascii "cartridge." ++ name).drop 10 = name := List.drop_left' (by decide)
    rw [hdrop] at hname
    exact .cartridge hname
  split at hok
  · rename_i hconfig
    split at hok
    · rename_i p₀ p₁ htokens
      split at hok
      · cases hok
      rename_i hp₀
      obtain ⟨htext, -⟩ := parts_of_tokens (htidy hconfig) htokens
      rw [htext, not_not.1 hp₀, ← config_eq_joinSep]
      exact .config (valid_of_configHeader hok)
    · rename_i p₀ p₁ p₂ p₃ htokens
      split at hok
      · cases hok
      rename_i hnames
      rw [not_or, not_not, not_not] at hnames
      obtain ⟨htext, hdigit⟩ := parts_of_tokens (htidy hconfig) htokens
      obtain ⟨hname, ctx, hctx⟩ := valid_of_contextHeader hok
      rw [htext, hnames.1, hnames.2, ← context_eq_joinSep]
      exact .context hname (isNumeral_of_parseContextStrict hctx (hdigit p₃ rfl))
    · cases hok
  · cases hok

/-! ## Lines and buffers -/

/-- A line that fits the buffer is read whole. -/
theorem readLine_of_short {file : List UInt8} (h : (readLine file).1.length ≠ 159) :
    readLine file = (file.takeWhile (· != '\n'.toUInt8),
      file.drop ((file.takeWhile (· != '\n'.toUInt8)).length + 1)) := by
  simp only [readLine, ← List.take_takeWhile, List.length_take] at h ⊢
  rw [if_neg h, List.take_of_length_le (by omega), Nat.min_eq_right (by omega)]

/-- A file is its first line, or a first line with others behind it. -/
theorem fileLines_eq (file : List UInt8) :
    fileLines file = file.takeWhile (· != '\n'.toUInt8) ::
      if '\n'.toUInt8 ∈ file then fileLines (file.drop ((file.takeWhile (· != '\n'.toUInt8)).length + 1))
      else [] := by
  have hline : ∀ c ∈ file.takeWhile (· != '\n'.toUInt8), (c == '\n'.toUInt8) = false := by
    intro c hc
    simpa using List.mem_takeWhile_imp hc
  have hfile := List.takeWhile_append_dropWhile (p := (· != '\n'.toUInt8)) (l := file)
  generalize file.takeWhile (· != '\n'.toUInt8) = line at hline hfile ⊢
  cases hrest : file.dropWhile (· != '\n'.toUInt8) with
  | nil =>
    rw [hrest, List.append_nil] at hfile
    rw [← hfile, if_neg fun hmem => absurd (hline _ hmem) (by simp), fileLines,
      List.splitOnP_eq_singleton hline]
  | cons c rest =>
    have hc : c = '\n'.toUInt8 := by
      have hhead := List.head?_dropWhile_not (· != '\n'.toUInt8) file
      rw [hrest] at hhead
      simpa using hhead
    rw [hrest, hc] at hfile
    rw [← hfile, if_pos (by simp), fileLines, List.splitOnP_append_cons_of_forall_mem hline _ (by simp)]
    have hdrop : (line ++ '\n'.toUInt8 :: rest).drop (line.length + 1) = rest := by simp
    rw [hdrop, fileLines]

/-- When every line fits the buffer, the buffers are the lines. -/
theorem mem_readLines_of_mem_fileLines {file line : List UInt8}
    (hshort : ∀ buffer ∈ readLines file, buffer.length ≠ 159) (hline : line ∈ fileLines file) :
    line = [] ∨ line ∈ readLines file := by
  induction file using readLines.induct with
  | case1 =>
    left
    simpa [fileLines] using hline
  | case2 file hne ih =>
    rw [readLines, dif_neg hne] at hshort ⊢
    rw [List.forall_mem_cons] at hshort
    rw [fileLines_eq] at hline
    rw [readLine_of_short hshort.1] at ih
    have hrest := hshort.2
    rw [readLine_of_short hshort.1] at hrest ⊢
    rcases List.mem_cons.1 hline with rfl | hline
    · exact .inr List.mem_cons_self
    · split at hline
      · exact (ih hrest hline).imp id (List.mem_cons_of_mem _)
      · cases hline

/-! ## Accepted files -/

/-- Every buffer of an accepted file has been read. -/
theorem readBuffer_of_foldlM {buffers : List (List UInt8)} {st st' : IniState}
    (h : buffers.foldlM IniState.readBuffer st = .ok st') {buffer : List UInt8} (hmem : buffer ∈ buffers) :
    ∃ st₁ st₂, IniState.readBuffer st₁ buffer = .ok st₂ := by
  induction buffers generalizing st with
  | nil => cases hmem
  | cons first buffers ih =>
    rw [List.foldlM_cons, except_bind_ok] at h
    obtain ⟨st₁, hfirst, hrest⟩ := h
    rcases List.mem_cons.1 hmem with rfl | hmem
    · exact ⟨st, st₁, hfirst⟩
    · exact ih hrest hmem

theorem length_of_readBuffer {buffer : List UInt8} {st st' : IniState}
    (h : IniState.readBuffer st buffer = .ok st') : buffer.length ≠ 159 := by
  intro hlen
  unfold IniState.readBuffer at h
  dsimp only at h
  rw [if_pos hlen] at h
  cases h

/-- The text of a header line that has been read was read as a header. -/
theorem header_of_readBuffer {buffer text : List UInt8} {st st' : IniState}
    (h : IniState.readBuffer st buffer = .ok st') (htext : headerText buffer = some text) :
    ∃ line st₁, IniState.header line st₁ = .ok st' ∧ text =
      trim ((line.drop 1).takeWhile (· != ']'.toUInt8)) := by
  have hlen := length_of_readBuffer h
  unfold IniState.readBuffer at h
  unfold headerText at htext
  dsimp only at h
  rw [if_neg hlen] at h
  generalize stripLine buffer = line at h htext
  cases line with
  | nil => cases htext
  | cons c cs =>
    dsimp only at h htext
    split at htext
    · rename_i hbracket
      rw [if_neg (by rw [hbracket]; decide), if_pos hbracket] at h
      exact ⟨c :: cs, _, h, (Option.some.inj htext).symm⟩
    · cases htext

section Accepted

variable {present : List UInt8 → Bool} {memoryConfig : MemoryConfig} {file : List UInt8}
  {tables : SystemTables}

/-- Every header of an accepted file was read as one. -/
theorem header_of_accepted (h : parseSystemIni present memoryConfig file = .ok tables)
    {line text : List UInt8}
    (hline : line ∈ fileLines file) (htext : headerText line = some text) :
    ∃ buffer st st', IniState.header buffer st = .ok st' ∧
      text = trim ((buffer.drop 1).takeWhile (· != ']'.toUInt8)) := by
  rw [parseSystemIni, except_bind_ok] at h
  obtain ⟨st, hread, -⟩ := h
  have hshort : ∀ buffer ∈ readLines file, buffer.length ≠ 159 := by
    intro buffer hmem
    obtain ⟨st₁, st₂, hbuffer⟩ := readBuffer_of_foldlM hread hmem
    exact length_of_readBuffer hbuffer
  rcases mem_readLines_of_mem_fileLines hshort hline with rfl | hmem
  · cases htext
  · obtain ⟨st₁, st₂, hbuffer⟩ := readBuffer_of_foldlM hread hmem
    obtain ⟨header, st₃, hheader, htext⟩ := header_of_readBuffer hbuffer htext
    exact ⟨header, st₃, st₂, hheader, htext⟩

/-- The headers of an accepted file follow the syntax exactly when they are tidy. -/
theorem headers_exact_iff (h : parseSystemIni present memoryConfig file = .ok tables) :
    (∀ line ∈ fileLines file, ∀ text ∈ headerText line, HeaderSyntax text) ↔
      ∀ line ∈ fileLines file, ∀ text ∈ headerText line, TidyHeader text := by
  constructor
  · intro hform line hline text htext
    exact tidy_of_headerSyntax (hform line hline text htext)
  · intro htidy line hline text htext
    obtain ⟨buffer, st, st', hheader, rfl⟩ := header_of_accepted h hline htext
    exact headerSyntax_of_header hheader (htidy line hline _ htext)

end Accepted

/-- A file with one configuration, and the header of its context section. -/
def oneConfigIni (header : List UInt8) : List UInt8 :=
  ascii "[system]\nversion=1\n[cartridge.c]\nfile=f\n[config.a]\nmemory=m\n" ++ (header ++ ascii "\nload=c\n")

/-- A memory configuration with its model. -/
def oneModelConfig : MemoryConfig := { MemoryConfig.empty with active_model := copyName (ascii "m") }

theorem exists_ok_of_isOk {ε α : Type} {r : Except ε α} (h : r.isOk = true) : ∃ a, r = .ok a := by
  cases r with
  | error e => cases h
  | ok a => exact ⟨a, rfl⟩

theorem oneConfigIni_exact :
    (parseSystemIni (fun _ => true) oneModelConfig (oneConfigIni (ascii "[config.a.context.0]"))).isOk = true ∧
      ∀ line ∈ fileLines (oneConfigIni (ascii "[config.a.context.0]")), ∀ text ∈ headerText line,
        HeaderSyntax text := by
  have hfile : oneConfigIni (ascii "[config.a.context.0]") = _ :=
    congrArg₂ (· ++ ·) (ascii_ofList _) (congrArg₂ (· ++ ·) (ascii_ofList _) (ascii_ofList _))
  have hisOk : (parseSystemIni (fun _ => true) oneModelConfig
      (oneConfigIni (ascii "[config.a.context.0]"))).isOk = true := by
    rw [hfile]
    decide +kernel
  obtain ⟨tables, htables⟩ := exists_ok_of_isOk hisOk
  refine ⟨hisOk, (headers_exact_iff htables).2 ?_⟩
  rw [hfile]
  decide

/-- A fifth part and a second dot are not noticed. -/
theorem looseHeader_accepted : ¬ ∀ present memoryConfig file tables,
    parseSystemIni present memoryConfig file = .ok tables →
    ∀ line ∈ fileLines file, ∀ text ∈ headerText line, HeaderSyntax text := by
  intro h
  have hfile : oneConfigIni (ascii "[config..a.context.0.x]") = _ :=
    congrArg₂ (· ++ ·) (ascii_ofList _) (congrArg₂ (· ++ ·) (ascii_ofList _) (ascii_ofList _))
  have hisOk : (parseSystemIni (fun _ => true) oneModelConfig
      (oneConfigIni (ascii "[config..a.context.0.x]"))).isOk = true := by
    rw [hfile]
    decide +kernel
  have huntidy : ¬ ∀ line ∈ fileLines (oneConfigIni (ascii "[config..a.context.0.x]")),
      ∀ text ∈ headerText line, TidyHeader text := by
    rw [hfile]
    decide
  obtain ⟨tables, htables⟩ := exists_ok_of_isOk hisOk
  refine huntidy fun line hline text htext => tidy_of_headerSyntax ?_
  exact h _ _ _ tables htables line hline text htext

end NeoMmu
