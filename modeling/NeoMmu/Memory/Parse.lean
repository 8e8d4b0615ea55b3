import NeoMmu.Foundation.Prog
import NeoMmu.Foundation.Tokens
import NeoMmu.Memory.Config

/-!
# Reading memory.ini

`parseMemoryIni()` line by line. The parser is a state program over `memoryConfig` and the current
section, with an early exit for `return failMemoryIni(…)`: the exit keeps the state, so the
configuration a rejected file leaves behind is the one built up to the offending line.
-/

namespace NeoMmu

/-! ## Lines -/

/-- `file.readBytesUntil('\n', line, 159)`: the bytes stored and what is left of the file. A newline
that ends the line is consumed, one that would come after a full buffer is not. -/
def readLine (file : List UInt8) : List UInt8 × List UInt8 :=
  let stored := (file.take 159).takeWhile (· != '\n'.toUInt8)
  (stored, if stored.length = 159 then file.drop 159 else file.drop (stored.length + 1))

theorem length_readLine_lt {file : List UInt8} (h : file ≠ []) :
    (readLine file).2.length < file.length := by
  have hpos : 0 < file.length := List.length_pos_of_ne_nil h
  simp only [readLine]
  split <;> simp only [List.length_drop] <;> omega

/-- The buffers the reading loop fills. -/
def readLines (file : List UInt8) : List (List UInt8) :=
  if _h : file = [] then []
  else (readLine file).1 :: readLines (readLine file).2
termination_by file.length
decreasing_by exact length_readLine_lt ‹_›

/-- The C string in the line buffer once its trailing line ends are cut. -/
def lineString (buffer : List UInt8) : List UInt8 :=
  (buffer.rdropWhile fun c => c = '\r'.toUInt8 || c = '\n'.toUInt8).takeWhile (· != 0)

/-- A string without the blanks and tabs around it. -/
def trimBlanks (s : List UInt8) : List UInt8 :=
  let blank := fun c : UInt8 => c = ' '.toUInt8 || c = '\t'.toUInt8
  (s.dropWhile blank).rdropWhile blank

/-! ## Values -/

/-- `parseBoolValue()` -/
def parseBoolValue (s : List UInt8) : Option Bool :=
  if s = ascii "true" then some true
  else if s = ascii "false" then some false
  else none

/-- A decimal digit. -/
def isDigit (c : UInt8) : Bool := '0'.toUInt8 ≤ c && c ≤ '9'.toUInt8

/-- `strtol(s, &end, 10)` with the rest at `end`; `none` when there is no number. -/
def strtol10 (s : List UInt8) : Option (Int × List UInt8) :=
  let s := s.dropWhile fun c => c = 32 || (9 ≤ c && c ≤ 13)
  let negative := s.head? = some '-'.toUInt8
  let s := if negative ∨ s.head? = some '+'.toUInt8 then s.drop 1 else s
  let digits := s.takeWhile isDigit
  if digits = [] then none
  else
    let magnitude := digits.foldl (fun n c => n * 10 + (c - '0'.toUInt8).toNat) 0
    let v : Int := if negative then -magnitude else magnitude
    some (max (-2147483648) (min v 2147483647), s.dropWhile isDigit)

/-- `parseU8Strict()` -/
def parseU8Strict (s : List UInt8) : Option UInt8 :=
  match strtol10 s with
  | none => none
  | some (v, rest) =>
    if rest ≠ [] then none
    else if v < 0 ∨ 255 < v then none
    else some (UInt8.ofNat v.toNat)

/-- `parseContextIdStrict()` -/
def parseContextIdStrict (s : List UInt8) : Option UInt8 :=
  (parseU8Strict s).filter (· < 16)

/-! ## The parser -/

/-- The statics and locals of `parseMemoryIni()`; `currentLayout` and `currentRegion` are indices. -/
structure ParseState where
  cfg : MemoryConfig
  sectionText : List UInt8
  lineNo : Nat
  currentLayout : Option Nat
  currentRegion : Option Nat

/-- A parser step, which may fail and keeps what it has done. -/
abbrev Parser (α : Type) := ExceptT MemoryIniError (Prog ParseState) α

namespace Parser

/-- `return failMemoryIni(…)` at the current line. -/
def fail {α : Type} (code : MemoryIniErrorCode) (sectionText key value : Option (List UInt8)) :
    Parser α := do
  throw (failMemoryIni code (← get).lineNo sectionText key value)

/-- Change the configuration. -/
def modifyConfig (f : MemoryConfig → MemoryConfig) : Parser Unit :=
  modify fun st => { st with cfg := f st.cfg }

/-- A `[model.…]` header. -/
def modelHeader (sectionText : List UInt8) : Parser Unit := do
  let name := copyName (sectionText.drop 6)
  let cfg := (← get).cfg
  if (cfg.findModel name.val).isSome then
    fail .MEMORY_INI_DUPLICATE_MODEL sectionText (ascii "model") name.val
  if MAX_MEMORY_MODELS ≤ cfg.models.length then
    fail .MEMORY_INI_INVALID_VALUE sectionText (ascii "model_count") name.val
  modifyConfig fun cfg => { cfg with models := cfg.models ++ [⟨copyName name.val, 0⟩] }

/-- The layout a region header names, appended when it is new. -/
def selectLayout (sectionText : List UInt8) (modelName layoutName : Name) : Parser Nat := do
  let cfg := (← get).cfg
  match cfg.layouts.findIdx? fun layout => layout.model = modelName ∧ layout.name = layoutName with
  | some i => return i
  | none => do
    if MAX_MEMORY_LAYOUTS ≤ cfg.layouts.length then
      fail .MEMORY_INI_INVALID_VALUE sectionText (ascii "layout_count") layoutName.val
    modifyConfig fun cfg =>
      { cfg with layouts := cfg.layouts ++ [⟨copyName modelName.val, copyName layoutName.val, []⟩] }
    return cfg.layouts.length

/-- A `[layout.<model>.<layout>.region.<region>]` header. -/
def layoutHeader (sectionText : List UInt8) : Parser Unit := do
  match (tokens (· == '.'.toUInt8) sectionText).take 5 with
  | [p₀, p₁, p₂, p₃, p₄] => do
    if p₀ ≠ ascii "layout" ∨ p₃ ≠ ascii "region" then
      fail .MEMORY_INI_UNKNOWN_SECTION sectionText none none
    let regionName := copyName p₄
    let i ← selectLayout sectionText (copyName p₁) (copyName p₂)
    modify fun st => { st with currentLayout := some i }
    let layout := (← get).cfg.layouts[i]?.getD ⟨Name.empty, Name.empty, []⟩
    if (layout.findRegion regionName.val).isSome then
      fail .MEMORY_INI_DUPLICATE_REGION sectionText (ascii "region") regionName.val
    if MAX_MEMORY_REGIONS ≤ layout.regions.length then
      fail .MEMORY_INI_INVALID_VALUE sectionText (ascii "region_count") regionName.val
    let region : MemoryLayoutRegion :=
      ⟨copyName regionName.val, 0, 0, false, .MEMORY_REGION_NORMAL, false⟩
    modifyConfig fun cfg => { cfg with
      layouts := cfg.layouts.modify i fun layout =>
        { layout with regions := layout.regions ++ [region] } }
    modify fun st => { st with currentRegion := some layout.regions.length }
  | _ => fail .MEMORY_INI_UNKNOWN_SECTION sectionText none none

/-- The parts of a `context.<model>.<id>` section. -/
def contextParts (sectionText : List UInt8) : Parser (List UInt8 × List UInt8 × UInt8) := do
  match (tokens (· == '.'.toUInt8) sectionText).take 3 with
  | [p₀, p₁, p₂] => do
    if p₀ ≠ ascii "context" then
      fail .MEMORY_INI_UNKNOWN_SECTION sectionText none none
    match parseContextIdStrict p₂ with
    | none => fail .MEMORY_INI_INVALID_CONTEXT sectionText (ascii "context") p₂
    | some ctx => return (p₁, p₂, ctx)
  | _ => fail .MEMORY_INI_UNKNOWN_SECTION sectionText none none

/-- A `[context.<model>.<id>]` header. -/
def contextHeader (sectionText : List UInt8) : Parser Unit := do
  let (modelName, id, ctx) ← contextParts sectionText
  let cfg := (← get).cfg
  if (cfg.findContextBinding modelName ctx).isSome then
    fail .MEMORY_INI_DUPLICATE_CONTEXT sectionText (ascii "context") id
  if MAX_MEMORY_CONTEXTS ≤ cfg.contexts.length then
    fail .MEMORY_INI_INVALID_VALUE sectionText (ascii "context_count") none
  modifyConfig fun cfg => { cfg with contexts := cfg.contexts ++ [⟨copyName modelName, ctx, Name.empty⟩] }

/-- A line that starts with `[`. -/
def header (line : List UInt8) : Parser Unit := do
  if line.contains ']'.toUInt8 = false then
    fail .MEMORY_INI_SYNTAX none none line
  let sectionText := copyTrunc 64 ((line.drop 1).takeWhile (· != ']'.toUInt8))
  modify fun st => { st with
    sectionText := sectionText, currentLayout := none, currentRegion := none }
  if sectionText = ascii "system" then
    return
  else if (ascii "model.").isPrefixOf sectionText then
    modelHeader sectionText
  else if (ascii "layout.").isPrefixOf sectionText then
    layoutHeader sectionText
  else if (ascii "context.").isPrefixOf sectionText then
    contextHeader sectionText
  else
    fail .MEMORY_INI_UNKNOWN_SECTION sectionText none none

/-- A key of `[system]`. -/
def systemKey (sectionText key val : List UInt8) : Parser Unit := do
  if key = ascii "config_version" then
    match parseU8Strict val with
    | none => fail .MEMORY_INI_INVALID_VALUE sectionText key val
    | some v => modifyConfig fun cfg => { cfg with version := v }
  else if key = ascii "active_model" then
    modifyConfig fun cfg => { cfg with active_model := copyName val }
  else if key = ascii "boot_context" then
    match parseContextIdStrict val with
    | none => fail .MEMORY_INI_INVALID_CONTEXT sectionText key val
    | some v => modifyConfig fun cfg => { cfg with boot_context := v }
  else
    fail .MEMORY_INI_UNKNOWN_KEY sectionText key val

/-- A key of a `[model.…]` section. -/
def modelKey (sectionText key val : List UInt8) : Parser Unit := do
  let modelName := copyName (sectionText.drop 6)
  match (← get).cfg.models.findIdx? (·.name = modelName) with
  | none => fail .MEMORY_INI_MODEL_NOT_FOUND sectionText (ascii "model") modelName.val
  | some i =>
    if key = ascii "contexts" then
      match parseU8Strict val with
      | none => fail .MEMORY_INI_INVALID_VALUE sectionText key val
      | some v => modifyConfig fun cfg => { cfg with
          models := cfg.models.modify i fun model => { model with contexts := v } }
    else
      fail .MEMORY_INI_UNKNOWN_KEY sectionText key val

/-- Change `*currentRegion`. -/
def modifyRegion (f : MemoryLayoutRegion → MemoryLayoutRegion) : Parser Unit :=
  modify fun st => match st.currentLayout, st.currentRegion with
    | some i, some j => { st with cfg := { st.cfg with
        layouts := st.cfg.layouts.modify i fun layout =>
          { layout with regions := layout.regions.modify j f } } }
    | _, _ => st

/-- A key of a region section. -/
def regionKey (sectionText key val : List UInt8) : Parser Unit := do
  if key = ascii "start" then
    match parseU8Strict val with
    | none => fail .MEMORY_INI_INVALID_VALUE sectionText key val
    | some v => modifyRegion fun region => { region with start := v }
  else if key = ascii "pages" then
    match parseU8Strict val with
    | none => fail .MEMORY_INI_INVALID_VALUE sectionText key val
    | some v => modifyRegion fun region => { region with pages := v }
  else if key = ascii "shared" then
    match parseBoolValue val with
    | none => fail .MEMORY_INI_INVALID_VALUE sectionText key val
    | some v => modifyRegion fun region => { region with shared := v }
  else if key = ascii "trap_write" then
    match parseBoolValue val with
    | none => fail .MEMORY_INI_INVALID_VALUE sectionText key val
    | some v => modifyRegion fun region => { region with trap_write := v }
  else if key = ascii "type" then
    if val = ascii "io" then
      modifyRegion fun region => { region with type := MemoryRegionType.MEMORY_REGION_IO }
    else if val = ascii "normal" then
      modifyRegion fun region => { region with type := .MEMORY_REGION_NORMAL }
    else
      fail .MEMORY_INI_INVALID_VALUE sectionText key val
  else
    fail .MEMORY_INI_UNKNOWN_KEY sectionText key val

/-- A key of a `[context.…]` section. -/
def contextKey (sectionText key val : List UInt8) : Parser Unit := do
  let (modelName, id, ctx) ← contextParts sectionText
  match (← get).cfg.contexts.findIdx? fun b => b.model.val = modelName ∧ b.context = ctx with
  | none => fail .MEMORY_INI_INVALID_CONTEXT sectionText (ascii "context") id
  | some i =>
    if key = ascii "layout" then
      modifyConfig fun cfg => { cfg with
        contexts := cfg.contexts.modify i fun b => { b with layout := copyName val } }
    else
      fail .MEMORY_INI_UNKNOWN_KEY sectionText key val

/-- A `key=value` line. -/
def keyValue (line : List UInt8) : Parser Unit := do
  let st ← get
  let sectionText := st.sectionText
  if line.contains '='.toUInt8 = false then
    fail .MEMORY_INI_SYNTAX sectionText none line
  let key := trimBlanks (line.takeWhile (· != '='.toUInt8))
  let val := trimBlanks ((line.dropWhile (· != '='.toUInt8)).drop 1)
  if sectionText = ascii "system" then
    systemKey sectionText key val
  else if (ascii "model.").isPrefixOf sectionText then
    modelKey sectionText key val
  else if st.currentRegion.isSome then
    regionKey sectionText key val
  else if (ascii "context.").isPrefixOf sectionText then
    contextKey sectionText key val
  else
    fail .MEMORY_INI_UNKNOWN_SECTION sectionText key val

/-- One turn of the reading loop. -/
def readBuffer (buffer : List UInt8) : Parser Unit := do
  modify fun st => { st with lineNo := st.lineNo + 1 }
  let line := lineString buffer
  match line with
  | [] => return
  | c :: _ =>
    if c = '#'.toUInt8 ∨ c = ';'.toUInt8 then
      return
    else if c = '['.toUInt8 then
      header line
    else
      keyValue line

/-- The body of `parseMemoryIni()` after its `memset`s. -/
def parse (file : List UInt8) : Parser Unit := do
  (readLines file).forM readBuffer
  match validateConfig (← get).cfg with
  | .error e => throw e
  | .ok () => return

end Parser

/-- The state `parseMemoryIni()` starts with. -/
def ParseState.initial : ParseState := ⟨.empty, [], 0, none, none⟩

/-- `parseMemoryIni()`: its result or error, and the configuration it leaves in `memoryConfig`. -/
def parseMemoryIni (file : List UInt8) : Except MemoryIniError Unit × MemoryConfig :=
  ((Parser.parse file).run.result .initial, ((Parser.parse file).run.final .initial).cfg)

/-- `initializeMemoryConfig()`: `none` is a missing `/memory.ini`. -/
def initializeMemoryConfig : Option (List UInt8) → Except MemoryIniError Unit × MemoryConfig
  | none => (.error (failMemoryIni .MEMORY_INI_OPEN_FAILED 0 none none none), .empty)
  | some file => parseMemoryIni file

end NeoMmu
