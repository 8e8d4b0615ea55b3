import NeoMmu.Boot.SystemConfig
import NeoMmu.Hardware.Mmu
import NeoMmu.Memory.Parse

/-!
# Reading system.ini

`parseSystemIni()` of `sys_config.cpp`, line by line. A rejected file leaves nothing behind, since
`initializeSystemConfig()` loads the fallback profile over it, so a step of the parser returns either an
error or the whole state it leaves.
-/

namespace NeoMmu

/-- `MAX_PER_CONFIG` -/
def MAX_PER_CONFIG : Nat := 64

/-- `IniErrorCode` -/
inductive IniErrorCode
  | INI_OK
  | INI_ERR_LINE_TOO_LONG
  | INI_ERR_SYNTAX
  | INI_ERR_INVALID_IDENTIFIER
  | INI_ERR_DUPLICATE_SECTION
  | INI_ERR_LIMIT_EXCEEDED
  | INI_ERR_UNKNOWN_REFERENCE
  | INI_ERR_MISSING_FILE_FIELD
  | INI_ERR_FILE_NOT_FOUND
  | INI_ERR_EMPTY_CONFIG
  | INI_ERR_NO_CONFIG_DEFINED
  | INI_ERR_VERSION_MISMATCH
  | INI_ERR_DEFAULT_NOT_FOUND
  | INI_ERR_INVALID_CONTEXT
  | INI_ERR_DUPLICATE_CONTEXT_SECTION
  | INI_ERR_MISSING_MEMORY_FIELD
  | INI_ERR_MEMORY_MODEL_MISMATCH
  deriving DecidableEq, Repr

/-- `IniError` -/
structure IniError where
  code : IniErrorCode
  line : Nat
  deriving DecidableEq, Repr

/-! ## Utilities -/

/-- `trim()` -/
def trim (s : List UInt8) : List UInt8 :=
  (s.dropWhile fun c => c = ' '.toUInt8 || c = '\t'.toUInt8).rdropWhile fun c =>
    c = ' '.toUInt8 || c = '\t'.toUInt8 || c = '\r'.toUInt8 || c = '\n'.toUInt8

/-- The string a line buffer holds without its comment and the blanks around it. -/
def stripLine (buffer : List UInt8) : List UInt8 :=
  trim ((buffer.takeWhile (· != 0)).takeWhile (· != ';'.toUInt8))

/-- `isalpha()` -/
def isAlpha (c : UInt8) : Bool :=
  ('A'.toUInt8 ≤ c && c ≤ 'Z'.toUInt8) || ('a'.toUInt8 ≤ c && c ≤ 'z'.toUInt8)

/-- `isValidIdentifier()` -/
def isValidIdentifier (s : List UInt8) : Bool :=
  match s with
  | [] => false
  | c :: cs =>
    if MAX_MEMORY_NAME < s.length then false
    else if isAlpha c = false then false
    else cs.all fun c => isAlpha c || isDigit c || c = '_'.toUInt8

/-- `findCartridge()` -/
def SystemTables.findCartridge (tables : SystemTables) (name : List UInt8) : Option (Fin MAX_CART) :=
  (List.finRange MAX_CART).find? fun i =>
    (tables.cartridges i).defined && (tables.cartridges i).name.val = name

/-- `findConfig()` -/
def SystemTables.findConfig (tables : SystemTables) (name : List UInt8) : Option (Fin MAX_CONFIG) :=
  (List.finRange MAX_CONFIG).find? fun i =>
    (tables.configs i).defined && (tables.configs i).name.val = name

/-- `parseContextStrict()` -/
def parseContextStrict (s : List UInt8) : Option UInt8 :=
  match strtol10 s with
  | none => none
  | some (v, rest) =>
    if rest ≠ [] then none
    else if v < 0 ∨ NUM_CONTEXTS ≤ v then none
    else some (UInt8.ofNat v.toNat)

theorem lt_of_parseContextStrict {s : List UInt8} {ctx : UInt8} (hs : parseContextStrict s = some ctx) :
    ctx < 128 := by
  unfold parseContextStrict at hs
  split at hs
  · cases hs
  rename_i v rest _
  split_ifs at hs with hrest hrange
  obtain rfl := Option.some.inj hs
  rw [not_or, not_lt, not_le] at hrange
  have hlt : v.toNat < 128 := by
    have hmax : (NUM_CONTEXTS : Int) = 128 := rfl
    omega
  rw [UInt8.lt_iff_toNat_lt, UInt8.toNat_ofNat_of_lt' (Nat.lt_trans hlt (by decide))]
  exact hlt

/-- `atoi()` into a `uint8_t`. -/
def atoiU8 (s : List UInt8) : UInt8 :=
  match strtol10 s with
  | none => 0
  | some (v, _) => UInt8.ofNat (v % 256).toNat

/-! ## The parser -/

/-- The section a line stands in, with `currentCart`, `currentConfig` and `currentContext`. -/
inductive IniSection
  | NONE
  | SYSTEM
  | CARTRIDGE (currentCart : Fin MAX_CART)
  | CONFIG (currentConfig : Fin MAX_CONFIG)
  | CONFIG_CONTEXT (currentConfig : Fin MAX_CONFIG) (currentContext : UInt8)
  deriving DecidableEq, Repr

/-- The tables and the locals of `parseSystemIni()`. -/
structure IniState where
  tables : SystemTables
  lineNumber : Nat
  state : IniSection

/-- The tables with one configuration changed. -/
def SystemTables.modifyConfig (tables : SystemTables) (i : Fin MAX_CONFIG) (f : Config → Config) :
    SystemTables :=
  { tables with configs := Function.update tables.configs i (f (tables.configs i)) }

/-- The tables with one cartridge changed. -/
def SystemTables.modifyCartridge (tables : SystemTables) (i : Fin MAX_CART)
    (f : Cartridge → Cartridge) : SystemTables :=
  { tables with cartridges := Function.update tables.cartridges i (f (tables.cartridges i)) }

namespace IniState

/-- `setIniError()` at the current line. -/
def fail {α : Type} (st : IniState) (code : IniErrorCode) : Except IniError α :=
  throw ⟨code, st.lineNumber⟩

/-- A `[cartridge.<name>]` header. -/
def cartridgeHeader (name : List UInt8) (st : IniState) : Except IniError IniState := do
  if isValidIdentifier name = false then
    st.fail .INI_ERR_INVALID_IDENTIFIER
  else if (st.tables.findCartridge name).isSome then
    st.fail .INI_ERR_DUPLICATE_SECTION
  else
    match (List.finRange MAX_CART).find? fun i => (st.tables.cartridges i).defined = false with
    | none => st.fail .INI_ERR_LIMIT_EXCEEDED
    | some i =>
      return { st with
        tables := st.tables.modifyCartridge i fun cart =>
          { cart with name := copyName name, defined := true }
        state := .CARTRIDGE i }

/-- A `[config.<name>]` header. -/
def configHeader (name : List UInt8) (st : IniState) : Except IniError IniState := do
  if isValidIdentifier name = false then
    st.fail .INI_ERR_INVALID_IDENTIFIER
  else if (st.tables.findConfig name).isSome then
    st.fail .INI_ERR_DUPLICATE_SECTION
  else
    match (List.finRange MAX_CONFIG).find? fun i => (st.tables.configs i).defined = false with
    | none => st.fail .INI_ERR_LIMIT_EXCEEDED
    | some i =>
      return { st with
        tables := st.tables.modifyConfig i fun cfg =>
          { cfg with
            name := copyName name, defined := true, memoryDefined := false, entries := []
            contextDefined := fun _ => false }
        state := .CONFIG i }

/-- A `[config.<name>.context.<n>]` header. -/
def contextHeader (name context : List UInt8) (st : IniState) : Except IniError IniState := do
  if isValidIdentifier name = false then
    st.fail .INI_ERR_INVALID_IDENTIFIER
  else
    match parseContextStrict context with
    | none => st.fail .INI_ERR_INVALID_CONTEXT
    | some ctx =>
      match st.tables.findConfig name with
      | none => st.fail .INI_ERR_UNKNOWN_REFERENCE
      | some i =>
        if (st.tables.configs i).contextDefined ctx then
          st.fail .INI_ERR_DUPLICATE_CONTEXT_SECTION
        else
          return { st with
            tables := st.tables.modifyConfig i fun cfg =>
              { cfg with contextDefined := Function.update cfg.contextDefined ctx true }
            state := .CONFIG_CONTEXT i ctx }

/-- A line that starts with `[`. -/
def header (line : List UInt8) (st : IniState) : Except IniError IniState := do
  if line.contains ']'.toUInt8 = false then
    st.fail .INI_ERR_SYNTAX
  else
    let sectionText := trim ((line.drop 1).takeWhile (· != ']'.toUInt8))
    if sectionText = ascii "system" then
      return { st with state := .SYSTEM }
    else if (ascii "cartridge.").isPrefixOf sectionText then
      cartridgeHeader (trim (sectionText.drop 10)) st
    else if (ascii "config.").isPrefixOf sectionText then
      match (tokens (· == '.'.toUInt8) sectionText).take 4 with
      | [p₀, p₁] =>
        if p₀ ≠ ascii "config" then
          st.fail .INI_ERR_SYNTAX
        else
          configHeader (trim p₁) st
      | [p₀, p₁, p₂, p₃] =>
        if p₀ ≠ ascii "config" ∨ p₂ ≠ ascii "context" then
          st.fail .INI_ERR_SYNTAX
        else
          contextHeader (trim p₁) (trim p₃) st
      | _ => st.fail .INI_ERR_SYNTAX
    else
      st.fail .INI_ERR_SYNTAX

/-- One turn of the loop of `parseLoadList()`. -/
def loadToken (cfg : Fin MAX_CONFIG) (ctx : UInt8) (st : IniState) (token : List UInt8) :
    Except IniError IniState := do
  let name := trim token
  if name = [] then
    st.fail .INI_ERR_SYNTAX
  else if isValidIdentifier name = false then
    st.fail .INI_ERR_INVALID_IDENTIFIER
  else
    match st.tables.findCartridge name with
    | none => st.fail .INI_ERR_UNKNOWN_REFERENCE
    | some cartIdx =>
      if MAX_PER_CONFIG ≤ (st.tables.configs cfg).entries.length then
        st.fail .INI_ERR_LIMIT_EXCEEDED
      else
        return { st with tables := st.tables.modifyConfig cfg fun cfg =>
          { cfg with entries := cfg.entries ++ [⟨cartIdx, ctx⟩] } }

/-- `parseLoadList()` -/
def parseLoadList (value : List UInt8) (cfg : Fin MAX_CONFIG) (ctx : UInt8) (st : IniState) :
    Except IniError IniState :=
  (tokens (· == ','.toUInt8) value).foldlM (loadToken cfg ctx) st

/-- A key of the current section. -/
def sectionKey (key value : List UInt8) (st : IniState) : Except IniError IniState :=
  match st.state with
  | .NONE => st.fail .INI_ERR_SYNTAX
  | .SYSTEM =>
    if key = ascii "version" then
      return { st with tables := { st.tables with systemConfig :=
        { st.tables.systemConfig with version := atoiU8 value } } }
    else if key = ascii "default" then
      if isValidIdentifier value = false then
        st.fail .INI_ERR_INVALID_IDENTIFIER
      else
        return { st with tables := { st.tables with systemConfig :=
          { st.tables.systemConfig with defaultName := copyName value } } }
    else
      st.fail .INI_ERR_SYNTAX
  | .CARTRIDGE currentCart =>
    if key = ascii "file" then
      if MAX_FILE_LENGTH < value.length then
        st.fail .INI_ERR_LIMIT_EXCEEDED
      else
        return { st with tables := st.tables.modifyCartridge currentCart fun cart =>
          { cart with file := copyFile value } }
    else
      st.fail .INI_ERR_SYNTAX
  | .CONFIG currentConfig =>
    if key = ascii "memory" then
      if isValidIdentifier value = false then
        st.fail .INI_ERR_INVALID_IDENTIFIER
      else
        return { st with tables := st.tables.modifyConfig currentConfig fun cfg =>
          { cfg with memory := copyName value, memoryDefined := true } }
    else
      st.fail .INI_ERR_SYNTAX
  | .CONFIG_CONTEXT currentConfig currentContext =>
    if key = ascii "load" then
      parseLoadList value currentConfig currentContext st
    else
      st.fail .INI_ERR_SYNTAX

/-- A `key = value` line. -/
def keyValue (line : List UInt8) (st : IniState) : Except IniError IniState :=
  if line.contains '='.toUInt8 = false then
    st.fail .INI_ERR_SYNTAX
  else
    sectionKey (trim (line.takeWhile (· != '='.toUInt8)))
      (trim ((line.dropWhile (· != '='.toUInt8)).drop 1)) st

/-- One turn of the reading loop. -/
def readBuffer (st : IniState) (buffer : List UInt8) : Except IniError IniState :=
  let st := { st with lineNumber := st.lineNumber + 1 }
  if buffer.length = 159 then
    st.fail .INI_ERR_LINE_TOO_LONG
  else
    match stripLine buffer with
    | [] => return st
    | c :: cs =>
      if c = '#'.toUInt8 then
        return st
      else if c = '['.toUInt8 then
        header (c :: cs) st
      else
        keyValue (c :: cs) st

end IniState

/-! ## Validation -/

/-- A check of the post validation; the errors there name no line. -/
def iniCheck (failed : Bool) (code : IniErrorCode) : Except IniError Unit :=
  if failed then throw ⟨code, 0⟩ else return

/-- The check of one cartridge; `present` says which paths `LittleFS.exists()` finds. -/
def validateCartridge (present : List UInt8 → Bool) (cart : Cartridge) : Except IniError Unit :=
  if cart.defined then do
    iniCheck (cart.file.val = []) .INI_ERR_MISSING_FILE_FIELD
    iniCheck (!present (ascii "/system/" ++ cart.file.val)) .INI_ERR_FILE_NOT_FOUND
  else
    return

/-- The check of one configuration. -/
def validateConfigEntry (cfg : Config) : Except IniError Unit :=
  if cfg.defined then do
    iniCheck (!cfg.memoryDefined) .INI_ERR_MISSING_MEMORY_FIELD
    iniCheck (cfg.entries.length = 0) .INI_ERR_EMPTY_CONFIG
  else
    return

/-- `validateSystemAgainstMemoryConfig()` for a default configuration in the table. -/
def validateSystemAgainstMemoryConfig (tables : SystemTables) (memoryConfig : MemoryConfig)
    (defaultConfig : Fin MAX_CONFIG) : Except IniError Unit := do
  iniCheck (!(tables.configs defaultConfig).defined) .INI_ERR_DEFAULT_NOT_FOUND
  iniCheck ((tables.configs defaultConfig).memory ≠ memoryConfig.active_model)
    .INI_ERR_MEMORY_MODEL_MISMATCH

/-- The default configuration: the one that is named, or the first. -/
def resolveDefault (tables : SystemTables) : Except IniError (Fin MAX_CONFIG) :=
  if tables.systemConfig.defaultName.val ≠ [] then
    match tables.findConfig tables.systemConfig.defaultName.val with
    | none => throw ⟨.INI_ERR_DEFAULT_NOT_FOUND, 0⟩
    | some resolved => return resolved
  else
    match tables.visibleConfigs.head? with
    | none => throw ⟨.INI_ERR_NO_CONFIG_DEFINED, 0⟩
    | some i => return i

/-- The part of `parseSystemIni()` behind the reading loop. -/
def validateSystem (present : List UInt8 → Bool) (memoryConfig : MemoryConfig) (st : IniState) :
    Except IniError SystemTables := do
  let tables := st.tables
  if tables.systemConfig.version ≠ SUPPORTED_VERSION then
    st.fail .INI_ERR_VERSION_MISMATCH
  else
    (List.finRange MAX_CART).forM fun i => validateCartridge present (tables.cartridges i)
    (List.finRange MAX_CONFIG).forM fun i => validateConfigEntry (tables.configs i)
    iniCheck tables.visibleConfigs.isEmpty .INI_ERR_NO_CONFIG_DEFINED
    let resolved ← resolveDefault tables
    validateSystemAgainstMemoryConfig tables memoryConfig resolved
    return { tables with systemConfig :=
      { tables.systemConfig with defaultConfig := resolved.val } }

/-- The state `parseSystemIni()` starts with. -/
def IniState.initial : IniState := ⟨resetTables, 0, .NONE⟩

/-- `parseSystemIni()` -/
def parseSystemIni (present : List UInt8 → Bool) (memoryConfig : MemoryConfig) (file : List UInt8) :
    Except IniError SystemTables := do
  let st ← (readLines file).foldlM IniState.readBuffer .initial
  validateSystem present memoryConfig st

/-- `initializeSystemConfig()`: its result, and the tables it leaves; `none` is a missing
`/system.ini`. -/
def initializeSystemConfig (present : List UInt8 → Bool) (memoryConfig : MemoryConfig) :
    Option (List UInt8) → Bool × SystemTables
  | none => (false, loadFallbackProfile)
  | some file =>
    match parseSystemIni present memoryConfig file with
    | .error _ => (false, loadFallbackProfile)
    | .ok tables => (true, tables)

end NeoMmu
