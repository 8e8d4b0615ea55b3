import NeoMmu.Boot.SystemIni
import NeoMmu.Memory.Validation

/-!
# What an accepted system.ini says

The load lines of a file, read without the tables: each names cartridges for the configuration and the
context of its section. The tables the parser builds list exactly these, and every index in them is
defined; a file that is rejected leaves the fallback profile.
-/

namespace NeoMmu

/-! ## The load lines of a file -/

/-- A cartridge that a load line names, with the configuration and the context of its section. -/
structure LoadItem where
  config : List UInt8
  context : UInt8
  cartridge : List UInt8
  deriving DecidableEq, Repr

/-- A file read up to some line: the configuration and the context of the section, when it is a context
section, and the cartridges its load lines have named. -/
structure LoadLines where
  currentSection : Option (List UInt8 × UInt8)
  items : List LoadItem
  deriving DecidableEq, Repr

/-- The configuration and the context that a header names. -/
def contextSection (line : List UInt8) : Option (List UInt8 × UInt8) :=
  match (tokens (· == '.'.toUInt8) (trim ((line.drop 1).takeWhile (· != ']'.toUInt8)))).take 4 with
  | [p₀, name, p₂, context] =>
    if p₀ = ascii "config" ∧ p₂ = ascii "context" then
      (parseContextStrict (trim context)).map (trim name, ·)
    else none
  | _ => none

/-- The names in the list behind the `=` of a line. -/
def listedNames (line : List UInt8) : List (List UInt8) :=
  (tokens (· == ','.toUInt8) (trim ((line.dropWhile (· != '='.toUInt8)).drop 1))).map trim

/-- What a load line adds. -/
def LoadLines.load (r : LoadLines) (names : List (List UInt8)) : LoadLines :=
  match r.currentSection with
  | none => r
  | some (config, context) => { r with items := r.items ++ names.map (LoadItem.mk config context) }

/-- What a line adds. -/
def LoadLines.readBuffer (r : LoadLines) (buffer : List UInt8) : LoadLines :=
  match stripLine buffer with
  | [] => r
  | c :: cs =>
    if c = '#'.toUInt8 then r
    else if c = '['.toUInt8 then { r with currentSection := contextSection (c :: cs) }
    else r.load (listedNames (c :: cs))

/-- The cartridges that a file names for a configuration, each with its context, in the order of the
file. -/
def declaredLoads (file : List UInt8) (config : List UInt8) : List (List UInt8 × UInt8) :=
  (((readLines file).foldl LoadLines.readBuffer ⟨none, []⟩).items.filter (·.config = config)).map
    fun item => (item.cartridge, item.context)

/-- What the entries of a configuration name. -/
def SystemTables.loads (tables : SystemTables) (i : Fin MAX_CONFIG) : List (List UInt8 × UInt8) :=
  (tables.configs i).entries.map fun entry =>
    ((tables.cartridges entry.cartIndex).name.val, entry.context)

/-! ## The tables under construction -/

/-- Tables that hold what a part of a file has declared. -/
structure SystemTables.Loading (tables : SystemTables) (items : List LoadItem) : Prop where
  cartridge_valid : ∀ i, (tables.cartridges i).defined = true →
    isValidIdentifier (tables.cartridges i).name.val = true
  cartridge_distinct : ∀ i j, (tables.cartridges i).defined = true →
    (tables.cartridges j).defined = true → (tables.cartridges i).name = (tables.cartridges j).name → i = j
  config_valid : ∀ i, (tables.configs i).defined = true →
    isValidIdentifier (tables.configs i).name.val = true
  config_distinct : ∀ i j, (tables.configs i).defined = true → (tables.configs j).defined = true →
    (tables.configs i).name = (tables.configs j).name → i = j
  memory_valid : ∀ i, (tables.configs i).memoryDefined = true →
    isValidIdentifier (tables.configs i).memory.val = true
  entry_defined : ∀ i, ∀ entry ∈ (tables.configs i).entries,
    (tables.cartridges entry.cartIndex).defined = true ∧ entry.context < 128
  entry_count : ∀ i, (tables.configs i).entries.length ≤ MAX_PER_CONFIG
  listed : ∀ i, (tables.configs i).defined = true → tables.loads i =
    (items.filter (·.config = (tables.configs i).name.val)).map fun item => (item.cartridge, item.context)
  known : ∀ item ∈ items, ∃ i, (tables.configs i).defined = true ∧
    (tables.configs i).name.val = item.config

section Tables

variable {tables : SystemTables} {items : List LoadItem}

theorem SystemTables.findCartridge_some {name : List UInt8} {i : Fin MAX_CART}
    (h : tables.findCartridge name = some i) :
    (tables.cartridges i).defined = true ∧ (tables.cartridges i).name.val = name := by
  simpa using List.find?_some h

theorem SystemTables.findCartridge_none {name : List UInt8} (h : tables.findCartridge name = none)
    (i : Fin MAX_CART) (hi : (tables.cartridges i).defined = true) :
    (tables.cartridges i).name.val ≠ name := by
  have hall := List.find?_eq_none.1 h i (List.mem_finRange i)
  simpa [hi] using hall

theorem SystemTables.findConfig_some {name : List UInt8} {i : Fin MAX_CONFIG}
    (h : tables.findConfig name = some i) :
    (tables.configs i).defined = true ∧ (tables.configs i).name.val = name := by
  simpa using List.find?_some h

theorem SystemTables.findConfig_none {name : List UInt8} (h : tables.findConfig name = none)
    (i : Fin MAX_CONFIG) (hi : (tables.configs i).defined = true) :
    (tables.configs i).name.val ≠ name := by
  have hall := List.find?_eq_none.1 h i (List.mem_finRange i)
  simpa [hi] using hall

/-- An identifier fits a name buffer. -/
theorem copyName_of_isValidIdentifier {name : List UInt8} (h : isValidIdentifier name = true) :
    (copyName name).val = name := by
  cases name with
  | nil => rfl
  | cons c cs =>
    unfold isValidIdentifier at h
    dsimp only at h
    split at h
    · cases h
    · rename_i hlen
      exact List.take_of_length_le (Nat.not_lt.1 hlen)

theorem loading_reset : resetTables.Loading [] where
  cartridge_valid := nofun
  cartridge_distinct := nofun
  config_valid := nofun
  config_distinct := nofun
  memory_valid := nofun
  entry_defined := nofun
  entry_count _ := Nat.zero_le _
  listed := nofun
  known := nofun

/-- The names, what is defined and the entries are all that counts, apart from the memory names. -/
theorem SystemTables.Loading.congr (h : tables.Loading items) {tables' : SystemTables}
    (hcart : ∀ i, (tables'.cartridges i).name = (tables.cartridges i).name ∧
      (tables'.cartridges i).defined = (tables.cartridges i).defined)
    (hcfg : ∀ i, (tables'.configs i).name = (tables.configs i).name ∧
      (tables'.configs i).defined = (tables.configs i).defined ∧
      (tables'.configs i).entries = (tables.configs i).entries)
    (hmemory : ∀ i, (tables'.configs i).memoryDefined = true →
      isValidIdentifier (tables'.configs i).memory.val = true) : tables'.Loading items := by
  refine ⟨?_, ?_, ?_, ?_, hmemory, ?_, ?_, ?_, ?_⟩
  · intro i
    rw [(hcart i).1, (hcart i).2]
    exact h.cartridge_valid i
  · intro i j
    rw [(hcart i).1, (hcart i).2, (hcart j).1, (hcart j).2]
    exact h.cartridge_distinct i j
  · intro i
    rw [(hcfg i).1, (hcfg i).2.1]
    exact h.config_valid i
  · intro i j
    rw [(hcfg i).1, (hcfg i).2.1, (hcfg j).1, (hcfg j).2.1]
    exact h.config_distinct i j
  · intro i entry hentry
    rw [(hcfg i).2.2] at hentry
    rw [(hcart _).2]
    exact h.entry_defined i entry hentry
  · intro i
    rw [(hcfg i).2.2]
    exact h.entry_count i
  · intro i
    have hloads : tables'.loads i = tables.loads i := by
      rw [loads, loads, (hcfg i).2.2]
      exact List.map_congr_left fun entry _ => by rw [(hcart entry.cartIndex).1]
    rw [hloads, (hcfg i).1, (hcfg i).2.1]
    exact h.listed i
  · intro item hitem
    obtain ⟨i, hi⟩ := h.known item hitem
    refine ⟨i, ?_⟩
    rwa [(hcfg i).1, (hcfg i).2.1]

/-- A configuration other than the changed one. -/
theorem SystemTables.configs_modifyConfig (i j : Fin MAX_CONFIG) (f : Config → Config) :
    (tables.modifyConfig i f).configs j = if j = i then f (tables.configs i) else tables.configs j :=
  Function.update_apply ..

theorem SystemTables.cartridges_modifyCartridge (i j : Fin MAX_CART) (f : Cartridge → Cartridge) :
    (tables.modifyCartridge i f).cartridges j =
      if j = i then f (tables.cartridges i) else tables.cartridges j :=
  Function.update_apply ..

/-- A new cartridge is none that a load line has named. -/
theorem SystemTables.Loading.defineCartridge (h : tables.Loading items) {name : List UInt8}
    (hname : isValidIdentifier name = true) (hnew : tables.findCartridge name = none)
    {i : Fin MAX_CART} (hi : (tables.cartridges i).defined = false) :
    (tables.modifyCartridge i fun cart =>
      { cart with name := copyName name, defined := true }).Loading items := by
  have hcopy := copyName_of_isValidIdentifier hname
  refine ⟨?_, ?_, h.config_valid, h.config_distinct, h.memory_valid, ?_, h.entry_count, ?_, h.known⟩
  · intro j hj
    rw [cartridges_modifyCartridge] at hj ⊢
    split
    · exact hcopy.symm ▸ hname
    · rename_i hne
      rw [if_neg hne] at hj
      exact h.cartridge_valid j hj
  · intro j k hj hk hjk
    simp only [cartridges_modifyCartridge] at hj hk hjk
    by_cases hji : j = i <;> by_cases hki : k = i
    · exact hji.trans hki.symm
    · rw [if_pos hji, if_neg hki] at hjk
      rw [if_neg hki] at hk
      exact absurd ((congrArg Subtype.val hjk).symm.trans hcopy) (findCartridge_none hnew k hk)
    · rw [if_neg hji, if_pos hki] at hjk
      rw [if_neg hji] at hj
      exact absurd ((congrArg Subtype.val hjk).trans hcopy) (findCartridge_none hnew j hj)
    · rw [if_neg hji, if_neg hki] at hjk
      rw [if_neg hji] at hj
      rw [if_neg hki] at hk
      exact h.cartridge_distinct j k hj hk hjk
  · intro j entry hentry
    obtain ⟨hdefined, hctx⟩ := h.entry_defined j entry hentry
    rw [cartridges_modifyCartridge]
    split
    · exact ⟨rfl, hctx⟩
    · exact ⟨hdefined, hctx⟩
  · intro j hj
    refine Eq.trans ?_ (h.listed j hj)
    refine List.map_congr_left fun entry hentry => ?_
    have hne : entry.cartIndex ≠ i := by
      rintro rfl
      rw [(h.entry_defined j entry hentry).1] at hi
      cases hi
    rw [cartridges_modifyCartridge, if_neg hne]

/-- A new configuration is none that a context section has named. -/
theorem SystemTables.Loading.defineConfig (h : tables.Loading items) {name : List UInt8}
    (hname : isValidIdentifier name = true) (hnew : tables.findConfig name = none)
    {i : Fin MAX_CONFIG} (hi : (tables.configs i).defined = false) :
    (tables.modifyConfig i fun cfg => { cfg with
      name := copyName name, defined := true, memoryDefined := false, entries := []
      contextDefined := fun _ => false }).Loading items := by
  have hcopy := copyName_of_isValidIdentifier hname
  refine ⟨h.cartridge_valid, h.cartridge_distinct, ?_, ?_, ?_, ?_, ?_, ?_, ?_⟩
  · intro j hj
    rw [configs_modifyConfig] at hj ⊢
    split
    · exact hcopy.symm ▸ hname
    · rename_i hne
      rw [if_neg hne] at hj
      exact h.config_valid j hj
  · intro j k hj hk hjk
    simp only [configs_modifyConfig] at hj hk hjk
    by_cases hji : j = i <;> by_cases hki : k = i
    · exact hji.trans hki.symm
    · rw [if_pos hji, if_neg hki] at hjk
      rw [if_neg hki] at hk
      exact absurd ((congrArg Subtype.val hjk).symm.trans hcopy) (findConfig_none hnew k hk)
    · rw [if_neg hji, if_pos hki] at hjk
      rw [if_neg hji] at hj
      exact absurd ((congrArg Subtype.val hjk).trans hcopy) (findConfig_none hnew j hj)
    · rw [if_neg hji, if_neg hki] at hjk
      rw [if_neg hji] at hj
      rw [if_neg hki] at hk
      exact h.config_distinct j k hj hk hjk
  · intro j hj
    rw [configs_modifyConfig] at hj ⊢
    split
    · rename_i hji
      rw [if_pos hji] at hj
      cases hj
    · rename_i hji
      rw [if_neg hji] at hj
      exact h.memory_valid j hj
  · intro j entry hentry
    rw [configs_modifyConfig] at hentry
    split at hentry
    · cases hentry
    · exact h.entry_defined j entry hentry
  · intro j
    rw [configs_modifyConfig]
    split
    · exact Nat.zero_le _
    · exact h.entry_count j
  · intro j hj
    rw [configs_modifyConfig] at hj
    simp only [loads, configs_modifyConfig]
    split
    · have hnone : items.filter (·.config = (copyName name).val) = [] := by
        refine List.filter_eq_nil_iff.2 fun item hitem => ?_
        obtain ⟨k, hk, hkname⟩ := h.known item hitem
        have hne := findConfig_none hnew k hk
        rw [hkname] at hne
        simpa [hcopy] using hne
      rw [hnone]
      rfl
    · rename_i hji
      rw [if_neg hji] at hj
      exact h.listed j hj
  · intro item hitem
    obtain ⟨j, hj, hjname⟩ := h.known item hitem
    refine ⟨j, ?_⟩
    have hne : j ≠ i := by
      rintro rfl
      rw [hj] at hi
      cases hi
    rw [configs_modifyConfig, if_neg hne]
    exact ⟨hj, hjname⟩

/-- A load line lists one more cartridge. -/
theorem SystemTables.Loading.load (h : tables.Loading items) {i : Fin MAX_CONFIG}
    (hi : (tables.configs i).defined = true) {ctx : UInt8} (hctx : ctx < 128) {cart : Fin MAX_CART}
    (hcart : (tables.cartridges cart).defined = true)
    (hcount : (tables.configs i).entries.length < MAX_PER_CONFIG) :
    (tables.modifyConfig i fun cfg => { cfg with entries := cfg.entries ++ [⟨cart, ctx⟩] }).Loading
      (items ++ [⟨(tables.configs i).name.val, ctx, (tables.cartridges cart).name.val⟩]) := by
  generalize htables : (tables.modifyConfig i fun cfg =>
    { cfg with entries := cfg.entries ++ [⟨cart, ctx⟩] }) = tables'
  have hentries : ∀ j, (tables'.configs j).entries = if j = i then
      (tables.configs i).entries ++ [⟨cart, ctx⟩] else (tables.configs j).entries := by
    intro j
    rw [← htables, configs_modifyConfig]
    split <;> rfl
  have hsame : ∀ j, (tables'.configs j).name = (tables.configs j).name ∧
      (tables'.configs j).defined = (tables.configs j).defined ∧
      (tables'.configs j).memory = (tables.configs j).memory ∧
      (tables'.configs j).memoryDefined = (tables.configs j).memoryDefined := by
    intro j
    rw [← htables, configs_modifyConfig]
    split
    · rename_i hji
      rw [hji]
      exact ⟨rfl, rfl, rfl, rfl⟩
    · exact ⟨rfl, rfl, rfl, rfl⟩
  have hcarts : tables'.cartridges = tables.cartridges := by rw [← htables]; rfl
  refine ⟨hcarts ▸ h.cartridge_valid, hcarts ▸ h.cartridge_distinct, ?_, ?_, ?_, ?_, ?_, ?_, ?_⟩
  · intro j
    rw [(hsame j).1, (hsame j).2.1]
    exact h.config_valid j
  · intro j k
    rw [(hsame j).1, (hsame j).2.1, (hsame k).1, (hsame k).2.1]
    exact h.config_distinct j k
  · intro j
    rw [(hsame j).2.2.1, (hsame j).2.2.2]
    exact h.memory_valid j
  · intro j entry hentry
    rw [hentries] at hentry
    rw [hcarts]
    split at hentry
    · rcases List.mem_append.1 hentry with hentry | hentry
      · exact h.entry_defined i entry hentry
      · obtain rfl := List.mem_singleton.1 hentry
        exact ⟨hcart, hctx⟩
    · exact h.entry_defined j entry hentry
  · intro j
    rw [hentries]
    split
    · rw [List.length_append]
      exact hcount
    · exact h.entry_count j
  · intro j hj
    rw [(hsame j).2.1] at hj
    rw [(hsame j).1, List.filter_append, List.map_append, ← h.listed j hj, loads, hcarts, hentries]
    split
    · rename_i hji
      subst hji
      rw [List.map_append, List.filter_cons_of_pos (by simp), List.filter_nil]
      rfl
    · rename_i hji
      -- Another configuration has another name.
      have hother : (tables.configs i).name.val ≠ (tables.configs j).name.val := fun hname =>
        hji (h.config_distinct j i hj hi (Subtype.ext hname.symm))
      rw [List.filter_cons_of_neg (by simpa using hother), List.filter_nil, List.map_nil, List.append_nil]
      rfl
  · intro item hitem
    rcases List.mem_append.1 hitem with hitem | hitem
    · obtain ⟨j, hj⟩ := h.known item hitem
      refine ⟨j, ?_⟩
      rwa [(hsame j).1, (hsame j).2.1]
    · obtain rfl := List.mem_singleton.1 hitem
      refine ⟨i, ?_⟩
      rw [(hsame i).1, (hsame i).2.1]
      exact ⟨hi, rfl⟩

end Tables

/-! ## Reading lines -/

/-- The context section that the parser stands in. -/
def IniState.currentSection (st : IniState) : Option (List UInt8 × UInt8) :=
  match st.state with
  | .CONFIG_CONTEXT i ctx => some ((st.tables.configs i).name.val, ctx)
  | _ => none

/-- The parser has built what the lines say. -/
structure IniState.Reads (st : IniState) (r : LoadLines) : Prop where
  loading : st.tables.Loading r.items
  current : r.currentSection = st.currentSection
  inside : ∀ i ctx, st.state = .CONFIG_CONTEXT i ctx →
    (st.tables.configs i).defined = true ∧ ctx < 128

section Lines

variable {st st' : IniState} {r : LoadLines}

@[simp] theorem IniState.fail_ne_ok {α : Type} (code : IniErrorCode) (a : α) :
    st.fail code ≠ .ok a :=
  nofun

/-- Outside of context sections, and in a section of some other kind. -/
theorem IniState.Reads.leave (h : st.tables.Loading r.items) (hsection : r.currentSection = none)
    (hstate : ∀ i ctx, st.state ≠ .CONFIG_CONTEXT i ctx) : st.Reads r := by
  refine ⟨h, ?_, fun i ctx hin => absurd hin (hstate i ctx)⟩
  unfold currentSection
  split
  · rename_i i ctx hin
    exact absurd hin (hstate i ctx)
  · exact hsection

theorem IniState.reads_cartridgeHeader (h : st.tables.Loading r.items) {name : List UInt8}
    (hok : cartridgeHeader name st = .ok st') : st'.Reads { r with currentSection := none } := by
  unfold cartridgeHeader at hok
  split at hok
  · cases hok
  rename_i hname
  split at hok
  · cases hok
  rename_i hnew
  split at hok
  · cases hok
  rename_i i hi
  cases hok
  refine .leave (h.defineCartridge (by simpa using hname) (by simpa using hnew) ?_) rfl nofun
  simpa using List.find?_some hi

theorem IniState.reads_configHeader (h : st.tables.Loading r.items) {name : List UInt8}
    (hok : configHeader name st = .ok st') : st'.Reads { r with currentSection := none } := by
  unfold configHeader at hok
  split at hok
  · cases hok
  rename_i hname
  split at hok
  · cases hok
  rename_i hnew
  split at hok
  · cases hok
  rename_i i hi
  cases hok
  refine .leave (h.defineConfig (by simpa using hname) (by simpa using hnew) ?_) rfl nofun
  simpa using List.find?_some hi

theorem IniState.reads_contextHeader (h : st.tables.Loading r.items) {name context : List UInt8}
    (hok : contextHeader name context st = .ok st') :
    st'.Reads { r with currentSection := (parseContextStrict context).map (name, ·) } := by
  unfold contextHeader at hok
  split at hok
  · cases hok
  split at hok
  · cases hok
  rename_i ctx hctx
  split at hok
  · cases hok
  rename_i i hi
  split at hok
  · cases hok
  cases hok
  obtain ⟨hdefined, hname⟩ := SystemTables.findConfig_some hi
  have hsame := fun j => st.tables.configs_modifyConfig i j fun cfg =>
    { cfg with contextDefined := Function.update cfg.contextDefined ctx true }
  refine ⟨h.congr (fun _ => ⟨rfl, rfl⟩) (fun j => ?_) fun j => ?_, ?_, ?_⟩
  · dsimp only
    rw [hsame j]
    split
    · rename_i hji
      rw [hji]
      exact ⟨rfl, rfl, rfl⟩
    · exact ⟨rfl, rfl, rfl⟩
  · dsimp only
    rw [hsame j]
    split
    · exact h.memory_valid i
    · exact h.memory_valid j
  · show (parseContextStrict context).map (name, ·) = some (Subtype.val _, ctx)
    rw [hctx, hsame i, if_pos rfl, hname]
    rfl
  · rintro j ctx' ⟨⟩
    dsimp only
    rw [hsame i, if_pos rfl]
    exact ⟨hdefined, lt_of_parseContextStrict hctx⟩

/-- The first part of a section text that starts with some word and a dot. -/
theorem tokens_of_isPrefixOf {word sectionText : List UInt8} (hne : word ≠ [])
    (hdot : '.'.toUInt8 ∉ word) (h : (word ++ ['.'.toUInt8]).isPrefixOf sectionText = true) :
    ∃ rest, tokens (· == '.'.toUInt8) sectionText = word :: tokens (· == '.'.toUInt8) rest := by
  obtain ⟨rest, rfl⟩ := List.isPrefixOf_iff_prefix.1 h
  refine ⟨'.'.toUInt8 :: rest, ?_⟩
  rw [List.append_assoc]
  refine tokens_append hne (fun c hc => ?_) fun c hc => ?_
  · rw [beq_eq_false_iff_ne]
    rintro rfl
    exact hdot hc
  · cases hc
    rfl

/-- A header starts the section that it names. -/
theorem IniState.reads_header (h : st.tables.Loading r.items) {line : List UInt8}
    (hok : header line st = .ok st') :
    st'.Reads { r with currentSection := contextSection line } := by
  unfold header at hok
  split at hok
  · cases hok
  unfold contextSection
  dsimp only at hok ⊢
  generalize trim ((line.drop 1).takeWhile (· != ']'.toUInt8)) = sectionText at hok ⊢
  split at hok
  · rename_i hsystem
    cases hok
    subst hsystem
    have hnone : contextSection (ascii "[system]") = none := by decide
    exact .leave h hnone nofun
  split at hok
  · rename_i hcart
    have hne : ascii "cartridge" ≠ [] := by decide
    obtain ⟨rest, htokens⟩ := tokens_of_isPrefixOf hne (by decide) hcart
    have hnone : (match (tokens (· == '.'.toUInt8) sectionText).take 4 with
        | [p₀, name, p₂, context] =>
          if p₀ = ascii "config" ∧ p₂ = ascii "context" then
            (parseContextStrict (trim context)).map (trim name, ·)
          else none
        | _ => none) = none := by
      rw [htokens, List.take_succ_cons]
      split
      · rename_i heq
        obtain ⟨rfl, -⟩ := List.cons.inj heq
        exact if_neg fun hword => absurd hword.1 (by decide)
      · rfl
    rw [hnone]
    exact reads_cartridgeHeader h hok
  split at hok
  swap
  · cases hok
  split at hok
  · rename_i p₀ p₁ heq
    split at hok
    · cases hok
    rw [heq]
    exact reads_configHeader h hok
  · rename_i p₀ p₁ p₂ p₃ heq
    split at hok
    · cases hok
    rename_i hwords
    rw [not_or, not_not, not_not] at hwords
    rw [heq]
    dsimp only
    rw [if_pos hwords]
    exact reads_contextHeader h hok
  · cases hok

/-- One name of a load list. -/
theorem IniState.reads_loadToken (h : st.Reads r) {i : Fin MAX_CONFIG} {ctx : UInt8}
    (hstate : st.state = .CONFIG_CONTEXT i ctx) {token : List UInt8}
    (hok : loadToken i ctx st token = .ok st') :
    st'.Reads { r with items := r.items ++ [⟨(st.tables.configs i).name.val, ctx, trim token⟩] } ∧
      st'.state = st.state ∧ (st'.tables.configs i).name = (st.tables.configs i).name := by
  obtain ⟨hdefined, hctx⟩ := h.inside i ctx hstate
  unfold loadToken at hok
  dsimp only at hok
  split at hok
  · cases hok
  split at hok
  · cases hok
  split at hok
  · cases hok
  rename_i cart hcart
  split at hok
  · cases hok
  rename_i hcount
  cases hok
  obtain ⟨hcartDefined, hcartName⟩ := SystemTables.findCartridge_some hcart
  have hconfig := st.tables.configs_modifyConfig i i fun cfg =>
    { cfg with entries := cfg.entries ++ [⟨cart, ctx⟩] }
  rw [if_pos rfl] at hconfig
  have hloading := h.loading.load hdefined hctx hcartDefined (Nat.not_le.1 hcount)
  rw [hcartName] at hloading
  refine ⟨⟨hloading, ?_, ?_⟩, rfl, by rw [hconfig]⟩
  · refine h.current.trans ?_
    simp only [currentSection, hstate, hconfig]
  · intro j ctx' hin
    obtain ⟨rfl, rfl⟩ := IniSection.CONFIG_CONTEXT.inj (hstate.symm.trans hin)
    dsimp only
    rw [hconfig]
    exact ⟨hdefined, hctx⟩

/-- A load list. -/
theorem IniState.reads_parseLoadList {i : Fin MAX_CONFIG} {ctx : UInt8} {config : List UInt8}
    (names : List (List UInt8)) (h : st.Reads r) (hstate : st.state = .CONFIG_CONTEXT i ctx)
    (hconfig : (st.tables.configs i).name.val = config) (hok : names.foldlM (loadToken i ctx) st = .ok st') :
    st'.Reads { r with items := r.items ++ (names.map trim).map (LoadItem.mk config ctx) } := by
  induction names generalizing st r with
  | nil =>
    cases hok
    rw [List.map_nil, List.map_nil, List.append_nil]
    exact h
  | cons name names ih =>
    rw [List.foldlM_cons, except_bind_ok] at hok
    obtain ⟨st₁, hstep, hrest⟩ := hok
    obtain ⟨hreads, hstate₁, hname₁⟩ := reads_loadToken h hstate hstep
    rw [hconfig] at hreads
    have hall := ih hreads (hstate₁.trans hstate) (by rw [hname₁, hconfig]) hrest
    rwa [List.append_assoc, List.singleton_append] at hall

theorem LoadLines.load_of_none (hr : r.currentSection = none) (names : List (List UInt8)) :
    r.load names = r := by
  rw [load, hr]

theorem LoadLines.load_of_some {config : List UInt8} {ctx : UInt8}
    (hr : r.currentSection = some (config, ctx)) (names : List (List UInt8)) :
    r.load names = { r with items := r.items ++ names.map (LoadItem.mk config ctx) } := by
  rw [load, hr]

/-- A key adds to the tables what the line adds; outside of context sections that is no entry. -/
theorem IniState.reads_sectionKey (h : st.Reads r) {key value : List UInt8}
    (hok : sectionKey key value st = .ok st') :
    st'.Reads (r.load ((tokens (· == ','.toUInt8) value).map trim)) := by
  unfold sectionKey at hok
  split at hok
  · cases hok
  · rename_i hstate
    have hnone : r.currentSection = none := by rw [h.current, currentSection, hstate]
    rw [LoadLines.load_of_none hnone]
    have hsame : ∀ systemConfig : SystemConfig,
        ({ st with tables := { st.tables with systemConfig := systemConfig } } : IniState).Reads r :=
      fun _ => .leave (h.loading.congr (fun _ => ⟨rfl, rfl⟩) (fun _ => ⟨rfl, rfl, rfl⟩)
        h.loading.memory_valid) hnone (by simp [hstate])
    split at hok
    · cases hok
      exact hsame _
    split at hok
    swap
    · cases hok
    split at hok
    · cases hok
    · cases hok
      exact hsame _
  · rename_i i hstate
    have hnone : r.currentSection = none := by rw [h.current, currentSection, hstate]
    rw [LoadLines.load_of_none hnone]
    split at hok
    swap
    · cases hok
    split at hok
    · cases hok
    cases hok
    refine .leave (h.loading.congr (fun j => ?_) (fun _ => ⟨rfl, rfl, rfl⟩) h.loading.memory_valid)
      hnone (by simp [hstate])
    dsimp only
    rw [SystemTables.cartridges_modifyCartridge]
    split
    · rename_i hji
      rw [hji]
      exact ⟨rfl, rfl⟩
    · exact ⟨rfl, rfl⟩
  · rename_i i hstate
    have hnone : r.currentSection = none := by rw [h.current, currentSection, hstate]
    rw [LoadLines.load_of_none hnone]
    split at hok
    swap
    · cases hok
    split at hok
    · cases hok
    rename_i hvalue
    cases hok
    refine .leave (h.loading.congr (fun _ => ⟨rfl, rfl⟩) (fun j => ?_) fun j => ?_) hnone
      (by simp [hstate])
    · dsimp only
      rw [SystemTables.configs_modifyConfig]
      split
      · rename_i hji
        rw [hji]
        exact ⟨rfl, rfl, rfl⟩
      · exact ⟨rfl, rfl, rfl⟩
    · dsimp only
      rw [SystemTables.configs_modifyConfig]
      split
      · intro _
        have hvalid : isValidIdentifier value = true := by simpa using hvalue
        exact (copyName_of_isValidIdentifier hvalid).symm ▸ hvalid
      · exact h.loading.memory_valid j
  · rename_i i ctx hstate
    have hsome : r.currentSection = some ((st.tables.configs i).name.val, ctx) := by
      rw [h.current, currentSection, hstate]
    rw [LoadLines.load_of_some hsome]
    split at hok
    swap
    · cases hok
    exact reads_parseLoadList _ h hstate rfl hok

/-- A line of the file. -/
theorem IniState.reads_readBuffer (h : st.Reads r) {buffer : List UInt8}
    (hok : st.readBuffer buffer = .ok st') : st'.Reads (r.readBuffer buffer) := by
  unfold readBuffer at hok
  have hnext : ({ st with lineNumber := st.lineNumber + 1 } : IniState).Reads r :=
    ⟨h.loading, h.current, h.inside⟩
  dsimp only at hok
  split at hok
  · cases hok
  unfold LoadLines.readBuffer
  cases hline : stripLine buffer with
  | nil =>
    rw [hline] at hok
    cases hok
    exact hnext
  | cons c cs =>
    rw [hline] at hok
    dsimp only at hok ⊢
    split at hok
    · rename_i hcomment
      cases hok
      rw [if_pos hcomment]
      exact hnext
    rename_i hcomment
    rw [if_neg hcomment]
    split at hok
    · rename_i hbracket
      rw [if_pos hbracket]
      exact reads_header hnext.loading hok
    rename_i hbracket
    rw [if_neg hbracket]
    unfold keyValue at hok
    split at hok
    · cases hok
    exact reads_sectionKey hnext hok

/-- The whole file. -/
theorem IniState.reads_readLines (buffers : List (List UInt8)) (h : st.Reads r)
    (hok : buffers.foldlM IniState.readBuffer st = .ok st') :
    st'.Reads (buffers.foldl LoadLines.readBuffer r) := by
  induction buffers generalizing st r with
  | nil =>
    cases hok
    exact h
  | cons buffer buffers ih =>
    rw [List.foldlM_cons, except_bind_ok] at hok
    obtain ⟨st₁, hstep, hrest⟩ := hok
    exact ih (reads_readBuffer h hstep) hrest

end Lines

/-! ## Accepted files -/

/-- Tables that are complete and list what a file declares. -/
structure SystemTables.WellFormed (tables : SystemTables) (present : List UInt8 → Bool)
    (memoryConfig : MemoryConfig) (file : List UInt8) : Prop where
  cartridge_valid : ∀ i, (tables.cartridges i).defined = true →
    isValidIdentifier (tables.cartridges i).name.val = true
  cartridge_distinct : ∀ i j, (tables.cartridges i).defined = true →
    (tables.cartridges j).defined = true → (tables.cartridges i).name = (tables.cartridges j).name → i = j
  cartridge_file : ∀ i, (tables.cartridges i).defined = true → (tables.cartridges i).file.val ≠ [] ∧
    present (ascii "/system/" ++ (tables.cartridges i).file.val) = true
  config_valid : ∀ i, (tables.configs i).defined = true →
    isValidIdentifier (tables.configs i).name.val = true
  config_distinct : ∀ i j, (tables.configs i).defined = true → (tables.configs j).defined = true →
    (tables.configs i).name = (tables.configs j).name → i = j
  config_memory : ∀ i, (tables.configs i).defined = true →
    isValidIdentifier (tables.configs i).memory.val = true
  entry_count : ∀ i, (tables.configs i).defined = true →
    1 ≤ (tables.configs i).entries.length ∧ (tables.configs i).entries.length ≤ MAX_PER_CONFIG
  entry_defined : ∀ i, (tables.configs i).defined = true → ∀ entry ∈ (tables.configs i).entries,
    (tables.cartridges entry.cartIndex).defined = true ∧ entry.context < 128
  listed : ∀ i, (tables.configs i).defined = true →
    tables.loads i = declaredLoads file (tables.configs i).name.val
  default : ∃ i : Fin MAX_CONFIG, tables.systemConfig.defaultConfig = i.val ∧
    (tables.configs i).defined = true ∧ (tables.configs i).memory = memoryConfig.active_model

section Accepted

variable {present : List UInt8 → Bool} {memoryConfig : MemoryConfig}

theorem iniCheck_ok {failed : Bool} {code : IniErrorCode} {u : Unit} :
    iniCheck failed code = .ok u ↔ failed = false := by
  cases failed <;> simp [iniCheck, throw, throwThe, MonadExceptOf.throw, pure, Except.pure]

theorem validateCartridge_ok {cart : Cartridge} (h : validateCartridge present cart = .ok ())
    (hdefined : cart.defined = true) :
    cart.file.val ≠ [] ∧ present (ascii "/system/" ++ cart.file.val) = true := by
  rw [validateCartridge, if_pos hdefined, except_bind_ok] at h
  obtain ⟨_, hfile, hpresent⟩ := h
  rw [iniCheck_ok] at hfile hpresent
  exact ⟨of_decide_eq_false hfile, by simpa using hpresent⟩

theorem validateConfigEntry_ok {cfg : Config} (h : validateConfigEntry cfg = .ok ())
    (hdefined : cfg.defined = true) : cfg.memoryDefined = true ∧ 1 ≤ cfg.entries.length := by
  rw [validateConfigEntry, if_pos hdefined, except_bind_ok] at h
  obtain ⟨_, hmemory, hcount⟩ := h
  rw [iniCheck_ok] at hmemory hcount
  exact ⟨by simpa using hmemory, Nat.one_le_iff_ne_zero.2 (of_decide_eq_false hcount)⟩

/-- What the validation adds to what the lines have built. -/
theorem wellFormed_of_validateSystem {st : IniState} {file : List UInt8} {tables : SystemTables}
    (h : st.Reads ((readLines file).foldl LoadLines.readBuffer ⟨none, []⟩))
    (hok : validateSystem present memoryConfig st = .ok tables) :
    tables.WellFormed present memoryConfig file := by
  unfold validateSystem at hok
  dsimp only at hok
  split at hok
  · cases hok
  simp only [except_bind_ok, except_forM_ok] at hok
  obtain ⟨_, hcarts, _, hconfigs, _, -, resolved, -, _, hdefault, htables⟩ := hok
  cases htables
  rw [validateSystemAgainstMemoryConfig, except_bind_ok] at hdefault
  obtain ⟨_, hdefined, hmodel⟩ := hdefault
  rw [iniCheck_ok] at hdefined hmodel
  have hloading := h.loading
  exact {
    cartridge_valid := hloading.cartridge_valid
    cartridge_distinct := hloading.cartridge_distinct
    cartridge_file := fun i => validateCartridge_ok (hcarts i (List.mem_finRange i))
    config_valid := hloading.config_valid
    config_distinct := hloading.config_distinct
    config_memory := fun i hi =>
      hloading.memory_valid i (validateConfigEntry_ok (hconfigs i (List.mem_finRange i)) hi).1
    entry_count := fun i hi =>
      ⟨(validateConfigEntry_ok (hconfigs i (List.mem_finRange i)) hi).2, hloading.entry_count i⟩
    entry_defined := fun i _ => hloading.entry_defined i
    listed := hloading.listed
    default := ⟨resolved, rfl, by simpa using hdefined, by simpa using hmodel⟩ }

theorem wellFormed_of_parseSystemIni {file : List UInt8} {tables : SystemTables}
    (hok : parseSystemIni present memoryConfig file = .ok tables) :
    tables.WellFormed present memoryConfig file := by
  rw [parseSystemIni, except_bind_ok] at hok
  obtain ⟨st, hlines, hvalid⟩ := hok
  refine wellFormed_of_validateSystem (IniState.reads_readLines _ ?_ hlines) hvalid
  exact .leave loading_reset rfl nofun

/-- The configuration is the one a complete file declares, or the fallback profile. -/
theorem initializeSystemConfig_cases (present : List UInt8 → Bool) (memoryConfig : MemoryConfig)
    (file : Option (List UInt8)) :
    match initializeSystemConfig present memoryConfig file with
    | (true, tables) => ∃ content, file = some content ∧ tables.WellFormed present memoryConfig content
    | (false, tables) => tables = loadFallbackProfile := by
  cases file with
  | none => exact rfl
  | some content =>
    unfold initializeSystemConfig
    dsimp only
    cases hparse : parseSystemIni present memoryConfig content with
    | error e => exact rfl
    | ok tables => exact ⟨content, rfl, wellFormed_of_parseSystemIni hparse⟩

end Accepted

end NeoMmu
