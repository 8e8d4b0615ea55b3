import NeoMmu.Memory.Completeness
import NeoMmu.Memory.Lines

/-!
# Region names and shared pages

The allocator knows a region by the sixteen characters of its name that the parser stores. The region
sections of a file are read here on their own, with the names as they are written, and the layouts the
parser builds list exactly these sections. So two slots are on one page under different written names
exactly when two shared regions differ only in what is not stored.
-/

namespace NeoMmu

/-! ## The region sections of a file -/

/-- A `[layout.<model>.<layout>.region.<region>]` section: the names that are stored, and the name of the
region as it is written. -/
structure RegionSection where
  model : Name
  layout : Name
  region : Name
  written : List UInt8
  deriving DecidableEq, Repr

/-- The text between the brackets of a header line. -/
def bracketText (line : List UInt8) : List UInt8 := (line.drop 1).takeWhile (· != ']'.toUInt8)

/-- What is left of a text behind its first parts. -/
def behindParts : Nat → List UInt8 → List UInt8
  | 0, text => text.dropWhile (· == '.'.toUInt8)
  | n + 1, text => behindParts n ((text.dropWhile (· == '.'.toUInt8)).dropWhile (!· == '.'.toUInt8))

/-- The region section a line opens. -/
def regionSection (line : List UInt8) : Option RegionSection :=
  let sectionText := copyTrunc 64 (bracketText line)
  if line.head? = some '['.toUInt8 ∧ (ascii "layout.").isPrefixOf sectionText = true then
    match (tokens (· == '.'.toUInt8) sectionText).take 5 with
    | [_, p₁, p₂, _, p₄] => some ⟨copyName p₁, copyName p₂, copyName p₄, behindParts 4 (bracketText line)⟩
    | _ => none
  else none

/-- The region sections of a file, in its order. -/
def regionSections (file : List UInt8) : List RegionSection :=
  (readLines file).filterMap fun buffer => regionSection (lineString buffer)

/-- The section is the one of a region of a layout. -/
def RegionSection.Defines (sec : RegionSection) (layout : MemoryLayout) (region : MemoryLayoutRegion) :
    Prop :=
  (sec.model, sec.layout) = (layout.model, layout.name) ∧ sec.region = region.name

instance (sec : RegionSection) (layout : MemoryLayout) (region : MemoryLayoutRegion) :
    Decidable (sec.Defines layout region) :=
  inferInstanceAs (Decidable (_ ∧ _))

/-- The written name begins with the part that the stored name is cut from. -/
theorem tokens_behindParts (n : Nat) (text : List UInt8) :
    tokens (· == '.'.toUInt8) (behindParts n text) = (tokens (· == '.'.toUInt8) text).drop n := by
  induction n generalizing text with
  | zero => rw [behindParts, tokens_dropWhile, List.drop_zero]
  | succ n ih =>
    rw [behindParts, ih, ← tokens_dropWhile (p := (· == '.'.toUInt8)) text]
    by_cases hnil : text.dropWhile (· == '.'.toUInt8) = []
    · rw [hnil, List.dropWhile_nil, tokens_nil, List.drop_nil, List.drop_nil]
    · have hhead : ∀ c ∈ (text.dropWhile (· == '.'.toUInt8)).head?, (c == '.'.toUInt8) = false := by
        intro c hc
        have hnot := List.head?_dropWhile_not (· == '.'.toUInt8) text
        rw [Option.mem_def.1 hc] at hnot
        simpa using hnot
      rw [tokens_scan hnil hhead, List.drop_succ_cons]

/-! ## What the layouts list -/

/-- The names by which a layout is found. -/
def MemoryLayout.id (layout : MemoryLayout) : Name × Name := (layout.model, layout.name)

/-- The layouts with the names of their regions. -/
def MemoryConfig.shape (cfg : MemoryConfig) : List ((Name × Name) × List Name) :=
  cfg.layouts.map fun layout => (layout.id, layout.regions.map (·.name))

theorem MemoryConfig.shape_layout (cfg : MemoryConfig) (model name : Name) :
    MemoryConfig.shape { cfg with layouts := cfg.layouts ++ [⟨model, name, []⟩] } =
      cfg.shape ++ [((model, name), [])] :=
  List.map_append

theorem MemoryConfig.shape_region (cfg : MemoryConfig) (i : Nat) (region : MemoryLayoutRegion) :
    MemoryConfig.shape { cfg with layouts := cfg.layouts.modify i fun layout =>
        { layout with regions := layout.regions ++ [region] } } =
      cfg.shape.modify i fun layout => (layout.1, layout.2 ++ [region.name]) := by
  refine List.ext_getElem? fun k => ?_
  simp only [shape, List.getElem?_map, List.getElem?_modify, Option.map_eq_map, Option.map_map]
  refine congrArg (Option.map · cfg.layouts[k]?) (funext fun layout => ?_)
  simp only [Function.comp_apply]
  split
  · exact congrArg (Prod.mk _) List.map_append
  · rfl

/-- The sections of one layout. -/
def sectionsOf (secs : List RegionSection) (id : Name × Name) : List RegionSection :=
  secs.filter fun sec => (sec.model, sec.layout) = id

/-- The layouts list the regions of the sections that have been read. -/
structure Described (secs : List RegionSection) (shape : List ((Name × Name) × List Name)) : Prop where
  distinct : (shape.map Prod.fst).Nodup
  regions : ∀ layout ∈ shape, layout.2 = (sectionsOf secs layout.1).map (·.region)
  known : ∀ sec ∈ secs, (sec.model, sec.layout) ∈ shape.map Prod.fst

theorem described_nil : Described [] [] := ⟨List.nodup_nil, nofun, nofun⟩

theorem sectionsOf_append (secs secs' : List RegionSection) (id : Name × Name) :
    sectionsOf (secs ++ secs') id = sectionsOf secs id ++ sectionsOf secs' id :=
  List.filter_append ..

theorem sectionsOf_eq_nil {secs : List RegionSection} {id : Name × Name}
    (h : ∀ sec ∈ secs, (sec.model, sec.layout) ≠ id) : sectionsOf secs id = [] := by
  rw [sectionsOf, List.filter_eq_nil_iff]
  intro sec hsec
  simpa using h sec hsec

/-- A layout under a new name has no sections yet. -/
theorem Described.append {secs : List RegionSection} {shape : List ((Name × Name) × List Name)}
    (h : Described secs shape) {id : Name × Name} (hnew : id ∉ shape.map Prod.fst) :
    Described secs (shape ++ [(id, [])]) := by
  refine ⟨nodup_map_concat h.distinct fun layout hlayout heq => ?_, forall_mem_concat h.regions ?_, ?_⟩
  · have heq : layout.1 = id := heq
    exact hnew (heq ▸ List.mem_map_of_mem hlayout)
  · have hnone : sectionsOf secs id = [] :=
      sectionsOf_eq_nil fun sec hsec heq => hnew (heq ▸ h.known sec hsec)
    rw [hnone]
    rfl
  · intro sec hsec
    rw [List.map_append, List.mem_append]
    exact .inl (h.known sec hsec)

/-- A section adds its region to its layout. -/
theorem Described.add {secs : List RegionSection} {shape : List ((Name × Name) × List Name)}
    (h : Described secs shape) {sec : RegionSection} {i : Nat} {names : List Name}
    (hi : shape[i]? = some ((sec.model, sec.layout), names)) :
    Described (secs ++ [sec]) (shape.modify i fun layout => (layout.1, layout.2 ++ [sec.region])) := by
  have hids : (shape.modify i fun layout => (layout.1, layout.2 ++ [sec.region])).map Prod.fst =
      shape.map Prod.fst := by
    refine map_modify_of_eq ?_ shape i
    exact fun _ => rfl
  refine ⟨hids ▸ h.distinct, ?_, ?_⟩
  · intro layout hlayout
    obtain ⟨k, hk⟩ := List.mem_iff_getElem?.1 hlayout
    rw [List.getElem?_modify, Option.map_eq_map, Option.map_eq_some_iff] at hk
    obtain ⟨old, hold, rfl⟩ := hk
    have hregions := h.regions old (List.mem_of_getElem? hold)
    split
    · rename_i hik
      obtain rfl := hik
      obtain rfl := Option.some.inj (hold.symm.trans hi)
      have hown : sectionsOf [sec] (sec.model, sec.layout) = [sec] := by simp [sectionsOf]
      dsimp only at hregions ⊢
      rw [hregions, sectionsOf_append, hown, List.map_append]
      rfl
    · rename_i hik
      have hother : (sec.model, sec.layout) ≠ old.1 := by
        intro heq
        have hlt : i < (shape.map Prod.fst).length := by
          rw [List.length_map]
          exact (List.getElem?_eq_some_iff.1 hi).1
        refine hik ((List.getElem?_inj hlt h.distinct).1 ?_)
        rw [List.getElem?_map, List.getElem?_map, hi, hold]
        exact congrArg some heq
      have hnone : sectionsOf [sec] old.1 = [] :=
        sectionsOf_eq_nil fun s hs => (List.mem_singleton.1 hs) ▸ hother
      rw [hregions, sectionsOf_append, hnone, List.append_nil]
  · intro s hs
    rw [hids]
    rcases List.mem_append.1 hs with hs | hs
    · exact h.known s hs
    · obtain rfl := List.mem_singleton.1 hs
      exact List.mem_map.2 ⟨_, List.mem_of_getElem? hi, rfl⟩

/-! ## Steps that add no region -/

namespace Parser

/-- A step of the parser leaves the layouts and the names of their regions as they are. -/
def KeepsShape (p : Parser Unit) : Prop := ∀ shape, Keeps (fun cfg => cfg.shape = shape) p

section

variable (sectionText key val line : List UInt8)

theorem keepsShape_modelHeader : KeepsShape (modelHeader sectionText) := by
  intro shape
  refine Keeps.get_bind fun st => ?_
  dsimp only
  rw [final_check, final_check]
  split
  · exact id
  split
  · exact id
  exact id

theorem keepsShape_contextHeader : KeepsShape (contextHeader sectionText) := by
  intro shape
  refine (keeps_contextParts _).bind fun parts => Keeps.get.bind fun st => ?_
  exact Keeps.check (Keeps.check (Keeps.modifyConfig fun _ => id))

theorem keepsShape_systemKey : KeepsShape (systemKey sectionText key val) := by
  intro shape
  refine Keeps.ite ?_ (Keeps.ite (Keeps.modifyConfig fun _ => id) (Keeps.ite ?_ (Keeps.fail _ _ _ _)))
  · rcases parseU8Strict val with - | v
    · exact Keeps.fail _ _ _ _
    · exact Keeps.modifyConfig fun _ => id
  · rcases parseContextIdStrict val with - | v
    · exact Keeps.fail _ _ _ _
    · exact Keeps.modifyConfig fun _ => id

theorem keepsShape_modelKey : KeepsShape (modelKey sectionText key val) := by
  intro shape
  refine Keeps.get.bind fun st => ?_
  split
  · exact Keeps.fail _ _ _ _
  · refine Keeps.ite ?_ (Keeps.fail _ _ _ _)
    rcases parseU8Strict val with - | v
    · exact Keeps.fail _ _ _ _
    · exact Keeps.modifyConfig fun _ => id

theorem keepsShape_modifyRegion {shape : List ((Name × Name) × List Name)}
    {f : MemoryLayoutRegion → MemoryLayoutRegion} (h : ∀ r, (f r).name = r.name) :
    Keeps (fun cfg => cfg.shape = shape) (modifyRegion f) := by
  refine Keeps.modify fun st hst => ?_
  split
  · rename_i i j _ _
    refine Eq.trans (map_modify_of_eq (fun layout => ?_) st.cfg.layouts i) hst
    exact congrArg (Prod.mk _) (map_modify_of_eq h layout.regions j)
  · exact hst

theorem keepsShape_regionKey : KeepsShape (regionKey sectionText key val) := by
  intro shape
  refine Keeps.ite ?_ <| Keeps.ite ?_ <| Keeps.ite ?_ <| Keeps.ite ?_ <|
    Keeps.ite (Keeps.ite ?_ <| Keeps.ite ?_ <| Keeps.fail _ _ _ _) (Keeps.fail _ _ _ _)
  · rcases parseU8Strict val with - | v
    · exact Keeps.fail _ _ _ _
    · exact keepsShape_modifyRegion fun _ => rfl
  · rcases parseU8Strict val with - | v
    · exact Keeps.fail _ _ _ _
    · exact keepsShape_modifyRegion fun _ => rfl
  · rcases parseBoolValue val with - | v
    · exact Keeps.fail _ _ _ _
    · exact keepsShape_modifyRegion fun _ => rfl
  · rcases parseBoolValue val with - | v
    · exact Keeps.fail _ _ _ _
    · exact keepsShape_modifyRegion fun _ => rfl
  · exact keepsShape_modifyRegion fun _ => rfl
  · exact keepsShape_modifyRegion fun _ => rfl

theorem keepsShape_contextKey : KeepsShape (contextKey sectionText key val) := by
  intro shape
  refine (keeps_contextParts _).bind fun parts => Keeps.get.bind fun st => ?_
  split
  · exact Keeps.fail _ _ _ _
  · exact Keeps.ite (Keeps.modifyConfig fun _ => id) (Keeps.fail _ _ _ _)

theorem keepsShape_keyValue : KeepsShape (keyValue line) := by
  intro shape
  refine Keeps.get.bind fun st => Keeps.check ?_
  refine Keeps.ite (keepsShape_systemKey _ _ _ shape) (Keeps.ite (keepsShape_modelKey _ _ _ shape) ?_)
  refine Keeps.ite (keepsShape_regionKey _ _ _ shape) ?_
  exact Keeps.ite (keepsShape_contextKey _ _ _ shape) (Keeps.fail _ _ _ _)

end

/-! ## Region sections -/

/-- The layout that is selected is the one of the section. -/
theorem described_selectLayout {secs : List RegionSection} {st : ParseState} (h : Described secs st.cfg.shape)
    {sectionText : List UInt8} {model name : Name} {i : Nat}
    (hok : (selectLayout sectionText model name).run.result st = .ok i) :
    Described secs ((selectLayout sectionText model name).run.final st).cfg.shape ∧
      ∃ layout, ((selectLayout sectionText model name).run.final st).cfg.layouts[i]? = some layout ∧
        layout.id = (model, name) := by
  rw [selectLayout, result_get_bind] at hok
  rw [selectLayout, final_get_bind]
  dsimp only at hok ⊢
  split at hok
  · rename_i j hfind
    obtain rfl := Except.ok.inj hok
    obtain ⟨hlt, hlayout, -⟩ := List.findIdx?_eq_some_iff_getElem.1 hfind
    refine ⟨h, _, List.getElem?_eq_getElem hlt, ?_⟩
    have hnames := of_decide_eq_true hlayout
    exact Prod.ext hnames.1 hnames.2
  · rename_i hfind
    rw [result_check] at hok
    rw [final_check]
    split at hok
    · cases hok
    rename_i hroom
    rw [if_neg hroom]
    obtain rfl := Except.ok.inj hok
    rw [copyName_val, copyName_val]
    refine ⟨?_, ⟨model, name, []⟩, List.getElem?_concat_length, rfl⟩
    have hnew : (model, name) ∉ st.cfg.shape.map Prod.fst := by
      intro hmem
      obtain ⟨_, hlayout, heq⟩ := List.mem_map.1 hmem
      obtain ⟨layout, hmem', rfl⟩ := List.mem_map.1 hlayout
      have hnot := List.findIdx?_eq_none_iff.1 hfind layout hmem'
      exact of_decide_eq_false hnot (Prod.mk.inj heq)
    have happend := h.append hnew
    rwa [← MemoryConfig.shape_layout] at happend

/-- A layout header adds the region of its section. -/
theorem described_layoutHeader {secs : List RegionSection} {st : ParseState} (h : Described secs st.cfg.shape)
    {sectionText : List UInt8} (hok : (layoutHeader sectionText).run.result st = .ok ())
    (written : List UInt8) :
    ∃ p₀ p₁ p₂ p₃ p₄, (tokens (· == '.'.toUInt8) sectionText).take 5 = [p₀, p₁, p₂, p₃, p₄] ∧
      Described (secs ++ [⟨copyName p₁, copyName p₂, copyName p₄, written⟩])
        ((layoutHeader sectionText).run.final st).cfg.shape := by
  unfold layoutHeader at hok ⊢
  split at hok
  · rename_i p₀ p₁ p₂ p₃ p₄ htokens
    refine ⟨p₀, p₁, p₂, p₃, p₄, htokens, ?_⟩
    dsimp only at hok ⊢
    rw [result_check] at hok
    rw [final_check]
    split at hok
    · cases hok
    rename_i hwords
    rw [if_neg hwords]
    obtain ⟨i, hselect, hok⟩ := result_bind_ok.1 hok
    rw [final_bind_ok hselect]
    obtain ⟨hdescribed, layout, hlayout, hid⟩ := described_selectLayout h hselect
    generalize (selectLayout sectionText (copyName p₁) (copyName p₂)).run.final st =
      st₁ at hok hdescribed hlayout ⊢
    rw [result_modify_bind, result_get_bind] at hok
    rw [final_modify_bind, final_get_bind]
    dsimp only at hok ⊢
    rw [result_check] at hok
    rw [final_check]
    split at hok
    · cases hok
    rename_i hnew
    rw [if_neg hnew]
    rw [result_check] at hok
    rw [final_check]
    split at hok
    · cases hok
    rename_i hroom
    rw [if_neg hroom, copyName_val]
    have hshape : st₁.cfg.shape[i]? = some ((copyName p₁, copyName p₂), layout.regions.map (·.name)) := by
      rw [MemoryConfig.shape, List.getElem?_map, hlayout, ← hid]
      rfl
    let sec : RegionSection := ⟨copyName p₁, copyName p₂, copyName p₄, written⟩
    have hadd : Described (secs ++ [sec]) _ := hdescribed.add hshape
    rwa [← MemoryConfig.shape_region st₁.cfg i
      ⟨copyName p₄, 0, 0, false, .MEMORY_REGION_NORMAL, false⟩] at hadd
  · cases hok

/-- A line that opens no region section. -/
theorem regionSection_none {line : List UInt8} (h : line.head? = some '['.toUInt8 →
    ¬ (ascii "layout.").isPrefixOf (copyTrunc 64 (bracketText line)) = true) : regionSection line = none :=
  if_neg fun ⟨hbracket, hlayout⟩ => h hbracket hlayout

/-- A model section is no layout section. -/
theorem not_layout_of_model {text : List UInt8} (h : (ascii "model.").isPrefixOf text = true) :
    ¬ (ascii "layout.").isPrefixOf text = true := by
  have hmodel : ascii "model." = 'm'.toUInt8 :: ascii "odel." := by decide
  have hlayout : ascii "layout." = 'l'.toUInt8 :: ascii "ayout." := by decide
  obtain ⟨rest, rfl⟩ := List.isPrefixOf_iff_prefix.1 h
  rw [hmodel, hlayout]
  exact nofun

/-- A header adds the region of its section, when it has one. -/
theorem described_header {secs : List RegionSection} {st : ParseState} (h : Described secs st.cfg.shape)
    {line : List UInt8} (hbracket : line.head? = some '['.toUInt8)
    (hok : (header line).run.result st = .ok ()) :
    Described (secs ++ (regionSection line).toList) ((header line).run.final st).cfg.shape := by
  have hskip : ¬ (ascii "layout.").isPrefixOf (copyTrunc 64 (bracketText line)) = true →
      secs ++ (regionSection line).toList = secs := by
    intro hlayout
    rw [regionSection_none fun _ => hlayout]
    exact List.append_nil secs
  rw [header] at hok ⊢
  dsimp only at hok ⊢
  rw [result_check] at hok
  rw [final_check]
  split at hok
  · cases hok
  rename_i hclosed
  rw [if_neg hclosed, final_modify_bind]
  rw [result_modify_bind] at hok
  rw [← bracketText] at hok ⊢
  split at hok
  · rename_i hsystem
    rw [if_pos hsystem, hskip (by rw [hsystem]; decide)]
    exact h
  rename_i hsystem
  rw [if_neg hsystem]
  split at hok
  · rename_i hmodel
    rw [if_pos hmodel, hskip (not_layout_of_model hmodel)]
    exact (keepsShape_modelHeader _ _ _ rfl).symm ▸ h
  rename_i hmodel
  rw [if_neg hmodel]
  split at hok
  · rename_i hlayout
    rw [if_pos hlayout]
    obtain ⟨p₀, p₁, p₂, p₃, p₄, htokens, hdescribed⟩ :=
      described_layoutHeader (by exact h) hok (behindParts 4 (bracketText line))
    have hsection : regionSection line =
        some ⟨copyName p₁, copyName p₂, copyName p₄, behindParts 4 (bracketText line)⟩ := by
      unfold regionSection
      dsimp only
      rw [if_pos ⟨hbracket, hlayout⟩, htokens]
    rw [hsection]
    exact hdescribed
  rename_i hlayout
  rw [if_neg hlayout, hskip hlayout]
  split at hok
  · rename_i hcontext
    rw [if_pos hcontext]
    exact (keepsShape_contextHeader _ _ _ rfl).symm ▸ h
  · cases hok

/-- A line adds the region of its section, when it has one. -/
theorem described_readBuffer {secs : List RegionSection} {st : ParseState} (h : Described secs st.cfg.shape)
    {buffer : List UInt8} (hok : (readBuffer buffer).run.result st = .ok ()) :
    Described (secs ++ (regionSection (lineString buffer)).toList)
      ((readBuffer buffer).run.final st).cfg.shape := by
  by_cases hbracket : (lineString buffer).head? = some '['.toUInt8
  · rw [readBuffer_header hbracket, result_modify_bind] at hok
    rw [readBuffer_header hbracket, final_modify_bind]
    exact described_header (by exact h) hbracket hok
  · rw [regionSection_none fun h => absurd h hbracket, Option.toList_none, List.append_nil]
    by_cases hskipped : Skipped (lineString buffer)
    · rw [readBuffer_skipped hskipped]
      exact h
    · rw [readBuffer_keyValue hskipped hbracket, final_modify_bind]
      exact (keepsShape_keyValue _ _ _ rfl).symm ▸ h

theorem described_readBuffers {buffers : List (List UInt8)} {secs : List RegionSection} {st : ParseState}
    (h : Described secs st.cfg.shape) (hok : (buffers.forM readBuffer).run.result st = .ok ()) :
    Described (secs ++ buffers.filterMap fun buffer => regionSection (lineString buffer))
      ((buffers.forM readBuffer).run.final st).cfg.shape := by
  induction buffers generalizing secs st with
  | nil => simpa using h
  | cons buffer buffers ih =>
    obtain ⟨_, hfirst, hrest⟩ := result_bind_ok.1 hok
    rw [readBuffers_cons, final_bind_ok hfirst]
    have hdescribed := ih (described_readBuffer h hfirst) hrest
    rw [List.append_assoc] at hdescribed
    rw [List.filterMap_cons]
    cases hsection : regionSection (lineString buffer) with
    | none => rwa [hsection] at hdescribed
    | some sec => rwa [hsection] at hdescribed

end Parser

/-- The layouts of an accepted file list its region sections. -/
theorem described_parseMemoryIni {file : List UInt8} (haccepted : (parseMemoryIni file).1 = .ok ()) :
    Described (regionSections file) (parseMemoryIni file).2.shape := by
  have hparse :
    Parser.parse file = (readLines file).forM Parser.readBuffer >>= fun _ => Parser.validate := by rfl
  simp only [parseMemoryIni] at haccepted ⊢
  rw [hparse] at haccepted ⊢
  obtain ⟨_, hread, -⟩ := Parser.result_bind_ok.1 haccepted
  rw [Parser.final_bind_ok hread, Parser.final_validate]
  exact Parser.described_readBuffers described_nil hread

/-! ## The section of a region -/

section Accepted

variable {file : List UInt8} {layout : MemoryLayout} {region : MemoryLayoutRegion}

/-- A region of an accepted file has one section. -/
theorem existsUnique_section (haccepted : (parseMemoryIni file).1 = .ok ())
    (hlayout : layout ∈ (parseMemoryIni file).2.layouts) (hregion : region ∈ layout.regions) :
    ∃! sec, sec ∈ regionSections file ∧ sec.Defines layout region := by
  have hdescribed := described_parseMemoryIni haccepted
  have hnames : layout.regions.map (·.name) = (sectionsOf (regionSections file) layout.id).map (·.region) :=
    hdescribed.regions (layout.id, layout.regions.map (·.name)) (List.mem_map_of_mem hlayout)
  have hdistinct : ((sectionsOf (regionSections file) layout.id).map (·.region)).Nodup :=
    hnames ▸ distinct_parseMemoryIni file layout hlayout
  have hmem : region.name ∈ (sectionsOf (regionSections file) layout.id).map (·.region) :=
    hnames ▸ List.mem_map_of_mem hregion
  have hsections : ∀ sec, sec ∈ sectionsOf (regionSections file) layout.id ↔
      sec ∈ regionSections file ∧ (sec.model, sec.layout) = layout.id := by
    intro sec
    rw [sectionsOf, List.mem_filter, decide_eq_true_eq]
  obtain ⟨sec, hsec, hname⟩ := List.mem_map.1 hmem
  refine ⟨sec, ⟨((hsections sec).1 hsec).1, ((hsections sec).1 hsec).2, hname⟩, ?_⟩
  rintro sec' ⟨hsec', hid, hname'⟩
  exact List.inj_on_of_nodup_map hdistinct ((hsections sec').2 ⟨hsec', hid⟩) hsec (hname'.trans hname.symm)

end Accepted

/-! ## Names and pages -/

/-- The section of the file that defines the region which covers a slot of a context. -/
def MemoryConfig.DefinedBy (cfg : MemoryConfig) (file : List UInt8) (model : MemoryModel) (ctx slot : UInt8)
    (sec : RegionSection) (region : MemoryLayoutRegion) : Prop :=
  ∃ layout, cfg.resolveLayoutForContext model ctx = some layout ∧ region ∈ layout.regions ∧
    region.covers slot = true ∧ sec ∈ regionSections file ∧ sec.Defines layout region

/-- Slots on one page were defined under one written name, at one offset. -/
def OneNamePerPage (file : List UInt8) (cfg : MemoryConfig) (model : MemoryModel)
    (mmu : UInt8 × UInt8 → UInt8) : Prop :=
  ∀ ctx < model.contexts, ∀ slot < 16, ∀ ctx' < model.contexts, ∀ slot' < 16,
    ∀ sec region sec' region', cfg.DefinedBy file model ctx slot sec region →
      cfg.DefinedBy file model ctx' slot' sec' region' →
      mmu (ctx, slot) &&& 0x7F = mmu (ctx', slot') &&& 0x7F →
        sec.written = sec'.written ∧ slot - region.start = slot' - region'.start

/-- The section of a shared region in the layout of a context of the model. -/
def SharedSection (file : List UInt8) (cfg : MemoryConfig) (model : MemoryModel) (sec : RegionSection) :
    Prop :=
  ∃ ctx < model.contexts, ∃ layout, cfg.resolveLayoutForContext model ctx = some layout ∧
    ∃ region ∈ layout.regions, region.shared = true ∧ sec ∈ regionSections file ∧ sec.Defines layout region

/-- No two shared regions in use differ only in what is not stored of their names. -/
def SharedNamesKept (file : List UInt8) (cfg : MemoryConfig) (model : MemoryModel) : Prop :=
  ∀ sec sec', SharedSection file cfg model sec → SharedSection file cfg model sec' →
    sec.region = sec'.region → sec.written = sec'.written

section Pages

variable {file : List UInt8} {cfg : MemoryConfig} {model : MemoryModel}

/-- A region is on the slot it starts at. -/
theorem covers_start {layout : MemoryLayout} (h : layout.Tiles) {region : MemoryLayoutRegion}
    (hregion : region ∈ layout.regions) : region.start < 16 ∧ region.covers region.start = true := by
  obtain ⟨hpages, hend⟩ := h.range region hregion
  have hsixteen : (16 : UInt8).toNat = 16 := rfl
  refine ⟨UInt8.lt_iff_toNat_lt.2 (by omega), MemoryLayoutRegion.covers_iff.2 ⟨Nat.le_refl _, by omega⟩⟩

/-- The allocator tells written names apart when it is shown the difference. -/
theorem oneNamePerPage_iff (husable : cfg.Usable model) {phys_map mmu : UInt8 × UInt8 → UInt8}
    (hrule : SharingRule cfg model phys_map mmu)
    (hunique : ∀ layout ∈ cfg.layouts, ∀ region ∈ layout.regions, ∃! sec, sec ∈ regionSections file ∧
      sec.Defines layout region) :
    OneNamePerPage file cfg model mmu ↔ SharedNamesKept file cfg model := by
  have htiles : ∀ {ctx layout}, ctx < model.contexts → cfg.resolveLayoutForContext model ctx = some layout →
      layout.Tiles := by
    intro ctx layout hctx hlayout
    obtain ⟨layout', hlayout', htiles⟩ := husable.layout ctx hctx
    rwa [Option.some.inj (hlayout.symm.trans hlayout')]
  constructor
  · rintro hpages sec sec' ⟨ctx, hctx, layout, hlayout, region, hregion, hshared, hsec, hdefines⟩
      ⟨ctx', hctx', layout', hlayout', region', hregion', hshared', hsec', hdefines'⟩ hname
    obtain ⟨hstart, hcovers⟩ := covers_start (htiles hctx hlayout) hregion
    obtain ⟨hstart', hcovers'⟩ := covers_start (htiles hctx' hlayout') hregion'
    have hkey : region.shared = true ∧ region'.shared = true ∧ region.name = region'.name ∧
        region.start - region.start = region'.start - region'.start := by
      refine ⟨hshared, hshared', ?_, ?_⟩
      · rw [← hdefines.2, hname, hdefines'.2]
      · rw [UInt8.sub_self, UInt8.sub_self]
    have hsame := (hrule.shares ctx hctx region.start hstart ctx' hctx' region'.start hstart' region region'
      ⟨layout, hlayout, hregion, hcovers⟩ ⟨layout', hlayout', hregion', hcovers'⟩).2 (.inr hkey)
    exact (hpages ctx hctx region.start hstart ctx' hctx' region'.start hstart' sec region sec' region'
      ⟨layout, hlayout, hregion, hcovers, hsec, hdefines⟩
      ⟨layout', hlayout', hregion', hcovers', hsec', hdefines'⟩ hsame).1
  · rintro hkept ctx hctx slot hslot ctx' hctx' slot' hslot' sec region sec' region'
      ⟨layout, hlayout, hregion, hcovers, hsec, hdefines⟩
      ⟨layout', hlayout', hregion', hcovers', hsec', hdefines'⟩ hpage
    rcases (hrule.shares ctx hctx slot hslot ctx' hctx' slot' hslot' region region'
      ⟨layout, hlayout, hregion, hcovers⟩ ⟨layout', hlayout', hregion', hcovers'⟩).1 hpage with
      hsame | ⟨hshared, hshared', hname, hoffset⟩
    · obtain ⟨rfl, rfl⟩ := Prod.mk.inj hsame
      obtain rfl := Option.some.inj (hlayout.symm.trans hlayout')
      obtain rfl := (htiles hctx hlayout).covers_unique hregion hregion' hcovers hcovers'
      have hsame := (hunique layout (mem_of_resolveLayout hlayout) region hregion).unique ⟨hsec, hdefines⟩
        ⟨hsec', hdefines'⟩
      exact ⟨congrArg _ hsame, rfl⟩
    · refine ⟨hkept sec sec' ⟨ctx, hctx, layout, hlayout, region, hregion, hshared, hsec, hdefines⟩
        ⟨ctx', hctx', layout', hlayout', region', hregion', hshared', hsec', hdefines'⟩ ?_, hoffset⟩
      rw [hdefines.2, hname, hdefines'.2]

/-- Every slot of an accepted file is defined by one section. -/
theorem existsUnique_definedBy (haccepted : (parseMemoryIni file).1 = .ok ())
    (husable : (parseMemoryIni file).2.Usable model) {ctx slot : UInt8} (hctx : ctx < model.contexts)
    (hslot : slot < 16) :
      ∃! sec, ∃ region, (parseMemoryIni file).2.DefinedBy file model ctx slot sec region := by
  obtain ⟨layout, hlayout, htiles⟩ := husable.layout ctx hctx
  obtain ⟨region, hregion, hcovers⟩ := htiles.complete slot hslot
  obtain ⟨sec, ⟨hsec, hdefines⟩, hunique⟩ :=
    existsUnique_section haccepted (mem_of_resolveLayout hlayout) hregion
  refine ⟨sec, ⟨region, layout, hlayout, hregion, hcovers, hsec, hdefines⟩, ?_⟩
  rintro sec' ⟨region', layout', hlayout', hregion', hcovers', hsec', hdefines'⟩
  obtain rfl := Option.some.inj (hlayout.symm.trans hlayout')
  obtain rfl := htiles.covers_unique hregion hregion' hcovers hcovers'
  exact hunique sec' ⟨hsec', hdefines'⟩

/-- In an accepted file that can be configured every slot has one region section, and slots on one page have
one written name and one offset exactly when no two shared regions in use differ only in what is not stored
of their names. -/
theorem written_names_iff {st : PhysState} (haccepted : (parseMemoryIni file).1 = .ok ())
    (hconfigured : (configureMMUFromActiveModel (parseMemoryIni file).2).result st = true) :
    ∃ model, (parseMemoryIni file).2.findModel (parseMemoryIni file).2.active_model.val = some model ∧
      (∀ ctx < model.contexts, ∀ slot < 16,
        ∃! sec, ∃ region, (parseMemoryIni file).2.DefinedBy file model ctx slot sec region) ∧
      (OneNamePerPage file (parseMemoryIni file).2 model
          ((configureMMUFromActiveModel (parseMemoryIni file).2).final st).mmu ↔
        SharedNamesKept file (parseMemoryIni file).2 model) := by
  obtain ⟨model, husable⟩ := usable_of_validateConfig (validateConfig_of_parseMemoryIni haccepted)
  refine ⟨model, husable.active, fun ctx hctx slot hslot => ?_, ?_⟩
  · exact existsUnique_definedBy haccepted husable hctx hslot
  refine oneNamePerPage_iff husable (sharingRule_of_usable husable hconfigured) ?_
  intro layout hlayout region
  exact existsUnique_section haccepted hlayout

end Pages

/-- A name without a dot in it that fits the section buffer and the name buffer is stored as it is written. -/
theorem region_eq_written {line : List UInt8} {sec : RegionSection} (h : regionSection line = some sec)
    (htext : (bracketText line).length ≤ 63) (hdot : '.'.toUInt8 ∉ sec.written)
    (hlen : sec.written.length ≤ MAX_MEMORY_NAME) : sec.region.val = sec.written := by
  have hkept : copyTrunc 64 (bracketText line) = bracketText line := List.take_of_length_le htext
  unfold regionSection at h
  dsimp only at h
  rw [hkept] at h
  split at h
  · split at h
    · rename_i p₀ p₁ p₂ p₃ p₄ htokens
      obtain rfl := Option.some.inj h
      dsimp only at hdot hlen ⊢
      have hlast : ((tokens (· == '.'.toUInt8) (behindParts 4 (bracketText line))).take 1) = [p₄] := by
        rw [tokens_behindParts, List.take_drop, htokens]
        rfl
      have hplain : ∀ c ∈ behindParts 4 (bracketText line), (c == '.'.toUInt8) = false := by
        intro c hc
        have hne : c ≠ '.'.toUInt8 := fun heq => hdot (heq ▸ hc)
        simpa using hne
      have hne : behindParts 4 (bracketText line) ≠ [] := by
        intro hnil
        rw [hnil, tokens_nil] at hlast
        cases hlast
      have hwhole := tokens_append (p := (· == '.'.toUInt8)) hne hplain (s := []) nofun
      rw [List.append_nil] at hwhole
      rw [hwhole] at hlast
      obtain rfl := (List.cons.inj hlast).1
      exact List.take_of_length_le hlen
    · cases h
  · cases h

/-- Names that are stored as they are written keep regions apart. -/
theorem sharedNamesKept_of_fit {file : List UInt8} {cfg : MemoryConfig} {model : MemoryModel}
    (h : ∀ sec ∈ regionSections file, sec.region.val = sec.written) : SharedNamesKept file cfg model := by
  rintro sec sec' ⟨_, _, _, _, _, _, _, hsec, _⟩ ⟨_, _, _, _, _, _, _, hsec', _⟩ hname
  rw [← h sec hsec, hname, h sec' hsec']

theorem twoContextsIni_written_names : ∃ model,
    (parseMemoryIni twoContextsIni).2.findModel
      (parseMemoryIni twoContextsIni).2.active_model.val = some model ∧
    (∀ ctx < model.contexts, ∀ slot < 16, ∃! sec, ∃ region,
      (parseMemoryIni twoContextsIni).2.DefinedBy twoContextsIni model ctx slot sec region) ∧
    (OneNamePerPage twoContextsIni (parseMemoryIni twoContextsIni).2 model
        ((configureMMUFromActiveModel (parseMemoryIni twoContextsIni).2).final (.atSetup fun _ => 0)).mmu ↔
      SharedNamesKept twoContextsIni (parseMemoryIni twoContextsIni).2 model) :=
  written_names_iff twoContextsIni_parsed.1 (by
    rw [twoContextsIni_parsed.2]
    decide +kernel)

/-- Two contexts whose layouts share a region each, under names of eighteen characters. -/
def longNamesIni : List UInt8 :=
  ascii "[system]\nconfig_version=1\nactive_model=m\nboot_context=0\n[model.m]\ncontexts=2\n" ++
    ascii "[layout.m.a.region.common_workspace_a]\nstart=0\npages=16\nshared=true\n" ++
    ascii "[layout.m.b.region.common_workspace_b]\nstart=0\npages=16\nshared=true\n" ++
    ascii "[context.m.0]\nlayout=a\n[context.m.1]\nlayout=b\n"

/-- The configuration it describes. -/
def longNames : MemoryConfig where
  version := 1
  active_model := copyName (ascii "m")
  boot_context := 0
  models := [⟨copyName (ascii "m"), 2⟩]
  layouts := [
    ⟨copyName (ascii "m"), copyName (ascii "a"),
      [⟨copyName (ascii "common_workspace"), 0, 16, true, .MEMORY_REGION_NORMAL, false⟩]⟩,
    ⟨copyName (ascii "m"), copyName (ascii "b"),
      [⟨copyName (ascii "common_workspace"), 0, 16, true, .MEMORY_REGION_NORMAL, false⟩]⟩]
  contexts :=
    [⟨copyName (ascii "m"), 0, copyName (ascii "a")⟩, ⟨copyName (ascii "m"), 1, copyName (ascii "b")⟩]

set_option maxRecDepth 2000 in
theorem longNamesIni_parsed :
    (parseMemoryIni longNamesIni).1 = .ok () ∧ (parseMemoryIni longNamesIni).2 = longNames ∧
      regionSections longNamesIni =
        [⟨copyName (ascii "m"), copyName (ascii "a"), copyName (ascii "common_workspace"),
            ascii "common_workspace_a"⟩,
          ⟨copyName (ascii "m"), copyName (ascii "b"), copyName (ascii "common_workspace"),
            ascii "common_workspace_b"⟩] := by
  have hbytes : longNamesIni = _ := congrArg₂ (· ++ ·) (congrArg₂ (· ++ ·)
    (congrArg₂ (· ++ ·) (ascii_ofList _) (ascii_ofList _)) (ascii_ofList _)) (ascii_ofList _)
  rw [hbytes]
  decide +kernel

/-- The two regions are on the same pages. -/
theorem longNamesIni_one_page : ¬ ∀ file st, (parseMemoryIni file).1 = .ok () →
    (configureMMUFromActiveModel (parseMemoryIni file).2).result st = true →
    ∀ model, (parseMemoryIni file).2.findModel (parseMemoryIni file).2.active_model.val = some model →
      OneNamePerPage file (parseMemoryIni file).2 model
        ((configureMMUFromActiveModel (parseMemoryIni file).2).final st).mmu := by
  intro h
  obtain ⟨haccepted, hcfg, hsections⟩ := longNamesIni_parsed
  have hpages := h longNamesIni (.atSetup fun _ => 0) haccepted
  rw [hcfg] at hpages
  have hnames := (hpages (by decide +kernel) ⟨copyName (ascii "m"), 2⟩ (by decide +kernel) 0 (by decide) 0
    (by decide) 1 (by decide) 0 (by decide) _ _ _ _
    ⟨_, rfl, List.mem_singleton_self _, by decide, hsections ▸ List.mem_cons_self, by decide +kernel⟩
    ⟨_, rfl, List.mem_singleton_self _, by decide,
      hsections ▸ List.mem_cons_of_mem _ List.mem_cons_self, by decide +kernel⟩
    (by decide +kernel)).1
  exact absurd hnames (by decide)

end NeoMmu
