import NeoMmu.Memory.Lines

/-!
# Comments in memory.ini

The reading loop skips a buffer whose string is empty or starts with `#` or `;`. A comment line that does
not fit the buffer arrives in pieces, and each piece is read as a line of its own, so the comment is
harmless exactly when every piece of it is skipped.
-/

namespace NeoMmu

variable {α β : Type}

namespace Parser

/-! ## What a step does not look at

Apart from headers, which set the section, the steps of the parser neither read nor change the section and
the line number the parser holds. So they commute with a change of these two.
-/

variable {fs : List UInt8 → List UInt8} {fl : Nat → Nat}

/-- A step of the parser does the same after a move. -/
def Commutes (fs : List UInt8 → List UInt8) (fl : Nat → Nat) (p : Parser α) : Prop := ∀ st,
  (p.run.result (st.moved fs fl)).toOption = (p.run.result st).toOption ∧
    p.run.final (st.moved fs fl) = (p.run.final st).moved fs fl

theorem Commutes.pure (a : α) : Commutes fs fl (pure a : Parser α) := fun _ => ⟨rfl, rfl⟩

theorem Commutes.fail (code : MemoryIniErrorCode) (sectionText key value : Option (List UInt8)) :
    Commutes fs fl (fail code sectionText key value : Parser α) := fun _ => ⟨rfl, rfl⟩

theorem Commutes.bind {p : Parser α} {f : α → Parser β} (hp : Commutes fs fl p)
    (hf : ∀ a, Commutes fs fl (f a)) : Commutes fs fl (p >>= f) := by
  intro st
  obtain ⟨hresult, hfinal⟩ := hp st
  rw [ExceptT.run_bind, Prog.result_bind, Prog.result_bind, Prog.final_bind, Prog.final_bind, hfinal]
  rcases hst : p.run.result st with e | a <;> rcases hmoved : p.run.result (st.moved fs fl) with e' | a' <;>
    rw [hst, hmoved] at hresult
  · exact ⟨rfl, rfl⟩
  · cases hresult
  · cases hresult
  · obtain rfl := Option.some.inj hresult
    exact hf a' (p.run.final st)

/-- What follows a look at the state commutes when the move does not show in it. -/
theorem Commutes.get_bind {f : ParseState → Parser α} (hmoved : ∀ st, f (st.moved fs fl) = f st)
    (hf : ∀ st, Commutes fs fl (f st)) : Commutes fs fl (get >>= f) := by
  intro st
  show ((f (st.moved fs fl)).run.result (st.moved fs fl)).toOption = ((f st).run.result st).toOption ∧
    (f (st.moved fs fl)).run.final (st.moved fs fl) = ((f st).run.final st).moved fs fl
  rw [hmoved]
  exact hf st st

theorem Commutes.ite {c : Prop} [Decidable c] {p q : Parser α} (hp : Commutes fs fl p)
    (hq : Commutes fs fl q) :
    Commutes fs fl (if c then p else q) := by
  split
  · exact hp
  · exact hq

/-- A check in front of the rest of a step. -/
theorem Commutes.check {c : Prop} [Decidable c] {code : MemoryIniErrorCode}
    {sectionText key value : Option (List UInt8)} {k : Unit → Parser α} (hk : Commutes fs fl (k ())) :
    Commutes fs fl (if c then Parser.fail code sectionText key value >>= k else k ()) :=
  ite ((Commutes.fail _ _ _ _).bind fun _ => hk) hk

theorem Commutes.modify {f : ParseState → ParseState} (h : ∀ st, f (st.moved fs fl) = (f st).moved fs fl) :
    Commutes fs fl (modify f : Parser Unit) := fun st => ⟨rfl, h st⟩

theorem Commutes.modifyConfig (f : MemoryConfig → MemoryConfig) : Commutes fs fl (modifyConfig f) :=
  Commutes.modify fun _ => rfl

section

variable (sectionText key val line : List UInt8)

theorem commutes_modelHeader : Commutes fs fl (modelHeader sectionText) := by
  refine Commutes.get_bind (fun _ => rfl) fun st => ?_
  exact Commutes.check (Commutes.check (Commutes.modifyConfig _))

theorem commutes_selectLayout (model name : Name) : Commutes fs fl (selectLayout sectionText model name) := by
  refine Commutes.get_bind (fun _ => rfl) fun st => ?_
  dsimp only
  split
  · exact Commutes.pure _
  · exact Commutes.check ((Commutes.modifyConfig _).bind fun _ => Commutes.pure _)

theorem commutes_layoutHeader : Commutes fs fl (layoutHeader sectionText) := by
  unfold layoutHeader
  split
  · refine Commutes.check ((commutes_selectLayout _ _ _).bind fun i => ?_)
    refine Commutes.bind (Commutes.modify fun _ => rfl) fun _ => ?_
    refine Commutes.get_bind (fun _ => rfl) fun st => ?_
    refine Commutes.check (Commutes.check ((Commutes.modifyConfig _).bind fun _ => ?_))
    exact Commutes.modify fun _ => rfl
  · exact Commutes.fail _ _ _ _

theorem commutes_contextParts : Commutes fs fl (contextParts sectionText) := by
  unfold contextParts
  split
  · refine Commutes.check ?_
    split
    · exact Commutes.fail _ _ _ _
    · exact Commutes.pure _
  · exact Commutes.fail _ _ _ _

theorem commutes_contextHeader : Commutes fs fl (contextHeader sectionText) := by
  refine (commutes_contextParts _).bind fun parts => Commutes.get_bind (fun _ => rfl) fun st => ?_
  exact Commutes.check (Commutes.check (Commutes.modifyConfig _))

theorem commutes_header : Commutes id fl (header line) := by
  refine Commutes.check (Commutes.bind (Commutes.modify fun _ => rfl) fun _ => ?_)
  refine Commutes.ite (Commutes.pure ()) (Commutes.ite (commutes_modelHeader _) ?_)
  refine Commutes.ite (commutes_layoutHeader _) ?_
  exact Commutes.ite (commutes_contextHeader _) (Commutes.fail _ _ _ _)

theorem commutes_systemKey : Commutes fs fl (systemKey sectionText key val) := by
  refine Commutes.ite ?_ (Commutes.ite (Commutes.modifyConfig _) (Commutes.ite ?_ (Commutes.fail _ _ _ _)))
  · rcases parseU8Strict val with - | v
    · exact Commutes.fail _ _ _ _
    · exact Commutes.modifyConfig _
  · rcases parseContextIdStrict val with - | v
    · exact Commutes.fail _ _ _ _
    · exact Commutes.modifyConfig _

theorem commutes_modelKey : Commutes fs fl (modelKey sectionText key val) := by
  refine Commutes.get_bind (fun _ => rfl) fun st => ?_
  split
  · exact Commutes.fail _ _ _ _
  · refine Commutes.ite ?_ (Commutes.fail _ _ _ _)
    rcases parseU8Strict val with - | v
    · exact Commutes.fail _ _ _ _
    · exact Commutes.modifyConfig _

theorem commutes_modifyRegion (f : MemoryLayoutRegion → MemoryLayoutRegion) :
    Commutes fs fl (modifyRegion f) := by
  refine Commutes.modify fun st => ?_
  rcases hi : st.currentLayout with - | i
  · simp only [ParseState.moved, hi]
  · rcases hj : st.currentRegion with - | j
    · simp only [ParseState.moved, hi, hj]
    · simp only [ParseState.moved, hi, hj]

theorem commutes_regionKey : Commutes fs fl (regionKey sectionText key val) := by
  refine Commutes.ite ?_ <| Commutes.ite ?_ <| Commutes.ite ?_ <| Commutes.ite ?_ <|
    Commutes.ite (Commutes.ite (commutes_modifyRegion _) <| Commutes.ite (commutes_modifyRegion _) <|
      Commutes.fail _ _ _ _) (Commutes.fail _ _ _ _)
  · rcases parseU8Strict val with - | v
    · exact Commutes.fail _ _ _ _
    · exact commutes_modifyRegion _
  · rcases parseU8Strict val with - | v
    · exact Commutes.fail _ _ _ _
    · exact commutes_modifyRegion _
  · rcases parseBoolValue val with - | v
    · exact Commutes.fail _ _ _ _
    · exact commutes_modifyRegion _
  · rcases parseBoolValue val with - | v
    · exact Commutes.fail _ _ _ _
    · exact commutes_modifyRegion _

theorem commutes_contextKey : Commutes fs fl (contextKey sectionText key val) := by
  refine (commutes_contextParts _).bind fun parts => Commutes.get_bind (fun _ => rfl) fun st => ?_
  split
  · exact Commutes.fail _ _ _ _
  · exact Commutes.ite (Commutes.modifyConfig _) (Commutes.fail _ _ _ _)

theorem commutes_keyValue : Commutes id fl (keyValue line) := by
  refine Commutes.get_bind (fun _ => rfl) fun st => Commutes.check ?_
  refine Commutes.ite (commutes_systemKey _ _ _) (Commutes.ite (commutes_modelKey _ _ _) ?_)
  refine Commutes.ite (commutes_regionKey _ _ _) ?_
  exact Commutes.ite (commutes_contextKey _ _ _) (Commutes.fail _ _ _ _)

theorem commutes_readBuffer (n : Nat) (buffer : List UInt8) : Commutes id (· + n) (readBuffer buffer) := by
  refine Commutes.bind (Commutes.modify fun st => ?_) fun _ => ?_
  · simp only [ParseState.moved, Nat.add_right_comm]
  · dsimp only
    split
    · exact Commutes.pure ()
    · exact Commutes.ite (Commutes.pure ()) (Commutes.ite (commutes_header _) (commutes_keyValue _))

theorem commutes_readBuffers (n : Nat) (buffers : List (List UInt8)) :
    Commutes id (· + n) (buffers.forM readBuffer) := by
  induction buffers with
  | nil => exact Commutes.pure ()
  | cons buffer buffers ih => exact (commutes_readBuffer n buffer).bind fun _ => ih

theorem commutes_validate : Commutes fs fl validate := by
  refine Commutes.get_bind (fun _ => rfl) fun st => ?_
  split
  · exact fun _ => ⟨rfl, rfl⟩
  · exact Commutes.pure ()

end

/-! ## The section

Only a header changes the section, and when there is no room for another model no header leads to one.
-/

theorem sectionText_of_commutes {p : Parser α} (h : ∀ fs, Commutes fs id p) (st : ParseState) :
    (p.run.final st).sectionText = st.sectionText := by
  have hfinal : p.run.final st = (p.run.final st).moved (fun _ => st.sectionText) id :=
    (h (fun _ => st.sectionText) st).2
  rw [hfinal]
  rfl

theorem sectionText_keyValue (line : List UInt8) (st : ParseState) :
    ((keyValue line).run.final st).sectionText = st.sectionText := by
  rw [keyValue, final_get_bind]
  refine sectionText_of_commutes (fun fs => Commutes.check ?_) st
  refine Commutes.ite (commutes_systemKey _ _ _) (Commutes.ite (commutes_modelKey _ _ _) ?_)
  refine Commutes.ite (commutes_regionKey _ _ _) ?_
  exact Commutes.ite (commutes_contextKey _ _ _) (Commutes.fail _ _ _ _)

/-- There is no room for another model. -/
def NoMoreModels (cfg : MemoryConfig) : Prop := MAX_MEMORY_MODELS ≤ cfg.models.length

theorem noMoreModels_rules : ParserRules NoMoreModels where
  version _ h := h
  active_model _ h := h
  boot_context _ h := h
  model _ _ _ h := by
    rw [NoMoreModels, List.length_append]
    exact Nat.le_add_right_of_le h
  model_contexts _ _ h := by
    rw [NoMoreModels, List.length_modify]
    exact h
  layout _ _ _ _ h := h
  region _ _ h := h
  region_key _ _ _ h := h
  context _ _ _ h := h
  context_layout _ _ h := h

/-- The parser reads no model's section, and there will be no other model. -/
structure PastModels (st : ParseState) : Prop where
  notModel : ¬ (ascii "model.").isPrefixOf st.sectionText = true
  full : NoMoreModels st.cfg

theorem modelHeader_full {st : ParseState} (h : NoMoreModels st.cfg) (sectionText : List UInt8) :
    (modelHeader sectionText).run.result st ≠ .ok () := by
  rw [NoMoreModels] at h
  intro hok
  rw [modelHeader, result_get_bind] at hok
  dsimp only at hok
  rw [result_check, result_check, if_pos h] at hok
  split at hok
  · cases hok
  · cases hok

/-- No header leads to a model when there is no room for one. -/
theorem pastModels_header {st : ParseState} {line : List UInt8} (hplain : 0 ∉ line)
    (hfull : NoMoreModels st.cfg) (hok : (header line).run.result st = .ok ()) :
    PastModels ((header line).run.final st) := by
  refine ⟨?_, noMoreModels_rules.header hplain st hfull⟩
  rw [header] at hok ⊢
  dsimp only at hok ⊢
  rw [result_check] at hok
  rw [final_check]
  split at hok
  · cases hok
  rename_i hclosed
  rw [if_neg hclosed]
  generalize copyTrunc 64 ((line.drop 1).takeWhile (· != ']'.toUInt8)) = sectionText at hok ⊢
  rw [result_modify_bind] at hok
  rw [final_modify_bind]
  split at hok
  · rename_i hsystem
    rw [if_pos hsystem, hsystem]
    show ¬ (ascii "model.").isPrefixOf (ascii "system") = true
    decide
  rename_i hsystem
  rw [if_neg hsystem]
  split at hok
  · exact absurd hok (modelHeader_full (by exact hfull) _)
  rename_i hmodel
  rw [if_neg hmodel]
  split at hok
  · rename_i hlayout
    rw [if_pos hlayout, sectionText_of_commutes fun fs => commutes_layoutHeader _]
    exact hmodel
  rename_i hlayout
  rw [if_neg hlayout]
  split at hok
  · rename_i hcontext
    rw [if_pos hcontext, sectionText_of_commutes fun fs => commutes_contextHeader _]
    exact hmodel
  · cases hok

theorem pastModels_later {st : ParseState} (h : PastModels st) (n : Nat) : PastModels (st.later n) :=
  ⟨h.notModel, h.full⟩

theorem pastModels_readBuffer_header {st : ParseState} {buffer : List UInt8}
    (hheader : (lineString buffer).head? = some '['.toUInt8) (hfull : NoMoreModels st.cfg)
    (hok : (readBuffer buffer).run.result st = .ok ()) : PastModels ((readBuffer buffer).run.final st) := by
  rw [readBuffer_header hheader, result_modify_bind] at hok
  rw [readBuffer_header hheader, final_modify_bind]
  exact pastModels_header (notMem_lineString buffer) (by exact hfull) hok

theorem pastModels_readBuffer {st : ParseState} {buffer : List UInt8} (h : PastModels st)
    (hok : (readBuffer buffer).run.result st = .ok ()) : PastModels ((readBuffer buffer).run.final st) := by
  by_cases hskipped : Skipped (lineString buffer)
  · rw [readBuffer_skipped hskipped]
    exact pastModels_later h 1
  by_cases hheader : (lineString buffer).head? = some '['.toUInt8
  · exact pastModels_readBuffer_header hheader h.full hok
  · rw [readBuffer_keyValue hskipped hheader, final_modify_bind]
    refine ⟨?_, noMoreModels_rules.keyValue (notMem_lineString buffer) _ (by exact h.full)⟩
    rw [sectionText_keyValue]
    exact h.notModel

/-- A step that fails wherever it is taken. -/
def Refused (p : Parser Unit) : Prop := ∀ st, p.run.result st ≠ .ok ()

theorem Refused.fail (code : MemoryIniErrorCode) (sectionText key value : Option (List UInt8)) :
    Refused (fail code sectionText key value) := fun _ h => nomatch h

theorem refused_systemKey (sectionText val : List UInt8) :
    Refused (systemKey sectionText (ascii "contexts") val) := by
  rw [systemKey, if_neg (by decide), if_neg (by decide), if_neg (by decide)]
  exact Refused.fail _ _ _ _

theorem refused_regionKey (sectionText val : List UInt8) :
    Refused (regionKey sectionText (ascii "contexts") val) := by
  rw [regionKey, if_neg (by decide), if_neg (by decide), if_neg (by decide),
    if_neg (by decide), if_neg (by decide)]
  exact Refused.fail _ _ _ _

theorem refused_contextKey (sectionText val : List UInt8) :
    Refused (contextKey sectionText (ascii "contexts") val) := by
  intro st hok
  obtain ⟨parts, -, hkey⟩ := result_bind_ok.1 hok
  rw [result_get_bind] at hkey
  split at hkey
  · cases hkey
  · rw [if_neg (by decide)] at hkey
    cases hkey

/-- Outside a model's section `contexts` is no key. -/
theorem contexts_refused {st : ParseState} (h : PastModels st) :
    (readBuffer (ascii "contexts=1")).run.result st ≠ .ok () := by
  have hkey : trimBlanks ((lineString (ascii "contexts=1")).takeWhile (· != '='.toUInt8)) =
    ascii "contexts" := by decide
  rw [readBuffer_keyValue (by decide) (by decide), result_modify_bind, keyValue,
    result_get_bind]
  dsimp only
  rw [result_check, if_neg (by decide), hkey]
  split
  · exact refused_systemKey _ _ _
  rw [if_neg (by exact h.notModel)]
  split
  · exact refused_regionKey _ _ _
  split
  · exact refused_contextKey _ _ _
  · exact Refused.fail _ _ _ _ _

/-! ## Several lines -/

/-- Skipped lines are only counted. -/
theorem readBuffers_skipped {buffers : List (List UInt8)}
    (h : ∀ buffer ∈ buffers, Skipped (lineString buffer)) :
    buffers.forM readBuffer = modify (ParseState.later buffers.length) := by
  induction buffers with
  | nil => rfl
  | cons buffer buffers ih =>
    rw [List.forall_mem_cons] at h
    have hlater : ∀ st : ParseState, st.later (buffers.length + 1) = (st.later 1).later buffers.length := by
      intro st
      simp only [ParseState.later, ParseState.moved, id, Nat.add_comm buffers.length 1, Nat.add_assoc]
    rw [readBuffers_cons, readBuffer_skipped h.1, ih h.2, List.length_cons, funext hlater]
    rfl

theorem pastModels_readBuffers {buffers : List (List UInt8)} {st : ParseState} (h : PastModels st)
    (hok : (buffers.forM readBuffer).run.result st = .ok ()) :
    PastModels ((buffers.forM readBuffer).run.final st) := by
  induction buffers generalizing st with
  | nil => exact h
  | cons buffer buffers ih =>
    obtain ⟨_, hfirst, hrest⟩ := result_bind_ok.1 hok
    rw [readBuffers_cons, final_bind_ok hfirst]
    exact ih (pastModels_readBuffer h hfirst) hrest

/-- Before the first header a `key=value` line is refused. -/
theorem keyValue_refused {st : ParseState} (hsection : st.sectionText = [])
    (hregion : st.currentRegion = none) (line : List UInt8) : (keyValue line).run.result st ≠ .ok () := by
  rw [keyValue, result_get_bind]
  dsimp only
  rw [result_check, hsection, hregion]
  split
  · exact nofun
  · rw [if_neg (by decide), if_neg (by decide), if_neg (by decide),
      if_neg (by decide)]
    exact nofun

end Parser

/-! ## Comments -/

/-- The text of a comment line. -/
structure IsComment (comment : List UInt8) : Prop where
  starts : comment.head? = some ';'.toUInt8 ∨ comment.head? = some '#'.toUInt8
  oneLine : '\n'.toUInt8 ∉ comment

/-- The comment line may be put in front of any line of any file. -/
def HarmlessComment (comment : List UInt8) : Prop := ∀ pre post, AtLineStart pre →
  (parseMemoryIni (pre ++ (comment ++ ['\n'.toUInt8]) ++ post)).1.isOk =
    (parseMemoryIni (pre ++ post)).1.isOk ∧
    (parseMemoryIni (pre ++ (comment ++ ['\n'.toUInt8]) ++ post)).2 = (parseMemoryIni (pre ++ post)).2

/-- A file with a line in it. -/
theorem parse_insert {pre line : List UInt8} (hpre : AtLineStart pre) (post : List UInt8) :
    Parser.parse (pre ++ (line ++ ['\n'.toUInt8]) ++ post) =
      (readLines pre).forM Parser.readBuffer >>= fun _ =>
      (readLines (line ++ ['\n'.toUInt8])).forM Parser.readBuffer >>= fun _ =>
        (readLines post).forM Parser.readBuffer >>= fun _ => Parser.validate := by
  have hline : AtLineStart (pre ++ (line ++ ['\n'.toUInt8])) := .inr (by simp)
  rw [Parser.parse_append hline, readLines_append hpre, Parser.readBuffers_append, bind_assoc]

/-- Lines that are skipped do not matter. -/
theorem parse_insert_skipped {pre line : List UInt8} (hpre : AtLineStart pre)
    (hskipped : ∀ buffer ∈ readLines (line ++ ['\n'.toUInt8]), Skipped (lineString buffer))
    (post : List UInt8) :
    (parseMemoryIni (pre ++ (line ++ ['\n'.toUInt8]) ++ post)).1.toOption =
        (parseMemoryIni (pre ++ post)).1.toOption ∧
      (parseMemoryIni (pre ++ (line ++ ['\n'.toUInt8]) ++ post)).2 = (parseMemoryIni (pre ++ post)).2 := by
  simp only [parseMemoryIni]
  rw [parse_insert hpre, Parser.readBuffers_skipped hskipped, Parser.parse_append hpre]
  generalize (readLines (line ++ ['\n'.toUInt8])).length = n
  have hrest :
    Parser.Commutes id (· + n) ((readLines post).forM Parser.readBuffer >>= fun _ => Parser.validate) :=
    (Parser.commutes_readBuffers n _).bind fun _ => Parser.commutes_validate
  generalize (readLines post).forM Parser.readBuffer >>= (fun _ => Parser.validate) = rest at hrest
  simp only [ExceptT.run_bind, Prog.result_bind, Prog.final_bind]
  rcases ((readLines pre).forM Parser.readBuffer).run.result .initial with e | a
  · exact ⟨rfl, rfl⟩
  · obtain ⟨hresult, hfinal⟩ := hrest (((readLines pre).forM Parser.readBuffer).run.final .initial)
    have hcfg := congrArg ParseState.cfg hfinal
    exact ⟨hresult, hcfg⟩

theorem isOk_of_toOption {ε : Type} {r r' : Except ε α} (h : r.toOption = r'.toOption) :
    r.isOk = r'.isOk := by
  rcases r with e | a
  · rcases r' with e' | a'
    · rfl
    · cases h
  · rcases r' with e' | a'
    · cases h
    · rfl

theorem harmless_of_skipped {comment : List UInt8}
    (h : ∀ buffer ∈ readLines (comment ++ ['\n'.toUInt8]), Skipped (lineString buffer)) :
      HarmlessComment comment := by
  intro pre post hpre
  obtain ⟨hresult, hcfg⟩ := parse_insert_skipped hpre h post
  exact ⟨isOk_of_toOption hresult, hcfg⟩

theorem eq_ok_of_isOk {ε : Type} {r : Except ε Unit} (h : r.isOk = true) : r = .ok () := by
  rcases r with e | _
  · cases h
  · rfl

/-! ## A file that a stray line spoils

The head of the file leaves no room for another model and ends in a model's section, so no header may stand
in front of the tail. In front of the whole file no other line may.
-/

/-- The first lines of a file with four models. -/
def fourModelsHead : List UInt8 :=
  ascii "[system]\nconfig_version=1\nactive_model=a\nboot_context=0\n[model.a]\ncontexts=1\n" ++
    ascii "[model.b]\ncontexts=1\n[model.c]\ncontexts=1\n[model.d]\n"

/-- The other lines, which go on in the section of the last model. -/
def fourModelsTail : List UInt8 :=
  ascii "contexts=1\n[layout.a.l.region.r]\nstart=0\npages=16\n[context.a.0]\nlayout=l\n"

set_option maxRecDepth 2000 in
theorem fourModels_accepted : (parseMemoryIni (fourModelsHead ++ fourModelsTail)).1 = .ok () := by
  have hhead : fourModelsHead = _ := congrArg₂ (· ++ ·) (ascii_ofList _) (ascii_ofList _)
  have htail : fourModelsTail = _ := ascii_ofList _
  rw [hhead, htail]
  decide +kernel

theorem atLineStart_fourModelsHead : AtLineStart fourModelsHead := by
  have hhead : fourModelsHead = _ := congrArg₂ (· ++ ·) (ascii_ofList _) (ascii_ofList _)
  rw [hhead]
  exact .inr (by decide)

set_option maxRecDepth 2000 in
theorem noMoreModels_fourModelsHead :
    Parser.NoMoreModels ((((readLines fourModelsHead).forM Parser.readBuffer).run.final .initial)).cfg := by
  have hhead : fourModelsHead = _ := congrArg₂ (· ++ ·) (ascii_ofList _) (ascii_ofList _)
  rw [hhead, Parser.NoMoreModels]
  decide +kernel

theorem readLines_fourModelsTail :
    readLines fourModelsTail = ascii "contexts=1" :: readLines (readLine fourModelsTail).2 := by
  have htail : fourModelsTail = _ := ascii_ofList _
  have hne : fourModelsTail ≠ [] := by
    rw [htail]
    exact List.cons_ne_nil _ _
  rw [readLines, dif_neg hne, htail]
  refine congrArg (· :: _) ?_
  decide

/-- Behind a comment line with a header in it the tail of the file is refused. -/
theorem spoiled_of_header {line : List UInt8} {before after : List (List UInt8)} {buffer : List UInt8}
    (hlines : readLines (line ++ ['\n'.toUInt8]) = before ++ buffer :: after)
    (hbefore : ∀ b ∈ before, Skipped (lineString b))
    (hheader : (lineString buffer).head? = some '['.toUInt8) :
    (parseMemoryIni (fourModelsHead ++ (line ++ ['\n'.toUInt8]) ++ fourModelsTail)).1 ≠ .ok () := by
  intro hok
  simp only [parseMemoryIni] at hok
  rw [parse_insert atLineStart_fourModelsHead, hlines, Parser.readBuffers_append,
    Parser.readBuffers_skipped hbefore, Parser.readBuffers_cons, readLines_fourModelsTail,
    Parser.readBuffers_cons] at hok
  obtain ⟨_, -, hok⟩ := Parser.result_bind_ok.1 hok
  generalize hst : ((readLines fourModelsHead).forM Parser.readBuffer).run.final .initial = st at hok
  have hfull : Parser.NoMoreModels st.cfg := hst ▸ noMoreModels_fourModelsHead
  obtain ⟨_, hcomment, hok⟩ := Parser.result_bind_ok.1 hok
  rw [Parser.result_modify_bind] at hcomment
  obtain ⟨_, hfirst, hafter⟩ := Parser.result_bind_ok.1 hcomment
  have hpast := Parser.pastModels_readBuffer_header hheader (by exact hfull) hfirst
  obtain ⟨_, htail, -⟩ := Parser.result_bind_ok.1 hok
  rw [Parser.final_modify_bind, Parser.final_bind_ok hfirst] at htail
  obtain ⟨_, hcontexts, -⟩ := Parser.result_bind_ok.1 htail
  exact Parser.contexts_refused (Parser.pastModels_readBuffers hpast hafter) hcontexts

/-- Behind a line that is no header and no comment the whole file is refused. -/
theorem spoiled_of_key {line : List UInt8} {before after : List (List UInt8)} {buffer : List UInt8}
    (hlines : readLines (line ++ ['\n'.toUInt8]) = before ++ buffer :: after)
    (hbefore : ∀ b ∈ before, Skipped (lineString b)) (hskipped : ¬ Skipped (lineString buffer))
    (hheader : (lineString buffer).head? ≠ some '['.toUInt8) (post : List UInt8) :
    (parseMemoryIni ([] ++ (line ++ ['\n'.toUInt8]) ++ post)).1 ≠ .ok () := by
  intro hok
  simp only [parseMemoryIni] at hok
  rw [parse_insert (.inl rfl), hlines, Parser.readBuffers_append,
    Parser.readBuffers_skipped hbefore, Parser.readBuffers_cons] at hok
  obtain ⟨_, -, hok⟩ := Parser.result_bind_ok.1 hok
  obtain ⟨_, hcomment, -⟩ := Parser.result_bind_ok.1 hok
  rw [Parser.result_modify_bind] at hcomment
  obtain ⟨_, hfirst, -⟩ := Parser.result_bind_ok.1 hcomment
  rw [Parser.readBuffer_keyValue hskipped hheader, Parser.result_modify_bind] at hfirst
  have hempty : readLines [] = [] := by rw [readLines, dif_pos rfl]
  rw [hempty] at hfirst
  exact Parser.keyValue_refused rfl rfl _ hfirst

/-! ## Which comments are harmless -/

/-- What the reader makes of a comment line is skipped exactly when the pieces of the comment are. -/
theorem forall_readLines_iff {comment : List UInt8} (h : IsComment comment) :
    (∀ buffer ∈ readLines (comment ++ ['\n'.toUInt8]), Skipped (lineString buffer)) ↔
      ∀ piece ∈ chunksOf 159 comment, Skipped (lineString piece) := by
  have hempty : Skipped (lineString []) := .inl rfl
  rcases readLines_line h.oneLine with hlines | hlines
  · rw [hlines]
  · rw [hlines]
    simp only [List.forall_mem_append, List.forall_mem_singleton, hempty, and_true]

/-- The string in the buffer starts as the buffer does, when that is no line end and no NUL. -/
theorem head?_lineString {c : UInt8} {rest : List UInt8} (h : c ≠ 0 ∧ c ≠ '\r'.toUInt8 ∧ c ≠ '\n'.toUInt8) :
    (lineString (c :: rest)).head? = some c := by
  have hne : (c :: rest).rdropWhile (fun c => c = '\r'.toUInt8 || c = '\n'.toUInt8) ≠ [] := by
    intro hnil
    have hc := List.rdropWhile_eq_nil_iff.1 hnil c List.mem_cons_self
    simp [h.2.1, h.2.2] at hc
  obtain ⟨c', rest', hcut⟩ := List.exists_cons_of_ne_nil hne
  obtain ⟨_, hprefix⟩ := List.rdropWhile_prefix (fun c => c = '\r'.toUInt8 || c = '\n'.toUInt8) (c :: rest)
  rw [hcut] at hprefix
  obtain rfl : c' = c := (List.cons.inj hprefix).1
  rw [lineString, hcut, List.takeWhile_cons_of_pos (by simpa using h.1), List.head?_cons]

/-- A comment that fits the buffer is harmless. -/
theorem harmless_of_short {comment : List UInt8} (h : IsComment comment) (hlen : comment.length ≤ 159) :
    HarmlessComment comment := by
  have hskipped : ∀ buffer ∈ readLines (comment ++ ['\n'.toUInt8]), Skipped (lineString buffer) := by
    rw [forall_readLines_iff h]
    match comment, h.starts, hlen with
    | c :: rest, hstarts, hlen =>
      rw [chunksOf_short (List.cons_ne_nil _ _) hlen, List.forall_mem_singleton]
      rcases hstarts with hc | hc
      · obtain rfl := Option.some.inj hc
        exact .inr (.inr (head?_lineString (by decide)))
      · obtain rfl := Option.some.inj hc
        exact .inr (.inl (head?_lineString (by decide)))
  exact harmless_of_skipped hskipped

/-- A list that does not have a property throughout has a first element without it. -/
theorem exists_first_not {P : α → Prop} {l : List α} (h : ¬ ∀ a ∈ l, P a) :
    ∃ before a after, l = before ++ a :: after ∧ (∀ b ∈ before, P b) ∧ ¬ P a := by
  induction l with
  | nil => exact absurd (fun _ hmem => nomatch hmem) h
  | cons a l ih =>
    by_cases ha : P a
    · have htail : ¬ ∀ b ∈ l, P b := fun hl => h (List.forall_mem_cons.2 ⟨ha, hl⟩)
      obtain ⟨before, b, after, rfl, hbefore, hb⟩ := ih htail
      exact ⟨a :: before, b, after, rfl, List.forall_mem_cons.2 ⟨ha, hbefore⟩, hb⟩
    · exact ⟨[], a, l, rfl, fun _ hmem => (nomatch hmem), ha⟩

/-- A comment with a piece that is not skipped spoils some file. -/
theorem exists_spoiled {comment : List UInt8}
    (h : ¬ ∀ buffer ∈ readLines (comment ++ ['\n'.toUInt8]), Skipped (lineString buffer)) :
    ∃ pre post, AtLineStart pre ∧ (parseMemoryIni (pre ++ post)).1 = .ok () ∧
      (parseMemoryIni (pre ++ (comment ++ ['\n'.toUInt8]) ++ post)).1 ≠ .ok () := by
  obtain ⟨before, buffer, after, hlines, hbefore, hskipped⟩ := exists_first_not h
  by_cases hheader : (lineString buffer).head? = some '['.toUInt8
  · exact ⟨fourModelsHead, fourModelsTail, atLineStart_fourModelsHead, fourModels_accepted,
      spoiled_of_header hlines hbefore hheader⟩
  · exact ⟨[], fourModelsHead ++ fourModelsTail, .inl rfl, fourModels_accepted,
      spoiled_of_key hlines hbefore hskipped hheader _⟩

/-- A comment line is harmless in every file exactly when each piece of 159 bytes of it is skipped on its own:
is empty or starts with `#` or `;` once its line ends are cut. -/
theorem comment_harmless_iff {comment : List UInt8} (h : IsComment comment) :
    HarmlessComment comment ↔ ∀ piece ∈ chunksOf 159 comment, Skipped (lineString piece) := by
  rw [← forall_readLines_iff h]
  constructor
  · intro hharmless
    by_contra hnot
    obtain ⟨pre, post, hpre, hok, hspoiled⟩ := exists_spoiled hnot
    have hsame := (hharmless pre post hpre).1
    rw [hok] at hsame
    exact hspoiled (eq_ok_of_isOk hsame)
  · exact harmless_of_skipped

theorem comment_harmless_note : HarmlessComment (ascii "; up to 4 models") :=
  (comment_harmless_iff ⟨by decide +kernel, by decide +kernel⟩).2 (by decide +kernel)

/-- A comment of 162 bytes, whose last three are read as a line. -/
def longComment : List UInt8 := ';'.toUInt8 :: List.replicate 158 '-'.toUInt8 ++ ascii "end"

set_option maxRecDepth 2000 in
theorem longComment_spoils : ¬ ∀ comment, IsComment comment → HarmlessComment comment := by
  intro h
  have hharmless := h longComment ⟨by decide, by decide⟩
  have hsame := (hharmless [] (fourModelsHead ++ fourModelsTail) (.inl rfl)).1
  rw [List.nil_append, List.nil_append, fourModels_accepted] at hsame
  have hhead : fourModelsHead = _ := congrArg₂ (· ++ ·) (ascii_ofList _) (ascii_ofList _)
  have htail : fourModelsTail = _ := ascii_ofList _
  have hcomment : longComment = _ :=
    congrArg (';'.toUInt8 :: List.replicate 158 '-'.toUInt8 ++ ·) (ascii_ofList _)
  rw [hhead, htail, hcomment] at hsame
  exact absurd hsame (by decide +kernel)

end NeoMmu
