import NeoMmu.Memory.Validation

/-!
# What the parser keeps

`parseMemoryIni()` changes the configuration in ten ways, each behind its checks. `ParserRules` lists them:
what these changes keep, the parser keeps, whatever file is read.
-/

namespace NeoMmu

variable {α β : Type} {I : MemoryConfig → Prop}

/-- The configuration keeps a property. -/
def ConfigKept (I : MemoryConfig → Prop) (st st' : ParseState) : Prop := I st.cfg → I st'.cfg

instance : Std.Refl (ConfigKept I) where
  refl _ := id

instance : IsTrans ParseState (ConfigKept I) where
  trans _ _ _ h h' := fun hst => h' (h hst)

/-- The changes the parser makes, with what it has checked in front of each. A string that is stored is part
of a line, which has no NUL in it. -/
structure ParserRules (I : MemoryConfig → Prop) : Prop where
  version {cfg : MemoryConfig} (v : UInt8) : I cfg → I { cfg with version := v }
  active_model {cfg : MemoryConfig} {name : Name} : 0 ∉ name.val → I cfg →
    I { cfg with active_model := name }
  boot_context {cfg : MemoryConfig} (v : UInt8) : I cfg → I { cfg with boot_context := v }
  model {cfg : MemoryConfig} {name : Name} : 0 ∉ name.val → ¬ (cfg.findModel name.val).isSome = true →
    cfg.models.length < MAX_MEMORY_MODELS → I cfg →
    I { cfg with models := cfg.models ++ [⟨name, 0⟩] }
  model_contexts {cfg : MemoryConfig} (i : Nat) (v : UInt8) : I cfg →
    I { cfg with models := cfg.models.modify i fun model => { model with contexts := v } }
  layout {cfg : MemoryConfig} {model name : Name} : 0 ∉ model.val → 0 ∉ name.val →
    (∀ layout ∈ cfg.layouts, ¬ (layout.model = model ∧ layout.name = name)) →
    cfg.layouts.length < MAX_MEMORY_LAYOUTS → I cfg →
    I { cfg with layouts := cfg.layouts ++ [⟨model, name, []⟩] }
  region {cfg : MemoryConfig} {i : Nat} {region : MemoryLayoutRegion} : 0 ∉ region.name.val →
    (∀ layout, cfg.layouts[i]? = some layout → ¬ (layout.findRegion region.name.val).isSome = true ∧
      layout.regions.length < MAX_MEMORY_REGIONS) → I cfg →
    I { cfg with layouts := cfg.layouts.modify i fun layout =>
      { layout with regions := layout.regions ++ [region] } }
  region_key {cfg : MemoryConfig} {f : MemoryLayoutRegion → MemoryLayoutRegion} (i j : Nat) :
    (∀ r, (f r).name = r.name) → I cfg →
    I { cfg with layouts := cfg.layouts.modify i fun layout =>
      { layout with regions := layout.regions.modify j f } }
  context {cfg : MemoryConfig} {model : Name} (ctx : UInt8) : 0 ∉ model.val →
    cfg.contexts.length < MAX_MEMORY_CONTEXTS → I cfg →
    I { cfg with contexts := cfg.contexts ++ [⟨model, ctx, Name.empty⟩] }
  context_layout {cfg : MemoryConfig} {name : Name} (i : Nat) : 0 ∉ name.val → I cfg →
    I { cfg with contexts := cfg.contexts.modify i fun b => { b with layout := name } }

namespace Parser

/-! ## Rules for parser steps -/

/-- A step of the parser keeps the property. -/
def Keeps (I : MemoryConfig → Prop) (p : Parser α) : Prop := Prog.Keeps (ConfigKept I) p.run

theorem Keeps.pure (a : α) : Keeps I (pure a : Parser α) := fun _ => id

theorem Keeps.fail (code : MemoryIniErrorCode) (sectionText key value : Option (List UInt8)) :
    Keeps I (fail code sectionText key value : Parser α) := fun _ => id

theorem Keeps.bind {p : Parser α} {f : α → Parser β} (hp : Keeps I p) (hf : ∀ a, Keeps I (f a)) :
    Keeps I (p >>= f) := by
  rw [Keeps, ExceptT.run_bind]
  refine Prog.Keeps.bind hp fun r => ?_
  rcases r with e | a
  · exact Prog.Keeps.pure _
  · exact hf a

/-- What follows a step that keeps the property and has a result that `P` holds of. -/
theorem Keeps.bind_post {p : Parser α} {f : α → Parser β} {P : α → Prop} (hp : Keeps I p)
    (hP : ∀ st a, p.run.result st = .ok a → P a) (hf : ∀ a, P a → Keeps I (f a)) : Keeps I (p >>= f) := by
  rw [Keeps, ExceptT.run_bind]
  intro st
  rw [Prog.final_bind]
  refine trans_of (ConfigKept I) (hp st) ?_
  rcases hres : p.run.result st with e | a
  · exact id
  · exact hf a (hP st a hres) _

/-- What follows a look at the state starts in that state. -/
theorem Keeps.get_bind {f : ParseState → Parser α} (hf : ∀ st, ConfigKept I st ((f st).run.final st)) :
    Keeps I (get >>= f) := hf

theorem Keeps.get : Keeps I (get : Parser ParseState) := fun _ => id

theorem Keeps.ite {c : Prop} [Decidable c] {p q : Parser α} (hp : Keeps I p) (hq : Keeps I q) :
    Keeps I (if c then p else q) := by
  split
  · exact hp
  · exact hq

/-- A check in front of the rest of a step. -/
theorem Keeps.check {c : Prop} [Decidable c] {code : MemoryIniErrorCode}
    {sectionText key value : Option (List UInt8)} {k : Unit → Parser α} (hk : Keeps I (k ())) :
    Keeps I (if c then Parser.fail code sectionText key value >>= k else k ()) :=
  ite ((Keeps.fail _ _ _ _).bind fun _ => hk) hk

/-- What a check leaves: nothing has happened when it fails. -/
theorem final_check {c : Prop} [Decidable c] {code : MemoryIniErrorCode}
    {sectionText key value : Option (List UInt8)} {k : Unit → Parser α} (st : ParseState) :
    (if c then Parser.fail code sectionText key value >>= k else k ()).run.final st =
      if c then st else (k ()).run.final st := by
  split
  · rfl
  · rfl

/-- Where the parser is in the file is no part of the configuration. -/
theorem Keeps.position {f : ParseState → ParseState} (h : ∀ st, (f st).cfg = st.cfg) :
    Keeps I (modify f : Parser Unit) := by
  intro st hst
  show I (f st).cfg
  rwa [h]

theorem Keeps.modify {f : ParseState → ParseState} (h : ∀ st, ConfigKept I st (f st)) :
    Keeps I (modify f : Parser Unit) := h

theorem Keeps.modifyConfig {f : MemoryConfig → MemoryConfig} (h : ∀ cfg, I cfg → I (f cfg)) :
    Keeps I (modifyConfig f) := Keeps.modify fun st => h st.cfg

end Parser

/-! ## Lists that change in one place -/

section Lists

/-- What holds of every element still does, if it does of the one that is changed. -/
theorem forall_mem_modify {P : α → Prop} {l : List α} {f : α → α} {i : Nat}
    (hf : ∀ a, l[i]? = some a → P a → P (f a)) (h : ∀ a ∈ l, P a) : ∀ a ∈ l.modify i f, P a := by
  intro a hmem
  obtain ⟨j, hj⟩ := List.mem_iff_getElem?.1 hmem
  rw [List.getElem?_modify, Option.map_eq_map, Option.map_eq_some_iff] at hj
  obtain ⟨a₀, ha₀, rfl⟩ := hj
  have h₀ := h a₀ (List.mem_of_getElem? ha₀)
  split
  · rename_i heq
    exact hf a₀ (heq ▸ ha₀) h₀
  · exact h₀

/-- A change that `g` does not see. -/
theorem map_modify_of_eq {g : α → β} {f : α → α} (h : ∀ a, g (f a) = g a) (l : List α) (i : Nat) :
    (l.modify i f).map g = l.map g := by
  refine List.ext_getElem? fun k => ?_
  rw [List.getElem?_map, List.getElem?_map, List.getElem?_modify, Option.map_eq_map, Option.map_map]
  refine congrArg (Option.map · l[k]?) (funext fun a => ?_)
  simp only [Function.comp_apply]
  split
  · exact h a
  · rfl

theorem nodup_map_modify {g : α → β} {f : α → α} {l : List α} {i : Nat} (h : (l.map g).Nodup)
    (hf : ∀ a, g (f a) = g a) : ((l.modify i f).map g).Nodup := by
  rw [map_modify_of_eq hf]
  exact h

theorem forall_mem_concat {P : α → Prop} {l : List α} {a : α} (h : ∀ b ∈ l, P b) (ha : P a) :
    ∀ b ∈ l ++ [a], P b := by
  intro b hmem
  rcases List.mem_append.1 hmem with hmem | hmem
  · exact h b hmem
  · obtain rfl := List.mem_singleton.1 hmem
    exact ha

/-- A new element may be appended. -/
theorem nodup_map_concat {g : α → β} {l : List α} {a : α} (h : (l.map g).Nodup)
    (hnew : ∀ b ∈ l, g b ≠ g a) : ((l ++ [a]).map g).Nodup := by
  rw [List.map_append, List.nodup_append]
  refine ⟨h, List.nodup_singleton _, ?_⟩
  rintro _ hb _ hlast rfl
  obtain ⟨b, hmem, hb⟩ := List.mem_map.1 hb
  exact hnew b hmem (hb.trans (List.mem_singleton.1 hlast))

end Lists

/-! ## Strings without NUL -/

section Strings

theorem notMem_copyName {s : List UInt8} (h : 0 ∉ s) : 0 ∉ (copyName s).val :=
  fun hmem => h (List.mem_of_mem_take hmem)

theorem notMem_takeWhile {p : UInt8 → Bool} {s : List UInt8} (h : 0 ∉ s) : 0 ∉ s.takeWhile p :=
  fun hmem => h ((List.takeWhile_prefix p).subset hmem)

theorem notMem_drop {s : List UInt8} (n : Nat) (h : 0 ∉ s) : 0 ∉ s.drop n :=
  fun hmem => h (List.mem_of_mem_drop hmem)

theorem notMem_trimBlanks {s : List UInt8} (h : 0 ∉ s) : 0 ∉ trimBlanks s := by
  intro hmem
  exact h ((List.dropWhile_suffix _).subset ((List.rdropWhile_prefix _ _).subset hmem))

theorem notMem_lineString (buffer : List UInt8) : 0 ∉ lineString buffer := by
  intro hmem
  have hne := List.mem_takeWhile_imp hmem
  simp at hne

theorem notMem_tokens {s t : List UInt8} {p : UInt8 → Bool} (h : 0 ∉ s) (ht : t ∈ tokens p s) : 0 ∉ t :=
  fun hmem => h (subset_of_mem_tokens ht hmem)

end Strings

/-! ## The parser -/

namespace Parser

theorem keeps_contextParts (sectionText : List UInt8) : Keeps I (contextParts sectionText) := by
  unfold contextParts
  split
  · refine Keeps.check ?_
    split
    · exact Keeps.fail _ _ _ _
    · exact Keeps.pure _
  · exact Keeps.fail _ _ _ _

/-- The model a context section names is a part of the section. -/
theorem notMem_contextParts {sectionText : List UInt8} (h : 0 ∉ sectionText) (st : ParseState) (parts : List UInt8 × List UInt8 × UInt8)
    (hparts : (contextParts sectionText).run.result st = .ok parts) : 0 ∉ parts.1 := by
  unfold contextParts at hparts
  split at hparts
  · rename_i p₀ p₁ p₂ htokens
    have hplain : 0 ∉ p₁ := by
      have hmem : p₁ ∈ (tokens (· == '.'.toUInt8) sectionText).take 3 := by
        rw [htokens]
        simp
      exact notMem_tokens h (List.mem_of_mem_take hmem)
    dsimp only at hparts
    split at hparts
    · cases hparts
    split at hparts
    · cases hparts
    · obtain rfl := Except.ok.inj hparts
      exact hplain
  · cases hparts

end Parser

namespace ParserRules

open NeoMmu.Parser

variable (rules : ParserRules I) {sectionText key val : List UInt8}
include rules

theorem modelHeader (h : 0 ∉ sectionText) : Keeps I (modelHeader sectionText) := by
  refine Keeps.get_bind fun st => ?_
  dsimp only
  rw [final_check, final_check]
  split
  · exact id
  split
  · exact id
  rename_i hnew hroom
  rw [copyName_val]
  exact rules.model (notMem_copyName (notMem_drop 6 h)) hnew (Nat.not_le.1 hroom)

theorem selectLayout {model name : Name} (hmodel : 0 ∉ model.val) (hname : 0 ∉ name.val) :
    Keeps I (selectLayout sectionText model name) := by
  refine Keeps.get_bind fun st => ?_
  dsimp only
  split
  · exact id
  rename_i hnone
  rw [final_check]
  split
  · exact id
  rename_i hroom
  rw [copyName_val, copyName_val]
  refine rules.layout hmodel hname (fun layout hmem => ?_) (Nat.not_le.1 hroom)
  simpa using List.findIdx?_eq_none_iff.1 hnone layout hmem

theorem layoutHeader (h : 0 ∉ sectionText) : Keeps I (layoutHeader sectionText) := by
  unfold Parser.layoutHeader
  split
  · rename_i p₀ p₁ p₂ p₃ p₄ hparts
    have hplain : ∀ t ∈ [p₀, p₁, p₂, p₃, p₄], 0 ∉ (copyName t).val := by
      intro t ht
      rw [← hparts] at ht
      exact notMem_copyName (notMem_tokens h (List.mem_of_mem_take ht))
    refine Keeps.check ((rules.selectLayout (hplain p₁ (by simp)) (hplain p₂ (by simp))).bind fun i => ?_)
    refine Keeps.bind (Keeps.position fun _ => rfl) fun _ => Keeps.get_bind fun st => ?_
    dsimp only
    rw [final_check, final_check]
    split
    · exact id
    split
    · exact id
    rename_i hnew hroom
    rw [copyName_val]
    refine rules.region (hplain p₄ (by simp)) fun layout hlayout => ?_
    rw [hlayout] at hnew hroom
    exact ⟨hnew, Nat.not_le.1 hroom⟩
  · exact Keeps.fail _ _ _ _

theorem contextHeader (h : 0 ∉ sectionText) : Keeps I (contextHeader sectionText) := by
  refine (keeps_contextParts _).bind_post (notMem_contextParts h) fun parts hparts => Keeps.get_bind fun st => ?_
  dsimp only
  rw [final_check, final_check]
  split
  · exact id
  split
  · exact id
  rename_i hroom
  exact rules.context _ (notMem_copyName hparts) (Nat.not_le.1 hroom)

theorem header {line : List UInt8} (h : 0 ∉ line) : Keeps I (header line) := by
  have hsection : 0 ∉ copyTrunc 64 ((line.drop 1).takeWhile (· != ']'.toUInt8)) :=
    fun hmem => notMem_takeWhile (notMem_drop 1 h) (List.mem_of_mem_take hmem)
  refine Keeps.check (Keeps.bind (Keeps.position fun _ => rfl) fun _ => ?_)
  refine Keeps.ite (Keeps.pure ()) (Keeps.ite (rules.modelHeader hsection) ?_)
  refine Keeps.ite (rules.layoutHeader hsection) (Keeps.ite (rules.contextHeader hsection) ?_)
  exact Keeps.fail _ _ _ _

/-! ### Keys -/

theorem systemKey (hval : 0 ∉ val) : Keeps I (systemKey sectionText key val) := by
  refine Keeps.ite ?_ (Keeps.ite ?_ (Keeps.ite ?_ (Keeps.fail _ _ _ _)))
  · rcases parseU8Strict val with - | v
    · exact Keeps.fail _ _ _ _
    · exact Keeps.modifyConfig fun _ => rules.version v
  · exact Keeps.modifyConfig fun _ => rules.active_model (notMem_copyName hval)
  · rcases parseContextIdStrict val with - | v
    · exact Keeps.fail _ _ _ _
    · exact Keeps.modifyConfig fun _ => rules.boot_context v

theorem modelKey : Keeps I (modelKey sectionText key val) := by
  refine Keeps.get.bind fun st => ?_
  split
  · exact Keeps.fail _ _ _ _
  · refine Keeps.ite ?_ (Keeps.fail _ _ _ _)
    rcases parseU8Strict val with - | v
    · exact Keeps.fail _ _ _ _
    · exact Keeps.modifyConfig fun _ => rules.model_contexts _ v

/-- A change to the region being read, which keeps its name. -/
theorem modifyRegion {f : MemoryLayoutRegion → MemoryLayoutRegion} (h : ∀ r, (f r).name = r.name) :
    Keeps I (modifyRegion f) := by
  refine Keeps.modify fun st hst => ?_
  split
  · exact rules.region_key _ _ h hst
  · exact hst

theorem regionKey : Keeps I (regionKey sectionText key val) := by
  refine Keeps.ite ?_ <| Keeps.ite ?_ <| Keeps.ite ?_ <| Keeps.ite ?_ <|
    Keeps.ite (Keeps.ite ?_ <| Keeps.ite ?_ <| Keeps.fail _ _ _ _) (Keeps.fail _ _ _ _)
  · rcases parseU8Strict val with - | v
    · exact Keeps.fail _ _ _ _
    · exact rules.modifyRegion fun _ => rfl
  · rcases parseU8Strict val with - | v
    · exact Keeps.fail _ _ _ _
    · exact rules.modifyRegion fun _ => rfl
  · rcases parseBoolValue val with - | v
    · exact Keeps.fail _ _ _ _
    · exact rules.modifyRegion fun _ => rfl
  · rcases parseBoolValue val with - | v
    · exact Keeps.fail _ _ _ _
    · exact rules.modifyRegion fun _ => rfl
  · exact rules.modifyRegion fun _ => rfl
  · exact rules.modifyRegion fun _ => rfl

theorem contextKey (hval : 0 ∉ val) : Keeps I (contextKey sectionText key val) := by
  refine (keeps_contextParts _).bind fun parts => Keeps.get.bind fun st => ?_
  split
  · exact Keeps.fail _ _ _ _
  · refine Keeps.ite (Keeps.modifyConfig fun _ => ?_) (Keeps.fail _ _ _ _)
    exact rules.context_layout _ (notMem_copyName hval)

theorem keyValue {line : List UInt8} (h : 0 ∉ line) : Keeps I (keyValue line) := by
  have hval : 0 ∉ trimBlanks ((line.dropWhile (· != '='.toUInt8)).drop 1) :=
    notMem_trimBlanks (notMem_drop 1 fun hmem => h ((List.dropWhile_suffix _).subset hmem))
  refine Keeps.get.bind fun st => Keeps.check ?_
  refine Keeps.ite (rules.systemKey hval) (Keeps.ite rules.modelKey ?_)
  exact Keeps.ite rules.regionKey (Keeps.ite (rules.contextKey hval) (Keeps.fail _ _ _ _))

/-! ### Files -/

theorem readBuffer (buffer : List UInt8) : Keeps I (readBuffer buffer) := by
  refine Keeps.bind (Keeps.position fun _ => rfl) fun _ => ?_
  have hplain := notMem_lineString buffer
  dsimp only
  split
  · exact Keeps.pure ()
  · rename_i hline
    exact Keeps.ite (Keeps.pure ()) (Keeps.ite (rules.header hplain) (rules.keyValue hplain))

theorem readBuffers (buffers : List (List UInt8)) : Keeps I (buffers.forM Parser.readBuffer) := by
  induction buffers with
  | nil => exact Keeps.pure ()
  | cons buffer buffers ih => exact (rules.readBuffer buffer).bind fun _ => ih

theorem parse (file : List UInt8) : Keeps I (parse file) := by
  refine (rules.readBuffers _).bind fun _ => Keeps.get.bind fun st => ?_
  split
  · exact fun _ => id
  · exact Keeps.pure ()

/-- Whatever file is read, the configuration has what the changes keep. -/
theorem parseMemoryIni (file : List UInt8) (hempty : I .empty) : I (parseMemoryIni file).2 :=
  rules.parse file .initial hempty

end ParserRules

end NeoMmu
