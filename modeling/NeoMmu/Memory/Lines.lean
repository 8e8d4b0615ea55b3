import NeoMmu.Foundation.Chunks
import NeoMmu.Memory.ParserRules

/-!
# The lines of memory.ini

How the reading loop cuts a file into buffers and what it does with each: a buffer is skipped, a header or
a `key=value` line. A run of the parser is taken apart by the lemmas on `result` and `final`.
-/

namespace NeoMmu

variable {α β : Type}

/-! ## Lines and buffers -/

/-- The place in front of `post` is the start of a line of `pre ++ post`. -/
def AtLineStart (pre : List UInt8) : Prop := pre = [] ∨ pre.getLast? = some '\n'.toUInt8

theorem AtLineStart.drop {pre : List UInt8} (h : AtLineStart pre) (n : Nat) : AtLineStart (pre.drop n) := by
  by_cases hn : pre.length ≤ n
  · exact .inl (List.drop_of_length_le hn)
  · rw [AtLineStart, List.getLast?_drop, if_neg hn]
    refine h.imp (fun hnil => ?_) id
    rw [hnil, List.drop_nil]

theorem AtLineStart.newline_mem {pre : List UInt8} (h : AtLineStart pre) (hne : pre ≠ []) :
    '\n'.toUInt8 ∈ pre :=
  List.mem_of_getLast? (h.resolve_left hne)

/-- A list with a newline in it is longer than its first line. -/
theorem length_takeWhile_lt {pre : List UInt8} (h : '\n'.toUInt8 ∈ pre) :
    (pre.takeWhile (· != '\n'.toUInt8)).length < pre.length := by
  refine Nat.lt_of_le_of_ne (List.takeWhile_prefix _).length_le fun heq => ?_
  have hself := (List.takeWhile_prefix _).eq_of_length heq
  rw [← hself] at h
  exact absurd (List.mem_takeWhile_imp h) (by simp)

/-- What comes after a line does not change how the line is read. -/
theorem readLine_append {pre : List UInt8} (h : '\n'.toUInt8 ∈ pre) (rest : List UInt8) :
    readLine (pre ++ rest) = ((readLine pre).1, (readLine pre).2 ++ rest) := by
  have hlt := length_takeWhile_lt h
  have hstored : (pre ++ rest).takeWhile (· != '\n'.toUInt8) = pre.takeWhile (· != '\n'.toUInt8) := by
    rw [List.takeWhile_append, if_neg (Nat.ne_of_lt hlt)]
  simp only [readLine, ← List.take_takeWhile, hstored, List.length_take]
  refine Prod.ext rfl ?_
  dsimp only
  split
  · rw [List.drop_append_of_le_length (by omega)]
  · rw [List.drop_append_of_le_length (by omega)]

/-- A file is read line by line: what is read up to the start of a line does not depend on the rest. -/
theorem readLines_append {pre : List UInt8} (h : AtLineStart pre) (rest : List UInt8) :
    readLines (pre ++ rest) = readLines pre ++ readLines rest := by
  induction pre using readLines.induct with
  | case1 => rw [List.nil_append, readLines.eq_def [], dif_pos rfl, List.nil_append]
  | case2 pre hne ih =>
    have hstart : AtLineStart (readLine pre).2 := by
      rw [readLine]
      dsimp only
      split
      · exact h.drop _
      · exact h.drop _
    rw [readLines.eq_def (pre ++ rest), dif_neg (by simp [hne]), readLine_append (h.newline_mem hne),
      ih hstart, readLines.eq_def pre, dif_neg hne, List.cons_append]

/-- What a reader of a line without a newline in it finds. -/
theorem readLine_line {line : List UInt8} (h : '\n'.toUInt8 ∉ line) :
    readLine (line ++ ['\n'.toUInt8]) = (line.take 159,
      if 159 ≤ line.length then line.drop 159 ++ ['\n'.toUInt8] else []) := by
  have hall : ∀ c ∈ line, (c != '\n'.toUInt8) = true := by
    intro c hc
    have hne : c ≠ '\n'.toUInt8 := fun heq => h (heq ▸ hc)
    simpa using hne
  have hstored : (line ++ ['\n'.toUInt8]).takeWhile (· != '\n'.toUInt8) = line := by
    rw [List.takeWhile_append_of_pos hall, List.takeWhile_cons_of_neg (by simp), List.append_nil]
  simp only [readLine, ← List.take_takeWhile, hstored, List.length_take]
  refine Prod.ext rfl ?_
  dsimp only
  by_cases hlen : 159 ≤ line.length
  · rw [if_pos (by omega), if_pos hlen, List.drop_append_of_le_length hlen]
  · rw [if_neg (by omega), if_neg hlen, List.drop_of_length_le]
    rw [List.length_append, List.length_singleton]
    omega

/-- A line arrives in pieces of 159 bytes. An empty one follows when they come out even. -/
theorem readLines_line {line : List UInt8} (h : '\n'.toUInt8 ∉ line) :
    readLines (line ++ ['\n'.toUInt8]) = chunksOf 159 line ∨
      readLines (line ++ ['\n'.toUInt8]) = chunksOf 159 line ++ [[]] := by
  induction line using chunksOf.induct 159 with
  | case1 line hnil =>
    obtain rfl := hnil.resolve_left (by decide)
    refine .inr ?_
    rw [readLines, dif_neg (by simp), readLine_line h, chunksOf_nil]
    rw [if_neg (by decide), readLines, dif_pos rfl]
    rfl
  | case2 line hcons ih =>
    have hne : line ≠ [] := fun hnil => hcons (.inr hnil)
    have hih := ih fun hmem => h (List.mem_of_mem_drop hmem)
    rw [readLines, dif_neg (by simp), readLine_line h, chunksOf_cons (by decide) hne]
    dsimp only
    by_cases hlen : 159 ≤ line.length
    · rw [if_pos hlen]
      exact hih.imp (congrArg _) (congrArg _)
    · refine .inl ?_
      rw [if_neg hlen, readLines, dif_pos rfl, List.drop_of_length_le (by omega), chunksOf_nil]

/-! ## Lines the parser skips -/

/-- The strings the reading loop continues at. -/
def Skipped (line : List UInt8) : Prop :=
  line = [] ∨ line.head? = some '#'.toUInt8 ∨ line.head? = some ';'.toUInt8

instance : DecidablePred Skipped := fun line =>
  inferInstanceAs (Decidable (line = [] ∨ line.head? = some '#'.toUInt8 ∨ line.head? = some ';'.toUInt8))

/-- The state with another section and another line number. -/
def ParseState.moved (fs : List UInt8 → List UInt8) (fl : Nat → Nat) (st : ParseState) : ParseState :=
  { st with sectionText := fs st.sectionText, lineNo := fl st.lineNo }

/-- The state some lines later. -/
def ParseState.later (n : Nat) (st : ParseState) : ParseState := st.moved id (· + n)

namespace Parser

/-! ## Runs of a step -/

theorem result_get_bind (f : ParseState → Parser α) (st : ParseState) :
    (get >>= f).run.result st = (f st).run.result st := by rfl

theorem final_get_bind (f : ParseState → Parser α) (st : ParseState) :
    (get >>= f).run.final st = (f st).run.final st := by rfl

theorem result_modify_bind (g : ParseState → ParseState) (f : PUnit → Parser α) (st : ParseState) :
    (modify g >>= f).run.result st = (f ⟨⟩).run.result (g st) := by rfl

theorem final_modify_bind (g : ParseState → ParseState) (f : PUnit → Parser α) (st : ParseState) :
    (modify g >>= f).run.final st = (f ⟨⟩).run.final (g st) := by rfl

/-- A step in two parts succeeds when both do. -/
theorem result_bind_ok {p : Parser α} {f : α → Parser β} {st : ParseState} {b : β} :
    (p >>= f).run.result st = .ok b ↔
      ∃ a, p.run.result st = .ok a ∧ (f a).run.result (p.run.final st) = .ok b := by
  rw [ExceptT.run_bind, Prog.result_bind]
  rcases p.run.result st with e | a
  · exact ⟨nofun, nofun⟩
  · exact ⟨fun h => ⟨a, rfl, h⟩, fun ⟨a', ha, h⟩ => Except.ok.inj ha ▸ h⟩

theorem final_bind_ok {p : Parser α} {f : α → Parser β} {st : ParseState} {a : α}
    (h : p.run.result st = .ok a) : (p >>= f).run.final st = (f a).run.final (p.run.final st) := by
  rw [ExceptT.run_bind, Prog.final_bind, h]

theorem result_check {c : Prop} [Decidable c] {code : MemoryIniErrorCode}
    {sectionText key value : Option (List UInt8)} {k : Unit → Parser α} (st : ParseState) :
    (if c then Parser.fail code sectionText key value >>= k else k ()).run.result st =
      if c then .error (failMemoryIni code st.lineNo sectionText key value) else (k ()).run.result st := by
  split
  · rfl
  · rfl

/-! ## The three kinds of lines -/

theorem readBuffer_skipped {buffer : List UInt8} (h : Skipped (lineString buffer)) :
    readBuffer buffer = modify (ParseState.later 1) := by
  refine (bind_congr fun _ => ?_).trans (bind_pure _)
  dsimp only
  generalize lineString buffer = line at h
  match line, h with
  | [], _ => rfl
  | c :: rest, h =>
    have hc : c = '#'.toUInt8 ∨ c = ';'.toUInt8 :=
      (h.resolve_left (List.cons_ne_nil _ _)).imp Option.some.inj Option.some.inj
    exact if_pos hc

theorem readBuffer_header {buffer : List UInt8} (h : (lineString buffer).head? = some '['.toUInt8) :
    readBuffer buffer = modify (ParseState.later 1) >>= fun _ => header (lineString buffer) := by
  refine bind_congr fun _ => ?_
  dsimp only
  generalize lineString buffer = line at h
  match line, h with
  | c :: rest, h =>
    obtain rfl := Option.some.inj h
    rfl

theorem readBuffer_keyValue {buffer : List UInt8} (hskipped : ¬ Skipped (lineString buffer))
    (hheader : (lineString buffer).head? ≠ some '['.toUInt8) :
    readBuffer buffer = modify (ParseState.later 1) >>= fun _ => keyValue (lineString buffer) := by
  refine bind_congr fun _ => ?_
  dsimp only
  generalize lineString buffer = line at hskipped hheader
  match line, hskipped, hheader with
  | [], hskipped, _ => exact absurd (.inl rfl) hskipped
  | c :: rest, hskipped, hheader =>
    have hc : ¬ (c = '#'.toUInt8 ∨ c = ';'.toUInt8) :=
      fun hc => hskipped (.inr (hc.imp (congrArg _) (congrArg _)))
    have hbracket : c ≠ '['.toUInt8 := fun hc => hheader (congrArg _ hc)
    exact (if_neg hc).trans (if_neg hbracket)

/-! ## Several lines -/

theorem readBuffers_cons (buffer : List UInt8) (buffers : List (List UInt8)) :
    (buffer :: buffers).forM readBuffer = readBuffer buffer >>= fun _ => buffers.forM readBuffer := by rfl

theorem readBuffers_append (buffers buffers' : List (List UInt8)) :
    (buffers ++ buffers').forM readBuffer = buffers.forM readBuffer >>= fun _ => buffers'.forM readBuffer :=
  List.forM_append

/-- What follows the lines of a file. -/
def validate : Parser Unit := do
  match validateConfig (← get).cfg with
  | .error e => throw e
  | .ok () => return

theorem final_validate (st : ParseState) : validate.run.final st = st := by
  rw [validate, final_get_bind]
  split
  · rfl
  · rfl

theorem parse_append {pre : List UInt8} (h : AtLineStart pre) (post : List UInt8) :
    parse (pre ++ post) = (readLines pre).forM readBuffer >>= fun _ =>
      (readLines post).forM readBuffer >>= fun _ => validate := by
  rw [parse, readLines_append h, readBuffers_append, bind_assoc]
  rfl

end Parser

end NeoMmu
