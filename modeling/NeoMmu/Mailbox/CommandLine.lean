import Mathlib.Data.List.Infix
import NeoMmu.Mailbox.MonitorInput

/-!
# The command line of the monitor

`taskICMonitor()` takes one byte from Serial1. In a terminal it goes to `monitorConsoleInput()`; otherwise it edits
the command line, whose buffer holds 39 characters. What the buffer does not hold is discarded with the rest of its
line. Seen from outside this is an editor without a bound, in front of a monitor that ignores the lines that were too
long at any time.
-/

namespace NeoMmu

variable {σ α : Type}

/-! ## The task -/

/-- `ICM_INPUT_BUFFER_SIZE` -/
def ICM_INPUT_BUFFER_SIZE : Nat := 40

/-- The statics of the command line, with the memory from `gInputBuffer` on. -/
structure CommandLine where
  gInputIndex : UInt8
  gInputBuffer : Nat → UInt8
  gInputOverflow : Bool

/-- The terminal with the command line. -/
structure SerialMonitor (σ : Type) where
  terminal : Terminal σ
  line : CommandLine

/-- A program on the terminal. -/
def SerialMonitor.onTerminal (p : Prog (Terminal σ) α) : Prog (SerialMonitor σ) α :=
  p.on (·.terminal) fun s t => { s with terminal := t }

/-- `resetMonitorInput()` -/
def resetMonitorInput (l : CommandLine) : CommandLine where
  gInputIndex := 0
  gInputBuffer := Function.update l.gInputBuffer 0 0
  gInputOverflow := false

/-- `appendMonitorInput()`; nothing reads its result. -/
def appendMonitorInput (c : Int) (l : CommandLine) : CommandLine :=
  if l.gInputOverflow then l
  else if c < 0x20 ∨ 0x7E < c then l
  else if ICM_INPUT_BUFFER_SIZE - 1 ≤ l.gInputIndex.toNat then
    { gInputIndex := 0, gInputBuffer := Function.update l.gInputBuffer 0 0, gInputOverflow := true }
  else { l with
    gInputIndex := l.gInputIndex + 1
    gInputBuffer := Function.update (Function.update l.gInputBuffer l.gInputIndex.toNat (UInt8.ofInt c))
      (l.gInputIndex + 1).toNat 0 }

/-- The backspace of `taskICMonitor()`. -/
def deleteMonitorInput (l : CommandLine) : CommandLine :=
  if 1 ≤ l.gInputIndex then { l with
    gInputIndex := l.gInputIndex - 1
    gInputBuffer := Function.update l.gInputBuffer (l.gInputIndex - 1).toNat 0 }
  else l

/-- The string in the buffer. -/
def CommandLine.text (l : CommandLine) : List UInt8 :=
  ((List.range ICM_INPUT_BUFFER_SIZE).map l.gInputBuffer).takeWhile (· ≠ 0)

/-- `isValidProbeTerminalInput()` -/
def isValidProbeTerminalInput (c : Int) : Bool := 0x00 < c ∧ c ≤ 0x7F

/-- `normalInput()`. Only `returnToICM()` leaves the terminal, and it resets the command line as well. -/
def normalInput (c : UInt8) : Prog (SerialMonitor σ) Unit := do
  discard <| SerialMonitor.onTerminal (monitorConsoleInput c true)
  if (← get).terminal.gInterface = 0 then
    modify fun s => { s with line := resetMonitorInput s.line }

/-- `taskICMonitor()` with the value read from Serial1; `parse` is `gCli.parse()`. The prompt is not modelled. -/
def taskICMonitor (parse : List UInt8 → Prog (Terminal σ) Unit) (c : Int) : Prog (SerialMonitor σ) Unit := do
  let s ← get
  if s.terminal.gInterface ≠ 0 then
    if isValidProbeTerminalInput c then
      normalInput (UInt8.ofInt c)
  else if c = -1 then
    return
  else if c = 0x08 ∨ c = 127 then
    modify fun s => { s with line := deleteMonitorInput s.line }
  else if c = 0x0D then
    return
  else if c = 0x0A then
    if s.line.gInputOverflow = false then
      SerialMonitor.onTerminal (parse s.line.text)
    modify fun s => { s with line := resetMonitorInput s.line }
  else
    modify fun s => { s with line := appendMonitorInput c s.line }

/-- What happens to the monitor. -/
inductive SerialStep (σ : Type)
  /-- A byte arrives. -/
  | byte (c : Int)
  /-- The rest of `loop()` leaves the firmware and the display like this. -/
  | aside (firmware : Firmware σ) (vdu : Vdu)

/-- One step of the monitor. -/
def SerialMonitor.step (parse : List UInt8 → Prog (Terminal σ) Unit) (s : SerialMonitor σ) :
    SerialStep σ → SerialMonitor σ
  | .byte c => (taskICMonitor parse c).final s
  | .aside firmware vdu => { s with terminal := { s.terminal with firmware := firmware, vdu := vdu } }

/-! ## Editing without a bound -/

/-- A key of the editor. -/
def editKey (text : List UInt8) (c : Int) : List UInt8 :=
  if c = 0x08 ∨ c = 127 then text.dropLast
  else if 0x20 ≤ c ∧ c ≤ 0x7E then text ++ [UInt8.ofInt c]
  else text

/-- The text that some keys leave. -/
def edited (keys : List Int) : List UInt8 := keys.foldl editKey []

/-- The text was at no time longer than the buffer. -/
def KeysFit (keys : List Int) : Prop := ∀ typed ∈ keys.inits, (edited typed).length < ICM_INPUT_BUFFER_SIZE

instance (keys : List Int) : Decidable (KeysFit keys) := inferInstanceAs (Decidable (∀ _ ∈ _, _))

/-- The terminal, with the keys since the last end of a line. -/
structure LineSession (σ : Type) where
  terminal : Terminal σ
  keys : List Int

/-- One step of the session: a line that fitted is a command, and in a terminal every byte is input. -/
def LineSession.step (parse : List UInt8 → Prog (Terminal σ) Unit) (s : LineSession σ) :
    SerialStep σ → LineSession σ
  | .byte c =>
    if s.terminal.gInterface ≠ 0 then { s with
      terminal :=
        if 0 < c ∧ c ≤ 0x7F then (monitorConsoleInput (UInt8.ofInt c) true).final s.terminal else s.terminal }
    else if c = 0x0A then
      ⟨if KeysFit s.keys then (parse (edited s.keys)).final s.terminal else s.terminal, []⟩
    else { s with keys := s.keys ++ [c] }
  | .aside firmware vdu => { s with terminal := { s.terminal with firmware := firmware, vdu := vdu } }

section Editor

theorem edited_concat (keys : List Int) (c : Int) : edited (keys ++ [c]) = editKey (edited keys) c :=
  List.foldl_concat editKey [] c keys

theorem keysFit_nil : KeysFit [] := by decide

theorem keysFit_concat {keys : List Int} {c : Int} :
    KeysFit (keys ++ [c]) ↔ KeysFit keys ∧ (edited (keys ++ [c])).length < ICM_INPUT_BUFFER_SIZE := by
  simp only [KeysFit, List.mem_inits, List.prefix_concat_iff]
  constructor
  · exact fun h => ⟨fun typed htyped => h typed (.inr htyped), h _ (.inl rfl)⟩
  · rintro ⟨h, hlast⟩ typed (rfl | htyped)
    · exact hlast
    · exact h typed htyped

theorem KeysFit.length_lt {keys : List Int} (h : KeysFit keys) : (edited keys).length < ICM_INPUT_BUFFER_SIZE :=
  h keys ((List.mem_inits _ _).2 List.prefix_rfl)

/-- A character is no NUL. -/
theorem ofInt_ne_zero {c : Int} (h : 0x20 ≤ c ∧ c ≤ 0x7E) : UInt8.ofInt c ≠ 0 := by
  intro heq
  have hnat := congrArg UInt8.toNat heq
  rw [UInt8.ofInt, UInt8.toNat_ofNat'] at hnat
  simp only [UInt8.toNat_zero] at hnat
  omega

theorem ne_zero_of_mem_edited (keys : List Int) : ∀ b ∈ edited keys, b ≠ 0 := by
  induction keys using List.reverseRecOn with
  | nil => exact List.forall_mem_nil _
  | append_singleton keys c ih =>
    rw [edited_concat, editKey]
    split
    · exact fun b hb => ih b (List.mem_of_mem_dropLast hb)
    split
    · rename_i hprintable
      intro b hb
      rcases List.mem_append.1 hb with hb | hb
      · exact ih b hb
      · rw [List.mem_singleton.1 hb]
        exact ofInt_ne_zero hprintable
    · exact ih

end Editor

/-! ## The buffer -/

/-- The buffer holds the text and its NUL. -/
structure CommandLine.Holds (l : CommandLine) (text : List UInt8) : Prop where
  index : l.gInputIndex.toNat = text.length
  chars : (List.range text.length).map l.gInputBuffer = text
  terminator : l.gInputBuffer text.length = 0

/-- The line as the keys have left it, with the memory behind the buffer as it was. -/
structure CommandLine.Shows (l : CommandLine) (memory : Nat → UInt8) (keys : List Int) : Prop where
  behind : ∀ i, ICM_INPUT_BUFFER_SIZE ≤ i → l.gInputBuffer i = memory i
  overflow : l.gInputOverflow = decide (¬ KeysFit keys)
  holds : l.Holds (if KeysFit keys then edited keys else [])

section Buffer

variable {l : CommandLine} {memory : Nat → UInt8} {keys : List Int} {text : List UInt8}

theorem CommandLine.Holds.text_eq (h : l.Holds text) (hlength : text.length < ICM_INPUT_BUFFER_SIZE)
    (hchars : ∀ b ∈ text, b ≠ 0) : l.text = text := by
  obtain ⟨n, hn⟩ := Nat.exists_eq_add_of_lt hlength
  have hsplit : (List.range ICM_INPUT_BUFFER_SIZE).map l.gInputBuffer =
      text ++ 0 :: (List.range n).map fun i => l.gInputBuffer (text.length + (i + 1)) := by
    rw [hn, Nat.add_assoc, List.range_add, List.map_append, h.chars, List.range_succ_eq_map, List.map_cons, List.map_cons,
      Nat.add_zero, h.terminator, List.map_map, List.map_map]
    rfl
  rw [CommandLine.text, hsplit, List.takeWhile_append_of_pos]
  · rw [List.takeWhile_cons_of_neg, List.append_nil]
    simp
  · intro b hb
    exact decide_eq_true (hchars b hb)

/-- A cell behind the text may change. -/
theorem map_update_range {n i : Nat} (hi : n ≤ i) (buffer : Nat → UInt8) (b : UInt8) :
    (List.range n).map (Function.update buffer i b) = (List.range n).map buffer := by
  refine List.map_congr_left fun j hj => Function.update_of_ne (fun heq => ?_) _ _
  have hlt := List.mem_range.1 hj
  omega

theorem CommandLine.Holds.dropLast (h : l.Holds text) (hindex : 1 ≤ l.gInputIndex) :
    (deleteMonitorInput l).Holds text.dropLast := by
  have hback : (l.gInputIndex - 1).toNat = text.length - 1 := by
    rw [UInt8.toNat_sub_of_le _ _ hindex, h.index]
    rfl
  have hpos : 1 ≤ text.length := by
    rw [← h.index]
    exact UInt8.le_iff_toNat_le.1 hindex
  obtain ⟨n, hn⟩ := Nat.exists_eq_add_of_le' hpos
  have hchars := h.chars
  rw [hn, List.range_succ, List.map_append, List.map_singleton] at hchars
  rw [deleteMonitorInput, if_pos hindex, ← hchars, List.dropLast_concat]
  rw [hn, Nat.add_sub_cancel] at hback
  refine ⟨?_, ?_, ?_⟩
  · rw [hback, List.length_map, List.length_range]
  · rw [List.length_map, List.length_range, hback]
    exact map_update_range (Nat.le_refl n) _ _
  · rw [List.length_map, List.length_range, hback]
    exact Function.update_self _ _ _

theorem CommandLine.Holds.concat (h : l.Holds text) (hlength : text.length < 255) (b : UInt8) :
    CommandLine.Holds { l with
      gInputIndex := l.gInputIndex + 1
      gInputBuffer := Function.update (Function.update l.gInputBuffer l.gInputIndex.toNat b) (l.gInputIndex + 1).toNat 0 }
        (text ++ [b]) := by
  have hnext : (l.gInputIndex + 1).toNat = text.length + 1 := by
    rw [UInt8.toNat_add, h.index]
    exact Nat.mod_eq_of_lt (Nat.succ_lt_succ hlength)
  have hconcat : (text ++ [b]).length = text.length + 1 := List.length_append
  refine ⟨?_, ?_, ?_⟩
  · rw [hnext, hconcat]
  · rw [hconcat, hnext, h.index, map_update_range (Nat.le_refl _), List.range_succ, List.map_append,
      map_update_range (Nat.le_refl _), h.chars, List.map_singleton, Function.update_self]
  · rw [hconcat, hnext]
    exact Function.update_self _ _ _

/-- A write inside of the buffer. -/
theorem update_behind {buffer : Nat → UInt8} (h : ∀ i, ICM_INPUT_BUFFER_SIZE ≤ i → buffer i = memory i) {j : Nat}
    (hj : j < ICM_INPUT_BUFFER_SIZE) (b : UInt8) :
    ∀ i, ICM_INPUT_BUFFER_SIZE ≤ i → Function.update buffer j b i = memory i := by
  intro i hi
  rw [Function.update_of_ne (Nat.ne_of_gt (Nat.lt_of_lt_of_le hj hi))]
  exact h i hi

/-- An empty line. -/
theorem holds_nil (buffer : Nat → UInt8) (overflow : Bool) :
    CommandLine.Holds ⟨0, Function.update buffer 0 0, overflow⟩ [] :=
  ⟨rfl, rfl, Function.update_self 0 0 buffer⟩

theorem shows_reset (h : ∀ i, ICM_INPUT_BUFFER_SIZE ≤ i → l.gInputBuffer i = memory i) :
    (resetMonitorInput l).Shows memory [] := by
  refine ⟨update_behind h (by decide) 0, ?_, ?_⟩
  · rw [decide_eq_false (not_not_intro keysFit_nil)]
    rfl
  · rw [if_pos keysFit_nil]
    exact holds_nil l.gInputBuffer false

/-- A key that leaves the text. -/
theorem CommandLine.Shows.ignored (h : l.Shows memory keys) {c : Int} (hc : editKey (edited keys) c = edited keys) :
    l.Shows memory (keys ++ [c]) := by
  have hfits : KeysFit (keys ++ [c]) ↔ KeysFit keys := by
    rw [keysFit_concat, edited_concat, hc]
    exact ⟨And.left, fun hkeys => ⟨hkeys, hkeys.length_lt⟩⟩
  refine ⟨h.behind, ?_, ?_⟩
  · rw [h.overflow]
    simp only [hfits]
  · simp only [hfits, edited_concat, hc]
    exact h.holds

/-- A line that was too long stays so. -/
theorem CommandLine.Shows.tooLong (h : l.Shows memory keys) (hkeys : ¬ KeysFit keys) (c : Int) :
    l.Shows memory (keys ++ [c]) := by
  have hfits : ¬ KeysFit (keys ++ [c]) := fun hall => hkeys (keysFit_concat.1 hall).1
  have hoverflow := h.overflow
  have hholds := h.holds
  rw [decide_eq_true hkeys] at hoverflow
  rw [if_neg hkeys] at hholds
  refine ⟨h.behind, ?_, ?_⟩
  · rw [hoverflow, decide_eq_true hfits]
  · rwa [if_neg hfits]

/-- A line that fits now, with the text the key leaves. -/
theorem CommandLine.Shows.of_fits {l' : CommandLine}
    (hbehind : ∀ i, ICM_INPUT_BUFFER_SIZE ≤ i → l'.gInputBuffer i = memory i)
    (hoverflow : l'.gInputOverflow = false) {c : Int} (hkeys : KeysFit keys)
    (hlength : (edited (keys ++ [c])).length < ICM_INPUT_BUFFER_SIZE) (hholds : l'.Holds (edited (keys ++ [c]))) :
    l'.Shows memory (keys ++ [c]) := by
  have hfits : KeysFit (keys ++ [c]) := keysFit_concat.2 ⟨hkeys, hlength⟩
  refine ⟨hbehind, ?_, ?_⟩
  · rw [hoverflow, decide_eq_false (not_not_intro hfits)]
  · rwa [if_pos hfits]

theorem CommandLine.Shows.delete (h : l.Shows memory keys) {c : Int} (hc : c = 0x08 ∨ c = 127) :
    (deleteMonitorInput l).Shows memory (keys ++ [c]) := by
  by_cases hkeys : KeysFit keys
  swap
  · have hholds := h.holds
    rw [if_neg hkeys] at hholds
    have hindex : ¬ 1 ≤ l.gInputIndex := by
      rw [UInt8.le_iff_toNat_le, hholds.index]
      decide
    rw [deleteMonitorInput, if_neg hindex]
    exact h.tooLong hkeys c
  have hholds := h.holds
  rw [if_pos hkeys] at hholds
  have hlt := hkeys.length_lt
  have hkey : editKey (edited keys) c = (edited keys).dropLast := if_pos hc
  by_cases hindex : 1 ≤ l.gInputIndex
  · have hdropped := hholds.dropLast hindex
    have hlength : (edited keys).dropLast.length = (edited keys).length - 1 := List.length_dropLast
    rw [← hkey, ← edited_concat] at hdropped hlength
    refine CommandLine.Shows.of_fits ?_ ?_ hkeys (by omega) hdropped
    · rw [deleteMonitorInput, if_pos hindex]
      refine update_behind h.behind ?_ 0
      rw [UInt8.toNat_sub_of_le _ _ hindex, hholds.index]
      exact Nat.lt_of_le_of_lt (Nat.sub_le _ _) hlt
    · rw [deleteMonitorInput, if_pos hindex]
      exact h.overflow.trans (decide_eq_false (not_not_intro hkeys))
  · have hempty : edited keys = [] := by
      apply List.eq_nil_of_length_eq_zero
      rw [← hholds.index]
      rw [UInt8.le_iff_toNat_le, show (1 : UInt8).toNat = 1 from rfl] at hindex
      omega
    rw [deleteMonitorInput, if_neg hindex]
    refine h.ignored ?_
    rw [hkey, hempty]
    rfl

theorem CommandLine.Shows.append (h : l.Shows memory keys) {c : Int} (hc : ¬ (c = 0x08 ∨ c = 127)) :
    (appendMonitorInput c l).Shows memory (keys ++ [c]) := by
  rw [appendMonitorInput]
  by_cases hkeys : KeysFit keys
  swap
  · rw [if_pos (h.overflow.trans (decide_eq_true hkeys))]
    exact h.tooLong hkeys c
  have hholds := h.holds
  rw [if_pos hkeys] at hholds
  have hoverflow : l.gInputOverflow = false := h.overflow.trans (decide_eq_false (not_not_intro hkeys))
  rw [if_neg (by rw [hoverflow]; exact Bool.false_ne_true)]
  by_cases hprintable : 0x20 ≤ c ∧ c ≤ 0x7E
  swap
  · rw [if_pos (by omega)]
    refine h.ignored ?_
    rw [editKey, if_neg hc, if_neg hprintable]
  rw [if_neg (by omega)]
  have hkey : edited (keys ++ [c]) = edited keys ++ [UInt8.ofInt c] := by
    rw [edited_concat, editKey, if_neg hc, if_pos hprintable]
  have hlength : (edited (keys ++ [c])).length = (edited keys).length + 1 := by
    rw [hkey]
    exact List.length_append
  rw [hholds.index, ICM_INPUT_BUFFER_SIZE]
  split
  · -- the line does not fit any more
    rename_i hfull
    have hfits : ¬ KeysFit (keys ++ [c]) := by
      intro hall
      have hlt := hall.length_lt
      rw [hlength, ICM_INPUT_BUFFER_SIZE] at hlt
      omega
    refine ⟨update_behind h.behind (by decide) 0, (decide_eq_true hfits).symm, ?_⟩
    rw [if_neg hfits]
    exact holds_nil l.gInputBuffer true
  · rename_i hroom
    have hnext : (l.gInputIndex + 1).toNat = (edited keys).length + 1 := by
      rw [UInt8.toNat_add, hholds.index]
      exact Nat.mod_eq_of_lt (show (edited keys).length + 1 < 2 ^ 8 by omega)
    refine CommandLine.Shows.of_fits ?_ ?_ hkeys ?_ ?_
    · have hfirst : ∀ b, ∀ i, ICM_INPUT_BUFFER_SIZE ≤ i →
          Function.update l.gInputBuffer l.gInputIndex.toNat b i = memory i :=
        update_behind h.behind (by rw [hholds.index, ICM_INPUT_BUFFER_SIZE]; omega)
      rw [← hholds.index]
      exact update_behind (hfirst _) (by rw [hnext, ICM_INPUT_BUFFER_SIZE]; omega) 0
    · exact hoverflow
    · rw [hlength, ICM_INPUT_BUFFER_SIZE]
      omega
    · rw [hkey, ← hholds.index]
      exact hholds.concat (by omega) _

end Buffer

/-! ## Sessions -/

/-- The monitor behind the keys of a session; in a terminal there are none. -/
structure SerialMonitor.Mirrors (s : SerialMonitor σ) (memory : Nat → UInt8) (a : LineSession σ) : Prop where
  terminal : s.terminal = a.terminal
  line : s.line.Shows memory a.keys
  keys : a.terminal.gInterface ≠ 0 → a.keys = []

section Session

variable {parse : List UInt8 → Prog (Terminal σ) Unit} {s : SerialMonitor σ} {a : LineSession σ}
  {memory : Nat → UInt8}

/-- A byte of a terminal. -/
theorem SerialMonitor.Mirrors.input (h : s.Mirrors memory a) (hterminal : s.terminal.gInterface ≠ 0) (c : Int) :
    (s.step parse (.byte c)).Mirrors memory (a.step parse (.byte c)) := by
  have hkeys : a.keys = [] := h.keys (h.terminal ▸ hterminal)
  have hline := h.line
  rw [hkeys] at hline
  rw [LineSession.step, if_pos (h.terminal ▸ hterminal), ← h.terminal, SerialMonitor.step]
  simp only [taskICMonitor, normalInput, SerialMonitor.onTerminal, Prog.final_bind, Prog.result_get, Prog.final_get, Prog.final_ite,
    Prog.final_discard, Prog.final_on, Prog.final_modify, Prog.final_pure, if_pos hterminal, isValidProbeTerminalInput,
    decide_eq_true_eq]
  split
  · generalize (monitorConsoleInput (UInt8.ofInt c) true).final s.terminal = t
    split
    · refine ⟨rfl, ?_, fun _ => hkeys⟩
      rw [hkeys]
      exact shows_reset hline.behind
    · exact ⟨rfl, h.line, fun _ => hkeys⟩
  · exact ⟨rfl, h.line, fun _ => hkeys⟩

/-- The end of a line. -/
theorem SerialMonitor.Mirrors.endOfLine (h : s.Mirrors memory a) (hterminal : s.terminal.gInterface = 0) :
    (s.step parse (.byte 0x0A)).Mirrors memory (a.step parse (.byte 0x0A)) := by
  have hreset : (resetMonitorInput s.line).Shows memory [] := shows_reset h.line.behind
  have hoverflow := h.line.overflow
  have hholds := h.line.holds
  rw [LineSession.step, if_neg (not_not_intro (h.terminal ▸ hterminal)), ← h.terminal, if_pos rfl]
  simp only [SerialMonitor.step, taskICMonitor, SerialMonitor.onTerminal, Prog.final_bind, Prog.result_get, Prog.final_get,
    Prog.final_ite, Prog.final_on, Prog.final_modify, Prog.final_pure, if_neg (not_not_intro hterminal)]
  rw [if_neg (by decide), if_neg (by decide), if_neg (by decide), if_pos trivial]
  by_cases hkeys : KeysFit a.keys
  · rw [if_pos hkeys] at hholds
    rw [decide_eq_false (not_not_intro hkeys)] at hoverflow
    rw [if_pos hoverflow, if_pos hkeys, hholds.text_eq hkeys.length_lt (ne_zero_of_mem_edited a.keys)]
    exact ⟨rfl, hreset, fun _ => rfl⟩
  · rw [decide_eq_true hkeys] at hoverflow
    rw [if_neg (by rw [hoverflow]; exact Bool.true_eq_false.mp), if_neg hkeys]
    exact ⟨rfl, hreset, fun _ => rfl⟩

/-- A key of the command line. -/
theorem SerialMonitor.Mirrors.key (h : s.Mirrors memory a) (hterminal : s.terminal.gInterface = 0) {c : Int}
    (hc : c ≠ 0x0A) : (s.step parse (.byte c)).Mirrors memory (a.step parse (.byte c)) := by
  have hinterface : a.terminal.gInterface = 0 := h.terminal ▸ hterminal
  have hother : ∀ l : CommandLine, l.Shows memory (a.keys ++ [c]) →
      SerialMonitor.Mirrors { s with line := l } memory { a with keys := a.keys ++ [c] } :=
    fun l hl => ⟨h.terminal, hl, fun hne => absurd hinterface hne⟩
  rw [LineSession.step, if_neg (not_not_intro hinterface), if_neg hc]
  simp only [SerialMonitor.step, taskICMonitor, SerialMonitor.onTerminal, Prog.final_bind, Prog.result_get, Prog.final_get,
    Prog.final_ite, Prog.final_modify, Prog.final_pure, if_neg (not_not_intro hterminal), if_neg hc]
  split
  · rename_i hnone
    refine hother s.line (h.line.ignored ?_)
    rw [hnone]
    rfl
  split
  · exact hother _ (h.line.delete ‹_›)
  split
  · rename_i hreturn
    refine hother s.line (h.line.ignored ?_)
    rw [hreturn]
    rfl
  · exact hother _ (h.line.append ‹_›)

/-- A step of the monitor is one of the session. -/
theorem SerialMonitor.Mirrors.step (h : s.Mirrors memory a) (l : SerialStep σ) :
    (s.step parse l).Mirrors memory (a.step parse l) := by
  cases l with
  | byte c =>
    by_cases hterminal : s.terminal.gInterface = 0
    · by_cases hc : c = 0x0A
      · rw [hc]
        exact h.endOfLine hterminal
      · exact h.key hterminal hc
    · exact h.input hterminal c
  | aside firmware vdu =>
    refine ⟨?_, h.line, h.keys⟩
    rw [SerialMonitor.step, LineSession.step, h.terminal]

theorem SerialMonitor.Mirrors.run (h : s.Mirrors memory a) (run : List (SerialStep σ)) :
    (run.foldl (SerialMonitor.step parse) s).Mirrors memory (run.foldl (LineSession.step parse) a) := by
  induction run generalizing s a with
  | nil => exact h
  | cons l run ih => exact ih (h.step l)

/-- Whatever Serial1 receives, and whatever the firmware does in between: the terminal is the one of a session that
edits without a bound and takes those lines as commands that were at no time longer than 39 characters; the buffer
holds the line so far with its NUL; and no byte behind the buffer changes. -/
theorem command_line_exact (parse : List UInt8 → Prog (Terminal σ) Unit) (t : Terminal σ) (l : CommandLine)
    (run : List (SerialStep σ)) :
    let s := run.foldl (SerialMonitor.step parse) ⟨t, resetMonitorInput l⟩
    let a := run.foldl (LineSession.step parse) ⟨t, []⟩
    s.terminal = a.terminal ∧ s.line.text = (if KeysFit a.keys then edited a.keys else []) ∧
      s.line.gInputIndex.toNat = s.line.text.length ∧ s.line.text.length < ICM_INPUT_BUFFER_SIZE ∧
        ∀ i, ICM_INPUT_BUFFER_SIZE ≤ i → s.line.gInputBuffer i = l.gInputBuffer i := by
  intro s a
  have hstart : SerialMonitor.Mirrors ⟨t, resetMonitorInput l⟩ l.gInputBuffer ⟨t, []⟩ :=
    ⟨rfl, shows_reset fun _ _ => rfl, fun _ => rfl⟩
  have h : s.Mirrors l.gInputBuffer a := hstart.run run
  have hlength : (if KeysFit a.keys then edited a.keys else []).length < ICM_INPUT_BUFFER_SIZE := by
    split
    · exact KeysFit.length_lt ‹_›
    · decide
  have htext := h.line.holds.text_eq hlength (by
    split
    · exact ne_zero_of_mem_edited a.keys
    · exact List.forall_mem_nil _)
  rw [← htext] at hlength
  exact ⟨h.terminal, htext, htext ▸ h.line.holds.index, hlength, h.line.behind⟩

end Session

end NeoMmu
