import Mathlib.Data.List.Basic

/-!
# Runs of a deterministic system

A system is a step function `step : S → L → S`; a run is a list of labels, and the state it reaches is
`ls.foldl step s`. `AtEveryStep step P s ls` says that `P` holds of every step of the run, of the
state the step starts in and of its label. The rules here turn a fact about one step, under an
invariant, into the same fact about whole runs.
-/

namespace NeoMmu.Run

variable {S T L : Type*} {step : S → L → S} {P Q : S → L → Prop} {I : S → Prop}

/-- `P` holds of every step of the run `ls` from `s`. -/
def AtEveryStep (step : S → L → S) (P : S → L → Prop) (s : S) (ls : List L) : Prop :=
  ∀ pre l post, ls = pre ++ l :: post → P (pre.foldl step s) l

theorem atEveryStep_nil (s : S) : AtEveryStep step P s [] := by
  intro pre l post h
  simp at h

theorem atEveryStep_cons {s : S} {l : L} {ls : List L} :
    AtEveryStep step P s (l :: ls) ↔ P s l ∧ AtEveryStep step P (step s l) ls := by
  constructor
  · intro h
    exact ⟨h [] l ls rfl, fun pre k post hk => h (l :: pre) k post (by rw [hk]; rfl)⟩
  · rintro ⟨hl, hls⟩ pre k post hk
    cases pre with
    | nil =>
      obtain ⟨rfl, rfl⟩ := List.cons.inj hk
      exact hl
    | cons j pre =>
      obtain ⟨rfl, hls'⟩ := List.cons.inj hk
      exact hls pre k post hls'

/-- What holds of every step of a run holds of every step of its first part. -/
theorem AtEveryStep.of_append {s : S} {ls ls' : List L} (h : AtEveryStep step P s (ls ++ ls')) :
    AtEveryStep step P s ls := by
  intro pre l post hls
  exact h pre l (post ++ ls') (by rw [hls, List.append_assoc]; rfl)

/-- And of its second part. -/
theorem AtEveryStep.behind {s : S} {ls ls' : List L} (h : AtEveryStep step P s (ls ++ ls')) :
    AtEveryStep step P (ls.foldl step s) ls' := by
  intro pre l post hls
  rw [← List.foldl_append]
  exact h (ls ++ pre) l post (by rw [hls, List.append_assoc])

/-- What is known of every step may be used at every step. -/
theorem atEveryStep_and_iff {s : S} {ls : List L} (hP : AtEveryStep step P s ls) :
    AtEveryStep step (fun s l => P s l ∧ Q s l) s ls ↔ AtEveryStep step Q s ls :=
  ⟨fun h pre l post hls => (h pre l post hls).2, fun h pre l post hls => ⟨hP pre l post hls, h pre l post hls⟩⟩

/-- An invariant that every step preserves holds of the state a run reaches. -/
theorem invariant_foldl (hstep : ∀ s l, I s → I (step s l)) {s : S} (hs : I s) (ls : List L) :
    I (ls.foldl step s) := by
  induction ls generalizing s with
  | nil => exact hs
  | cons l ls ih => exact ih (hstep s l hs)

/-- What an invariant that every step preserves says of one step holds of every step. -/
theorem atEveryStep_of_invariant (hstep : ∀ s l, I s → I (step s l)) (hP : ∀ s l, I s → P s l) {s : S}
    (hs : I s) (ls : List L) : AtEveryStep step P s ls :=
  fun pre l _ _ => hP _ l (invariant_foldl hstep hs pre)

/-- An invariant that every step meeting `P` preserves holds of the state the run reaches. -/
theorem AtEveryStep.invariant (hstep : ∀ s l, I s → P s l → I (step s l)) {s : S} {ls : List L}
    (hs : I s) (h : AtEveryStep step P s ls) : I (ls.foldl step s) := by
  induction ls generalizing s with
  | nil => exact hs
  | cons l ls ih =>
    rw [atEveryStep_cons] at h
    exact ih (hstep s l hs h.1) h.2

/-- Two step properties that agree under an invariant one of them preserves agree on runs. -/
theorem atEveryStep_congr (hstep : ∀ s l, I s → P s l → I (step s l))
    (hPQ : ∀ s l, I s → (P s l ↔ Q s l)) {s : S} {ls : List L} (hs : I s) :
    AtEveryStep step P s ls ↔ AtEveryStep step Q s ls := by
  induction ls generalizing s with
  | nil => exact ⟨fun _ => atEveryStep_nil s, fun _ => atEveryStep_nil s⟩
  | cons l ls ih =>
    rw [atEveryStep_cons, atEveryStep_cons, ← hPQ s l hs]
    exact and_congr_right fun hP => ih (hstep s l hs hP)

/-- A step property of a component of the state is one of the component's own run. -/
theorem atEveryStep_map {step' : T → L → T} {R : T → L → Prop} (f : S → T)
    (hf : ∀ s l, f (step s l) = step' (f s) l) (s : S) (ls : List L) :
    AtEveryStep step (fun s l => R (f s) l) s ls ↔ AtEveryStep step' R (f s) ls := by
  induction ls generalizing s with
  | nil => exact ⟨fun _ => atEveryStep_nil _, fun _ => atEveryStep_nil _⟩
  | cons l ls ih => rw [atEveryStep_cons, atEveryStep_cons, ih, hf]

end NeoMmu.Run
