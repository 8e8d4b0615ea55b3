import Mathlib.Order.Defs.Unbundled
import Mathlib.Order.RelClasses

/-!
# State programs and frame rules

`Prog S α` is a computation over an explicit state `S`. Its meaning is read through two projections:
`result`, the value it returns, and `final`, the state it leaves. `Keeps R m` says that every run of
`m` relates its start state to its final state by `R`; for a preorder `R` it composes along every
program constructor, so a frame or an invariant is proved once for each primitive operation.
-/

namespace NeoMmu

/-- A program over the state `S` that returns a value of `α`. -/
def Prog (S α : Type) : Type := StateM S α

namespace Prog

variable {S T α β : Type}

instance : Monad (Prog S) := inferInstanceAs (Monad (StateM S))
instance : LawfulMonad (Prog S) := inferInstanceAs (LawfulMonad (StateM S))
instance : MonadStateOf S (Prog S) := inferInstanceAs (MonadStateOf S (StateM S))

/-- The value a run from `s` returns. -/
def result (m : Prog S α) (s : S) : α := (m s).1

/-- The state a run from `s` leaves. -/
def final (m : Prog S α) (s : S) : S := (m s).2

-- Proved `by rfl` rather than `rfl`: rewriting then also repairs the decision instance of a branch.
@[simp] theorem result_pure (a : α) (s : S) : (pure a : Prog S α).result s = a := by rfl

@[simp] theorem final_pure (a : α) (s : S) : (pure a : Prog S α).final s = s := by rfl

@[simp] theorem result_bind (m : Prog S α) (f : α → Prog S β) (s : S) :
    (m >>= f).result s = (f (m.result s)).result (m.final s) := by rfl

@[simp] theorem final_bind (m : Prog S α) (f : α → Prog S β) (s : S) :
    (m >>= f).final s = (f (m.result s)).final (m.final s) := by rfl

@[simp] theorem result_map (g : α → β) (m : Prog S α) (s : S) :
    (g <$> m).result s = g (m.result s) := by rfl

@[simp] theorem final_map (g : α → β) (m : Prog S α) (s : S) : (g <$> m).final s = m.final s := by rfl

@[simp] theorem final_discard (m : Prog S α) (s : S) :
    (Functor.discard m : Prog S PUnit).final s = m.final s := by rfl

@[simp] theorem result_get (s : S) : (get : Prog S S).result s = s := by rfl

@[simp] theorem final_get (s : S) : (get : Prog S S).final s = s := by rfl

@[simp] theorem final_set (t s : S) : (set t : Prog S PUnit).final s = t := by rfl

@[simp] theorem final_modify (g : S → S) (s : S) : (modify g : Prog S PUnit).final s = g s := by rfl

@[simp] theorem result_ite (c : Prop) [Decidable c] (m n : Prog S α) (s : S) :
    (if c then m else n).result s = if c then m.result s else n.result s := by
  split <;> rfl

@[simp] theorem final_ite (c : Prop) [Decidable c] (m n : Prog S α) (s : S) :
    (if c then m else n).final s = if c then m.final s else n.final s := by
  split <;> rfl

/-- Read a component of the state. -/
def gets (g : S → α) : Prog S α := fun s => (g s, s)

@[simp] theorem result_gets (g : S → α) (s : S) : (gets g).result s = g s := by rfl

@[simp] theorem final_gets (g : S → α) (s : S) : (gets g).final s = s := by rfl

/-- Run a program on a component of a larger state. -/
def on (proj : T → S) (put : T → S → T) (m : Prog S α) : Prog T α :=
  fun t => (m.result (proj t), put t (m.final (proj t)))

@[simp] theorem result_on (proj : T → S) (put : T → S → T) (m : Prog S α) (t : T) :
    (m.on proj put).result t = m.result (proj t) := by rfl

@[simp] theorem final_on (proj : T → S) (put : T → S → T) (m : Prog S α) (t : T) :
    (m.on proj put).final t = put t (m.final (proj t)) := by rfl

/-! ## Loops that stop at the first failure

`l.allM f` runs `f` on the elements of `l` until one returns false.
-/

section AllM

variable {A B : Type}

@[simp] theorem result_allM_nil (f : A → Prog S Bool) (s : S) :
    (List.allM f []).result s = true := by rfl

@[simp] theorem final_allM_nil (f : A → Prog S Bool) (s : S) :
    (List.allM f []).final s = s := by rfl

theorem result_allM_cons (f : A → Prog S Bool) (a : A) (l : List A) (s : S) :
    (List.allM f (a :: l)).result s =
      ((f a).result s && (List.allM f l).result ((f a).final s)) := by
  simp only [List.allM, result_bind]
  cases (f a).result s <;> rfl

theorem final_allM_cons (f : A → Prog S Bool) (a : A) (l : List A) (s : S) :
    (List.allM f (a :: l)).final s =
      if (f a).result s = true then (List.allM f l).final ((f a).final s) else (f a).final s := by
  simp only [List.allM, final_bind]
  cases (f a).result s <;> rfl

theorem result_allM_append (f : A → Prog S Bool) (l₁ l₂ : List A) (s : S) :
    (List.allM f (l₁ ++ l₂)).result s =
      ((List.allM f l₁).result s && (List.allM f l₂).result ((List.allM f l₁).final s)) := by
  induction l₁ generalizing s with
  | nil => rfl
  | cons a l₁ ih =>
    rw [List.cons_append, result_allM_cons, result_allM_cons, final_allM_cons, ih]
    cases (f a).result s <;> simp

theorem final_allM_append (f : A → Prog S Bool) (l₁ l₂ : List A) (s : S) :
    (List.allM f (l₁ ++ l₂)).final s =
      if (List.allM f l₁).result s = true then (List.allM f l₂).final ((List.allM f l₁).final s)
      else (List.allM f l₁).final s := by
  induction l₁ generalizing s with
  | nil => rfl
  | cons a l₁ ih =>
    rw [List.cons_append, final_allM_cons, final_allM_cons, result_allM_cons, ih]
    cases (f a).result s <;> simp

/-- A loop over bodies whose values do not depend on the state. -/
theorem result_allM_iff {f : A → Prog S Bool} {P : A → Prop} {l : List A}
    (hf : ∀ a ∈ l, ∀ s, (f a).result s = true ↔ P a) (s : S) :
    (List.allM f l).result s = true ↔ ∀ a ∈ l, P a := by
  induction l generalizing s with
  | nil => simp
  | cons a l ih =>
    rw [List.forall_mem_cons] at hf
    rw [result_allM_cons, Bool.and_eq_true, hf.1 s, ih hf.2, List.forall_mem_cons]

theorem allM_congr {f g : A → Prog S Bool} {l : List A} (h : ∀ a ∈ l, f a = g a) :
    List.allM f l = List.allM g l := by
  induction l with
  | nil => rfl
  | cons a l ih =>
    simp only [List.allM, h a List.mem_cons_self, ih fun b hb => h b (List.mem_cons_of_mem a hb)]

/-- A loop ends at the first element whose body fails at once. -/
theorem final_allM_takeWhile {f : A → Prog S Bool} {P : A → Bool}
    (hf : ∀ a, P a = false → f a = pure false) (l : List A) (s : S) :
    (List.allM f l).final s = (List.allM f (l.takeWhile P)).final s := by
  induction l generalizing s with
  | nil => rfl
  | cons a l ih =>
    cases hP : P a with
    | false => rw [List.takeWhile_cons_of_neg (by simp [hP]), final_allM_cons, hf a hP]; rfl
    | true => rw [List.takeWhile_cons_of_pos hP, final_allM_cons, final_allM_cons, ih]

theorem result_allM_takeWhile {f : A → Prog S Bool} {P : A → Bool}
    (hf : ∀ a, P a = false → f a = pure false) (l : List A) (s : S) :
    (List.allM f l).result s = ((List.allM f (l.takeWhile P)).result s && l.all P) := by
  induction l generalizing s with
  | nil => rfl
  | cons a l ih =>
    cases hP : P a with
    | false => rw [List.takeWhile_cons_of_neg (by simp [hP]), result_allM_cons, hf a hP]; simp [hP]
    | true =>
      rw [List.takeWhile_cons_of_pos hP, result_allM_cons, result_allM_cons, ih, List.all_cons, hP,
        Bool.true_and, Bool.and_assoc]

/-- Nested loops are one loop over the flattened list. -/
theorem allM_flatMap (f : A → Prog S Bool) (g : B → List A) (l : List B) :
    List.allM f (l.flatMap g) = List.allM (fun b => List.allM f (g b)) l := by
  refine funext fun s => Prod.ext ?_ ?_
  · change (List.allM f (l.flatMap g)).result s = (List.allM (fun b => List.allM f (g b)) l).result s
    induction l generalizing s with
    | nil => rfl
    | cons b l ih => rw [List.flatMap_cons, result_allM_append, result_allM_cons, ih]
  · change (List.allM f (l.flatMap g)).final s = (List.allM (fun b => List.allM f (g b)) l).final s
    induction l generalizing s with
    | nil => rfl
    | cons b l ih => rw [List.flatMap_cons, final_allM_append, final_allM_cons, ih]

theorem allM_map (f : A → Prog S Bool) (g : B → A) (l : List B) :
    List.allM f (l.map g) = List.allM (fun b => f (g b)) l := by
  induction l with
  | nil => rfl
  | cons b l ih => simp only [List.map_cons, List.allM, ih]

end AllM

/-! ## Frames

`R` is the relation a program keeps between its start state and its final state.
-/

/-- Every run of `m` relates its start state to its final state by `R`. -/
def Keeps (R : S → S → Prop) (m : Prog S α) : Prop := ∀ s, R s (m.final s)

section Keeps

variable {R : S → S → Prop}

theorem Keeps.mono {R' : S → S → Prop} {m : Prog S α} (h : Keeps R m)
    (hR : ∀ s t, R s t → R' s t) : Keeps R' m :=
  fun s => hR s _ (h s)

theorem Keeps.pure [Std.Refl R] (a : α) : Keeps R (pure a : Prog S α) :=
  fun s => refl s

theorem Keeps.get [Std.Refl R] : Keeps R (get : Prog S S) :=
  fun s => refl s

theorem Keeps.gets [Std.Refl R] (g : S → α) : Keeps R (gets g) :=
  fun s => refl s

theorem Keeps.modify {g : S → S} (h : ∀ s, R s (g s)) : Keeps R (modify g : Prog S PUnit) :=
  h

/-- A program that keeps `R`, then one that reaches `Q`, reaches `Q` when `R` is absorbed. -/
theorem Keeps.bind_of {Q : S → S → Prop} {m : Prog S α} {f : α → Prog S β} (hm : Keeps R m)
    (hf : ∀ a, Keeps Q (f a)) (hRQ : ∀ s t u, R s t → Q t u → Q s u) : Keeps Q (m >>= f) :=
  fun s => hRQ _ _ _ (hm s) (hf _ _)

theorem Keeps.bind [IsTrans S R] {m : Prog S α} {f : α → Prog S β} (hm : Keeps R m)
    (hf : ∀ a, Keeps R (f a)) : Keeps R (m >>= f) :=
  hm.bind_of hf fun _ _ _ => trans_of R

/-- As `Keeps.bind`, when what follows relies on what the first program returns. -/
theorem Keeps.bind_result [IsTrans S R] {m : Prog S α} {f : α → Prog S β} (hm : Keeps R m)
    (hf : ∀ s, Keeps R (f (m.result s))) : Keeps R (m >>= f) :=
  fun s => trans_of R (hm s) (hf s _)

theorem Keeps.discard {m : Prog S α} (hm : Keeps R m) :
    Keeps R (Functor.discard m : Prog S PUnit) :=
  hm

theorem Keeps.ite {c : Prop} [Decidable c] {m n : Prog S α} (hm : c → Keeps R m)
    (hn : ¬ c → Keeps R n) : Keeps R (if c then m else n) := by
  split
  · exact hm ‹_›
  · exact hn ‹_›

/-- A loop keeps what its bodies keep. -/
theorem Keeps.allM {A : Type} [Std.Refl R] [IsTrans S R] {f : A → Prog S Bool} {l : List A}
    (hf : ∀ a ∈ l, Keeps R (f a)) : Keeps R (List.allM f l) := by
  induction l with
  | nil => exact Keeps.pure true
  | cons a l ih =>
    intro s
    rw [final_allM_cons]
    split
    · exact trans_of R (hf a List.mem_cons_self s) (ih (fun b hb => hf b (List.mem_cons_of_mem a hb)) _)
    · exact hf a List.mem_cons_self s

/-- What every successful body establishes, and the other bodies keep, holds after a successful
loop. -/
theorem Keeps.allM_post {A : Type} [Std.Refl R] [IsTrans S R] {P : A → S → Prop}
    {f : A → Prog S Bool} {l : List A} (hf : ∀ a ∈ l, Keeps R (f a))
    (hR : ∀ a s t, P a s → R s t → P a t)
    (hpost : ∀ a ∈ l, ∀ s, (f a).result s = true → P a ((f a).final s)) {s : S}
    (h : (List.allM f l).result s = true) : ∀ a ∈ l, P a ((List.allM f l).final s) := by
  induction l generalizing s with
  | nil => simp
  | cons a l ih =>
    rw [result_allM_cons, Bool.and_eq_true] at h
    obtain ⟨ha, hl⟩ := h
    have hf' : ∀ b ∈ l, Keeps R (f b) := fun b hb => hf b (List.mem_cons_of_mem a hb)
    rw [final_allM_cons, if_pos ha]
    intro b hb
    rcases List.mem_cons.1 hb with rfl | hb
    · exact hR b _ _ (hpost b List.mem_cons_self s ha) (Keeps.allM hf' _)
    · exact ih hf' (fun b hb => hpost b (List.mem_cons_of_mem a hb)) hl b hb

theorem final_forM_cons {A : Type} (f : A → Prog S PUnit) (a : A) (l : List A) (s : S) :
    (List.forM (a :: l) f).final s = (List.forM l f).final ((f a).final s) := by rfl

theorem Keeps.forM {A : Type} [Std.Refl R] [IsTrans S R] {f : A → Prog S PUnit} {l : List A}
    (hf : ∀ a ∈ l, Keeps R (f a)) : Keeps R (List.forM l f) := by
  induction l with
  | nil => exact Keeps.pure ()
  | cons a l ih =>
    intro s
    rw [final_forM_cons]
    exact trans_of R (hf a List.mem_cons_self s) (ih (fun b hb => hf b (List.mem_cons_of_mem a hb)) _)

/-- What every body establishes, and the other bodies keep, holds after the loop. -/
theorem Keeps.forM_post {A : Type} [Std.Refl R] [IsTrans S R] {P : A → S → Prop}
    {f : A → Prog S PUnit} {l : List A} (hf : ∀ a ∈ l, Keeps R (f a))
    (hR : ∀ a s t, P a s → R s t → P a t) (hpost : ∀ a ∈ l, ∀ s, P a ((f a).final s)) (s : S) :
    ∀ a ∈ l, P a ((List.forM l f).final s) := by
  induction l generalizing s with
  | nil => exact fun a ha => absurd ha List.not_mem_nil
  | cons a l ih =>
    have hf' : ∀ b ∈ l, Keeps R (f b) := fun b hb => hf b (List.mem_cons_of_mem a hb)
    intro b hb
    rw [final_forM_cons]
    rcases List.mem_cons.1 hb with rfl | hb
    · exact hR b _ _ (hpost b List.mem_cons_self s) (Keeps.forM hf' _)
    · exact ih hf' (fun b hb => hpost b (List.mem_cons_of_mem a hb)) _ b hb

/-- A loop that collects results keeps what its bodies keep. -/
theorem Keeps.mapM {A B : Type} [Std.Refl R] [IsTrans S R] {f : A → Prog S B} {l : List A}
    (hf : ∀ a ∈ l, Keeps R (f a)) : Keeps R (l.mapM f) := by
  induction l with
  | nil => exact Keeps.pure []
  | cons a l ih =>
    rw [List.mapM_cons]
    refine (hf a List.mem_cons_self).bind fun _ => ?_
    exact (ih fun b hb => hf b (List.mem_cons_of_mem a hb)).bind fun _ => Keeps.pure _

/-- What a body establishes and no body takes back, under an invariant they all keep, holds after a loop
that collects their results. -/
theorem mapM_post {A B ι : Type} {I : S → Prop} {P : ι → S → Prop} {f : A → Prog S B} {i : A → ι}
    {l : List A} (hI : ∀ a ∈ l, ∀ s, I s → I ((f a).final s))
    (hpost : ∀ a ∈ l, ∀ s, I s → P (i a) ((f a).final s))
    (hkeep : ∀ a ∈ l, ∀ j s, I s → P j s → P j ((f a).final s)) {s : S} (hs : I s) :
    I ((l.mapM f).final s) ∧ (∀ j, P j s → P j ((l.mapM f).final s)) ∧
      ∀ a ∈ l, P (i a) ((l.mapM f).final s) := by
  induction l generalizing s with
  | nil => exact ⟨hs, fun _ h => h, fun a ha => absurd ha List.not_mem_nil⟩
  | cons a l ih =>
    have hmem : a ∈ a :: l := List.mem_cons_self
    obtain ⟨hI', hkeep', hpost'⟩ := ih (fun b hb => hI b (List.mem_cons_of_mem a hb))
      (fun b hb => hpost b (List.mem_cons_of_mem a hb))
      (fun b hb => hkeep b (List.mem_cons_of_mem a hb)) (hI a hmem s hs)
    rw [List.mapM_cons]
    refine ⟨hI', fun j hj => hkeep' j (hkeep a hmem j s hs hj), fun b hb => ?_⟩
    rcases List.mem_cons.1 hb with rfl | hb
    · exact hkeep' _ (hpost b hmem s hs)
    · exact hpost' b hb

/-- A program run on a component keeps `R` when its effect on the component lifts to `R`. -/
theorem Keeps.on {P : T → T → Prop} {proj : T → S} {put : T → S → T} {m : Prog S α}
    (hm : Keeps R m) (h : ∀ t s, R (proj t) s → P t (put t s)) : Keeps P (m.on proj put) :=
  fun t => h t _ (hm (proj t))

end Keeps

/-! ## Simulation

`p` runs on a larger state than `q`. Seen through `proj` it does what `q` does; `V` relates the value it returns
and the state it leaves to the value of `q`.
-/

/-- From a state of `I`, seen through `proj`, `p` does what `q` does and ends in `V`. -/
def Simulates (proj : T → S) (I : T → Prop) (V : α → T → β → Prop) (p : Prog T α) (q : Prog S β) : Prop :=
  ∀ t, I t → V (p.result t) (p.final t) (q.result (proj t)) ∧ proj (p.final t) = q.final (proj t)

section Simulates

variable {γ δ : Type} {proj : T → S} {I : T → Prop} {V : α → T → β → Prop}

theorem Simulates.mono {I' : T → Prop} {V' : α → T → β → Prop} {p : Prog T α} {q : Prog S β}
    (h : Simulates proj I V p q) (hI : ∀ t, I' t → I t) (hV : ∀ a t b, V a t b → V' a t b) :
    Simulates proj I' V' p q := by
  intro t ht
  obtain ⟨hvalue, hfinal⟩ := h t (hI t ht)
  exact ⟨hV _ _ _ hvalue, hfinal⟩

theorem Simulates.pure {a : α} {b : β} (h : ∀ t, I t → V a t b) :
    Simulates proj I V (pure a : Prog T α) (pure b : Prog S β) :=
  fun t ht => ⟨h t ht, rfl⟩

/-- A fact about the start that does not speak of the state. -/
theorem Simulates.assuming {c : Prop} {p : Prog T α} {q : Prog S β} (h : c → Simulates proj I V p q) :
    Simulates proj (fun t => c ∧ I t) V p q :=
  fun t ht => h ht.1 t ht.2

/-- What follows starts where the first part ended. -/
theorem Simulates.bind {V' : γ → T → δ → Prop} {p : Prog T α} {q : Prog S β} {f : α → Prog T γ} {g : β → Prog S δ}
    (h : Simulates proj I V p q) (hf : ∀ a b, Simulates proj (fun t => V a t b) V' (f a) (g b)) :
    Simulates proj I V' (p >>= f) (q >>= g) := by
  intro t ht
  obtain ⟨hvalue, hfinal⟩ := h t ht
  obtain ⟨hvalue', hfinal'⟩ := hf _ _ _ hvalue
  rw [hfinal] at hvalue' hfinal'
  exact ⟨hvalue', hfinal'⟩

/-- A step of `p` that cannot be seen. -/
theorem Simulates.silent {V' : γ → T → β → Prop} {J : α → T → Prop} {p : Prog T α} {f : α → Prog T γ} {q : Prog S β}
    (h : ∀ t, I t → J (p.result t) (p.final t) ∧ proj (p.final t) = proj t)
    (hf : ∀ a, Simulates proj (J a) V' (f a) q) : Simulates proj I V' (p >>= f) q := by
  intro t ht
  obtain ⟨hpost, hproj⟩ := h t ht
  obtain ⟨hvalue, hfinal⟩ := hf _ _ hpost
  rw [hproj] at hvalue hfinal
  exact ⟨hvalue, hfinal⟩

theorem Simulates.ite {c : Prop} [Decidable c] {p p' : Prog T α} {q q' : Prog S β}
    (h : c → Simulates proj I V p q) (h' : ¬ c → Simulates proj I V p' q') :
    Simulates proj I V (if c then p else p') (if c then q else q') := by
  split
  · exact h ‹_›
  · exact h' ‹_›

end Simulates

end Prog

end NeoMmu
