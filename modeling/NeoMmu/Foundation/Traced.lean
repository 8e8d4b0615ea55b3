import NeoMmu.Foundation.Prog
import NeoMmu.Foundation.Run

/-!
# Programs with a trace

A program over `Traced S E` runs on a state of `S` and leaves a log of events of `E`, in program order. A law
about every moment of a run is a law about the events of its log: `Prog.All P` holds of a log when `P` holds of
each event, and every program constructor says what it adds.
-/

namespace NeoMmu

variable {S E α β : Type}

/-- A state, and the events that led to it, the oldest first. -/
structure Traced (S E : Type) where
  now : S
  log : List E

namespace Traced

/-- No event yet. -/
def start (s : S) : Traced S E := ⟨s, []⟩

/-- Every event of the log is in `P`. -/
def All (P : E → Prop) (t : Traced S E) : Prop := ∀ e ∈ t.log, P e

instance {P : E → Prop} [DecidablePred P] (t : Traced S E) : Decidable (t.All P) :=
  inferInstanceAs (Decidable (∀ e ∈ t.log, P e))

theorem all_start (P : E → Prop) (s : S) : (start s).All P := fun _ h => nomatch h

/-- The trace with one more event. -/
def push (t : Traced S E) (e : E) : Traced S E := { t with log := t.log ++ [e] }

@[simp] theorem now_push (t : Traced S E) (e : E) : (t.push e).now = t.now := rfl

@[simp] theorem all_push {P : E → Prop} {t : Traced S E} {e : E} : (t.push e).All P ↔ t.All P ∧ P e := by
  simp only [All, push, List.forall_mem_append, List.forall_mem_singleton]

/-- The trace with another state. -/
def put (t : Traced S E) (s : S) : Traced S E := { t with now := s }

@[simp] theorem now_put (t : Traced S E) (s : S) : (t.put s).now = s := rfl

@[simp] theorem all_put {P : E → Prop} {t : Traced S E} {s : S} : (t.put s).All P ↔ t.All P := .rfl

/-- Where a step breaks the law exactly when `C` fails, a run keeps it exactly when `C` holds at every step. -/
theorem all_foldl {L : Type} {step : Traced S E → L → Traced S E} {P : E → Prop} {I : S → Prop}
    {C : S → L → Prop} (hI : ∀ t l, I t.now → I (step t l).now)
    (hstep : ∀ t l, I t.now → ((step t l).All P ↔ t.All P ∧ C t.now l)) {t : Traced S E} (ht : I t.now)
    (ls : List L) :
    (ls.foldl step t).All P ↔ t.All P ∧ Run.AtEveryStep step (fun t l => C t.now l) t ls := by
  induction ls generalizing t with
  | nil => exact (and_iff_left (Run.atEveryStep_nil t)).symm
  | cons l ls ih =>
    rw [List.foldl_cons, ih (hI t l ht), hstep t l ht, Run.atEveryStep_cons, and_assoc]

end Traced

namespace Prog

variable {R : Traced S E → Traced S E → Prop}

/-- The state now. -/
def now : Prog (Traced S E) S := gets (·.now)

/-- Change the state, without an event. -/
def update (g : S → S) : Prog (Traced S E) Unit := modify fun t => t.put (g t.now)

/-- Leave an event. -/
def event (e : E) : Prog (Traced S E) Unit := modify fun t => t.push e

@[simp] theorem result_now (t : Traced S E) : (now : Prog (Traced S E) S).result t = t.now := by rfl

@[simp] theorem final_now (t : Traced S E) : (now : Prog (Traced S E) S).final t = t := by rfl

@[simp] theorem final_update (g : S → S) (t : Traced S E) : (update g).final t = t.put (g t.now) := by rfl

@[simp] theorem final_event (e : E) (t : Traced S E) : (event e).final t = t.push e := by rfl

/-- A step that is taken under a condition. -/
def when (c : Prop) [Decidable c] (m : Prog S Unit) : Prog S Unit := if c then m else pure ()

@[simp] theorem final_when (c : Prop) [Decidable c] (m : Prog S Unit) (s : S) :
    (when c m).final s = if c then m.final s else s := by
  rw [when, final_ite, final_pure]

/-- Change the state, and leave the states before and after as the event. -/
def drive (g : S → S) : Prog (Traced S (S × S)) Unit := do
  let s ← now
  event (s, g s)
  update g

@[simp] theorem final_drive (g : S → S) (t : Traced S (S × S)) :
    (drive g).final t = (t.push (t.now, g t.now)).put (g t.now) := by rfl

theorem Keeps.now [Std.Refl R] : Keeps R (now : Prog (Traced S E) S) := fun t => refl t

theorem Keeps.update {g : S → S} (h : ∀ t : Traced S E, R t (t.put (g t.now))) : Keeps R (update g) := h

theorem Keeps.event {e : E} (h : ∀ t : Traced S E, R t (t.push e)) : Keeps R (event e) := h

theorem Keeps.when [Std.Refl R] {c : Prop} [Decidable c] {m : Prog (Traced S E) Unit}
    (h : c → Keeps R m) : Keeps R (when c m) :=
  Keeps.ite h fun _ => Keeps.pure ()

/-! ## Erasure

A program that leaves no event runs on a traced state as on the state itself. A traced program erases to it when
it does the same but for its events.
-/

section Erases

variable {A : Type} {p : Prog (Traced S E) α} {q : Prog S α}

/-- A program on the state leaves no event. -/
def quiet (q : Prog S α) : Prog (Traced S E) α := q.on (·.now) Traced.put

@[simp] theorem result_quiet (q : Prog S α) (t : Traced S E) : (quiet q).result t = q.result t.now := by rfl

@[simp] theorem final_quiet (q : Prog S α) (t : Traced S E) : (quiet q).final t = t.put (q.final t.now) := by rfl

/-- Without its events `p` is `q`. -/
def Erases (p : Prog (Traced S E) α) (q : Prog S α) : Prop :=
  Simulates Traced.now (fun _ => True) (fun a _ b => a = b) p q

theorem Erases.quiet (q : Prog S α) : Erases (Prog.quiet q : Prog (Traced S E) α) q :=
  fun _ _ => ⟨rfl, rfl⟩

theorem Erases.now : Erases (Prog.now : Prog (Traced S E) S) get :=
  fun _ _ => ⟨rfl, rfl⟩

theorem Erases.pure (a : α) : Erases (pure a : Prog (Traced S E) α) (pure a) :=
  Simulates.pure fun _ _ => rfl

theorem Erases.bind {f : α → Prog (Traced S E) β} {g : α → Prog S β} (h : Erases p q)
    (hf : ∀ a, Erases (f a) (g a)) : Erases (p >>= f) (q >>= g) := by
  refine Simulates.bind h fun a b t hab => ?_
  obtain rfl : a = b := hab
  exact hf a t trivial

/-- What only leaves events is not seen. -/
theorem Erases.silent {m : Prog (Traced S E) A} {f : A → Prog (Traced S E) α} (hm : ∀ t, (m.final t).now = t.now)
    (hf : ∀ a, Erases (f a) q) : Erases (m >>= f) q :=
  Simulates.silent (J := fun _ _ => True) (fun t _ => ⟨trivial, hm t⟩) hf

theorem Erases.ite {c : Prop} [Decidable c] {p' : Prog (Traced S E) α} {q' : Prog S α} (h : c → Erases p q)
    (h' : ¬ c → Erases p' q') : Erases (if c then p else p') (if c then q else q') :=
  Simulates.ite h h'

theorem Erases.now_final (h : Erases p q) (t : Traced S E) : (p.final t).now = q.final t.now :=
  (h t trivial).2

end Erases

/-! ## Triples

`Triple P I m J`: from a state of `I` the program `m` comes to a state of `J`, and its events are in `P`.
-/

/-- From `I` to `J`, with events of `P` only. -/
def Triple (P : E → Prop) (I : S → Prop) (m : Prog (Traced S E) α) (J : S → Prop) : Prop :=
  ∀ t, I t.now → J (m.final t).now ∧ (t.All P → (m.final t).All P)

section Triple

variable {P : E → Prop} {I J K : S → Prop}

theorem Triple.mono {I' J' : S → Prop} {m : Prog (Traced S E) α} (h : Triple P I m J) (hI : ∀ s, I' s → I s)
    (hJ : ∀ s, J s → J' s) : Triple P I' m J' := by
  intro t ht
  obtain ⟨hpost, hall⟩ := h t (hI _ ht)
  exact ⟨hJ _ hpost, hall⟩

/-- A weaker condition afterwards. -/
theorem Triple.post {J' : S → Prop} {m : Prog (Traced S E) α} (h : Triple P I m J) (hJ : ∀ s, J s → J' s) :
    Triple P I m J' :=
  h.mono (fun _ h => h) hJ

/-- A stronger condition before. -/
theorem Triple.pre {I' : S → Prop} {m : Prog (Traced S E) α} (h : Triple P I m J) (hI : ∀ s, I' s → I s) :
    Triple P I' m J :=
  h.mono hI fun _ h => h

/-- Two conditions at once. -/
theorem Triple.and {Q : E → Prop} {I' J' : S → Prop} {m : Prog (Traced S E) α} (h : Triple P I m J)
    (h' : Triple Q I' m J') : Triple P (fun s => I s ∧ I' s) m fun s => J s ∧ J' s :=
  fun t ht => ⟨⟨(h t ht.1).1, (h' t ht.2).1⟩, (h t ht.1).2⟩

theorem Triple.pure (a : α) : Triple P I (pure a : Prog (Traced S E) α) I :=
  fun _ ht => ⟨ht, fun h => h⟩

theorem Triple.bind {m : Prog (Traced S E) α} {f : α → Prog (Traced S E) β} (hm : Triple P I m K)
    (hf : ∀ a, Triple P K (f a) J) : Triple P I (m >>= f) J := by
  intro t ht
  obtain ⟨hmid, hall⟩ := hm t ht
  obtain ⟨hpost, hall'⟩ := hf (m.result t) _ hmid
  exact ⟨hpost, fun h => hall' (hall h)⟩

/-- What follows a look at the state starts in the state seen. -/
theorem Triple.now {f : S → Prog (Traced S E) α} (hf : ∀ s, I s → Triple P (· = s) (f s) J) :
    Triple P I (now >>= f) J :=
  fun t ht => hf t.now ht t rfl

/-- As `Triple.now`, when the condition is all that follows needs. -/
theorem Triple.look {f : S → Prog (Traced S E) α} (hf : ∀ s, I s → Triple P I (f s) J) :
    Triple P I (Prog.now >>= f) J :=
  Triple.now fun s hs => (hf s hs).pre fun _ h => h ▸ hs

theorem Triple.event {e : E} (he : P e) : Triple P I (event e) I :=
  fun _ ht => ⟨ht, fun h => Traced.all_push.2 ⟨h, he⟩⟩

theorem Triple.update {g : S → S} (hg : ∀ s, I s → J (g s)) : Triple P I (update g) J :=
  fun _ ht => ⟨hg _ ht, fun h => h⟩

theorem Triple.ite {c : Prop} [Decidable c] {m n : Prog (Traced S E) α} (hm : c → Triple P I m J)
    (hn : ¬ c → Triple P I n J) : Triple P I (if c then m else n) J := by
  split
  · exact hm ‹_›
  · exact hn ‹_›

theorem Triple.when {c : Prop} [Decidable c] {m : Prog (Traced S E) Unit} (hm : c → Triple P I m J)
    (hI : ¬ c → ∀ s, I s → J s) : Triple P I (when c m) J :=
  Triple.ite hm fun hc => (Triple.pure ()).post (hI hc)

/-- As `Triple.when`, for a step that keeps the condition. -/
theorem Triple.when_keep {c : Prop} [Decidable c] {m : Prog (Traced S E) Unit} (hm : c → Triple P I m I) :
    Triple P I (Prog.when c m) I :=
  Triple.when hm fun _ _ h => h

/-- A loop keeps what its bodies keep. -/
theorem Triple.forM {A : Type} {f : A → Prog (Traced S E) PUnit} {l : List A}
    (hf : ∀ a ∈ l, Triple P I (f a) I) : Triple P I (List.forM l f) I := by
  induction l with
  | nil => exact fun _ ht => ⟨ht, fun h => h⟩
  | cons a l ih =>
    intro t ht
    rw [final_forM_cons]
    obtain ⟨hmid, hall⟩ := hf a List.mem_cons_self t ht
    obtain ⟨hpost, hall'⟩ := ih (fun b hb => hf b (List.mem_cons_of_mem a hb)) _ hmid
    exact ⟨hpost, fun h => hall' (hall h)⟩

end Triple

end Prog

end NeoMmu
