import NeoMmu.Foundation.Traced

/-!
# Monitors

A monitor reads a log event by event and refuses some events in some of its states: a protocol as an automaton. A
program obeys it when, from a log the monitor accepts and a state that fits the monitor's, it comes to such a log
and such a state again. That the monitor accepts the log of every run then follows from one step.
-/

namespace NeoMmu

variable {S E M α β : Type}

/-- An automaton over events. -/
structure Monitor (M E : Type) where
  start : M
  step : M → E → Option M

/-- The state after a log, if every event of it is accepted. -/
def Monitor.run (μ : Monitor M E) (log : List E) : Option M := log.foldlM μ.step μ.start

@[simp] theorem Monitor.run_nil (μ : Monitor M E) : μ.run [] = some μ.start := rfl

theorem Monitor.run_append_singleton (μ : Monitor M E) (log : List E) (e : E) :
    μ.run (log ++ [e]) = (μ.run log).bind fun h => μ.step h e := by
  rw [run, List.foldlM_append]
  refine congrArg _ (funext fun h => ?_)
  rw [List.foldlM_cons]
  exact bind_pure (μ.step h e)

/-- Events that leave the monitor as it is. -/
theorem Monitor.run_append_of_ignored {μ : Monitor M E} {log es : List E} {h : M} (hlog : μ.run log = some h)
    (hes : ∀ e ∈ es, μ.step h e = some h) : μ.run (log ++ es) = some h := by
  induction es generalizing log with
  | nil => rwa [List.append_nil]
  | cons e es ih =>
    rw [List.forall_mem_cons] at hes
    rw [List.append_cons]
    refine ih ?_ hes.2
    rw [run_append_singleton, hlog]
    exact hes.1

namespace Prog

/-- From a state and a state of the monitor in `I` the program comes to some in `J`, and the monitor accepts the
events on the way. -/
def Obeys (μ : Monitor M E) (I : S → M → Prop) (m : Prog (Traced S E) α) (J : S → M → Prop) : Prop :=
  ∀ t h, μ.run t.log = some h → I t.now h → ∃ h', μ.run (m.final t).log = some h' ∧ J (m.final t).now h'

section Rules

variable {μ : Monitor M E} {I J K : S → M → Prop}

theorem Obeys.pure (a : α) : Obeys μ I (pure a : Prog (Traced S E) α) I :=
  fun _ h hlog ht => ⟨h, hlog, ht⟩

theorem Obeys.bind {m : Prog (Traced S E) α} {f : α → Prog (Traced S E) β} (hm : Obeys μ I m K)
    (hf : ∀ a, Obeys μ K (f a) J) : Obeys μ I (m >>= f) J := by
  intro t h hlog ht
  obtain ⟨h', hlog', ht'⟩ := hm t h hlog ht
  exact hf _ _ h' hlog' ht'

/-- A weaker condition afterwards. -/
theorem Obeys.post {J' : S → M → Prop} {m : Prog (Traced S E) α} (hm : Obeys μ I m J)
    (hJ : ∀ s h, J s h → J' s h) : Obeys μ I m J' := by
  intro t h hlog ht
  obtain ⟨h', hlog', ht'⟩ := hm t h hlog ht
  exact ⟨h', hlog', hJ _ _ ht'⟩

/-- A stronger condition before. -/
theorem Obeys.pre {I' : S → M → Prop} {m : Prog (Traced S E) α} (hm : Obeys μ I m J)
    (hI : ∀ s h, I' s h → I s h) : Obeys μ I' m J :=
  fun t h hlog ht => hm t h hlog (hI _ _ ht)

/-- What follows a look at the state starts in the state seen. -/
theorem Obeys.now {f : S → Prog (Traced S E) α}
    (hf : ∀ s h, I s h → Obeys μ (fun s' h' => s' = s ∧ h' = h) (f s) J) :
    Obeys μ I (Prog.now >>= f) J :=
  fun t h hlog ht => hf t.now h ht t h hlog ⟨rfl, rfl⟩

/-- As `Obeys.now`, when the condition is all that follows needs. -/
theorem Obeys.look {f : S → Prog (Traced S E) α} (hf : ∀ s h, I s h → Obeys μ I (f s) J) :
    Obeys μ I (Prog.now >>= f) J :=
  Obeys.now fun s h hs => (hf s h hs).pre fun _ _ h => h.1 ▸ h.2 ▸ hs

/-- Nothing is done in the state seen. -/
theorem Obeys.pure_seen {s : S} {h : M} (hs : J s h) (a : α) :
    Obeys μ (fun s' h' => s' = s ∧ h' = h) (Pure.pure a : Prog (Traced S E) α) J :=
  (Obeys.pure a).post fun _ _ h' => h'.1 ▸ h'.2 ▸ hs

theorem Obeys.update {g : S → S} (hg : ∀ s h, I s h → J (g s) h) : Obeys μ I (update g) J :=
  fun _ h hlog ht => ⟨h, hlog, hg _ _ ht⟩

/-- A program that changes the state and leaves no event. -/
theorem Obeys.of_update {m : Prog (Traced S E) α} {g : S → S} (hm : ∀ t, m.final t = t.put (g t.now))
    (hg : ∀ s h, I s h → J (g s) h) : Obeys μ I m J := by
  intro t h hlog ht
  rw [hm]
  exact ⟨h, hlog, hg _ _ ht⟩

theorem Obeys.discard {m : Prog (Traced S E) α} (hm : Obeys μ I m J) :
    Obeys μ I (Functor.discard m : Prog (Traced S E) PUnit) J :=
  hm

theorem Obeys.event {e : E} (he : ∀ s h, I s h → ∃ h', μ.step h e = some h' ∧ J s h') :
    Obeys μ I (event e) J := by
  intro t h hlog ht
  obtain ⟨h', hstep, ht'⟩ := he _ _ ht
  refine ⟨h', ?_, ht'⟩
  rw [final_event, Traced.push, Monitor.run_append_singleton, hlog]
  exact hstep

theorem Obeys.ite {c : Prop} [Decidable c] {m n : Prog (Traced S E) α} (hm : c → Obeys μ I m J)
    (hn : ¬ c → Obeys μ I n J) : Obeys μ I (if c then m else n) J := by
  split
  · exact hm ‹_›
  · exact hn ‹_›

/-- A step taken under a condition. -/
theorem Obeys.when {c : Prop} [Decidable c] {m : Prog (Traced S E) Unit} (hm : c → Obeys μ I m J)
    (hI : ¬ c → ∀ s h, I s h → J s h) : Obeys μ I (when c m) J :=
  Obeys.ite hm fun hc => (Obeys.pure ()).post (hI hc)

end Rules

/-- Where every step of a run obeys the monitor, the monitor accepts the log of the run. -/
theorem Obeys.run {L : Type} {μ : Monitor M E} {I : S → M → Prop} {program : L → Prog (Traced S E) Unit}
    {C : S → L → Prop} (hstep : ∀ l, Obeys μ (fun s h => I s h ∧ C s l) (program l) I) {s : S}
    (hs : I s μ.start) {ls : List L}
    (hls : Run.AtEveryStep (fun t l => (program l).final t) (fun t l => C t.now l) (.start s) ls) :
    ∃ h, μ.run (ls.foldl (fun t l => (program l).final t) (.start s)).log = some h ∧
      I (ls.foldl (fun t l => (program l).final t) (.start s)).now h := by
  refine hls.invariant (I := fun t => ∃ h, μ.run t.log = some h ∧ I t.now h) ?_ ⟨μ.start, rfl, hs⟩
  rintro t l ⟨h, hlog, ht⟩ hC
  exact hstep l t h hlog ⟨ht, hC⟩

end Prog

end NeoMmu
