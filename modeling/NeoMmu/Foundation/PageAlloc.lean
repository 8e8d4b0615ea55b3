import Mathlib.Data.Finset.Card
import Mathlib.Data.List.Pairwise
import Mathlib.Data.List.ReduceOption

/-!
# Handing out pages, private and shared

A pool hands out the pages `0, 1, …` below a capacity. A request without a key gets a page of its own;
requests with the same key get the same page. `Granted pool done` describes a pool that has answered
the requests `done`, the newest first: it says which answers coincide and how many pages were needed.
-/

namespace NeoMmu.PageAlloc

variable {ι K : Type*} [DecidableEq K]

/-- The next page to hand out and the pages already shared. -/
structure Pool (K : Type*) where
  next : Nat
  memo : K → Option Nat

/-- A pool that has handed out nothing. -/
def Pool.empty : Pool K := ⟨0, fun _ => none⟩

/-- Answer one request from a pool of `cap` pages; `none` when the pool is exhausted. -/
def Pool.take (cap : Nat) (pool : Pool K) : Option K → Option (Nat × Pool K)
  | none => if pool.next < cap then some (pool.next, { pool with next := pool.next + 1 }) else none
  | some k =>
    match pool.memo k with
    | some page => some (page, pool)
    | none =>
      if pool.next < cap then
        some (pool.next, ⟨pool.next + 1, Function.update pool.memo k (some pool.next)⟩)
      else none

theorem Pool.take_private (cap : Nat) (pool : Pool K) : pool.take cap none =
    if pool.next < cap then some (pool.next, { pool with next := pool.next + 1 }) else none := rfl

theorem Pool.take_of_memo (cap : Nat) {pool : Pool K} {k : K} {page : Nat}
    (h : pool.memo k = some page) : pool.take cap (some k) = some (page, pool) := by
  simp only [take, h]

theorem Pool.take_of_miss (cap : Nat) {pool : Pool K} {k : K} (h : pool.memo k = none) :
    pool.take cap (some k) = if pool.next < cap then
      some (pool.next, ⟨pool.next + 1, Function.update pool.memo k (some pool.next)⟩) else none := by
  simp only [take, h]

/-- An answered request: the slot it was made for, its key and the page it got. -/
structure Grant (ι K : Type*) where
  slot : ι
  key : Option K
  page : Nat

/-- The pages some requests need: one for each private request and one for each key. -/
def demand (keys : List (Option K)) : Nat := keys.count none + keys.reduceOption.toFinset.card

omit [DecidableEq K] in
private theorem mem_reduceOption {keys : List (Option K)} {k : K} :
    k ∈ keys.reduceOption ↔ some k ∈ keys := by
  simp [List.reduceOption_mem_iff]

@[simp] theorem demand_nil : demand ([] : List (Option K)) = 0 := rfl

theorem demand_cons_none (keys : List (Option K)) : demand (none :: keys) = demand keys + 1 := by
  simp [demand, List.reduceOption_cons_of_none, Nat.add_right_comm]

theorem demand_cons_some_of_mem {keys : List (Option K)} {k : K} (hk : some k ∈ keys) :
    demand (some k :: keys) = demand keys := by
  have hmem : k ∈ keys.reduceOption.toFinset := List.mem_toFinset.2 (mem_reduceOption.2 hk)
  simp [demand, List.reduceOption_cons_of_some, Finset.insert_eq_of_mem hmem]

theorem demand_cons_some_of_notMem {keys : List (Option K)} {k : K} (hk : some k ∉ keys) :
    demand (some k :: keys) = demand keys + 1 := by
  have hmem : k ∉ keys.reduceOption.toFinset := fun h =>
    hk (mem_reduceOption.1 (List.mem_toFinset.1 h))
  simp [demand, List.reduceOption_cons_of_some, Finset.card_insert_of_notMem hmem, Nat.add_assoc]

/-- The requests without a key, and the keys. -/
theorem demand_eq_countP (keys : List (Option K)) :
    demand keys = keys.countP (·.isNone) + (keys.filterMap id).toFinset.card := by
  have hcount : keys.count none = keys.countP (·.isNone) := by
    rw [List.count_eq_countP]
    refine List.countP_congr fun key _ => ?_
    cases key <;> simp
  rw [demand, hcount, List.reduceOption]

theorem demand_perm {keys keys' : List (Option K)} (h : keys.Perm keys') :
    demand keys = demand keys' := by
  have hset : keys.reduceOption.toFinset = keys'.reduceOption.toFinset := by
    ext k
    simp only [List.mem_toFinset, mem_reduceOption, h.mem_iff]
  rw [demand, demand, h.count_eq, hset]

/-- Fewer requests need no more pages. -/
theorem demand_mono {keys keys' : List (Option K)} (h : keys.Sublist keys') :
    demand keys ≤ demand keys' := by
  refine Nat.add_le_add (h.count_le none) (Finset.card_le_card fun k hk => ?_)
  rw [List.mem_toFinset, mem_reduceOption] at hk ⊢
  exact h.subset hk

/-- Every request needs at most one page. -/
theorem demand_le_length (keys : List (Option K)) : demand keys ≤ keys.length := by
  induction keys with
  | nil => exact Nat.le_refl 0
  | cons key keys ih =>
    rw [List.length_cons]
    cases key with
    | none =>
      rw [demand_cons_none]
      exact Nat.succ_le_succ ih
    | some k =>
      by_cases hk : some k ∈ keys
      · rw [demand_cons_some_of_mem hk]
        exact Nat.le_succ_of_le ih
      · rw [demand_cons_some_of_notMem hk]
        exact Nat.succ_le_succ ih

/-- Two answers coincide exactly when both were given under one key. -/
def Grant.Agrees (a b : Grant ι K) : Prop :=
  a.page = b.page ↔ ∃ k, a.key = some k ∧ b.key = some k

omit [DecidableEq K] in
private theorem agrees_symm {a b : Grant ι K} (h : a.Agrees b) : b.Agrees a := by
  unfold Grant.Agrees at h ⊢
  rw [eq_comm, h]
  exact exists_congr fun k => and_comm

instance : Std.Symm (Grant.Agrees (ι := ι) (K := K)) := ⟨fun _ _ => agrees_symm⟩

/-- The pool has answered exactly the requests in `done`. -/
structure Granted (pool : Pool K) (done : List (Grant ι K)) : Prop where
  next_eq : pool.next = demand (done.map (·.key))
  memo_iff : ∀ k page, pool.memo k = some page ↔ ∃ g ∈ done, g.key = some k ∧ g.page = page
  below : ∀ g ∈ done, g.page < pool.next
  sharing : done.Pairwise Grant.Agrees

theorem granted_empty : Granted Pool.empty ([] : List (Grant ι K)) :=
  ⟨rfl, fun k page => by simp [Pool.empty], by simp, List.Pairwise.nil⟩

section Granted

variable {pool pool' : Pool K} {done : List (Grant ι K)} {cap page : Nat} {key : Option K}

theorem Granted.memo_none_iff (h : Granted pool done) (k : K) :
    pool.memo k = none ↔ some k ∉ done.map (·.key) := by
  rw [← not_iff_not, ← ne_eq, Option.ne_none_iff_exists', not_not, List.mem_map]
  constructor
  · rintro ⟨page, hpage⟩
    obtain ⟨g, hg, hkey, -⟩ := (h.memo_iff k page).1 hpage
    exact ⟨g, hg, hkey⟩
  · rintro ⟨g, hg, hkey⟩
    exact ⟨g.page, (h.memo_iff k g.page).2 ⟨g, hg, hkey, rfl⟩⟩

/-- A fresh page agrees with no earlier answer. -/
private theorem agrees_fresh (h : Granted pool done) (slot : ι)
    (hkey : ∀ k, key = some k → some k ∉ done.map (·.key)) :
    ∀ g ∈ done, Grant.Agrees ⟨slot, key, pool.next⟩ g := by
  intro g hg
  constructor
  · intro heq
    exact absurd heq.symm (Nat.ne_of_lt (h.below g hg))
  · rintro ⟨k, hk, hgk⟩
    exact absurd (List.mem_map.2 ⟨g, hg, hgk⟩) (hkey k hk)

/-- Answering a request keeps the description. -/
theorem Granted.take (h : Granted pool done) (slot : ι)
    (htake : pool.take cap key = some (page, pool')) :
    Granted pool' (⟨slot, key, page⟩ :: done) := by
  cases key with
  | none =>
    rw [Pool.take_private, Option.ite_none_right_eq_some] at htake
    obtain ⟨-, htake⟩ := htake
    cases htake
    refine ⟨?_, fun k page => ?_, ?_, ?_⟩
    · rw [List.map_cons, demand_cons_none, h.next_eq]
    · simpa using h.memo_iff k page
    · intro g hg
      rcases List.mem_cons.1 hg with rfl | hg
      · exact Nat.lt_succ_self _
      · exact Nat.lt_succ_of_lt (h.below g hg)
    · exact List.pairwise_cons.2 ⟨agrees_fresh h slot nofun, h.sharing⟩
  | some k =>
    cases hmemo : pool.memo k with
    | some shared =>
      rw [Pool.take_of_memo cap hmemo] at htake
      cases htake
      obtain ⟨g₀, hg₀, hkey₀, rfl⟩ := (h.memo_iff k page).1 hmemo
      have hmem : some k ∈ done.map (·.key) := List.mem_map.2 ⟨g₀, hg₀, hkey₀⟩
      refine ⟨?_, fun k' page => ?_, ?_, ?_⟩
      · rw [List.map_cons, demand_cons_some_of_mem hmem, h.next_eq]
      · rw [h.memo_iff k' page]
        constructor
        · rintro ⟨g, hg, hgk⟩
          exact ⟨g, List.mem_cons_of_mem _ hg, hgk⟩
        · rintro ⟨g, hg, hgk, hgp⟩
          rcases List.mem_cons.1 hg with rfl | hg
          · exact ⟨g₀, hg₀, hkey₀.trans hgk, hgp⟩
          · exact ⟨g, hg, hgk, hgp⟩
      · intro g hg
        rcases List.mem_cons.1 hg with rfl | hg
        · exact h.below g₀ hg₀
        · exact h.below g hg
      · refine List.pairwise_cons.2 ⟨fun g hg => ?_, h.sharing⟩
        -- The shared page is the one of any earlier answer under the key.
        have hsame : ∀ g ∈ done, g.key = some k → g.page = g₀.page := fun g hg hgk => by
          have hg' := (h.memo_iff k g.page).2 ⟨g, hg, hgk, rfl⟩
          exact Option.some.inj (hg'.symm.trans hmemo)
        constructor
        · intro heq
          by_cases hgg : g = g₀
          · exact ⟨k, rfl, hgg ▸ hkey₀⟩
          · obtain ⟨k', hk', hgk⟩ :=
              (h.sharing.forall hg₀ hg (Ne.symm hgg)).1 heq
            exact ⟨k', hkey₀.symm.trans hk', hgk⟩
        · rintro ⟨k', hk', hgk⟩
          cases hk'
          exact (hsame g hg hgk).symm
    | none =>
      have hfresh : some k ∉ done.map (·.key) := (h.memo_none_iff k).1 hmemo
      rw [Pool.take_of_miss cap hmemo, Option.ite_none_right_eq_some] at htake
      obtain ⟨-, htake⟩ := htake
      cases htake
      refine ⟨?_, fun k' page => ?_, ?_, ?_⟩
      · rw [List.map_cons, demand_cons_some_of_notMem hfresh, h.next_eq]
      · by_cases hk : k' = k
        · subst hk
          have hno : ∀ g ∈ done, g.key ≠ some k' := fun g hg hgk =>
            hfresh (List.mem_map.2 ⟨g, hg, hgk⟩)
          simpa using fun g hg hgk => absurd hgk (hno g hg)
        · simp only [Function.update_of_ne hk, h.memo_iff k' page, List.mem_cons,
            exists_eq_or_imp, Option.some.injEq, Ne.symm hk, false_and, false_or]
      · intro g hg
        rcases List.mem_cons.1 hg with rfl | hg
        · exact Nat.lt_succ_self _
        · exact Nat.lt_succ_of_lt (h.below g hg)
      · refine List.pairwise_cons.2 ⟨agrees_fresh h slot fun k' hk' => ?_, h.sharing⟩
        cases hk'
        exact hfresh

/-- A request is answered exactly when the pages needed with it still fit. -/
theorem Granted.take_isSome_iff (h : Granted pool done) (hcap : pool.next ≤ cap) :
    (pool.take cap key).isSome ↔ demand (key :: done.map (·.key)) ≤ cap := by
  cases key with
  | none =>
    rw [demand_cons_none, ← h.next_eq, Pool.take_private, Nat.add_one_le_iff]
    by_cases hlt : pool.next < cap <;> simp [hlt]
  | some k =>
    cases hmemo : pool.memo k with
    | some shared =>
      have hmem : some k ∈ done.map (·.key) := by
        by_contra hno
        simp [(h.memo_none_iff k).2 hno] at hmemo
      rw [demand_cons_some_of_mem hmem, ← h.next_eq]
      simp [Pool.take_of_memo cap hmemo, hcap]
    | none =>
      rw [demand_cons_some_of_notMem ((h.memo_none_iff k).1 hmemo), ← h.next_eq,
        Pool.take_of_miss cap hmemo, Nat.add_one_le_iff]
      by_cases hlt : pool.next < cap <;> simp [hlt]

/-- Two slots share a page exactly when they are the same answer or were asked for under one key. -/
theorem Granted.page_eq_iff (h : Granted pool done) {a b : Grant ι K} (ha : a ∈ done)
    (hb : b ∈ done) : a.page = b.page ↔ a = b ∨ ∃ k, a.key = some k ∧ b.key = some k := by
  by_cases hab : a = b
  · simp [hab]
  · have hagree : a.Agrees b := h.sharing.forall ha hb hab
    rw [Grant.Agrees] at hagree
    rw [hagree]
    simp [hab]

end Granted

end NeoMmu.PageAlloc
