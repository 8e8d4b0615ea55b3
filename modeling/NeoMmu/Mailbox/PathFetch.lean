import NeoMmu.Foundation.Traced
import NeoMmu.Mailbox.Bulk

/-!
# Fetching a path

`rp_fs_mb_read_context_path` copies a string out of a caller's private memory into a buffer, byte by byte, and
leaves its loop at a terminator, at the end of the private memory, at a byte that is not printable or after
`max_len` bytes. Here the buffer is modelled as well: what is stored, where, and what is read for it.
-/

namespace NeoMmu

open Prog (now update event when Simulates Triple)

variable {σ α : Type}

/-! ## The function and its buffer -/

/-- An access of the function: to a byte of the caller's memory, or to a byte of the destination. -/
inductive FetchEvent
  | read (address : UInt16)
  | write (index : Nat)

/-- The firmware and the destination. -/
structure Fetching (σ : Type) where
  firmware : Firmware σ
  dst : Nat → UInt8

/-- A program that fetches. -/
abbrev FetchProg (σ α : Type) := Prog (Traced (Fetching σ) FetchEvent) α

/-- A program that leaves the destination alone. -/
def fromFirmware (p : Prog (Firmware σ) α) : FetchProg σ α :=
  p.on (·.now.firmware) fun t f => t.put { t.now with firmware := f }

/-- `c = read6502Memory(a)` -/
def fetchByte (a : UInt16) : FetchProg σ UInt8 := do
  event (.read a)
  fromFirmware (onHw (read6502Memory a))

/-- `dst[i] = c` -/
def storeByte (i : Nat) (c : UInt8) : FetchProg σ Unit := do
  event (.write i)
  update fun s => { s with dst := Function.update s.dst i c }

/-- The loop of `rp_fs_mb_read_context_path()` from index `i` on, with `n` turns left; returns `ok`. -/
def fetchPathLoop (address : UInt16) (i : Nat) : Nat → FetchProg σ Bool
  | 0 => return false
  | n + 1 => do
    if RP_FS_PRIVATE_LIMIT ≤ address.toNat + i then
      return false
    else
      let c ← fetchByte (address + UInt16.ofNat i)
      if c = 0 then
        storeByte i 0
        return decide (i ≠ 0)
      else if c < 32 ∨ 127 ≤ c then
        return false
      else
        storeByte i c
        fetchPathLoop address (i + 1) n

/-- `rp_fs_mb_read_context_path()` with its destination -/
def fetchContextPath (context : UInt8) (address max_len : UInt16) (dst_len : Nat) : FetchProg σ Bool := do
  if dst_len < 2 ∨ max_len = 0 ∨ dst_len < max_len.toNat ∨ address = 0 ∨
      RP_FS_PRIVATE_LIMIT ≤ address.toNat then
    return false
  else if maxContexts ≤ context then
    return false
  else
    fromFirmware (emit .contextOpen)
    let access ← fromFirmware (onHw (beginContextAccess context))
    let ok ← fetchPathLoop address 0 max_len.toNat
    fromFirmware (onHw (endContextAccess access))
    fromFirmware (emit .contextClose)
    when (ok = false) (storeByte 0 0)
    return ok

/-! ## Strings in memory -/

/-- The string at an address of the view, looked at from index `i` on, ends at index `k`, inside the private
memory. -/
structure Machine.View.EndsAt (v : Machine.View) (address : UInt16) (i k : Nat) : Prop where
  inside : address.toNat + k < RP_FS_PRIVATE_LIMIT
  terminator : v.peek (address + UInt16.ofNat k) = 0
  printable : ∀ j, i ≤ j → j < k →
    32 ≤ v.peek (address + UInt16.ofNat j) ∧ v.peek (address + UInt16.ofNat j) ≤ 126

/-- The bytes of a string from index `i` up to index `i + n`. -/
def Machine.View.string (v : Machine.View) (address : UInt16) (i n : Nat) : List UInt8 :=
  (List.range' i n).map fun j => v.peek (address + UInt16.ofNat j)

section Strings

variable {v : Machine.View} {address : UInt16}

theorem printable_iff (c : UInt8) : ¬ (c < 32 ∨ 127 ≤ c) ↔ 32 ≤ c ∧ c ≤ 126 := by
  rw [not_or, UInt8.not_lt, UInt8.not_le, UInt8.lt_iff_toNat_lt, UInt8.le_iff_toNat_le, UInt8.le_iff_toNat_le]
  exact and_congr_right fun _ => Nat.lt_succ_iff

/-- A string ends where its first byte is the terminator, and nowhere else. -/
theorem endsAt_of_terminator {i k : Nat} (hzero : v.peek (address + UInt16.ofNat i) = 0) (hi : i ≤ k)
    (h : v.EndsAt address i k) : k = i := by
  by_contra hne
  obtain ⟨hlow, -⟩ := h.printable i le_rfl (by omega)
  rw [hzero] at hlow
  exact absurd hlow (by decide)

/-- A string whose first byte is printable ends where the rest of it does. -/
theorem endsAt_succ_iff {i k : Nat} (hfirst : 32 ≤ v.peek (address + UInt16.ofNat i) ∧
    v.peek (address + UInt16.ofNat i) ≤ 126) :
    v.EndsAt address i k ↔ v.EndsAt address (i + 1) k := by
  refine ⟨fun h => ⟨h.inside, h.terminator, fun j hj => h.printable j (by omega)⟩,
    fun h => ⟨h.inside, h.terminator, fun j hj hk => ?_⟩⟩
  rcases Nat.eq_or_lt_of_le hj with rfl | hj
  · exact hfirst
  · exact h.printable j hj hk

/-- A path is found exactly when a nonempty string ends within the `n` bytes that are looked at. -/
theorem pathFrom_eq_some_iff {i n : Nat} {path : List UInt8} :
    v.pathFrom address i n = some path ↔
      ∃ k, i ≤ k ∧ k < i + n ∧ k ≠ 0 ∧ v.EndsAt address i k ∧ path = v.string address i (k - i) := by
  induction n generalizing i path with
  | zero =>
    refine ⟨by rintro ⟨⟩, ?_⟩
    rintro ⟨k, hi, hk, -⟩
    omega
  | succ n ih =>
    rw [Machine.View.pathFrom]
    split
    · rename_i hlimit
      refine ⟨by rintro ⟨⟩, ?_⟩
      rintro ⟨k, hi, -, -, hends, -⟩
      have hinside := hends.inside
      omega
    rename_i hlimit
    dsimp only
    split
    · -- The terminator: the string is over, and refused if it is empty.
      rename_i hzero
      have hhere : v.EndsAt address i i := ⟨Nat.lt_of_not_le hlimit, hzero, fun j hj hk => by omega⟩
      constructor
      · intro h
        split at h
        · rename_i hne
          cases h
          exact ⟨i, le_rfl, by omega, hne, hhere, by rw [Nat.sub_self]; rfl⟩
        · cases h
      · rintro ⟨k, hi, -, hne, hends, rfl⟩
        obtain rfl := endsAt_of_terminator hzero hi hends
        rw [if_pos hne, Nat.sub_self]
        rfl
    rename_i hzero
    have hpast : ∀ k, i ≤ k → v.EndsAt address i k → i < k := by
      intro k hi hends
      apply Nat.lt_of_le_of_ne hi
      rintro rfl
      exact hzero hends.terminator
    split
    · rename_i hchar
      refine ⟨by rintro ⟨⟩, ?_⟩
      rintro ⟨k, hi, -, -, hends, -⟩
      exact absurd hchar ((printable_iff _).2 (hends.printable i le_rfl (hpast k hi hends)))
    · rename_i hchar
      have hfirst := (printable_iff _).1 hchar
      have hstring : ∀ k, i < k → v.string address i (k - i) =
          v.peek (address + UInt16.ofNat i) :: v.string address (i + 1) (k - (i + 1)) := by
        intro k hk
        rw [show k - i = k - (i + 1) + 1 by omega]
        rfl
      simp only [Option.map_eq_some_iff, ih]
      constructor
      · rintro ⟨rest, ⟨k, hi, hk, hne, hends, rfl⟩, rfl⟩
        exact ⟨k, by omega, by omega, hne, (endsAt_succ_iff hfirst).2 hends, (hstring k hi).symm⟩
      · rintro ⟨k, hi, hk, hne, hends, rfl⟩
        have hlt := hpast k hi hends
        exact ⟨_, ⟨k, hlt, by omega, hne, (endsAt_succ_iff hfirst).1 hends, rfl⟩, (hstring k hlt).symm⟩

end Strings

/-! ## Buffers -/

/-- Bytes stored from an index on. -/
def overwrite (dst : Nat → UInt8) (i : Nat) : List UInt8 → Nat → UInt8
  | [] => dst
  | c :: cs => overwrite (Function.update dst i c) (i + 1) cs

/-- An index holds the byte stored there, or what it held. -/
theorem overwrite_apply (dst : Nat → UInt8) (i : Nat) (cs : List UInt8) (k : Nat) :
    overwrite dst i cs k = if h : i ≤ k ∧ k - i < cs.length then cs[k - i] else dst k := by
  induction cs generalizing dst i with
  | nil =>
    rw [dif_neg fun h => Nat.not_lt_zero _ h.2]
    rfl
  | cons c cs ih =>
    rw [overwrite, ih]
    by_cases hk : k = i
    · subst hk
      rw [dif_neg fun h => Nat.not_succ_le_self _ h.1, Function.update_self]
      rw [dif_pos ⟨le_rfl, by rw [Nat.sub_self]; exact Nat.succ_pos _⟩]
      simp only [Nat.sub_self, List.getElem_cons_zero]
    · rw [Function.update_of_ne hk]
      by_cases hin : i + 1 ≤ k ∧ k - (i + 1) < cs.length
      · have hin' : i ≤ k ∧ k - i < (c :: cs).length := ⟨by omega, by rw [List.length_cons]; omega⟩
        have hindex : k - i = k - (i + 1) + 1 := by omega
        rw [dif_pos hin, dif_pos hin']
        simp only [hindex, List.getElem_cons_succ]
      · rw [dif_neg hin, dif_neg]
        rw [List.length_cons]
        omega

/-- A string with its terminator. -/
theorem overwrite_string (v : Machine.View) (address : UInt16) (dst : Nat → UInt8) (i k : Nat) :
    overwrite dst 0 (v.string address 0 i ++ [0]) k =
      if k < i then v.peek (address + UInt16.ofNat k) else if k = i then 0 else dst k := by
  have hlength : (v.string address 0 i ++ [0]).length = i + 1 := by
    simp only [Machine.View.string, List.length_append, List.length_map, List.length_range', List.length_singleton]
  rw [overwrite_apply]
  by_cases hlt : k < i
  · rw [if_pos hlt, dif_pos ⟨Nat.zero_le k, by omega⟩]
    simp [Machine.View.string, List.getElem_append_left, hlt]
  rw [if_neg hlt]
  by_cases heq : k = i
  · rw [if_pos heq, dif_pos ⟨Nat.zero_le k, by omega⟩]
    simp [Machine.View.string, List.getElem_append_right, heq]
  · rw [if_neg heq, dif_neg fun h => by omega]

/-! ## The function reads a path -/

section Refines

variable {address : UInt16}

/-- `ok`, and a destination into which the path is stored from index `i` on. -/
def Fetched (d : Nat → UInt8) (i : Nat) (ok : Bool) (dst : Nat → UInt8) (path : Option (List UInt8)) : Prop :=
  ok = path.isSome ∧ ∀ l, path = some l → dst = overwrite d i (l ++ [0])

theorem fetched_none (d : Nat → UInt8) (i : Nat) (dst : Nat → UInt8) : Fetched d i false dst none := ⟨rfl, nofun⟩

theorem final_fromFirmware (p : Prog (Firmware σ) α) (t : Traced (Fetching σ) FetchEvent) :
    (fromFirmware p).final t = t.put { t.now with firmware := p.final t.now.firmware } := rfl

theorem result_fromFirmware (p : Prog (Firmware σ) α) (t : Traced (Fetching σ) FetchEvent) :
    (fromFirmware p).result t = p.result t.now.firmware := rfl

/-- A program that leaves the destination alone. -/
theorem simulates_fromFirmware (I : (Nat → UInt8) → Prop) (p : Prog (Firmware σ) α) :
    Simulates (·.now.firmware) (fun t => I t.now.dst) (fun a t b => a = b ∧ I t.now.dst) (fromFirmware p) p :=
  fun _ ht => ⟨⟨rfl, ht⟩, rfl⟩

/-- The loop returns whether there is a path, does to the board what reading one does, and stores it with its
terminator. -/
theorem simulates_fetchPathLoop (address : UInt16) (d : Nat → UInt8) (i n : Nat) :
    Simulates (·.now.firmware) (fun t : Traced (Fetching σ) FetchEvent => t.now.dst = d)
      (fun ok t path => Fetched d i ok t.now.dst path)
      (fetchPathLoop address i n) (onHw (readPathLoop address i n)) := by
  induction n generalizing d i with
  | zero => exact fun _ _ => ⟨fetched_none d i _, rfl⟩
  | succ n ih =>
    intro t ht
    simp only [fetchPathLoop, readPathLoop, fetchByte, onHw, Prog.result_ite, Prog.final_ite, Prog.result_bind,
      Prog.final_bind, Prog.result_pure, Prog.final_pure, Prog.final_on, Prog.final_event, result_fromFirmware,
      final_fromFirmware, Prog.result_on, Traced.now_push]
    split
    · exact ⟨fetched_none d i _, rfl⟩
    generalize (read6502Memory (address + UInt16.ofNat i)).result t.now.firmware.hw = c
    generalize (read6502Memory (address + UInt16.ofNat i)).final t.now.firmware.hw = m
    split
    · -- The terminator, which is stored even where it makes the string empty.
      refine ⟨⟨?_, fun l hl => ?_⟩, rfl⟩
      · split <;> rename_i hne
        · exact decide_eq_true hne
        · exact decide_eq_false hne
      · split at hl
        · cases hl
          rw [← ht]
          rfl
        · cases hl
    split
    · exact ⟨fetched_none d i _, rfl⟩
    generalize hu : (storeByte i c).final _ = u
    have hdst : u.now.dst = Function.update d i c := by
      rw [← hu, ← ht]
      rfl
    obtain ⟨⟨hok, hstored⟩, hfirmware⟩ := ih (Function.update d i c) (i + 1) u hdst
    rw [← hu] at hok hstored hfirmware ⊢
    refine ⟨⟨hok.trans Option.isSome_map.symm, fun l hl => ?_⟩, hfirmware⟩
    obtain ⟨rest, hrest, rfl⟩ := Option.map_eq_some_iff.1 hl
    exact hstored rest hrest

/-- So does the function. -/
theorem simulates_fetchContextPath (context : UInt8) (address max_len : UInt16) (dst_len : Nat) (d : Nat → UInt8) :
    Simulates (·.now.firmware) (fun t : Traced (Fetching σ) FetchEvent => t.now.dst = d)
      (fun ok t path => Fetched d 0 ok t.now.dst path)
      (fetchContextPath context address max_len dst_len) (rpFsMbReadContextPath context address max_len dst_len) := by
  refine Simulates.ite (fun _ => Simulates.pure fun _ _ => fetched_none d 0 _) fun _ => ?_
  by_cases hcontext : maxContexts ≤ context
  · rw [if_pos hcontext, withContext, if_pos hcontext]
    exact Simulates.pure fun _ _ => fetched_none d 0 _
  rw [if_neg hcontext, withContext, if_neg hcontext]
  simp only [bind_assoc, pure_bind, Option.join_some]
  refine (simulates_fromFirmware (· = d) _).bind fun _ _ => Simulates.assuming fun _ => ?_
  refine (simulates_fromFirmware (· = d) _).bind fun access _ => Simulates.assuming fun haccess => ?_
  rw [← haccess]
  refine (simulates_fetchPathLoop address d 0 _).bind fun ok path => ?_
  refine (simulates_fromFirmware (Fetched d 0 ok · path) _).bind fun _ _ => Simulates.assuming fun _ => ?_
  refine (simulates_fromFirmware (Fetched d 0 ok · path) _).bind fun _ _ => Simulates.assuming fun _ => ?_
  refine Simulates.silent (J := fun _ t => Fetched d 0 ok t.now.dst path) (fun t ht => ?_) fun _ =>
    Simulates.pure fun _ h => h
  rw [Prog.final_when]
  split
  · rename_i hfailed
    subst hfailed
    have hnone : path = none := Option.isNone_iff_eq_none.1 (Option.isSome_eq_false_iff.1 ht.1.symm)
    rw [hnone]
    exact ⟨fetched_none d 0 _, rfl⟩
  · exact ⟨ht, rfl⟩

end Refines

/-! ## Bounds -/

/-- An access inside the private memory or inside the destination. -/
def FetchEvent.Within (dst_len : Nat) : FetchEvent → Prop
  | .read address => address.toNat < RP_FS_PRIVATE_LIMIT
  | .write index => index < dst_len

section Bounds

variable {dst_len : Nat}

theorem triple_fromFirmware (p : Prog (Firmware σ) α) :
    Triple (FetchEvent.Within dst_len) (fun _ => True) (fromFirmware p) fun _ => True :=
  fun _ _ => ⟨trivial, fun h => h⟩

theorem triple_storeByte {i : Nat} (hi : i < dst_len) (c : UInt8) :
    Triple (FetchEvent.Within dst_len) (fun _ => True) (storeByte i c : FetchProg σ Unit) fun _ => True :=
  Triple.bind (K := fun _ => True) (Triple.event (by exact hi)) fun _ => Triple.update fun _ _ => trivial

/-- The loop reads inside the private memory, and stores as many bytes as it looks at. -/
theorem triple_fetchPathLoop (address : UInt16) {i n : Nat} (hn : i + n ≤ dst_len) :
    Triple (FetchEvent.Within dst_len) (fun _ => True) (fetchPathLoop address i n : FetchProg σ Bool)
      fun _ => True := by
  induction n generalizing i with
  | zero => exact Triple.pure false
  | succ n ih =>
    have hi : i < dst_len := by omega
    refine Triple.ite (fun _ => Triple.pure false) fun hlimit => ?_
    have hread : FetchEvent.Within dst_len (.read (address + UInt16.ofNat i)) := by
      show (address + UInt16.ofNat i).toNat < RP_FS_PRIVATE_LIMIT
      rw [UInt16.toNat_add, UInt16.toNat_ofNat']
      simp only [RP_FS_PRIVATE_LIMIT] at hlimit ⊢
      omega
    apply Triple.bind (K := fun _ => True)
    · exact (Triple.event hread).bind fun _ => triple_fromFirmware _
    · intro c
      refine Triple.ite (fun _ => ?_) fun _ => Triple.ite (fun _ => Triple.pure false) fun _ => ?_
      · exact (triple_storeByte hi 0).bind fun _ => Triple.pure _
      · exact (triple_storeByte hi c).bind fun _ => ih (by omega)

theorem triple_fetchContextPath (context : UInt8) (address max_len : UInt16) :
    Triple (FetchEvent.Within dst_len) (fun _ => True)
      (fetchContextPath context address max_len dst_len : FetchProg σ Bool) fun _ => True := by
  refine Triple.ite (fun _ => Triple.pure false) fun hargs => Triple.ite (fun _ => Triple.pure false) fun _ => ?_
  have hlen : 0 + max_len.toNat ≤ dst_len := by
    rw [Nat.zero_add]
    by_contra hlong
    exact hargs (.inr (.inr (.inl (Nat.lt_of_not_le hlong))))
  have hdst : 0 < dst_len := by
    by_contra hshort
    exact hargs (.inl (by omega))
  refine (triple_fromFirmware _).bind fun _ => (triple_fromFirmware _).bind fun access => ?_
  refine (triple_fetchPathLoop address hlen).bind fun ok => ?_
  refine (triple_fromFirmware _).bind fun _ => (triple_fromFirmware _).bind fun _ => ?_
  exact (Triple.when_keep fun _ => triple_storeByte hdst 0).bind fun _ => Triple.pure ok

/-- A fetch that fails after it has begun leaves an empty string. -/
theorem fetchContextPath_failed {context : UInt8} {address max_len : UInt16} {t : Traced (Fetching σ) FetchEvent}
    (h : (fetchContextPath context address max_len dst_len).result t = false) :
    ((fetchContextPath context address max_len dst_len).final t).log = t.log ∨
      ((fetchContextPath context address max_len dst_len).final t).now.dst 0 = 0 := by
  simp only [fetchContextPath, Prog.result_ite, Prog.final_ite] at h ⊢
  split
  · exact .inl rfl
  rename_i hargs
  rw [if_neg hargs] at h
  split
  · exact .inl rfl
  rename_i hcontext
  rw [if_neg hcontext] at h
  right
  simp only [Prog.result_bind, Prog.result_pure] at h
  simp only [Prog.final_bind, Prog.final_pure, Prog.final_when, h, if_true]
  rfl

end Bounds

/-! ## Every fetch -/

/-- The path of a caller that is accepted, when there is one. -/
theorem contextPath_eq_some_iff {v : Machine.View} {context : UInt8} (hcontext : context < maxContexts)
    {address max_len : UInt16} {dst_len : Nat} (hdst : 2 ≤ dst_len) {path : List UInt8} :
    v.contextPath context address max_len dst_len = some path ↔
      (1 ≤ max_len.toNat ∧ max_len.toNat ≤ dst_len ∧ 1 ≤ address.toNat ∧ address.toNat < RP_FS_PRIVATE_LIMIT) ∧
        ∃ k, 1 ≤ k ∧ k < max_len.toNat ∧ (v.inContext context).EndsAt address 0 k ∧
          path = (v.inContext context).string address 0 k := by
  have hargs : ¬ (dst_len < 2 ∨ max_len = 0 ∨ dst_len < max_len.toNat ∨ address = 0 ∨
      RP_FS_PRIVATE_LIMIT ≤ address.toNat ∨ maxContexts ≤ context) ↔
      1 ≤ max_len.toNat ∧ max_len.toNat ≤ dst_len ∧ 1 ≤ address.toNat ∧ address.toNat < RP_FS_PRIVATE_LIMIT := by
    have hzero : ∀ a : UInt16, a = 0 ↔ a.toNat = 0 := fun a => UInt16.toNat_inj.symm
    have hge : ¬ maxContexts ≤ context := UInt8.not_le.2 hcontext
    rw [hzero, hzero]
    simp only [hge, or_false]
    omega
  rw [Machine.View.contextPath, ← hargs]
  split
  · rename_i hrefused
    exact ⟨by rintro ⟨⟩, fun h => absurd hrefused h.1⟩
  · rename_i haccepted
    rw [pathFrom_eq_some_iff, and_iff_right haccepted]
    refine exists_congr fun k => ?_
    rw [Nat.sub_zero, Nat.zero_add, Nat.one_le_iff_ne_zero, and_iff_right (Nat.zero_le k)]
    exact and_left_comm

/-- A fetch succeeds exactly when a nonempty string of printable bytes ends in time, and stores that string with
its terminator; it stays within the private memory and the destination, and what it leaves when it fails is an
empty string. -/
theorem fetch_exact_and_bounded {f : Firmware σ} (hf : f.hw.Settled) {context : UInt8}
    (hcontext : context < maxContexts) (address max_len : UInt16) {dst_len : Nat} (hdst : 2 ≤ dst_len)
    (dst : Nat → UInt8) :
    let v := f.hw.view.inContext context
    let fetch : FetchProg σ Bool := fetchContextPath context address max_len dst_len
    let ok := fetch.result (.start ⟨f, dst⟩)
    let t := fetch.final (.start ⟨f, dst⟩)
    (ok = true ↔
      (1 ≤ max_len.toNat ∧ max_len.toNat ≤ dst_len ∧ 1 ≤ address.toNat ∧ address.toNat < RP_FS_PRIVATE_LIMIT) ∧
        ∃ i, 1 ≤ i ∧ i < max_len.toNat ∧ v.EndsAt address 0 i) ∧
      (ok = true → ∀ i, 1 ≤ i → i < max_len.toNat → v.EndsAt address 0 i → ∀ k,
        t.now.dst k = if k < i then v.peek (address + UInt16.ofNat k) else if k = i then 0 else dst k) ∧
      t.All (FetchEvent.Within dst_len) ∧
      (ok = false → (∃ i, .write i ∈ t.log) → t.now.dst 0 = 0) := by
  intro v fetch ok t
  obtain ⟨⟨hok, hstored⟩, -⟩ :=
    simulates_fetchContextPath context address max_len dst_len dst (.start ⟨f, dst⟩) rfl
  have hread : (rpFsMbReadContextPath context address max_len dst_len).result f =
      f.hw.view.contextPath context address max_len dst_len := result_readContextPath hf _ _ _ _
  replace hok := hok.trans (congrArg Option.isSome hread)
  have hpath : ∀ path, f.hw.view.contextPath context address max_len dst_len = some path ↔ _ :=
    fun _ => contextPath_eq_some_iff hcontext hdst
  have hexact : ok = true ↔
      (1 ≤ max_len.toNat ∧ max_len.toNat ≤ dst_len ∧ 1 ≤ address.toNat ∧ address.toNat < RP_FS_PRIVATE_LIMIT) ∧
        ∃ i, 1 ≤ i ∧ i < max_len.toNat ∧ v.EndsAt address 0 i := by
    rw [show ok = _ from hok, Option.isSome_iff_exists]
    constructor
    · rintro ⟨path, h⟩
      obtain ⟨hargs, i, hi, hlen, hends, -⟩ := (hpath path).1 h
      exact ⟨hargs, i, hi, hlen, hends⟩
    · rintro ⟨hargs, i, hi, hlen, hends⟩
      exact ⟨_, (hpath _).2 ⟨hargs, i, hi, hlen, hends, rfl⟩⟩
  refine ⟨hexact, fun hsuccess i hi hlen hends k => ?_, ?_, fun hfailed hwritten => ?_⟩
  · have hfound := (hpath _).2 ⟨(hexact.1 hsuccess).1, i, hi, hlen, hends, rfl⟩
    rw [show t.now.dst = _ from hstored _ (hread.trans hfound)]
    exact overwrite_string v address dst i k
  · exact (triple_fetchContextPath context address max_len (.start ⟨f, dst⟩) trivial).2 (Traced.all_start _ _)
  · obtain ⟨i, hi⟩ := hwritten
    rcases fetchContextPath_failed (t := .start ⟨f, dst⟩) hfailed with hlog | hempty
    · rw [show t.log = _ from hlog] at hi
      exact absurd hi List.not_mem_nil
    · exact hempty

/-- The memory of a caller that has written the path `HI` at `$0200`. -/
def pathRam (cell : UInt8 × UInt16) : UInt8 :=
  (List.lookup cell [((0x00, 0x200), 'H'.toUInt8), ((0x00, 0x201), 'I'.toUInt8)]).getD 0

/-- The firmware that fetches it. -/
def pathFirmware : Firmware RamDisk := .start (.running pathRam) (RamDisk.mounted fun _ => none)

/-- Three bytes are enough for two and their terminator. -/
theorem fetch_exact_and_bounded_hi :
    let fetch : FetchProg RamDisk Bool := fetchContextPath 0 0x200 3 8
    let dst := (fetch.final (.start ⟨pathFirmware, fun _ => 0xFF⟩)).now.dst
    fetch.result (.start ⟨pathFirmware, fun _ => 0xFF⟩) = true ∧ dst 0 = 'H'.toUInt8 ∧ dst 1 = 'I'.toUInt8 ∧
      dst 2 = 0 ∧ dst 3 = 0xFF := by
  intro fetch dst
  have hprintable : ∀ j < 2, 32 ≤ (pathFirmware.hw.view.inContext 0).peek (0x200 + UInt16.ofNat j) ∧
      (pathFirmware.hw.view.inContext 0).peek (0x200 + UInt16.ofNat j) ≤ 126 := by
    decide
  have hends : (pathFirmware.hw.view.inContext 0).EndsAt 0x200 0 2 :=
    ⟨by decide, by decide, fun j _ hj => hprintable j hj⟩
  obtain ⟨hexact, hstored, -, -⟩ := fetch_exact_and_bounded (f := pathFirmware) (Machine.settled_running _)
    (show (0 : UInt8) < maxContexts by decide) 0x200 3 (show 2 ≤ 8 by decide) fun _ => 0xFF
  have hok := hexact.2 ⟨by decide, 2, by decide, by decide, hends⟩
  have hdst := hstored hok 2 (by decide) (by decide) hends
  exact ⟨hok, (hdst 0).trans (by decide), (hdst 1).trans (by decide), hdst 2, hdst 3⟩

end NeoMmu
