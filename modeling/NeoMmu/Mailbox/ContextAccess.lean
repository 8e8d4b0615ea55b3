import NeoMmu.Mailbox.Firmware

/-!
# Reaching into a caller's context

Filesystem requests name memory of the caller's MMU context. `begin_context_access` selects that
context and `end_context_access` puts context and system state back; `Access` says that nothing else
happens in between than the writes the request is for.
-/

namespace NeoMmu

variable {σ α : Type}

/-- `MAX_MEMORY_CONTEXTS`, as the bound of a context byte. -/
def maxContexts : UInt8 := 16

/-- `RP_FS_PRIVATE_LIMIT` -/
def RP_FS_PRIVATE_LIMIT : Nat := 0x8000

/-- `RPFSContextAccess` of an active access. -/
structure RPFSContextAccess where
  saved_state : SysState
  saved_context : UInt8

/-! ## The functions -/

/-- Select a context unless it is the current one. -/
def switchContext (context : UInt8) : Prog Machine Unit := do
  if (← get).getMMUContext ≠ context then
    setMMUContext context

/-- `rp_fs_mb_begin_context_access()` with a valid context. -/
def beginContextAccess (context : UInt8) : Prog Machine RPFSContextAccess := do
  let saved_state ← get6502State
  discard <| set6502State .sRPI
  let saved_context := (← get).getMMUContext
  switchContext context
  return ⟨saved_state, saved_context⟩

/-- `rp_fs_mb_end_context_access()` of an active access. -/
def endContextAccess (access : RPFSContextAccess) : Prog Machine Unit := do
  switchContext access.saved_context
  discard <| set6502State access.saved_state

/-- A computation between `rp_fs_mb_begin_context_access()` and `rp_fs_mb_end_context_access()`;
`none` when the context is refused. -/
def withContext (context : UInt8) (body : Prog (Firmware σ) α) : Prog (Firmware σ) (Option α) := do
  if maxContexts ≤ context then
    return none
  else
    emit .contextOpen
    let access ← onHw (beginContextAccess context)
    let r ← body
    onHw (endContextAccess access)
    emit .contextClose
    return some r

/-- `rp_fs_mb_private_range()` -/
def rpFsMbPrivateRange (address length : UInt16) : Bool :=
  if address = 0 ∨ length = 0 ∨ RP_FS_PRIVATE_LIMIT ≤ address.toNat then false
  else address.toNat + length.toNat ≤ RP_FS_PRIVATE_LIMIT

/-- `rp_fs_mb_read_context_block()` -/
def rpFsMbReadContextBlock (context : UInt8) (address length : UInt16) :
    Prog (Firmware σ) (Option (List UInt8)) := do
  if rpFsMbPrivateRange address length = false then
    return none
  else
    withContext context (onHw (readBlock address length.toNat))

/-- `rp_fs_mb_write_context_block()` -/
def rpFsMbWriteContextBlock (context : UInt8) (address : UInt16) (src : List UInt8) :
    Prog (Firmware σ) Bool := do
  if rpFsMbPrivateRange address (UInt16.ofNat src.length) = false then
    return false
  else
    return (← withContext context (onHw (writeBlock address src))).isSome

/-- The loop of `rp_fs_mb_read_context_path()` from index `i` on, with `n` turns left; `none` stands
for `ok` being false. -/
def readPathLoop (address : UInt16) (i : Nat) : Nat → Prog Machine (Option (List UInt8))
  | 0 => return none
  | n + 1 => do
    if RP_FS_PRIVATE_LIMIT ≤ address.toNat + i then
      return none
    else
      let c ← read6502Memory (address + UInt16.ofNat i)
      if c = 0 then
        return if i ≠ 0 then some [] else none
      else if c < 32 ∨ 127 ≤ c then
        return none
      else
        return (← readPathLoop address (i + 1) n).map (c :: ·)

/-- `rp_fs_mb_read_context_path()` into a buffer of `dst_len` bytes -/
def rpFsMbReadContextPath (context : UInt8) (address max_len : UInt16) (dst_len : Nat) :
    Prog (Firmware σ) (Option (List UInt8)) := do
  if dst_len < 2 ∨ max_len = 0 ∨ dst_len < max_len.toNat ∨ address = 0 ∨
      RP_FS_PRIVATE_LIMIT ≤ address.toNat then
    return none
  else
    return (← withContext context (onHw (readPathLoop address 0 max_len.toNat))).join

/-- What an access to a context sees. -/
def Machine.View.inContext (v : Machine.View) (c : UInt8) : Machine.View :=
  ⟨v.ram, v.mmuRam, c, c.toNat, .sRPI⟩

/-- The path at an address of the view, from index `i` on and `n` bytes at most. -/
def Machine.View.pathFrom (v : Machine.View) (address : UInt16) (i : Nat) : Nat → Option (List UInt8)
  | 0 => none
  | n + 1 =>
    if RP_FS_PRIVATE_LIMIT ≤ address.toNat + i then none
    else
      let c := v.peek (address + UInt16.ofNat i)
      if c = 0 then
        if i ≠ 0 then some [] else none
      else if c < 32 ∨ 127 ≤ c then none
      else (v.pathFrom address (i + 1) n).map (c :: ·)

/-! ## What an access does -/

/-- What a context access does to the board: the state and the context are those before it, and of
memory only cells change that the addresses `A` select in context `c`. -/
structure Access (c : UInt8) (A : UInt16 → Prop) (m m' : Machine) : Prop where
  settled : m'.Settled
  gSysState : m'.gSysState = m.gSysState
  context : m'.getMMUContext = m.getMMUContext
  mmuRam : m'.mmuRam = m.mmuRam
  ram : ∀ cell, (∀ a, A a → (m.view.select c).physAddr a ≠ cell) → m'.ram cell = m.ram cell

/-- What happens inside an access: bus cycles that write at addresses in `A`, and storage calls. -/
structure Inside (A : UInt16 → Prop) (f f' : Firmware σ) : Prop where
  events : f'.events = f.events
  pending : f'.gFsCompletionPending = f.gFsCompletionPending
  hw : f.hw.gControlMode = .mRPI → f'.hw.gControlMode = .mRPI ∧
    ∃ ws, (∀ w ∈ ws, A w.1) ∧ f'.hw.view = f.hw.view.writes ws

instance (A : UInt16 → Prop) : Std.Refl (Inside (σ := σ) A) where
  refl _ := ⟨rfl, rfl, fun h => ⟨h, [], by simp, rfl⟩⟩

instance (A : UInt16 → Prop) : IsTrans (Firmware σ) (Inside A) where
  trans f f' f'' h h' := by
    refine ⟨h'.events.trans h.events, h'.pending.trans h.pending, fun hmode => ?_⟩
    obtain ⟨hmode', ws, hws, hview⟩ := h.hw hmode
    obtain ⟨hmode'', ws', hws', hview'⟩ := h'.hw hmode'
    refine ⟨hmode'', ws ++ ws', ?_, by rw [hview', hview, Machine.View.writes_append]⟩
    intro w hw
    rcases List.mem_append.1 hw with hw | hw
    · exact hws w hw
    · exact hws' w hw

section Inside

variable {A : UInt16 → Prop}

theorem inside_onStorage (p : Prog (Storage σ) α) : Prog.Keeps (Inside A) (onStorage p) :=
  fun _ => ⟨rfl, rfl, fun h => ⟨h, [], by simp, rfl⟩⟩

theorem inside_cycles {cycles : Prog Machine α} {r : Machine.View → α} {ws : List (UInt16 × UInt8)}
    (hc : Cycles cycles r ws) (hws : ∀ w ∈ ws, A w.1) :
    Prog.Keeps (Inside (σ := σ) A) (onHw cycles) := by
  refine fun f => ⟨rfl, rfl, fun hmode => ?_⟩
  obtain ⟨-, hview, hmode'⟩ := hc f.hw hmode
  exact ⟨hmode', ws, hws, hview⟩

theorem inside_readBlock (a : UInt16) (n : Nat) :
    Prog.Keeps (Inside (σ := σ) A) (onHw (readBlock a n)) :=
  inside_cycles (cycles_readBlock a n) (by simp)

theorem inside_writeBlock {a : UInt16} {bs : List UInt8}
    (h : ∀ i < bs.length, A (a + UInt16.ofNat i)) :
    Prog.Keeps (Inside (σ := σ) A) (onHw (writeBlock a bs)) := by
  refine inside_cycles (cycles_writeBlock a bs) fun w hw => ?_
  obtain ⟨i, hi, heq⟩ := mem_blockWrites hw
  rw [heq]
  exact h i hi

theorem cycles_readPathLoop (address : UInt16) (i n : Nat) :
    Cycles (readPathLoop address i n) (·.pathFrom address i n) [] := by
  induction n generalizing i with
  | zero => exact fun m hm => ⟨rfl, rfl, hm⟩
  | succ n ih =>
    intro m hm
    have hlatch : (m.latch (address + UInt16.ofNat i)).gControlMode = .mRPI := hm
    obtain ⟨hres, hview, hmode⟩ := ih (i + 1) _ hlatch
    simp only [readPathLoop, Machine.View.pathFrom, Machine.peek_view, Prog.result_ite,
      Prog.final_ite, Prog.result_bind, Prog.final_bind, Prog.result_pure, Prog.final_pure,
      result_read6502Memory hm, final_read6502Memory hm, hres]
    by_cases hlimit : RP_FS_PRIVATE_LIMIT ≤ address.toNat + i
    · simp only [hlimit, if_true]
      exact ⟨trivial, rfl, hm⟩
    by_cases hzero : m.peek (address + UInt16.ofNat i) = 0
    · simp only [hlimit, hzero, if_true, if_false]
      exact ⟨trivial, rfl, hm⟩
    by_cases hchar : m.peek (address + UInt16.ofNat i) < 32 ∨ 127 ≤ m.peek (address + UInt16.ofNat i)
    · simp only [hlimit, hzero, hchar, if_true, if_false]
      exact ⟨trivial, rfl, hm⟩
    · simp only [hlimit, hzero, hchar, if_false]
      exact ⟨rfl, hview, hmode⟩

theorem inside_readPathLoop (address : UInt16) (i n : Nat) :
    Prog.Keeps (Inside (σ := σ) A) (onHw (readPathLoop address i n)) :=
  inside_cycles (cycles_readPathLoop address i n) (by simp)

end Inside

/-! ## Beginning and ending -/

section Machine

variable {m : Machine}

/-- The cached context as a byte. -/
theorem getMMUContext_of_eq {c : UInt8} (h : m.gCurrentContext = c.toNat) : m.getMMUContext = c := by
  have hbyte : ((c.toNat : Int) % 2 ^ 8).toNat = c.toNat := by
    have := c.toNat_lt
    omega
  rw [Machine.getMMUContext, h, UInt8.ofInt, hbyte]
  exact UInt8.ofNat_toNat

/-- A valid context that is reported is the cached one. -/
theorem gCurrentContext_of_getMMUContext (hm : m.ContextCached) {c : UInt8} (hc : c ≠ 255)
    (h : m.getMMUContext = c) : m.gCurrentContext = c.toNat := by
  rcases hm with hm | hm
  · rw [Machine.getMMUContext, hm] at h
    exact absurd h.symm hc
  · rw [← getMMUContext_of_eq hm, h] at hm
    exact hm

theorem final_switchContext (hm : m.ContextCached) {c : UInt8}
    (hc : m.getMMUContext = c → m.gCurrentContext = c.toNat) :
    (switchContext c).final m = { m with ctxReg := c, gCurrentContext := c.toNat } := by
  simp only [switchContext, Prog.final_bind, Prog.result_get, Prog.final_get, Prog.final_ite,
    Prog.final_pure]
  split
  · exact final_setMMUContext hm c
  · rename_i h
    have hcur := hc (not_not.1 h)
    have hreg : m.ctxReg = c := by
      rcases hm with hm | hm
      · omega
      · exact UInt8.toNat_inj.1 (by omega)
    subst hreg
    rw [← hcur]

theorem beginContextAccess_spec (hm : m.Settled) {c : UInt8} (hc : c < maxContexts) :
    ((beginContextAccess c).result m).saved_state = m.gSysState ∧
      ((beginContextAccess c).result m).saved_context = m.getMMUContext ∧
      ((beginContextAccess c).final m).view = { m.view with gSysState := .sRPI }.select c ∧
      ((beginContextAccess c).final m).gControlMode = .mRPI := by
  obtain ⟨hview, hmode⟩ := snooping_start hm
  have hsettled := settled_set6502State hm .sRPI
  have hctx : ((set6502State .sRPI).final m).gCurrentContext = m.gCurrentContext :=
    congrArg Machine.View.gCurrentContext hview
  have hne : c ≠ 255 := by
    rintro rfl
    exact absurd hc (by decide)
  have hswitch := final_switchContext hsettled.cached
    (gCurrentContext_of_getMMUContext hsettled.cached hne)
  simp only [beginContextAccess, Prog.result_bind, Prog.final_bind, result_get6502State,
    final_get6502State, Prog.final_discard, Prog.result_get, Prog.final_get, Prog.result_pure,
    Prog.final_pure, hswitch]
  refine ⟨trivial, ?_, ?_, hmode⟩
  · rw [Machine.getMMUContext, hctx, Machine.getMMUContext]
  · exact congrArg (fun v : Machine.View => v.select c) hview

/-- Ending an access that made the writes `ws` in context `c` leaves the view with the writes, in the
state and the context before the access. -/
theorem endContextAccess_view (hm : m.Settled) {m' : Machine} {c : UInt8}
    {ws : List (UInt16 × UInt8)}
    (hview : m'.view = ({ m.view with gSysState := .sRPI }.select c).writes ws)
    (hmode : m'.gControlMode = .mRPI) :
    let m'' := (endContextAccess ⟨m.gSysState, m.getMMUContext⟩).final m'
    m''.Settled ∧ m''.view = ⟨((m.view.select c).writes ws).ram, m.mmuRam, m.getMMUContext,
      m.getMMUContext.toNat, m.gSysState⟩ := by
  replace hview := hview.trans (Machine.View.writes_eq (m.view.select c) ws c.toNat .sRPI)
  have hstate : m'.gSysState = .sRPI := congrArg Machine.View.gSysState hview
  have hctx : m'.gCurrentContext = c.toNat := congrArg Machine.View.gCurrentContext hview
  have hreg : m'.ctxReg = c := congrArg Machine.View.ctxReg hview
  have hram : m'.ram = ((m.view.select c).writes ws).ram := congrArg Machine.View.ram hview
  have hmmu : m'.mmuRam = m.mmuRam := congrArg Machine.View.mmuRam hview
  have hcached : m'.ContextCached := .inr (by rw [hctx, hreg])
  have hswitch := final_switchContext hcached (c := m.getMMUContext) fun h => by
    rw [hctx, ← h, getMMUContext_of_eq hctx]
  have hsettled : ((switchContext m.getMMUContext).final m').Settled := by
    rw [hswitch]
    refine ⟨?_, fun _ => hmode, ?_, .inr rfl⟩
    · change m'.gSysState ≠ _
      rw [hstate]
      nofun
    · change m'.gSysState = _ → _
      rw [hstate]
      nofun
  obtain ⟨henter, hfinal⟩ := set6502State_spec hsettled hm.started
  rw [hswitch] at henter hfinal
  simp only [endContextAccess, Prog.final_bind, Prog.final_discard, hswitch]
  refine ⟨hfinal, henter.trans ?_⟩
  show Machine.View.enter ⟨m'.ram, m'.mmuRam, m.getMMUContext, m.getMMUContext.toNat, m'.gSysState⟩ _ = _
  rw [hram, hmmu]
  unfold Machine.View.enter
  split
  · rename_i h
    rw [getMMUContext_of_eq (hm.reset h)]
    rfl
  · rfl

end Machine

/-! ## A whole access -/

/-- An access that is granted runs its body on the storage it finds, with its context selected, and leaves
the view with the body's writes, in the state and the context it began with. -/
theorem withContext_run {f : Firmware σ} (hf : f.hw.Settled) {c : UInt8} (hc : c < maxContexts)
    (body : Prog (Firmware σ) α) :
    ∃ g : Firmware σ, g.storage = f.storage ∧ g.hw.gControlMode = .mRPI ∧
      g.hw.view = f.hw.view.inContext c ∧
      (withContext c body).result f = some (body.result g) ∧
      ((withContext c body).final f).storage = (body.final g).storage ∧
      ∀ ws, (body.final g).hw.gControlMode = .mRPI → (body.final g).hw.view = g.hw.view.writes ws →
        ((withContext c body).final f).hw.Settled ∧
          ((withContext c body).final f).hw.view = ⟨((f.hw.view.select c).writes ws).ram, f.hw.mmuRam,
            f.hw.getMMUContext, f.hw.getMMUContext.toNat, f.hw.gSysState⟩ := by
  obtain ⟨hstate, hcontext, hview, hmode⟩ := beginContextAccess_spec hf hc
  have hsaved : (beginContextAccess c).result f.hw = ⟨f.hw.gSysState, f.hw.getMMUContext⟩ := by
    rw [← hstate, ← hcontext]
  simp only [withContext, if_neg (UInt8.not_le.2 hc), Prog.result_bind, Prog.final_bind, Prog.result_pure,
    Prog.final_pure, emit, Prog.final_modify, onHw, Prog.final_on, Prog.result_on, hsaved]
  refine ⟨{ f with hw := (beginContextAccess c).final f.hw, events := .contextOpen :: f.events }, rfl, hmode,
    hview, rfl, rfl, fun ws hmode' hview' => ?_⟩
  exact endContextAccess_view hf (hview'.trans (congrArg (Machine.View.writes · ws) hview)) hmode'

/-- Whatever an access does inside with the storage it finds, on a settled board it leaves the view with
its writes, in the state and the context it began with. -/
theorem withContext_writes {f : Firmware σ} (hf : f.hw.Settled) {c : UInt8} (hc : c < maxContexts)
    {P : List (UInt16 × UInt8) → Prop} {body : Prog (Firmware σ) α}
    (hbody : ∀ g : Firmware σ, g.storage = f.storage → g.hw.gControlMode = .mRPI →
      (body.final g).hw.gControlMode = .mRPI ∧ ∃ ws, P ws ∧ (body.final g).hw.view = g.hw.view.writes ws) :
    ∃ ws : List (UInt16 × UInt8), P ws ∧ ((withContext c body).final f).hw.Settled ∧
      ((withContext c body).final f).hw.view = ⟨((f.hw.view.select c).writes ws).ram, f.hw.mmuRam,
        f.hw.getMMUContext, f.hw.getMMUContext.toNat, f.hw.gSysState⟩ := by
  obtain ⟨g, hstorage, hmode, -, -, -, hview⟩ := withContext_run hf hc body
  obtain ⟨hmode', ws, hws, hview'⟩ := hbody g hstorage hmode
  exact ⟨ws, hws, hview ws hmode' hview'⟩

/-- As `withContext_writes`, for a body that writes at addresses in `A`. -/
theorem withContext_view {f : Firmware σ} (hf : f.hw.Settled) {c : UInt8} (hc : c < maxContexts)
    {A : UInt16 → Prop} {body : Prog (Firmware σ) α}
    (hbody : ∀ g : Firmware σ, g.storage = f.storage → Inside A g (body.final g)) :
    ∃ ws : List (UInt16 × UInt8), (∀ w ∈ ws, A w.1) ∧ ((withContext c body).final f).hw.Settled ∧
      ((withContext c body).final f).hw.view = ⟨((f.hw.view.select c).writes ws).ram, f.hw.mmuRam,
        f.hw.getMMUContext, f.hw.getMMUContext.toNat, f.hw.gSysState⟩ :=
  withContext_writes hf hc fun g hg => (hbody g hg).hw

/-- Whatever an access does inside, on a settled board it ends with the state and context it began
with, having written only in its own context. -/
theorem withContext_access {f : Firmware σ} (hf : f.hw.Settled) {c : UInt8} (hc : c < maxContexts)
    {A : UInt16 → Prop} {body : Prog (Firmware σ) α} (hbody : Prog.Keeps (Inside A) body) :
    Access c A f.hw ((withContext c body).final f).hw := by
  obtain ⟨ws, hws, hsettled, hview⟩ := withContext_view hf hc fun g _ => hbody g
  refine ⟨hsettled, congrArg Machine.View.gSysState hview,
    getMMUContext_of_eq (congrArg Machine.View.gCurrentContext hview),
    congrArg Machine.View.mmuRam hview, fun cell hcell => ?_⟩
  rw [show ((withContext c body).final f).hw.ram = _ from congrArg Machine.View.ram hview]
  exact (f.hw.view.select c).ram_writes_of_ne fun w hw => hcell w.1 (hws w hw)

theorem withContext_refused {c : UInt8} (hc : maxContexts ≤ c) (body : Prog (Firmware σ) α)
    (f : Firmware σ) : (withContext c body).result f = none ∧ (withContext c body).final f = f := by
  simp only [withContext, if_pos hc, Prog.result_pure, Prog.final_pure, and_self]

theorem withContext_granted {c : UInt8} (hc : c < maxContexts) (body : Prog (Firmware σ) α)
    (f : Firmware σ) : ∃ r, (withContext c body).result f = some r := by
  simp only [withContext, if_neg (UInt8.not_le.2 hc), Prog.result_bind, Prog.result_pure]
  exact ⟨_, rfl⟩

/-- Bus cycles inside an access see the memory of its context. -/
theorem result_withContext {f : Firmware σ} (hf : f.hw.Settled) {c : UInt8} (hc : c < maxContexts)
    {cycles : Prog Machine α} {r : Machine.View → α} {ws : List (UInt16 × UInt8)}
    (hcycles : Cycles cycles r ws) :
    (withContext c (onHw cycles)).result f = some (r (f.hw.view.inContext c)) := by
  obtain ⟨-, -, hview, hmode⟩ := beginContextAccess_spec hf hc
  obtain ⟨hres, -, -⟩ := hcycles _ hmode
  simp only [withContext, if_neg (UInt8.not_le.2 hc), Prog.result_bind, Prog.result_pure, emit,
    Prog.final_modify, onHw, Prog.final_on, Prog.result_on, hres, hview]
  rfl

/-- An access leaves its opening and its closing in the trace. -/
theorem withContext_events {c : UInt8} (hc : c < maxContexts) {A : UInt16 → Prop}
    {body : Prog (Firmware σ) α} (hbody : Prog.Keeps (Inside A) body) (f : Firmware σ) :
    ((withContext c body).final f).events = .contextClose :: .contextOpen :: f.events ∧
      ((withContext c body).final f).gFsCompletionPending = f.gFsCompletionPending := by
  simp only [withContext, if_neg (UInt8.not_le.2 hc), Prog.final_bind, Prog.final_pure, emit,
    Prog.final_modify, onHw, Prog.final_on, Prog.result_on]
  generalize hf₁ : Firmware.mk ((beginContextAccess c).final f.hw) _ _ _ _ _ _ _ _ _ _ _ _ _ _ _ _ = f₁
  have hframe := hbody f₁
  refine ⟨?_, ?_⟩
  · rw [hframe.events, ← hf₁]
  · rw [hframe.pending, ← hf₁]

end NeoMmu
