import NeoMmu.Hardware.System

/-!
# Snooping 6502 memory

The `snoop_` functions of `neobus.cpp` halt the 6502 in `sRPI`, make their bus cycles and put the
previous state back. On a settled machine nothing of this shows: the view is the one before, with the
bytes written that the call was asked to write.
-/

namespace NeoMmu

/-! ## The functions -/

/-- Read cycles on consecutive addresses. -/
def readBlock (vAddress : UInt16) : Nat → Prog Machine (List UInt8)
  | 0 => return []
  | n + 1 => do
    let b ← read6502Memory vAddress
    let bs ← readBlock (vAddress + 1) n
    return b :: bs

/-- Write cycles on consecutive addresses. -/
def writeBlock (vAddress : UInt16) : List UInt8 → Prog Machine Unit
  | [] => return
  | b :: bs => do
    write6502Memory vAddress b
    writeBlock (vAddress + 1) bs

/-- What the snooping functions do around their bus cycles. -/
def snooping {α : Type} (cycles : Prog Machine α) : Prog Machine α := do
  let lState ← get6502State
  discard <| set6502State .sRPI
  let r ← cycles
  discard <| set6502State lState
  return r

/-- `snoop_read6502MemoryLoc()` -/
def snoopRead6502MemoryLoc (vAddress : UInt16) : Prog Machine UInt8 :=
  snooping (read6502Memory vAddress)

/-- `snoop_read6502Memory()`, which returns for up to 65535 bytes: its counter is a `uint16_t`. -/
def snoopRead6502Memory (vAddress vBytes : UInt16) : Prog Machine (List UInt8) :=
  snooping (readBlock vAddress vBytes.toNat)

/-- `snoop_write6502MemoryLoc()` -/
def snoopWrite6502MemoryLoc (vAddress : UInt16) (vData : UInt8) : Prog Machine Unit :=
  snooping (write6502Memory vAddress vData)

/-- `snoop_write6502Memory()`, which returns for up to 65535 bytes. -/
def snoopWrite6502Memory (vAddress : UInt16) (vBuffer : List UInt8) : Prog Machine Unit :=
  snooping (writeBlock vAddress vBuffer)

/-! ## Writes on views -/

/-- The writes that put a block of bytes at an address. -/
def blockWrites (vAddress : UInt16) : List UInt8 → List (UInt16 × UInt8)
  | [] => []
  | b :: bs => (vAddress, b) :: blockWrites (vAddress + 1) bs

theorem mem_blockWrites {a : UInt16} {bs : List UInt8} {w : UInt16 × UInt8}
    (h : w ∈ blockWrites a bs) : ∃ i < bs.length, w.1 = a + UInt16.ofNat i := by
  induction bs generalizing a with
  | nil => cases h
  | cons b bs ih =>
    rcases List.mem_cons.1 h with rfl | h
    · exact ⟨0, Nat.succ_pos _, by simp⟩
    · obtain ⟨i, hi, heq⟩ := ih h
      refine ⟨i + 1, Nat.succ_lt_succ hi, ?_⟩
      rw [heq, UInt16.ofNat_add, UInt16.add_assoc, UInt16.add_comm (UInt16.ofNat i)]
      rfl

/-- A block is stored as two blocks. -/
theorem blockWrites_append (a : UInt16) (bs cs : List UInt8) :
    blockWrites a (bs ++ cs) = blockWrites a bs ++ blockWrites (a + UInt16.ofNat bs.length) cs := by
  induction bs generalizing a with
  | nil => simp [blockWrites]
  | cons b bs ih =>
    have hnext : a + 1 + UInt16.ofNat bs.length = a + UInt16.ofNat (bs.length + 1) := by
      rw [UInt16.ofNat_add, UInt16.add_assoc, UInt16.add_comm 1]
      rfl
    rw [List.cons_append, blockWrites, ih, blockWrites, List.cons_append, List.length_cons, hnext]

/-- The memory `mem` with some bytes laid over it from an address on. -/
def overlay (mem : UInt16 → UInt8) (a : UInt16) (bs : List UInt8) : UInt16 → UInt8 :=
  fun x => bs.getD (x - a).toNat (mem x)

namespace Machine.View

/-- The view after some writes, in order. -/
def writes (v : View) (ws : List (UInt16 × UInt8)) : View := ws.foldl (fun v w => v.poke w.1 w.2) v

/-- The bytes at consecutive addresses. -/
def bytes (v : View) (vAddress : UInt16) : Nat → List UInt8
  | 0 => []
  | n + 1 => v.peek vAddress :: v.bytes (vAddress + 1) n

@[simp] theorem writes_nil (v : View) : v.writes [] = v := rfl

@[simp] theorem writes_cons (v : View) (w : UInt16 × UInt8) (ws : List (UInt16 × UInt8)) :
    v.writes (w :: ws) = (v.poke w.1 w.2).writes ws := rfl

theorem writes_append (v : View) (ws ws' : List (UInt16 × UInt8)) :
    v.writes (ws ++ ws') = (v.writes ws).writes ws' :=
  List.foldl_append

/-- Writes change nothing but the RAM, whatever the system state and the cached context are. -/
theorem writes_eq (v : View) (ws : List (UInt16 × UInt8)) (c : Int) (s : SysState) :
    { v with gCurrentContext := c, gSysState := s }.writes ws =
      { v with gCurrentContext := c, gSysState := s, ram := (v.writes ws).ram } := by
  induction ws generalizing v with
  | nil => rfl
  | cons w ws ih => exact ih (v.poke w.1 w.2)

/-- Entering a state does not look at the RAM or at the state before. -/
theorem enter_eq (v : View) (ram : UInt8 × UInt16 → UInt8) (s s' : SysState) :
    { v with ram := ram, gSysState := s' }.enter s = { v.enter s with ram := ram } := by
  unfold enter
  split <;> rfl

theorem writes_eq_self (v : View) (ws : List (UInt16 × UInt8)) :
    v.writes ws = { v with ram := (v.writes ws).ram } :=
  writes_eq v ws v.gCurrentContext v.gSysState

/-- A cell that no write addresses keeps its byte. -/
theorem ram_writes_of_ne (v : View) {ws : List (UInt16 × UInt8)} {cell : UInt8 × UInt16}
    (h : ∀ w ∈ ws, v.physAddr w.1 ≠ cell) : (v.writes ws).ram cell = v.ram cell := by
  induction ws generalizing v with
  | nil => rfl
  | cons w ws ih =>
    rw [List.forall_mem_cons] at h
    rw [writes_cons, ih (v.poke w.1 w.2) h.2]
    exact Function.update_of_ne h.1.symm _ _

/-- The offset of an address in its page. -/
theorem toNat_offset (a : UInt16) : (a &&& 0x0FFF).toNat = a.toNat % 4096 := by
  rw [UInt16.toNat_and, show (0x0FFF : UInt16).toNat = 2 ^ 12 - 1 from rfl, Nat.and_two_pow_sub_one_eq_mod]

/-- Where the sixteen slots lie on different pages, every address has its own cell. -/
theorem physAddr_injective {v : View} (h : ∀ slot < 16, ∀ slot' < 16,
    v.mmuRam (v.ctxReg, slot) &&& 0x7F = v.mmuRam (v.ctxReg, slot') &&& 0x7F → slot = slot') :
    Function.Injective v.physAddr := by
  have hindex : ∀ a : UInt16, (index a).toNat = a.toNat / 4096 := by
    intro a
    have ha := a.toNat_lt
    rw [index, UInt16.toNat_toUInt8, UInt16.toNat_shiftRight, Nat.shiftRight_eq_div_pow]
    simp only [UInt16.reduceToNat, Nat.reduceMod, Nat.reducePow]
    omega
  have hslot : ∀ a : UInt16, index a < 16 := by
    intro a
    have ha := a.toNat_lt
    rw [UInt8.lt_iff_toNat_lt, hindex]
    simp only [UInt8.reduceToNat]
    omega
  intro a b heq
  obtain ⟨hpage, hoffset⟩ := Prod.mk.inj heq
  have hhigh := congrArg UInt8.toNat (h _ (hslot a) _ (hslot b) hpage)
  have hlow := congrArg UInt16.toNat hoffset
  rw [hindex, hindex] at hhigh
  rw [toNat_offset, toNat_offset] at hlow
  apply UInt16.toNat_inj.1
  omega

/-- Where every address has its own cell, a stored block lies over what was there. -/
theorem peek_writes_block {v : View} (hv : Function.Injective v.physAddr) {bs : List UInt8}
    (hbs : bs.length ≤ 65536) (a x : UInt16) :
    (v.writes (blockWrites a bs)).peek x = overlay v.peek a bs x := by
  induction bs generalizing v a with
  | nil => rfl
  | cons b bs ih =>
    rw [List.length_cons] at hbs
    rw [blockWrites, writes_cons, ih (v := v.poke a b) hv (by omega)]
    by_cases hx : x = a
    · -- the block starts here, and is too short to come round again
      subst hx
      have hlast : (x - (x + 1)).toNat = 65535 := by
        have hx' := x.toNat_lt
        rw [UInt16.toNat_sub, UInt16.toNat_add]
        simp only [UInt16.reduceToNat]
        omega
      rw [overlay, hlast, List.getD_eq_getElem?_getD, List.getElem?_eq_none (by omega), overlay,
        UInt16.sub_self]
      exact Function.update_self _ _ _
    · have hnext : (x - a).toNat = (x - (a + 1)).toNat + 1 := by
        have hne : x.toNat ≠ a.toNat := fun h => hx (UInt16.toNat_inj.1 h)
        have hx' := x.toNat_lt
        have ha' := a.toNat_lt
        rw [UInt16.toNat_sub, UInt16.toNat_sub, UInt16.toNat_add]
        simp only [UInt16.reduceToNat]
        omega
      have hother : (v.poke a b).peek x = v.peek x :=
        Function.update_of_ne (fun h => hx (hv h)) _ _
      rw [overlay, overlay, hnext, List.getD_cons_succ, hother]

/-- Addresses less than a page apart have different offsets in their pages. -/
theorem offset_ne {a : UInt16} {n : Nat} (hpos : 0 < n) (hn : n < 4096) :
    (a + UInt16.ofNat n) &&& 0x0FFF ≠ a &&& 0x0FFF := by
  intro heq
  have hnat := congrArg UInt16.toNat heq
  rw [toNat_offset, toNat_offset, UInt16.toNat_add, UInt16.toNat_ofNat'] at hnat
  omega

/-- A byte of a stored block is found in its cell, unless one behind it shares the cell. -/
theorem ram_writes_block_of_ne (v : View) {bs : List UInt8} (a : UInt16) {i : Nat} (hi : i < bs.length)
    (h : ∀ j, i < j → j < bs.length → v.physAddr (a + UInt16.ofNat j) ≠ v.physAddr (a + UInt16.ofNat i)) :
    (v.writes (blockWrites a bs)).ram (v.physAddr (a + UInt16.ofNat i)) = bs[i] := by
  induction bs generalizing v a i with
  | nil => cases hi
  | cons b bs ih =>
    have hnext : ∀ j, a + UInt16.ofNat (j + 1) = a + 1 + UInt16.ofNat j := by
      intro j
      rw [UInt16.ofNat_add, UInt16.add_comm (UInt16.ofNat j), ← UInt16.add_assoc]
      rfl
    rw [blockWrites, writes_cons]
    cases i with
    | zero =>
      rw [show a + UInt16.ofNat 0 = a from UInt16.add_zero a] at h ⊢
      rw [ram_writes_of_ne]
      · exact Function.update_self _ _ _
      · intro w hw heq
        obtain ⟨j, hj, hat⟩ := mem_blockWrites hw
        refine h (j + 1) (Nat.succ_pos j) (Nat.succ_lt_succ hj) ?_
        rw [hnext, ← hat]
        exact heq
    | succ i =>
      rw [hnext, List.getElem_cons_succ]
      refine ih (v.poke a b) (a + 1) (Nat.lt_of_succ_lt_succ hi) fun j hij hj heq => ?_
      refine h (j + 1) (Nat.succ_lt_succ hij) (Nat.succ_lt_succ hj) ?_
      rw [hnext, hnext]
      exact heq

/-- A stored block that is not longer than a page is found in its cells under every mapping. -/
theorem ram_writes_block (v : View) {bs : List UInt8} (hbs : bs.length ≤ 4096) (a : UInt16) {i : Nat}
    (hi : i < bs.length) :
    (v.writes (blockWrites a bs)).ram (v.physAddr (a + UInt16.ofNat i)) = bs[i] := by
  refine v.ram_writes_block_of_ne a hi fun j hij hj heq => ?_
  obtain ⟨n, rfl⟩ := Nat.exists_eq_add_of_lt hij
  refine offset_ne (a := a + UInt16.ofNat i) (n := n + 1) (by omega) (by omega) ?_
  rw [UInt16.add_assoc, ← UInt16.ofNat_add]
  exact congrArg Prod.snd heq

theorem bytes_congr {v v' : View} (h : ∀ a, v.peek a = v'.peek a) (a : UInt16) (n : Nat) :
    v.bytes a n = v'.bytes a n := by
  induction n generalizing a with
  | zero => rfl
  | succ n ih => rw [bytes, bytes, h, ih]

@[simp] theorem length_bytes (v : View) (a : UInt16) (n : Nat) : (v.bytes a n).length = n := by
  induction n generalizing a with
  | zero => rfl
  | succ n ih => rw [bytes, List.length_cons, ih]

/-- Blocks of bytes are cut at any place. -/
theorem drop_bytes (v : View) (a : UInt16) (n k : Nat) :
    (v.bytes a n).drop k = v.bytes (a + UInt16.ofNat k) (n - k) := by
  induction k generalizing a n with
  | zero => simp
  | succ k ih =>
    rcases n with - | n
    · rw [Nat.zero_sub, bytes, bytes, List.drop_nil]
    · rw [bytes, List.drop_succ_cons, ih, Nat.add_sub_add_right, UInt16.add_assoc,
        UInt16.add_comm 1, UInt16.ofNat_add]
      rfl

theorem take_bytes (v : View) (a : UInt16) {n k : Nat} (h : k ≤ n) :
    (v.bytes a n).take k = v.bytes a k := by
  induction k generalizing a n with
  | zero => rfl
  | succ k ih =>
    obtain ⟨n, rfl⟩ := Nat.exists_eq_add_of_le' (Nat.zero_lt_of_lt h)
    rw [bytes, List.take_succ_cons, ih (a + 1) (Nat.le_of_succ_le_succ h), bytes]

theorem getElem?_bytes (v : View) (a : UInt16) {n i : Nat} (hi : i < n) :
    (v.bytes a n)[i]? = some (v.peek (a + UInt16.ofNat i)) := by
  obtain ⟨k, rfl⟩ := Nat.exists_eq_add_of_lt hi
  rw [← List.head?_drop, drop_bytes, show i + k + 1 - i = k + 1 by omega]
  rfl

end Machine.View

/-! ## Bus cycles under RP control -/

section Cycles

variable {m : Machine}

theorem readBlock_spec (hm : m.gControlMode = .mRPI) (a : UInt16) (n : Nat) :
    (readBlock a n).result m = m.view.bytes a n ∧ ((readBlock a n).final m).view = m.view ∧
      ((readBlock a n).final m).gControlMode = .mRPI := by
  induction n generalizing m a with
  | zero => exact ⟨rfl, rfl, hm⟩
  | succ n ih =>
    have hlatch : (m.latch a).gControlMode = .mRPI := hm
    simp only [readBlock, Prog.result_bind, Prog.final_bind, result_read6502Memory hm,
      final_read6502Memory hm, Prog.result_pure, Prog.final_pure, ih hlatch, Machine.view_latch]
    exact ⟨rfl, trivial, trivial⟩

theorem writeBlock_spec (hm : m.gControlMode = .mRPI) (a : UInt16) (bs : List UInt8) :
    ((writeBlock a bs).final m).view = m.view.writes (blockWrites a bs) ∧
      ((writeBlock a bs).final m).gControlMode = .mRPI := by
  induction bs generalizing m a with
  | nil => exact ⟨rfl, hm⟩
  | cons b bs ih =>
    have hpoke : (((m.poke a b).latch a).irqOn).gControlMode = .mRPI := hm
    simp only [writeBlock, Prog.final_bind, final_write6502Memory hm, ih hpoke]
    exact ⟨rfl, trivial⟩

/-- Cycles that return what `r` says of the view and make the writes `ws`. -/
def Cycles {α : Type} (cycles : Prog Machine α) (r : Machine.View → α)
    (ws : List (UInt16 × UInt8)) : Prop :=
  ∀ m : Machine, m.gControlMode = .mRPI → cycles.result m = r m.view ∧
    (cycles.final m).view = m.view.writes ws ∧ (cycles.final m).gControlMode = .mRPI

theorem cycles_read6502Memory (a : UInt16) : Cycles (read6502Memory a) (·.peek a) [] := by
  intro m hm
  rw [result_read6502Memory hm, final_read6502Memory hm]
  exact ⟨rfl, rfl, hm⟩

theorem cycles_readBlock (a : UInt16) (n : Nat) : Cycles (readBlock a n) (·.bytes a n) [] :=
  fun _ hm => readBlock_spec hm a n

theorem cycles_write6502Memory (a : UInt16) (b : UInt8) :
    Cycles (write6502Memory a b) (fun _ => ()) [(a, b)] := by
  intro m hm
  rw [final_write6502Memory hm]
  exact ⟨rfl, rfl, hm⟩

theorem cycles_writeBlock (a : UInt16) (bs : List UInt8) :
    Cycles (writeBlock a bs) (fun _ => ()) (blockWrites a bs) :=
  fun _ hm => ⟨rfl, writeBlock_spec hm a bs⟩

end Cycles

/-! ## Snooping is transparent -/

section Snooping

variable {m : Machine} {α : Type} {cycles : Prog Machine α} {r : Machine.View → α}
  {ws : List (UInt16 × UInt8)}

/-- The machine as the bus cycles of a snooping function find it. -/
theorem snooping_start (hm : m.Settled) :
    ((set6502State .sRPI).final m).view = { m.view with gSysState := .sRPI } ∧
      ((set6502State .sRPI).final m).gControlMode = .mRPI := by
  obtain ⟨hview, hsettled⟩ := set6502State_spec hm (s := .sRPI) nofun
  exact ⟨hview, hsettled.rpi (congrArg Machine.View.gSysState hview)⟩

/-- Putting the state back after some writes leaves the view with the writes. -/
theorem view_writes_enter (hm : m.Settled) (ws : List (UInt16 × UInt8)) :
    ({ m.view with gSysState := .sRPI }.writes ws).enter m.gSysState = m.view.writes ws := by
  have hback := m.view.enter_eq (m.view.writes ws).ram m.gSysState .sRPI
  rw [hm.view_enter_self, ← Machine.View.writes_eq_self] at hback
  rw [← hback, ← Machine.View.writes_eq m.view ws m.view.gCurrentContext .sRPI]

/-- On a settled machine snooping reads what the view shows and makes its writes, and nothing else of
the view changes. -/
theorem snooping_spec (hm : m.Settled) (hc : Cycles cycles r ws)
    (hr : ∀ v : Machine.View, r { v with gSysState := .sRPI } = r v) :
    (snooping cycles).result m = r m.view ∧ ((snooping cycles).final m).view = m.view.writes ws ∧
      ((snooping cycles).final m).Settled := by
  obtain ⟨hview, hmode⟩ := snooping_start hm
  obtain ⟨hres, hfin, hmode'⟩ := hc _ hmode
  have hsettled : (cycles.final ((set6502State .sRPI).final m)).Settled := by
    rw [hview, Machine.View.writes_eq m.view ws m.view.gCurrentContext .sRPI] at hfin
    have hstate : (cycles.final ((set6502State .sRPI).final m)).gSysState = .sRPI :=
      congrArg Machine.View.gSysState hfin
    have hctx : (cycles.final ((set6502State .sRPI).final m)).gCurrentContext = m.gCurrentContext :=
      congrArg Machine.View.gCurrentContext hfin
    have hreg : (cycles.final ((set6502State .sRPI).final m)).ctxReg = m.ctxReg :=
      congrArg Machine.View.ctxReg hfin
    refine ⟨by rw [hstate]; nofun, fun _ => hmode', by rw [hstate]; nofun, ?_⟩
    rw [Machine.ContextCached, hctx, hreg]
    exact hm.cached
  obtain ⟨hview', hsettled'⟩ := set6502State_spec hsettled hm.started
  simp only [snooping, Prog.result_bind, Prog.final_bind, result_get6502State, final_get6502State,
    Prog.result_pure, Prog.final_pure, Prog.final_discard, hres, hview']
  refine ⟨?_, ?_, hsettled'⟩
  · rw [hview]
    exact hr m.view
  · rw [hfin, hview]
    exact view_writes_enter hm ws

theorem snoopRead6502MemoryLoc_spec (hm : m.Settled) (a : UInt16) :
    (snoopRead6502MemoryLoc a).result m = m.view.peek a ∧
      ((snoopRead6502MemoryLoc a).final m).view = m.view ∧
      ((snoopRead6502MemoryLoc a).final m).Settled :=
  snooping_spec hm (cycles_read6502Memory a) fun _ => rfl

theorem snoopRead6502Memory_spec (hm : m.Settled) (a n : UInt16) :
    (snoopRead6502Memory a n).result m = m.view.bytes a n.toNat ∧
      ((snoopRead6502Memory a n).final m).view = m.view ∧
      ((snoopRead6502Memory a n).final m).Settled := by
  refine snooping_spec hm (cycles_readBlock a n.toNat) fun v => ?_
  apply Machine.View.bytes_congr
  intro b
  rfl

theorem snoopWrite6502MemoryLoc_spec (hm : m.Settled) (a : UInt16) (b : UInt8) :
    ((snoopWrite6502MemoryLoc a b).final m).view = m.view.poke a b ∧
      ((snoopWrite6502MemoryLoc a b).final m).Settled :=
  (snooping_spec hm (cycles_write6502Memory a b) fun _ => rfl).2

theorem snoopWrite6502Memory_spec (hm : m.Settled) (a : UInt16) (bs : List UInt8) :
    ((snoopWrite6502Memory a bs).final m).view = m.view.writes (blockWrites a bs) ∧
      ((snoopWrite6502Memory a bs).final m).Settled :=
  (snooping_spec hm (cycles_writeBlock a bs) fun _ => rfl).2

end Snooping

end NeoMmu
