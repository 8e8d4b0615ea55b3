import Mathlib.Data.List.Nodup
import NeoMmu.Foundation.Prog
import NeoMmu.Foundation.Run
import NeoMmu.Usb.Slots

/-!
# Block transfers over the USB host

`usb_storage_read_blocks` and `usb_storage_write_blocks` queue one transfer and wait for a completion
flag. The USB host stack is the environment: it says whether a device is ready, whether it takes the
command, and at each `gUSBHost.task()` call which transfers in flight complete and with which CSW
status. A transfer whose caller timed out stays in flight.
-/

namespace NeoMmu

/-- READ10 or WRITE10; each has its own pair of completion flags. -/
inductive TransferKind
  | read
  | write
  deriving DecidableEq, Repr

/-- A command queued with `tuh_msc_read10()` or `tuh_msc_write10()`, numbered in order of queueing. -/
structure Transfer where
  id : Nat
  kind : TransferKind
  dev_addr : UInt8
  lun : UInt8
  lba : UInt32
  count : UInt16
  deriving DecidableEq, Repr

/-- The statics of `usb_storage.cpp` and the host stack's queue. -/
structure Usb where
  /-- `gUSBStorageSlots`; every access is guarded by `device < USB_STORAGE_MAX_DEVICES`. -/
  slots : UInt8 → USBStorageSlot
  /-- `gReadDone` and `gWriteDone`. -/
  done : TransferKind → Bool
  /-- `gReadOK` and `gWriteOK`. -/
  ok : TransferKind → Bool
  inFlight : List Transfer
  /-- The number of the next transfer queued. -/
  nextId : Nat
  /-- The transfers that have completed, with whether their CSW status was 0. -/
  completed : List (Nat × Bool)

/-- The statics as they start, with devices in the slots. -/
def Usb.initial (slots : UInt8 → USBStorageSlot) : Usb where
  slots := slots
  done := fun _ => false
  ok := fun _ => false
  inFlight := []
  nextId := 0
  completed := []

/-! ## The host stack -/

/-- `usb_storage_msc_read_complete()` and `usb_storage_msc_write_complete()`: `status` says that the
callback data and its CSW are there and the CSW status is 0. -/
def mscComplete (kind : TransferKind) (status : Bool) : Prog Usb Unit :=
  modify fun u => { u with
    ok := Function.update u.ok kind status
    done := Function.update u.done kind true }

/-- The host stack completes the transfer `id`, if it is in flight, and calls back. -/
def complete (id : Nat) (status : Bool) : Prog Usb Unit := do
  match (← get).inFlight.find? (·.id = id) with
  | none => return ()
  | some t =>
    modify fun u => { u with
      inFlight := u.inFlight.filter (·.id ≠ id)
      completed := (id, status) :: u.completed }
    mscComplete t.kind status

/-- `gUSBHost.task()`, delivering some completions. -/
def usbTask : List (Nat × Bool) → Prog Usb Unit
  | [] => return ()
  | (id, status) :: rest => do
    complete id status
    usbTask rest

/-! ## The calls -/

/-- The arguments of `usb_storage_read_blocks()` or `usb_storage_write_blocks()`. -/
structure BlockArgs where
  device : UInt8
  lba : UInt32
  bufferNull : Bool
  count : UInt16
  timeout_ms : UInt32
  deriving DecidableEq, Repr

/-- One turn of the wait loop: the completions its `task()` delivers and `millis()` after it. -/
structure WaitTurn where
  completions : List (Nat × Bool)
  now : UInt32
  deriving DecidableEq, Repr

/-- What the environment does during one call. -/
structure CallEnv where
  /-- `tuh_msc_ready()` -/
  ready : Bool
  /-- Whether `tuh_msc_read10()` or `tuh_msc_write10()` takes the command. -/
  accepted : Bool
  start_ms : UInt32
  turns : List WaitTurn
  deriving DecidableEq, Repr

/-- `while (!gReadDone) …` and the test of `gReadOK` after it; `none` while the turns given do not end
the loop. -/
def waitComplete (kind : TransferKind) (timeout_ms start_ms : UInt32) :
    List WaitTurn → Prog Usb (Option Bool)
  | [] => do
    let u ← get
    return if u.done kind then some (u.ok kind) else none
  | turn :: turns => do
    let u ← get
    if u.done kind then
      return some (u.ok kind)
    usbTask turn.completions
    if timeout_ms ≤ turn.now - start_ms then
      return some false
    waitComplete kind timeout_ms start_ms turns

/-- The checks before anything is queued, from the device number to `tuh_msc_ready()`. -/
def transferAllowed (u : Usb) (args : BlockArgs) (ready : Bool) : Bool :=
  let slot := u.slots args.device
  if USB_STORAGE_MAX_DEVICES ≤ args.device then false
  else if args.bufferNull ∨ args.count = 0 then false
  else if slot.present = false then false
  else if slot.block_size ≠ 512 then false
  else if slot.block_count ≤ args.lba ∨ slot.block_count - args.lba < args.count.toUInt32 then false
  else ready

/-- The body shared by `usb_storage_read_blocks()` and `usb_storage_write_blocks()`. -/
def usbStorageBlocks (kind : TransferKind) (args : BlockArgs) (env : CallEnv) :
    Prog Usb (Option Bool) := do
  let u ← get
  if transferAllowed u args env.ready = false then
    return some false
  modify fun u => { u with
    done := Function.update u.done kind false
    ok := Function.update u.ok kind false }
  if env.accepted = false then
    return some false
  modify fun u => { u with
    inFlight := ⟨u.nextId, kind, (u.slots args.device).dev_addr, (u.slots args.device).lun,
      args.lba, args.count⟩ :: u.inFlight
    nextId := u.nextId + 1 }
  waitComplete kind args.timeout_ms env.start_ms env.turns

/-- `usb_storage_read_blocks()` -/
def usbStorageReadBlocks (args : BlockArgs) (env : CallEnv) : Prog Usb (Option Bool) :=
  usbStorageBlocks .read args env

/-- `usb_storage_write_blocks()` -/
def usbStorageWriteBlocks (args : BlockArgs) (env : CallEnv) : Prog Usb (Option Bool) :=
  usbStorageBlocks .write args env

/-! ## Runs -/

/-- What happens between two returns to the firmware's loop. -/
inductive UsbEvent
  /-- A call of `usb_storage_read_blocks()`. -/
  | readBlocks (args : BlockArgs) (env : CallEnv)
  /-- A call of `usb_storage_write_blocks()`. -/
  | writeBlocks (args : BlockArgs) (env : CallEnv)
  /-- `gUSBHost.task()` outside any call. -/
  | idle (completions : List (Nat × Bool))
  /-- Devices attached or removed. -/
  | devices (slots : UInt8 → USBStorageSlot)

namespace UsbEvent

/-- The firmware's step; a call returns its result. -/
def run : UsbEvent → Prog Usb (Option Bool)
  | .readBlocks args env => usbStorageReadBlocks args env
  | .writeBlocks args env => usbStorageWriteBlocks args env
  | .idle completions => do usbTask completions; return none
  | .devices slots => do modify fun u => { u with slots := slots }; return none

/-- The state after an event. -/
def next (u : Usb) (event : UsbEvent) : Usb := event.run.final u

/-- The environment keeps the host stack's promise: a device of a present slot is not ready only while
a transfer of its own is in flight. -/
def Lawful (u : Usb) : UsbEvent → Prop
  | .readBlocks args env | .writeBlocks args env =>
    env.ready = false → ∃ t ∈ u.inFlight, t.dev_addr = (u.slots args.device).dev_addr
  | .idle _ | .devices _ => True

/-- A call that returns true does so because the transfer it queued has completed with status 0. -/
def AcksOwn (u : Usb) (event : UsbEvent) : Prop :=
  event.run.result u = some true → (u.nextId, true) ∈ (event.next u).completed

/-- If the call queues its transfer and has any time to wait for it, no other transfer of its kind is
in flight at that moment. -/
def Alone (u : Usb) : UsbEvent → Prop
  | .readBlocks args env => MayWait u args env → ∀ t ∈ u.inFlight, t.kind ≠ .read
  | .writeBlocks args env => MayWait u args env → ∀ t ∈ u.inFlight, t.kind ≠ .write
  | .idle _ | .devices _ => True
where
  /-- The call passes its checks, its command is taken, and its timeout is not 0. -/
  MayWait (u : Usb) (args : BlockArgs) (env : CallEnv) : Prop :=
    transferAllowed u args env.ready = true ∧ env.accepted = true ∧ args.timeout_ms ≠ 0

end UsbEvent

/-! ## A call that waits alone

While the transfer `id` is the only one of its kind that can complete, the flags of that kind speak
about it and nothing else.
-/

/-- Only `id` can complete among the transfers of `kind`, and a set flag is its completion. -/
structure OwnOnly (kind : TransferKind) (id : Nat) (u : Usb) : Prop where
  own : ∀ t ∈ u.inFlight, t.kind = kind → t.id = id
  acked : u.done kind = true → (id, u.ok kind) ∈ u.completed

section OwnOnly

variable {kind : TransferKind} {id : Nat} {u : Usb}

theorem ownOnly_complete (h : OwnOnly kind id u) (id' : Nat) (status : Bool) :
    OwnOnly kind id ((complete id' status).final u) := by
  simp only [complete, Prog.final_bind, Prog.result_get, Prog.final_get]
  cases hfind : u.inFlight.find? (·.id = id') with
  | none => exact h
  | some t =>
    have hmem : t ∈ u.inFlight := List.mem_of_find?_eq_some hfind
    have hid : t.id = id' := by simpa using List.find?_some hfind
    simp only [mscComplete, Prog.final_bind, Prog.final_modify]
    refine ⟨fun t' ht' => h.own t' (List.mem_filter.1 ht').1, fun hdone => ?_⟩
    by_cases hkind : kind = t.kind
    · -- The completing transfer has the kind waited for, so it is the own one.
      have hown : id' = id := hid ▸ h.own t hmem hkind.symm
      subst hkind hown
      simp
    · simp only [Function.update_of_ne hkind] at hdone ⊢
      exact List.mem_cons_of_mem _ (h.acked hdone)

theorem ownOnly_usbTask (h : OwnOnly kind id u) (completions : List (Nat × Bool)) :
    OwnOnly kind id ((usbTask completions).final u) := by
  induction completions generalizing u with
  | nil => exact h
  | cons c rest ih => exact ih (ownOnly_complete h c.1 c.2)

/-- A wait that ends with true has seen the completion of `id` with status 0. -/
theorem waitComplete_acks {timeout_ms start_ms : UInt32} {turns : List WaitTurn}
    (h : OwnOnly kind id u)
    (htrue : (waitComplete kind timeout_ms start_ms turns).result u = some true) :
    (id, true) ∈ ((waitComplete kind timeout_ms start_ms turns).final u).completed := by
  induction turns generalizing u with
  | nil =>
    by_cases hdone : u.done kind = true
    · have hok : u.ok kind = true := by simpa [waitComplete, hdone] using htrue
      have hack := h.acked hdone
      rw [hok] at hack
      simpa [waitComplete] using hack
    · simp [waitComplete, hdone] at htrue
  | cons turn turns ih =>
    simp only [waitComplete, Prog.result_bind, Prog.result_get, Prog.final_get, Prog.final_bind,
      Prog.result_ite, Prog.final_ite, Prog.result_pure, Prog.final_pure] at htrue ⊢
    by_cases hdone : u.done kind = true
    · simp only [hdone, if_true] at htrue ⊢
      have hok : u.ok kind = true := Option.some.inj htrue
      have hack := h.acked hdone
      rwa [hok] at hack
    · by_cases htime : timeout_ms ≤ turn.now - start_ms
      · simp [hdone, htime] at htrue
      · simp only [hdone, htime, if_false] at htrue ⊢
        exact ih (ownOnly_usbTask h turn.completions) htrue

/-- A call with no time to wait never returns true. -/
theorem waitComplete_timeout_zero (hdone : u.done kind = false) (start_ms : UInt32)
    (turns : List WaitTurn) : (waitComplete kind 0 start_ms turns).result u ≠ some true := by
  cases turns with
  | nil => simp [waitComplete, hdone]
  | cons turn turns => simp [waitComplete, hdone]

end OwnOnly

/-- One call that waits alone acknowledges its own transfer. -/
theorem usbStorageBlocks_acks {kind : TransferKind} {args : BlockArgs} {env : CallEnv} {u : Usb}
    (halone : UsbEvent.Alone.MayWait u args env → ∀ t ∈ u.inFlight, t.kind ≠ kind)
    (htrue : (usbStorageBlocks kind args env).result u = some true) :
    (u.nextId, true) ∈ ((usbStorageBlocks kind args env).final u).completed := by
  simp only [usbStorageBlocks, Prog.result_bind, Prog.result_get, Prog.final_get, Prog.final_bind,
    Prog.result_ite, Prog.final_ite, Prog.final_modify, Prog.result_pure] at htrue ⊢
  by_cases hallowed : transferAllowed u args env.ready = true
  swap
  · simp [hallowed] at htrue
  by_cases haccepted : env.accepted = true
  swap
  · simp [hallowed, haccepted] at htrue
  simp only [hallowed, haccepted, Bool.true_eq_false, if_false] at htrue ⊢
  by_cases htime : args.timeout_ms = 0
  · rw [htime] at htrue
    exact absurd htrue (waitComplete_timeout_zero (by simp) env.start_ms env.turns)
  refine waitComplete_acks ⟨fun t ht hkind => ?_, by simp⟩ htrue
  rcases List.mem_cons.1 ht with rfl | ht
  · rfl
  · exact absurd hkind (halone ⟨hallowed, haccepted, htime⟩ t ht)

/-- In a run whose calls each wait alone, every call that returns true has seen its own transfer
complete with status 0. -/
theorem acksOwn_of_alone (slots : UInt8 → USBStorageSlot) (events : List UsbEvent)
    (h : Run.AtEveryStep UsbEvent.next UsbEvent.Alone (Usb.initial slots) events) :
    Run.AtEveryStep UsbEvent.next UsbEvent.AcksOwn (Usb.initial slots) events := by
  intro pre event post hsplit
  have halone := h pre event post hsplit
  cases event with
  | readBlocks args env => exact usbStorageBlocks_acks halone
  | writeBlocks args env => exact usbStorageBlocks_acks halone
  | idle completions =>
    intro htrue
    simp [UsbEvent.run] at htrue
  | devices slots =>
    intro htrue
    simp [UsbEvent.run] at htrue

/-- Two present devices at addresses 1 and 2. -/
def twoDevices : UInt8 → USBStorageSlot := fun device =>
  ⟨true, if device = 0 then 1 else 2, 0, 100, 512⟩

/-- A read of device 0 whose transfer completes while it is waited for. -/
def promptRead : UsbEvent :=
  .readBlocks ⟨0, 7, false, 1, 1000⟩ ⟨true, true, 0, [⟨[(0, true)], 1⟩, ⟨[], 2⟩]⟩

/-- A prompt read returns true and has its own completion. -/
theorem acksOwn_promptRead :
    promptRead.run.result (Usb.initial twoDevices) = some true ∧
      Run.AtEveryStep UsbEvent.next UsbEvent.AcksOwn (Usb.initial twoDevices) [promptRead] := by
  refine ⟨by decide, acksOwn_of_alone twoDevices [promptRead] ?_⟩
  rw [Run.atEveryStep_cons]
  refine ⟨?_, Run.atEveryStep_nil _⟩
  intro _ t ht
  simp [Usb.initial] at ht

/-- A read of device 0 that times out. -/
def timedOutRead : UsbEvent :=
  .readBlocks ⟨0, 7, false, 1, 5⟩ ⟨true, true, 0, [⟨[], 10⟩]⟩

/-- A read of device 1 during which only the transfer of `timedOutRead` completes. -/
def misledRead : UsbEvent :=
  .readBlocks ⟨1, 7, false, 1, 1000⟩ ⟨true, true, 20, [⟨[(0, true)], 21⟩, ⟨[], 22⟩]⟩

/-- The late completion is acknowledged as the second read's own, which is still in flight. -/
theorem misledRead_not_acksOwn :
    Run.AtEveryStep UsbEvent.next UsbEvent.Lawful (Usb.initial twoDevices)
        [timedOutRead, misledRead] ∧
      ¬ Run.AtEveryStep UsbEvent.next UsbEvent.AcksOwn (Usb.initial twoDevices)
        [timedOutRead, misledRead] := by
  constructor
  · simp only [Run.atEveryStep_cons]
    exact ⟨nofun, nofun, Run.atEveryStep_nil _⟩
  · intro h
    have hsecond := h [timedOutRead] misledRead [] rfl (by decide)
    revert hsecond
    decide

/-! ## The condition is exact

In a reachable state transfer numbers are fresh, so a second transfer of the same kind in flight lets
the environment end the wait with a completion that is not the call's own.
-/

/-- Transfers are numbered in order, and no two in flight share a number. -/
structure Usb.Numbered (u : Usb) : Prop where
  fresh : ∀ t ∈ u.inFlight, t.id < u.nextId
  past : ∀ c ∈ u.completed, c.1 < u.nextId
  distinct : (u.inFlight.map (·.id)).Nodup

namespace Usb.Numbered

variable {u : Usb}

theorem complete (h : u.Numbered) (id : Nat) (status : Bool) :
    ((NeoMmu.complete id status).final u).Numbered := by
  simp only [NeoMmu.complete, Prog.final_bind, Prog.result_get, Prog.final_get]
  cases hfind : u.inFlight.find? (·.id = id) with
  | none => exact h
  | some t =>
    have hid : t.id = id := by simpa using List.find?_some hfind
    have hlt : id < u.nextId := hid ▸ h.fresh t (List.mem_of_find?_eq_some hfind)
    refine ⟨fun t' ht' => h.fresh t' (List.mem_filter.1 ht').1, fun c hc => ?_, ?_⟩
    · rcases List.mem_cons.1 hc with rfl | hc
      · exact hlt
      · exact h.past c hc
    · exact h.distinct.sublist (List.filter_sublist.map _)

theorem usbTask (h : u.Numbered) (completions : List (Nat × Bool)) :
    ((NeoMmu.usbTask completions).final u).Numbered := by
  induction completions generalizing u with
  | nil => exact h
  | cons c rest ih => exact ih (h.complete c.1 c.2)

theorem waitComplete (h : u.Numbered) (kind : TransferKind) (timeout_ms start_ms : UInt32)
    (turns : List WaitTurn) :
    ((NeoMmu.waitComplete kind timeout_ms start_ms turns).final u).Numbered := by
  induction turns generalizing u with
  | nil => exact h
  | cons turn turns ih =>
    have htask := h.usbTask turn.completions
    simp only [NeoMmu.waitComplete, Prog.final_bind, Prog.result_get, Prog.final_get,
      Prog.final_ite, Prog.final_pure]
    split
    · exact h
    · split
      · exact htask
      · exact ih htask

theorem usbStorageBlocks (h : u.Numbered) (kind : TransferKind) (args : BlockArgs)
    (env : CallEnv) : ((NeoMmu.usbStorageBlocks kind args env).final u).Numbered := by
  simp only [NeoMmu.usbStorageBlocks, Prog.final_bind, Prog.result_get, Prog.final_get,
    Prog.final_ite, Prog.final_pure, Prog.final_modify]
  split
  · exact h
  split
  · exact ⟨h.fresh, h.past, h.distinct⟩
  apply waitComplete
  refine ⟨fun t ht => ?_, fun c hc => Nat.lt_succ_of_lt (h.past c hc), ?_⟩
  · rcases List.mem_cons.1 ht with rfl | ht
    · exact Nat.lt_succ_self _
    · exact Nat.lt_succ_of_lt (h.fresh t ht)
  · rw [List.map_cons, List.nodup_cons]
    refine ⟨fun hmem => ?_, h.distinct⟩
    obtain ⟨t, ht, hid⟩ := List.mem_map.1 hmem
    exact absurd hid (Nat.ne_of_lt (h.fresh t ht))

theorem next (h : u.Numbered) (event : UsbEvent) : (event.next u).Numbered := by
  cases event with
  | readBlocks args env => exact h.usbStorageBlocks .read args env
  | writeBlocks args env => exact h.usbStorageBlocks .write args env
  | idle completions => exact h.usbTask completions
  | devices slots => exact ⟨h.fresh, h.past, h.distinct⟩

theorem run (slots : UInt8 → USBStorageSlot) (events : List UsbEvent) :
    (events.foldl UsbEvent.next (Usb.initial slots)).Numbered := by
  refine List.foldlRecOn events UsbEvent.next ⟨by simp [initial], by simp [initial], by simp [initial]⟩
    fun u h event _ => h.next event

end Usb.Numbered

/-- In a state with fresh transfer numbers, a call acknowledges only its own transfer under every
behaviour of the environment exactly when it cannot wait or waits alone. -/
theorem usbStorageBlocks_acks_iff {u : Usb} (h : u.Numbered) (kind : TransferKind)
    (args : BlockArgs) :
    (∀ env, (usbStorageBlocks kind args env).result u = some true →
        (u.nextId, true) ∈ ((usbStorageBlocks kind args env).final u).completed) ↔
      (transferAllowed u args true = true → args.timeout_ms ≠ 0 →
        ∀ t ∈ u.inFlight, t.kind ≠ kind) := by
  constructor
  · intro hacks hallowed htime t ht hkind
    have hne : t.id ≠ u.nextId := Nat.ne_of_lt (h.fresh t ht)
    have hfind : u.inFlight.find? (·.id = t.id) = some t := by
      cases hf : u.inFlight.find? (·.id = t.id) with
      | none => exact absurd (List.find?_eq_none.1 hf t ht) (by simp)
      | some t' =>
        have hid : t'.id = t.id := by simpa using List.find?_some hf
        rw [List.inj_on_of_nodup_map h.distinct (List.mem_of_find?_eq_some hf) ht hid]
    -- Let the other transfer complete during the first turn of the wait.
    have hack := hacks ⟨true, true, 0, [⟨[(t.id, true)], 0⟩, ⟨[], 0⟩]⟩
    have hpos : ¬ args.timeout_ms ≤ 0 := fun hle => htime (UInt32.le_zero_iff.1 hle)
    subst hkind
    have hown : ¬ u.nextId = t.id := Ne.symm hne
    simp [usbStorageBlocks, hallowed, waitComplete, usbTask, complete, mscComplete, hown, hfind,
      hpos] at hack
    exact absurd (h.past _ hack) (Nat.lt_irrefl u.nextId)
  · intro halone env htrue
    refine usbStorageBlocks_acks (fun hwait => halone ?_ hwait.2.2) htrue
    have hallowed := hwait.1
    cases hr : env.ready with
    | true => rwa [hr] at hallowed
    | false => simp [hr, transferAllowed] at hallowed

end NeoMmu
