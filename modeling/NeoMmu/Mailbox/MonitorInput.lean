import NeoMmu.Mailbox.Scheduler
import NeoMmu.Vdu.Display

/-!
# Input from the terminal

`monitorConsoleInput()` takes one byte from the Serial1 terminal or from the USB keyboard, echoes it to the VDU and
queues it for the 6502. In screen mode it queues whole lines of the screen instead. The command line that
`returnToICM()` empties is `resetMonitorInput`.
-/

namespace NeoMmu

open Prog

variable {σ α : Type}

/-- The firmware, the display, and the statics of `monitor.cpp` that tell where Serial1 goes. -/
structure Terminal (σ : Type) where
  firmware : Firmware σ
  vdu : Vdu
  gInterface : UInt8
  gInMonitor : Bool

/-- A program on the firmware. -/
def onConsole (p : Prog (Firmware σ) α) : Prog (Terminal σ) α :=
  p.on (·.firmware) fun t f => { t with firmware := f }

/-- A program on the display. -/
def onVdu (p : VduProg α) : Prog (Terminal σ) α :=
  p.on (fun t => Traced.start t.vdu) fun t v => { t with vdu := v.now }

/-- `returnToICM()` -/
def returnToICM : Prog (Terminal σ) Unit := modify fun t => { t with gInterface := 0, gInMonitor := false }

/-- `vduGetScreenline()`: the characters of a row, trailing spaces removed. -/
def Vdu.vduGetScreenline (s : Vdu) (row : Nat) : List UInt8 :=
  ((List.range COLS).map fun col => (s.gScreen row col).ch).rdropWhile (· = ' '.toUInt8)

/-- The loop that queues a line up to its NUL; `false` when the queue is full. -/
def writeScreenline : List UInt8 → Prog (Terminal σ) Bool
  | [] => return true
  | c :: line => do
    if c = 0 then
      return true
    else if ← onConsole (writeCPUQ c) then
      writeScreenline line
    else
      return false

/-- What follows a byte that the queue does not take. -/
def inputFailed (allowReturnToICM : Bool) : Prog (Terminal σ) Bool := do
  if allowReturnToICM then
    returnToICM
  return false

/-- The last byte of an input, for the queue. -/
def finishInput (c : UInt8) (allowReturnToICM : Bool) : Prog (Terminal σ) Bool := do
  if ← onConsole (writeCPUQ c) then
    return true
  else
    inputFailed allowReturnToICM

/-- The part of `monitorConsoleInput()` that enters a line of the screen. -/
def enterScreenline (allowReturnToICM : Bool) : Prog (Terminal σ) Bool := do
  let s := (← get).vdu
  let lBuffer := s.vduGetScreenline s.gCursor.row
  onVdu vduRestoreCursor
  if ← writeScreenline lBuffer then
    finishInput '\r'.toUInt8 allowReturnToICM
  else
    inputFailed allowReturnToICM

/-- `monitorConsoleInput()` -/
def monitorConsoleInput (c : UInt8) (allowReturnToICM : Bool) : Prog (Terminal σ) Bool := do
  if c = 0x03 then
    onConsole requestConsoleBreakIRQ
    return true
  else if c = 0x1A ∧ allowReturnToICM then
    returnToICM
    return true
  else if c = '\n'.toUInt8 ∨ c = '\r'.toUInt8 then
    onConsole (writeVDUQ '\r'.toUInt8)
    if (← get).vdu.gAsScreenMode then
      enterScreenline allowReturnToICM
    else
      finishInput c allowReturnToICM
  else
    onConsole (writeVDUQ c)
    if (← get).vdu.gAsScreenMode then
      return true
    else
      finishInput c allowReturnToICM

/-! ## What an input keeps -/

/-- What an input is made of, but for a break, keeps `R`. -/
structure InputRules (R : Terminal σ → Terminal σ → Prop) : Prop where
  writeCPUQ : ∀ c, Keeps R (onConsole (NeoMmu.writeCPUQ c))
  writeVDUQ : ∀ c, Keeps R (onConsole (NeoMmu.writeVDUQ c))
  restoreCursor : Keeps R (onVdu vduRestoreCursor)
  returnToICM : Keeps R NeoMmu.returnToICM

namespace InputRules

variable {R : Terminal σ → Terminal σ → Prop} [Std.Refl R] [IsTrans (Terminal σ) R] (rules : InputRules R)

include rules

theorem writeScreenline (line : List UInt8) : Keeps R (writeScreenline line) := by
  induction line with
  | nil => exact Keeps.pure _
  | cons c line ih =>
    refine Keeps.ite (fun _ => Keeps.pure _) fun _ => (rules.writeCPUQ c).bind fun written => ?_
    exact Keeps.ite (fun _ => ih) fun _ => Keeps.pure _

theorem inputFailed (allowReturnToICM : Bool) : Keeps R (inputFailed allowReturnToICM) :=
  Keeps.ite (fun _ => rules.returnToICM.bind fun _ => Keeps.pure _) fun _ =>
    (Keeps.pure _).bind fun _ => Keeps.pure _

theorem finishInput (c : UInt8) (allowReturnToICM : Bool) : Keeps R (finishInput c allowReturnToICM) :=
  (rules.writeCPUQ c).bind fun _ =>
    Keeps.ite (fun _ => Keeps.pure _) fun _ => rules.inputFailed allowReturnToICM

theorem enterScreenline (allowReturnToICM : Bool) : Keeps R (enterScreenline allowReturnToICM) := by
  refine Keeps.get.bind fun t => rules.restoreCursor.bind fun _ => ?_
  refine (rules.writeScreenline _).bind fun written => ?_
  exact Keeps.ite (fun _ => rules.finishInput _ _) fun _ => rules.inputFailed _

/-- The byte `$03` is for the caller to judge. -/
theorem monitorConsoleInput {c : UInt8} (hbreak : c = 0x03 → Keeps R (onConsole requestConsoleBreakIRQ))
    (allowReturnToICM : Bool) : Keeps R (monitorConsoleInput c allowReturnToICM) := by
  refine Keeps.ite (fun h => (hbreak h).bind fun _ => Keeps.pure _) fun _ => Keeps.ite (fun _ => ?_) fun _ => ?_
  · exact rules.returnToICM.bind fun _ => Keeps.pure _
  refine Keeps.ite (fun _ => (rules.writeVDUQ _).bind fun _ => Keeps.get.bind fun _ => ?_) fun _ =>
    (rules.writeVDUQ _).bind fun _ => Keeps.get.bind fun _ => ?_
  · exact Keeps.ite (fun _ => rules.enterScreenline _) fun _ => rules.finishInput _ _
  · exact Keeps.ite (fun _ => Keeps.pure _) fun _ => rules.finishInput _ _

end InputRules

/-! ## Breaks -/

/-- The request for a break is left as it was. -/
abbrev SameBreak : Terminal σ → Terminal σ → Prop :=
  Order.Preimage (·.firmware.gConsoleBreakPending) (· = ·)

theorem inputRules_sameBreak : InputRules (SameBreak (σ := σ)) where
  writeCPUQ c := by
    intro t
    obtain ⟨q, hq⟩ := final_writeCPUQ c t.firmware
    show _ = ((writeCPUQ c).final t.firmware).gConsoleBreakPending
    rw [hq]
  writeVDUQ c := by
    intro t
    show _ = ((writeVDUQ c).final t.firmware).gConsoleBreakPending
    rw [writeVDUQ, final_modify]
    split
    · rfl
    · rfl
  restoreCursor _ := rfl
  returnToICM _ := rfl

/-- A byte other than `$03` requests no break. -/
theorem sameBreak_monitorConsoleInput {c : UInt8} (hc : c ≠ 0x03) (allowReturnToICM : Bool) :
    Keeps (SameBreak (σ := σ)) (monitorConsoleInput c allowReturnToICM) :=
  inputRules_sameBreak.monitorConsoleInput (fun h => absurd h hc) allowReturnToICM

end NeoMmu
