import NeoMmu.Mailbox.MonitorInput
import NeoMmu.Usb.KeyboardLayout

/-!
# USB keyboard and mouse

The input layer of `usb_hid_input.cpp`: the records of mounted interfaces, one keyboard and one mouse selected among
them, the buffers in which the callbacks of TinyUSB hand reports to the main loop, key repeat, and
`taskUSBHIDInput()`. The USB host task runs in the main loop too, so a callback comes between two calls of the task
and never inside one. The programs note the events that laws are about: reports on their way, and requests for a
console break with what caused them.
-/

namespace NeoMmu

open Prog

/-! ## Data -/

/-- `USB_HID_MAX_RECORDS` -/
abbrev USB_HID_MAX_RECORDS : Nat := 12

/-- `USB_KEYBOARD_MAX_KEYS` -/
abbrev USB_KEYBOARD_MAX_KEYS : Nat := 6

/-- `USB_HID_ARM_DELAY_MS` -/
def USB_HID_ARM_DELAY_MS : UInt32 := 1500

/-- `USB_HID_REARM_DELAY_MS` -/
def USB_HID_REARM_DELAY_MS : UInt32 := 20

/-- `USB_KEY_REPEAT_DELAY_MS` -/
def USB_KEY_REPEAT_DELAY_MS : UInt32 := 500

/-- `USB_KEY_REPEAT_INTERVAL_MS` -/
def USB_KEY_REPEAT_INTERVAL_MS : UInt32 := 50

/-- `NEOX_CONSOLE_BREAK_KEYCODE` -/
def NEOX_CONSOLE_BREAK_KEYCODE : UInt8 := 0x06

/-- `NEOX_CONSOLE_BREAK_MODIFIER_ANY_MASK` -/
def NEOX_CONSOLE_BREAK_MODIFIER_ANY_MASK : UInt8 := 0x11

/-- `NEOX_CONSOLE_BREAK_MODIFIER_ALL_MASK` -/
def NEOX_CONSOLE_BREAK_MODIFIER_ALL_MASK : UInt8 := 0x00

/-- `RP_CONSOLE_PID` -/
def RP_CONSOLE_PID : UInt16 := 0xB011

/-- A device address and the instance of an interface. -/
structure HidInterface where
  dev_addr : UInt8
  inst : UInt8
  deriving DecidableEq, Repr

/-- `USBHIDRole` -/
inductive USBHIDRole
  | USB_HID_ROLE_UNKNOWN
  | USB_HID_ROLE_KEYBOARD
  | USB_HID_ROLE_MOUSE
  | USB_HID_ROLE_GENERIC
  deriving DecidableEq, Repr

/-- `USBHIDMountRecord`, but for the length of the descriptor. -/
structure USBHIDMountRecord where
  interface : HidInterface
  role : USBHIDRole
  mounted : Bool
  deriving DecidableEq, Repr

/-- `hid_keyboard_report_t` -/
structure KeyboardReport where
  modifier : UInt8
  reserved : UInt8
  keycode : Fin USB_KEYBOARD_MAX_KEYS → UInt8

/-- The report in some bytes; bytes that are missing are zero. -/
def KeyboardReport.ofBytes (bytes : List UInt8) : KeyboardReport :=
  ⟨bytes.getD 0 0, bytes.getD 1 0, fun i => bytes.getD (2 + i) 0⟩

/-- `USBMouseBootReport` -/
structure USBMouseBootReport where
  buttons : UInt8
  x : Int8
  y : Int8
  wheel : Int8
  pan : Int8
  deriving DecidableEq

/-- The report in some bytes; bytes that are missing are zero. -/
def USBMouseBootReport.ofBytes (bytes : List UInt8) : USBMouseBootReport :=
  ⟨bytes.getD 0 0, (bytes.getD 1 0).toInt8, (bytes.getD 2 0).toInt8, (bytes.getD 3 0).toInt8,
    (bytes.getD 4 0).toInt8⟩

/-- The two kinds of device, each with statics of its own. -/
inductive HidKind
  | keyboard
  | mouse
  deriving DecidableEq, Repr

/-- The role an interface is selected for. -/
def HidKind.role : HidKind → USBHIDRole
  | .keyboard => .USB_HID_ROLE_KEYBOARD
  | .mouse => .USB_HID_ROLE_MOUSE

/-- The size of a report. -/
def HidKind.reportSize : HidKind → Nat
  | .keyboard => 8
  | .mouse => 5

/-- The statics of one kind, such as `g_keyboardSelected` and `g_mouseSelected`. -/
structure HidPort where
  selected : Bool
  interface : HidInterface
  reportActive : Bool
  reportPending : Bool
  removedNoticePending : Bool
  /-- `g_pendingKeyboardReport` and `g_pendingMouseReport`, from the bytes that came. -/
  pendingReport : List UInt8
  lastArmAttemptMs : UInt32
  deriving DecidableEq, Repr

/-- `g_keyRepeatActive` and the statics beside it. -/
structure KeyRepeat where
  active : Bool
  keycode : UInt8
  modifier : UInt8
  ascii : UInt8
  nextMs : UInt32
  deriving DecidableEq, Repr

/-- No key repeats. -/
def KeyRepeat.cleared : KeyRepeat := ⟨false, 0, 0, 0, 0⟩

/-- The statics of `usb_hid_input.cpp`. -/
structure UsbHid where
  g_hidRecords : Fin USB_HID_MAX_RECORDS → USBHIDMountRecord
  ports : HidKind → HidPort
  g_lastKeyboardReport : KeyboardReport
  g_lastMouseReport : USBMouseBootReport
  keyRepeat : KeyRepeat
  g_hidArmDelayStarted : Bool
  g_hidArmDelayStartMs : UInt32

/-- The statics as the firmware starts. -/
def UsbHid.powerUp : UsbHid where
  g_hidRecords _ := ⟨⟨0, 0⟩, .USB_HID_ROLE_UNKNOWN, false⟩
  ports _ := ⟨false, ⟨0, 0⟩, false, false, false, [], 0⟩
  g_lastKeyboardReport := .ofBytes []
  g_lastMouseReport := .ofBytes []
  keyRepeat := .cleared
  g_hidArmDelayStarted := false
  g_hidArmDelayStartMs := 0

/-- The input layer over the terminal it feeds, with what TinyUSB and the clock know. -/
structure HidSystem (σ : Type) where
  hid : UsbHid
  terminal : Terminal σ
  /-- A report has been asked for and has not come. -/
  inFlight : HidInterface → Bool
  /-- What the clock will say. -/
  millis : Nat → UInt32
  /-- Whether TinyUSB will find an interface ready. -/
  ready : Nat → Bool

/-- What made the firmware request a console break. -/
inductive BreakCause
  /-- A key of a report, with the report before it. -/
  | key (keycode : UInt8) (report last : KeyboardReport)
  | repeatTick

/-- What the laws are about. -/
inductive HidEvent
  | breakRequested (cause : BreakCause)
  /-- `tuh_hid_receive_report()` succeeded. -/
  | requested (kind : HidKind) (interface : HidInterface)
  /-- A callback filled a handoff buffer. -/
  | accepted (kind : HidKind) (interface : HidInterface) (report : List UInt8)
  /-- The main loop took a report out of a handoff buffer. -/
  | processed (kind : HidKind) (report : List UInt8)
  | removed (interface : HidInterface)

variable {σ α : Type}

/-- The system as the firmware starts: no report has been asked for. -/
def HidSystem.powerUp (terminal : Terminal σ) (millis : Nat → UInt32) (ready : Nat → Bool) : HidSystem σ :=
  ⟨.powerUp, terminal, fun _ => false, millis, ready⟩

/-- Programs of the input layer. -/
abbrev HidProg (σ : Type) := Prog (Traced (HidSystem σ) HidEvent)

/-- Change the statics. -/
def updateHid (g : UsbHid → UsbHid) : HidProg σ Unit := update fun s => { s with hid := g s.hid }

/-- Change the statics of one kind. -/
def updatePort (kind : HidKind) (g : HidPort → HidPort) : HidProg σ Unit :=
  updateHid fun h => { h with ports := Function.update h.ports kind (g (h.ports kind)) }

/-- A program of the terminal. -/
def onTerminal (p : Prog (Terminal σ) α) : HidProg σ α :=
  p.on (·.now.terminal) fun t x => t.put { t.now with terminal := x }

/-- `millis()` -/
def readMillis : HidProg σ UInt32 := do
  let s ← now
  update fun s => { s with millis := fun n => s.millis (n + 1) }
  return s.millis 0

/-- `tuh_hid_receive_report()`: an endpoint that is busy takes no second request, and of one that is not TinyUSB
knows whether it is ready. -/
def tuhHidReceiveReport (interface : HidInterface) : HidProg σ Bool := do
  let s ← now
  update fun s => { s with ready := fun n => s.ready (n + 1) }
  if s.ready 0 ∧ s.inFlight interface = false then
    update fun s => { s with inFlight := Function.update s.inFlight interface true }
    return true
  else
    return false

/-- `setConsolePID()`; the copy the firmware keeps is printed only. -/
def setConsolePID (vPID : UInt8) : HidProg σ Unit :=
  onTerminal (onConsole (onHw (snoopWrite6502MemoryLoc RP_CONSOLE_PID vPID)))

/-! ## Keyboard -/

/-- `usb_keyboard_key_is_down()` -/
def KeyboardReport.keyIsDown (report : KeyboardReport) (keycode : UInt8) : Bool :=
  ∃ i, report.keycode i = keycode

/-- `usb_keyboard_is_route_key()` -/
def usbKeyboardIsRouteKey (keycode : UInt8) : Bool := 0x3A ≤ keycode && keycode ≤ 0x45

/-- `usb_keyboard_is_console_break()` -/
def usbKeyboardIsConsoleBreak (keycode modifier : UInt8) : Bool :=
  if keycode ≠ NEOX_CONSOLE_BREAK_KEYCODE then false
  else
    let any_mask := NEOX_CONSOLE_BREAK_MODIFIER_ANY_MASK
    if any_mask ≠ 0 ∧ modifier &&& any_mask = 0 then false
    else
      let all_mask := NEOX_CONSOLE_BREAK_MODIFIER_ALL_MASK
      if all_mask ≠ 0 ∧ modifier &&& all_mask ≠ all_mask then false else true

/-- `usb_keyboard_repeat_clear()` -/
def usbKeyboardRepeatClear : HidProg σ Unit := updateHid fun h => { h with keyRepeat := .cleared }

/-- `usb_keyboard_repeat_start()` -/
def usbKeyboardRepeatStart (keycode modifier ascii : UInt8) : HidProg σ Unit := do
  if ascii = 0 then
    usbKeyboardRepeatClear
  else
    let nextMs := (← readMillis) + USB_KEY_REPEAT_DELAY_MS
    updateHid fun h => { h with keyRepeat := ⟨true, keycode, modifier, ascii, nextMs⟩ }

/-- `requestConsoleBreakIRQ()`, with its cause. -/
def requestBreak (cause : BreakCause) : HidProg σ Unit := do
  event (.breakRequested cause)
  onTerminal (onConsole requestConsoleBreakIRQ)

/-- `monitorConsoleInput()` without return to the command line; the byte `$03` requests a break. -/
def consoleInput (cause : BreakCause) (c : UInt8) : HidProg σ Unit := do
  when (c = 0x03) (event (.breakRequested cause))
  discard <| onTerminal (monitorConsoleInput c false)

/-- `usb_keyboard_handle_console_break()` -/
def usbKeyboardHandleConsoleBreak (cause : BreakCause) (keycode modifier : UInt8) : HidProg σ Bool := do
  if usbKeyboardIsConsoleBreak keycode modifier = false then
    return false
  else
    usbKeyboardRepeatClear
    requestBreak cause
    return true

/-- `usb_keyboard_handle_route_key_down()` -/
def usbKeyboardHandleRouteKeyDown (keycode : UInt8) : HidProg σ Bool := do
  if usbKeyboardIsRouteKey keycode = false then
    return false
  else
    usbKeyboardRepeatClear
    if keycode ≤ 0x42 then
      setConsolePID (keycode - 0x3A + 1)
    else if keycode = 0x43 then
      setConsolePID 0
    return true

/-- `usb_keyboard_repeat_update_from_report()` -/
def usbKeyboardRepeatUpdateFromReport (locale : USBKeyboardLocale) (report : KeyboardReport) :
    HidProg σ Unit := do
  let r := (← now).hid.keyRepeat
  if r.active = false then
    return
  else if report.keyIsDown r.keycode = false then
    usbKeyboardRepeatClear
  else if report.modifier ≠ r.modifier then
    let c := usbKeyboardKeycodeToAscii locale r.keycode report.modifier
    if c = 0 then
      usbKeyboardRepeatClear
    else
      updateHid fun h => { h with keyRepeat := { h.keyRepeat with modifier := report.modifier, ascii := c } }

/-- `usb_keyboard_repeat_task()` -/
def usbKeyboardRepeatTask : HidProg σ Unit := do
  let r := (← now).hid.keyRepeat
  if r.active = false ∨ r.ascii = 0 then
    return
  else
    let ms ← readMillis
    if (ms - r.nextMs).toInt32 < 0 then
      return
    else
      consoleInput .repeatTick r.ascii
      updateHid fun h => { h with keyRepeat := { h.keyRepeat with nextMs := ms + USB_KEY_REPEAT_INTERVAL_MS } }

/-- One key of `usb_keyboard_process_report()`. -/
def processKey (locale : USBKeyboardLocale) (report : KeyboardReport) (keycode : UInt8) : HidProg σ Unit := do
  let last := (← now).hid.g_lastKeyboardReport
  if keycode = 0 then
    return
  else if last.keyIsDown keycode then
    return
  else if ← usbKeyboardHandleConsoleBreak (.key keycode report last) keycode report.modifier then
    return
  else if ← usbKeyboardHandleRouteKeyDown keycode then
    return
  else
    let c := usbKeyboardKeycodeToAscii locale keycode report.modifier
    when (c ≠ 0) do
      consoleInput (.key keycode report last) c
      usbKeyboardRepeatStart keycode report.modifier c

/-- `usb_keyboard_process_report()` -/
def usbKeyboardProcessReport (locale : USBKeyboardLocale) (report : KeyboardReport) : HidProg σ Unit := do
  (List.finRange USB_KEYBOARD_MAX_KEYS).forM fun i => processKey locale report (report.keycode i)
  usbKeyboardRepeatUpdateFromReport locale report
  updateHid fun h => { h with g_lastKeyboardReport := report }

/-! ## Mouse -/

/-- `usb_mouse_process_report()` -/
def usbMouseProcessReport (report : USBMouseBootReport) : HidProg σ Unit := do
  let last := (← now).hid.g_lastMouseReport
  let movement := report.x ≠ 0 ∨ report.y ≠ 0 ∨ report.wheel ≠ 0 ∨ report.pan ≠ 0
  when (movement ∨ report.buttons ≠ last.buttons) do
    onTerminal (onVdu (vduMouseUpdate report.x report.y report.buttons))
  updateHid fun h => { h with g_lastMouseReport := report }

/-! ## Interfaces -/

/-- What a kind remembers of its device's reports is cleared. -/
def UsbHid.forget (h : UsbHid) : HidKind → UsbHid
  | .keyboard => { h with g_lastKeyboardReport := .ofBytes [], keyRepeat := .cleared }
  | .mouse => { h with g_lastMouseReport := .ofBytes [] }

/-- `usb_hid_find_record()` -/
def UsbHid.findRecord (h : UsbHid) (interface : HidInterface) : Option (Fin USB_HID_MAX_RECORDS) :=
  (List.finRange USB_HID_MAX_RECORDS).find? fun i =>
    (h.g_hidRecords i).mounted ∧ (h.g_hidRecords i).interface = interface

/-- `usb_hid_alloc_record()` -/
def UsbHid.allocRecord (h : UsbHid) : Option (Fin USB_HID_MAX_RECORDS) :=
  (List.finRange USB_HID_MAX_RECORDS).find? fun i => (h.g_hidRecords i).mounted = false

/-- The first mounted interface of a role. -/
def UsbHid.firstOfRole (h : UsbHid) (role : USBHIDRole) : Option (Fin USB_HID_MAX_RECORDS) :=
  (List.finRange USB_HID_MAX_RECORDS).find? fun i =>
    (h.g_hidRecords i).mounted ∧ (h.g_hidRecords i).role = role

/-- What selecting an interface for a kind does. -/
def usbHidSelect (kind : HidKind) : HidProg σ Bool := do
  let h := (← now).hid
  if (h.ports kind).selected then
    return true
  else
    match h.firstOfRole kind.role with
    | none => return false
    | some i =>
      updatePort kind fun p => { p with
        interface := (h.g_hidRecords i).interface
        selected := true
        pendingReport := [] }
      updateHid fun h => h.forget kind
      return true

/-- `usb_hid_select_keyboard()` -/
def usbHidSelectKeyboard : HidProg σ Bool := usbHidSelect .keyboard

/-- `usb_hid_select_mouse()` -/
def usbHidSelectMouse : HidProg σ Bool := usbHidSelect .mouse

/-- What a kind does with a report. -/
def processReport (locale : USBKeyboardLocale) (report : List UInt8) : HidKind → HidProg σ Unit
  | .keyboard => usbKeyboardProcessReport locale (.ofBytes report)
  | .mouse => usbMouseProcessReport (.ofBytes report)

/-- The part of `usb_hid_process_pending_reports()` for one kind. -/
def processPending (locale : USBKeyboardLocale) (kind : HidKind) : HidProg σ Unit := do
  let p := (← now).hid.ports kind
  when p.reportPending do
    event (.processed kind p.pendingReport)
    updatePort kind fun p => { p with reportPending := false }
    processReport locale p.pendingReport kind

/-- `usb_hid_process_pending_reports()` -/
def usbHidProcessPendingReports (locale : USBKeyboardLocale) : HidProg σ Unit := do
  processPending locale .keyboard
  processPending locale .mouse

/-- What asking for the next report of a kind does. -/
def usbHidArm (kind : HidKind) : HidProg σ Unit := do
  let p := (← now).hid.ports kind
  if p.selected = false ∨ p.reportActive ∨ p.reportPending then
    return
  else
    let ms ← readMillis
    if ms - p.lastArmAttemptMs < USB_HID_REARM_DELAY_MS then
      return
    else
      updatePort kind fun p => { p with lastArmAttemptMs := ms }
      if ← tuhHidReceiveReport p.interface then
        event (.requested kind p.interface)
        updatePort kind fun p => { p with reportActive := true }

/-- `usb_hid_arm_keyboard_report()` -/
def usbHidArmKeyboardReport : HidProg σ Unit := usbHidArm .keyboard

/-- `usb_hid_arm_mouse_report()` -/
def usbHidArmMouseReport : HidProg σ Unit := usbHidArm .mouse

/-- The part of `taskUSBHIDInput()` behind the delay. -/
def serveInterfaces (locale : USBKeyboardLocale) : HidProg σ Unit := do
  discard usbHidSelectKeyboard
  discard usbHidSelectMouse
  usbHidProcessPendingReports locale
  usbKeyboardRepeatTask
  usbHidArmKeyboardReport
  usbHidArmMouseReport

/-- `taskUSBHIDInput()` -/
def taskUSBHIDInput (locale : USBKeyboardLocale) : HidProg σ Unit := do
  let h := (← now).hid
  when (h.ports .keyboard).removedNoticePending do
    updatePort .keyboard fun p => { p with removedNoticePending := false }
    setConsolePID 0
  when (h.ports .mouse).removedNoticePending do
    updatePort .mouse fun p => { p with removedNoticePending := false }
  when (h.g_hidArmDelayStarted = false ∧ ∃ i, (h.g_hidRecords i).mounted = true) do
    let ms ← readMillis
    updateHid fun h => { h with g_hidArmDelayStarted := true, g_hidArmDelayStartMs := ms }
  let h := (← now).hid
  when h.g_hidArmDelayStarted do
    let ms ← readMillis
    when (¬ ms - h.g_hidArmDelayStartMs < USB_HID_ARM_DELAY_MS) do
      serveInterfaces locale

/-! ## Callbacks -/

/-- `tuh_hid_mount_cb()`, with the role the descriptor is classified as. -/
def tuhHidMountCb (interface : HidInterface) (role : USBHIDRole) : HidProg σ Unit := do
  let h := (← now).hid
  match (h.findRecord interface).or h.allocRecord with
  | none => return
  | some i =>
    updateHid fun h => { h with g_hidRecords := Function.update h.g_hidRecords i ⟨interface, role, true⟩ }

/-- What the removal of an interface does to a kind. -/
def removePort (kind : HidKind) (interface : HidInterface) : HidProg σ Unit := do
  let p := (← now).hid.ports kind
  when (p.selected ∧ interface = p.interface) do
    updatePort kind fun p => { p with
      selected := false
      reportActive := false
      reportPending := false
      removedNoticePending := true
      interface := ⟨0, 0⟩
      pendingReport := [] }
    updateHid fun h => h.forget kind

/-- `tuh_hid_umount_cb()` -/
def tuhHidUmountCb (interface : HidInterface) : HidProg σ Unit := do
  event (.removed interface)
  let h := (← now).hid
  match h.findRecord interface with
  | none => pure ()
  | some i =>
    updateHid fun h => { h with
      g_hidRecords := Function.update h.g_hidRecords i ⟨⟨0, 0⟩, .USB_HID_ROLE_UNKNOWN, false⟩ }
  removePort .keyboard interface
  removePort .mouse interface

/-- Whether a report is long enough to be taken: whole for a keyboard, not empty for a mouse. -/
def HidKind.takes : HidKind → List UInt8 → Bool
  | .keyboard, report => HidKind.keyboard.reportSize ≤ report.length
  | .mouse, report => 0 < report.length

/-- What a report does to the kind it is for. -/
def acceptReport (kind : HidKind) (report : List UInt8) : HidProg σ Unit := do
  let p := (← now).hid.ports kind
  updatePort kind fun p => { p with
    reportActive := false
    pendingReport := if kind = .mouse then [] else p.pendingReport }
  when (kind.takes report) do
    event (.accepted kind p.interface (report.take kind.reportSize))
    updatePort kind fun p => { p with
      pendingReport := report.take kind.reportSize
      reportPending := true }

/-- The kind a report of an interface is for: the keyboard is asked first. -/
def UsbHid.receiver (h : UsbHid) (interface : HidInterface) : Option HidKind :=
  [HidKind.keyboard, .mouse].find? fun kind =>
    (h.ports kind).selected ∧ interface = (h.ports kind).interface

/-- `tuh_hid_report_received_cb()` -/
def tuhHidReportReceivedCb (interface : HidInterface) (report : List UInt8) : HidProg σ Unit := do
  match (← now).hid.receiver interface with
  | none => return
  | some kind => acceptReport kind report

end NeoMmu
