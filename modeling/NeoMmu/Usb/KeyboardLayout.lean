import NeoMmu.Foundation.Bytes

/-!
# Keyboard layouts

The two layouts built into `usb_keyboard_layout.cpp`, and the translation of a boot-keyboard usage and its
modifiers into a console character. A table installed from outside is not modelled.
-/

namespace NeoMmu

/-- `USB_KEYBOARD_LAYOUT_KEY_COUNT` -/
abbrev USB_KEYBOARD_LAYOUT_KEY_COUNT : Nat := 128

/-- `USBKeyboardLayoutTable`, but for its name and flags. -/
structure USBKeyboardLayoutTable where
  normal : Vector UInt8 USB_KEYBOARD_LAYOUT_KEY_COUNT
  shifted : Vector UInt8 USB_KEYBOARD_LAYOUT_KEY_COUNT
  ctrl : Vector UInt8 USB_KEYBOARD_LAYOUT_KEY_COUNT

/-- `g_usLayout` -/
def usLayout : USBKeyboardLayoutTable where
  normal := #v[
    0x00, 0x00, 0x00, 0x00, 0x61, 0x62, 0x63, 0x64, 0x65, 0x66, 0x67, 0x68, 0x69, 0x6A, 0x6B, 0x6C,
    0x6D, 0x6E, 0x6F, 0x70, 0x71, 0x72, 0x73, 0x74, 0x75, 0x76, 0x77, 0x78, 0x79, 0x7A, 0x31, 0x32,
    0x33, 0x34, 0x35, 0x36, 0x37, 0x38, 0x39, 0x30, 0x0D, 0x1B, 0x08, 0x09, 0x20, 0x2D, 0x3D, 0x5B,
    0x5D, 0x5C, 0x00, 0x3B, 0x27, 0x60, 0x2C, 0x2E, 0x2F, 0x00, 0x00, 0x00, 0x00, 0x00, 0x00, 0x00,
    0x00, 0x00, 0x00, 0x00, 0x00, 0x00, 0x00, 0x00, 0x00, 0x00, 0x00, 0x00, 0x00, 0x00, 0x00, 0x00,
    0x00, 0x00, 0x00, 0x00, 0x00, 0x00, 0x00, 0x00, 0x00, 0x00, 0x00, 0x00, 0x00, 0x00, 0x00, 0x00,
    0x00, 0x00, 0x00, 0x00, 0x00, 0x00, 0x00, 0x00, 0x00, 0x00, 0x00, 0x00, 0x00, 0x00, 0x00, 0x00,
    0x00, 0x00, 0x00, 0x00, 0x00, 0x00, 0x00, 0x00, 0x00, 0x00, 0x00, 0x00, 0x00, 0x00, 0x00, 0x00]
  shifted := #v[
    0x00, 0x00, 0x00, 0x00, 0x41, 0x42, 0x43, 0x44, 0x45, 0x46, 0x47, 0x48, 0x49, 0x4A, 0x4B, 0x4C,
    0x4D, 0x4E, 0x4F, 0x50, 0x51, 0x52, 0x53, 0x54, 0x55, 0x56, 0x57, 0x58, 0x59, 0x5A, 0x21, 0x40,
    0x23, 0x24, 0x25, 0x5E, 0x26, 0x2A, 0x28, 0x29, 0x0D, 0x1B, 0x08, 0x09, 0x20, 0x5F, 0x2B, 0x7B,
    0x7D, 0x7C, 0x00, 0x3A, 0x22, 0x7E, 0x3C, 0x3E, 0x3F, 0x00, 0x00, 0x00, 0x00, 0x00, 0x00, 0x00,
    0x00, 0x00, 0x00, 0x00, 0x00, 0x00, 0x00, 0x00, 0x00, 0x00, 0x00, 0x00, 0x00, 0x00, 0x00, 0x00,
    0x00, 0x00, 0x00, 0x00, 0x00, 0x00, 0x00, 0x00, 0x00, 0x00, 0x00, 0x00, 0x00, 0x00, 0x00, 0x00,
    0x00, 0x00, 0x00, 0x00, 0x00, 0x00, 0x00, 0x00, 0x00, 0x00, 0x00, 0x00, 0x00, 0x00, 0x00, 0x00,
    0x00, 0x00, 0x00, 0x00, 0x00, 0x00, 0x00, 0x00, 0x00, 0x00, 0x00, 0x00, 0x00, 0x00, 0x00, 0x00]
  ctrl := #v[
    0x00, 0x00, 0x00, 0x00, 0x01, 0x02, 0x03, 0x04, 0x05, 0x06, 0x07, 0x08, 0x09, 0x0A, 0x0B, 0x0C,
    0x0D, 0x0E, 0x0F, 0x10, 0x11, 0x12, 0x13, 0x14, 0x15, 0x16, 0x17, 0x18, 0x19, 0x1A, 0x00, 0x00,
    0x00, 0x00, 0x00, 0x1E, 0x00, 0x00, 0x00, 0x00, 0x0D, 0x1B, 0x08, 0x09, 0x00, 0x1F, 0x00, 0x1B,
    0x1D, 0x1C, 0x00, 0x00, 0x00, 0x00, 0x00, 0x00, 0x00, 0x00, 0x00, 0x00, 0x00, 0x00, 0x00, 0x00,
    0x00, 0x00, 0x00, 0x00, 0x00, 0x00, 0x00, 0x00, 0x00, 0x00, 0x00, 0x00, 0x00, 0x00, 0x00, 0x00,
    0x00, 0x00, 0x00, 0x00, 0x00, 0x00, 0x00, 0x00, 0x00, 0x00, 0x00, 0x00, 0x00, 0x00, 0x00, 0x00,
    0x00, 0x00, 0x00, 0x00, 0x00, 0x00, 0x00, 0x00, 0x00, 0x00, 0x00, 0x00, 0x00, 0x00, 0x00, 0x00,
    0x00, 0x00, 0x00, 0x00, 0x00, 0x00, 0x00, 0x00, 0x00, 0x00, 0x00, 0x00, 0x00, 0x00, 0x00, 0x00]

/-- `g_deLayout` -/
def deLayout : USBKeyboardLayoutTable where
  normal := #v[
    0x00, 0x00, 0x00, 0x00, 0x61, 0x62, 0x63, 0x64, 0x65, 0x66, 0x67, 0x68, 0x69, 0x6A, 0x6B, 0x6C,
    0x6D, 0x6E, 0x6F, 0x70, 0x71, 0x72, 0x73, 0x74, 0x75, 0x76, 0x77, 0x78, 0x7A, 0x79, 0x31, 0x32,
    0x33, 0x34, 0x35, 0x36, 0x37, 0x38, 0x39, 0x30, 0x0D, 0x1B, 0x08, 0x09, 0x20, 0x00, 0x00, 0x00,
    0x2B, 0x23, 0x23, 0x00, 0x00, 0x5E, 0x2C, 0x2E, 0x2D, 0x00, 0x00, 0x00, 0x00, 0x00, 0x00, 0x00,
    0x00, 0x00, 0x00, 0x00, 0x00, 0x00, 0x00, 0x00, 0x00, 0x00, 0x00, 0x00, 0x00, 0x00, 0x00, 0x00,
    0x00, 0x00, 0x00, 0x00, 0x00, 0x00, 0x00, 0x00, 0x00, 0x00, 0x00, 0x00, 0x00, 0x00, 0x00, 0x00,
    0x00, 0x00, 0x00, 0x00, 0x3C, 0x00, 0x00, 0x00, 0x00, 0x00, 0x00, 0x00, 0x00, 0x00, 0x00, 0x00,
    0x00, 0x00, 0x00, 0x00, 0x00, 0x00, 0x00, 0x00, 0x00, 0x00, 0x00, 0x00, 0x00, 0x00, 0x00, 0x00]
  shifted := #v[
    0x00, 0x00, 0x00, 0x00, 0x41, 0x42, 0x43, 0x44, 0x45, 0x46, 0x47, 0x48, 0x49, 0x4A, 0x4B, 0x4C,
    0x4D, 0x4E, 0x4F, 0x50, 0x51, 0x52, 0x53, 0x54, 0x55, 0x56, 0x57, 0x58, 0x5A, 0x59, 0x21, 0x22,
    0x00, 0x24, 0x25, 0x26, 0x2F, 0x28, 0x29, 0x3D, 0x0D, 0x1B, 0x08, 0x09, 0x20, 0x3F, 0x00, 0x00,
    0x2A, 0x27, 0x27, 0x00, 0x00, 0x00, 0x3B, 0x3A, 0x5F, 0x00, 0x00, 0x00, 0x00, 0x00, 0x00, 0x00,
    0x00, 0x00, 0x00, 0x00, 0x00, 0x00, 0x00, 0x00, 0x00, 0x00, 0x00, 0x00, 0x00, 0x00, 0x00, 0x00,
    0x00, 0x00, 0x00, 0x00, 0x00, 0x00, 0x00, 0x00, 0x00, 0x00, 0x00, 0x00, 0x00, 0x00, 0x00, 0x00,
    0x00, 0x00, 0x00, 0x00, 0x3E, 0x00, 0x00, 0x00, 0x00, 0x00, 0x00, 0x00, 0x00, 0x00, 0x00, 0x00,
    0x00, 0x00, 0x00, 0x00, 0x00, 0x00, 0x00, 0x00, 0x00, 0x00, 0x00, 0x00, 0x00, 0x00, 0x00, 0x00]
  ctrl := #v[
    0x00, 0x00, 0x00, 0x00, 0x01, 0x02, 0x03, 0x04, 0x05, 0x06, 0x07, 0x08, 0x09, 0x0A, 0x0B, 0x0C,
    0x0D, 0x0E, 0x0F, 0x10, 0x11, 0x12, 0x13, 0x14, 0x15, 0x16, 0x17, 0x18, 0x1A, 0x19, 0x00, 0x00,
    0x00, 0x00, 0x00, 0x1E, 0x00, 0x00, 0x00, 0x00, 0x0D, 0x1B, 0x08, 0x09, 0x00, 0x1F, 0x00, 0x1B,
    0x1D, 0x1C, 0x00, 0x00, 0x00, 0x00, 0x00, 0x00, 0x00, 0x00, 0x00, 0x00, 0x00, 0x00, 0x00, 0x00,
    0x00, 0x00, 0x00, 0x00, 0x00, 0x00, 0x00, 0x00, 0x00, 0x00, 0x00, 0x00, 0x00, 0x00, 0x00, 0x00,
    0x00, 0x00, 0x00, 0x00, 0x00, 0x00, 0x00, 0x00, 0x00, 0x00, 0x00, 0x00, 0x00, 0x00, 0x00, 0x00,
    0x00, 0x00, 0x00, 0x00, 0x00, 0x00, 0x00, 0x00, 0x00, 0x00, 0x00, 0x00, 0x00, 0x00, 0x00, 0x00,
    0x00, 0x00, 0x00, 0x00, 0x00, 0x00, 0x00, 0x00, 0x00, 0x00, 0x00, 0x00, 0x00, 0x00, 0x00, 0x00]

/-- `USBKeyboardLocale`, the built-in ones. -/
inductive USBKeyboardLocale
  | USB_KEYBOARD_LOCALE_US
  | USB_KEYBOARD_LOCALE_DE
  deriving DecidableEq, Repr

/-- `usb_keyboard_builtin_layout_for_locale()` -/
def USBKeyboardLocale.layout : USBKeyboardLocale → USBKeyboardLayoutTable
  | .USB_KEYBOARD_LOCALE_US => usLayout
  | .USB_KEYBOARD_LOCALE_DE => deLayout

/-- `usb_keyboard_shift_active()` -/
def usbKeyboardShiftActive (modifier : UInt8) : Bool := modifier &&& 0x22 ≠ 0

/-- `usb_keyboard_ctrl_active()` -/
def usbKeyboardCtrlActive (modifier : UInt8) : Bool := modifier &&& 0x11 ≠ 0

/-- `usb_keyboard_keycode_to_ascii_locale()` -/
def usbKeyboardKeycodeToAscii (locale : USBKeyboardLocale) (keycode modifier : UInt8) : UInt8 :=
  if h : keycode.toNat < USB_KEYBOARD_LAYOUT_KEY_COUNT then
    if keycode = 0x29 ∧ usbKeyboardShiftActive modifier then 0x7E
    else if usbKeyboardCtrlActive modifier then locale.layout.ctrl[keycode.toNat]
    else if usbKeyboardShiftActive modifier then locale.layout.shifted[keycode.toNat]
    else locale.layout.normal[keycode.toNat]
  else 0

/-- The control character of a break is under one key alone. -/
theorem layout_break (locale : USBKeyboardLocale) (i : Fin USB_KEYBOARD_LAYOUT_KEY_COUNT) :
    locale.layout.normal[i] ≠ 3 ∧ locale.layout.shifted[i] ≠ 3 ∧ (locale.layout.ctrl[i] = 3 ↔ i = 6) := by
  revert i
  cases locale with
  | USB_KEYBOARD_LOCALE_US => decide +kernel
  | USB_KEYBOARD_LOCALE_DE => decide +kernel

/-- In every built-in layout `$03` is the C key with Ctrl. -/
theorem usbKeyboardKeycodeToAscii_eq_break (locale : USBKeyboardLocale) (keycode modifier : UInt8) :
    usbKeyboardKeycodeToAscii locale keycode modifier = 3 ↔
      keycode = 0x06 ∧ usbKeyboardCtrlActive modifier = true := by
  unfold usbKeyboardKeycodeToAscii
  by_cases h : keycode.toNat < USB_KEYBOARD_LAYOUT_KEY_COUNT
  swap
  · rw [dif_neg h]
    refine iff_of_false (by decide) fun hkey => h ?_
    rw [hkey.1]
    decide
  obtain ⟨hnormal, hshifted, hctrl⟩ := layout_break locale ⟨keycode.toNat, h⟩
  have hkey : (⟨keycode.toNat, h⟩ : Fin USB_KEYBOARD_LAYOUT_KEY_COUNT) = 6 ↔ keycode = 0x06 := by
    rw [← UInt8.toNat_inj, Fin.ext_iff]
    rfl
  rw [dif_pos h]
  by_cases hesc : keycode = 0x29 ∧ usbKeyboardShiftActive modifier = true
  · rw [if_pos hesc, hesc.1]
    exact iff_of_false (by decide) fun hkey => absurd hkey.1 (by decide)
  rw [if_neg hesc]
  by_cases hc : usbKeyboardCtrlActive modifier = true
  · rw [if_pos hc, and_iff_left hc, ← hkey]
    exact hctrl
  · rw [if_neg hc]
    refine iff_of_false ?_ fun hkey => hc hkey.2
    split
    · exact hshifted
    · exact hnormal

end NeoMmu
