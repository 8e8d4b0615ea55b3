import Mathlib.Logic.Function.Basic

/-!
# USB storage slots

The table of attached mass storage devices of `usb_storage.cpp`.
-/

namespace NeoMmu

/-- `USB_STORAGE_MAX_DEVICES` -/
def USB_STORAGE_MAX_DEVICES : UInt8 := 4

/-- `USBStorageSlot`, as far as block transfers read it. -/
structure USBStorageSlot where
  present : Bool
  dev_addr : UInt8
  lun : UInt8
  block_count : UInt32
  block_size : UInt32
  deriving DecidableEq, Repr

end NeoMmu
