import NeoMmu.Hardware.MmuTable
import NeoMmu.Foundation.Tokens
import NeoMmu.Foundation.Hex
import NeoMmu.Fs.Path
import NeoMmu.Fs.PathSemantics
import NeoMmu.Fs.WorkingDir
import NeoMmu.Usb.Slots
import NeoMmu.Usb.Transfer
import NeoMmu.Memory.Config
import NeoMmu.Memory.Parse
import NeoMmu.Foundation.PageAlloc
import NeoMmu.Memory.Configure
import NeoMmu.Memory.Allocation
import NeoMmu.Memory.Validation
import NeoMmu.Memory.Sharing
import NeoMmu.Memory.Capacity
import NeoMmu.Foundation.Fifo
import NeoMmu.Foundation.MaskedFifo
import NeoMmu.Foundation.Traced
import NeoMmu.Foundation.Monitor
import NeoMmu.Hardware.System
import NeoMmu.Hardware.Snoop
import NeoMmu.Fs.Storage
import NeoMmu.Fs.DrivePath
import NeoMmu.Fs.Files
import NeoMmu.Fs.ByteStore
import NeoMmu.Fs.Directories
import NeoMmu.Fs.Listing
import NeoMmu.Fs.Streams
import NeoMmu.Mailbox.Firmware
import NeoMmu.Mailbox.ContextAccess
import NeoMmu.Mailbox.FsMailbox
import NeoMmu.Mailbox.Completion
import NeoMmu.Mailbox.Bulk
import NeoMmu.Mailbox.Rejection
import NeoMmu.Mailbox.RequestFrame
import NeoMmu.Mailbox.BulkBytes
import NeoMmu.Mailbox.Footprint
import NeoMmu.Mailbox.Scheduler
import NeoMmu.Mailbox.Console
import NeoMmu.Mailbox.ConsoleInput
import NeoMmu.Mailbox.Reset
import NeoMmu.Foundation.Chunks
import NeoMmu.Foundation.Cursor
import NeoMmu.Mailbox.ConsoleWrite
import NeoMmu.Mailbox.Handshake
import NeoMmu.Usb.Lifecycle
import NeoMmu.Usb.HidDescriptor
import NeoMmu.Mailbox.StorageRuns
import NeoMmu.Usb.Handles
import NeoMmu.Mailbox.Handles
import NeoMmu.Mailbox.HandleTables
import NeoMmu.Mailbox.HandleLeaks
import NeoMmu.Mailbox.Rmdir
import NeoMmu.Mailbox.Streams
import NeoMmu.Mailbox.Seek
import NeoMmu.Mailbox.FileCursor
import NeoMmu.Mailbox.DirListing
import NeoMmu.Mailbox.RoundTrip
import NeoMmu.Hardware.InitMmu
import NeoMmu.Hardware.Settling
import NeoMmu.Hardware.Pins
import NeoMmu.Hardware.BusTakeover
import NeoMmu.Boot.Rom
import NeoMmu.Boot.RomLoad
import NeoMmu.Boot.SystemConfig
import NeoMmu.Boot.SystemIni
import NeoMmu.Boot.SystemLoads
import NeoMmu.Boot.SystemHeaders
import NeoMmu.Boot.Menu
import NeoMmu.Boot.ActiveModel
import NeoMmu.Mailbox.Monitor
import NeoMmu.Monitor.Disassembler
import NeoMmu.Monitor.Listing
import NeoMmu.Monitor.Reassembly
import NeoMmu.Monitor.MemoryCommands
import NeoMmu.Monitor.Ls
import NeoMmu.Mailbox.Calls
import NeoMmu.Mailbox.Transparency
import NeoMmu.Mailbox.Loop
import NeoMmu.Mailbox.ContextSwitch
import NeoMmu.Mailbox.IrqSlot
import NeoMmu.Mailbox.IrqRequests
import NeoMmu.Mailbox.IrqTimer
import NeoMmu.Mailbox.MonitorInput
import NeoMmu.Mailbox.CommandLine
import NeoMmu.Usb.KeyboardLayout
import NeoMmu.Usb.HidInput
import NeoMmu.Usb.AutoRepeat
import NeoMmu.Usb.HidHandoff
import NeoMmu.Mailbox.BootContext
import NeoMmu.Mailbox.ConsoleReady
import NeoMmu.Memory.ParserRules
import NeoMmu.Memory.Lines
import NeoMmu.Memory.Comments
import NeoMmu.Memory.Regions
import NeoMmu.Memory.Completeness
import NeoMmu.Memory.RegionNames
import NeoMmu.Memory.Isolation
import NeoMmu.Mailbox.PrivateMemory
import NeoMmu.Vdu.Display
import NeoMmu.Vdu.Text
import NeoMmu.Vdu.Bounds
import NeoMmu.Vdu.Scrolling
import NeoMmu.Vdu.Printable
import NeoMmu.Foundation.Page
import NeoMmu.Foundation.Log
import NeoMmu.Memory.Writing
import NeoMmu.Vdu.Editing
import NeoMmu.Vdu.Terminal
import NeoMmu.Vdu.Pointer
import NeoMmu.Mailbox.PathFetch
import NeoMmu.Mailbox.ScreenLine
import NeoMmu.Mailbox.InputLedger
import NeoMmu.Mailbox.InputOnce
