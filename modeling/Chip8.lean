import Chip8.Instr.Form
import Chip8.Machine.Call
import Chip8.Main
import Chip8.Memory.Hexdump
import Chip8.Proofs.Faults
import Chip8.Proofs.Control
import Chip8.Proofs.Session
import Chip8.Proofs.Bounds
import Chip8.Proofs.Subroutine
import Chip8.Proofs.Lockstep
import Chip8.Proofs.AddressBus
import Chip8.Proofs.Footprint
import Chip8.Proofs.Drawing
import Chip8.Proofs.Timeline
import Chip8.Proofs.KeyWait
import Chip8.Proofs.FreshKey
import Chip8.Proofs.Arithmetic
import Chip8.Proofs.WaitPlace
import Chip8.Proofs.Reset
import Chip8.Proofs.EarlyEnd
import Chip8.Proofs.Format
import Chip8.Proofs.Disassembly
import Chip8.Proofs.Overlay
import Chip8.Proofs.Tracing
import Chip8.Proofs.Agreement
import Chip8.Proofs.RandomStream
import Chip8.Proofs.ListedProgram
import Chip8.Proofs.Stuck
import Chip8.Proofs.CycleCount
import Chip8.Proofs.KeyScript
import Chip8.Proofs.FrameCount
import Chip8.Proofs.HeldKey
import Chip8.Proofs.SelfJump
import Chip8.Proofs.HostInput
import Chip8.Proofs.Checked.Call
import Chip8.Proofs.TraceOfRun
import Chip8.Proofs.Sprites
import Chip8.Proofs.MemoryTransfer
import Chip8.Proofs.NextAddress
import Chip8.Proofs.SingleStep
import Chip8.Proofs.Loading
import Chip8.Proofs.HostClock
import Chip8.Proofs.LastSetting
import Chip8.Proofs.TextLines
import Chip8.Proofs.HexText
import Chip8.Proofs.DumpText
import Chip8.Proofs.ListingParts
import Chip8.Proofs.PictureText
import Chip8.Proofs.NumeralText
import Chip8.Proofs.PressText
import Chip8.Proofs.ScreenViews
import Chip8.Proofs.ListingRange
import Chip8.Proofs.WaitHolds
import Chip8.Proofs.LastGiven
