import DotMatrix.Main
import DotMatrix.Proofs.Video.Picture
import DotMatrix.Proofs.Video.Presentation
import DotMatrix.Proofs.Cpu.Reference
import DotMatrix.Proofs.Cpu.ReferenceStep
import DotMatrix.Proofs.Cpu.Step
import DotMatrix.Proofs.Machine.Step
import DotMatrix.Proofs.Machine.Course
import DotMatrix.Proofs.Machine.FrameStream
import DotMatrix.Proofs.Cpu.Bus
import DotMatrix.Proofs.Cpu.Footprint
import DotMatrix.Proofs.Cpu.Subroutine
import DotMatrix.Proofs.Cpu.HalfCarry
import DotMatrix.Proofs.Cpu.PlainMemory
import DotMatrix.Proofs.Machine.Trace
import DotMatrix.Proofs.Machine.Lockstep
import DotMatrix.Proofs.Machine.Watching
import DotMatrix.Proofs.Stepper.Commands
import DotMatrix.Proofs.Text.Hexadecimal
import DotMatrix.Proofs.Stepper.Announcement
import DotMatrix.Proofs.Machine.Policies
import DotMatrix.Proofs.Machine.Limits
import DotMatrix.Proofs.Machine.Instalments
import DotMatrix.Proofs.Machine.Persistence
import DotMatrix.Proofs.Memory.Reading
import DotMatrix.Proofs.Memory.Images
import DotMatrix.Proofs.Machine.LineRegister
import DotMatrix.Proofs.Machine.Restart
import DotMatrix.Proofs.Machine.Collecting
import DotMatrix.Proofs.Files.Directories
import DotMatrix.Proofs.Files.FrameFiles
import DotMatrix.Proofs.Session
import DotMatrix.Proofs.Files.Resolution
import DotMatrix.Proofs.Cpu.Stack
import DotMatrix.Proofs.Cpu.Program
import DotMatrix.Proofs.Cpu.CarryChain
import DotMatrix.Proofs.Netpbm
import DotMatrix.Proofs.Machine.Counters
import DotMatrix.Proofs.Checked.Basic
import DotMatrix.Proofs.Checked.Cpu
import DotMatrix.Proofs.Checked.Video
import DotMatrix.Proofs.Checked.Machine
import DotMatrix.Proofs.Cpu.ClearLoop
import DotMatrix.Proofs.Cpu.ShiftChain
import DotMatrix.Proofs.Files.Numbering
import DotMatrix.Proofs.Text.HexDump
import DotMatrix.Proofs.Bits
import DotMatrix.Proofs.Video.Tile
import DotMatrix.Proofs.Text.Lines
import DotMatrix.Proofs.Cartridge.Logo
import DotMatrix.Proofs.CommandLine.Address
import DotMatrix.Proofs.Report
