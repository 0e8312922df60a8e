import HackComputer.Alu
import HackComputer.Assembly
import HackComputer.CommandLine
import HackComputer.CommandLine.Arguments
import HackComputer.CommandLine.Command
import HackComputer.CommandLine.Parameter
import HackComputer.CommandLine.Settings
import HackComputer.CommandLine.Value
import HackComputer.Cpu
import HackComputer.Debugger
import HackComputer.Debugger.Canvas
import HackComputer.Debugger.Frame
import HackComputer.Debugger.Key
import HackComputer.FileTree
import HackComputer.Inspect
import HackComputer.Instruction
import HackComputer.Instruction.Code
import HackComputer.Json
import HackComputer.Json.Components
import HackComputer.Json.Form
import HackComputer.Json.Reader
import HackComputer.Json.Snapshot
import HackComputer.Json.Token
import HackComputer.Json.Writer
import HackComputer.Machine
import HackComputer.Machine.Config
import HackComputer.Machine.ConfigFile
import HackComputer.Machine.Event
import HackComputer.Main
import HackComputer.Memory
import HackComputer.Memory.Error
import HackComputer.Memory.Ram
import HackComputer.Memory.Region
import HackComputer.Memory.Rom
import HackComputer.Memory.Screen
import HackComputer.OutOfRange
import HackComputer.ProgramFile
import HackComputer.Proofs.Alu
import HackComputer.Proofs.Alu.Integer
import HackComputer.Proofs.Assembly.Disassembly
import HackComputer.Proofs.Assembly.Language
import HackComputer.Proofs.Assembly.Listing
import HackComputer.Proofs.Assembly.SharedText
import HackComputer.Proofs.Checked.Access
import HackComputer.Proofs.Checked.Machine
import HackComputer.Proofs.Checked.Screen
import HackComputer.Proofs.CommandLine.FaultReport
import HackComputer.Proofs.CommandLine.Value
import HackComputer.Proofs.Debugger.Batch
import HackComputer.Proofs.Debugger.CodeWindow
import HackComputer.Proofs.Debugger.Fault
import HackComputer.Proofs.Debugger.MemoryWindow
import HackComputer.Proofs.FlatMachine
import HackComputer.Proofs.FlatMachine.Refinement
import HackComputer.Proofs.Instruction.Code
import HackComputer.Proofs.Instruction.ControlLines
import HackComputer.Proofs.Instruction.UnusedBits
import HackComputer.Proofs.Json.Components
import HackComputer.Proofs.Json.Form
import HackComputer.Proofs.Json.Grammar
import HackComputer.Proofs.Json.Reading
import HackComputer.Proofs.Json.Recognition
import HackComputer.Proofs.Json.Spelling
import HackComputer.Proofs.Json.Writing
import HackComputer.Proofs.Machine.Bookkeeping
import HackComputer.Proofs.Machine.ConfigFile
import HackComputer.Proofs.Machine.Cycle
import HackComputer.Proofs.Machine.DetectedLoop
import HackComputer.Proofs.Machine.Detection
import HackComputer.Proofs.Machine.Execution
import HackComputer.Proofs.Machine.Fault
import HackComputer.Proofs.Machine.Framebuffer
import HackComputer.Proofs.Machine.History
import HackComputer.Proofs.Machine.IdleLoop
import HackComputer.Proofs.Machine.Keyboard
import HackComputer.Proofs.Machine.Lockstep
import HackComputer.Proofs.Machine.Operation
import HackComputer.Proofs.Machine.PastProgram
import HackComputer.Proofs.Machine.Port
import HackComputer.Proofs.Machine.ProcessorCycle
import HackComputer.Proofs.Machine.Reachable
import HackComputer.Proofs.Machine.ResetLine
import HackComputer.Proofs.Machine.Run
import HackComputer.Proofs.Machine.SharedText
import HackComputer.Proofs.Machine.Stimulus
import HackComputer.Proofs.Machine.UnusedBits
import HackComputer.Proofs.Memory.Block
import HackComputer.Proofs.Memory.Contents
import HackComputer.Proofs.Memory.Dump
import HackComputer.Proofs.Memory.Picture
import HackComputer.Proofs.Memory.Pixel
import HackComputer.Proofs.Memory.Program
import HackComputer.Proofs.Program.Multiply
import HackComputer.Proofs.ProgramFile.ByteBuffer
import HackComputer.Proofs.ProgramFile.Grammar
import HackComputer.Proofs.ProgramFile.Reading
import HackComputer.Proofs.ProgramFile.RoundTrip
import HackComputer.Proofs.ProgramFile.SourceLine
import HackComputer.Proofs.Session
import HackComputer.Proofs.Text.Blank
import HackComputer.Proofs.Text.Integer
import HackComputer.Proofs.Text.Utf8
import HackComputer.Proofs.Word.Binary
import HackComputer.Registers
import HackComputer.Session
import HackComputer.Stream
import HackComputer.Text.Align
import HackComputer.Text.Blank
import HackComputer.Text.ControlSequence
import HackComputer.Text.Integer
import HackComputer.Text.Similarity
import HackComputer.Word
import HackComputer.Word.Binary
