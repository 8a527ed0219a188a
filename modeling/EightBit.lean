import EightBit.Adder
import EightBit.Bus
import EightBit.Cli.Arguments
import EightBit.Cli.Execution
import EightBit.Cli.Run
import EightBit.Cpm.Bus
import EightBit.Cpm.Machine
import EightBit.FlatBus
import EightBit.GameBoy.AddressSpace
import EightBit.GameBoy.Bus
import EightBit.GameBoy.Clockwork
import EightBit.GameBoy.Lcd
import EightBit.GameBoy.Machine
import EightBit.GameBoy.PowerOn
import EightBit.GameBoy.Serial
import EightBit.GameBoy.Timer
import EightBit.Journal
import EightBit.Main
import EightBit.Memory
import EightBit.Noise.ChaCha
import EightBit.Noise.Pcg
import EightBit.Noise.Source
import EightBit.Operand
import EightBit.Proofs.Bits
import EightBit.Proofs.GameBoy.LostRequest
import EightBit.Proofs.GameBoy.Requests
import EightBit.Proofs.Memory
import EightBit.Proofs.Records
import EightBit.Proofs.Sm83.Control
import EightBit.Proofs.Sm83.Fetch
import EightBit.Proofs.Sm83.HaltBug
import EightBit.Proofs.Sm83.Run
import EightBit.Proofs.Sm83.Selection
import EightBit.Proofs.Sm83.Service
import EightBit.Sm83.Alu
import EightBit.Sm83.Bus
import EightBit.Sm83.Cpu
import EightBit.Sm83.Decode
import EightBit.Sm83.Dispatch
import EightBit.Sm83.Execute
import EightBit.Sm83.Instruction
import EightBit.Sm83.Interrupt
import EightBit.Sm83.Registers
import EightBit.Sm83.Step
import EightBit.Text.Hex
import EightBit.Text.Numeral
import EightBit.Trace.Entry
import EightBit.Trace.Log
import EightBit.Word
import EightBit.Z80.Alu
import EightBit.Z80.Block
import EightBit.Z80.Bus
import EightBit.Z80.Cpu
import EightBit.Z80.Decode
import EightBit.Z80.Decoding
import EightBit.Z80.Execute
import EightBit.Z80.Instruction
import EightBit.Z80.Interrupt
import EightBit.Z80.PortBus
import EightBit.Z80.Registers
import EightBit.Z80.Step
import EightBit.Proofs.Sm83.Accesses
import EightBit.Proofs.GameBoy.Devices
import EightBit.Proofs.GameBoy.Writes
import EightBit.Proofs.GameBoy.PowerOn
import EightBit.Proofs.GameBoy.Calls
import EightBit.Proofs.GameBoy.Registers
import EightBit.Proofs.GameBoy.StatLine
import EightBit.Proofs.GameBoy.Clocks
import EightBit.Proofs.Z80.Exchange
import EightBit.Proofs.Z80.IndexPrefix
import EightBit.Proofs.Z80.Decoded
import EightBit.Proofs.Z80.Length
import EightBit.Proofs.Z80.EnableShadow
import EightBit.Proofs.Sm83.UnusedFlags
import EightBit.Proofs.Z80.UnusedFlags
import EightBit.Proofs.Sm83.Flags
import EightBit.Proofs.Z80.Flags
import EightBit.Proofs.Shared.Alike
import EightBit.Proofs.Shared.Agreement
import EightBit.Proofs.GameBoy.MemoryMap
import EightBit.Proofs.GameBoy.Transfers
import EightBit.Proofs.Cpm.Loading
import EightBit.Proofs.Z80.Kept
import EightBit.Proofs.Cpm.Steps
import EightBit.Proofs.Cpm.SystemCalls
import EightBit.Proofs.GameBoy.SingleSteps
import EightBit.Proofs.Cli.Replay
import EightBit.Proofs.GameBoy.TimerCount
import EightBit.Proofs.GameBoy.Notices
import EightBit.Proofs.Sm83.Costs
import EightBit.Proofs.GameBoy.PowerCycle
import EightBit.Proofs.Recorder
import EightBit.Proofs.Z80.Surroundings
import EightBit.Proofs.GameBoy.Tracing
import EightBit.Proofs.Cpm.Tracing
import EightBit.Proofs.Checked.Arithmetic
import EightBit.Proofs.Checked.Sm83
import EightBit.Proofs.Z80.Costs
import EightBit.Proofs.Checked.Z80
import EightBit.Proofs.Checked.GameBoy
import EightBit.Proofs.Checked.Machines
import EightBit.Proofs.GameBoy.TimerEdges
import EightBit.Proofs.GameBoy.Interleaving
import EightBit.Proofs.GameBoy.FramePacing
import EightBit.Proofs.Z80.Blocks
import EightBit.Proofs.Z80.BlockCopy
import EightBit.Proofs.Z80.BlockSearch
import EightBit.Proofs.Z80.BlockTransfer
import EightBit.Proofs.Z80.IndexedOperand
import EightBit.Proofs.Z80.PrefixRuns
import EightBit.Proofs.Adder
import EightBit.Proofs.Shared.Multibyte
import EightBit.Proofs.Shared.Decimal
import EightBit.Proofs.Sm83.Arithmetic
import EightBit.Proofs.Z80.Arithmetic
import EightBit.Proofs.Shared.Calculation
import EightBit.Proofs.GameBoy.ObjectTransfer
import EightBit.Proofs.Z80.Fetched
import EightBit.Proofs.Z80.TraceEntries
import EightBit.Proofs.WordAdder
import EightBit.Proofs.Z80.WordArithmetic
import EightBit.Proofs.Sm83.EnableDelay
import EightBit.Proofs.Z80.Acceptance
import EightBit.Proofs.Sm83.Return
import EightBit.Proofs.Shared.InterruptReturn
import EightBit.Proofs.Shared.Branch
import EightBit.Proofs.Sm83.Branches
import EightBit.Proofs.Shared.ConditionalBranches
import EightBit.Proofs.Sm83.Placement
import EightBit.Proofs.Z80.Branches
import EightBit.Proofs.Cpm.Budget
import EightBit.Proofs.Cpm.ConsoleCalls
import EightBit.Proofs.GameBoy.Stop
import EightBit.Proofs.GameBoy.Hooks
import EightBit.Proofs.Z80.Sheltered
import EightBit.Proofs.Z80.Refresh
import EightBit.Proofs.Sm83.KeptFlags
import EightBit.Proofs.Z80.KeptFlags
import EightBit.Proofs.Shared.Stack
import EightBit.Proofs.Z80.LookUps
import EightBit.Proofs.Z80.Isolation
import EightBit.Proofs.Text.Numerals
import EightBit.Proofs.Cli.Grammar
import EightBit.Proofs.BothSystems
