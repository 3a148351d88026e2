import StackMachine.Code.Assembly
import StackMachine.Code.Instruction
import StackMachine.Code.Listing
import StackMachine.Code.Opcode
import StackMachine.Code.Operator
import StackMachine.Code.Source
import StackMachine.Code.Unit
import StackMachine.Code.Wire
import StackMachine.CommandLine
import StackMachine.Dictionary
import StackMachine.Exception
import StackMachine.Fatal
import StackMachine.Main
import StackMachine.Number.Decimal
import StackMachine.Number.Double
import StackMachine.Number.Integer
import StackMachine.Number.Size
import StackMachine.Object.Address
import StackMachine.Object.Attributes
import StackMachine.Object.Builtins
import StackMachine.Object.Callable
import StackMachine.Object.Cause
import StackMachine.Object.Equality
import StackMachine.Object.Functions
import StackMachine.Object.Heap
import StackMachine.Object.Iteration
import StackMachine.Object.Methods
import StackMachine.Object.Operators
import StackMachine.Object.Order
import StackMachine.Object.Rendering
import StackMachine.Object.Value
import StackMachine.Proofs.ArgumentBinding
import StackMachine.Proofs.Assembling
import StackMachine.Proofs.BinaryForm
import StackMachine.Proofs.Bisimulation
import StackMachine.Proofs.BlockSemantics
import StackMachine.Proofs.CallIsolation
import StackMachine.Proofs.CallStack
import StackMachine.Proofs.Catching
import StackMachine.Proofs.CellSlots
import StackMachine.Proofs.CodePlaces
import StackMachine.Proofs.Confinement
import StackMachine.Proofs.ConstantPool
import StackMachine.Proofs.Cursors
import StackMachine.Proofs.Decoding
import StackMachine.Proofs.Effects
import StackMachine.Proofs.ExactIntegers
import StackMachine.Proofs.ExactShifts
import StackMachine.Proofs.Extremes
import StackMachine.Proofs.FailedOperations
import StackMachine.Proofs.FaultPropagation
import StackMachine.Proofs.FinallyBlocks
import StackMachine.Proofs.HeapGrowth
import StackMachine.Proofs.InstructionStream
import StackMachine.Proofs.IntegerTexts
import StackMachine.Proofs.LastFault
import StackMachine.Proofs.LedgerOperations
import StackMachine.Proofs.LedgerSteps
import StackMachine.Proofs.Ledgers
import StackMachine.Proofs.Limits
import StackMachine.Proofs.ListIndices
import StackMachine.Proofs.ListedLines
import StackMachine.Proofs.Listings
import StackMachine.Proofs.MapHistories
import StackMachine.Proofs.MapKeys
import StackMachine.Proofs.Moves
import StackMachine.Proofs.Namespaces
import StackMachine.Proofs.NestedValues
import StackMachine.Proofs.Operands
import StackMachine.Proofs.OrderUnfolding
import StackMachine.Proofs.Ordering
import StackMachine.Proofs.PlainData
import StackMachine.Proofs.Primitives
import StackMachine.Proofs.PrintedLines
import StackMachine.Proofs.Progressions
import StackMachine.Proofs.ReadingBack
import StackMachine.Proofs.RecordedSessions
import StackMachine.Proofs.Rendering
import StackMachine.Proofs.Repetition
import StackMachine.Proofs.ResolvedArguments
import StackMachine.Proofs.ResourceBounds
import StackMachine.Proofs.SequenceViews
import StackMachine.Proofs.Shared
import StackMachine.Proofs.ShortestForm
import StackMachine.Proofs.StackFloor
import StackMachine.Proofs.Steps
import StackMachine.Proofs.StreamWalks
import StackMachine.Proofs.TextPieces
import StackMachine.Proofs.Unwinding
import StackMachine.Run.Execute
import StackMachine.Run.Frame
import StackMachine.Run.Machine
import StackMachine.Run.Output
import StackMachine.Run.Unwind
import StackMachine.Text.Blank
import StackMachine.Text.CaseData
import StackMachine.Text.Casing
import StackMachine.Text.Quoted
import StackMachine.Text.Separated
