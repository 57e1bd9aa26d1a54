import Cil.Assembly
import Cil.Assembly.Grammar
import Cil.Assembly.Line
import Cil.Assembly.Numeral
import Cil.Assembly.Scan
import Cil.Binary.Decimal
import Cil.Binary.Format
import Cil.Code.Bytes
import Cil.Code.Decode
import Cil.Code.Encode
import Cil.Code.Listing
import Cil.CommandLine
import Cil.DataType
import Cil.DataType.Conversion
import Cil.Instruction
import Cil.Label
import Cil.Main
import Cil.Opcode
import Cil.Opcode.Category
import Cil.Opcode.Rules
import Cil.Operand
import Cil.Operand.Kind
import Cil.Proofs.Assembly.Lines
import Cil.Proofs.Assembly.Locals
import Cil.Proofs.Assembly.Reading
import Cil.Proofs.Assembly.Reassembly
import Cil.Proofs.Assembly.Refinement
import Cil.Proofs.Assembly.Spelling
import Cil.Proofs.Code.Codec
import Cil.Proofs.Code.Faults
import Cil.Proofs.Code.Listing
import Cil.Proofs.Code.Stream
import Cil.Proofs.Opcode
import Cil.Proofs.Step
import Cil.Proofs.Subtyping
import Cil.Proofs.SymbolTable
import Cil.Proofs.Text
import Cil.Proofs.Verifier.Accept
import Cil.Proofs.Verifier.Body
import Cil.Proofs.Verifier.Effect
import Cil.Proofs.Verifier.Forms
import Cil.Proofs.Verifier.Forwarding
import Cil.Proofs.Verifier.InitOnly
import Cil.Proofs.Verifier.Invariant
import Cil.Proofs.Verifier.Invocation
import Cil.Proofs.Verifier.Labels
import Cil.Proofs.Verifier.Lockstep
import Cil.Proofs.Verifier.MaxStack
import Cil.Proofs.Verifier.Paths
import Cil.Proofs.Verifier.PrefixRuns
import Cil.Proofs.Verifier.Prefixes
import Cil.Proofs.Verifier.Replay
import Cil.Proofs.Verifier.SameTags
import Cil.Proofs.Verifier.Snapshots
import Cil.Proofs.Verifier.Stores
import Cil.Proofs.Verifier.Writing
import Cil.Proofs.Writer.Acceptance
import Cil.Proofs.Writer.Cells
import Cil.Proofs.Writer.Filling
import Cil.Proofs.Writer.Layout
import Cil.Proofs.Writer.Leftovers
import Cil.Proofs.Writer.Marks
import Cil.Proofs.Writer.ReadBack
import Cil.Proofs.Writer.Refusals
import Cil.Proofs.Writer.Sessions
import Cil.Proofs.Writer.Tokens
import Cil.Rejection
import Cil.Sink
import Cil.Stack
import Cil.Symbol
import Cil.Text.Blank
import Cil.Text.Columns
import Cil.Text.Emoji
import Cil.Text.Hex
import Cil.Text.Joining
import Cil.Text.Letter
import Cil.Text.Lines
import Cil.Text.Printable
import Cil.Text.Quoted
import Cil.Text.Ranges
import Cil.Text.Table
import Cil.Text.Width
import Cil.Ty
import Cil.Ty.Environment
import Cil.Ty.Member
import Cil.Verifier
import Cil.Verifier.Checker
import Cil.Verifier.Steps
import Cil.Verifier.Transition
import Cil.Writer
import Cil.Proofs.Code.Encoding
import Cil.Proofs.Code.Sources
import Cil.Proofs.Binary.Intervals
import Cil.Proofs.Environment
import Cil.Proofs.Binary.Text
import Cil.Proofs.Code.Distinct
