/-
Instructions as they stand in the code: an opcode and its operand, or a jump table.

Offsets in a jump table are relative to the end of the whole instruction.
-/
import Cil.Opcode
import Cil.Operand

namespace Cil

inductive Instruction where
  | plain (op : Opcode) (operand : Operand)
  /-- A `switch` with its jump table. -/
  | switch (offsets : List Int32)
  deriving DecidableEq

namespace Instruction

def opcode : Instruction → Opcode
  | plain op _ => op
  | switch _ => .switch

/-- The single operand.  A jump table is none. -/
def operand? : Instruction → Option Operand
  | plain _ x => some x
  | switch _ => none

/-- Bytes of the encoded instruction. -/
def size : Instruction → Nat
  | plain op _ => op.size + op.operandKind.size?.getD 0
  | switch offsets => 5 + 4 * offsets.length

/-- Can the opcode hold the operand?  A `switch` needs its table. -/
def isWellFormed : Instruction → Bool
  | plain op x => op.operandKind != .table && x.fits op.operandKind
  | switch _ => true

/-- The text of a jump table whose targets are written as given. -/
def tableText (targets : List String) : String :=
  "switch (" ++ ", ".intercalate targets ++ ")"

def text : Instruction → String
  | plain op .none => op.mnemonic
  | plain op x => op.mnemonic ++ " " ++ x.text
  | switch offsets => tableText (offsets.map fun (o : Int32) => toString o.toInt)

end Instruction

end Cil
