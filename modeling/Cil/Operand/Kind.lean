/-
The shapes an inline operand can take.

The kind of an opcode's operand fixes how many bytes follow the opcode and how they are read.  A
symbolic kind stands for something outside the instruction stream, a label or a member, and has to
be described to be checked.
-/
import Cil.DataType

namespace Cil

/-- The shape of an opcode's inline operand. -/
inductive OperandKind where
  | none
  | int8 | int32 | int64
  | float32 | float64
  /-- The index of a variable, in one byte. -/
  | shortVar
  /-- The index of a variable, in two bytes. -/
  | var
  /-- A branch offset, in one byte. -/
  | shortTarget
  /-- A branch offset, in four bytes. -/
  | target
  | field | method | type | string
  /-- A stand-alone call signature. -/
  | signature
  /-- Any member. -/
  | member
  /-- A jump table: a count, then that many offsets. -/
  | table
  deriving DecidableEq, Repr, Inhabited

namespace OperandKind

/-- Every kind, in declaration order. -/
def all : List OperandKind :=
  [none, int8, int32, int64, float32, float64, shortVar, var, shortTarget, target, field, method,
    type, string, signature, member, table]

def name : OperandKind → String
  | none => "InlineNone"
  | int8 => "ShortInlineI"
  | int32 => "InlineI"
  | int64 => "InlineI8"
  | float32 => "ShortInlineR"
  | float64 => "InlineR"
  | shortVar => "ShortInlineVar"
  | var => "InlineVar"
  | shortTarget => "ShortInlineBrTarget"
  | target => "InlineBrTarget"
  | field => "InlineField"
  | method => "InlineMethod"
  | type => "InlineType"
  | string => "InlineString"
  | signature => "InlineSig"
  | member => "InlineTok"
  | table => "InlineSwitch"

/-- Is the operand a metadata token? -/
def isToken : OperandKind → Bool
  | field | method | type | string | signature | member => true
  | _ => false

/-- Is the operand a place in the code, or a table of them? -/
def isBranchTarget : OperandKind → Bool
  | shortTarget | target | table => true
  | _ => false

/-- Does the operand need a label or a member to be checked? -/
def isSymbolic (k : OperandKind) : Bool :=
  k.isToken || k.isBranchTarget

/-- Bytes of the operand.  A jump table has no fixed size. -/
def size? : OperandKind → Option Nat
  | none => some 0
  | int8 | shortVar | shortTarget => some 1
  | var => some 2
  | int32 | float32 | target | field | method | type | string | signature | member => some 4
  | int64 | float64 => some 8
  | table => Option.none

/-- The type the operand's bytes are read as. -/
def dataType? : OperandKind → Option DataType
  | none | table => Option.none
  | int8 | shortTarget => some .int8
  | int32 | target => some .int32
  | int64 => some .int64
  | float32 => some .float32
  | float64 => some .float64
  | shortVar => some .uint8
  | var => some .uint16
  | field | method | type | string | signature | member => some .uint32

end OperandKind

end Cil
