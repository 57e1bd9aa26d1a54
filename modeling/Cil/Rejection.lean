/-
Why a call is refused.

A call is refused because it breaks a rule of the checker, because it asks for something the
checker does not do, or because the writer cannot write it.  Each cause carries what its message
names; the wording stands in one place per family.
-/
import Cil.Code.Encode
import Cil.Stack
import Cil.Ty.Member

namespace Cil

/-- A rule of type safety that an instruction breaks. -/
inductive Violation where
  | stackUnderflow (op : Opcode)
  | stackOverflow (op : Opcode) (maxStack : Nat)
  /-- A value of another type was wanted. -/
  | typeMismatch (op : Opcode) (expected found : String)
  /-- A value of another stack type was wanted. -/
  | unexpectedStackType (op : Opcode) (expected : DataTypeSet) (found : DataType)
  | noArithmeticRule (op : Opcode) (operands : List Entry)
  | noConversion (op : Opcode) (source target : DataType)
  | invalidOperand (op : Opcode) (operand : Operand)
  /-- The opcode does not take an operand of this form. -/
  | wrongOperandForm (op : Opcode) (form : String)
  | incomparable (op : Opcode) (left right : Entry)
  | variableOutOfRange (op : Opcode) (kind : VariableKind) (index : Int) (count : Nat)
  | labelAlreadyMarked (label : String)
  | unknownLabel (index : Nat)
  | unmarkedLabel (label : String)
  /-- An instance instruction on a static field, or the other way round. -/
  | staticMismatch (op : Opcode) (field : Field)
  | genericDefinition (op : Opcode) (member : String)
  | notAConstructor (op : Opcode) (method : String)
  | returnMismatch (op : Opcode) (expected : String) (depth : Nat)
  | nonEmptyStack (op : Opcode) (depth : Nat)
  | illegalPrefix (last : Prefix) (op : Opcode)
  | repeatedPrefix (p : Prefix)
  | danglingPrefix (p : Prefix)
  | fallThroughEnd
  | localsNotZeroed

/-- Something the checker does not do. -/
inductive Unsupported where
  /-- A number where a label or a member is needed. -/
  | requiresSymbolicOperand (op : Opcode)
  /-- The opcode has no rule for an operand of its own form. -/
  | noRule (op : Opcode)
  /-- Two paths join with different stacks. -/
  | stackMerge (label : String) (first second : List Entry)

/-- Why a call is refused. -/
inductive Rejection where
  | violation (v : Violation)
  | unsupported (u : Unsupported)
  | write (e : WriteError)

namespace Violation

def message : Violation → String
  | stackUnderflow op => op.mnemonic ++ ": stack underflow"
  | stackOverflow op maxStack =>
    op.mnemonic ++ ": stack overflow, the maximum depth is " ++ toString maxStack
  | typeMismatch op expected found =>
    op.mnemonic ++ ": expected " ++ expected ++ ", found " ++ found
  | unexpectedStackType op expected found =>
    op.mnemonic ++ ": expected one of " ++ expected.text ++ ", found " ++ found.name
  | noArithmeticRule op operands =>
    op.mnemonic ++ ": no arithmetic rule for (" ++ Entry.describe operands ++ ")"
  | noConversion op source target =>
    op.mnemonic ++ ": cannot convert " ++ source.name ++ " to " ++ target.name
  | invalidOperand op operand => misfitMessage op operand.text
  | wrongOperandForm op form => op.mnemonic ++ " does not take " ++ form
  | incomparable op left right =>
    op.mnemonic ++ ": cannot compare " ++ left.text ++ " with " ++ right.text
  | variableOutOfRange op kind index count =>
    op.mnemonic ++ ": " ++ kind.name ++ " " ++ toString index ++
      " is out of range, there are " ++ toString count
  | labelAlreadyMarked label => "label " ++ label ++ " is already marked"
  | unknownLabel index => "no label with index " ++ toString index
  | unmarkedLabel label => "label " ++ label ++ " is targeted but never marked"
  | staticMismatch op field =>
    op.mnemonic ++ ": field " ++ field.qualifiedName ++ " is " ++
      if field.isStatic then "static" else "not static"
  | genericDefinition op member =>
    op.mnemonic ++ ": " ++ member ++ " belongs to an uninstantiated generic definition"
  | notAConstructor op method => op.mnemonic ++ ": " ++ method ++ " is not a constructor"
  | returnMismatch op expected depth =>
    op.mnemonic ++ ": cannot return " ++ expected ++ " with " ++ toString depth ++
      " value(s) on the stack"
  | nonEmptyStack op depth =>
    op.mnemonic ++ ": the stack must be empty, found " ++ toString depth ++ " value(s)"
  | illegalPrefix last op =>
    op.mnemonic ++ " cannot follow the prefix " ++ last.opcode.mnemonic
  | repeatedPrefix p => "prefix " ++ p.opcode.mnemonic ++ " is repeated"
  | danglingPrefix p =>
    "prefix " ++ p.opcode.mnemonic ++ " is not followed by an instruction"
  | fallThroughEnd => "control can fall through the end of the method"
  | localsNotZeroed => "the method declares locals but does not zero them"

end Violation

namespace Unsupported

def message : Unsupported → String
  | requiresSymbolicOperand op =>
    op.mnemonic ++ ": a numeric operand cannot be verified, a symbolic operand is required"
  | noRule op => op.mnemonic ++ ": no transition rule"
  | stackMerge label first second =>
    "label " ++ label ++ ": merging differing stack states [" ++ Entry.describe first ++
      "] and [" ++ Entry.describe second ++ "] is not implemented"

end Unsupported

namespace Rejection

def message : Rejection → String
  | violation v => v.message
  | unsupported u => u.message
  | write e => e.message

end Rejection

/-- A step that changes a state and may refuse.  A step that refuses keeps the changes it made
before. -/
abbrev Step (σ α : Type) := EStateM Rejection σ α

end Cil
