/-
The behaviour of an opcode.

Every opcode belongs to one category, and a category carries just what its transition rule needs to
know: which types are compared, which variable is read, which way a branch tests.  The rules match
on the category and never on the opcode's number.
-/
import Cil.DataType

namespace Cil

/-! ### Arithmetic and comparison -/

inductive ArithmeticOp where
  | add | subtract | multiply | divide | remainder
  | and | or | xor
  | shiftLeft | shiftRight
  | negate | not
  deriving DecidableEq, Repr

/-- An arithmetic instruction: the operation and its form. -/
structure Arithmetic where
  op : ArithmeticOp
  unsigned : Bool
  overflowChecked : Bool
  deriving DecidableEq, Repr

namespace Arithmetic

/-- The number of operands. -/
def arity (a : Arithmetic) : Nat :=
  match a.op with
  | .negate | .not => 1
  | _ => 2

/-- Can the operation take floating point operands? -/
def validForFloats (a : Arithmetic) : Bool :=
  !a.unsigned && !a.overflowChecked &&
    match a.op with
    | .add | .subtract | .multiply | .divide | .remainder | .negate => true
    | _ => false

end Arithmetic

inductive Relation where
  | equal | notEqual | greater | greaterOrEqual | less | lessOrEqual
  deriving DecidableEq, Repr

/-- A comparison.  Its unsigned form compares integers as unsigned and floats as unordered. -/
structure Comparison where
  relation : Relation
  unsigned : Bool
  deriving DecidableEq, Repr

/-! ### Branches -/

inductive BranchKind where
  | always
  /-- Leaves a protected region and empties the evaluation stack. -/
  | leave
  /-- Branches when the tested value is true, or when it is false. -/
  | boolean (branchIf : Bool)
  | comparison (c : Comparison)
  /-- Selects a target from a jump table. -/
  | table
  deriving DecidableEq, Repr

/-- Can control go on with the next instruction? -/
def BranchKind.fallsThrough : BranchKind → Bool
  | always | leave => false
  | _ => true

structure Branch where
  kind : BranchKind
  /-- A short form has a one-byte offset. -/
  short : Bool
  deriving DecidableEq, Repr

/-! ### Conversions, casts, calls and constants -/

/-- What a conversion instruction converts to, and how it treats its operand. -/
structure ConversionForm where
  target : DataType
  overflowChecked : Bool
  unsignedSource : Bool
  deriving DecidableEq, Repr

inductive CastKind where
  | castClass | isInstance | box | unbox | unboxAny
  deriving DecidableEq, Repr

inductive CallKind where
  | direct | virtual | indirect | newObject | jump | loadFunction | loadVirtualFunction
  deriving DecidableEq, Repr

inductive Constant where
  /-- The short forms carry their value; the others read it from the operand. -/
  | int32 (value : Option Int32)
  | int64 | float32 | float64 | null | string
  deriving DecidableEq

/-! ### Places a value is kept in -/

inductive Access where
  | load | address | store
  deriving DecidableEq, Repr

inductive VariableKind where
  | argument | localVar
  deriving DecidableEq, Repr

def VariableKind.name : VariableKind → String
  | argument => "Argument"
  | localVar => "Local"

/-- Where a load or store goes. -/
inductive Location where
  | field | staticField | arrayElement | indirect | argument | localVar
  deriving DecidableEq, Repr

/-! ### Prefixes -/

/-- An instruction that qualifies the one after it. -/
inductive Prefix where
  | unaligned | volatile | tail | constrained | readonly | no
  deriving DecidableEq, Repr

/-! ### Categories -/

inductive Category where
  | branch (b : Branch)
  | arithmetic (a : Arithmetic)
  | comparison (c : Comparison)
  | conversion (c : ConversionForm)
  | cast (k : CastKind)
  | field (access : Access) (static : Bool)
  /-- An array element.  The forms with a type operand name no data type. -/
  | element (access : Access) (type? : Option DataType)
  /-- A value behind a pointer.  The forms with a type operand name no data type. -/
  | indirect (access : Access) (type? : Option DataType)
  /-- A variable.  The shortest forms carry its index. -/
  | slot (access : Access) (kind : VariableKind) (index? : Option Nat)
  | call (k : CallKind)
  | constant (c : Constant)
  | prefixOp (p : Prefix)
  /-- Everything with a rule of its own. -/
  | other
  deriving DecidableEq

namespace Category

/-- A branch on a comparison of two values. -/
def compareBranch (r : Relation) (unsigned short : Bool) : Category :=
  branch ⟨.comparison ⟨r, unsigned⟩, short⟩

def branch? : Category → Option Branch
  | branch b => some b
  | _ => none

def arithmetic? : Category → Option Arithmetic
  | arithmetic a => some a
  | _ => none

/-- The comparison an instruction makes, be it for its value or to branch on. -/
def comparison? : Category → Option Comparison
  | comparison c => some c
  | branch ⟨.comparison c, _⟩ => some c
  | _ => none

def cast? : Category → Option CastKind
  | cast k => some k
  | _ => none

def call? : Category → Option CallKind
  | call k => some k
  | _ => none

def isField : Category → Bool
  | field .. => true
  | _ => false

/-- What a category that reads or writes a place does there, and where that is. -/
def location? : Category → Option (Access × Location)
  | field access static => some (access, if static then .staticField else .field)
  | element access _ => some (access, .arrayElement)
  | indirect access _ => some (access, .indirect)
  | slot access .argument _ => some (access, .argument)
  | slot access .localVar _ => some (access, .localVar)
  | _ => none

end Category

end Cil
