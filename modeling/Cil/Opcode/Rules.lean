/-
Which stack types an arithmetic operation takes and what it yields, and which stack types can be
compared.

The tables are over the types of the evaluation stack.  Integers of one width mix with native
integers; floats go with floats; an integer moves a pointer along, and the difference of two
pointers is a native integer.
-/
import Cil.Opcode.Category

namespace Cil

/-! ### Arithmetic -/

/-- A row of an operand table. -/
structure BinaryRule where
  left : DataType
  right : DataType
  result : DataType

namespace Arithmetic

def integerRules : List BinaryRule :=
  [⟨.int32, .int32, .int32⟩, ⟨.int32, .nativeInt, .nativeInt⟩, ⟨.nativeInt, .int32, .nativeInt⟩,
    ⟨.nativeInt, .nativeInt, .nativeInt⟩, ⟨.int64, .int64, .int64⟩]

def floatRules : List BinaryRule :=
  [⟨.float, .float, .float⟩]

def pointerAdditionRules : List BinaryRule :=
  [⟨.pointer, .int32, .pointer⟩, ⟨.pointer, .nativeInt, .pointer⟩,
    ⟨.int32, .pointer, .pointer⟩, ⟨.nativeInt, .pointer, .pointer⟩,
    ⟨.readonlyPointer, .int32, .readonlyPointer⟩, ⟨.readonlyPointer, .nativeInt, .readonlyPointer⟩,
    ⟨.int32, .readonlyPointer, .readonlyPointer⟩, ⟨.nativeInt, .readonlyPointer, .readonlyPointer⟩]

def pointerSubtractionRules : List BinaryRule :=
  [⟨.pointer, .int32, .pointer⟩, ⟨.pointer, .nativeInt, .pointer⟩,
    ⟨.readonlyPointer, .int32, .readonlyPointer⟩, ⟨.readonlyPointer, .nativeInt, .readonlyPointer⟩,
    ⟨.pointer, .pointer, .nativeInt⟩, ⟨.readonlyPointer, .readonlyPointer, .nativeInt⟩,
    ⟨.pointer, .readonlyPointer, .nativeInt⟩, ⟨.readonlyPointer, .pointer, .nativeInt⟩]

/-- The plain form and the unsigned checked form of an operation also work on pointers. -/
def worksOnPointers (a : Arithmetic) : Bool :=
  a.unsigned == a.overflowChecked

/-- The rows that apply to an operation of two operands. -/
def rules (a : Arithmetic) : List BinaryRule :=
  integerRules ++ (if a.validForFloats then floatRules else []) ++
    match a.op with
    | .add => if a.worksOnPointers then pointerAdditionRules else []
    | .subtract => if a.worksOnPointers then pointerSubtractionRules else []
    | _ => []

/-- Is the type an integer of the stack? -/
def isStackInteger : DataType → Bool
  | .int32 | .int64 | .nativeInt => true
  | _ => false

/-- The stack type an operation yields from operands of the given stack types, left before right,
or `none` if there is no rule for them. -/
def result? (a : Arithmetic) (operands : List DataType) : Option DataType :=
  match a.op, operands with
  | .negate, [t] => if isStackInteger t || t = .float then some t else none
  | .not, [t] => if isStackInteger t then some t else none
  | .negate, _ | .not, _ => none
  | .shiftLeft, [t, amount] | .shiftRight, [t, amount] =>
    if isStackInteger t && DataTypeSet.index.contains amount then some t else none
  | _, [left, right] =>
    (a.rules.find? fun r => r.left = left && r.right = right).map BinaryRule.result
  | _, _ => none

end Arithmetic

/-! ### Comparison -/

/-- Can values of the two stack types be compared this way?  References are compared for equality,
or as unsigned and greater, which is how a reference is tested against null. -/
def Comparison.accepts (c : Comparison) : DataType → DataType → Bool
  | .int32, .int32 | .int32, .nativeInt | .nativeInt, .int32 | .nativeInt, .nativeInt
  | .int64, .int64 | .float, .float => true
  | .object, .object =>
    match c.relation with
    | .equal | .notEqual => true
    | .greater => c.unsigned
    | _ => false
  | left, right => left.isPointer && right.isPointer

end Cil
