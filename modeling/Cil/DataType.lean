/-
The data types the instruction set supports directly, and the sets of them the rules speak of.

A value keeps its declared type while it sits in a variable, field or array, and decays to one of
eight stack types when it is loaded.  `DataType.stackType` is that decay; everything the checker
compares is compared after it.

A set is the list of its members in declaration order, so two sets with the same members are equal
and the text of a set needs no sorting.
-/
namespace Cil

/-- A data type of the execution model. -/
inductive DataType where
  | int8 | uint8 | int16 | uint16 | int32 | uint32 | int64 | uint64
  | float32 | float64
  | nativeInt | nativeUInt
  /-- The floating point type of the evaluation stack. -/
  | float
  /-- An object reference. -/
  | object
  /-- A managed pointer that may be written through. -/
  | pointer
  /-- A managed pointer that may only be read through. -/
  | readonlyPointer
  /-- A user-defined value type, opaque here. -/
  | valueType
  deriving DecidableEq, Repr, Inhabited

namespace DataType

/-- Every data type, in declaration order. -/
def all : List DataType :=
  [int8, uint8, int16, uint16, int32, uint32, int64, uint64, float32, float64, nativeInt,
    nativeUInt, float, object, pointer, readonlyPointer, valueType]

def name : DataType → String
  | int8 => "int8"
  | uint8 => "uint8"
  | int16 => "int16"
  | uint16 => "uint16"
  | int32 => "int32"
  | uint32 => "uint32"
  | int64 => "int64"
  | uint64 => "uint64"
  | float32 => "float32"
  | float64 => "float64"
  | nativeInt => "native int"
  | nativeUInt => "native uint"
  | float => "F"
  | object => "O"
  | pointer => "&"
  | readonlyPointer => "readonly &"
  | valueType => "valuetype"

/-- The data type with the given name. -/
def ofName? (s : String) : Option DataType :=
  all.find? fun t => t.name == s

/-- The position in declaration order. -/
def index (t : DataType) : Nat :=
  all.idxOf t

/-- The mask with one bit set, at the type's position. -/
def bit (t : DataType) : Nat :=
  1 <<< t.index

/-- Bytes of a native integer or a pointer on the 64-bit platform modelled here. -/
def pointerSize : Nat := 8

/-- Bytes a value occupies.  A user-defined value type has no size known here. -/
def size? : DataType → Option Nat
  | int8 | uint8 => some 1
  | int16 | uint16 => some 2
  | int32 | uint32 | float32 => some 4
  | int64 | uint64 | float64 | float => some 8
  | nativeInt | nativeUInt | object | pointer | readonlyPointer => some pointerSize
  | valueType => none

/-- The type of characters. -/
def char : DataType := uint16

/-- The type of truth values. -/
def boolean : DataType := uint8

/-- The type a value has once it is loaded onto the evaluation stack. -/
def stackType : DataType → DataType
  | int8 | uint8 | int16 | uint16 | int32 | uint32 => int32
  | int64 | uint64 => int64
  | nativeInt | nativeUInt => nativeInt
  | float32 | float64 | float => float
  | object => object
  | pointer => pointer
  | readonlyPointer => readonlyPointer
  | valueType => valueType

/-- Loading a loaded value changes nothing. -/
@[simp] theorem stackType_stackType (t : DataType) : t.stackType.stackType = t.stackType := by
  cases t <;> rfl

theorem mem_all (t : DataType) : t ∈ all := by
  cases t <;> decide

end DataType

/-- A set of data types: its members in declaration order. -/
structure DataTypeSet where
  members : List DataType
  deriving DecidableEq, Repr

namespace DataTypeSet

def contains (s : DataTypeSet) (t : DataType) : Bool :=
  s.members.contains t

def empty : DataTypeSet := ⟨[]⟩

def singleton (t : DataType) : DataTypeSet := ⟨[t]⟩

/-- The union, its members again in declaration order. -/
def union (s t : DataTypeSet) : DataTypeSet :=
  ⟨DataType.all.filter fun x => s.contains x || t.contains x⟩

/-- The text of a set: the members' names between braces. -/
def text (s : DataTypeSet) : String :=
  "\x7b" ++ " | ".intercalate (s.members.map DataType.name) ++ "\x7d"

/-! ### The sets the rules speak of -/

def signedInteger : DataTypeSet := ⟨[.int8, .int16, .int32, .int64, .nativeInt]⟩

def unsigned : DataTypeSet := ⟨[.uint8, .uint16, .uint32, .uint64, .nativeUInt]⟩

def integer : DataTypeSet := signedInteger.union unsigned

def float : DataTypeSet := ⟨[.float32, .float64, .float]⟩

def signed : DataTypeSet := signedInteger.union float

def numeric : DataTypeSet := integer.union float

def pointer : DataTypeSet := ⟨[.pointer, .readonlyPointer]⟩

def reference : DataTypeSet := ⟨[.object]⟩

def native : DataTypeSet := ⟨[.nativeInt, .nativeUInt, .float]⟩

/-- The types that exist on the evaluation stack. -/
def stack : DataTypeSet :=
  ⟨[.int32, .int64, .nativeInt, .float, .object, .pointer, .readonlyPointer, .valueType]⟩

/-- The integers wide enough for an address. -/
def pointerSizedInteger : DataTypeSet := ⟨[.int64, .uint64, .nativeInt, .nativeUInt]⟩

/-- What a boolean branch tests. -/
def booleanTestable : DataTypeSet :=
  ⟨[.int32, .int64, .nativeInt, .object, .pointer, .readonlyPointer]⟩

/-- What serves as an array index, a table selector or an element count. -/
def index : DataTypeSet := ⟨[.int32, .nativeInt]⟩

/-- The addresses a block operation takes. -/
def blockAddress : DataTypeSet := pointer.union (singleton .nativeInt)

end DataTypeSet

namespace DataType

def isInteger (t : DataType) : Bool := DataTypeSet.integer.contains t
def isFloat (t : DataType) : Bool := DataTypeSet.float.contains t
def isNumeric (t : DataType) : Bool := DataTypeSet.numeric.contains t
def isSigned (t : DataType) : Bool := DataTypeSet.signed.contains t
def isUnsigned (t : DataType) : Bool := DataTypeSet.unsigned.contains t
def isPointer (t : DataType) : Bool := DataTypeSet.pointer.contains t
def isReference (t : DataType) : Bool := DataTypeSet.reference.contains t
def isStackType (t : DataType) : Bool := DataTypeSet.stack.contains t
def isNative (t : DataType) : Bool := DataTypeSet.native.contains t

/-- The decay of a type is a stack type. -/
theorem isStackType_stackType (t : DataType) : t.stackType.isStackType = true := by
  cases t <;> rfl

end DataType

end Cil
