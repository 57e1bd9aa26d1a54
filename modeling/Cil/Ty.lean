/-
Types.

A type is described by what its values are: instances of a class or an interface, values of some
data type, arrays, or managed pointers.  Types are told apart by name; the names of arrays and
pointers follow from the names of their elements.

Types are those that the constructors build.  Only a class names its base, or has none.  An interface has
none, every array derives from one class and every value type from another, so none of these stores a base;
a description that gives one of them some other base is not a type here.
-/
import Cil.DataType

namespace Cil

inductive Ty where
  | classType (name : String) (base : Option Ty) (interfaces : List Ty) (generic : Bool)
  | interfaceType (name : String) (interfaces : List Ty) (generic : Bool)
  /-- A primitive, or a user-defined value type. -/
  | valueType (name : String) (dataType : DataType) (interfaces : List Ty) (generic : Bool)
  /-- An array with one dimension and indices from zero. -/
  | array (element : Ty)
  /-- A managed pointer, which may be written through if it is mutable. -/
  | pointer (element : Ty) (mutable : Bool)
  deriving Inhabited

namespace Ty

def name : Ty → String
  | classType n _ _ _ => n
  | interfaceType n _ _ => n
  | valueType n _ _ _ => n
  | array e => e.name ++ "[]"
  | pointer e mutable => e.name ++ if mutable then "&" else " readonly&"

/-- The data type of the values. -/
def dataType : Ty → DataType
  | classType .. | interfaceType .. | array _ => .object
  | valueType _ d _ _ => d
  | pointer _ true => .pointer
  | pointer _ false => .readonlyPointer

/-- The data type of the values once they are on the evaluation stack. -/
def stackType (t : Ty) : DataType :=
  t.dataType.stackType

def isValueType : Ty → Bool
  | valueType .. => true
  | _ => false

def isArray : Ty → Bool
  | array _ => true
  | _ => false

def isPointer : Ty → Bool
  | pointer .. => true
  | _ => false

/-- Are the values object references? -/
def isReference (t : Ty) : Bool :=
  t.dataType = .object

/-- Is the type an uninstantiated generic definition? -/
def isGeneric : Ty → Bool
  | classType _ _ _ g | interfaceType _ _ g | valueType _ _ _ g => g
  | array _ | pointer .. => false

/-- The element type of an array or a pointer. -/
def element? : Ty → Option Ty
  | array e | pointer e _ => some e
  | _ => none

def interfaces : Ty → List Ty
  | classType _ _ is _ | interfaceType _ is _ | valueType _ _ is _ => is
  | array _ | pointer .. => []

/-! ### The types the instruction set itself refers to -/

/-- A class without interfaces. -/
def plainClass (name : String) (base : Option Ty) : Ty :=
  classType name base [] false

/-- A value type without interfaces. -/
def plainValue (name : String) (d : DataType) : Ty :=
  valueType name d [] false

/-- The root of all reference types. -/
def object : Ty := plainClass "object" none

/-- The base of all value types. -/
def valueTypeBase : Ty := plainClass "System.ValueType" (some object)

/-- The base of all arrays. -/
def arrayBase : Ty := plainClass "System.Array" (some object)

def string : Ty := plainClass "string" (some object)

/-- The primitive type of a data type that has one. -/
def primitive (d : DataType) : Ty := plainValue d.name d

def int32 : Ty := primitive .int32
def uint32 : Ty := primitive .uint32
def int64 : Ty := primitive .int64
def float32 : Ty := primitive .float32
def float64 : Ty := primitive .float64
def nativeInt : Ty := primitive .nativeInt
def nativeUInt : Ty := primitive .nativeUInt

def fieldHandle : Ty := plainValue "System.RuntimeFieldHandle" .valueType
def methodHandle : Ty := plainValue "System.RuntimeMethodHandle" .valueType
def typeHandle : Ty := plainValue "System.RuntimeTypeHandle" .valueType
def argumentHandle : Ty := plainValue "System.RuntimeArgumentHandle" .valueType
def typedReference : Ty := plainValue "System.TypedReference" .valueType

/-- All of them. -/
def builtins : List Ty :=
  [object, valueTypeBase, arrayBase, string] ++
    [.int8, .uint8, .int16, .uint16, .int32, .uint32, .int64, .uint64, .float32, .float64,
      .nativeInt, .nativeUInt].map primitive ++
    [fieldHandle, methodHandle, typeHandle, argumentHandle, typedReference]

/-- The type that best describes a value known only by its data type. -/
def ofDataType? : DataType → Option Ty
  | .float => some float64
  | .object => some object
  | .pointer | .readonlyPointer | .valueType => none
  | d => some (primitive d)

/-- The type the type derives from. -/
def base? : Ty → Option Ty
  | classType _ b _ _ => b
  | interfaceType .. | pointer .. => none
  | valueType .. => some valueTypeBase
  | array _ => some arrayBase

/-! ### Subtyping -/

mutual

/-- Can a value of type `s` stand where one of type `t` is wanted?

A type stands in for itself, and a class or interface for what it derives from or implements; any
reference type stands in for the root.  Arrays of references follow their elements.  A pointer
stands in only for a pointer to the very same element type, and a read-only one never for a mutable
one.  A value type stands in for no reference type: it would have to be boxed. -/
def isSubtype (s t : Ty) : Bool :=
  s.name == t.name ||
    match s with
    | classType _ base is _ =>
      !t.isPointer && (t.name == object.name || isBaseSubtype base t || isAnySubtype is t)
    | interfaceType _ is _ => !t.isPointer && (t.name == object.name || isAnySubtype is t)
    | valueType _ _ is _ =>
      t.isValueType &&
        (t.name == valueTypeBase.name || t.name == object.name || isAnySubtype is t)
    | array e =>
      !t.isPointer &&
        (t.name == arrayBase.name || t.name == object.name ||
          match t with
          | array e' => e.isReference && e'.isReference && e.isSubtype e'
          | _ => false)
    | pointer e mutable =>
      match t with
      | pointer e' mutable' => e.name == e'.name && (mutable || !mutable')
      | _ => false
termination_by structural s

/-- Does a base type, if there is one, stand in for `t`? -/
def isBaseSubtype (base : Option Ty) (t : Ty) : Bool :=
  match base with
  | none => false
  | some b => b.isSubtype t
termination_by structural base

/-- Does one of the types stand in for `t`? -/
def isAnySubtype (ss : List Ty) (t : Ty) : Bool :=
  match ss with
  | [] => false
  | s :: rest => s.isSubtype t || isAnySubtype rest t
termination_by structural ss

end

end Ty

end Cil
