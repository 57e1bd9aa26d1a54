/-
Methods and fields.

A member is known by its qualified name, the declaring type and its own name.  Overloads are not
told apart: of two methods with one qualified name the later replaces the earlier.
-/
import Cil.Ty

namespace Cil

structure Method where
  name : String
  declaringType : Ty
  /-- The declared parameters, without the instance. -/
  parameters : List Ty
  /-- Nothing is returned by a method without a return type. -/
  returnType : Option Ty
  isStatic : Bool
  isConstructor : Bool := false
  isVirtual : Bool := false
  /-- An uninstantiated generic definition. -/
  isGeneric : Bool := false
  deriving Inhabited

namespace Method

/-- The constructor of a type with the given parameters. -/
def constructor (declaringType : Ty) (parameters : List Ty) : Method :=
  { name := ".ctor", declaringType, parameters, returnType := none, isStatic := false,
    isConstructor := true }

def qualifiedName (m : Method) : String :=
  m.declaringType.name ++ "::" ++ m.name

/-- The full signature. -/
def text (m : Method) : String :=
  (m.returnType.map Ty.name).getD "void" ++ " " ++ m.qualifiedName ++
    "(" ++ ", ".intercalate (m.parameters.map Ty.name) ++ ")"

/-- The type of the instance argument.  A value is passed by reference to its own methods. -/
def thisType? (m : Method) : Option Ty :=
  if m.isStatic then none
  else if m.declaringType.isValueType then some (.pointer m.declaringType true)
  else some m.declaringType

/-- The arguments as the body sees them, the instance first. -/
def argumentTypes (m : Method) : List Ty :=
  m.thisType?.toList ++ m.parameters

end Method

structure Field where
  name : String
  declaringType : Ty
  type : Ty
  isStatic : Bool
  /-- Writable only while the declaring type is being constructed. -/
  isInitOnly : Bool := false
  deriving Inhabited

namespace Field

def qualifiedName (f : Field) : String :=
  f.declaringType.name ++ "::" ++ f.name

def text (f : Field) : String :=
  f.type.name ++ " " ++ f.qualifiedName

end Field

/-- Anything a member token can refer to. -/
inductive Member where
  | type (t : Ty)
  | method (m : Method)
  | field (f : Field)

def Member.text : Member → String
  | type t => t.name
  | method m => m.qualifiedName
  | field f => f.qualifiedName

end Cil
