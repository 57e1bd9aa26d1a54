/-
The types and members that names refer to.

A later definition hides an earlier one of the same name.  The name of a registered type followed
by `[]` or `&` names the array or the mutable pointer of that type, unless a type of that very name
is registered.
-/
import Cil.Text.Blank
import Cil.Ty.Member

namespace Cil

structure Environment where
  /-- Types by name, the latest definition first. -/
  types : List (String × Ty)
  /-- Methods by qualified name, the latest definition first. -/
  methods : List (String × Method)
  /-- Fields by qualified name, the latest definition first. -/
  fields : List (String × Field)

namespace Environment

/-- Other names for some primitive types. -/
def aliases : List (String × Ty) :=
  [("bool", .primitive .uint8), ("char", .primitive .uint16), ("nint", .nativeInt),
    ("nuint", .nativeUInt)]

/-- The environment with the builtin types and their aliases. -/
def initial : Environment where
  types := aliases ++ Ty.builtins.map fun t => (t.name, t)
  methods := []
  fields := []

def defineType (env : Environment) (t : Ty) : Environment :=
  { env with types := (t.name, t) :: env.types }

def defineMethod (env : Environment) (m : Method) : Environment :=
  { env with methods := (m.qualifiedName, m) :: env.methods }

def defineField (env : Environment) (f : Field) : Environment :=
  { env with fields := (f.qualifiedName, f) :: env.fields }

/-- The type whose name, read backwards, is given. -/
def resolveReversed (env : Environment) (reversed : List Char) : Option Ty :=
  match env.types.lookup (String.ofList reversed.reverse) with
  | some t => some t
  | none =>
    match reversed with
    | ']' :: '[' :: rest => (env.resolveReversed (rest.dropWhile Text.isBlank)).map .array
    | '&' :: rest => (env.resolveReversed (rest.dropWhile Text.isBlank)).map (.pointer · true)
    | _ => none
termination_by reversed.length
decreasing_by
  all_goals
    have := (List.dropWhile_sublist Text.isBlank (l := rest)).length_le
    simp only [List.length_cons]
    omega

/-- The type with the given name. -/
def typeNamed? (env : Environment) (name : String) : Option Ty :=
  env.resolveReversed name.toList.reverse

/-- The method with the given qualified name. -/
def methodNamed? (env : Environment) (name : String) : Option Method :=
  env.methods.lookup name

/-- The field with the given qualified name. -/
def fieldNamed? (env : Environment) (name : String) : Option Field :=
  env.fields.lookup name

/-- The field, else the method, else the type with the given name. -/
def memberNamed? (env : Environment) (name : String) : Option Member :=
  match env.fieldNamed? name, env.methodNamed? name with
  | some f, _ => some (.field f)
  | none, some m => some (.method m)
  | none, none => (env.typeNamed? name).map .type

end Environment

end Cil
