/-
The simulated evaluation stack.

An entry records the stack type of a value and, where it is known, the type the value was made
from.  The latter is missing only for the null reference.

The stack keeps its top at the head of the list.  It is bounded, and it counts what is pushed and
popped, so that what an instruction does can be held against what its opcode declares.
-/
import Cil.Opcode
import Cil.Ty

namespace Cil

/-- What is known of a value on the stack. -/
@[ext]
structure Entry where
  /-- The stack type. -/
  tag : DataType
  /-- The type the value was made from. -/
  concrete : Option Ty
  deriving Inhabited

namespace Entry

/-- A value of type `t`. -/
def of (t : Ty) : Entry := ⟨t.stackType, some t⟩

/-- A value known only by its data type. -/
def ofDataType (d : DataType) : Entry := ⟨d.stackType, Ty.ofDataType? d⟩

/-- The null reference. -/
def null : Entry := ⟨.object, none⟩

def isNull (e : Entry) : Bool :=
  e.concrete.isNone && e.tag = .object

/-- Can the two values meet where two paths join?  Only their stack types matter. -/
def meets (a b : Entry) : Bool :=
  a.tag = b.tag

def text (e : Entry) : String :=
  match e.concrete with
  | some t => t.name
  | none => if e.isNull then "null" else e.tag.name

/-- Is the value usable where one of type `t` is wanted?  A null reference is usable as any
reference.  Any other value is usable if its type is a subtype of `t`, and also if it has the same
stack type as values of `t`. -/
def isAssignable (e : Entry) (t : Ty) : Bool :=
  if e.isNull then t.isReference
  else e.concrete.any (·.isSubtype t) || t.stackType = e.tag

/-- Some entries, separated by commas. -/
def describe (entries : List Entry) : String :=
  ", ".intercalate (entries.map text)

end Entry

/-- A bounded stack, top first. -/
structure Stack where
  entries : List Entry
  maxDepth : Nat
  /-- Pushes since the counts were last reset. -/
  pushes : Nat
  /-- Pops since the counts were last reset. -/
  pops : Nat

namespace Stack

/-- The stack before the first push.  No room is set aside for its entries, so that the depth may be any
number.  A stack that allocates its whole depth at once cannot be made for one that memory does not hold;
that limit is not part of this one. -/
def empty (maxDepth : Nat) : Stack := ⟨[], maxDepth, 0, 0⟩

def depth (s : Stack) : Nat := s.entries.length

def isEmpty (s : Stack) : Bool := s.entries.isEmpty

/-- The entries, bottom first. -/
def bottomUp (s : Stack) : List Entry := s.entries.reverse

/-- The stack with one more entry, or `none` if it is full. -/
def push? (s : Stack) (e : Entry) : Option Stack :=
  if s.depth < s.maxDepth then
    some { s with entries := e :: s.entries, pushes := s.pushes + 1 }
  else none

/-- The top and the stack without it, or `none` if it is empty. -/
def pop? (s : Stack) : Option (Entry × Stack) :=
  match s.entries with
  | [] => none
  | e :: rest => some (e, { s with entries := rest, pops := s.pops + 1 })

/-- Removes all entries and counts them as popped. -/
def clear (s : Stack) : Stack :=
  { s with entries := [], pops := s.pops + s.depth }

/-- Puts other entries in place, without counting. -/
def restore (s : Stack) (entries : List Entry) : Stack :=
  { s with entries }

def resetCounts (s : Stack) : Stack :=
  { s with pushes := 0, pops := 0 }

/-- Do two lists of entries have the same length and meet entry by entry? -/
def entriesMeet : List Entry → List Entry → Bool
  | [], [] => true
  | a :: as, b :: bs => a.meets b && entriesMeet as bs
  | _, _ => false

/-- Does the stack meet a snapshot taken earlier? -/
def matchesSnapshot (s : Stack) (snapshot : List Entry) : Bool :=
  entriesMeet s.entries snapshot

def text (s : Stack) : String :=
  "[" ++ Entry.describe s.bottomUp ++ "]"

end Stack

end Cil
