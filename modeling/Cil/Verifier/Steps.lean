/-
Pushing and popping under a rule.

Each step names the opcode it belongs to, for the message if it is refused.  A popped entry stays
popped when it is then found to be of the wrong type.
-/
import Cil.Rejection

namespace Cil

/-- The effect of an instruction on the stack. -/
abbrev Transition := Step Stack Unit

namespace Transition

def refuse {σ α : Type} (v : Violation) : Step σ α := throw (.violation v)

def push (op : Opcode) (e : Entry) : Transition := fun s =>
  match s.push? e with
  | some s => .ok () s
  | none => .error (.violation (.stackOverflow op s.maxDepth)) s

def pushType (op : Opcode) (t : Ty) : Transition := push op (.of t)

def pop (op : Opcode) : Step Stack Entry := fun s =>
  match s.pop? with
  | some (e, s) => .ok e s
  | none => .error (.violation (.stackUnderflow op)) s

/-- Removes all entries. -/
def clear : Transition := modify Stack.clear

/-- Pops a value whose stack type is in a set. -/
def popOf (op : Opcode) (expected : DataTypeSet) : Step Stack Entry := do
  let e ← pop op
  if expected.contains e.tag then return e
  else refuse (.unexpectedStackType op expected e.tag)

/-- Refuses a value that is not usable where one of type `t` is wanted. -/
def requireAssignable (op : Opcode) (e : Entry) (t : Ty) : Transition :=
  if e.isAssignable t then pure () else refuse (.typeMismatch op t.name e.text)

/-- Pops a value that is usable where one of type `t` is wanted. -/
def popAssignable (op : Opcode) (t : Ty) : Transition := do
  requireAssignable op (← pop op) t

/-- Pops a pointer to `t`.  A read-only one will do unless `mutable` is set. -/
def popPointerTo (op : Opcode) (t : Ty) (mutable : Bool) : Transition :=
  popAssignable op (.pointer t mutable)

/-- Pops an array and gives its element type, which is not known for a null reference. -/
def popArray (op : Opcode) : Step Stack (Option Ty) := do
  let e ← pop op
  if e.isNull then return none
  match e.concrete with
  | some (.array element) => return some element
  | _ => refuse (.typeMismatch op "an array" e.text)

/-- Pops values for parameters, the last one first. -/
def popArguments (op : Opcode) (parameters : List Ty) : Transition :=
  parameters.reverse.forM (popAssignable op)

/-- Is the value usable as an instance of a type?  An instance of a value type is given by
reference, or by value where that is allowed. -/
def isInstance (e : Entry) (declaringType : Ty) (byValue : Bool) : Bool :=
  if declaringType.isValueType then
    e.isAssignable (.pointer declaringType false) || (byValue && e.isAssignable declaringType)
  else e.isAssignable declaringType

/-- Pops the instance through which a member is used. -/
def popInstance (op : Opcode) (declaringType : Ty) (byValue : Bool) : Transition := do
  let e ← pop op
  if isInstance e declaringType byValue then pure ()
  else refuse (.typeMismatch op declaringType.name e.text)

end Transition

end Cil
