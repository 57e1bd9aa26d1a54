/-
The calls by which a method body is delivered, and what receives them.

A body arrives one call at a time: locals and labels are declared, labels are bound to positions,
instructions are emitted with the operand their opcode needs, and `finish` ends the body.  Labels
and locals are known by the indices the receiver hands out.

A sink is anything that receives such calls.  Two small ones stand here: one that keeps every call
and one that keeps nothing.
-/
import Cil.Rejection
import Cil.Ty.Member

namespace Cil

inductive Call where
  | declareLocal (t : Ty) (name : String)
  | createLabel (name : String)
  /-- Binds a label to the position of the next instruction. -/
  | markLabel (label : Nat)
  /-- An instruction with no operand or with a number. -/
  | emit (op : Opcode) (operand : Operand)
  | branch (op : Opcode) (target : Nat)
  | switch (targets : List Nat)
  | invoke (op : Opcode) (m : Method)
  | field (op : Opcode) (f : Field)
  | type (op : Opcode) (t : Ty)
  | token (op : Opcode) (m : Member)
  | string (op : Opcode) (value : String)
  | finish

/-- The opcode of a call that emits an instruction. -/
def Call.opcode? : Call → Option Opcode
  | emit op _ | branch op _ | invoke op _ | field op _ | type op _ | token op _ | string op _ =>
    some op
  | switch _ => some .switch
  | _ => none

/-- A receiver of calls.  The answer is the index of the local or label a call made. -/
class Sink (σ : Type) where
  step : Call → Step σ (Option Nat)

/-! ### A sink that keeps every call -/

structure Recorder where
  /-- The calls so far, in order. -/
  calls : Array Call := #[]
  /-- The number of labels made. -/
  labels : Nat := 0
  /-- The number of locals made. -/
  locals : Nat := 0

namespace Recorder

def record (c : Call) (r : Recorder) : Option Nat × Recorder :=
  let kept := { r with calls := r.calls.push c }
  match c with
  | .declareLocal .. => (some r.locals, { kept with locals := r.locals + 1 })
  | .createLabel _ => (some r.labels, { kept with labels := r.labels + 1 })
  | _ => (none, kept)

instance : Sink Recorder where
  step c := fun r =>
    match record c r with
    | (reply, r) => .ok reply r

/-- The opcodes of the instructions received, in order. -/
def opcodes (r : Recorder) : List Opcode :=
  r.calls.toList.filterMap Call.opcode?

end Recorder

/-! ### A sink that keeps nothing -/

structure Discard where
  /-- The number of labels made. -/
  labels : Nat := 0
  /-- The number of locals made. -/
  locals : Nat := 0

namespace Discard

def count (c : Call) (d : Discard) : Option Nat × Discard :=
  match c with
  | .declareLocal .. => (some d.locals, { d with locals := d.locals + 1 })
  | .createLabel _ => (some d.labels, { d with labels := d.labels + 1 })
  | _ => (none, d)

instance : Sink Discard where
  step c := fun d =>
    match count c d with
    | (reply, d) => .ok reply d

end Discard

end Cil
