/-
Checking calls one at a time.

The checker follows a method body with a simulated stack.  It keeps no code: the state is the
stack, the locals and labels declared, the prefixes that wait for their instruction, and whether
control can reach the next instruction from the one before.

`accept` checks a call and gives the call to pass on, in which labels carry the receiver's indices.
`settle` takes note of the local or label that the receiver made.
-/
import Cil.Label
import Cil.Sink
import Cil.Text.Table
import Cil.Verifier.Transition

namespace Cil

/-- The method to be checked. -/
structure Subject where
  method : Method
  /-- The depth the stack may reach: any number, since nothing is allocated for it (`Stack.empty`). -/
  maxStack : Nat := 8
  /-- Are the locals set to zero on entry? -/
  localsZeroed : Bool := true

structure Checker where
  subject : Subject
  /-- The locals declared, by index. -/
  locals : Array (Ty × String) := #[]
  labels : LabelTable := {}
  stack : Stack
  /-- Can control reach the next instruction from the one before? -/
  reachable : Bool := true
  /-- The prefixes that wait for their instruction, the latest first. -/
  pending : List Prefix := []

namespace Checker

/-- The state before the first call. -/
def start (s : Subject) : Checker :=
  { subject := s, stack := .empty s.maxStack }

/-- The highest index a local can have. -/
def maxLocal : Nat := 65535

/-! ### Parts of the state -/

/-- Runs a step on the stack. -/
def onStack {α : Type} (m : Step Stack α) : Step Checker α := fun k =>
  match m k.stack with
  | .ok a stack => .ok a { k with stack }
  | .error e stack => .error e { k with stack }

/-- Runs a step on the labels. -/
def onLabels {α : Type} (m : Step LabelTable α) : Step Checker α := fun k =>
  match m k.labels with
  | .ok a labels => .ok a { k with labels }
  | .error e labels => .error e { k with labels }

/-- The label with the given index. -/
def label (index : Nat) : Step Checker Label := fun k =>
  match k.labels.find index with
  | .ok l => .ok l k
  | .error e => .error e k

def refuse {α : Type} (v : Violation) : Step Checker α := throw (.violation v)

/-- What the rules can see, with the prefixes that stand before the instruction. -/
def frame (k : Checker) (prefixes : List Prefix) : Frame :=
  { method := k.subject.method, locals := k.locals, prefixes }

/-! ### Instructions -/

/-- Control enters here with the given entries, unless it comes from the instruction before. -/
def enter (entries : List Entry) (k : Checker) : Checker :=
  if k.reachable then k
  else { k with stack := k.stack.restore entries, reachable := true }

/-- Takes up the prefixes for an instruction, or adds the instruction to them if it is one. -/
def takePrefixes (op : Opcode) : Step Checker (List Prefix) := fun k =>
  match op.category with
  | .prefixOp p =>
    if p ∈ k.pending then .error (.violation (.repeatedPrefix p)) k
    else .ok [] { k with pending := p :: k.pending }
  | _ =>
    match k.pending with
    | [] => .ok [] k
    | last :: rest =>
      if (last :: rest).all (· ∈ op.prefixes) then .ok (last :: rest) { k with pending := [] }
      else .error (.violation (.illegalPrefix last op)) k

/-- Takes up an instruction.  Code that no label introduces starts with an empty stack after an
instruction that control does not leave at its end. -/
def begin (op : Opcode) : Step Checker (List Prefix) := do
  modify (enter [])
  modify fun k => { k with stack := k.stack.resetCounts }
  takePrefixes op

/-- Carries the current stack to every target. -/
def reachAll (targets : List Nat) : Step Checker Unit := do
  let entries := (← get).stack.entries
  targets.forM fun target => onLabels (LabelTable.reach target entries true)

/-- Checks an instruction by its rule. -/
def instruction (op : Opcode) (rule : Frame → Option Transition) (targets : List Nat) :
    Step Checker Unit := do
  let prefixes ← begin op
  match rule ((← get).frame prefixes) with
  | none => throw (.unsupported (.noRule op))
  | some transition => onStack transition
  reachAll targets
  if op.endsFlow then modify fun k => { k with reachable := false }

/-- Refuses an operand form that the opcode does not take. -/
def requireForm (op : Opcode) (takes : Bool) (form : String) : Step Checker Unit :=
  if takes then pure () else refuse (.wrongOperandForm op form)

/-- Does the opcode branch to a single label? -/
def branchesToOne (op : Opcode) : Bool :=
  op.category.branch?.any fun b => b.kind ≠ .table

/-! ### Calls -/

/-- Binds a label here.  Where control does not come from the instruction before, the stack is the
one that the branches bring. -/
def mark (index : Nat) : Step Checker Label := do
  onLabels (LabelTable.mark index)
  let l ← label index
  modify (enter (l.snapshot.getD []))
  let entries := (← get).stack.entries
  onLabels (LabelTable.reach index entries false)
  return l

/-- Checks an instruction with no operand or with a number. -/
def number (op : Opcode) (x : Operand) : Step Checker Unit := do
  if op.operandKind.isSymbolic then throw (.unsupported (.requiresSymbolicOperand op))
  if !x.fits op.operandKind then refuse (.invalidOperand op x)
  instruction op (Transition.ofNumber op x) []

/-- Checks the end of the body. -/
def finish : Step Checker Unit := do
  let k ← get
  match k.pending with
  | last :: _ => refuse (.danglingPrefix last)
  | [] => pure ()
  match k.labels.firstUnmarkedTarget? with
  | some l => refuse (.unmarkedLabel l.name)
  | none => pure ()
  if k.reachable then refuse .fallThroughEnd
  if k.locals.size ≠ 0 && !k.subject.localsZeroed then refuse .localsNotZeroed

/-- Checks a call.  The answer is the call to pass on. -/
def accept : Call → Step Checker Call
  | .declareLocal t name => do
    let count := (← get).locals.size
    if maxLocal < count then refuse (.variableOutOfRange .stloc .localVar count maxLocal)
    return .declareLocal t name
  | .createLabel name => return .createLabel name
  | .markLabel index => return .markLabel (← mark index).downstream
  | .emit op x => do
    number op x
    return .emit op x
  | .branch op target => do
    requireForm op (branchesToOne op) "a label"
    let l ← label target
    instruction op (Transition.ofTarget op) [target]
    return .branch op l.downstream
  | .switch targets => do
    let ls ← targets.mapM label
    instruction .switch (Transition.ofTarget .switch) targets
    return .switch (ls.map Label.downstream)
  | .invoke op m => do
    requireForm op op.category.call?.isSome "a method"
    instruction op (Transition.ofMethod op m) []
    return .invoke op m
  | .field op f => do
    requireForm op op.category.isField "a field"
    instruction op (Transition.ofField op f) []
    return .field op f
  | .type op t => do
    requireForm op (op.operandKind = .type) "a type"
    instruction op (Transition.ofType op t) []
    return .type op t
  | .token op m => do
    requireForm op (op.operandKind = .member) "a member token"
    instruction op (Transition.ofMember op m) []
    return .token op m
  | .string op value => do
    requireForm op (op.operandKind = .string) "a string"
    instruction op (Transition.ofString op) []
    return .string op value
  | .finish => do
    finish
    return .finish

/-- Takes note of the local or label that the receiver made, and gives its index here. -/
def settle (c : Call) (reply : Option Nat) (k : Checker) : Option Nat × Checker :=
  match c with
  | .declareLocal t name => (some k.locals.size, { k with locals := k.locals.push (t, name) })
  | .createLabel name =>
    (some k.labels.labels.size, { k with labels := k.labels.create name (reply.getD 0) })
  | _ => (none, k)

/-! ### The state as text -/

/-- What the stack, its top first, the arguments and the locals hold. -/
def slots (k : Checker) : List (String × String) :=
  (k.stack.bottomUp.mapIdx fun i e => ("stack[" ++ toString i ++ "]", e.text)).reverse ++
    (k.subject.method.argumentTypes.mapIdx fun i t => ("arg[" ++ toString i ++ "]", t.name)) ++
    k.locals.toList.mapIdx fun i (t, name) => (name ++ " (loc[" ++ toString i ++ "])", t.name)

/-- The method, whether the state is reachable and a table of the slots.  There is none if a name
has no width. -/
def text? (k : Checker) : Option String := do
  let title ← Text.Row.ofTexts? "Slot" "Type"
  let rows ← k.slots.mapM fun (slot, type) => Text.Row.ofTexts? (slot ++ " =") type
  return k.subject.method.text ++ (if k.reachable then " (reachable)\n" else " (unreachable)\n") ++
    Text.renderTable title rows

end Checker

end Cil
