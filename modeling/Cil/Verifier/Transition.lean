/-
The transition rules.

One rule per category of opcodes says what an instruction takes from the stack and what it leaves
there.  A rule reads the stack and the frame, which is the method, its locals and the prefixes that
stand before the instruction, and it changes the stack alone.

`ofNumber`, `ofType` and the others select the rule for an instruction by the form of its operand.
They answer `none` where the opcode has no rule for that form.
-/
import Cil.DataType.Conversion
import Cil.Opcode.Rules
import Cil.Verifier.Steps

namespace Cil

/-- What a rule can see besides the stack. -/
structure Frame where
  method : Method
  /-- The locals, with their names. -/
  locals : Array (Ty × String)
  /-- The prefixes before the instruction. -/
  prefixes : List Prefix

namespace Frame

/-- The number of variables of a kind. -/
def count (f : Frame) : VariableKind → Nat
  | .argument => f.method.argumentTypes.length
  | .localVar => f.locals.size

/-- The type of a variable. -/
def typeOf? (f : Frame) (kind : VariableKind) (index : Nat) : Option Ty :=
  match kind with
  | .argument => f.method.argumentTypes[index]?
  | .localVar => f.locals[index]?.map Prod.fst

/-- Is the method a constructor, of instances or of the type itself, of the type that declares the
field? -/
def constructs (f : Frame) (field : Field) : Bool :=
  (f.method.isConstructor || f.method.name = ".cctor") &&
    f.method.declaringType.name = field.declaringType.name

end Frame

namespace Transition

/-! ### Numbers -/

/-- Pops `n` entries and gives them in the order in which they were pushed. -/
def popMany (op : Opcode) : Nat → Step Stack (List Entry)
  | 0 => pure []
  | n + 1 => do
    let last ← pop op
    return (← popMany op n) ++ [last]

/-- The entry that arithmetic leaves.  Pointer arithmetic keeps the pointer's type. -/
def arithmeticEntry (result : DataType) (operands : List Entry) : Entry :=
  match operands.find? fun e => result.isPointer && e.tag = result with
  | some e => e
  | none => .ofDataType result

def arithmetic (op : Opcode) (a : Arithmetic) : Transition := do
  let operands ← popMany op a.arity
  match a.result? (operands.map Entry.tag) with
  | some result => push op (arithmeticEntry result operands)
  | none => refuse (.noArithmeticRule op operands)

def comparison (op : Opcode) (c : Comparison) : Transition := do
  let right ← pop op
  let left ← pop op
  if c.accepts left.tag right.tag then pushType op .int32
  else refuse (.incomparable op left right)

/-- A conversion that is not verifiable is let through. -/
def conversion (op : Opcode) (target : DataType) : Transition := do
  let e ← pop op
  match Conversion.between? e.tag target with
  | some _ => push op (.ofDataType target)
  | none => refuse (.noConversion op e.tag target)

def constant (op : Opcode) : Constant → Transition
  | .int32 _ => pushType op .int32
  | .int64 => pushType op .int64
  | .float32 => pushType op .float32
  | .float64 => pushType op .float64
  | .null => push op .null
  | .string => pushType op .string

/-! ### Branches -/

/-- What a branch takes from the stack.  The operands of a comparing branch are not checked against
each other. -/
def branch (op : Opcode) : BranchKind → Transition
  | .always => pure ()
  | .leave => clear
  | .boolean _ => discard <| popOf op .booleanTestable
  | .comparison _ => do
    discard <| pop op
    discard <| pop op
  | .table => discard <| popOf op .index

/-! ### Variables and fields -/

/-- The index of the variable an instruction means: the one in the opcode, else the operand. -/
def variableIndex (index? : Option Nat) (x : Operand) : Int :=
  match index? with
  | some index => index
  | none => (x.int32?.map Int32.toInt).getD (-1)

/-- The type of the variable with a given index, if there is one. -/
def variableType? (f : Frame) (kind : VariableKind) : Int → Option Ty
  | .ofNat index => f.typeOf? kind index
  | .negSucc _ => none

def variableAccess (op : Opcode) (access : Access) (t : Ty) : Transition :=
  match access with
  | .load => pushType op t
  | .address => pushType op (.pointer t true)
  | .store => popAssignable op t

def slot (f : Frame) (op : Opcode) (access : Access) (kind : VariableKind) (index : Int) :
    Transition :=
  match variableType? f kind index with
  | some t => variableAccess op access t
  | none => refuse (.variableOutOfRange op kind index (f.count kind))

/-- Is the field's address handed out as a writable one? -/
def addressMutable (f : Frame) (field : Field) : Bool :=
  !field.isInitOnly || f.constructs field

def fieldAccess (f : Frame) (op : Opcode) (access : Access) (static : Bool) (field : Field) :
    Transition := do
  if static ≠ field.isStatic then refuse (.staticMismatch op field)
  if field.declaringType.isGeneric then refuse (.genericDefinition op field.qualifiedName)
  if access = .store then popAssignable op field.type
  if !static then popInstance op field.declaringType (access = .load)
  match access with
  | .load => pushType op field.type
  | .address => pushType op (.pointer field.type (addressMutable f field))
  | .store => pure ()

/-! ### Elements and pointers -/

/-- How an instruction names the type of what it reads or writes. -/
inductive Referent where
  | type (t : Ty)
  | data (d : DataType)

/-- The type an access works with.  An opcode that names references takes the type that is found
there, if it is a reference. -/
def Referent.resolve (actual : Option Ty) : Referent → Ty
  | type t => t
  | data .object => (actual.filter Ty.isReference).getD .object
  | data d => (Ty.ofDataType? d).getD .object

/-- Does the type that is found there, if known, have the stack type of the one wanted? -/
def agrees (actual : Option Ty) (wanted : Ty) : Bool :=
  actual.all fun t => t.stackType = wanted.stackType

/-- The type wanted of an array whose elements may be known to be of type `actual`. -/
def elementType (op : Opcode) (r : Referent) (actual : Option Ty) : Step Stack Ty :=
  let wanted := r.resolve actual
  match actual with
  | some t =>
    if agrees (some t) wanted then pure wanted
    else refuse (.typeMismatch op (wanted.name ++ "[]") (t.name ++ "[]"))
  | none => pure wanted

/-- Pops an index and an array, and gives the type of the element. -/
def popElement (op : Opcode) (r : Referent) : Step Stack Ty := do
  discard <| popOf op .index
  elementType op r (← popArray op)

def element (f : Frame) (op : Opcode) (access : Access) (r : Referent) : Transition :=
  match access with
  | .load => do pushType op (← popElement op r)
  | .address => do
    let t ← popElement op r
    pushType op (.pointer t (.readonly ∉ f.prefixes))
  | .store => do
    let value ← pop op
    requireAssignable op value (← popElement op r)

/-- Pops a pointer whose stack type is in a set, and gives the type of what it points to. -/
def popReferent (op : Opcode) (expected : DataTypeSet) (r : Referent) : Step Stack Ty := do
  let address ← popOf op expected
  let actual := address.concrete.bind Ty.element?
  let wanted := r.resolve actual
  if agrees actual wanted then return wanted
  else refuse (.typeMismatch op (wanted.name ++ "&") address.text)

/-- Reads or writes through a pointer.  A read-only pointer is not written through. -/
def indirect (op : Opcode) (access : Access) (r : Referent) : Transition :=
  match access with
  | .store => do
    let value ← pop op
    requireAssignable op value (← popReferent op (.singleton .pointer) r)
  | _ => do pushType op (← popReferent op .pointer r)

/-! ### Calls and casts -/

/-- Refuses unless the stack is empty. -/
def requireEmpty (op : Opcode) : Transition := do
  let s ← get
  if s.isEmpty then pure () else refuse (.nonEmptyStack op s.depth)

/-- Pops the instance of a call.  After `constrained.` any pointer will do. -/
def popReceiver (f : Frame) (op : Opcode) (m : Method) : Transition :=
  if m.isStatic then pure ()
  else if .constrained ∈ f.prefixes then discard <| popOf op .pointer
  else popInstance op m.declaringType false

def pushResult (op : Opcode) (m : Method) : Transition :=
  match m.returnType with
  | some t => pushType op t
  | none => pure ()

def invoke (f : Frame) (op : Opcode) (kind : CallKind) (m : Method) : Transition := do
  if m.isGeneric || m.declaringType.isGeneric then
    refuse (.genericDefinition op m.qualifiedName)
  match kind with
  | .jump => requireEmpty op
  | .loadFunction => pushType op .nativeInt
  | .loadVirtualFunction => do
    popInstance op m.declaringType false
    pushType op .nativeInt
  | .newObject => do
    if !m.isConstructor then refuse (.notAConstructor op m.qualifiedName)
    popArguments op m.parameters
    pushType op m.declaringType
  | .direct | .virtual | .indirect => do
    if kind = .indirect then discard <| popOf op (.singleton .nativeInt)
    popArguments op m.parameters
    popReceiver f op m
    pushResult op m

/-- The type of a value of type `t` as an object. -/
def boxed (t : Ty) : Ty := if t.isReference then t else .object

def cast (op : Opcode) (kind : CastKind) (t : Ty) : Transition :=
  match kind with
  | .castClass | .isInstance => do
    discard <| popOf op .reference
    pushType op (boxed t)
  | .box => do
    popAssignable op t
    pushType op (boxed t)
  | .unbox => do
    discard <| popOf op .reference
    pushType op (.pointer t false)
  | .unboxAny => do
    discard <| popOf op .reference
    pushType op t

/-! ### The rest -/

/-- Returning needs exactly the value that is returned on the stack. -/
def ret (f : Frame) (op : Opcode) : Transition := do
  let depth := (← get).depth
  match f.method.returnType with
  | none => if depth ≠ 0 then refuse (.returnMismatch op "void" depth)
  | some t =>
    if depth ≠ 1 then refuse (.returnMismatch op t.name depth)
    else popAssignable op t

/-- The rule for an opcode that belongs to no category and has no operand. -/
def simple (f : Frame) (op : Opcode) : Option Transition :=
  match op with
  | .nop | .breakpoint | .rethrow => some (pure ())
  | .dup => some do
    let e ← pop op
    push op e
    push op e
  | .pop => some (discard <| pop op)
  | .ret => some (ret f op)
  | .throw => some (discard <| popOf op .reference)
  | .ldlen => some do
    discard <| popArray op
    pushType op .nativeUInt
  | .ckfinite => some do push op (← popOf op .float)
  | .endfinally => some clear
  | .endfilter => some do
    discard <| popOf op (.singleton .int32)
    requireEmpty op
  | .arglist => some (pushType op .argumentHandle)
  | .localloc => some do
    discard <| popOf op .index
    pushType op .nativeInt
  | .cpblk => some do
    discard <| popOf op (.singleton .int32)
    discard <| popOf op .blockAddress
    discard <| popOf op .blockAddress
  | .initblk => some do
    discard <| popOf op (.singleton .int32)
    discard <| popOf op (.singleton .int32)
    discard <| popOf op .blockAddress
  | .refanytype => some do
    popAssignable op .typedReference
    pushType op .typeHandle
  | _ => none

/-- The rule for an opcode that belongs to no category and names a type. -/
def simpleType (op : Opcode) (t : Ty) : Option Transition :=
  match op with
  | .cpobj => some do
    popPointerTo op t false
    popPointerTo op t true
  | .initobj => some (popPointerTo op t true)
  | .newarr => some do
    discard <| popOf op .index
    pushType op (.array t)
  | .sizeof => some (pushType op .uint32)
  | .mkrefany => some do
    popPointerTo op t false
    pushType op .typedReference
  | .refanyval => some do
    popAssignable op .typedReference
    pushType op (.pointer t true)
  | _ => none

/-! ### The rule for an instruction -/

/-- With no operand or with a number. -/
def ofNumber (op : Opcode) (x : Operand) (f : Frame) : Option Transition :=
  match op.category with
  | .arithmetic a => some (arithmetic op a)
  | .comparison c => some (comparison op c)
  | .conversion c => some (conversion op c.target)
  | .slot access kind index? => some (slot f op access kind (variableIndex index? x))
  | .constant c => some (constant op c)
  | .element access (some d) => some (element f op access (.data d))
  | .indirect access (some d) => some (indirect op access (.data d))
  | .prefixOp _ => some (pure ())
  | .other => simple f op
  | _ => none

/-- With one label or a table of labels. -/
def ofTarget (op : Opcode) (_ : Frame) : Option Transition :=
  match op.category with
  | .branch b => some (branch op b.kind)
  | _ => none

def ofMethod (op : Opcode) (m : Method) (f : Frame) : Option Transition :=
  match op.category with
  | .call kind => some (invoke f op kind m)
  | _ => none

def ofField (op : Opcode) (field : Field) (f : Frame) : Option Transition :=
  match op.category with
  | .field access static => some (fieldAccess f op access static field)
  | _ => none

def ofType (op : Opcode) (t : Ty) (f : Frame) : Option Transition :=
  match op.category with
  | .cast kind => some (cast op kind t)
  | .element access _ => some (element f op access (.type t))
  | .indirect access _ => some (indirect op access (.type t))
  | .other => simpleType op t
  | .prefixOp _ => some (pure ())
  | _ => none

def ofMember (op : Opcode) (m : Member) (_ : Frame) : Option Transition :=
  match m with
  | .type _ => some (pushType op .typeHandle)
  | .method _ => some (pushType op .methodHandle)
  | .field _ => some (pushType op .fieldHandle)

def ofString (op : Opcode) (_ : Frame) : Option Transition :=
  some (constant op .string)

end Transition

end Cil
