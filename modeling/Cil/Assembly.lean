/-
Assembling a text into a sink.

The opcode decides what its operand may be and where a name is looked up: labels and locals among
those of the text, members and types in an environment.  A label is made when it is first named.  Of
several locals with one name the latest is meant.

The first line that fails ends the work.  The sink has then received everything before it.
-/
import Cil.Assembly.Grammar
import Cil.Sink
import Cil.Text.Lines
import Cil.Ty.Environment

namespace Cil

/-- Why a text cannot be assembled, with the number of the line. -/
inductive AssemblyError where
  | malformed (line : Nat) (e : Assembly.SyntaxError)
  | unknownOpcode (line : Nat) (name : String)
  | unknownMember (line : Nat) (name : String)
  /-- The operand is not of the kind that the opcode takes. -/
  | operandMismatch (line : Nat) (op : Opcode)
  /-- The sink refused a call. -/
  | rejected (line : Nat) (r : Rejection)

namespace AssemblyError

def line : AssemblyError → Nat
  | malformed line _ | unknownOpcode line _ | unknownMember line _ | operandMismatch line _
  | rejected line _ => line

/-- What is wrong, without the line. -/
def cause : AssemblyError → String
  | malformed _ e => "syntax error: " ++ e.message
  | unknownOpcode _ name => "unknown opcode " ++ name
  | unknownMember _ name => "unknown type or member " ++ name
  | operandMismatch _ op =>
    op.mnemonic ++ " expects an operand of kind " ++ op.operandKind.name
  | rejected _ r => r.message

def message (e : AssemblyError) : String :=
  "line " ++ toString e.line ++ ": " ++ e.cause

end AssemblyError

/-- A sink together with the names used in the text so far. -/
structure Assembler (σ : Type) where
  sink : σ
  /-- The labels named so far, with their indices. -/
  labels : List (String × Nat) := []
  /-- The locals declared so far, the latest first. -/
  locals : List (String × Nat) := []

namespace Assembler

open Assembly (Written Statement Line)

variable {σ : Type}

/-- A step of assembling.  A step that fails keeps the changes it made before. -/
abbrev Work (σ α : Type) := EStateM AssemblyError (Assembler σ) α

/-- Makes a call to the sink, on behalf of a line. -/
def send [Sink σ] (line : Nat) (c : Call) : Work σ (Option Nat) := fun a =>
  match Sink.step c a.sink with
  | .ok reply sink => .ok reply { a with sink }
  | .error r sink => .error (.rejected line r) { a with sink }

/-- The index of a label, which is made if it was not named before. -/
def label [Sink σ] (line : Nat) (name : String) : Work σ Nat := do
  match (← get).labels.lookup name with
  | some index => return index
  | none =>
    let index := (← send line (.createLabel name)).getD 0
    modify fun a => { a with labels := (name, index) :: a.labels }
    return index

/-- What a name means, or the error that it is unknown. -/
def resolve {α : Type} (line : Nat) (name : String) (found : Option α) : Work σ α :=
  match found with
  | some x => return x
  | none => throw (.unknownMember line name)

/-- An integer of 32 bits.  A negative one may also be given by its bits. -/
def int32? (v : Int64) : Option Int32 :=
  if -0x80000000 ≤ v.toInt ∧ v.toInt < 0x100000000 then some (Int32.ofInt v.toInt) else none

/-- The call for an instruction. -/
def callFor [Sink σ] (env : Environment) (line : Nat) (op : Opcode) (operand : Option Written) :
    Work σ Call := do
  match op.operandKind, operand with
  | .none, none => return .emit op .none
  | .int8, some (.integer v) | .int32, some (.integer v)
  | .shortVar, some (.integer v) | .var, some (.integer v) =>
    match int32? v with
    | some v => return .emit op (.int32 v)
    | none => throw (.operandMismatch line op)
  | .shortVar, some (.name n) | .var, some (.name n) =>
    let index ← resolve line n ((← get).locals.lookup n)
    return .emit op (.int32 (Int32.ofNat index))
  | .int64, some (.integer v) => return .emit op (.int64 v)
  | .float32, some (.float bits) =>
    return .emit op (.float32 (UInt32.ofNat (Binary.double.convert Binary.single bits.toNat)))
  | .float32, some (.integer v) =>
    return .emit op (.float32 (UInt32.ofNat (Binary.single.ofInt v.toInt)))
  | .float64, some (.float bits) => return .emit op (.float64 bits)
  | .float64, some (.integer v) =>
    return .emit op (.float64 (UInt64.ofNat (Binary.double.ofInt v.toInt)))
  | .shortTarget, some (.name n) | .target, some (.name n) =>
    return .branch op (← label line n)
  | .table, some (.labels names) => return .switch (← names.mapM (label line))
  | .method, some (.name n) | .signature, some (.name n) =>
    return .invoke op (← resolve line n (env.methodNamed? n))
  | .field, some (.name n) => return .field op (← resolve line n (env.fieldNamed? n))
  | .type, some (.name n) => return .type op (← resolve line n (env.typeNamed? n))
  | .member, some (.name n) => return .token op (← resolve line n (env.memberNamed? n))
  | .string, some (.string value) => return .string op value
  | _, _ => throw (.operandMismatch line op)

/-- Marks the label that a line defines. -/
def define [Sink σ] (line : Nat) : Option String → Work σ Unit
  | none => pure ()
  | some name => do discard <| send line (.markLabel (← label line name))

def statement [Sink σ] (env : Environment) (line : Nat) : Statement → Work σ Unit
  | .locals typeName name => do
    let t ← resolve line typeName (env.typeNamed? typeName)
    let index := (← send line (.declareLocal t name)).getD 0
    modify fun a => { a with locals := (name, index) :: a.locals }
  | .instruction mnemonic operand =>
    match Opcode.ofMnemonic? mnemonic with
    | none => throw (.unknownOpcode line mnemonic)
    | some op => do discard <| send line (← callFor env line op operand)

/-- Assembles a line. -/
def oneLine [Sink σ] (env : Environment) (line : Nat) (text : String) : Work σ Unit :=
  match Line.parse text with
  | .error e => throw (.malformed line e)
  | .ok parsed => do
    define line parsed.label
    match parsed.statement with
    | none => pure ()
    | some s => statement env line s

/-- Assembles lines, the first of which has the given number, and ends the body. -/
def allLines [Sink σ] (env : Environment) : Nat → List String → Work σ Unit
  | line, [] => discard <| send line .finish
  | line, text :: rest => do
    oneLine env line text
    allLines env (line + 1) rest

end Assembler

/-- Assembles a text into a sink. -/
def assemble {σ : Type} [Sink σ] (env : Environment) (text : String) (sink : σ) :
    Except AssemblyError Unit × σ :=
  match Assembler.allLines env 1 (Text.lines text) { sink } with
  | .ok _ a => (.ok (), a.sink)
  | .error e a => (.error e, a.sink)

end Cil
