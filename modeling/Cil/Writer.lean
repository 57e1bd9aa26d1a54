/-
The sink that turns a method body into bytes.

Symbolic operands become tokens, for which a provider is asked.  A branch is written with a zero offset first.
If its label is marked the offset is put in at once; otherwise a fixup waits for the mark.  Offsets
count from the end of the branch, and for a jump table from the end of the whole table.
-/
import Cil.Sink
import Cil.Symbol

namespace Cil

namespace Writer

/-- A label: its name, and its offset once it is marked. -/
structure Slot where
  name : String
  offset : Option Nat := none
  deriving DecidableEq

/-- An offset to be written once its label is marked. -/
structure Fixup where
  label : Nat
  op : Opcode
  /-- Where the bytes of the offset go. -/
  position : Nat
  /-- What the offset counts from. -/
  origin : Nat
  /-- Is the offset a single byte? -/
  short : Bool
  deriving DecidableEq

end Writer

structure Writer (π : Type := SymbolTable) where
  code : Array UInt8 := #[]
  labels : Array Writer.Slot := #[]
  /-- The fixups that wait, oldest first. -/
  fixups : List Writer.Fixup := []
  /-- The locals declared, by index. -/
  locals : Array (Ty × String) := #[]
  /-- The provider of tokens. -/
  symbols : π := by exact {}

namespace Writer

variable {π : Type}

/-- The offset at which the next instruction goes. -/
def offset (w : Writer π) : Nat := w.code.size

def bytes (w : Writer π) : List UInt8 := w.code.toList

/-- The bytes an offset takes. -/
def Fixup.width (f : Fixup) : Nat := if f.short then 1 else 4

/-- A distance fits from the negative of this up to just below it. -/
def Fixup.limit (f : Fixup) : Nat := if f.short then 0x80 else 0x80000000

def Fixup.fits (f : Fixup) (distance : Int) : Bool :=
  -(f.limit : Int) ≤ distance && distance < f.limit

/-- The bytes of a distance. -/
def Fixup.bytes (f : Fixup) (distance : Int) : List UInt8 :=
  Code.littleEndian f.width (Operand.int32 (Int32.ofInt distance)).bits

/-- Writes over the bytes from `position` on. -/
def overwrite (code : Array UInt8) (position : Nat) : List UInt8 → Array UInt8
  | [] => code
  | b :: rest => overwrite (code.setIfInBounds position b) (position + 1) rest

def refuse {α : Type} (e : WriteError) : Step (Writer π) α := throw (.write e)

/-- Appends an instruction. -/
def write (i : Instruction) : Step (Writer π) Unit := fun w =>
  match i.encodeInto w.code with
  | .ok _ code => .ok () { w with code }
  | .error e code => .error (.write e) { w with code }

/-- Asks the provider for a token. -/
def ask (request : π → Token × π) : Step (Writer π) Token := fun w =>
  match request w.symbols with
  | (token, symbols) => .ok token { w with symbols }

/-- Appends an instruction whose operand is a token. -/
def writeToken (op : Opcode) (request : π → Token × π) : Step (Writer π) Unit := do
  let token ← ask request
  write (.plain op (.token token))

/-- Puts the distance to a marked label in place. -/
def patch (f : Fixup) : Step (Writer π) Unit := fun w =>
  match w.labels[f.label]? with
  | none => .error (.write (.unknownLabel f.label)) w
  | some slot =>
    match slot.offset with
    | none => .error (.write (.unmarkedLabel slot.name)) w
    | some target =>
      let distance := (target : Int) - f.origin
      if f.fits distance then
        .ok () { w with code := overwrite w.code f.position (f.bytes distance) }
      else .error (.write (.branchOutOfRange f.op slot.name distance)) w

/-- Puts a distance in place now if its label is marked, and later otherwise. -/
def refer (f : Fixup) : Step (Writer π) Unit := fun w =>
  match w.labels[f.label]? with
  | none => .error (.write (.unknownLabel f.label)) w
  | some slot =>
    match slot.offset with
    | some _ => patch f w
    | none => .ok () { w with fixups := w.fixups ++ [f] }

/-- Binds a label to the end of the code and settles the fixups that waited for it. -/
def mark (label : Nat) : Step (Writer π) Unit := fun w =>
  match w.labels[label]? with
  | none => .error (.write (.unknownLabel label)) w
  | some slot =>
    if slot.offset.isSome then .error (.write (.labelAlreadyMarked slot.name)) w
    else
      let (ready, waiting) := w.fixups.partition (·.label = label)
      let labels := w.labels.setIfInBounds label { slot with offset := some w.offset }
      ready.forM patch { w with labels, fixups := waiting }

/-- Writes a branch to a label. -/
def branch (op : Opcode) (target : Nat) : Step (Writer π) Unit :=
  match op.category with
  | .branch b =>
    if b.kind = .table then refuse (.invalidOperand op (.label target))
    else do
      write (.plain op (.int32 0))
      let origin := (← get).offset
      let width := if b.short then 1 else 4
      refer { label := target, op, position := origin - width, origin, short := b.short }
  | _ => refuse (.invalidOperand op (.label target))

/-- Refers the entries of a jump table, the first of which stands at `position`. -/
def referTable (origin : Nat) : Nat → List Nat → Step (Writer π) Unit
  | _, [] => pure ()
  | position, target :: rest => do
    refer { label := target, op := .switch, position, origin, short := false }
    referTable origin (position + 4) rest

/-- Writes a jump table. -/
def switch (targets : List Nat) : Step (Writer π) Unit := do
  write (.switch (targets.map fun _ => 0))
  let origin := (← get).offset
  referTable origin (origin - 4 * targets.length) targets

/-- The token by which a call instruction refers to its method. -/
def calledToken [TokenProvider π] (op : Opcode) (m : Method) : π → Token × π :=
  if op.category = .call .indirect then TokenProvider.signatureToken m
  else TokenProvider.methodToken m

/-- Ends the body.  No fixup may be left. -/
def finish : Step (Writer π) Unit := fun w =>
  match w.fixups with
  | [] => .ok () w
  | f :: _ =>
    match w.labels[f.label]? with
    | none => .error (.write (.unknownLabel f.label)) w
    | some slot => .error (.write (.unmarkedLabel slot.name)) w

/-- Receives a call.  A local's index has sixteen bits. -/
def step [TokenProvider π] : Call → Step (Writer π) (Option Nat)
  | .declareLocal t name => fun w =>
    .ok (some (w.locals.size % 65536)) { w with locals := w.locals.push (t, name) }
  | .createLabel name => fun w =>
    .ok (some w.labels.size) { w with labels := w.labels.push { name } }
  | .markLabel label => do mark label; return none
  | .emit op x => do write (.plain op x); return none
  | .branch op target => do branch op target; return none
  | .switch targets => do switch targets; return none
  | .invoke op m => do writeToken op (calledToken op m); return none
  | .field op f => do writeToken op (TokenProvider.fieldToken f); return none
  | .type op t => do writeToken op (TokenProvider.typeToken t); return none
  | .token op m => do writeToken op (TokenProvider.memberToken m); return none
  | .string op value => do writeToken op (TokenProvider.stringToken value); return none
  | .finish => do finish; return none

instance [TokenProvider π] : Sink (Writer π) where
  step := step

end Writer

end Cil
