/-
Instructions as bytes.

An instruction is its opcode, one byte or the escape byte and a second one, and then the operand's
low bytes, least significant first, as many as the operand's kind has.  A `switch` is followed by
the number of its targets and one offset for each.

Instructions are appended to a buffer, first the opcode and then the operand.  Whether the opcode can
hold the operand is asked before anything is appended.
-/
import Cil.Code.Bytes
import Cil.Instruction

namespace Cil

/-- What was offered where an operand was wanted. -/
inductive Offer where
  | value (x : Operand)
  | label (index : Nat)
  deriving DecidableEq

def Offer.text : Offer → String
  | value x => x.text
  | label index => "label L" ++ toString index

/-- Why code cannot be written. -/
inductive WriteError where
  /-- The distance to a label does not fit the branch. -/
  | branchOutOfRange (op : Opcode) (label : String) (offset : Int)
  | unmarkedLabel (label : String)
  | labelAlreadyMarked (label : String)
  | unknownLabel (index : Nat)
  | invalidOperand (op : Opcode) (offer : Offer)
  deriving DecidableEq

/-- How a misfit between an opcode and its operand is told. -/
def misfitMessage (op : Opcode) (operand : String) : String :=
  op.mnemonic ++ ": operand " ++ operand ++ " does not fit " ++ op.operandKind.name

def WriteError.message : WriteError → String
  | branchOutOfRange op label offset =>
    op.mnemonic ++ ": offset " ++ toString offset ++ " to label " ++ label ++
      " does not fit the short form"
  | unmarkedLabel label => "label " ++ label ++ " is targeted but never marked"
  | labelAlreadyMarked label => "label " ++ label ++ " is already marked"
  | unknownLabel index => "no label with index " ++ toString index
  | invalidOperand op offer => misfitMessage op offer.text

/-- The bits of a value, as a number. -/
def Operand.bits : Operand → Nat
  | none => 0
  | int32 v => v.toUInt32.toNat
  | uint32 v => v.toNat
  | int64 v => v.toUInt64.toNat
  | float32 bits => bits.toNat
  | float64 bits => bits.toNat
  | token t => t.bits.toNat

/-- The bytes of a value as an operand of the given kind, if it is a value of that kind.  Where there
is no operand there are no bytes, whatever the value. -/
def Operand.bytes? (x : Operand) (kind : OperandKind) : Option (List UInt8) :=
  match kind, x with
  | .none, _ => some []
  | .int8, int32 v | .shortTarget, int32 v | .shortVar, int32 v =>
    some (Code.littleEndian 1 v.toUInt32.toNat)
  | .var, int32 v => some (Code.littleEndian 2 v.toUInt32.toNat)
  | .int32, int32 v | .target, int32 v => some (Code.littleEndian 4 v.toUInt32.toNat)
  | .int64, int64 v => some (Code.littleEndian 8 v.toUInt64.toNat)
  | .float32, float32 bits => some (Code.littleEndian 4 bits.toNat)
  | .float64, float64 bits => some (Code.littleEndian 8 bits.toNat)
  | k, x =>
    match x.token? with
    | some t => if k.isToken then some (Code.littleEndian 4 t.bits.toNat) else Option.none
    | Option.none => Option.none

/-- The bytes of an opcode. -/
def Opcode.bytes (op : Opcode) : List UInt8 :=
  if op.isTwoByte then [Opcode.escape, op.code.toUInt8] else [op.code.toUInt8]

/-- The bytes of a branch offset of four bytes. -/
def offsetBytes (o : Int32) : List UInt8 :=
  Code.littleEndian 4 o.toUInt32.toNat

namespace Instruction

/-- The bytes of a well-formed instruction. -/
def bytes : Instruction → List UInt8
  | plain op x => op.bytes ++ Code.littleEndian (op.operandKind.size?.getD 0) x.bits
  | switch offsets =>
    Opcode.switch.bytes ++ Code.littleEndian 4 offsets.length ++ offsets.flatMap offsetBytes

/-- The bytes after the opcode, if the operand has any. -/
def operandBytes? : Instruction → Option (List UInt8)
  | plain op x => x.bytes? op.operandKind
  | switch offsets => some (Code.littleEndian 4 offsets.length ++ offsets.flatMap offsetBytes)

/-- The error of an instruction whose opcode cannot hold the operand. -/
def misfit (i : Instruction) : WriteError :=
  .invalidOperand i.opcode (.value (i.operand?.getD .none))

/-- Appends an instruction to a buffer, if its opcode can hold the operand. -/
def encodeInto (i : Instruction) : EStateM WriteError (Array UInt8) Unit := fun buffer =>
  if i.isWellFormed then
    let opened := buffer.appendList i.opcode.bytes
    match i.operandBytes? with
    | some operand => .ok () (opened.appendList operand)
    | none => .error i.misfit opened
  else .error i.misfit buffer

/-- The bytes of an instruction, if its opcode can hold the operand. -/
def encode (i : Instruction) : Except WriteError (List UInt8) :=
  match i.encodeInto #[] with
  | .ok _ buffer => .ok buffer.toList
  | .error e _ => .error e

end Instruction

end Cil
