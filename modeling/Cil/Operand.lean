/-
Operand values.

A value is kept as the kind of number it was decoded or written as.  Tokens and the 32-bit integers
share their bits and can be read as one another; no other value reads as a kind it is not.  Floats
are kept as their bits, so that every pattern survives.
-/
import Cil.Binary.Decimal
import Cil.Operand.Kind
import Cil.Text.Hex

namespace Cil

/-- A metadata token: a table number in the high byte and a row in the low three. -/
structure Token where
  bits : UInt32
  deriving DecidableEq, Repr, Inhabited

namespace Token

/-- The token of a table's row.  A row past the low three bytes wraps. -/
def make (table : UInt8) (row : UInt32) : Token :=
  ⟨(table.toUInt32 <<< 24) ||| (row &&& 0x00FFFFFF)⟩

def table (t : Token) : UInt8 :=
  (t.bits >>> 24).toUInt8

def row (t : Token) : UInt32 :=
  t.bits &&& 0x00FFFFFF

def text (t : Token) : String :=
  "0x" ++ Text.hexUpper 8 t.bits.toNat

end Token

/-- The value of an inline operand. -/
inductive Operand where
  | none
  | int32 (value : Int32)
  | uint32 (value : UInt32)
  | int64 (value : Int64)
  /-- A float of four bytes, by its bits. -/
  | float32 (bits : UInt32)
  /-- A float of eight bytes, by its bits. -/
  | float64 (bits : UInt64)
  | token (t : Token)
  deriving DecidableEq, Inhabited

namespace Operand

def text : Operand → String
  | none => ""
  | int32 v => toString v.toInt
  | uint32 v => toString v.toNat
  | int64 v => toString v.toInt
  | float32 bits => Binary.single.text bits.toNat
  | float64 bits => Binary.double.text bits.toNat
  | token t => t.text

/-! ### Readings -/

def int32? : Operand → Option Int32
  | int32 v => some v
  | token t => some t.bits.toInt32
  | _ => Option.none

def uint32? : Operand → Option UInt32
  | uint32 v => some v
  | token t => some t.bits
  | _ => Option.none

def int64? : Operand → Option Int64
  | int64 v => some v
  | _ => Option.none

def float32? : Operand → Option UInt32
  | float32 bits => some bits
  | _ => Option.none

def float64? : Operand → Option UInt64
  | float64 bits => some bits
  | _ => Option.none

def token? : Operand → Option Token
  | token t => some t
  | int32 v => some ⟨v.toUInt32⟩
  | _ => Option.none

/-! ### Fitting an operand kind -/

/-- Does the integer lie between the bounds, both included? -/
def within (low high : Int) (v : Int32) : Bool :=
  low ≤ v.toInt && v.toInt ≤ high

/-- Is this a value that an operand of the kind can hold? -/
def fits (x : Operand) (kind : OperandKind) : Bool :=
  match x, kind with
  | none, .none => true
  | int32 v, .int8 | int32 v, .shortTarget => within (-128) 127 v
  | int32 v, .shortVar => within 0 255 v
  | int32 v, .var => within 0 65535 v
  | int32 _, .int32 | int32 _, .target => true
  | int64 _, .int64 => true
  | float32 _, .float32 => true
  | float64 _, .float64 => true
  | token _, k | int32 _, k => k.isToken
  | _, _ => false

end Operand

end Cil
