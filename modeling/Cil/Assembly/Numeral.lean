/-
Numbers in assembly text.

A number is an integer of 64 bits, in decimal or in hexadecimal after `0x`, or it has a point or an
exponent and is a float.  What would be an integer out of range is no number.  After a number an `e`
has to be followed by digits.
-/
import Cil.Assembly.Line
import Cil.Assembly.Scan
import Cil.Binary.Decimal
import Cil.Text.Hex

namespace Cil.Assembly

/-- The value of some digits. -/
def ofDigits (base : Nat) (digits : List Char) : Nat :=
  digits.foldl (fun n c => n * base + (Text.hexDigit? c).getD 0) 0

/-- A number as it is written. -/
structure Numeral where
  negative : Bool
  /-- The digits before the point. -/
  whole : List Char
  /-- The digits after the point, if there is one. -/
  fraction : Option (List Char)
  exponent : Option Int

namespace Numeral

/-! ### Reading -/

def sign : List Char → Bool × List Char
  | '-' :: rest => (true, rest)
  | '+' :: rest => (false, rest)
  | cs => (false, cs)

/-- Digits with an optional point among or before them, or after them. -/
def mantissa (cs : List Char) : Option (List Char × Option (List Char) × List Char) :=
  match run Char.isDigit cs with
  | ([], '.' :: rest) =>
    match run Char.isDigit rest with
    | ([], _) => none
    | (fraction, rest) => some ([], some fraction, rest)
  | ([], _) => none
  | (whole, '.' :: rest) =>
    let (fraction, rest) := run Char.isDigit rest
    some (whole, some fraction, rest)
  | (whole, rest) => some (whole, none, rest)

/-- The exponent after a number, if there is one. -/
def exponentPart : List Char → Except SyntaxError (Option Int × List Char)
  | [] => .ok (none, [])
  | c :: rest =>
    if c = 'e' ∨ c = 'E' then
      let (negative, rest) := sign rest
      match run Char.isDigit rest with
      | ([], _) => .error (.digitsMissing (String.ofList rest))
      | (digits, rest) =>
        let n : Int := ofDigits 10 digits
        .ok (some (if negative then -n else n), rest)
    else .ok (none, c :: rest)

def read (cs : List Char) : Except SyntaxError (Option (Numeral × List Char)) :=
  let (negative, rest) := sign cs
  match mantissa rest with
  | none => .ok none
  | some (whole, fraction, rest) => do
    let (exponent, rest) ← exponentPart rest
    return some ({ negative, whole, fraction, exponent }, rest)

/-! ### Value -/

/-- The integer of 64 bits with the given value. -/
def int64? (n : Int) : Option Int64 :=
  if -0x8000000000000000 ≤ n ∧ n < 0x8000000000000000 then some (Int64.ofInt n) else none

def isInteger (n : Numeral) : Bool :=
  n.fraction.isNone && n.exponent.isNone

/-- The value without its sign, exactly. -/
def decimal (n : Numeral) : Binary.Decimal :=
  let fraction := n.fraction.getD []
  ⟨ofDigits 10 (n.whole ++ fraction), n.exponent.getD 0 - fraction.length⟩

/-- The value as an operand.  There is none for an integer out of range. -/
def value? (n : Numeral) : Option Written :=
  if n.isInteger then
    let magnitude : Int := ofDigits 10 n.whole
    (int64? (if n.negative then -magnitude else magnitude)).map .integer
  else
    some (.float (UInt64.ofNat (Binary.double.ofDecimal n.negative n.decimal)))

end Numeral

def isHexDigit (c : Char) : Bool := (Text.hexDigit? c).isSome

/-- A number in hexadecimal. -/
def hexadecimal : Scan Written
  | '0' :: x :: rest =>
    if x = 'x' ∨ x = 'X' then
      match run isHexDigit rest with
      | ([], _) => none
      | (digits, rest) => (Numeral.int64? (ofDigits 16 digits)).map fun v => (.integer v, rest)
    else none
  | _ => none

def number (cs : List Char) : Except SyntaxError (Option (Written × List Char)) :=
  match hexadecimal cs with
  | some found => .ok (some found)
  | none => do
    match ← Numeral.read cs with
    | none => return none
    | some (n, rest) => return n.value?.map fun v => (v, rest)

end Cil.Assembly
