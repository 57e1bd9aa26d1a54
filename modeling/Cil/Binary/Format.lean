/-
Binary interchange formats.

A number is kept as its bits: a sign, an exponent field and a fraction field.  `Format.decode`
reads a finite number as a significand and a power of two, and `Format.round` finds the bits of the
number nearest to an exact quotient.  Everything is integer arithmetic, so no bit depends on a
processor.
-/
namespace Cil.Binary

/-- A binary interchange format, by the widths of its fields. -/
structure Format where
  exponentBits : Nat
  fractionBits : Nat

/-- The format of four bytes. -/
def single : Format := ⟨8, 23⟩

/-- The format of eight bytes. -/
def double : Format := ⟨11, 52⟩

/-- What the bits of a format stand for. -/
inductive Datum where
  | nan
  | infinite (negative : Bool)
  /-- `significand * 2 ^ exponent`, with a sign. -/
  | finite (negative : Bool) (significand : Nat) (exponent : Int)

namespace Format

def bias (f : Format) : Nat :=
  (1 <<< (f.exponentBits - 1)) - 1

/-- The exponent of the last place of the smallest numbers. -/
def minExponent (f : Format) : Int :=
  1 - (f.bias : Int) - f.fractionBits

/-- The bits of positive infinity. -/
def infinity (f : Format) : Nat :=
  ((1 <<< f.exponentBits) - 1) <<< f.fractionBits

/-- The bits of a number that is not a number. -/
def quietNaN (f : Format) : Nat :=
  f.infinity + (1 <<< (f.fractionBits - 1))

/-- The bit that makes a number negative, if it is to be. -/
def sign (f : Format) (negative : Bool) : Nat :=
  if negative then 1 <<< (f.exponentBits + f.fractionBits) else 0

/-- What `bits` stand for. -/
def decode (f : Format) (bits : Nat) : Datum :=
  let negative := bits.testBit (f.exponentBits + f.fractionBits)
  let exponent := (bits >>> f.fractionBits) % (1 <<< f.exponentBits)
  let fraction := bits % (1 <<< f.fractionBits)
  if exponent = (1 <<< f.exponentBits) - 1 then
    if fraction = 0 then .infinite negative else .nan
  else if exponent = 0 then
    .finite negative fraction f.minExponent
  else
    .finite negative ((1 <<< f.fractionBits) + fraction) (f.minExponent + exponent - 1)

/-- `num / den` rounded to the nearest integer, a half to the even neighbour. -/
def roundHalfEven (num den : Nat) : Nat :=
  let q := num / den
  let r := 2 * (num % den)
  if r < den then q
  else if den < r then q + 1
  else q + q % 2

/-- The quotient `num / den` scaled by `2 ^ e`. -/
def scale (num den : Nat) (e : Int) : Nat × Nat :=
  (num <<< e.toNat, den <<< (-e).toNat)

/-- The largest power of two at most `num / den`, as its exponent. -/
def floorLog2 (num den : Nat) : Int :=
  let l : Int := (num.log2 : Int) - den.log2
  let (n, d) := scale num den (-l)
  if n < d then l - 1 else l

/-- The bits of the number nearest to `num / den`, a tie going to the even significand.  Past the
largest number this is infinity. -/
def round (f : Format) (negative : Bool) (num den : Nat) : Nat :=
  if num = 0 then f.sign negative
  else
    let exponent := max f.minExponent (floorLog2 num den - f.fractionBits)
    let (n, d) := scale num den (-exponent)
    let magnitude :=
      ((exponent - f.minExponent).toNat <<< f.fractionBits) + roundHalfEven n d
    f.sign negative + min f.infinity magnitude

/-- The bits of an integer's nearest number. -/
def ofInt (f : Format) (n : Int) : Nat :=
  f.round (n < 0) n.natAbs 1

/-- The bits of the number of format `f` nearest to the one of format `g`. -/
def convert (g f : Format) (bits : Nat) : Nat :=
  match g.decode bits with
  | .nan => f.quietNaN
  | .infinite negative => f.sign negative + f.infinity
  | .finite negative significand exponent =>
    let (n, d) := scale significand 1 exponent
    f.round negative n d

end Format

end Cil.Binary
