/-
Decimal text of binary numbers, both ways.

Writing takes the fewest digits that read back as the same number, and among those the nearest to
it.  The numbers that read back form an interval around the value, whose ends belong to it exactly
when the significand is even.  For one digit, two digits and so on, the value's two neighbours on
that decimal grid are tested by exact comparison, and the first grid with a hit wins.

Reading takes a significand and a power of ten and rounds the exact quotient once.
-/
import Cil.Binary.Format

namespace Cil.Binary

/-- The number `digits * 10 ^ exponent`. -/
structure Decimal where
  digits : Nat
  exponent : Int
  deriving DecidableEq, Repr

namespace Decimal

/-- Moves trailing zeros into the exponent. -/
def normalize (d : Decimal) : Decimal :=
  if h : d.digits ≠ 0 ∧ d.digits % 10 = 0 then
    normalize ⟨d.digits / 10, d.exponent + 1⟩
  else d
termination_by d.digits
decreasing_by exact Nat.div_lt_self (by omega) (by omega)

/-- The digits, most significant first. -/
def chars (d : Decimal) : List Char :=
  Nat.toDigits 10 d.digits

/-- The power of ten just above the number. -/
def magnitude (d : Decimal) : Int :=
  d.exponent + d.chars.length

end Decimal

/-! ### Choosing the digits -/

/-- A positive number and the interval of what reads back as it, over a common denominator. -/
structure Neighbourhood where
  low : Nat
  value : Nat
  high : Nat
  den : Nat
  /-- Do the ends read back as well? -/
  closed : Bool

namespace Neighbourhood

/-- The neighbourhood of `significand * 2 ^ exponent`.  Below a power of two the numbers lie twice
as close, unless it is the smallest. -/
def of (f : Format) (significand : Nat) (exponent : Int) : Neighbourhood :=
  let narrow := significand = 1 <<< f.fractionBits ∧ f.minExponent < exponent
  let up := (exponent - 2).toNat
  { low := (4 * significand - if narrow then 1 else 2) <<< up
    value := (4 * significand) <<< up
    high := (4 * significand + 2) <<< up
    den := 1 <<< (2 - exponent).toNat
    closed := significand % 2 = 0 }

/-- Does `n * 10 ^ e` read back as the number? -/
def contains (i : Neighbourhood) (n : Nat) (e : Int) : Bool :=
  let x := n * Nat.pow 10 e.toNat * i.den
  let unit := Nat.pow 10 (-e).toNat
  if i.closed then i.low * unit ≤ x && x ≤ i.high * unit
  else i.low * unit < x && x < i.high * unit

/-- Is the number below `10 ^ k`? -/
def isBelow (i : Neighbourhood) (k : Int) : Bool :=
  i.value * Nat.pow 10 (-k).toNat < i.den * Nat.pow 10 k.toNat

/-- The least `k` with the number below `10 ^ k`.  The logarithm to base two gives it up to a few
steps. -/
def magnitude (i : Neighbourhood) : Int :=
  let estimate := (Format.floorLog2 i.value i.den * 30103).fdiv 100000 - 1
  let steps := (List.range 5).map fun (n : Nat) => estimate + (n : Int)
  (steps.find? i.isBelow).getD estimate

/-- The nearest of the value's neighbours on the grid `10 ^ e` that read back, a tie going up. -/
def onGrid? (i : Neighbourhood) (e : Int) : Option Decimal :=
  let num := i.value * Nat.pow 10 (-e).toNat
  let den := i.den * Nat.pow 10 e.toNat
  let n := num / den
  match i.contains n e, i.contains (n + 1) e with
  | true, false => some ⟨n, e⟩
  | false, true => some ⟨n + 1, e⟩
  | true, true => if 2 * num < (2 * n + 1) * den then some ⟨n, e⟩ else some ⟨n + 1, e⟩
  | false, false => none

end Neighbourhood

/-- The exact decimal value of `significand * 2 ^ exponent`. -/
def exactDecimal (significand : Nat) (exponent : Int) : Decimal :=
  if 0 ≤ exponent then ⟨significand <<< exponent.toNat, 0⟩
  else ⟨significand * Nat.pow 5 (-exponent).toNat, exponent⟩

/-- The fewest digits that read back as `significand * 2 ^ exponent`. -/
def shortest (f : Format) (significand : Nat) (exponent : Int) : Decimal :=
  let i := Neighbourhood.of f significand exponent
  let top := i.magnitude
  let grids := (List.range 17).map fun (n : Nat) => top - 1 - (n : Int)
  ((grids.findSome? i.onGrid?).getD (exactDecimal significand exponent)).normalize

/-! ### Writing -/

/-- Where positional notation begins and ends, as powers of ten. -/
structure Layout where
  positionalFrom : Int
  positionalBelow : Int

/-- Constants are written positionally from 10^-4 up to 10^16, with at least one digit on either
side of the point, and otherwise with an exponent after the first digit. -/
def constantLayout : Layout := ⟨-4, 16⟩

/-- The text of a positive decimal. -/
def Layout.text (l : Layout) (d : Decimal) : String :=
  let digits := d.chars
  let top := d.magnitude
  if l.positionalFrom < top ∧ top ≤ l.positionalBelow then
    String.ofList <|
      if top ≤ 0 then '0' :: '.' :: (List.replicate (-top).toNat '0' ++ digits)
      else if digits.length ≤ top.toNat then
        digits ++ List.replicate (top.toNat - digits.length) '0' ++ ['.', '0']
      else digits.take top.toNat ++ '.' :: digits.drop top.toNat
  else
    let mantissa :=
      match digits with
      | first :: next :: rest => first :: '.' :: next :: rest
      | _ => digits
    String.ofList mantissa ++ "e" ++ toString (top - 1)

/-- The text of the number with the given bits. -/
def Format.text (f : Format) (bits : Nat) : String :=
  match f.decode bits with
  | .nan => "NaN"
  | .infinite negative => (if negative then "-" else "") ++ "inf"
  | .finite negative significand exponent =>
    (if negative then "-" else "") ++
      if significand = 0 then "0.0" else constantLayout.text (shortest f significand exponent)

/-! ### Reading -/

/-- Beyond this power of ten every number of either format is infinite, or zero if the power is
negative. -/
def decimalLimit : Int := 400

/-- The bits of the number nearest to a decimal. -/
def Format.ofDecimal (f : Format) (negative : Bool) (d : Decimal) : Nat :=
  if d.digits = 0 then f.sign negative
  else if decimalLimit < d.magnitude then f.sign negative + f.infinity
  else if d.magnitude < -decimalLimit then f.sign negative
  else f.round negative (d.digits * Nat.pow 10 d.exponent.toNat) (Nat.pow 10 (-d.exponent).toNat)

end Cil.Binary
