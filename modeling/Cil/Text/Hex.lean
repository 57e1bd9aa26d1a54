/-
Numbers in base sixteen.
-/
namespace Cil.Text

/-- Fills a text with zeros on the left, up to the given width. -/
def padZeros (width : Nat) (digits : List Char) : List Char :=
  List.replicate (width - digits.length) '0' ++ digits

/-- At least `width` digits, in lower case. -/
def hex (width n : Nat) : String :=
  String.ofList (padZeros width (Nat.toDigits 16 n))

/-- At least `width` digits, in upper case. -/
def hexUpper (width n : Nat) : String :=
  String.ofList (padZeros width ((Nat.toDigits 16 n).map Char.toUpper))

/-- The value of a digit in base sixteen, of either case. -/
def hexDigit? (c : Char) : Option Nat :=
  if c.isDigit then some (c.toNat - '0'.toNat)
  else if 'a' ≤ c ∧ c ≤ 'f' then some (c.toNat - 'a'.toNat + 10)
  else if 'A' ≤ c ∧ c ≤ 'F' then some (c.toNat - 'A'.toNat + 10)
  else none

end Cil.Text
