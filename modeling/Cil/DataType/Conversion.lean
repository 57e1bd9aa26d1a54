/-
The numeric conversion table.

A number converts to any number.  A reference or a pointer converts only to an integer wide enough
for it, and such a conversion hides the reference from the garbage collector, so it is allowed but
never verifiable.
-/
import Cil.DataType

namespace Cil

/-- How a conversion transforms the bits of its operand. -/
inductive ConversionKind where
  | identity | truncate | zeroExtend | signExtend | changePrecision | floatToInt | intToFloat
  deriving DecidableEq, Repr

/-- An entry of the conversion table. -/
structure Conversion where
  kind : ConversionKind
  verifiable : Bool
  deriving DecidableEq, Repr

namespace Conversion

/-- How one integer type converts to another.  A target no wider than the source truncates. -/
def betweenIntegers (source target : DataType) : ConversionKind :=
  if target.size?.getD DataType.pointerSize ≤ source.size?.getD DataType.pointerSize then
    .truncate
  else if source.isSigned && target.isSigned then
    .signExtend
  else
    .zeroExtend

/-- The conversion from `source` to `target`, if there is one. -/
def between? (source target : DataType) : Option Conversion :=
  if !(source.isNumeric || source.isReference || source.isPointer) || !target.isNumeric then
    none
  else if source = target then
    some ⟨.identity, true⟩
  else if source.isReference || source.isPointer then
    if DataTypeSet.pointerSizedInteger.contains target then some ⟨.identity, false⟩ else none
  else
    some ⟨match source.isFloat, target.isFloat with
      | true, true => .changePrecision
      | true, false => .floatToInt
      | false, true => .intToFloat
      | false, false => betweenIntegers source target, true⟩

end Conversion

end Cil
