/-
White space.

Two notions are in use.  The grammar of a line separates its parts by spaces and tabs; a name ends
at any character with the White_Space property, and that is also what trimming removes.
-/
import Cil.Text.Ranges

namespace Cil.Text

/-- The white space above 127. -/
def blankRanges : Ranges :=
  [(0x85, 0x85), (0xA0, 0xA0), (0x1680, 0x1680), (0x2000, 0x200A), (0x2028, 0x2029),
    (0x202F, 0x202F), (0x205F, 0x205F), (0x3000, 0x3000)]

/-- Is the character white space? -/
def isBlank (c : Char) : Bool :=
  if c.val < 128 then c.val == 32 || 9 ≤ c.val && c.val ≤ 13 else blankRanges.contains c

/-- Does the character separate the parts of a line? -/
def isGap (c : Char) : Bool :=
  c == ' ' || c == '\t'

/-- Removes white space at the end. -/
def trimRight (cs : List Char) : List Char :=
  (cs.reverse.dropWhile isBlank).reverse

end Cil.Text
