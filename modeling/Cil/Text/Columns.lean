/-
How many columns a line of a table's cell takes.

A colour sequence goes from an escape and `[` to the next `m` and is not drawn.  What follows the
escape is taken off the columns of the line, a column for every character that has any by itself.
A sequence whose characters share columns may be charged more than the whole line has: such a line
has no width.
-/
import Cil.Text.Joining

namespace Cil.Text

/-- Where a reader of a line stands with respect to colour sequences. -/
inductive ColourState where
  | outside
  /-- After an escape. -/
  | opening
  /-- After an escape and `[`. -/
  | inside

/-- Where the reader stands after a character, and whether that belongs to a sequence. -/
def ColourState.next : ColourState → Char → ColourState × Bool
  | outside, c => (if c == '\x1b' then opening else outside, false)
  | opening, c => if c == '[' then (inside, true) else (outside, false)
  | inside, c => (if c == 'm' then outside else inside, true)

/-- The columns charged for the colour sequences of a line whose reader stands at a state. -/
def colourCharge : ColourState → List Char → Nat
  | _, [] => 0
  | state, c :: rest =>
    let (state, inSequence) := state.next c
    (if inSequence && !isControl c && 0 < charWidth c then 1 else 0) + colourCharge state rest

/-- The columns of a line, colour sequences not counted. -/
def columns? (s : String) : Option Nat :=
  let charge := colourCharge .outside s.toList
  if charge ≤ width s.toList then some (width s.toList - charge) else none

end Cil.Text
