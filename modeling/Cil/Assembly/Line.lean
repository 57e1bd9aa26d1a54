/-
A line of assembly text.

A line holds at most a label definition, a statement and a comment, in this order.  The statement is
either a declaration of a local or an instruction with its operand as it is written.  What an
operand means depends on the opcode and is not settled here.
-/
import Cil.Text.Quoted

namespace Cil.Assembly

/-- An operand as it is written. -/
inductive Written where
  | integer (value : Int64)
  /-- A number with a point or an exponent, by the bits of its value. -/
  | float (bits : UInt64)
  | string (value : String)
  | name (name : String)
  /-- A list of labels between parentheses. -/
  | labels (names : List String)
  deriving DecidableEq

inductive Statement where
  /-- Declares a local. -/
  | locals (typeName name : String)
  | instruction (mnemonic : String) (operand : Option Written)
  deriving DecidableEq

structure Line where
  label : Option String
  statement : Option Statement
  deriving DecidableEq

/-- Why a line cannot be read.  Each cause carries the text from where reading stopped. -/
inductive SyntaxError where
  /-- Text is left after the line. -/
  | leftover (rest : String)
  /-- A declaration lacks a space. -/
  | gapMissing (rest : String)
  /-- A declaration lacks the type or the name. -/
  | nameMissing (rest : String)
  /-- An exponent has no digits. -/
  | digitsMissing (rest : String)
  deriving DecidableEq

namespace SyntaxError

/-- The message for text that cannot be read on. -/
def failureMessage (rest code : String) : String :=
  "Parsing Failure: Error \x7b input: " ++ Text.quoted rest ++ ", code: " ++ code ++ " \x7d"

def message : SyntaxError → String
  | leftover rest => "unexpected `" ++ rest ++ "`"
  | gapMissing rest => failureMessage rest "Space"
  | nameMissing rest => failureMessage rest "TakeWhile1"
  | digitsMissing rest => failureMessage rest "Digit"

end SyntaxError

end Cil.Assembly
