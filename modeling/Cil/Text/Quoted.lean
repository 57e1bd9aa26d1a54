/-
Text between double quotes.

A quote and a backslash are written with a backslash before them, the four common controls by a
letter, and every character that would not show as itself by its code point in braces.
-/
import Cil.Text.Hex
import Cil.Text.Printable

namespace Cil.Text

/-- How a character is written between quotes. -/
def escapeChar (c : Char) : String :=
  match c with
  | '"' => "\\\""
  | '\\' => "\\\\"
  | '\n' => "\\n"
  | '\r' => "\\r"
  | '\t' => "\\t"
  | '\x00' => "\\0"
  | _ =>
    if isPrintable c && !isExtender c then c.toString
    else "\\u\x7b" ++ hex 1 c.toNat ++ "\x7d"

/-- The text between quotes. -/
def quoted (s : String) : String :=
  "\"" ++ String.join (s.toList.map escapeChar) ++ "\""

end Cil.Text
