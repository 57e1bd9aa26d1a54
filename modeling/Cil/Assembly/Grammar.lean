/-
The grammar of a line.

An operand is the first of these that the text starts with: a list of labels, a string, a number, a
name.  An instruction whose operand cannot be read has none, and what stands there is left over.
After `.locals` there is no way back.
-/
import Cil.Assembly.Numeral

namespace Cil.Assembly

/-- Does a comment start here? -/
def startsComment : List Char → Bool
  | '/' :: '/' :: _ => true
  | _ => false

/-- A comment takes the rest of the text. -/
def skipComment (cs : List Char) : List Char :=
  if startsComment cs then [] else cs

/-- A list of labels or a string. -/
def enclosed : Scan Written := fun cs =>
  match labelList cs with
  | some (labels, rest) => some (.labels labels, rest)
  | none => (string cs).map fun (value, rest) => (.string value, rest)

def operand (cs : List Char) : Except SyntaxError (Option (Written × List Char)) :=
  if startsComment cs then .ok none
  else
    match enclosed cs with
    | some found => .ok (some found)
    | none => do
      match ← number cs with
      | some found => return some found
      | none => return (name cs).map fun (n, rest) => (.name n, rest)

/-- The operand after a mnemonic.  Without one the text is left as it is. -/
def operandAfter (cs : List Char) : Except SyntaxError (Option Written × List Char) :=
  match skipGaps1 cs with
  | none => .ok (none, cs)
  | some rest => do
    match ← operand rest with
    | some (written, rest) => return (some written, rest)
    | none => return (none, cs)

def instruction (cs : List Char) : Except SyntaxError (Option Statement × List Char) :=
  match mnemonic cs with
  | none => .ok (none, cs)
  | some (m, rest) => do
    let (written, rest) ← operandAfter rest
    return (some (.instruction m written), rest)

/-- Skips the spaces that have to stand here. -/
def requireGaps (cs : List Char) : Except SyntaxError (List Char) :=
  match skipGaps1 cs with
  | some rest => .ok rest
  | none => .error (.gapMissing (String.ofList cs))

/-- Reads a word that has to stand here. -/
def requireWord (word : Scan String) (cs : List Char) :
    Except SyntaxError (String × List Char) :=
  match word cs with
  | some found => .ok found
  | none => .error (.nameMissing (String.ofList cs))

/-- The type and the name of a local. -/
def localDeclaration (cs : List Char) : Except SyntaxError (Statement × List Char) := do
  let (typeName, rest) ← requireWord name (← requireGaps cs)
  let (localName, rest) ← requireWord identifier (← requireGaps rest)
  return (.locals typeName localName, rest)

def statement : List Char → Except SyntaxError (Option Statement × List Char)
  | '.' :: 'l' :: 'o' :: 'c' :: 'a' :: 'l' :: 's' :: rest => do
    let (declaration, rest) ← localDeclaration rest
    return (some declaration, rest)
  | cs => instruction cs

/-- A label definition, if the text starts with one. -/
def labelPart (cs : List Char) : Option String × List Char :=
  match labelDefinition cs with
  | some (label, rest) => (some label, rest)
  | none => (none, cs)

/-- A line and what is left after it. -/
def readLine (cs : List Char) : Except SyntaxError (Line × List Char) := do
  let (label, rest) := labelPart (skipGaps cs)
  let (statement, rest) ← statement rest
  return ({ label, statement }, skipComment (skipGaps rest))

/-- Reads a whole line. -/
def Line.parse (text : String) : Except SyntaxError Line := do
  match ← readLine text.toList with
  | (line, []) => return line
  | (_, rest) => throw (.leftover (String.ofList (Text.trimRight rest)))

end Cil.Assembly
