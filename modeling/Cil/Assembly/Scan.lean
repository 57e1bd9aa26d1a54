/-
Reading the pieces of a line.

A scan reads a piece off the front of the text and gives what is left, or it answers `none` if the
text does not start with such a piece.
-/
import Cil.Text.Blank
import Cil.Text.Letter

namespace Cil.Assembly

open Text (isBlank isGap isLetter isLetterOrNumber)

/-- A piece and the text left after it. -/
abbrev Scan (α : Type) := List Char → Option (α × List Char)

/-! ### Runs of characters -/

/-- The longest run of characters of a class. -/
def run (p : Char → Bool) (cs : List Char) : List Char × List Char :=
  (cs.takeWhile p, cs.dropWhile p)

/-- The longest run of characters of a class, if it is not empty. -/
def run1 (p : Char → Bool) : Scan String := fun cs =>
  match run p cs with
  | ([], _) => none
  | (piece, rest) => some (String.ofList piece, rest)

def skipGaps (cs : List Char) : List Char := cs.dropWhile isGap

/-- Skips spaces and tabs, of which there has to be one. -/
def skipGaps1 : List Char → Option (List Char)
  | c :: rest => if isGap c then some (skipGaps rest) else none
  | [] => none

/-- Skips the given character. -/
def expect (c : Char) : List Char → Option (List Char)
  | d :: rest => if d = c then some rest else none
  | [] => none

/-! ### Words -/

def startsIdentifier (c : Char) : Bool := isLetter c || c == '_'

def continuesIdentifier (c : Char) : Bool := isLetterOrNumber c || c == '_' || c == '$'

def inMnemonic (c : Char) : Bool := c.isAlphanum || c == '.'

/-- A name of a type or member ends at white space, a comma, a parenthesis or a quote. -/
def inName (c : Char) : Bool := !isBlank c && c != ',' && c != '(' && c != ')' && c != '"'

def identifier : Scan String
  | c :: rest =>
    if startsIdentifier c then
      some (String.ofList (c :: rest.takeWhile continuesIdentifier),
        rest.dropWhile continuesIdentifier)
    else none
  | [] => none

def mnemonic : Scan String := run1 inMnemonic

def name : Scan String := run1 inName

/-- An identifier, a colon and the spaces after it. -/
def labelDefinition : Scan String := fun cs => do
  let (label, rest) ← identifier cs
  let rest ← expect ':' (skipGaps rest)
  return (label, skipGaps rest)

/-! ### Strings -/

/-- The character that a letter after a backslash stands for. -/
def unescape? : Char → Option Char
  | '\\' => some '\\'
  | '"' => some '"'
  | 'n' => some '\n'
  | 't' => some '\t'
  | _ => none

/-- The rest of a string after its opening quote. -/
def stringBody : Scan (List Char)
  | [] => none
  | '"' :: rest => some ([], rest)
  | '\\' :: c :: rest => do
    let d ← unescape? c
    let (body, rest) ← stringBody rest
    return (d :: body, rest)
  | c :: rest => do
    let (body, rest) ← stringBody rest
    return (c :: body, rest)

def string : Scan String := fun cs => do
  let (body, rest) ← stringBody (← expect '"' cs)
  return (String.ofList body, rest)

/-! ### Lists of labels -/

/-- A comma and a label. -/
def nextLabel : Scan String := fun cs => do
  let rest ← expect ',' (skipGaps cs)
  identifier (skipGaps rest)

theorem length_skipGaps_le (cs : List Char) : (skipGaps cs).length ≤ cs.length :=
  (List.dropWhile_suffix _).length_le

theorem length_expect_lt {c : Char} {cs rest : List Char} (h : expect c cs = some rest) :
    rest.length < cs.length := by
  cases cs with
  | nil => simp [expect] at h
  | cons d tail =>
    simp only [expect, Option.ite_none_right_eq_some, Option.some.injEq] at h
    simp [← h.2]

theorem length_identifier_lt {cs rest : List Char} {s : String}
    (h : identifier cs = some (s, rest)) : rest.length < cs.length := by
  cases cs with
  | nil => simp [identifier] at h
  | cons c tail =>
    simp only [identifier, Option.ite_none_right_eq_some, Option.some.injEq, Prod.mk.injEq] at h
    have := (List.dropWhile_suffix (l := tail) continuesIdentifier).length_le
    simp only [← h.2.2, List.length_cons]
    omega

theorem length_nextLabel_lt {cs rest : List Char} {s : String}
    (h : nextLabel cs = some (s, rest)) : rest.length < cs.length := by
  simp only [nextLabel, bind, Option.bind_eq_some_iff] at h
  obtain ⟨mid, hmid, hname⟩ := h
  have := length_skipGaps_le cs
  have := length_expect_lt hmid
  have := length_skipGaps_le mid
  have := length_identifier_lt hname
  omega

/-- The labels after the first one, as far as there are commas with labels after them. -/
def moreLabels (cs : List Char) : List String × List Char :=
  match _h : nextLabel cs with
  | none => ([], cs)
  | some (label, rest) =>
    let (labels, rest) := moreLabels rest
    (label :: labels, rest)
termination_by cs.length
decreasing_by exact length_nextLabel_lt (by assumption)

/-- Labels separated by commas, possibly none. -/
def labels (cs : List Char) : List String × List Char :=
  match identifier cs with
  | none => ([], cs)
  | some (label, rest) =>
    let (labels, rest) := moreLabels rest
    (label :: labels, rest)

/-- A list of labels between parentheses. -/
def labelList : Scan (List String) := fun cs => do
  let rest ← expect '(' cs
  let (labels, rest) := labels (skipGaps rest)
  let rest ← expect ')' (skipGaps rest)
  return (labels, rest)

end Cil.Assembly
