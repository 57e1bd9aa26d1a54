/-
Every way to spell a line is read as that line.

A line can be spelled in many ways: blanks may stand around its pieces, and a comment after them.  A
`LineSpelling` holds the pieces of a line with all of these choices.  It has a text and it has the line it
spells, and `parse_text` says that the text is read as that line.

The grammar tries its alternatives in order, so each piece has to be kept from being read as an earlier
one.  A mnemonic is no label, since no colon comes after it (`labelDefinition_mnemonic`); a name is no
number, since it starts with a letter; a comment is no operand.  Nothing has to be kept out of strings and
comments, whose ends do not depend on what they hold.
-/
import Cil.Proofs.Assembly.Reading

namespace Cil.Assembly

open Text (isGap)

variable {rest tail : List Char}

/-! ### Strings -/

/-- A character as it stands in a string. -/
def escape : Char → List Char
  | '\\' => ['\\', '\\']
  | '"' => ['\\', '"']
  | '\n' => ['\\', 'n']
  | '\t' => ['\\', 't']
  | c => [c]

theorem stringBody_escape (c : Char) (rest : List Char) :
    stringBody (escape c ++ rest) = (stringBody rest).map fun (body, rest) => (c :: body, rest) := by
  have hplain : c ≠ '\\' → c ≠ '"' →
      stringBody (c :: rest) = (stringBody rest).bind fun found => some (c :: found.1, found.2) := by
    intro hbackslash hquote
    rw [stringBody]
    · rfl
    · exact hquote
    · exact fun _ _ h _ => hbackslash h
  unfold escape
  split
  · cases hrest : stringBody rest <;> simp [stringBody, unescape?, hrest]
  · cases hrest : stringBody rest <;> simp [stringBody, unescape?, hrest]
  · cases hrest : stringBody rest <;> simp [stringBody, unescape?, hrest]
  · cases hrest : stringBody rest <;> simp [stringBody, unescape?, hrest]
  · next hbackslash hquote _ _ =>
    rw [List.cons_append, List.nil_append, hplain hbackslash hquote]
    cases stringBody rest <;> rfl

theorem stringBody_escaped (value rest : List Char) :
    stringBody (value.flatMap escape ++ '"' :: rest) = some (value, rest) := by
  induction value with
  | nil => rfl
  | cons c value ih =>
    rw [List.flatMap_cons, List.append_assoc, stringBody_escape, ih]
    rfl

/-! ### Operands -/

/-- A name of a type, as it stands in a declaration. -/
structure TypeName where
  text : String
  ne_nil : text.toList ≠ []
  chars : ∀ c ∈ text.toList, inName c = true

theorem TypeName.stops_gap (n : TypeName) (rest : List Char) : Stops isGap (n.text.toList ++ rest) :=
  stops_append n.ne_nil (stops_of_forall fun c hc => isGap_of_class (n.chars c hc) rfl rfl) rest

/-- A name that cannot be taken for anything else. -/
structure OperandName extends TypeName where
  starts : ∀ c ∈ text.toList.head?, startsIdentifier c = true

inductive OperandSpelling where
  | integer (value : Int64)
  | string (value : String)
  | name (n : OperandName)
  /-- Parentheses with nothing but blanks between them. -/
  | noLabels (inside : Blanks)
  | labels (opening : Blanks) (first : Identifier) (further : List FurtherLabel) (closing : Blanks)

def OperandSpelling.chars : OperandSpelling → List Char
  | .integer value => (toString value.toInt).toList
  | .string value => '"' :: (value.toList.flatMap escape ++ ['"'])
  | .name n => n.text.toList
  | .noLabels inside => '(' :: (inside.chars ++ [')'])
  | .labels opening first further closing =>
    '(' :: (opening.chars ++ (first.text.toList ++ (furtherLabels further ++ (closing.chars ++ [')']))))

def OperandSpelling.written : OperandSpelling → Written
  | .integer value => .integer value
  | .string value => .string value
  | .name n => .name n.text
  | .noLabels _ => .labels []
  | .labels _ first further _ => .labels (first.text :: further.map (·.label.text))

/-- An operand starts with neither a blank nor a colon. -/
theorem OperandSpelling.exists_chars (x : OperandSpelling) :
    ∃ c cs, x.chars = c :: cs ∧ isGap c = false ∧ (c == ':') = false := by
  cases x with
  | integer value =>
    obtain ⟨c, cs, hcons⟩ := List.exists_cons_of_ne_nil (toString_int_ne_nil value.toInt)
    have hclass := forall_mem_toString_int (p := fun c => isGap c = false ∧ (c == ':') = false) (by decide)
      (fun c hc => ⟨isGap_of_class hc rfl rfl, beq_false_of_ne (ne_of_class hc rfl)⟩) value.toInt
    exact ⟨c, cs, hcons, hclass c (by rw [hcons]; exact List.mem_cons_self)⟩
  | string value => exact ⟨'"', _, rfl, by decide⟩
  | name n =>
    obtain ⟨c, cs, hcons⟩ := List.exists_cons_of_ne_nil n.ne_nil
    have hc := n.starts c (by rw [hcons]; rfl)
    exact ⟨c, cs, hcons, isGap_of_class hc rfl rfl, beq_false_of_ne (ne_of_class hc rfl)⟩
  | noLabels inside => exact ⟨'(', _, rfl, by decide⟩
  | labels opening first further closing => exact ⟨'(', _, rfl, by decide⟩

theorem operand_string (value : String) (rest : List Char) :
    operand ('"' :: (value.toList.flatMap escape ++ '"' :: rest)) = .ok (some (.string value, rest)) := by
  have hstring : string ('"' :: (value.toList.flatMap escape ++ '"' :: rest)) = some (value, rest) := by
    show (stringBody (value.toList.flatMap escape ++ '"' :: rest)).bind
      (fun found => some (String.ofList found.1, found.2)) = _
    rw [stringBody_escaped, Option.bind_some, String.ofList_toList]
  have henclosed : enclosed ('"' :: (value.toList.flatMap escape ++ '"' :: rest))
      = some (.string value, rest) := by
    show (string ('"' :: (value.toList.flatMap escape ++ '"' :: rest))).map _ = _
    rw [hstring]
    rfl
  rw [operand, henclosed]
  rfl

/-- An operand is read back, if the text ends after it or a blank follows. -/
theorem operand_chars (x : OperandSpelling) (hrest : Ends rest) :
    operand (x.chars ++ rest) = .ok (some (x.written, rest)) := by
  cases x with
  | integer value =>
    have hvalue := operand_toString value.le_toInt value.toInt_lt hrest
    rw [Int64.ofInt_toInt] at hvalue
    exact hvalue
  | string value =>
    rw [OperandSpelling.chars, List.cons_append, List.append_assoc]
    exact operand_string value rest
  | name n =>
    obtain ⟨c, cs, hcons⟩ := List.exists_cons_of_ne_nil n.ne_nil
    have hall := n.chars
    rw [hcons] at hall
    have hname := operand_name (n.starts c (by rw [hcons]; rfl)) hall hrest
    rw [← hcons, String.ofList_toList] at hname
    exact hname
  | noLabels inside =>
    rw [OperandSpelling.chars, List.cons_append, List.append_assoc]
    exact operand_of_labelList (labelList_nil inside rest)
  | labels opening first further closing =>
    simp only [OperandSpelling.chars, List.cons_append, List.append_assoc]
    exact operand_of_labelList (labelList_cons opening first further closing rest)

/-! ### Ends of lines -/

def commentChars : Option String → List Char
  | none => []
  | some text => '/' :: '/' :: text.toList

section Comments

variable (comment : Option String)

theorem skipGaps_comment : skipGaps (commentChars comment) = commentChars comment := by
  cases comment with
  | none => rfl
  | some text => rfl

theorem skipComment_comment : skipComment (commentChars comment) = [] := by
  cases comment with
  | none => rfl
  | some text => rfl

theorem operand_comment : operand (commentChars comment) = .ok none := by
  cases comment with
  | none => rfl
  | some text => rfl

theorem statement_comment : statement (commentChars comment) = .ok (none, commentChars comment) := by
  cases comment with
  | none => rfl
  | some text => rfl

theorem labelDefinition_comment : labelDefinition (commentChars comment) = none := by
  cases comment with
  | none => rfl
  | some text => rfl

theorem stops_colon_comment : Stops (· == ':') (commentChars comment) := by
  cases comment with
  | none => exact stops_nil _
  | some text => exact stops_cons (by decide) _

end Comments

/-- What may stand after the statement of a line. -/
structure Ending where
  blanks : Blanks
  comment : Option String

namespace Ending

def chars (e : Ending) : List Char := e.blanks.chars ++ commentChars e.comment

/-- A comment is set off by a blank. -/
def IsApart (e : Ending) : Prop := e.comment.isSome = true → e.blanks.chars ≠ []

theorem skipGaps_chars (e : Ending) : skipGaps e.chars = commentChars e.comment := by
  rw [chars, skipGaps_append, skipGaps_comment]

variable {e : Ending}

/-- Either there is nothing, or there are blanks. -/
theorem IsApart.nil_or_gap (h : e.IsApart) : e.chars = [] ∨ ∃ g : Gap, g.toBlanks = e.blanks := by
  by_cases hnil : e.blanks.chars = []
  · cases hcomment : e.comment with
    | none =>
      left
      rw [chars, hnil, hcomment]
      rfl
    | some text => exact absurd hnil (h (by rw [hcomment]; rfl))
  · exact .inr ⟨⟨e.blanks, hnil⟩, rfl⟩

theorem IsApart.ends (h : e.IsApart) : Ends e.chars := by
  rcases h.nil_or_gap with hnil | ⟨g, hg⟩
  · rw [hnil]
    exact ends_nil
  · rw [chars, ← hg]
    exact g.ends (commentChars e.comment)

/-- A comment after a mnemonic is no operand. -/
theorem IsApart.operandAfter (h : e.IsApart) : operandAfter e.chars = .ok (none, e.chars) := by
  rcases h.nil_or_gap with hnil | ⟨g, hg⟩
  · rw [hnil]
    rfl
  · have hskip : skipGaps1 e.chars = some (commentChars e.comment) := by
      rw [chars, ← hg, skipGaps1_append, skipGaps_comment]
    rw [Assembly.operandAfter, hskip]
    dsimp only
    rw [operand_comment]
    rfl

end Ending

/-! ### Statements -/

theorem expect_of_stops {c : Char} (h : Stops (· == c) rest) : expect c rest = none := by
  cases rest with
  | nil => rfl
  | cons d rest =>
    have hd : d ≠ c := by simpa using h d rfl
    exact if_neg hd

/-- A mnemonic is not read as a label, whatever part of it is an identifier. -/
theorem labelDefinition_mnemonic (m : Mnemonic) (hends : Ends tail)
    (hcolon : Stops (· == ':') (skipGaps tail)) : labelDefinition (m.text.toList ++ tail) = none := by
  obtain ⟨c, cs, hcons⟩ := List.exists_cons_of_ne_nil m.ne_nil
  have hchars := m.chars
  rw [hcons] at hchars ⊢
  by_cases hc : startsIdentifier c = true
  · have hstops : Stops (· == ':') (skipGaps ((cs ++ tail).dropWhile continuesIdentifier)) := by
      rw [List.dropWhile_append]
      split
      · rw [dropWhile_of_stops (hends.stops rfl rfl)]
        exact hcolon
      · next hempty =>
        -- The mnemonic goes on with a character that no identifier has.
        obtain ⟨d, ds, hdrop⟩ : ∃ d ds, cs.dropWhile continuesIdentifier = d :: ds :=
          List.exists_cons_of_ne_nil (by simpa using hempty)
        have hd : inMnemonic d = true := by
          have hsuffix := (List.dropWhile_suffix (l := cs) continuesIdentifier).subset
          rw [hdrop] at hsuffix
          exact hchars d (List.mem_cons_of_mem c (hsuffix List.mem_cons_self))
        rw [hdrop, List.cons_append, skipGaps_of_stops (stops_cons (isGap_of_class hd rfl rfl) _)]
        exact stops_cons (p := (· == ':')) (beq_false_of_ne (ne_of_class hd rfl)) _
    rw [labelDefinition, List.cons_append, identifier, if_pos hc]
    show (expect ':' (skipGaps ((cs ++ tail).dropWhile continuesIdentifier))).bind _ = none
    rw [expect_of_stops hstops]
    rfl
  · rw [labelDefinition, List.cons_append, identifier, if_neg hc]
    rfl

inductive StatementSpelling where
  | locals (before : Gap) (type : TypeName) (between : Gap) (localName : Identifier)
  | instruction (m : Mnemonic) (operand : Option (Gap × OperandSpelling))

namespace StatementSpelling

def chars : StatementSpelling → List Char
  | locals before type between localName =>
    '.' :: 'l' :: 'o' :: 'c' :: 'a' :: 'l' :: 's' ::
      (before.chars ++ (type.text.toList ++ (between.chars ++ localName.text.toList)))
  | instruction m none => m.text.toList
  | instruction m (some (gap, x)) => m.text.toList ++ (gap.chars ++ x.chars)

def statement : StatementSpelling → Statement
  | locals _ type _ localName => .locals type.text localName.text
  | instruction m operand => .instruction m.text (operand.map (·.2.written))

theorem stops_gap (s : StatementSpelling) (rest : List Char) : Stops isGap (s.chars ++ rest) := by
  cases s with
  | locals before type between localName => exact stops_cons (by decide) _
  | instruction m operand =>
    cases operand with
    | none => exact m.stops_gap rest
    | some pair =>
      rw [chars, List.append_assoc]
      exact m.stops_gap _

end StatementSpelling

theorem localDeclaration_append (before : Gap) (type : TypeName) (between : Gap) (localName : Identifier)
    (hrest : Ends rest) :
    localDeclaration (before.chars ++ (type.text.toList ++ (between.chars ++ (localName.text.toList ++ rest))))
      = .ok (.locals type.text localName.text, rest) := by
  have htype : name (type.text.toList ++ (between.chars ++ (localName.text.toList ++ rest)))
      = some (type.text, between.chars ++ (localName.text.toList ++ rest)) := by
    rw [name, run1_append type.ne_nil type.chars ((between.ends _).stops rfl rfl), String.ofList_toList]
  have hlocal : identifier (localName.text.toList ++ rest) = some (localName.text, rest) := by
    rw [identifier_append localName.valid (hrest.stops rfl rfl), String.ofList_toList]
  rw [localDeclaration, requireGaps, skipGaps1_append, skipGaps_of_stops (type.stops_gap _)]
  show (requireWord name _ >>= _) = _
  rw [requireWord, htype]
  show (requireGaps (between.chars ++ (localName.text.toList ++ rest)) >>= _) = _
  rw [requireGaps, skipGaps1_append, skipGaps_of_stops (localName.valid.stops_gap _)]
  show (requireWord identifier (localName.text.toList ++ rest) >>= _) = _
  rw [requireWord, hlocal]
  rfl

/-- A statement is read back from the front of what is left of the line. -/
theorem statement_chars (s : StatementSpelling) {e : Ending} (h : e.IsApart) :
    statement (s.chars ++ e.chars) = .ok (some s.statement, e.chars) := by
  have hends := h.ends
  cases s with
  | locals before type between localName =>
    have hlocal := localDeclaration_append before type between localName hends
    simp only [StatementSpelling.chars, List.cons_append, List.append_assoc]
    show (localDeclaration _ >>= _) = _
    rw [hlocal]
    rfl
  | instruction m operand =>
    cases operand with
    | none =>
      have hstops : Stops inMnemonic e.chars := hends.stops rfl rfl
      exact (statement_mnemonic m hstops).trans (instruction_append m hstops h.operandAfter)
    | some pair =>
      obtain ⟨gap, x⟩ := pair
      obtain ⟨c, cs, hcons, hgap, -⟩ := x.exists_chars
      have hstops : Stops inMnemonic (gap.chars ++ (x.chars ++ e.chars)) := (gap.ends _).stops rfl rfl
      have hoperand := operandAfter_gap gap (operand_chars x hends) (by rw [hcons]; exact stops_cons hgap _)
      rw [StatementSpelling.chars, List.append_assoc, List.append_assoc, statement_mnemonic m hstops]
      exact instruction_append m hstops hoperand

/-- A statement does not start with a label. -/
theorem labelDefinition_chars (s : StatementSpelling) {e : Ending} (h : e.IsApart) :
    labelDefinition (s.chars ++ e.chars) = none := by
  cases s with
  | locals before type between localName => rfl
  | instruction m operand =>
    cases operand with
    | none =>
      refine labelDefinition_mnemonic m h.ends ?_
      rw [e.skipGaps_chars]
      exact stops_colon_comment e.comment
    | some pair =>
      obtain ⟨gap, x⟩ := pair
      obtain ⟨c, cs, hcons, hgap, hcolon⟩ := x.exists_chars
      rw [StatementSpelling.chars, List.append_assoc, List.append_assoc]
      refine labelDefinition_mnemonic m (gap.ends _) ?_
      rw [skipGaps_append, hcons, List.cons_append, skipGaps_of_stops (stops_cons hgap _)]
      exact stops_cons (p := (· == ':')) hcolon _

/-! ### Lines -/

/-- A label with the blanks before and after its colon. -/
structure LabelSpelling where
  label : Identifier
  before : Blanks
  after : Blanks

/-- The pieces of a line, with the blanks between them and the comment at the end. -/
structure LineSpelling where
  lead : Blanks
  label : Option LabelSpelling
  statement : Option StatementSpelling
  ending : Ending
  /-- After a statement, a comment would be part of its last word. -/
  apart : statement.isSome = true → ending.IsApart

namespace LineSpelling

def labelChars (s : LineSpelling) : List Char :=
  match s.label with
  | none => []
  | some l => l.label.text.toList ++ (l.before.chars ++ ':' :: l.after.chars)

def statementChars (s : LineSpelling) : List Char :=
  match s.statement with
  | none => []
  | some statement => statement.chars

def text (s : LineSpelling) : String :=
  String.ofList (s.lead.chars ++ (s.labelChars ++ (s.statementChars ++ s.ending.chars)))

/-- The line that is spelled. -/
def line (s : LineSpelling) : Line where
  label := s.label.map (·.label.text)
  statement := s.statement.map (·.statement)

/-- What comes after the label is read as the statement and an end. -/
theorem exists_statement (s : LineSpelling) :
    ∃ tail, Assembly.statement (skipGaps (s.statementChars ++ s.ending.chars)) = .ok (s.line.statement, tail) ∧
      skipComment (skipGaps tail) = [] := by
  obtain ⟨lead, label, written, ending, apart⟩ := s
  cases written with
  | none =>
    refine ⟨commentChars ending.comment, ?_, ?_⟩
    · show Assembly.statement (skipGaps ending.chars) = _
      rw [ending.skipGaps_chars, statement_comment]
      rfl
    · rw [skipGaps_comment, skipComment_comment]
  | some written =>
    refine ⟨ending.chars, ?_, ?_⟩
    · show Assembly.statement (skipGaps (written.chars ++ ending.chars)) = _
      rw [skipGaps_of_stops (written.stops_gap _)]
      exact statement_chars written (apart rfl)
    · rw [ending.skipGaps_chars, skipComment_comment]

theorem labelDefinition_statementChars (s : LineSpelling) :
    labelDefinition (skipGaps (s.statementChars ++ s.ending.chars)) = none := by
  obtain ⟨lead, label, written, ending, apart⟩ := s
  cases written with
  | none =>
    show labelDefinition (skipGaps ending.chars) = none
    rw [ending.skipGaps_chars, labelDefinition_comment]
  | some written =>
    show labelDefinition (skipGaps (written.chars ++ ending.chars)) = none
    rw [skipGaps_of_stops (written.stops_gap _)]
    exact labelDefinition_chars written (apart rfl)

theorem labelPart_chars (s : LineSpelling) :
    labelPart (skipGaps (s.lead.chars ++ (s.labelChars ++ (s.statementChars ++ s.ending.chars))))
      = (s.line.label, skipGaps (s.statementChars ++ s.ending.chars)) := by
  rw [skipGaps_append, labelPart]
  have hnone := s.labelDefinition_statementChars
  unfold labelChars line
  cases s.label with
  | none =>
    dsimp only
    rw [List.nil_append, hnone]
    rfl
  | some l =>
    have hlabel := labelDefinition_append l.label l.before
      (l.after.chars ++ (s.statementChars ++ s.ending.chars))
    rw [skipGaps_append] at hlabel
    dsimp only
    rw [List.append_assoc, List.append_assoc, List.cons_append,
      skipGaps_of_stops (l.label.valid.stops_gap _), hlabel]
    rfl

end LineSpelling

/-- **However a line is spelled, its text is read as that line.** -/
theorem parse_text (s : LineSpelling) : Line.parse s.text = .ok s.line := by
  obtain ⟨tail, hstatement, hend⟩ := s.exists_statement
  exact parse_of_parts s.labelPart_chars hstatement hend

-- Quotes, slashes and a colon inside a string.
example : LineSpelling.text
    ⟨.space, some ⟨⟨"end", ⟨'e', rfl, rfl⟩, List.all_eq_true.mp rfl⟩, .space, .none⟩,
      some (.instruction ⟨"ldstr", by decide, List.all_eq_true.mp rfl, by decide⟩
        (some (⟨.space, by decide⟩, .string "a: \"b\" // c"))),
      ⟨.space, some " d"⟩, fun _ _ => by decide⟩
    = " end :ldstr \"a: \\\"b\\\" // c\" // d" := by decide

end Cil.Assembly
