/-
Reading back what was written.

A piece of a line is read back from the front of a text if what follows it cannot belong to it
(`Stops`).  Words and numbers end at a space, a tab or the end of the text (`Ends`); between the pieces
there may be any number of spaces and tabs (`Blanks`).  From the pieces a whole line is read back: a label,
a mnemonic, and an operand that is an integer, a name or a list of labels (`parse_instruction`).
-/
import Cil.Assembly.Grammar
import Cil.Proofs.Text

namespace Cil.Assembly

open Text (isGap)

/-! ### Runs of characters -/

/-- The text does not start with a character of the class. -/
def Stops (p : Char → Bool) (cs : List Char) : Prop := ∀ c ∈ cs.head?, p c = false

theorem stops_nil (p : Char → Bool) : Stops p [] := fun _ hc => nomatch hc

theorem stops_cons {p : Char → Bool} {c : Char} (h : p c = false) (cs : List Char) :
    Stops p (c :: cs) := by
  intro d hd
  cases hd
  exact h

theorem stops_of_forall {p : Char → Bool} {cs : List Char} (h : ∀ c ∈ cs, p c = false) : Stops p cs :=
  fun c hc => h c (List.mem_of_mem_head? hc)

variable {p : Char → Bool} {piece rest : List Char}

theorem stops_append (hne : piece ≠ []) (h : Stops p piece) (rest : List Char) : Stops p (piece ++ rest) := by
  cases piece with
  | nil => exact absurd rfl hne
  | cons c piece => exact stops_cons (h c rfl) (piece ++ rest)

theorem dropWhile_of_stops (h : Stops p rest) : rest.dropWhile p = rest := by
  cases rest with
  | nil => rfl
  | cons c rest => exact List.dropWhile_cons_of_neg (by simp [h c rfl])

theorem takeWhile_of_stops (h : Stops p rest) : rest.takeWhile p = [] := by
  cases rest with
  | nil => rfl
  | cons c rest => exact List.takeWhile_cons_of_neg (by simp [h c rfl])

theorem run_append (hall : ∀ c ∈ piece, p c = true) (h : Stops p rest) :
    run p (piece ++ rest) = (piece, rest) := by
  rw [run, List.takeWhile_append_of_pos hall, List.dropWhile_append_of_pos hall,
    takeWhile_of_stops h, dropWhile_of_stops h, List.append_nil]

theorem run1_append (hne : piece ≠ []) (hall : ∀ c ∈ piece, p c = true) (h : Stops p rest) :
    run1 p (piece ++ rest) = some (String.ofList piece, rest) := by
  rw [run1, run_append hall h]
  cases piece with
  | nil => exact absurd rfl hne
  | cons c piece => rfl

theorem skipGaps_of_stops (h : Stops isGap rest) : skipGaps rest = rest :=
  dropWhile_of_stops h

/-- A character of a class is none of those outside of it. -/
theorem ne_of_class {c d : Char} (hc : p c = true) (hd : p d = false) : c ≠ d := by
  rintro rfl
  exact nomatch hc.symm.trans hd

/-! ### Spaces and tabs -/

structure Blanks where
  chars : List Char
  blank : ∀ c ∈ chars, isGap c = true

/-- At least one space or tab. -/
structure Gap extends Blanks where
  ne_nil : chars ≠ []

def Blanks.none : Blanks := ⟨[], by simp⟩

def Blanks.space : Blanks := ⟨[' '], by simp [isGap]⟩

/-- The text ends here, or a space or a tab follows. -/
def Ends (cs : List Char) : Prop := ∀ c ∈ cs.head?, isGap c = true

theorem ends_nil : Ends [] := fun _ hc => nomatch hc

theorem eq_of_isGap {c : Char} (h : isGap c = true) : c = ' ' ∨ c = '\t' := by
  simpa [isGap] using h

theorem isGap_of_class {c : Char} (hc : p c = true) (hspace : p ' ' = false) (htab : p '\t' = false) :
    isGap c = false := by
  simp [isGap, ne_of_class hc hspace, ne_of_class hc htab]

theorem Ends.stops (h : Ends rest) (hspace : p ' ' = false) (htab : p '\t' = false) : Stops p rest := by
  intro c hc
  rcases eq_of_isGap (h c hc) with rfl | rfl
  · exact hspace
  · exact htab

theorem Gap.ends (g : Gap) (rest : List Char) : Ends (g.chars ++ rest) := by
  obtain ⟨⟨chars, hblank⟩, hne⟩ := g
  cases chars with
  | nil => exact absurd rfl hne
  | cons c chars =>
    intro d hd
    cases hd
    exact hblank c List.mem_cons_self

theorem Blanks.stops (b : Blanks) (hspace : p ' ' = false) (htab : p '\t' = false) (h : Stops p rest) :
    Stops p (b.chars ++ rest) := by
  by_cases hnil : b.chars = []
  · rw [hnil]
    exact h
  · exact (Gap.ends ⟨b, hnil⟩ rest).stops hspace htab

theorem skipGaps_append (b : Blanks) (rest : List Char) : skipGaps (b.chars ++ rest) = skipGaps rest :=
  List.dropWhile_append_of_pos b.blank

theorem skipGaps1_append (g : Gap) (rest : List Char) :
    skipGaps1 (g.chars ++ rest) = some (skipGaps rest) := by
  obtain ⟨⟨chars, hblank⟩, hne⟩ := g
  cases chars with
  | nil => exact absurd rfl hne
  | cons c chars =>
    obtain ⟨hc, hchars⟩ := List.forall_mem_cons.mp hblank
    rw [List.cons_append, skipGaps1, if_pos hc]
    exact congrArg some (skipGaps_append ⟨chars, hchars⟩ rest)

/-! ### Words -/

structure IsIdentifier (cs : List Char) : Prop where
  starts : ∃ c ∈ cs.head?, startsIdentifier c = true
  continues : ∀ c ∈ cs.tail, continuesIdentifier c = true

theorem identifier_append (hid : IsIdentifier piece) (h : Stops continuesIdentifier rest) :
    identifier (piece ++ rest) = some (String.ofList piece, rest) := by
  obtain ⟨⟨c, hc, hstarts⟩, hcontinues⟩ := hid
  cases piece with
  | nil => exact nomatch hc
  | cons d piece =>
    cases hc
    rw [List.tail_cons] at hcontinues
    rw [List.cons_append, identifier, if_pos hstarts, List.takeWhile_append_of_pos hcontinues,
      List.dropWhile_append_of_pos hcontinues, takeWhile_of_stops h, dropWhile_of_stops h,
      List.append_nil]

theorem IsIdentifier.stops_gap (hid : IsIdentifier piece) (rest : List Char) :
    Stops isGap (piece ++ rest) := by
  obtain ⟨⟨c, hc, hstarts⟩, -⟩ := hid
  cases piece with
  | nil => exact nomatch hc
  | cons d piece =>
    cases hc
    exact stops_cons (isGap_of_class hstarts rfl rfl) _

structure Identifier where
  text : String
  valid : IsIdentifier text.toList

theorem labelDefinition_append (label : Identifier) (before : Blanks) (rest : List Char) :
    labelDefinition (label.text.toList ++ (before.chars ++ ':' :: rest))
      = some (label.text, skipGaps rest) := by
  have hcolon : skipGaps (before.chars ++ ':' :: rest) = ':' :: rest := by
    rw [skipGaps_append, skipGaps_of_stops (stops_cons (by decide) _)]
  rw [labelDefinition, identifier_append label.valid
    (before.stops (by decide) (by decide) (stops_cons (by decide) _))]
  show (expect ':' (skipGaps (before.chars ++ ':' :: rest))).bind
    (fun rest => some (String.ofList label.text.toList, skipGaps rest)) = _
  rw [hcolon, String.ofList_toList]
  rfl

/-! ### Lists of labels -/

/-- A label in a list, with the comma before it. -/
structure FurtherLabel where
  before : Blanks
  after : Blanks
  label : Identifier

def FurtherLabel.chars (n : FurtherLabel) : List Char :=
  n.before.chars ++ ',' :: (n.after.chars ++ n.label.text.toList)

/-- The rest of a list of labels after the first one. -/
def furtherLabels (names : List FurtherLabel) : List Char :=
  names.flatMap FurtherLabel.chars

theorem stops_furtherLabels (names : List FurtherLabel) (closing : Blanks) (rest : List Char) :
    Stops continuesIdentifier (furtherLabels names ++ (closing.chars ++ ')' :: rest)) := by
  cases names with
  | nil => exact closing.stops (by decide) (by decide) (stops_cons (by decide) _)
  | cons n names =>
    show Stops continuesIdentifier (n.before.chars ++ ',' :: _ ++ _ ++ _)
    rw [List.append_assoc, List.append_assoc]
    exact n.before.stops (by decide) (by decide) (stops_cons (by decide) _)

theorem nextLabel_append (n : FurtherLabel) (h : Stops continuesIdentifier rest) :
    nextLabel (n.chars ++ rest) = some (n.label.text, rest) := by
  have hcomma : skipGaps (n.chars ++ rest) = ',' :: (n.after.chars ++ (n.label.text.toList ++ rest)) := by
    rw [FurtherLabel.chars, List.append_assoc, skipGaps_append, List.cons_append, List.append_assoc,
      skipGaps_of_stops (stops_cons (by decide) _)]
  have hafter : skipGaps (n.after.chars ++ (n.label.text.toList ++ rest)) = n.label.text.toList ++ rest := by
    rw [skipGaps_append, skipGaps_of_stops (n.label.valid.stops_gap rest)]
  rw [nextLabel, hcomma]
  show identifier (skipGaps (n.after.chars ++ (n.label.text.toList ++ rest))) = _
  rw [hafter, identifier_append n.label.valid h, String.ofList_toList]

theorem moreLabels_append (names : List FurtherLabel) (closing : Blanks) (rest : List Char) :
    moreLabels (furtherLabels names ++ (closing.chars ++ ')' :: rest))
      = (names.map (·.label.text), closing.chars ++ ')' :: rest) := by
  induction names with
  | nil =>
    have hnone : nextLabel (closing.chars ++ ')' :: rest) = none := by
      rw [nextLabel, skipGaps_append, skipGaps_of_stops (stops_cons (by decide) _)]
      rfl
    show moreLabels (closing.chars ++ ')' :: rest) = _
    rw [moreLabels]
    split
    · rfl
    · next hsome => exact nomatch hnone.symm.trans hsome
  | cons n names ih =>
    have hnext := nextLabel_append n (stops_furtherLabels names closing rest)
    show moreLabels (n.chars ++ furtherLabels names ++ _) = _
    rw [List.append_assoc, moreLabels]
    split
    · next hnone => exact nomatch hnext.symm.trans hnone
    · next label tail hsome =>
      obtain ⟨rfl, rfl⟩ := Prod.mk.inj (Option.some.inj (hnext.symm.trans hsome))
      rw [ih]
      rfl

theorem labelList_nil (inside : Blanks) (rest : List Char) :
    labelList ('(' :: (inside.chars ++ ')' :: rest)) = some ([], rest) := by
  have hclose : skipGaps (')' :: rest) = ')' :: rest := skipGaps_of_stops (stops_cons (by decide) _)
  show (expect ')' (skipGaps (labels (skipGaps (inside.chars ++ ')' :: rest))).2)).bind
    (fun rest' => some ((labels (skipGaps (inside.chars ++ ')' :: rest))).1, rest')) = _
  rw [skipGaps_append, hclose]
  show (expect ')' (skipGaps (')' :: rest))).bind (fun rest' => some ([], rest')) = _
  rw [hclose]
  rfl

theorem labelList_cons (opening : Blanks) (first : Identifier) (names : List FurtherLabel)
    (closing : Blanks) (rest : List Char) :
    labelList ('(' :: (opening.chars ++ (first.text.toList ++
        (furtherLabels names ++ (closing.chars ++ ')' :: rest)))))
      = some (first.text :: names.map (·.label.text), rest) := by
  have hlabels : labels (first.text.toList ++ (furtherLabels names ++ (closing.chars ++ ')' :: rest)))
      = (first.text :: names.map (·.label.text), closing.chars ++ ')' :: rest) := by
    rw [labels, identifier_append first.valid (stops_furtherLabels names closing rest)]
    dsimp only
    rw [moreLabels_append, String.ofList_toList]
  show (expect ')' (skipGaps (labels (skipGaps _)).2)).bind
    (fun rest => some ((labels (skipGaps _)).1, rest)) = _
  rw [skipGaps_append, skipGaps_of_stops (first.valid.stops_gap _), hlabels]
  show (expect ')' (skipGaps (closing.chars ++ ')' :: rest))).bind (fun rest => some (_, rest)) = _
  rw [skipGaps_append, skipGaps_of_stops (stops_cons (by decide) _)]
  rfl

/-- A label after a comma and a space. -/
def Identifier.afterComma (label : Identifier) : FurtherLabel := ⟨.none, .space, label⟩

theorem toList_intercalate_comma (label : Identifier) (labels : List Identifier) :
    (", ".intercalate ((label :: labels).map Identifier.text)).toList
      = label.text.toList ++ furtherLabels (labels.map Identifier.afterComma) := by
  induction labels generalizing label with
  | nil => simp [furtherLabels]
  | cons next labels ih =>
    have hcons := ih next
    rw [String.toList_intercalate, List.map_cons, List.map_cons] at hcons ⊢
    rw [List.map_cons, List.map_cons, List.intercalate_cons_cons, hcons, List.append_assoc]
    rfl

theorem labelList_intercalate (labels : List Identifier) (rest : List Char) :
    labelList ('(' :: ((", ".intercalate (labels.map Identifier.text)).toList ++ ')' :: rest))
      = some (labels.map Identifier.text, rest) := by
  cases labels with
  | nil => exact labelList_nil .none rest
  | cons label labels =>
    have hlist := labelList_cons .none label (labels.map Identifier.afterComma) .none rest
    rw [List.map_map] at hlist
    rw [toList_intercalate_comma, List.append_assoc]
    exact hlist

/-! ### Integers -/

theorem isDigit_of_mem_toDigits {n : Nat} {c : Char} (h : c ∈ Nat.toDigits 10 n) : c.isDigit = true :=
  Nat.isDigit_of_mem_toDigits (by decide) (Nat.le_refl 10) h

theorem exists_toDigits (n : Nat) : ∃ c rest, Nat.toDigits 10 n = c :: rest ∧ c.isDigit = true := by
  cases hdigits : Nat.toDigits 10 n with
  | nil => exact absurd (Nat.length_toDigits_pos (b := 10) (n := n)) (by simp [hdigits])
  | cons c rest => exact ⟨c, rest, rfl, isDigit_of_mem_toDigits (hdigits ▸ List.mem_cons_self)⟩

/-- The digits of a number with a sign before them. -/
theorem toList_toString_int (n : Int) : (toString n).toList
    = if 0 ≤ n then Nat.toDigits 10 n.toNat else '-' :: Nat.toDigits 10 (-n).toNat := by
  show (Int.repr n).toList = _
  rw [Int.repr_eq_if]
  by_cases hn : 0 ≤ n
  · rw [if_pos hn, if_pos hn, Nat.repr_eq_ofList_toDigits, String.toList_ofList]
  · rw [if_neg hn, if_neg hn, String.toList_append, Nat.repr_eq_ofList_toDigits]
    exact congrArg ('-' :: ·) String.toList_ofList

/-- What holds of the minus sign and the digits holds of every character of an integer. -/
theorem forall_mem_toString_int {p : Char → Prop} (hminus : p '-')
    (hdigit : ∀ c : Char, c.isDigit = true → p c) (n : Int) : ∀ c ∈ (toString n).toList, p c := by
  intro c hc
  rw [toList_toString_int] at hc
  by_cases hn : 0 ≤ n
  · rw [if_pos hn] at hc
    exact hdigit c (isDigit_of_mem_toDigits hc)
  · rw [if_neg hn, List.mem_cons] at hc
    rcases hc with rfl | hc
    · exact hminus
    · exact hdigit c (isDigit_of_mem_toDigits hc)

theorem read_digits {digits cs : List Char} {negative : Bool}
    (hsign : Numeral.sign cs = (negative, digits ++ rest)) (hne : digits ≠ [])
    (hall : ∀ c ∈ digits, c.isDigit = true) (hrest : Ends rest) :
    Numeral.read cs = .ok (some (⟨negative, digits, none, none⟩, rest)) := by
  have hrun : run Char.isDigit (digits ++ rest) = (digits, rest) :=
    run_append hall (hrest.stops rfl rfl)
  have hpoint : ∀ c ∈ rest.head?, c ≠ '.' ∧ c ≠ 'e' ∧ c ≠ 'E' := by
    intro c hc
    have hgap := hrest c hc
    exact ⟨ne_of_class hgap rfl, ne_of_class hgap rfl, ne_of_class hgap rfl⟩
  have hmantissa : Numeral.mantissa (digits ++ rest) = some (digits, none, rest) := by
    rw [Numeral.mantissa, hrun]
    cases digits with
    | nil => exact absurd rfl hne
    | cons d digits =>
      cases rest with
      | nil => rfl
      | cons c rest =>
        dsimp only
        split
        · next heq => exact nomatch (Prod.mk.inj heq).1
        · next heq => exact nomatch (Prod.mk.inj heq).1
        · next heq => exact absurd (List.cons.inj (Prod.mk.inj heq).2).1 (hpoint c rfl).1
        · next heq =>
          cases heq
          rfl
  have hexponent : Numeral.exponentPart rest = .ok (none, rest) := by
    cases rest with
    | nil => rfl
    | cons c rest =>
      obtain ⟨-, hlower, hupper⟩ := hpoint c rfl
      rw [Numeral.exponentPart, if_neg (not_or.mpr ⟨hlower, hupper⟩)]
  rw [Numeral.read, hsign]
  dsimp only
  rw [hmantissa]
  dsimp only
  rw [hexponent]
  rfl

theorem hexadecimal_of_digits {digits : List Char} (h : ∀ c ∈ digits, c.isDigit = true)
    (hrest : Ends rest) : hexadecimal (digits ++ rest) = none := by
  unfold hexadecimal
  split
  · next x tail heq =>
    -- The `x` after a zero would be a digit or a blank.
    have hx : x ≠ 'x' ∧ x ≠ 'X' := by
      cases digits with
      | nil =>
        obtain rfl : rest = '0' :: x :: tail := heq
        exact absurd (hrest '0' rfl) (by decide)
      | cons d digits =>
        cases digits with
        | nil =>
          obtain rfl : rest = x :: tail := (List.cons.inj heq).2
          have hgap := hrest x rfl
          exact ⟨ne_of_class hgap rfl, ne_of_class hgap rfl⟩
        | cons d' digits =>
          have hd' := h d' (List.mem_cons_of_mem _ List.mem_cons_self)
          rw [(List.cons.inj (List.cons.inj heq).2).1] at hd'
          exact ⟨ne_of_class hd' rfl, ne_of_class hd' rfl⟩
    rw [if_neg (not_or.mpr hx)]
  · rfl

theorem sign_cons {c : Char} (hminus : c ≠ '-') (hplus : c ≠ '+') (rest : List Char) :
    Numeral.sign (c :: rest) = (false, c :: rest) := by
  unfold Numeral.sign
  split
  · next heq =>
    cases heq
    exact absurd rfl hminus
  · next heq =>
    cases heq
    exact absurd rfl hplus
  · rfl

/-- The sign of an integer is told from its digits. -/
theorem sign_toString (n : Int) (rest : List Char) :
    Numeral.sign ((toString n).toList ++ rest) = (decide (n < 0), Nat.toDigits 10 n.natAbs ++ rest) := by
  rw [toList_toString_int]
  by_cases hn : 0 ≤ n
  · obtain ⟨c, tail, hcons, hc⟩ := exists_toDigits n.toNat
    have habs : n.natAbs = n.toNat := by omega
    rw [if_pos hn, habs, hcons, decide_eq_false (by omega)]
    exact sign_cons (ne_of_class hc rfl) (ne_of_class hc rfl) (tail ++ rest)
  · have habs : n.natAbs = (-n).toNat := by omega
    rw [if_neg hn, habs, decide_eq_true (by omega)]
    rfl

/-- The value of the digits of an integer, with its sign. -/
theorem value_toString (n : Int) : (if decide (n < 0) then
    -((ofDigits 10 (Nat.toDigits 10 n.natAbs) : Nat) : Int)
      else (ofDigits 10 (Nat.toDigits 10 n.natAbs) : Nat)) = n := by
  rw [ofDigits_toDigits (by decide) (by decide)]
  by_cases hn : n < 0
  · rw [decide_eq_true hn, if_pos rfl]
    omega
  · rw [decide_eq_false hn, if_neg Bool.false_ne_true]
    omega

theorem number_of_read {cs : List Char} {numeral : Numeral} {v : Written}
    (hhex : hexadecimal cs = none) (hread : Numeral.read cs = .ok (some (numeral, rest)))
    (hvalue : numeral.value? = some v) : number cs = .ok (some (v, rest)) := by
  rw [number, hhex]
  dsimp only
  rw [hread]
  show Except.ok (numeral.value?.map fun v => (v, rest)) = _
  rw [hvalue]
  rfl

/-- **An integer of 64 bits is read back.** -/
theorem number_toString {n : Int} (hlow : -0x8000000000000000 ≤ n) (hhigh : n < 0x8000000000000000)
    (hrest : Ends rest) :
    number ((toString n).toList ++ rest) = .ok (some (.integer (Int64.ofInt n), rest)) := by
  have hdigits : ∀ c ∈ Nat.toDigits 10 n.natAbs, c.isDigit = true := fun _ => isDigit_of_mem_toDigits
  have hread := read_digits (sign_toString n rest) (by simp) hdigits hrest
  have hvalue : Numeral.value? ⟨decide (n < 0), Nat.toDigits 10 n.natAbs, none, none⟩
      = some (.integer (Int64.ofInt n)) := by
    show (Numeral.int64? _).map Written.integer = _
    rw [value_toString, Numeral.int64?, if_pos ⟨hlow, hhigh⟩]
    rfl
  refine number_of_read ?_ hread hvalue
  rw [toList_toString_int]
  by_cases hn : 0 ≤ n
  · rw [if_pos hn]
    exact hexadecimal_of_digits (fun _ => isDigit_of_mem_toDigits) hrest
  · rw [if_neg hn]
    rfl

/-! ### Operands -/

/-- An operand that is not enclosed in anything is a number if it can be, and else a name. -/
theorem operand_cons {c : Char} (hc : c ≠ '/' ∧ c ≠ '(' ∧ c ≠ '"') (rest : List Char) :
    operand (c :: rest) = (do
      match ← number (c :: rest) with
      | some found => return some found
      | none => return (name (c :: rest)).map fun (n, rest) => (.name n, rest)) := by
  obtain ⟨hslash, hparen, hquote⟩ := hc
  have hcomment : startsComment (c :: rest) = false := by
    unfold startsComment
    split
    · next heq =>
      cases heq
      exact absurd rfl hslash
    · rfl
  have henclosed : enclosed (c :: rest) = none := by
    have hlist : labelList (c :: rest) = none := by
      rw [labelList, expect, if_neg hparen]
      rfl
    have hstring : string (c :: rest) = none := by
      rw [string, expect, if_neg hquote]
      rfl
    rw [enclosed, hlist, hstring]
    rfl
  rw [operand, hcomment, henclosed]
  rfl

theorem toString_int_ne_nil (n : Int) : (toString n).toList ≠ [] := by
  rw [toList_toString_int]
  by_cases hn : 0 ≤ n
  · obtain ⟨c, tail, hcons, -⟩ := exists_toDigits n.toNat
    simp [hn, hcons]
  · simp [hn]

theorem operand_toString {n : Int} (hlow : -0x8000000000000000 ≤ n) (hhigh : n < 0x8000000000000000)
    (hrest : Ends rest) :
    operand ((toString n).toList ++ rest) = .ok (some (.integer (Int64.ofInt n), rest)) := by
  have hnumber := number_toString hlow hhigh hrest
  have hchars := forall_mem_toString_int (p := fun c => c ≠ '/' ∧ c ≠ '(' ∧ c ≠ '"') (by decide)
    (fun c hc => ⟨ne_of_class hc rfl, ne_of_class hc rfl, ne_of_class hc rfl⟩) n
  obtain ⟨c, tail, hcons⟩ := List.exists_cons_of_ne_nil (toString_int_ne_nil n)
  rw [hcons, List.cons_append] at hnumber ⊢
  rw [hcons] at hchars
  rw [operand_cons (hchars c List.mem_cons_self), hnumber]
  rfl

theorem isDigit_of_isAlpha {c : Char} (hc : c.isAlpha = true) : c.isDigit = false := by
  unfold Char.isAlpha Char.isUpper Char.isLower at hc
  unfold Char.isDigit
  simp only [Bool.or_eq_true, Bool.and_eq_true, decide_eq_true_eq, Bool.and_eq_false_iff,
    decide_eq_false_iff_not, ge_iff_le, UInt32.le_iff_toNat_le] at hc ⊢
  have hbounds : '0'.val.toNat = 48 ∧ '9'.val.toNat = 57 ∧ 'A'.val.toNat = 65 ∧ 'a'.val.toNat = 97 :=
    ⟨rfl, rfl, rfl, rfl⟩
  omega

theorem isDigit_of_startsIdentifier {c : Char} (hc : startsIdentifier c = true) : c.isDigit = false := by
  simp only [startsIdentifier, Bool.or_eq_true, beq_iff_eq] at hc
  rcases hc with hletter | rfl
  · unfold Text.isLetter at hletter
    split at hletter
    · exact isDigit_of_isAlpha hletter
    · next hlarge =>
      have hnine : '9'.val.toNat = 57 := rfl
      have hlimit : (128 : UInt32).toNat = 128 := rfl
      rw [UInt32.lt_iff_toNat_lt, hlimit] at hlarge
      unfold Char.isDigit
      simp only [Bool.and_eq_false_iff, decide_eq_false_iff_not, ge_iff_le, UInt32.le_iff_toNat_le]
      omega
  · rfl

/-- What starts with a letter or an underscore is no number. -/
theorem number_of_startsIdentifier {c : Char} (hc : startsIdentifier c = true) (rest : List Char) :
    number (c :: rest) = .ok none := by
  have hhex : hexadecimal (c :: rest) = none := by
    unfold hexadecimal
    split
    · next heq =>
      cases heq
      exact absurd rfl (ne_of_class hc rfl)
    · rfl
  have hmantissa : Numeral.mantissa (c :: rest) = none := by
    have hrun : run Char.isDigit (c :: rest) = ([], c :: rest) :=
      run_append (fun _ hd => absurd hd List.not_mem_nil) (stops_cons (isDigit_of_startsIdentifier hc) rest)
    rw [Numeral.mantissa, hrun]
    dsimp only
    split
    · next heq =>
      cases heq
      exact absurd rfl (ne_of_class hc rfl)
    · rfl
    · next hne heq => exact absurd (Prod.mk.inj heq).1.symm hne
    · next hne _ heq => exact absurd (Prod.mk.inj heq).1.symm hne
  rw [number, hhex]
  dsimp only
  rw [Numeral.read, sign_cons (ne_of_class hc rfl) (ne_of_class hc rfl)]
  dsimp only
  rw [hmantissa]
  rfl

/-- A name that starts with a letter or an underscore is read as a name. -/
theorem operand_name {c : Char} {tail : List Char} (hc : startsIdentifier c = true)
    (hall : ∀ d ∈ c :: tail, inName d = true) (hrest : Ends rest) :
    operand (c :: tail ++ rest) = .ok (some (.name (String.ofList (c :: tail)), rest)) := by
  have hname : name (c :: tail ++ rest) = some (String.ofList (c :: tail), rest) :=
    run1_append (List.cons_ne_nil c tail) hall (hrest.stops rfl rfl)
  rw [List.cons_append] at hname ⊢
  rw [operand_cons ⟨ne_of_class hc rfl, ne_of_class hc rfl, ne_of_class hc rfl⟩,
    number_of_startsIdentifier hc]
  show Except.ok ((name (c :: (tail ++ rest))).map _) = _
  rw [hname]
  rfl

theorem operand_of_labelList {cs : List Char} {labels : List String}
    (h : labelList ('(' :: cs) = some (labels, rest)) :
    operand ('(' :: cs) = .ok (some (.labels labels, rest)) := by
  rw [operand, enclosed, h]
  rfl

theorem operandAfter_gap (g : Gap) {text : List Char} {written : Written}
    (h : operand text = .ok (some (written, rest))) (hstops : Stops isGap text) :
    operandAfter (g.chars ++ text) = .ok (some written, rest) := by
  rw [operandAfter, skipGaps1_append, skipGaps_of_stops hstops]
  dsimp only
  rw [h]
  rfl

/-! ### Lines -/

/-- A mnemonic, which is none that starts with `.locals`. -/
structure Mnemonic where
  text : String
  ne_nil : text.toList ≠ []
  chars : ∀ c ∈ text.toList, inMnemonic c = true
  not_locals : ¬ ['.', 'l', 'o', 'c', 'a', 'l', 's'] <+: text.toList

theorem instruction_append (m : Mnemonic) {tail : List Char} {written : Option Written}
    (hstops : Stops inMnemonic tail) (h : operandAfter tail = .ok (written, rest)) :
    instruction (m.text.toList ++ tail) = .ok (some (.instruction m.text written), rest) := by
  have hmnemonic : mnemonic (m.text.toList ++ tail) = some (m.text, tail) := by
    rw [mnemonic, run1_append m.ne_nil m.chars hstops, String.ofList_toList]
  rw [instruction, hmnemonic]
  dsimp only
  rw [h]
  rfl

/-- What starts with a mnemonic is no declaration. -/
theorem statement_mnemonic (m : Mnemonic) {tail : List Char} (h : Stops inMnemonic tail) :
    statement (m.text.toList ++ tail) = instruction (m.text.toList ++ tail) := by
  unfold statement
  split
  · next after heq =>
    have hrun : (m.text.toList ++ tail).takeWhile inMnemonic = m.text.toList :=
      congrArg Prod.fst (run_append m.chars h)
    rw [heq] at hrun
    exact absurd ⟨after.takeWhile inMnemonic, hrun⟩ m.not_locals
  · rfl

theorem Mnemonic.stops_gap (m : Mnemonic) (tail : List Char) : Stops isGap (m.text.toList ++ tail) :=
  stops_append m.ne_nil (stops_of_forall fun c hc => isGap_of_class (m.chars c hc) rfl rfl) tail

/-- A line is its label, its statement, and blanks and a comment after that. -/
theorem parse_of_parts {cs tail : List Char} {label : Option String} {written : Option Statement}
    (hlabel : labelPart (skipGaps cs) = (label, rest)) (hstatement : statement rest = .ok (written, tail))
    (hend : skipComment (skipGaps tail) = []) :
    Line.parse (String.ofList cs) = .ok ⟨label, written⟩ := by
  have hline : readLine cs = .ok (⟨label, written⟩, []) := by
    rw [readLine, hlabel]
    dsimp only
    rw [hstatement]
    show Except.ok (_, skipComment (skipGaps tail)) = _
    rw [hend]
  rw [Line.parse, String.toList_ofList, hline]
  rfl

/-- Reading the operand of an instruction leaves nothing over. -/
structure EndsLine (tail : List Char) (written : Option Written) : Prop where
  stops : Stops inMnemonic tail
  operandAfter : operandAfter tail = .ok (written, [])

theorem endsLine_nil : EndsLine [] none := ⟨stops_nil _, rfl⟩

theorem endsLine_space {text : List Char} {written : Written}
    (h : operand text = .ok (some (written, []))) (hstops : Stops isGap text) :
    EndsLine (' ' :: text) (some written) where
  stops := stops_cons (by decide) _
  operandAfter := operandAfter_gap ⟨.space, List.cons_ne_nil _ _⟩ h hstops

/-- **A line with a label and an instruction is read back.** -/
theorem parse_instruction (label : Identifier) (m : Mnemonic) {tail : List Char} {written : Option Written}
    (htail : EndsLine tail written) :
    Line.parse (label.text ++ ": " ++ m.text ++ String.ofList tail)
      = .ok ⟨some label.text, some (.instruction m.text written)⟩ := by
  have htext : label.text ++ ": " ++ m.text ++ String.ofList tail
      = String.ofList (label.text.toList ++ ':' :: ' ' :: (m.text.toList ++ tail)) := by
    apply String.toList_inj.mp
    simp only [String.toList_append, String.toList_ofList, List.append_assoc]
    rfl
  have hlabel : labelPart (skipGaps (label.text.toList ++ ':' :: ' ' :: (m.text.toList ++ tail)))
      = (some label.text, m.text.toList ++ tail) := by
    have hdefinition := labelDefinition_append label .none (' ' :: (m.text.toList ++ tail))
    have hspace := skipGaps_append .space (m.text.toList ++ tail)
    rw [skipGaps_of_stops (m.stops_gap tail)] at hspace
    rw [skipGaps_of_stops (label.valid.stops_gap _), labelPart]
    simp only [Blanks.none, List.nil_append] at hdefinition
    rw [hdefinition]
    exact congrArg (Prod.mk _) hspace
  have hstatement := (statement_mnemonic m htail.stops).trans
    (instruction_append m htail.stops htail.operandAfter)
  rw [htext]
  exact parse_of_parts hlabel hstatement rfl

end Cil.Assembly
