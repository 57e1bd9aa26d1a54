/-
How many columns a text takes on a terminal, where neighbouring characters share columns.

Some letters merge with the one before them: an Arabic lam and alef, a Khmer letter and its
subscript, and a few pairs of other scripts that a joiner holds together.  Emoji joined to one
another, given a skin tone or spelling out a flag are drawn as one picture of two columns.

A text is measured from its end.  The columns that a character adds depend on nothing but the
onset of the text after it, which is as much as has to be known of that text.
-/
import Cil.Text.Emoji
import Cil.Text.Width

namespace Cil.Text

/-! ### Classes of characters -/

/-- The Arabic letters that merge with a lam before them. -/
def alefRanges : Ranges :=
  [(0x622, 0x623), (0x625, 0x625), (0x627, 0x627), (0x671, 0x673), (0x675, 0x675), (0x773, 0x774),
    (0x870, 0x882)]

def lamRanges : Ranges :=
  [(0x644, 0x644), (0x6B5, 0x6B8), (0x76A, 0x76A), (0x8A6, 0x8A6), (0x8C7, 0x8C7)]

/-- The Khmer letters that may be written below the one before them. -/
def subscriptRanges : Ranges :=
  [(0x1780, 0x1782), (0x1784, 0x1787), (0x1789, 0x178C), (0x178E, 0x1793), (0x1795, 0x1798),
    (0x179B, 0x179D), (0x17A0, 0x17A0), (0x17A2, 0x17A2), (0x17A7, 0x17A7), (0x17AB, 0x17AC),
    (0x17AF, 0x17AF)]

/-- The Tifinagh consonants that join in pairs. -/
def consonantRanges : Ranges :=
  [(0x2D31, 0x2D65), (0x2D6F, 0x2D6F)]

/-- The Lisu tones that one of `closingToneRanges` may follow. -/
def openingToneRanges : Ranges :=
  [(0xA4F8, 0xA4FB)]

def closingToneRanges : Ranges :=
  [(0xA4FC, 0xA4FD)]

/-- The ignorable marks, which stand between letters without parting them. -/
def ignorableMarkRanges : Ranges :=
  [(0x34F, 0x34F), (0x17B4, 0x17B5), (0x180B, 0x180D), (0x180F, 0x180F), (0xFE00, 0xFE0F),
    (0xE0100, 0xE01EF)]

/-- The characters without a column that part Arabic letters. -/
def partingRanges : Ranges :=
  [(0x605, 0x605), (0x890, 0x891), (0x8E2, 0x8E2), (0x9BE, 0x9BE), (0x9D7, 0x9D7), (0xB3E, 0xB3E),
    (0xB57, 0xB57), (0xBBE, 0xBBE), (0xBD7, 0xBD7), (0xCC0, 0xCC0), (0xCC2, 0xCC2), (0xCC7, 0xCC8),
    (0xCCA, 0xCCB), (0xCD5, 0xCD6), (0xD3E, 0xD3E), (0xD4E, 0xD4E), (0xD57, 0xD57), (0xDCF, 0xDCF),
    (0xDDF, 0xDDF), (0x1160, 0x11FF), (0x180E, 0x180E), (0x1B35, 0x1B35), (0x1B3B, 0x1B3B),
    (0x1B3D, 0x1B3D), (0x1B43, 0x1B43), (0x200C, 0x200D), (0x2065, 0x2069), (0x302E, 0x302F),
    (0x3164, 0x3164), (0xA8FA, 0xA8FA), (0xD7B0, 0xD7C6), (0xD7CB, 0xD7FB), (0xFF9E, 0xFFA0),
    (0xFFF0, 0xFFF8), (0x111C2, 0x111C3), (0x1133E, 0x1133E), (0x11357, 0x11357),
    (0x114B0, 0x114B0), (0x114BD, 0x114BD), (0x115AF, 0x115AF), (0x11930, 0x11930),
    (0x1193F, 0x1193F), (0x11941, 0x11941), (0x11A3A, 0x11A3A), (0x11A84, 0x11A89),
    (0x11D46, 0x11D46), (0x11F02, 0x11F02), (0x1D165, 0x1D165), (0x1D16E, 0x1D172),
    (0xE0000, 0xE0000), (0xE0002, 0xE001F), (0xE0080, 0xE00FF), (0xE01F0, 0xE0FFF)]

/-- Whether `c` may stand between Arabic letters without parting them. -/
def isTransparent (c : Char) : Bool :=
  charWidth c = 0 && !partingRanges.contains c

def skinToneRanges : Ranges :=
  [(0x1F3FB, 0x1F3FF)]

/-- The regional indicators, two of which spell out a flag. -/
def regionRanges : Ranges :=
  [(0x1F1E6, 0x1F1FF)]

def tagLetterRanges : Ranges :=
  [(0xE0061, 0xE007A)]

def tagDigitRanges : Ranges :=
  [(0xE0030, 0xE0039)]

/-- The mark that ends a sequence of tags. -/
def tagEnd : Nat := 0xE007F

/-- The flag that tags may follow. -/
def blackFlag : Nat := 0x1F3F4

/-- The mark that draws a key around the character before it. -/
def keycap : Nat := 0x20E3

/-- The joiner, which takes no column itself. -/
def joiner : Nat := 0x200D

def textSelector : Nat := 0xFE0E

def emojiSelector : Nat := 0xFE0F

/-! ### Onsets -/

/-- What a text starts with, selectors and joiners before a letter apart. -/
inductive Head where
  | plain
  /-- An Arabic alef. -/
  | alef
  /-- A Hebrew lamed. -/
  | lamed
  /-- A Khmer letter that may be written below another. -/
  | subscript
  /-- A Buginese ya. -/
  | ya
  /-- A Buginese vowel sign i that is joined to a ya. -/
  | vowelYa
  | consonant
  /-- The mark that joins Tifinagh consonants, before one of them. -/
  | linkedConsonant
  | closingTone
  /-- An Old Turkic letter i. -/
  | turkicI
  | skinTone
  /-- One regional indicator. -/
  | region
  /-- Regional indicators. -/
  | regions
  /-- A picture of two columns. -/
  | emoji
  /-- A joiner and a picture. -/
  | joined
  /-- A key around the character before it, a joiner and a picture. -/
  | joinedKeycap
  /-- One regional indicator, a joiner and a picture. -/
  | joinedRegion
  /-- Regional indicators, an even number of them, a joiner and a picture. -/
  | joinedEvenRegions
  /-- Regional indicators, an odd number of them, a joiner and a picture. -/
  | joinedOddRegions
  /-- So many tags that are letters, the mark that ends them, a joiner and a picture. -/
  | tagLetters (n : Nat)
  /-- So many tags that are digits before some that are letters, and what follows as above. -/
  | tagDigits (n : Nat)

namespace Head

/-- Whether this is a letter that may merge with one before it, whatever selectors stand between
them. -/
def isLetter : Head → Bool
  | alef | lamed | subscript | ya | vowelYa | consonant | linkedConsonant | closingTone
  | turkicI => true
  | _ => false

/-- Whether this is a letter that may merge with one before it across a joiner. -/
def joins : Head → Bool
  | alef => false
  | h => h.isLetter

/-- Whether what stands before the joiner is drawn together with the picture after it. -/
def isJoined : Head → Bool
  | joined | joinedKeycap => true
  | _ => false

end Head

/-- As much of a text as bears on the columns of a character before it. -/
structure Onset where
  head : Head
  /-- A joiner stands before the head. -/
  joined : Bool
  /-- An emoji selector comes first. -/
  emojiSelected : Bool
  /-- A text selector comes first, past an emoji selector. -/
  textSelected : Bool

namespace Onset

def of (h : Head) : Onset := ⟨h, false, false, false⟩

/-- The onset of the empty text. -/
def empty : Onset := of .plain

/-- The onset with an emoji selector in front. -/
def selectEmoji (o : Onset) : Onset :=
  if o.head.isLetter || o.head.isJoined then { o with emojiSelected := true }
  else { empty with emojiSelected := true }

/-- The onset with a text selector in front. -/
def selectText (o : Onset) : Onset :=
  if o.head.isLetter then { o with textSelected := true }
  else { empty with textSelected := true }

/-- The onset before a character that the emoji selector does not change. -/
def dropEmojiSelector (o : Onset) : Onset :=
  if !o.emojiSelected then o
  else if o.head.isLetter then { o with emojiSelected := false }
  else empty

/-- What a character adds when it merges with nothing: its own columns. -/
def alone (c : Char) : Int × Onset :=
  (charWidth c,
    of (if alefRanges.contains c then .alef
      else if c.toNat = 0x5DC then .lamed
      else if subscriptRanges.contains c then .subscript
      else if c.toNat = 0x1A10 then .ya
      else if consonantRanges.contains c then .consonant
      else if closingToneRanges.contains c then .closingTone
      else if c.toNat = 0x10C03 then .turkicI
      else if skinToneRanges.contains c then .skinTone
      else if regionRanges.contains c then .region
      else if Emoji.isColoured c then .emoji
      else .plain))

/-- What a character adds when it merges with the head after it: the columns by which the text
grows, and the new onset. -/
def merge? (o : Onset) (c : Char) : Option (Int × Onset) :=
  let isRegion := regionRanges.contains c
  let isJoiner := c.toNat = joiner
  match o.head with
  | .plain => none
  | .alef =>
    if lamRanges.contains c then some (0, empty)
    else if isTransparent c then some (0, o)
    else none
  | .lamed => if o.joined ∧ c.toNat = 0x5D0 then some (0, empty) else none
  | .subscript => if c.toNat = 0x17D2 then some (-1, empty) else none
  | .ya => if o.joined ∧ c.toNat = 0x1A17 then some (0, of .vowelYa) else none
  | .vowelYa => if c.toNat = 0x1A15 then some (0, empty) else none
  | .consonant =>
    if c.toNat = 0x2D7F then some (1, of .linkedConsonant)
    else if o.joined && consonantRanges.contains c then some (0, empty)
    else none
  | .linkedConsonant => if consonantRanges.contains c then some (-1, empty) else none
  | .closingTone => if openingToneRanges.contains c then some (0, empty) else none
  | .turkicI => if o.joined ∧ c.toNat = 0x10C32 then some (0, empty) else none
  | .skinTone =>
    if Emoji.isBody c then some (0, of .emoji)
    else if isJoiner then some (0, of .joined)
    else none
  | .region => if isRegion then some (1, of .regions) else none
  | .regions =>
    if isRegion then some (1, of .regions)
    else if isJoiner then some (0, of .joined)
    else none
  | .emoji => if isJoiner then some (0, of .joined) else none
  | .joined =>
    if c.toNat = keycap then some (0, of .joinedKeycap)
    else if isRegion then some (1, of .joinedRegion)
    else if skinToneRanges.contains c then some (0, of .skinTone)
    else if c.toNat = tagEnd then some (0, of (.tagLetters 0))
    else if Emoji.isColoured c then some (0, of .emoji)
    else none
  | .joinedKeycap => none
  | .joinedRegion => if isRegion then some (-1, of .joinedEvenRegions) else none
  | .joinedEvenRegions =>
    if isRegion then some (3, of .joinedOddRegions)
    else if isJoiner then some (0, of .joined)
    else none
  | .joinedOddRegions =>
    if isRegion then some (-1, of .joinedEvenRegions)
    else if isJoiner then some (0, of .joined)
    else none
  | .tagLetters n =>
    if n < 6 && tagLetterRanges.contains c then some (0, of (.tagLetters (n + 1)))
    else if n < 5 && tagDigitRanges.contains c then some (0, of (.tagDigits 1))
    else if 3 ≤ n ∧ c.toNat = blackFlag then some (0, of .emoji)
    else none
  | .tagDigits n =>
    if n < 3 && tagDigitRanges.contains c then some (0, of (.tagDigits (n + 1)))
    else if n = 3 ∧ c.toNat = blackFlag then some (0, of .emoji)
    else none

/-- What a character adds that no selector changes. -/
def add (o : Onset) (c : Char) : Int × Onset :=
  if o.head.joins ∧ c.toNat = joiner then (0, { o with joined := true })
  else if o.head.joins && ignorableMarkRanges.contains c then (0, o)
  else (o.merge? c).getD (alone c)

/-- What a character adds in front of a text: the columns by which the text grows, and its new
onset. -/
def push (o : Onset) (c : Char) : Int × Onset :=
  if o.emojiSelected && Emoji.takesEmojiSelector c then
    (if o.head.isJoined then 0 else 2, of .emoji)
  else if c.val ≤ 0xA0 then (1, empty)
  else
    let o := o.dropEmojiSelector
    if c.toNat = emojiSelector then (0, o.selectEmoji)
    else if c.toNat = textSelector then (0, o.selectText)
    else if o.textSelected && Emoji.takesTextSelector c then (1, empty)
    else { o with textSelected := false }.add c

end Onset

/-- The columns of a text and its onset. -/
def measured : List Char → Int × Onset
  | [] => (0, .empty)
  | c :: rest =>
    let (columns, onset) := measured rest
    let (more, onset) := onset.push c
    (columns + more, onset)

/-- The columns of a text. -/
def width (s : List Char) : Nat :=
  (measured s).1.toNat

end Cil.Text
