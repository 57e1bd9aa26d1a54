/-
The text of a number tells the number.

A finite number is written as its sign and a numeral without one (`Writes`).  The numeral is read back
from the text (`Writes.read_eq`), so equal texts have equal signs and decimals of equal value.  The decimal
lies in the neighbourhood of the number, and the neighbourhoods of two numbers have no point in common.
An infinite number has a text that is no numeral.
-/
import Cil.Proofs.Assembly.Reading
import Cil.Proofs.Binary.Intervals

namespace Cil

open Text (OneLine)

namespace Assembly

namespace Numeral

/-! ### Numerals as text -/

/-- The text of the exponent of a numeral. -/
def exponentChars : Option Int → List Char
  | none => []
  | some e => 'e' :: (toString e).toList

/-- The text of a numeral without its sign. -/
def unsigned (n : Numeral) : List Char :=
  n.whole ++ (n.fraction.elim [] ('.' :: ·) ++ exponentChars n.exponent)

/-- Is this a numeral of value `x`, but for its sign, with the given text? -/
structure Writes (n : Numeral) (cs : List Char) (x : ℚ) : Prop where
  whole_ne_nil : n.whole ≠ []
  isDigit_whole : ∀ c ∈ n.whole, c.isDigit = true
  isDigit_fraction : ∀ c ∈ n.fraction.getD [], c.isDigit = true
  unsigned_eq : n.unsigned = cs
  value_eq : n.decimal.value = x

theorem stops_exponent (exponent : Option Int) :
    Stops Char.isDigit (exponentChars exponent) := by
  cases exponent with
  | none => exact stops_nil _
  | some e => exact stops_cons (by decide) _

theorem exponentPart_chars (exponent : Option Int) :
    exponentPart (exponentChars exponent) = .ok (exponent, []) := by
  cases exponent with
  | none => rfl
  | some e =>
    obtain ⟨c, rest, hcons, -⟩ := exists_toDigits e.natAbs
    have hrun := run_append (fun c => isDigit_of_mem_toDigits (n := e.natAbs) (c := c))
      (stops_nil Char.isDigit)
    have hsign := sign_toString e []
    have hvalue := value_toString e
    rw [List.append_nil] at hrun hsign
    rw [List.append_nil, hcons] at hsign
    rw [hcons] at hrun hvalue
    show exponentPart ('e' :: (toString e).toList) = _
    rw [exponentPart, if_pos (.inl rfl), hsign]
    dsimp only
    rw [hrun]
    dsimp only
    rw [hvalue]

theorem mantissa_append {whole : List Char} {fraction : Option (List Char)} (hne : whole ≠ [])
    (hwhole : ∀ c ∈ whole, c.isDigit = true) (hfraction : ∀ c ∈ fraction.getD [], c.isDigit = true)
    (exponent : Option Int) :
    mantissa (whole ++ (fraction.elim [] ('.' :: ·) ++ exponentChars exponent))
      = some (whole, fraction, exponentChars exponent) := by
  obtain ⟨d, digits, rfl⟩ := List.exists_cons_of_ne_nil hne
  have hstops := stops_exponent exponent
  cases fraction with
  | some fraction =>
    have hfraction : ∀ c ∈ fraction, c.isDigit = true := hfraction
    have hpoint := run_append hwhole (stops_cons (p := Char.isDigit) (c := '.') (by decide)
      (fraction ++ exponentChars exponent))
    show mantissa (d :: digits ++ '.' :: (fraction ++ exponentChars exponent)) = _
    rw [mantissa, hpoint]
    show some (d :: digits, some (run Char.isDigit (fraction ++ _)).1, (run Char.isDigit _).2) = _
    rw [run_append hfraction hstops]
  | none =>
    show mantissa (d :: digits ++ exponentChars exponent) = _
    rw [mantissa, run_append hwhole hstops]
    cases exponent <;> rfl

variable {n : Numeral} {cs : List Char} {x : ℚ}

/-- **A number with a sign is read back from its text.** -/
theorem Writes.read_eq (h : n.Writes cs x) (negative : Bool) :
    read ((if negative then ['-'] else []) ++ cs) = .ok (some ({ n with negative }, [])) := by
  have hsign : sign ((if negative then ['-'] else []) ++ cs) = (negative, cs) := by
    cases negative with
    | true => rfl
    | false =>
      obtain ⟨hne, hwhole, -, rfl, -⟩ := h
      obtain ⟨d, digits, hcons⟩ := List.exists_cons_of_ne_nil hne
      have hd := hwhole d (by simp [hcons])
      rw [unsigned, hcons]
      exact sign_cons (ne_of_class hd rfl) (ne_of_class hd rfl) _
  rw [read, hsign]
  dsimp only
  rw [← h.unsigned_eq, unsigned, mantissa_append h.whole_ne_nil h.isDigit_whole h.isDigit_fraction]
  dsimp only
  rw [exponentPart_chars]
  rfl

theorem Writes.oneLine (h : n.Writes cs x) : OneLine cs := by
  obtain ⟨negative, whole, fraction, exponent⟩ := n
  obtain ⟨-, hwhole, hfraction, rfl, -⟩ := h
  have hdigits : ∀ ds : List Char, (∀ c ∈ ds, c.isDigit = true) → OneLine ds := by
    intro ds hds c hc
    exact ⟨ne_of_class (hds c hc) rfl, ne_of_class (hds c hc) rfl⟩
  refine Text.oneLine_append (hdigits _ hwhole) (Text.oneLine_append ?_ ?_)
  · cases fraction with
    | none => simp [OneLine]
    | some fraction => exact Text.oneLine_cons (by decide) (hdigits fraction hfraction)
  · cases exponent with
    | none => simp [OneLine, exponentChars]
    | some e =>
      refine Text.oneLine_cons (by decide) ?_
      exact forall_mem_toString_int (p := fun c => c ≠ '\n' ∧ c ≠ '\r') (by decide)
        (fun c hc => ⟨ne_of_class hc rfl, ne_of_class hc rfl⟩) e

end Numeral

end Assembly

namespace Binary

open Assembly (Numeral ofDigits ofDigits_toDigits ofDigits_zeros_append ofDigits_append_zeros)

/-! ### The text of a decimal -/

theorem Decimal.ofDigits_chars (d : Decimal) : ofDigits 10 d.chars = d.digits :=
  ofDigits_toDigits (by decide) (by decide) d.digits

theorem Decimal.isDigit_chars (d : Decimal) : ∀ c ∈ d.chars, c.isDigit = true :=
  fun _ => Assembly.isDigit_of_mem_toDigits

theorem Decimal.chars_ne_nil (d : Decimal) : d.chars ≠ [] := by
  simp [Decimal.chars]

theorem isDigit_zeros (k : Nat) : ∀ c ∈ List.replicate k '0', c.isDigit = true := by
  intro c hc
  rw [List.eq_of_mem_replicate hc]
  rfl

variable (d : Decimal)

theorem writes_fraction (h : d.magnitude ≤ 0) :
    Numeral.Writes ⟨false, ['0'], some (List.replicate (-d.magnitude).toNat '0' ++ d.chars), none⟩
      ('0' :: '.' :: (List.replicate (-d.magnitude).toNat '0' ++ d.chars)) d.value where
  whole_ne_nil := List.cons_ne_nil _ _
  isDigit_whole := by simp
  isDigit_fraction := List.forall_mem_append.mpr ⟨isDigit_zeros _, d.isDigit_chars⟩
  unsigned_eq := by simp [Numeral.unsigned, Numeral.exponentChars]
  value_eq := by
    have hdigits : ofDigits 10 (['0'] ++ (List.replicate (-d.magnitude).toNat '0' ++ d.chars))
        = d.digits := by
      have hzeros := ofDigits_zeros_append 10 (1 + (-d.magnitude).toNat) d.chars
      rwa [List.replicate_add, d.ofDigits_chars, List.append_assoc] at hzeros
    have hexponent : (0 : Int) - (List.replicate (-d.magnitude).toNat '0' ++ d.chars).length
        = d.exponent := by
      unfold Decimal.magnitude at h ⊢
      rw [List.length_append, List.length_replicate]
      omega
    show Decimal.value ⟨_, _⟩ = _
    rw [Option.getD_some, Option.getD_none, hdigits, hexponent]

theorem writes_whole (h : d.chars.length ≤ d.magnitude.toNat) (hpos : 0 < d.magnitude) :
    Numeral.Writes ⟨false, d.chars ++ List.replicate (d.magnitude.toNat - d.chars.length) '0',
        some ['0'], none⟩
      (d.chars ++ List.replicate (d.magnitude.toNat - d.chars.length) '0' ++ ['.', '0']) d.value where
  whole_ne_nil := by simp [d.chars_ne_nil]
  isDigit_whole := List.forall_mem_append.mpr ⟨d.isDigit_chars, isDigit_zeros _⟩
  isDigit_fraction := by simp
  unsigned_eq := by simp [Numeral.unsigned, Numeral.exponentChars]
  value_eq := by
    have hdigits : ofDigits 10 (d.chars ++ List.replicate (d.magnitude.toNat - d.chars.length) '0' ++ ['0'])
        = d.digits * 10 ^ (d.magnitude.toNat - d.chars.length + 1) := by
      have hzeros := ofDigits_append_zeros 10 (d.magnitude.toNat - d.chars.length + 1) d.chars
      rwa [List.replicate_succ', ← List.append_assoc, d.ofDigits_chars] at hzeros
    have hexponent : d.exponent = ((d.magnitude.toNat - d.chars.length + 1 : Nat) : Int) + (0 - 1) := by
      unfold Decimal.magnitude at h hpos ⊢
      omega
    show Decimal.value ⟨_, _⟩ = _
    rw [Option.getD_some, Option.getD_none, hdigits, Decimal.value, Decimal.value, hexponent,
      zpow_add₀ (by norm_num), zpow_natCast, Nat.cast_mul, Nat.cast_pow, mul_assoc]
    rfl

/-- The point stands among the digits. -/
theorem writes_point (h : d.magnitude.toNat < d.chars.length) (hpos : 0 < d.magnitude) :
    Numeral.Writes ⟨false, d.chars.take d.magnitude.toNat, some (d.chars.drop d.magnitude.toNat), none⟩
      (d.chars.take d.magnitude.toNat ++ '.' :: d.chars.drop d.magnitude.toNat) d.value where
  whole_ne_nil := by
    have hlength : (d.chars.take d.magnitude.toNat).length = d.magnitude.toNat := by
      rw [List.length_take]
      omega
    intro (hnil : d.chars.take d.magnitude.toNat = [])
    rw [hnil, List.length_nil] at hlength
    omega
  isDigit_whole := fun c hc => d.isDigit_chars c (List.mem_of_mem_take hc)
  isDigit_fraction := fun c hc => d.isDigit_chars c (List.mem_of_mem_drop hc)
  unsigned_eq := by simp [Numeral.unsigned, Numeral.exponentChars]
  value_eq := by
    have hexponent : (0 : Int) - (d.chars.drop d.magnitude.toNat).length = d.exponent := by
      rw [List.length_drop]
      unfold Decimal.magnitude at h hpos ⊢
      omega
    show Decimal.value ⟨_, _⟩ = _
    rw [Option.getD_some, Option.getD_none, List.take_append_drop, d.ofDigits_chars, hexponent]

/-- The first digit stands alone, or before the point, and an exponent follows. -/
theorem writes_exponent {first : Char} {rest : List Char} (h : d.chars = first :: rest) :
    Numeral.Writes ⟨false, [first], if rest = [] then none else some rest, some (d.magnitude - 1)⟩
      (first :: ((if rest = [] then [] else '.' :: rest) ++ 'e' :: (toString (d.magnitude - 1)).toList))
      d.value where
  whole_ne_nil := List.cons_ne_nil _ _
  isDigit_whole := by
    have hfirst := d.isDigit_chars first (by simp [h])
    simpa using hfirst
  isDigit_fraction := by
    intro c hc
    refine d.isDigit_chars c ?_
    by_cases hrest : rest = []
    · simp [hrest] at hc
    · simp [hrest] at hc
      simp [h, hc]
  unsigned_eq := by
    by_cases hrest : rest = []
    · simp [hrest, Numeral.unsigned, Numeral.exponentChars]
    · simp [hrest, Numeral.unsigned, Numeral.exponentChars]
  value_eq := by
    have hfraction : (if rest = [] then none else some rest).getD [] = rest := by
      by_cases hrest : rest = []
      · simp [hrest]
      · simp [hrest]
    have hexponent : d.magnitude - 1 - rest.length = d.exponent := by
      rw [Decimal.magnitude, h, List.length_cons]
      omega
    show Decimal.value ⟨_, _⟩ = _
    rw [Option.getD_some, hfraction, List.singleton_append, ← h, d.ofDigits_chars, hexponent]

theorem exists_writes (l : Layout) : ∃ n, Numeral.Writes n (l.text d).toList d.value := by
  unfold Layout.text
  dsimp only
  by_cases hplace : l.positionalFrom < d.magnitude ∧ d.magnitude ≤ l.positionalBelow
  · rw [if_pos hplace, String.toList_ofList]
    by_cases hpos : d.magnitude ≤ 0
    · rw [if_pos hpos]
      exact ⟨_, writes_fraction d hpos⟩
    · rw [if_neg hpos]
      by_cases hlength : d.chars.length ≤ d.magnitude.toNat
      · rw [if_pos hlength]
        exact ⟨_, writes_whole d hlength (by omega)⟩
      · rw [if_neg hlength]
        exact ⟨_, writes_point d (by omega) (by omega)⟩
  · obtain ⟨first, rest, hcons⟩ : ∃ first rest, d.chars = first :: rest :=
      List.exists_cons_of_ne_nil d.chars_ne_nil
    have hwrites := writes_exponent d hcons
    rw [if_neg hplace, String.toList_append, String.toList_append, String.toList_ofList,
      List.append_assoc, hcons]
    cases rest with
    | nil => exact ⟨_, hwrites⟩
    | cons next rest => exact ⟨_, hwrites⟩

/-! ### The fields of a number -/

namespace Format

variable {f : Format} {a b : Nat}

/-- The exponent as it stands in the bits. -/
def exponentField (f : Format) (bits : Nat) : Nat := (bits >>> f.fractionBits) % 2 ^ f.exponentBits

def fractionField (f : Format) (bits : Nat) : Nat := bits % 2 ^ f.fractionBits

theorem fractionField_lt (f : Format) (bits : Nat) : f.fractionField bits < 2 ^ f.fractionBits :=
  Nat.mod_lt _ (Nat.two_pow_pos _)

/-- The number of bits of the format. -/
def width (f : Format) : Nat := f.exponentBits + f.fractionBits + 1

theorem eq_of_fields (ha : a < 2 ^ f.width) (hb : b < 2 ^ f.width)
    (hsign : a.testBit (f.exponentBits + f.fractionBits) = b.testBit (f.exponentBits + f.fractionBits))
    (hexponent : f.exponentField a = f.exponentField b)
    (hfraction : f.fractionField a = f.fractionField b) : a = b := by
  apply Nat.eq_of_testBit_eq
  intro i
  by_cases hlow : i < f.fractionBits
  · have hbit := congrArg (Nat.testBit · i) hfraction
    simpa [fractionField, Nat.testBit_mod_two_pow, hlow] using hbit
  · by_cases hmiddle : i < f.exponentBits + f.fractionBits
    · have hbit := congrArg (Nat.testBit · (i - f.fractionBits)) hexponent
      have hplace : f.fractionBits + (i - f.fractionBits) = i := by omega
      have hin : i - f.fractionBits < f.exponentBits := by omega
      simpa [exponentField, Nat.testBit_mod_two_pow, Nat.testBit_shiftRight, hin, hplace] using hbit
    · by_cases htop : i = f.exponentBits + f.fractionBits
      · rw [htop]
        exact hsign
      · have hle : 2 ^ f.width ≤ 2 ^ i := Nat.pow_le_pow_right (by decide) (by unfold width; omega)
        rw [Nat.testBit_lt_two_pow (ha.trans_le hle), Nat.testBit_lt_two_pow (hb.trans_le hle)]

theorem decode_eq (f : Format) (bits : Nat) : f.decode bits =
    if f.exponentField bits = 2 ^ f.exponentBits - 1 then
      if f.fractionField bits = 0 then .infinite (bits.testBit (f.exponentBits + f.fractionBits))
      else .nan
    else if f.exponentField bits = 0 then
      .finite (bits.testBit (f.exponentBits + f.fractionBits)) (f.fractionField bits) f.minExponent
    else
      .finite (bits.testBit (f.exponentBits + f.fractionBits))
        (2 ^ f.fractionBits + f.fractionField bits) (f.minExponent + f.exponentField bits - 1) := by
  simp only [decode, exponentField, fractionField, Nat.shiftLeft_eq, Nat.one_mul]
  rfl

variable {bits s : Nat} {e : Int} {negative : Bool}

theorem fields_of_infinite (h : f.decode bits = .infinite negative) :
    bits.testBit (f.exponentBits + f.fractionBits) = negative ∧
      f.exponentField bits = 2 ^ f.exponentBits - 1 ∧ f.fractionField bits = 0 := by
  rw [decode_eq] at h
  split at h
  · next hexponent =>
    split at h
    · next hfraction => exact ⟨Datum.infinite.inj h, hexponent, hfraction⟩
    · exact nomatch h
  · split at h <;> exact nomatch h

/-- The smallest numbers have no leading one, and all the others have. -/
theorem fields_of_finite (h : f.decode bits = .finite negative s e) :
    bits.testBit (f.exponentBits + f.fractionBits) = negative ∧
      (f.exponentField bits = 0 ∧ f.fractionField bits = s ∧ e = f.minExponent ∨
        0 < f.exponentField bits ∧ 2 ^ f.fractionBits + f.fractionField bits = s ∧
          e = f.minExponent + f.exponentField bits - 1) := by
  rw [decode_eq] at h
  split at h
  · split at h <;> exact nomatch h
  · split at h
    · next hexponent =>
      obtain ⟨hsign, hs, he⟩ := Datum.finite.inj h
      exact ⟨hsign, .inl ⟨hexponent, hs, he.symm⟩⟩
    · next hexponent =>
      obtain ⟨hsign, hs, he⟩ := Datum.finite.inj h
      exact ⟨hsign, .inr ⟨Nat.pos_of_ne_zero hexponent, hs, he.symm⟩⟩

theorem has_of_finite (h : f.decode bits = .finite negative s e) : f.Has s e := by
  have hlt := f.fractionField_lt bits
  obtain ⟨-, ⟨-, rfl, rfl⟩ | ⟨hpos, rfl, rfl⟩⟩ := fields_of_finite h
  · exact ⟨by rw [Nat.pow_succ]; omega, le_refl _, fun hmin => absurd hmin (lt_irrefl _)⟩
  · exact ⟨by rw [Nat.pow_succ]; omega, by omega, fun _ => Nat.le_add_right _ _⟩

/-- Different bits stand for the same only if that is not a number. -/
theorem decode_injective (ha : a < 2 ^ f.width) (hb : b < 2 ^ f.width) (hnan : f.decode a ≠ .nan)
    (h : f.decode a = f.decode b) : a = b := by
  have hlta := f.fractionField_lt a
  have hltb := f.fractionField_lt b
  cases hdecode : f.decode a with
  | nan => exact absurd hdecode hnan
  | infinite negative =>
    obtain ⟨hsign, hexponent, hfraction⟩ := fields_of_infinite hdecode
    obtain ⟨hsign', hexponent', hfraction'⟩ := fields_of_infinite (h ▸ hdecode)
    exact eq_of_fields ha hb (hsign.trans hsign'.symm) (hexponent.trans hexponent'.symm)
      (hfraction.trans hfraction'.symm)
  | finite negative s e =>
    obtain ⟨hsign, hfields⟩ := fields_of_finite hdecode
    obtain ⟨hsign', hfields'⟩ := fields_of_finite (h ▸ hdecode)
    exact eq_of_fields ha hb (hsign.trans hsign'.symm) (by omega) (by omega)

/-! ### The text of a number -/

theorem toList_sign_append (negative : Bool) (t : String) :
    ((if negative then "-" else "") ++ t).toList = (if negative then ['-'] else []) ++ t.toList := by
  rw [String.toList_append]
  cases negative <;> rfl

theorem toList_text_infinite (h : f.decode bits = .infinite negative) :
    (f.text bits).toList = (if negative then ['-'] else []) ++ ['i', 'n', 'f'] := by
  rw [text, h]
  exact toList_sign_append negative "inf"

theorem read_text_infinite (h : f.decode bits = .infinite negative) :
    Numeral.read (f.text bits).toList = .ok none := by
  rw [toList_text_infinite h]
  cases negative <;> rfl

/-- A finite number has a numeral for its text, whose value tells it from all others. -/
theorem exists_writes_text (h : f.decode bits = .finite negative s e) :
    ∃ n cs x, Numeral.Writes n cs x ∧
      (f.text bits).toList = (if negative then ['-'] else []) ++ cs ∧
      (s = 0 ∧ x = 0 ∨ 0 < s ∧ (Neighbourhood.of f s e).Mem x) := by
  rw [text, h]
  dsimp only
  rw [toList_sign_append]
  by_cases hs : s = 0
  · have hdecimal : Numeral.decimal ⟨false, ['0'], some ['0'], none⟩ = ⟨0, -1⟩ := rfl
    have hwrites : Numeral.Writes ⟨false, ['0'], some ['0'], none⟩ "0.0".toList 0 :=
      ⟨by simp, by simp, by simp, rfl, by simp [hdecimal, Decimal.value]⟩
    rw [if_pos hs]
    exact ⟨_, _, _, hwrites, rfl, .inl ⟨hs, rfl⟩⟩
  · have hpos := Nat.pos_of_ne_zero hs
    obtain ⟨n, hwrites⟩ := exists_writes (shortest f s e) constantLayout
    rw [if_neg hs]
    exact ⟨n, _, _, hwrites, rfl, .inr ⟨hpos, shortest_mem f e hpos⟩⟩

theorem oneLine_text (hnan : f.decode bits ≠ .nan) : OneLine (f.text bits).toList := by
  have hsign : ∀ negative : Bool, OneLine (if negative then ['-'] else []) := by
    intro negative
    cases negative <;> simp [OneLine]
  cases hdecode : f.decode bits with
  | nan => exact absurd hdecode hnan
  | infinite negative =>
    rw [toList_text_infinite hdecode]
    exact Text.oneLine_append (hsign negative) (by simp [OneLine])
  | finite negative s e =>
    obtain ⟨n, cs, x, hwrites, htext, -⟩ := exists_writes_text hdecode
    rw [htext]
    exact Text.oneLine_append (hsign negative) hwrites.oneLine

theorem eq_of_text_finite {s' : Nat} {e' : Int} {negative' : Bool}
    (ha : f.decode a = .finite negative s e) (hb : f.decode b = .finite negative' s' e')
    (h : f.text a = f.text b) : negative = negative' ∧ s = s' ∧ e = e' := by
  obtain ⟨n, cs, x, hwrites, htext, hx⟩ := exists_writes_text ha
  obtain ⟨n', cs', x', hwrites', htext', hx'⟩ := exists_writes_text hb
  have hread := hwrites.read_eq negative
  rw [← htext, h, htext', hwrites'.read_eq negative'] at hread
  have hnumeral : ({ n with negative } : Numeral) = { n' with negative := negative' } := by
    simpa using hread.symm
  have hnegative : negative = negative' := congrArg Numeral.negative hnumeral
  have hvalue : x = x' := by
    have hdecimal := congrArg Numeral.decimal hnumeral
    rw [← hwrites.value_eq, ← hwrites'.value_eq]
    exact congrArg Decimal.value hdecimal
  subst hvalue
  refine ⟨hnegative, ?_⟩
  have hhas := has_of_finite ha
  have hhas' := has_of_finite hb
  rcases hx with ⟨rfl, hzero⟩ | ⟨hpos, hmem⟩
  · rcases hx' with ⟨rfl, -⟩ | ⟨hpos', hmem'⟩
    · refine ⟨rfl, ?_⟩
      have := hhas.minExponent_le
      have := hhas'.minExponent_le
      have := hhas.normal
      have := hhas'.normal
      have := Nat.two_pow_pos f.fractionBits
      omega
    · exact absurd hzero (Neighbourhood.pos_of_mem hpos' hmem').ne'
  · rcases hx' with ⟨rfl, hzero⟩ | ⟨hpos', hmem'⟩
    · exact absurd hzero (Neighbourhood.pos_of_mem hpos hmem).ne'
    · exact Neighbourhood.eq_of_mem_of_mem hhas hhas' hpos hpos' hmem hmem'

theorem read_text_finite (h : f.decode bits = .finite negative s e) :
    Numeral.read (f.text bits).toList ≠ .ok none := by
  obtain ⟨n, cs, x, hwrites, htext, -⟩ := exists_writes_text h
  rw [htext, hwrites.read_eq]
  simp

/-- **Two numbers have the same text only if they have the same bits.** -/
theorem text_injective (ha : a < 2 ^ f.width) (hb : b < 2 ^ f.width) (hnan : f.decode a ≠ .nan)
    (hnan' : f.decode b ≠ .nan) (h : f.text a = f.text b) : a = b := by
  refine decode_injective ha hb hnan ?_
  cases hdecode : f.decode a with
  | nan => exact absurd hdecode hnan
  | infinite negative =>
    cases hdecode' : f.decode b with
    | nan => exact absurd hdecode' hnan'
    | infinite negative' =>
      have htext := toList_text_infinite hdecode
      rw [h, toList_text_infinite hdecode', List.append_left_inj] at htext
      cases negative <;> cases negative' <;> simp at htext ⊢
    | finite negative' s e =>
      exact absurd (h ▸ read_text_infinite hdecode) (read_text_finite hdecode')
  | finite negative s e =>
    cases hdecode' : f.decode b with
    | nan => exact absurd hdecode' hnan'
    | infinite negative' =>
      exact absurd (h ▸ read_text_infinite hdecode') (read_text_finite hdecode)
    | finite negative' s' e' =>
      obtain ⟨rfl, rfl, rfl⟩ := eq_of_text_finite hdecode hdecode' h
      rfl

end Format

end Binary

end Cil
