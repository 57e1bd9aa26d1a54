/-
Digits and lines.

Digits are read back as the number they were written from, with or without zeros before them, so two
numbers have the same digits only if they are equal.  A text put together from lines without line
ends in them has just these lines.
-/
import Cil.Assembly.Numeral
import Cil.Text.Lines
import Mathlib.Algebra.Group.Nat.Defs
import Mathlib.Data.List.Basic

namespace Cil

namespace Text

/-! ### Digits -/

theorem hexDigit?_digitChar : ∀ d < 16, hexDigit? (Nat.digitChar d) = some d := by decide

theorem hexDigit?_toUpper :
    ∀ d < 16, hexDigit? (Nat.digitChar d).toUpper = hexDigit? (Nat.digitChar d) := by decide

theorem exists_of_mem_toDigits {base n : Nat} (hbase : 1 < base) {c : Char}
    (h : c ∈ Nat.toDigits base n) : ∃ d < base, c = Nat.digitChar d := by
  induction n using Nat.strongRecOn with
  | _ n ih =>
    rw [Nat.toDigits_eq_if hbase] at h
    by_cases hn : n < base
    · rw [if_pos hn] at h
      exact ⟨n, hn, List.mem_singleton.mp h⟩
    · rw [if_neg hn] at h
      rcases List.mem_append.mp h with h | h
      · exact ih (n / base) (Nat.div_lt_self (by omega) hbase) h
      · exact ⟨n % base, Nat.mod_lt n (by omega), List.mem_singleton.mp h⟩

/-- What holds of the digits of base sixteen holds of every character of a number in it. -/
theorem forall_mem_hex {p : Char → Prop} (hdigits : ∀ d < 16, p (Nat.digitChar d)) (width n : Nat) :
    ∀ c ∈ (hex width n).toList, p c := by
  intro c hc
  rw [hex, String.toList_ofList, padZeros, List.mem_append] at hc
  rcases hc with hc | hc
  · rw [List.eq_of_mem_replicate hc]
    exact hdigits 0 (by decide)
  · obtain ⟨d, hd, rfl⟩ := exists_of_mem_toDigits (by decide) hc
    exact hdigits d hd

theorem forall_mem_hexUpper {p : Char → Prop} (hdigits : ∀ d < 16, p (Nat.digitChar d).toUpper)
    (width n : Nat) : ∀ c ∈ (hexUpper width n).toList, p c := by
  intro c hc
  rw [hexUpper, String.toList_ofList, padZeros, List.mem_append] at hc
  rcases hc with hc | hc
  · rw [List.eq_of_mem_replicate hc]
    exact hdigits 0 (by decide)
  · obtain ⟨digit, hdigit, rfl⟩ := List.mem_map.mp hc
    obtain ⟨d, hd, rfl⟩ := exists_of_mem_toDigits (by decide : 1 < 16) hdigit
    exact hdigits d hd

end Text

namespace Assembly

theorem ofDigits_toDigits {base : Nat} (hlow : 1 < base) (hhigh : base ≤ 16) (n : Nat) :
    ofDigits base (Nat.toDigits base n) = n := by
  have hdigit : ∀ d < base, (Text.hexDigit? (Nat.digitChar d)).getD 0 = d := by
    intro d hd
    rw [Text.hexDigit?_digitChar d (by omega), Option.getD_some]
  induction n using Nat.strongRecOn with
  | _ n ih =>
    rw [Nat.toDigits_eq_if hlow]
    by_cases hn : n < base
    · rw [if_pos hn]
      show 0 * base + (Text.hexDigit? (Nat.digitChar n)).getD 0 = n
      rw [hdigit n hn, Nat.zero_mul, Nat.zero_add]
    · have hrest := ih (n / base) (Nat.div_lt_self (by omega) hlow)
      unfold ofDigits at hrest ⊢
      rw [if_neg hn, List.foldl_append, hrest]
      show n / base * base + (Text.hexDigit? (Nat.digitChar (n % base))).getD 0 = n
      rw [hdigit _ (Nat.mod_lt n (by omega)), Nat.mul_comm]
      exact Nat.div_add_mod n base

theorem ofDigits_zeros_append (base k : Nat) (digits : List Char) :
    ofDigits base (List.replicate k '0' ++ digits) = ofDigits base digits := by
  induction k with
  | zero => rfl
  | succ k ih =>
    unfold ofDigits at ih ⊢
    have hzero : 0 * base + (Text.hexDigit? '0').getD 0 = 0 := by
      rw [Nat.zero_mul]
      rfl
    rw [List.replicate_succ, List.cons_append, List.foldl_cons, hzero, ih]

theorem ofDigits_append_zeros (base k : Nat) (digits : List Char) :
    ofDigits base (digits ++ List.replicate k '0') = ofDigits base digits * base ^ k := by
  induction k with
  | zero => simp
  | succ k ih =>
    have hzero : (Text.hexDigit? '0').getD 0 = 0 := rfl
    unfold ofDigits at ih ⊢
    rw [List.replicate_succ', ← List.append_assoc, List.foldl_append, ih, List.foldl_cons,
      List.foldl_nil, hzero, Nat.add_zero, Nat.pow_succ, Nat.mul_assoc]

theorem ofDigits_map {base : Nat} {digits : List Char} {f : Char → Char}
    (h : ∀ c ∈ digits, Text.hexDigit? (f c) = Text.hexDigit? c) :
    ofDigits base (digits.map f) = ofDigits base digits := by
  unfold ofDigits
  rw [List.foldl_map]
  exact List.foldl_ext _ _ 0 fun n c hc => by rw [h c hc]

end Assembly

namespace Text

theorem hex_injective {width m n : Nat} (h : hex width m = hex width n) : m = n := by
  have hvalue : ∀ k, Assembly.ofDigits 16 (hex width k).toList = k := by
    intro k
    rw [hex, String.toList_ofList, padZeros, Assembly.ofDigits_zeros_append,
      Assembly.ofDigits_toDigits (by decide) (Nat.le_refl 16)]
  rw [← hvalue m, h, hvalue]

theorem hexUpper_injective {width m n : Nat} (h : hexUpper width m = hexUpper width n) : m = n := by
  have hupper : ∀ k, ∀ c ∈ Nat.toDigits 16 k, hexDigit? c.toUpper = hexDigit? c := by
    intro k c hc
    obtain ⟨d, hd, rfl⟩ := exists_of_mem_toDigits (by decide) hc
    exact hexDigit?_toUpper d hd
  have hvalue : ∀ k, Assembly.ofDigits 16 (hexUpper width k).toList = k := by
    intro k
    rw [hexUpper, String.toList_ofList, padZeros, Assembly.ofDigits_zeros_append,
      Assembly.ofDigits_map (hupper k), Assembly.ofDigits_toDigits (by decide) (Nat.le_refl 16)]
  rw [← hvalue m, h, hvalue]

/-! ### Lines -/

/-- There is no line end among the characters. -/
def OneLine (cs : List Char) : Prop := ∀ c ∈ cs, c ≠ '\n' ∧ c ≠ '\r'

theorem oneLine_cons {c : Char} {cs : List Char} (hc : c ≠ '\n' ∧ c ≠ '\r') (hcs : OneLine cs) :
    OneLine (c :: cs) :=
  List.forall_mem_cons.mpr ⟨hc, hcs⟩

theorem oneLine_append {cs ds : List Char} (hcs : OneLine cs) (hds : OneLine ds) :
    OneLine (cs ++ ds) := by
  intro c hc
  rcases List.mem_append.mp hc with hc | hc
  · exact hcs c hc
  · exact hds c hc

theorem linesFrom_append {line : List Char} (h : OneLine line) (current rest : List Char) :
    linesFrom current (line ++ rest) = linesFrom (line.reverse ++ current) rest := by
  induction line generalizing current with
  | nil => rfl
  | cons c line ih =>
    have hc := (h c List.mem_cons_self).1
    have hline : OneLine line := fun d hd => h d (List.mem_cons_of_mem c hd)
    have hstep : linesFrom current (c :: (line ++ rest)) = linesFrom (c :: current) (line ++ rest) := by
      rw [linesFrom]
      exact hc
    rw [List.cons_append, hstep, ih hline, List.reverse_cons, List.append_assoc]
    rfl

theorem dropReturn_of_oneLine {line : List Char} (h : OneLine line) : dropReturn line = line := by
  unfold dropReturn
  split
  · next rest hreverse =>
    have hmem : '\r' ∈ line.reverse := hreverse ▸ List.mem_cons_self
    exact absurd rfl (h '\r' (List.mem_reverse.mp hmem)).2
  · rfl

/-- **A text has the lines it was put together from.** -/
theorem lines_join {ls : List String} (h : ∀ l ∈ ls, OneLine l.toList) :
    lines (String.join (ls.map (· ++ "\n"))) = ls := by
  have hfrom : linesFrom [] ((ls.map (· ++ "\n")).flatMap String.toList) = ls.map String.toList := by
    induction ls with
    | nil => rfl
    | cons l rest ih =>
      have hl := h l List.mem_cons_self
      have hrest := ih fun l' hl' => h l' (List.mem_cons_of_mem l hl')
      rw [List.map_cons, List.flatMap_cons, String.toList_append, List.append_assoc,
        linesFrom_append hl, List.append_nil, List.map_cons, ← hrest]
      show linesFrom l.toList.reverse ('\n' :: _) = _
      rw [linesFrom, List.reverse_reverse, dropReturn_of_oneLine hl]
      rfl
  rw [lines, String.toList_join, hfrom, List.map_map]
  have hid : String.ofList ∘ String.toList = id := funext fun s => String.ofList_toList
  rw [hid, List.map_id]

/-- The characters of the first lines, with their line ends. -/
def takeLines : Nat → List Char → List Char
  | 0, _ => []
  | _ + 1, [] => []
  | n + 1, '\n' :: rest => '\n' :: takeLines n rest
  | n + 1, c :: rest => c :: takeLines (n + 1) rest

theorem linesFrom_takeLines (n : Nat) (current cs : List Char) :
    linesFrom current (takeLines (n + 1) cs) = (linesFrom current cs).take (n + 1) := by
  induction cs generalizing n current with
  | nil =>
    rw [takeLines]
    cases current with
    | nil => rfl
    | cons c current => simp [linesFrom]
  | cons c rest ih =>
    by_cases hc : c = '\n'
    · subst hc
      rw [takeLines, linesFrom, linesFrom, List.take_succ_cons]
      cases n with
      | zero => simp [takeLines, linesFrom]
      | succ n => rw [ih]
    · have htake : takeLines (n + 1) (c :: rest) = c :: takeLines (n + 1) rest := by
        rw [takeLines]
        exact hc
      have hfrom : ∀ cs, linesFrom current (c :: cs) = linesFrom (c :: current) cs := by
        intro cs
        rw [linesFrom]
        exact hc
      rw [htake, hfrom, hfrom, ih]

/-- The first lines of a text are the lines of a text. -/
theorem exists_lines_eq_take (s : String) (n : Nat) : ∃ t, lines t = (lines s).take n := by
  cases n with
  | zero => exact ⟨"", by rw [List.take_zero]; rfl⟩
  | succ n =>
    refine ⟨String.ofList (takeLines (n + 1) s.toList), ?_⟩
    rw [lines, lines, String.toList_ofList, linesFrom_takeLines, List.map_take]

end Text

end Cil
