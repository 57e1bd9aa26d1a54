/-
Decimals that read back.

Around every positive number of a format lies the interval of what reads back as it.  It reaches half way
to the neighbours on either side, and its ends belong to it just if the significand is even.  So two
intervals have no point in common (`eq_of_mem_of_mem`): where they touch, one of the two significands is
odd.  The shortest decimal of a number lies in its interval (`shortest_mem`).
-/
import Cil.Binary.Decimal
import Mathlib.Algebra.Order.Field.Power
import Mathlib.Algebra.Order.Ring.Rat
import Mathlib.Algebra.Field.Rat
import Mathlib.Tactic.FieldSimp
import Mathlib.Tactic.Linarith
import Mathlib.Tactic.Positivity
import Mathlib.Tactic.Ring

namespace Cil.Binary

/-! ### Values -/

theorem pow_toNat_div_pow_toNat (b : ℚ) (z : Int) :
    b ^ z.toNat / b ^ (-z).toNat = b ^ z := by
  rcases Int.le_total 0 z with hz | hz
  · have hneg : (-z).toNat = 0 := by omega
    rw [hneg, pow_zero, div_one, ← zpow_natCast, Int.toNat_of_nonneg hz]
  · have hpos : z.toNat = 0 := by omega
    rw [hpos, pow_zero, one_div, ← zpow_natCast, Int.toNat_of_nonneg (by omega), zpow_neg, inv_inv]

/-- The number that a decimal stands for. -/
def Decimal.value (d : Decimal) : ℚ := d.digits * 10 ^ d.exponent

theorem Decimal.value_eq_div (n : Nat) (e : Int) :
    value ⟨n, e⟩ = (n * Nat.pow 10 e.toNat : Nat) / (Nat.pow 10 (-e).toNat : Nat) := by
  have hpow := pow_toNat_div_pow_toNat 10 e
  simp only [value, Nat.pow_eq, Nat.cast_mul, Nat.cast_pow, Nat.cast_ofNat]
  rw [← hpow, mul_div_assoc]

theorem Decimal.value_normalize (d : Decimal) : d.normalize.value = d.value := by
  unfold normalize
  split
  · next h =>
    rw [value_normalize]
    have hdigits : d.digits / 10 * 10 = d.digits := Nat.div_mul_cancel (Nat.dvd_of_mod_eq_zero h.2)
    have hcast : ((d.digits / 10 : Nat) : ℚ) * 10 = d.digits := by exact_mod_cast hdigits
    simp only [value]
    rw [zpow_add_one₀ (by norm_num), ← hcast]
    ring
  · rfl
termination_by d.digits
decreasing_by exact Nat.div_lt_self (by omega) (by omega)

/-! ### Membership -/

namespace Neighbourhood

/-- The lower end of the interval. -/
def bottom (i : Neighbourhood) : ℚ := i.low / i.den

/-- The upper end of the interval. -/
def top (i : Neighbourhood) : ℚ := i.high / i.den

/-- The number lies in the interval, and not at its ends unless these belong to it. -/
structure Mem (i : Neighbourhood) (x : ℚ) : Prop where
  bottom_le : i.bottom ≤ x
  le_top : x ≤ i.top
  inside : i.closed = false → i.bottom < x ∧ x < i.top

theorem mem_of_contains {i : Neighbourhood} {n : Nat} {e : Int} (hden : 0 < i.den)
    (h : i.contains n e = true) : i.Mem (Decimal.value ⟨n, e⟩) := by
  have hden' : (0 : ℚ) < i.den := by exact_mod_cast hden
  have hunit : (0 : ℚ) < (Nat.pow 10 (-e).toNat : Nat) := by exact_mod_cast Nat.pow_pos (by decide)
  -- Both comparisons are those of quotients, multiplied out.
  rw [Decimal.value_eq_div]
  unfold contains at h
  by_cases hclosed : i.closed = true
  · rw [if_pos hclosed, Bool.and_eq_true, decide_eq_true_eq, decide_eq_true_eq] at h
    refine ⟨?_, ?_, by simp [hclosed]⟩
    · exact (div_le_div_iff₀ hden' hunit).mpr (by exact_mod_cast h.1)
    · exact (div_le_div_iff₀ hunit hden').mpr (by exact_mod_cast h.2)
  · rw [if_neg hclosed, Bool.and_eq_true, decide_eq_true_eq, decide_eq_true_eq] at h
    have hbottom : i.bottom < ((n * Nat.pow 10 e.toNat : Nat) : ℚ) / (Nat.pow 10 (-e).toNat : Nat) :=
      (div_lt_div_iff₀ hden' hunit).mpr (by exact_mod_cast h.1)
    have htop : ((n * Nat.pow 10 e.toNat : Nat) : ℚ) / (Nat.pow 10 (-e).toNat : Nat) < i.top :=
      (div_lt_div_iff₀ hunit hden').mpr (by exact_mod_cast h.2)
    exact ⟨hbottom.le, htop.le, fun _ => ⟨hbottom, htop⟩⟩

/-- What is found on a grid reads back. -/
theorem contains_of_onGrid? {i : Neighbourhood} {e : Int} {d : Decimal} (h : i.onGrid? e = some d) :
    i.contains d.digits d.exponent = true := by
  unfold onGrid? at h
  dsimp only at h
  split at h
  · next hlow _ =>
    obtain rfl := Option.some.inj h
    exact hlow
  · next _ hhigh =>
    obtain rfl := Option.some.inj h
    exact hhigh
  · next hlow hhigh =>
    split at h
    · obtain rfl := Option.some.inj h
      exact hlow
    · obtain rfl := Option.some.inj h
      exact hhigh
  · simp at h

/-! ### The interval of a number -/

variable {f : Format} {s s' : Nat} {e e' : Int}

/-- A quarter of the last place. -/
def quarter (e : Int) : ℚ := 2 ^ (e - 2)

theorem quarter_pos (e : Int) : 0 < quarter e := by
  unfold quarter
  positivity

/-- How many quarters of the last place the interval reaches down. -/
def reach (f : Format) (s : Nat) (e : Int) : Nat :=
  if s = 1 <<< f.fractionBits ∧ f.minExponent < e then 1 else 2

theorem reach_le_two (f : Format) (s : Nat) (e : Int) : reach f s e ≤ 2 := by
  unfold reach
  split <;> omega

theorem reach_pos (f : Format) (s : Nat) (e : Int) : 0 < reach f s e := by
  unfold reach
  split <;> omega

/-- Below a power of two the numbers lie twice as close, unless it is the smallest. -/
theorem reach_of_power (h : f.minExponent < e) : reach f (2 ^ f.fractionBits) e = 1 := by
  simp [reach, Nat.shiftLeft_eq, h]

theorem shiftLeft_div (m : Nat) (e : Int) :
    ((m <<< (e - 2).toNat : Nat) : ℚ) / (1 <<< (2 - e).toNat : Nat) = m * quarter e := by
  have hpow := pow_toNat_div_pow_toNat 2 (e - 2)
  rw [show -(e - 2) = 2 - e by omega] at hpow
  simp only [Nat.shiftLeft_eq, Nat.cast_mul, Nat.cast_pow, Nat.cast_ofNat, one_mul]
  rw [mul_div_assoc, hpow, quarter]

theorem den_of_pos (f : Format) (s : Nat) (e : Int) : 0 < (of f s e).den := by
  simp [of, Nat.shiftLeft_eq]

theorem top_of (f : Format) (s : Nat) (e : Int) : (of f s e).top = (4 * s + 2) * quarter e := by
  have hshift := shiftLeft_div (4 * s + 2) e
  push_cast at hshift
  exact hshift

theorem bottom_of (f : Format) (e : Int) (hs : 0 < s) :
    (of f s e).bottom = (4 * s - reach f s e) * quarter e := by
  have hreach := reach_le_two f s e
  have hshift := shiftLeft_div (4 * s - reach f s e) e
  rw [Nat.cast_sub (by omega)] at hshift
  push_cast at hshift
  exact hshift

theorem closed_of (f : Format) (s : Nat) (e : Int) : (of f s e).closed = decide (s % 2 = 0) := rfl

/-- A number lies inside its own interval. -/
theorem mem_of_self (f : Format) (e : Int) (hs : 0 < s) : (of f s e).Mem (s * 2 ^ e) := by
  have hvalue : (s : ℚ) * 2 ^ e = 4 * s * quarter e := by
    rw [quarter, zpow_sub₀ (by norm_num)]
    norm_num
    ring
  have hquarter := quarter_pos e
  have hreach : (0 : ℚ) < reach f s e := by exact_mod_cast reach_pos f s e
  have hbottom : (of f s e).bottom < s * 2 ^ e := by
    rw [bottom_of f e hs, hvalue]
    nlinarith
  have htop : (s : ℚ) * 2 ^ e < (of f s e).top := by
    rw [top_of, hvalue]
    nlinarith
  exact ⟨hbottom.le, htop.le, fun _ => ⟨hbottom, htop⟩⟩

theorem pos_of_mem (hs : 0 < s) {x : ℚ} (h : (of f s e).Mem x) : 0 < x := by
  have hbottom := h.bottom_le
  have hreach : (reach f s e : ℚ) ≤ 2 := by exact_mod_cast reach_le_two f s e
  have hs' : (1 : ℚ) ≤ s := by exact_mod_cast hs
  have hquarter := quarter_pos e
  rw [bottom_of f e hs] at hbottom
  nlinarith

theorem two_quarters_le (h : e < e') : 2 * quarter e ≤ quarter e' := by
  have hstep : 2 * quarter e = 2 ^ (e + 1 - 2) := by
    rw [quarter, show e + 1 - 2 = e - 2 + 1 by omega, zpow_add_one₀ (by norm_num), mul_comm]
  rw [hstep]
  exact zpow_le_zpow_right₀ (by norm_num) (by omega)

/-- Intervals of numbers with one exponent meet only if they are the same: at an end that two of them
share, one of the significands is odd. -/
theorem le_of_mem_of_mem (hs' : 0 < s') {x : ℚ} (h : (of f s e).Mem x)
    (h' : (of f s' e).Mem x) : s' ≤ s := by
  by_contra hlt
  have hquarter := quarter_pos e
  have hreach : (reach f s' e : ℚ) ≤ 2 := by exact_mod_cast reach_le_two f s' e
  have hnext : (s : ℚ) + 1 ≤ s' := by exact_mod_cast Nat.lt_of_not_le hlt
  have htouch : (of f s e).top ≤ (of f s' e).bottom := by
    rw [top_of, bottom_of f e hs']
    nlinarith
  have hle := h.le_top
  have hge := h'.bottom_le
  by_cases hodd : s % 2 = 1
  · have hopen := (h.inside (by simp [closed_of, hodd])).2
    linarith
  by_cases hodd' : s' % 2 = 1
  · have hopen := (h'.inside (by simp [closed_of, hodd'])).1
    linarith
  -- Both are even, and so the intervals do not even touch.
  have hfar : (s : ℚ) + 2 ≤ s' := by
    have : s + 2 ≤ s' := by omega
    exact_mod_cast this
  rw [top_of] at hle
  rw [bottom_of f e hs'] at hge
  nlinarith

end Neighbourhood

/-- The format has the number `s * 2 ^ e` in this form: the significand is short enough, and not shorter
than need be unless the exponent is the least. -/
structure Format.Has (f : Format) (s : Nat) (e : Int) : Prop where
  lt : s < 2 ^ (f.fractionBits + 1)
  minExponent_le : f.minExponent ≤ e
  normal : f.minExponent < e → 2 ^ f.fractionBits ≤ s

namespace Neighbourhood

variable {f : Format} {s s' : Nat} {e e' : Int}

/-- The intervals of numbers with different exponents do not meet.  Those of the largest number with an
exponent and of the power of two after it touch, and the former has an odd significand. -/
theorem not_mem_of_lt (hlt : e < e') (hf : f.Has s e) (hf' : f.Has s' e') (hs' : 0 < s') {x : ℚ}
    (h : (of f s e).Mem x) (h' : (of f s' e').Mem x) : False := by
  have hmin : f.minExponent < e' := Int.lt_of_le_of_lt hf.minExponent_le hlt
  have hquarter := quarter_pos e
  have hcoarse := two_quarters_le hlt
  have hle := h.le_top
  have hge := h'.bottom_le
  have hshort : s + 1 ≤ 2 * 2 ^ f.fractionBits := by
    have := hf.lt
    rw [Nat.pow_succ] at this
    omega
  have hpower : (1 : ℚ) ≤ (2 ^ f.fractionBits : Nat) := by exact_mod_cast Nat.one_le_two_pow
  by_cases hfirst : s' = 2 ^ f.fractionBits
  · subst hfirst
    rw [bottom_of f e' hs', reach_of_power hmin] at hge
    have hup : (4 * (2 ^ f.fractionBits : Nat) - 1) * (2 * quarter e)
        ≤ (4 * (2 ^ f.fractionBits : Nat) - (1 : Nat)) * quarter e' := by
      push_cast at hpower ⊢
      exact mul_le_mul_of_nonneg_left hcoarse (by linarith)
    by_cases hodd : s % 2 = 1
    · have hopen := (h.inside (by simp [closed_of, hodd])).2
      have hbound : (s : ℚ) + 1 ≤ 2 * (2 ^ f.fractionBits : Nat) := by exact_mod_cast hshort
      rw [top_of] at hopen
      nlinarith
    · have hbound : (s : ℚ) + 2 ≤ 2 * (2 ^ f.fractionBits : Nat) := by
        have : s + 2 ≤ 2 * 2 ^ f.fractionBits := by omega
        exact_mod_cast this
      rw [top_of] at hle
      nlinarith
  · have hnext : ((2 ^ f.fractionBits : Nat) : ℚ) + 1 ≤ s' := by
      have := hf'.normal hmin
      have : 2 ^ f.fractionBits + 1 ≤ s' := by omega
      exact_mod_cast this
    have hreach : (reach f s' e' : ℚ) ≤ 2 := by exact_mod_cast reach_le_two f s' e'
    have hbound : (s : ℚ) + 1 ≤ 2 * (2 ^ f.fractionBits : Nat) := by exact_mod_cast hshort
    have hup : (4 * (2 ^ f.fractionBits : Nat) + 2) * (2 * quarter e)
        ≤ (4 * s' - reach f s' e') * quarter e' :=
      mul_le_mul (by linarith) hcoarse (by linarith) (by linarith)
    rw [top_of] at hle
    rw [bottom_of f e' hs'] at hge
    nlinarith

/-- **No number reads back as two numbers of a format.** -/
theorem eq_of_mem_of_mem (hf : f.Has s e) (hf' : f.Has s' e') (hs : 0 < s) (hs' : 0 < s') {x : ℚ}
    (h : (of f s e).Mem x) (h' : (of f s' e').Mem x) : s = s' ∧ e = e' := by
  rcases Int.lt_trichotomy e e' with hlt | rfl | hlt
  · exact (not_mem_of_lt hlt hf hf' hs' h h').elim
  · exact ⟨Nat.le_antisymm (le_of_mem_of_mem hs h' h) (le_of_mem_of_mem hs' h h'), rfl⟩
  · exact (not_mem_of_lt hlt hf' hf hs h' h).elim

end Neighbourhood

/-! ### The shortest decimal -/

theorem value_exactDecimal (s : Nat) (e : Int) : (exactDecimal s e).value = s * 2 ^ e := by
  unfold exactDecimal
  by_cases he : 0 ≤ e
  · rw [if_pos he]
    simp [Decimal.value, Nat.shiftLeft_eq, ← zpow_natCast, Int.toNat_of_nonneg he]
  · have hneg : (((-e).toNat : Nat) : Int) = -e := Int.toNat_of_nonneg (by omega)
    have hten : (10 : ℚ) ^ e = 2 ^ e * 5 ^ e := by
      rw [← mul_zpow]
      norm_num
    rw [if_neg he]
    simp only [Decimal.value, Nat.pow_eq, Nat.cast_mul, Nat.cast_pow, Nat.cast_ofNat, ← zpow_natCast,
      hneg, hten]
    rw [zpow_neg]
    field_simp

/-- **The shortest decimal of a number reads back as it.** -/
theorem shortest_mem (f : Format) {s : Nat} (e : Int) (hs : 0 < s) :
    (Neighbourhood.of f s e).Mem (shortest f s e).value := by
  unfold shortest
  dsimp only
  rw [Decimal.value_normalize]
  cases hfound : List.findSome? (Neighbourhood.of f s e).onGrid? _ with
  | none =>
    rw [Option.getD_none, value_exactDecimal]
    exact Neighbourhood.mem_of_self f e hs
  | some d =>
    obtain ⟨grid, -, hgrid⟩ := List.exists_of_findSome?_eq_some hfound
    exact Neighbourhood.mem_of_contains (Neighbourhood.den_of_pos f s e)
      (Neighbourhood.contains_of_onGrid? hgrid)

end Cil.Binary
