/-
**Rounding to nearest.**

A number is rounded to a format in two steps: an exponent is chosen at which the mantissa has just
the bits of the format, and the number is rounded to a multiple of that power of two.  The result is
a number of the format, and no other number of the format is nearer: those with the same exponent or
a greater one are multiples of the same power of two, and those with a lesser one are too small.
Hence rounding never passes a number of the format, and gives nothing only beyond the range of the
format.

Main definitions:

* `BinaryFormat.Holds` — **the numbers of a format**.

Main results:

* `divNearest_nearest` — no integer is nearer to a quotient than the one that is chosen;
* `BinaryFormat.lt_exponentOf`, `BinaryFormat.exponentOf_le` — the bits of a mantissa;
* `BinaryFormat.holds_of_round?`, `BinaryFormat.round?_nearest` — **rounding gives a number of the
  format, and no other one is nearer**;
* `BinaryFormat.le_of_round?_eq_none` — where there is no such number;
* `Width.holds_of_ofNumber` — every width that is read is of the format of 32 bits;
* `Width.exists_ofInt` — the width nearest to a number of pixels.
-/

import Mathlib.Tactic.Linarith
import OfferLayout.Proofs.Number.Order

set_option relaxedAutoImplicit false
set_option autoImplicit false

namespace OfferLayout

/-! ### Quotients -/

theorem divNearest_cases (num den : ℕ) :
    (divNearest num den = num / den ∧ 2 * (num % den) ≤ den) ∨
      (divNearest num den = num / den + 1 ∧ den ≤ 2 * (num % den)) := by
  unfold divNearest
  dsimp only
  split
  · next h => exact Or.inl ⟨rfl, h.le⟩
  · next h =>
      split
      · next h' => exact Or.inr ⟨rfl, h'.le⟩
      · split
        · exact Or.inl ⟨rfl, by omega⟩
        · exact Or.inr ⟨rfl, by omega⟩

/-- The integer that is chosen is at most one half away. -/
theorem abs_divNearest_sub_le (num : ℕ) {den : ℕ} (h : 0 < den) :
    |(divNearest num den : ℚ) - num / den| ≤ 1 / 2 := by
  have hden : (0 : ℚ) < den := Nat.cast_pos.2 h
  have hnum : (num : ℚ) / den = (num / den : ℕ) + (num % den : ℕ) / den := by
    rw [eq_comm, add_div' _ _ _ hden.ne', div_left_inj' hden.ne', mul_comm]
    exact_mod_cast Nat.div_add_mod num den
  rw [hnum, abs_le]
  rcases divNearest_cases num den with ⟨hchoice, hrest⟩ | ⟨hchoice, hrest⟩
  · have hhalf : ((num % den : ℕ) : ℚ) / den ≤ 1 / 2 := by
      rw [div_le_div_iff₀ hden two_pos, one_mul, mul_comm]
      exact_mod_cast hrest
    have hpos : (0 : ℚ) ≤ ((num % den : ℕ) : ℚ) / den := by positivity
    rw [hchoice]
    constructor <;> linarith
  · have hhalf : (1 : ℚ) / 2 ≤ ((num % den : ℕ) : ℚ) / den := by
      rw [div_le_div_iff₀ two_pos hden, one_mul, mul_comm]
      exact_mod_cast hrest
    have hlt : ((num % den : ℕ) : ℚ) / den < 1 := by
      rw [div_lt_one hden]
      exact_mod_cast Nat.mod_lt num h
    rw [hchoice, Nat.cast_add_one]
    constructor <;> linarith

/-- **No integer is nearer to a quotient** than the one that is chosen. -/
theorem divNearest_nearest (num : ℕ) {den : ℕ} (h : 0 < den) (k : ℤ) :
    |(divNearest num den : ℚ) - num / den| ≤ |(k : ℚ) - num / den| := by
  rcases eq_or_ne k (divNearest num den) with rfl | hne
  · rw [Int.cast_natCast]
  · have hone : (1 : ℚ) ≤ |(k : ℚ) - divNearest num den| := by
      exact_mod_cast Int.one_le_abs (sub_ne_zero.2 hne)
    have htriangle := abs_sub_le (k : ℚ) (num / den) (divNearest num den)
    rw [abs_sub_comm (num / den : ℚ)] at htriangle
    have hhalf := abs_divNearest_sub_le num h
    linarith

/-- The integer that is chosen is not beyond an integer that the quotient is below. -/
theorem divNearest_le {num den n : ℕ} (h : 0 < den) (hlt : (num : ℚ) / den < n) :
    divNearest num den ≤ n := by
  by_contra hnot
  have hge : (n : ℚ) + 1 ≤ divNearest num den := by exact_mod_cast not_le.1 hnot
  have hhalf := (abs_le.1 (abs_divNearest_sub_le num h)).2
  linarith

theorem scaleBinary_pos (num : ℕ) {den : ℕ} (h : 0 < den) (e : ℤ) : 0 < (scaleBinary num den e).2 := by
  unfold scaleBinary
  split
  · exact h
  · exact Nat.mul_pos h (Nat.pow_pos two_pos)

/-- A quotient that is scaled is multiplied by a power of two. -/
theorem scaleBinary_eq (num den : ℕ) (e : ℤ) :
    ((scaleBinary num den e).1 : ℚ) / (scaleBinary num den e).2 = num / den * 2 ^ e := by
  unfold scaleBinary
  split
  · next h =>
      have hpow : ((Nat.pow 2 e.toNat : ℕ) : ℚ) = 2 ^ e := by
        rw [Nat.pow_eq, Nat.cast_pow, Nat.cast_ofNat, ← zpow_natCast, Int.toNat_of_nonneg h]
      rw [Nat.cast_mul, hpow]
      ring
  · next h =>
      have hpow : ((Nat.pow 2 (-e).toNat : ℕ) : ℚ) = (2 ^ e)⁻¹ := by
        rw [Nat.pow_eq, Nat.cast_pow, Nat.cast_ofNat, ← zpow_natCast,
          Int.toNat_of_nonneg (by omega), zpow_neg]
      rw [Nat.cast_mul, hpow, ← div_div, div_inv_eq_mul]

/-! ### Values and signs -/

namespace Binary

theorem abs_value (x : Binary) : |x.value| = x.mantissa * 2 ^ x.exponent := by
  rw [Binary.value, abs_mul, abs_of_pos (zpow_pos (two_pos (α := ℚ)) x.exponent)]
  cases x.negative <;> simp

/-- A number with its sign. -/
def signed (negative : Bool) (q : ℚ) : ℚ := if negative then -q else q

theorem value_eq_signed (x : Binary) :
    x.value = signed x.negative (x.mantissa * 2 ^ x.exponent) := by
  rw [Binary.value, signed]
  cases x.negative
  · rfl
  · exact neg_mul _ _

/-- A number with the other sign. -/
theorem value_opposite (x : Binary) :
    ({ x with negative := !x.negative } : Binary).value = -x.value := by
  rw [value_eq_signed, value_eq_signed, signed, signed]
  cases x.negative <;> simp

end Binary

/-! ### The bits of a mantissa -/

/-- A quotient is between two powers of two. -/
theorem zpow_log2_sub_lt {num den : ℕ} (hnum : num ≠ 0) (hden : den ≠ 0) :
    (2 : ℚ) ^ ((num.log2 : ℤ) - den.log2 - 1) ≤ num / den ∧
      (num : ℚ) / den < 2 ^ ((num.log2 : ℤ) - den.log2 + 1) := by
  have hpos : (0 : ℚ) < den := Nat.cast_pos.2 (Nat.pos_of_ne_zero hden)
  have hlow (n : ℕ) (hn : n ≠ 0) : (2 : ℚ) ^ (n.log2 : ℤ) ≤ n := by
    exact_mod_cast Nat.log2_self_le hn
  have hhigh (n : ℕ) : (n : ℚ) < 2 ^ ((n.log2 : ℤ) + 1) := by
    exact_mod_cast Nat.lt_log2_self
  constructor
  · rw [le_div_iff₀ hpos]
    calc (2 : ℚ) ^ ((num.log2 : ℤ) - den.log2 - 1) * den
        ≤ 2 ^ ((num.log2 : ℤ) - den.log2 - 1) * 2 ^ ((den.log2 : ℤ) + 1) :=
          mul_le_mul_of_nonneg_left (hhigh den).le (zpow_nonneg two_pos.le _)
      _ = 2 ^ (num.log2 : ℤ) := by
          rw [← zpow_add₀ two_ne_zero]
          congr 1
          ring
      _ ≤ num := hlow num hnum
  · rw [div_lt_iff₀ hpos]
    calc (num : ℚ) < 2 ^ ((num.log2 : ℤ) + 1) := hhigh num
      _ = 2 ^ ((num.log2 : ℤ) - den.log2 + 1) * 2 ^ (den.log2 : ℤ) := by
          rw [← zpow_add₀ two_ne_zero]
          congr 1
          ring
      _ ≤ 2 ^ ((num.log2 : ℤ) - den.log2 + 1) * den :=
          mul_le_mul_of_nonneg_left (hlow den hden) (zpow_nonneg two_pos.le _)

namespace BinaryFormat

open Binary (signed value_eq_signed)

variable {f : BinaryFormat} {num den : ℕ}

/-- There is one exponent at which the mantissa has just the bits of the format. -/
theorem exists_exponentOf (hf : 0 < f.precision) (hnum : num ≠ 0) (hden : den ≠ 0) :
    ∃ e, f.exponentOf num den = max e f.minExponent ∧
      (2 : ℚ) ^ (f.precision - 1) * 2 ^ e ≤ num / den ∧
      (num : ℚ) / den < 2 ^ f.precision * 2 ^ e := by
  obtain ⟨hlow, hhigh⟩ := zpow_log2_sub_lt hnum hden
  -- the first guess is one too great if the quotient is below the power of two that is tested
  generalize hguess : (num.log2 : ℤ) - den.log2 - f.precision + 1 = e
  have hdouble : (2 : ℚ) ^ (f.precision - 1) * 2 = 2 ^ f.precision := pow_sub_one_mul hf.ne' 2
  have hpred : (2 : ℚ) ^ e = 2 * 2 ^ (e - 1) := by
    rw [mul_comm, ← zpow_add_one₀ two_ne_zero, sub_add_cancel]
  have hupper : (2 : ℚ) ^ ((num.log2 : ℤ) - den.log2 + 1) = 2 ^ f.precision * 2 ^ e := by
    rw [← zpow_natCast, ← zpow_add₀ two_ne_zero, ← hguess]
    congr 1
    ring
  have hlower : (2 : ℚ) ^ ((num.log2 : ℤ) - den.log2 - 1) =
      2 ^ (f.precision - 1) * 2 ^ (e - 1) := by
    rw [← mul_left_inj' (two_ne_zero (α := ℚ)), mul_right_comm, hdouble, ← zpow_natCast,
      ← zpow_add₀ two_ne_zero, ← zpow_add_one₀ two_ne_zero, ← hguess]
    congr 1
    ring
  have htest : (scaleBinary num den (-e)).1 / (scaleBinary num den (-e)).2 <
      Nat.pow 2 (f.precision - 1) ↔ (num : ℚ) / den < 2 ^ (f.precision - 1) * 2 ^ e := by
    have hpos := scaleBinary_pos num (Nat.pos_of_ne_zero hden) (-e)
    rw [Nat.div_lt_iff_lt_mul hpos, ← Nat.cast_lt (α := ℚ), Nat.cast_mul,
      ← div_lt_iff₀ (Nat.cast_pos.2 hpos), scaleBinary_eq, zpow_neg, ← div_eq_mul_inv,
      div_lt_iff₀ (zpow_pos two_pos e), Nat.pow_eq, Nat.cast_pow, Nat.cast_ofNat]
  by_cases hsmall : (num : ℚ) / den < 2 ^ (f.precision - 1) * 2 ^ e
  · refine ⟨e - 1, ?_, hlower ▸ hlow, ?_⟩
    · rw [exponentOf, hguess, if_pos (htest.2 hsmall)]
    · rwa [hpred, ← mul_assoc, hdouble] at hsmall
  · refine ⟨e, ?_, not_lt.1 hsmall, hupper ▸ hhigh⟩
    rw [exponentOf, hguess, if_neg (mt htest.1 hsmall)]

/-- **No number of the format has too many bits** for its mantissa. -/
theorem lt_exponentOf (hf : 0 < f.precision) (hnum : num ≠ 0) (hden : den ≠ 0) :
    (num : ℚ) / den < 2 ^ f.precision * 2 ^ f.exponentOf num den := by
  obtain ⟨e, he, -, hlt⟩ := exists_exponentOf hf hnum hden
  have hmono : (2 : ℚ) ^ e ≤ 2 ^ f.exponentOf num den :=
    zpow_le_zpow_right₀ one_le_two (he ▸ le_max_left e f.minExponent)
  exact hlt.trans_le (mul_le_mul_of_nonneg_left hmono (by positivity))

/-- A mantissa has all its bits, unless the exponent is the least one. -/
theorem exponentOf_le (hf : 0 < f.precision) (hnum : num ≠ 0) (hden : den ≠ 0) :
    f.exponentOf num den = f.minExponent ∨
      (2 : ℚ) ^ (f.precision - 1) * 2 ^ f.exponentOf num den ≤ num / den := by
  obtain ⟨e, he, hle, -⟩ := exists_exponentOf hf hnum hden
  rcases le_total e f.minExponent with hmin | hmin
  · exact Or.inl (he.trans (max_eq_right hmin))
  · rw [he, max_eq_left hmin]
    exact Or.inr hle

theorem minExponent_le_exponentOf : f.minExponent ≤ f.exponentOf num den := le_max_right _ _

/-! ### The number that is chosen -/

/-- The mantissa that is chosen, which may be one power of two more than a mantissa can be. -/
def significand (f : BinaryFormat) (num den : ℕ) : ℕ :=
  let scaled := scaleBinary num den (-f.exponentOf num den)
  divNearest scaled.1 scaled.2

theorem scaled_mul (num den : ℕ) (e : ℤ) (q : ℚ) :
    q * 2 ^ e - num / den =
      (q - (scaleBinary num den (-e)).1 / (scaleBinary num den (-e)).2) * 2 ^ e := by
  rw [scaleBinary_eq, sub_mul, zpow_neg, inv_mul_cancel_right₀ (zpow_ne_zero e two_ne_zero)]

/-- **The power of a mantissa that is chosen** is the multiple nearest to the quotient. -/
theorem significand_nearest (hden : den ≠ 0) (k : ℤ) :
    |(f.significand num den : ℚ) * 2 ^ f.exponentOf num den - num / den| ≤
      |(k : ℚ) * 2 ^ f.exponentOf num den - num / den| := by
  rw [scaled_mul, scaled_mul, abs_mul, abs_mul]
  exact mul_le_mul_of_nonneg_right
    (divNearest_nearest _ (scaleBinary_pos num (Nat.pos_of_ne_zero hden) _) k) (abs_nonneg _)

theorem significand_le (hf : 0 < f.precision) (hnum : num ≠ 0) (hden : den ≠ 0) :
    f.significand num den ≤ 2 ^ f.precision := by
  refine divNearest_le (scaleBinary_pos num (Nat.pos_of_ne_zero hden) _) ?_
  rw [scaleBinary_eq, zpow_neg, ← div_eq_mul_inv, div_lt_iff₀ (zpow_pos two_pos _), Nat.cast_pow,
    Nat.cast_ofNat]
  exact lt_exponentOf hf hnum hden

/-- The number that is chosen, whatever its exponent: a mantissa that has too many bits is carried.
-/
def chosen (f : BinaryFormat) (negative : Bool) (num den : ℕ) : Binary :=
  if f.significand num den = 2 ^ f.precision then
    ⟨negative, 2 ^ (f.precision - 1), f.exponentOf num den + 1⟩
  else ⟨negative, f.significand num den, f.exponentOf num den⟩

theorem round?_eq (hnum : num ≠ 0) (negative : Bool) :
    f.round? negative num den =
      if (f.chosen negative num den).exponent ≤ f.maxExponent then some (f.chosen negative num den)
      else none := by
  rw [round?, if_neg hnum]
  rfl

theorem negative_chosen (negative : Bool) : (f.chosen negative num den).negative = negative := by
  unfold chosen
  split <;> rfl

theorem mantissa_chosen_lt (hf : 0 < f.precision) (hnum : num ≠ 0) (hden : den ≠ 0)
    (negative : Bool) : (f.chosen negative num den).mantissa < 2 ^ f.precision := by
  unfold chosen
  split
  · exact Nat.pow_lt_pow_right one_lt_two (Nat.pred_lt hf.ne')
  · next hne => exact lt_of_le_of_ne (significand_le hf hnum hden) hne

theorem exponentOf_le_chosen (negative : Bool) :
    f.exponentOf num den ≤ (f.chosen negative num den).exponent := by
  unfold chosen
  split
  · exact (Int.lt_succ _).le
  · exact le_rfl

theorem chosen_exponent_le (negative : Bool) :
    (f.chosen negative num den).exponent ≤ f.exponentOf num den + 1 := by
  unfold chosen
  split
  · exact le_rfl
  · exact (Int.lt_succ _).le

/-- Carrying does not change the value. -/
theorem mantissa_chosen_mul (hf : 0 < f.precision) (negative : Bool) :
    ((f.chosen negative num den).mantissa : ℚ) * 2 ^ (f.chosen negative num den).exponent =
      f.significand num den * 2 ^ f.exponentOf num den := by
  unfold chosen
  split
  · next hcarry =>
      dsimp only
      rw [hcarry, zpow_add_one₀ two_ne_zero, Nat.cast_pow, Nat.cast_pow, Nat.cast_ofNat,
        ← pow_sub_one_mul hf.ne' (2 : ℚ)]
      ring
  · rfl

/-- **The numbers of a format.** -/
structure Holds (f : BinaryFormat) (x : Binary) : Prop where
  /-- The mantissa has no more bits than the format. -/
  mantissa_lt : x.mantissa < 2 ^ f.precision
  /-- The exponent is not below the least one. -/
  minExponent_le : f.minExponent ≤ x.exponent
  /-- The exponent is not above the greatest one. -/
  le_maxExponent : x.exponent ≤ f.maxExponent

instance (f : BinaryFormat) (x : Binary) : Decidable (f.Holds x) :=
  decidable_of_iff (x.mantissa < 2 ^ f.precision ∧ f.minExponent ≤ x.exponent ∧
      x.exponent ≤ f.maxExponent)
    ⟨fun h => ⟨h.1, h.2.1, h.2.2⟩, fun h => ⟨h.mantissa_lt, h.minExponent_le, h.le_maxExponent⟩⟩

/-- **Rounding gives a number of the format.** -/
theorem holds_of_round? (hf : 0 < f.precision) (hrange : f.minExponent ≤ f.maxExponent)
    (hden : den ≠ 0) {negative : Bool} {x : Binary} (h : f.round? negative num den = some x) :
    f.Holds x := by
  by_cases hnum : num = 0
  · rw [round?, if_pos hnum, Option.some.injEq] at h
    subst h
    exact { mantissa_lt := by positivity, minExponent_le := le_rfl, le_maxExponent := hrange }
  · rw [round?_eq hnum, Option.ite_none_right_eq_some, Option.some.injEq] at h
    obtain ⟨hmax, rfl⟩ := h
    exact { mantissa_lt := mantissa_chosen_lt hf hnum hden negative
            minExponent_le := minExponent_le_exponentOf.trans (exponentOf_le_chosen negative)
            le_maxExponent := hmax }

/-! ### No number of the format is nearer -/

/-- A number with an exponent that is too small is below all mantissas that have their bits. -/
theorem value_lt_of_exponent_lt (hf : 0 < f.precision) {y : Binary} (hy : f.Holds y) {e : ℤ}
    (h : y.exponent < e) : y.value < 2 ^ (f.precision - 1) * 2 ^ e := by
  have hmantissa : (y.mantissa : ℚ) < 2 ^ f.precision := by exact_mod_cast hy.mantissa_lt
  have hpow : (2 : ℚ) ^ (y.exponent + 1) ≤ 2 ^ e := zpow_le_zpow_right₀ one_le_two h
  calc y.value ≤ |y.value| := le_abs_self y.value
    _ = y.mantissa * 2 ^ y.exponent := y.abs_value
    _ < 2 ^ f.precision * 2 ^ y.exponent :=
        mul_lt_mul_of_pos_right hmantissa (zpow_pos two_pos _)
    _ = 2 ^ (f.precision - 1) * 2 ^ (y.exponent + 1) := by
        rw [zpow_add_one₀ two_ne_zero, ← pow_sub_one_mul hf.ne' (2 : ℚ)]
        ring
    _ ≤ 2 ^ (f.precision - 1) * 2 ^ e := mul_le_mul_of_nonneg_left hpow (by positivity)

/-- **No number of the format is nearer to a quotient** than the multiple that is chosen. -/
theorem significand_nearest_of_holds (hf : 0 < f.precision) (hnum : num ≠ 0) (hden : den ≠ 0)
    {y : Binary} (hy : f.Holds y) :
    |(f.significand num den : ℚ) * 2 ^ f.exponentOf num den - num / den| ≤
      |y.value - num / den| := by
  rcases le_or_gt (f.exponentOf num den) y.exponent with hle | hlt
  · rw [← y.multipleOf_mul hle]
    exact significand_nearest hden _
  · have hbits : (2 : ℚ) ^ (f.precision - 1) * 2 ^ f.exponentOf num den ≤ num / den :=
      (exponentOf_le hf hnum hden).resolve_left (hy.minExponent_le.trans_lt hlt).ne'
    have hsmall := value_lt_of_exponent_lt hf hy hlt
    have hgrid : |(f.significand num den : ℚ) * 2 ^ f.exponentOf num den - num / den| ≤
        |((2 ^ (f.precision - 1) : ℤ) : ℚ) * 2 ^ f.exponentOf num den - num / den| :=
      significand_nearest hden _
    rw [Int.cast_pow, Int.cast_ofNat] at hgrid
    refine hgrid.trans ?_
    rw [abs_of_nonpos (sub_nonpos.2 hbits), abs_of_nonpos (sub_nonpos.2 (hsmall.le.trans hbits))]
    linarith

/-- **No number of the format is nearer** than the one that is rounded to. -/
theorem round?_nearest (hf : 0 < f.precision) (hden : den ≠ 0) {negative : Bool} {x : Binary}
    (h : f.round? negative num den = some x) {y : Binary} (hy : f.Holds y) :
    |x.value - signed negative (num / den)| ≤ |y.value - signed negative (num / den)| := by
  by_cases hnum : num = 0
  · rw [round?, if_pos hnum, Option.some.injEq] at h
    subst h
    have hzero : signed negative 0 = 0 := by cases negative <;> simp [signed]
    rw [value_eq_signed, hnum]
    simp [hzero]
  · rw [round?_eq hnum, Option.ite_none_right_eq_some, Option.some.injEq] at h
    obtain ⟨-, rfl⟩ := h
    rw [value_eq_signed, negative_chosen, mantissa_chosen_mul hf]
    cases negative with
    | false => exact significand_nearest_of_holds hf hnum hden hy
    | true =>
        -- the same with both signs changed
        have hnearest := significand_nearest_of_holds hf hnum hden
          (y := { y with negative := !y.negative })
          ⟨hy.mantissa_lt, hy.minExponent_le, hy.le_maxExponent⟩
        rw [y.value_opposite] at hnearest
        simp only [signed, if_true]
        rw [← abs_neg, ← abs_neg (y.value - _)]
        convert hnearest using 2 <;> ring

/-- **Rounding gives nothing beyond the range of the format only.** -/
theorem le_of_round?_eq_none (hf : 0 < f.precision) (hrange : f.minExponent < f.maxExponent)
    (hden : den ≠ 0) {negative : Bool} (h : f.round? negative num den = none) :
    (2 : ℚ) ^ (f.precision - 1) * 2 ^ f.maxExponent ≤ num / den := by
  have hnum : num ≠ 0 := by
    intro hzero
    rw [round?, if_pos hzero] at h
    cases h
  rw [round?_eq hnum, ite_eq_right_iff] at h
  have hbeyond : f.maxExponent < (f.chosen negative num den).exponent := by
    rw [← not_le]
    exact fun hle => Option.some_ne_none _ (h hle)
  have hmax : f.maxExponent ≤ f.exponentOf num den :=
    Int.lt_add_one_iff.1 (hbeyond.trans_le (chosen_exponent_le negative))
  have hbits := (exponentOf_le hf hnum hden).resolve_left (hrange.trans_le hmax).ne'
  have hpow : (2 : ℚ) ^ f.maxExponent ≤ 2 ^ f.exponentOf num den :=
    zpow_le_zpow_right₀ one_le_two hmax
  exact (mul_le_mul_of_nonneg_left hpow (by positivity)).trans hbits

end BinaryFormat

/-! ### Widths -/

namespace Width

open BinaryFormat (single)

theorem eq_some_of_ofRounded {negative : Bool} {rounded : Option Binary} {x : Binary}
    (h : ofRounded negative rounded = .finite x) : rounded = some x := by
  cases rounded with
  | none => cases h
  | some y =>
      cases h
      rfl

/-- **Every width that is read is of the format of 32 bits.** -/
theorem holds_of_ofNumber {n : Json.Number} {x : Binary} (h : ofNumber n = .finite x) :
    single.Holds x := by
  cases n with
  | integer n =>
      exact BinaryFormat.holds_of_round? (by decide) (by decide) one_ne_zero
        (eq_some_of_ofRounded h)
  | real y =>
      exact BinaryFormat.holds_of_round? (by decide) (by decide)
        (scaleBinary_pos y.mantissa one_pos y.exponent).ne' (eq_some_of_ofRounded h)

/-- **The width nearest to a number of pixels** is finite, and no other one is nearer. -/
theorem exists_ofInt (px : UInt32) :
    ∃ y, ofInt px.toNat = .finite y ∧
      ∀ z, single.Holds z → |y.value - px.toNat| ≤ |z.value - px.toNat| := by
  have hsign : decide ((px.toNat : ℤ) < 0) = false := decide_eq_false (by omega)
  cases hround : single.round? false px.toNat 1 with
  | none =>
      have hrange := BinaryFormat.le_of_round?_eq_none (by decide) (by decide) one_ne_zero hround
      have hpx : (px.toNat : ℚ) < 2 ^ 32 := by exact_mod_cast px.toNat_lt
      have hbelow : (2 : ℚ) ^ 32 ≤ 2 ^ (single.precision - 1) * 2 ^ single.maxExponent := by
        norm_num [single, BinaryFormat.single]
      rw [Nat.cast_one, div_one] at hrange
      exact absurd (hbelow.trans hrange) hpx.not_ge
  | some y =>
      refine ⟨y, ?_, fun z hz => ?_⟩
      · rw [ofInt, BinaryFormat.ofInt?, hsign, Int.natAbs_natCast, hround, ofRounded]
      · have hnearest := BinaryFormat.round?_nearest (by decide) one_ne_zero hround hz
        rwa [Nat.cast_one, div_one] at hnearest

end Width

end OfferLayout
