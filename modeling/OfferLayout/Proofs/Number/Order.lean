/-
**Floating-point numbers and widths by their values.**

The value of a finite floating-point number is a rational number, and floating-point numbers are
ordered by their values.  A width that is not undefined has a value too: a rational number or one of
the two ends, and what is below what is told by these values alone.

Main definitions:

* `Binary.value` — the value of a finite floating-point number;
* `Width.Extent`, `Width.extent?` — what widths that are not undefined measure;
* `Width.AtMost` — **one width is at most another one**; an undefined width compares with none.

Main results:

* `Binary.order_eq_compare` — floating-point numbers are ordered by their values;
* `Width.lt_iff_extent` — **widths are ordered by what they measure**;
* `Width.atMost_iff` — at most is not above;
* `Width.AtMost.lt` — what a greater width is below, a lesser one is below.
-/

import Mathlib.Order.WithBot
import OfferLayout.Number.Width
import OfferLayout.Proofs.Number.Value

set_option relaxedAutoImplicit false
set_option autoImplicit false

namespace OfferLayout

/-! ### Floating-point numbers -/

namespace Binary

/-- **The value of a floating-point number.** -/
def value (x : Binary) : ℚ :=
  (if x.negative then -(x.mantissa : ℚ) else x.mantissa) * 2 ^ x.exponent

/-- A multiple of a power of two that is not above the exponent has the value of the number. -/
theorem multipleOf_mul (x : Binary) {e : ℤ} (h : e ≤ x.exponent) :
    (x.multipleOf e : ℚ) * 2 ^ e = x.value := by
  have hpow : (2 : ℚ) ^ (x.exponent - e).toNat * 2 ^ e = 2 ^ x.exponent := by
    rw [← zpow_natCast, Int.toNat_of_nonneg (sub_nonneg.2 h), ← zpow_add₀ two_ne_zero,
      sub_add_cancel]
  rw [multipleOf, value, ← hpow]
  cases x.negative
  · simp [mul_assoc]
  · simp [mul_assoc]

/-- **Floating-point numbers are ordered by their values.** -/
theorem order_eq_compare (x y : Binary) : x.order y = compare x.value y.value := by
  have hunit : (0 : ℚ) < 2 ^ min x.exponent y.exponent := zpow_pos two_pos _
  have hmono : StrictMono fun q : ℚ => q * 2 ^ min x.exponent y.exponent :=
    fun _ _ h => mul_lt_mul_of_pos_right h hunit
  rw [order, ← compare_intCast, ← x.multipleOf_mul (min_le_left _ y.exponent),
    ← y.multipleOf_mul (min_le_right x.exponent _), ← cmp_eq_compare, ← cmp_eq_compare]
  exact (hmono.cmp_map_eq _ _).symm

end Binary

/-! ### Widths -/

namespace Width

/-- A rational number or one of the two ends. -/
abbrev Extent : Type := WithBot (WithTop ℚ)

/-- **What a width measures**, unless it is undefined. -/
def extent? : Width → Option Extent
  | finite x => some ((x.value : WithTop ℚ) : Extent)
  | infinite true => some ⊥
  | infinite false => some ⊤
  | undefined => none

theorem extent?_eq_none_iff {w : Width} : w.extent? = none ↔ w = undefined := by
  rcases w with x | (_ | _) | _ <;> simp [extent?]

theorem coe_lt_top (q : ℚ) : ((q : WithTop ℚ) : Extent) < ⊤ :=
  WithBot.coe_lt_coe.2 (WithTop.coe_lt_top q)

/-- **Widths are ordered by what they measure.** -/
theorem lt_iff_extent {w w' : Width} :
    w.lt w' = true ↔ ∃ a b, w.extent? = some a ∧ w'.extent? = some b ∧ a < b := by
  rcases w with x | (_ | _) | _ <;> rcases w' with y | (_ | _) | _ <;>
    simp [lt, extent?, Binary.order_eq_compare, compare_lt_iff_lt, coe_lt_top]

/-- **One width is at most another one.**  An undefined width compares with none. -/
def AtMost (w w' : Width) : Prop := ∃ a b, w.extent? = some a ∧ w'.extent? = some b ∧ a ≤ b

/-- One width is at most another one if it is not above it, and neither is undefined. -/
theorem atMost_iff {w w' : Width} :
    w.AtMost w' ↔ w ≠ undefined ∧ w' ≠ undefined ∧ w'.lt w = false := by
  rw [← Bool.not_eq_true, lt_iff_extent, ne_eq, ne_eq, ← extent?_eq_none_iff,
    ← extent?_eq_none_iff, AtMost]
  cases w.extent? <;> cases w'.extent? <;> simp

/-- What a greater width is below, a lesser one is below. -/
theorem AtMost.lt {w w' v : Width} (h : w.AtMost w') (hlt : w'.lt v = true) : w.lt v = true := by
  obtain ⟨a, b, ha, hb, hle⟩ := h
  obtain ⟨b', c, hb', hc, hbc⟩ := lt_iff_extent.1 hlt
  obtain rfl : b = b' := Option.some.inj (hb.symm.trans hb')
  exact lt_iff_extent.2 ⟨a, c, ha, hc, lt_of_le_of_lt hle hbc⟩

end Width

end OfferLayout
