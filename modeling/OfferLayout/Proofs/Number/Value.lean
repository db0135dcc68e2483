/-
**Decimals and numerals by their values.**

The value of a decimal is a rational number, and decimals are ordered by their values.

A plain numeral is an optional sign and digits with at most one point among them; at least one digit
is there.  Its value is the rational number that the digits stand for, and does not depend on zeros
at either end, on a plus sign, on a point with nothing after it, or on the sign of zero.  As long as
a numeral has no more than 28 digits that count, and no more than 28 after the point, it is read
exactly: no digit is rounded away, and no other reading is tried.

Main definitions:

* `Decimal.value` — the value of a decimal;
* `Numeral.natural`, `Numeral.fractional` — the numbers that digits stand for, before and after a
  point;
* `Numeral` — a plain numeral, `Numeral.chars` its spelling and `Numeral.value` its value;
* `Numeral.Fits` — the numeral has no more digits than a decimal holds;
* `Numeral.Respells` — two numerals differ in their spelling only;
* `Numeral.toDecimal` — the decimal with the digits of a numeral;
* `Numeral.ofInt` — the numeral of an integer.

Main results:

* `Decimal.order_eq_compare` — decimals are ordered by their values;
* `Numeral.natural_lt_pow_iff` — how many digits count is a matter of size;
* `Numeral.Respells.value_eq` — spelling does not change the value;
* `Decimal.readPlain_digit`, `Decimal.readPlain_digits` — digits are read one after another;
* `Decimal.parse?_eq_toDecimal` — **a numeral that fits is read as the decimal with its digits**;
* `Numeral.value_toDecimal` — and this has the value of the numeral;
* `Numeral.chars_ofInt`, `Numeral.value_ofInt` — an integer is written as a numeral of its value.
-/

import Mathlib.Data.List.DropRight
import Mathlib.Data.Nat.Digits.Lemmas
import Mathlib.Data.Rat.Cast.Order
import Mathlib.Order.Compare
import Mathlib.Tactic.FieldSimp
import Mathlib.Tactic.Positivity
import Mathlib.Tactic.Ring
import OfferLayout.Number.Decimal

set_option relaxedAutoImplicit false
set_option autoImplicit false

namespace OfferLayout

/-! ### Order by value -/

/-- Integers are ordered as rational numbers are. -/
theorem compare_intCast (m n : ℤ) : compare (m : ℚ) n = compare m n := by
  rw [← cmp_eq_compare, ← cmp_eq_compare]
  exact Int.cast_strictMono.cmp_map_eq m n

theorem compare_natCast (m n : ℕ) : compare (m : ℚ) n = compare m n := by
  rw [← cmp_eq_compare, ← cmp_eq_compare]
  exact Nat.strictMono_cast.cmp_map_eq m n

namespace Decimal

/-- The value of a decimal. -/
def value (d : Decimal) : ℚ := d.signed / 10 ^ d.scale

theorem signed_eq_value_mul (d : Decimal) : (d.signed : ℚ) = d.value * 10 ^ d.scale := by
  have hne : (10 : ℚ) ^ d.scale ≠ 0 := by positivity
  rw [value, div_mul_cancel₀ _ hne]

/-- **Decimals are ordered by their values.** -/
theorem order_eq_compare (a b : Decimal) : a.order b = compare a.value b.value := by
  have hunit : (0 : ℚ) < 10 ^ a.scale * 10 ^ b.scale := by positivity
  have hmono : StrictMono fun q : ℚ => q * (10 ^ a.scale * 10 ^ b.scale) :=
    fun _ _ h => mul_lt_mul_of_pos_right h hunit
  have ha : ((a.signed * Nat.pow 10 b.scale : ℤ) : ℚ) =
      a.value * (10 ^ a.scale * 10 ^ b.scale) := by
    rw [Int.cast_mul, signed_eq_value_mul, mul_assoc]
    simp
  have hb : ((b.signed * Nat.pow 10 a.scale : ℤ) : ℚ) =
      b.value * (10 ^ a.scale * 10 ^ b.scale) := by
    rw [Int.cast_mul, signed_eq_value_mul, mul_assoc, mul_comm (10 ^ a.scale : ℚ)]
    simp
  rw [order, ← compare_intCast, ha, hb, ← cmp_eq_compare, ← cmp_eq_compare]
  exact hmono.cmp_map_eq a.value b.value

end Decimal

namespace Numeral

/-! ### Digits -/

/-- The number that digits stand for, the most significant one first. -/
def natural (ds : List (Fin 10)) : ℕ := Nat.ofDigits 10 (ds.reverse.map Fin.val)

/-- The characters of digits. -/
def digitChars (ds : List (Fin 10)) : List Char := ds.map fun d => Text.digitChar d.val

@[simp] theorem digitChars_nil : digitChars [] = [] := rfl

@[simp] theorem digitChars_cons (d : Fin 10) (ds : List (Fin 10)) :
    digitChars (d :: ds) = Text.digitChar d :: digitChars ds := rfl

@[simp] theorem natural_nil : natural [] = 0 := rfl

theorem natural_append (ds es : List (Fin 10)) :
    natural (ds ++ es) = natural ds * 10 ^ es.length + natural es := by
  rw [natural, List.reverse_append, List.map_append, Nat.ofDigits_append, List.length_map,
    List.length_reverse, natural, natural]
  ring

theorem natural_singleton (d : Fin 10) : natural [d] = d := by
  simp [natural]

theorem natural_cons (d : Fin 10) (ds : List (Fin 10)) :
    natural (d :: ds) = d * 10 ^ ds.length + natural ds := by
  rw [← List.singleton_append, natural_append, natural_singleton]

theorem natural_lt (ds : List (Fin 10)) : natural ds < 10 ^ ds.length := by
  have hdigits : ∀ n ∈ ds.reverse.map Fin.val, n < 10 := by
    intro n hn
    obtain ⟨d, -, rfl⟩ := List.mem_map.1 hn
    exact d.isLt
  simpa [natural] using Nat.ofDigits_lt_base_pow_length (by decide) hdigits

/-- Zeros in front do not count. -/
theorem natural_dropWhile (ds : List (Fin 10)) : natural (ds.dropWhile (· = 0)) = natural ds := by
  induction ds with
  | nil => rfl
  | cons d ds ih =>
      rw [List.dropWhile_cons]
      split
      · next hd =>
          rw [ih, natural_cons, of_decide_eq_true hd]
          simp
      · rfl

/-- **How many digits count is a matter of size**: a number has as many digits after its leading
zeros as it has powers of ten below or at it. -/
theorem natural_lt_pow_iff {ds : List (Fin 10)} {k : ℕ} :
    natural ds < 10 ^ k ↔ (ds.dropWhile (· = 0)).length ≤ k := by
  rw [← natural_dropWhile]
  cases hcount : ds.dropWhile (· = 0) with
  | nil => simp
  | cons d es =>
      have hd : d ≠ 0 := by
        have hhead := List.head?_dropWhile_not (fun d : Fin 10 => decide (d = 0)) ds
        rw [hcount] at hhead
        simpa using hhead
      have hpos : 0 < (d : ℕ) := Nat.pos_of_ne_zero fun h => hd (Fin.ext h)
      have hlow : 10 ^ es.length ≤ natural (d :: es) := by
        rw [natural_cons]
        exact le_trans (Nat.le_mul_of_pos_left _ hpos) (Nat.le_add_right _ _)
      constructor
      · intro h
        exact (Nat.pow_lt_pow_iff_right (by decide)).1 (lt_of_le_of_lt hlow h)
      · intro h
        exact lt_of_lt_of_le (natural_lt (d :: es)) (Nat.pow_le_pow_right (by decide) h)

/-- The number that digits after a point stand for. -/
def fractional (ds : List (Fin 10)) : ℚ := natural ds / 10 ^ ds.length

/-- Zeros at the end of a fraction do not count. -/
theorem fractional_rdropWhile (ds : List (Fin 10)) :
    fractional (ds.rdropWhile (· = 0)) = fractional ds := by
  induction ds using List.reverseRecOn with
  | nil => rfl
  | append_singleton ds d ih =>
      rw [List.rdropWhile_concat]
      split
      · next hd =>
          have hne : (10 : ℚ) ^ ds.length ≠ 0 := by positivity
          rw [ih, fractional, fractional, natural_append, natural_singleton,
            of_decide_eq_true hd]
          simp only [List.length_append, List.length_singleton, pow_succ]
          push_cast
          field_simp
          simp
      · rfl

/-- A sign in front of a numeral. -/
inductive Sign where
  /-- No sign. -/
  | none
  /-- A plus sign. -/
  | plus
  /-- A minus sign. -/
  | minus
deriving DecidableEq, Repr

namespace Sign

/-- The spelling of a sign. -/
def chars : Sign → List Char
  | none => []
  | plus => ['+']
  | minus => ['-']

/-- Whether a sign negates. -/
def isMinus : Sign → Bool
  | minus => true
  | _ => false

end Sign

end Numeral

/-! ### Numerals -/

/-- A plain numeral. -/
structure Numeral where
  /-- The sign. -/
  sign : Numeral.Sign
  /-- The digits before the point. -/
  whole : List (Fin 10)
  /-- The digits after the point, if there is a point. -/
  fraction : Option (List (Fin 10))
  /-- There is a digit. -/
  nonempty : whole ++ fraction.getD [] ≠ []

namespace Numeral

/-- The digits after the point. -/
def places (n : Numeral) : List (Fin 10) := n.fraction.getD []

/-- All digits. -/
def digits (n : Numeral) : List (Fin 10) := n.whole ++ n.places

/-- What follows the digits before the point. -/
def pointChars : Option (List (Fin 10)) → List Char
  | none => []
  | some ds => '.' :: digitChars ds

/-- **The spelling of a numeral.** -/
def chars (n : Numeral) : List Char :=
  n.sign.chars ++ (digitChars n.whole ++ pointChars n.fraction)

/-- The value of a numeral without its sign. -/
def magnitude (n : Numeral) : ℚ := natural n.whole + fractional n.places

/-- **The value of a numeral.** -/
def value (n : Numeral) : ℚ := if n.sign.isMinus then -n.magnitude else n.magnitude

/-- **A numeral that a decimal can hold**: it has at most 28 digits after its leading zeros, and at
most 28 after the point. -/
structure Fits (n : Numeral) : Prop where
  /-- Not too many digits count. -/
  significant : (n.digits.dropWhile (· = 0)).length ≤ 28
  /-- Not too many digits are after the point. -/
  places : n.places.length ≤ 28

/-- **Two numerals differ in their spelling only**: in zeros in front or at the end of the fraction,
in a plus sign, in a bare point, or in the sign of zero. -/
structure Respells (m n : Numeral) : Prop where
  /-- The digits before the point are the same after leading zeros. -/
  whole : m.whole.dropWhile (· = 0) = n.whole.dropWhile (· = 0)
  /-- The digits after the point are the same before zeros at the end. -/
  places : m.places.rdropWhile (· = 0) = n.places.rdropWhile (· = 0)
  /-- The signs agree, unless all digits are zeros. -/
  sign : m.sign.isMinus = n.sign.isMinus ∨ ∀ d ∈ m.digits, d = 0

/-- The magnitude is that of all digits over a power of ten. -/
theorem magnitude_eq (n : Numeral) :
    n.magnitude = natural n.digits / 10 ^ n.places.length := by
  have hne : (10 : ℚ) ^ n.places.length ≠ 0 := by positivity
  rw [magnitude, fractional, digits, natural_append]
  push_cast
  field_simp

theorem natural_eq_zero {ds : List (Fin 10)} (h : ∀ d ∈ ds, d = 0) : natural ds = 0 := by
  have hdrop : ds.dropWhile (· = 0) = [] := by simpa [List.dropWhile_eq_nil_iff] using h
  rw [← natural_dropWhile, hdrop, natural_nil]

/-- **Spelling does not change the value.** -/
theorem Respells.value_eq {m n : Numeral} (h : m.Respells n) : m.value = n.value := by
  have hmagnitude : m.magnitude = n.magnitude := by
    rw [magnitude, magnitude, ← natural_dropWhile m.whole, ← fractional_rdropWhile m.places,
      h.whole, h.places, natural_dropWhile, fractional_rdropWhile]
  rcases h.sign with hsign | hzero
  · rw [value, value, hmagnitude, hsign]
  · have hm : m.magnitude = 0 := by rw [magnitude_eq, natural_eq_zero hzero]; simp
    rw [value, value, ← hmagnitude, hm]
    simp

/-- The decimal with the digits of a numeral. -/
def toDecimal (n : Numeral) : Decimal := ⟨n.sign.isMinus, natural n.digits, n.places.length⟩

theorem value_toDecimal (n : Numeral) : n.toDecimal.value = n.value := by
  rw [Decimal.value, Decimal.signed, value, magnitude_eq, toDecimal]
  split
  · push_cast
    exact neg_div _ _
  · push_cast
    rfl

/-- After its sign, a numeral goes on with a digit or a point. -/
theorem not_sign_of_head? (n : Numeral) {c : Char}
    (h : (digitChars n.whole ++ pointChars n.fraction).head? = some c) : c ≠ '+' ∧ c ≠ '-' := by
  have hdigit : ∀ d : Fin 10, Text.digitChar d ≠ '+' ∧ Text.digitChar d ≠ '-' := by decide
  cases hwhole : n.whole with
  | cons d ds =>
      rw [hwhole, digitChars_cons, List.cons_append, List.head?_cons] at h
      exact Option.some.inj h ▸ hdigit d
  | nil =>
      cases hfraction : n.fraction with
      | none => exact absurd (by simp [hwhole, hfraction]) n.nonempty
      | some ds =>
          rw [hwhole, hfraction, digitChars_nil, List.nil_append, pointChars, List.head?_cons] at h
          exact Option.some.inj h ▸ (by decide)

end Numeral

/-! ### Reading -/

namespace Decimal

open Numeral (natural natural_cons digitChars digitChars_nil digitChars_cons)

/-- What fits after more digits were read fits before. -/
theorem le_of_shifted_le {m k r bound : ℕ} (h : m * 10 ^ k + r ≤ bound) : m ≤ bound := by
  have hpow : 1 ≤ 10 ^ k := Nat.one_le_pow _ _ (by decide)
  calc m ≤ m * 10 ^ k := Nat.le_mul_of_pos_right _ hpow
    _ ≤ m * 10 ^ k + r := Nat.le_add_right _ _
    _ ≤ bound := h

/-- A digit is read if it is not one too many. -/
theorem readPlain_digit {d : Decimal} {point any : Bool} {n : Fin 10} (rest : List Char)
    (hmantissa : 10 * d.mantissa + n ≤ maxMantissa) (hscale : point = true → d.scale < maxScale) :
    readPlain d point any (Text.digitChar n :: rest) =
      readPlain ⟨d.negative, 10 * d.mantissa + n, if point then d.scale + 1 else d.scale⟩
        point true rest := by
  have hroom : ¬ (point && decide (d.scale = maxScale)) = true := by
    rw [Bool.and_eq_true, decide_eq_true_eq]
    rintro ⟨hpoint, hfull⟩
    have hlt := hscale hpoint
    omega
  have hread : Text.digit? (Text.digitChar n) = some (n : ℕ) := by
    rw [Text.digit?_digitChar, Nat.mod_eq_of_lt n.isLt]
  rw [readPlain, if_neg hroom, hread]
  simp only [hmantissa, if_true]

/-- **Digits are read one after another**, as long as none of them is one too many. -/
theorem readPlain_digits {d : Decimal} {point any : Bool} {ds : List (Fin 10)} (rest : List Char)
    (hmantissa : d.mantissa * 10 ^ ds.length + natural ds ≤ maxMantissa)
    (hscale : point = true → d.scale + ds.length ≤ maxScale) :
    readPlain d point any (digitChars ds ++ rest) =
      readPlain ⟨d.negative, d.mantissa * 10 ^ ds.length + natural ds,
        if point then d.scale + ds.length else d.scale⟩ point (any || !ds.isEmpty) rest := by
  induction ds generalizing d any with
  | nil => cases point <;> simp
  | cons n ds ih =>
      have hnext : (10 * d.mantissa + n) * 10 ^ ds.length + natural ds =
          d.mantissa * 10 ^ (n :: ds).length + natural (n :: ds) := by
        rw [natural_cons, List.length_cons, pow_succ]
        ring
      rw [List.length_cons] at hscale
      have hfits : (10 * d.mantissa + n) * 10 ^ ds.length + natural ds ≤ maxMantissa :=
        hnext.trans_le hmantissa
      rw [digitChars_cons, List.cons_append, readPlain_digit _ (le_of_shifted_le hfits), ih hfits]
      · rw [hnext]
        cases point with
        | false => simp
        | true => simp [Nat.add_assoc, Nat.add_comm 1]
      · intro hpoint
        have hlength := hscale hpoint
        simp only [hpoint, if_true]
        omega
      · intro hpoint
        have hlength := hscale hpoint
        omega

/-- A sign is read once. -/
theorem plain?_sign {body : List Char}
    (hbody : ∀ c, body.head? = some c → c ≠ '+' ∧ c ≠ '-') (sign : Numeral.Sign) :
    plain? (sign.chars ++ body) = readPlain ⟨sign.isMinus, 0, 0⟩ false false body := by
  cases sign with
  | plus => rfl
  | minus => rfl
  | none =>
      cases body with
      | nil => rfl
      | cons c body =>
          obtain ⟨hplus, hminus⟩ := hbody c rfl
          simp [Numeral.Sign.chars, Numeral.Sign.isMinus, plain?, hplus, hminus]

theorem readPlain_point (d : Decimal) (any : Bool) (rest : List Char) :
    readPlain d false any ('.' :: rest) = readPlain d true any rest := by
  have hpoint : Text.digit? '.' = none := by decide
  simp [readPlain, hpoint]

/-- **A plain numeral that fits is read as the decimal with its digits.** -/
theorem plain?_chars {n : Numeral} (h : n.Fits) : plain? n.chars = some n.toDecimal := by
  have hbound : natural n.digits ≤ maxMantissa := by
    have hlt := Numeral.natural_lt_pow_iff.2 h.significant
    exact le_trans hlt.le (by decide)
  have hwhole : natural n.whole ≤ maxMantissa := by
    rw [Numeral.digits, Numeral.natural_append] at hbound
    exact le_of_shifted_le hbound
  rw [Numeral.chars, plain?_sign fun _ => n.not_sign_of_head?,
    readPlain_digits _ (by simpa using hwhole) (by simp)]
  have hnonempty := n.nonempty
  rw [Numeral.toDecimal]
  cases hf : n.fraction with
  | none =>
      have hplaces : n.places = [] := by rw [Numeral.places, hf, Option.getD_none]
      rw [hf, Option.getD_none, List.append_nil] at hnonempty
      simp [Numeral.pointChars, readPlain, hnonempty, Numeral.digits, hplaces]
  | some ds =>
      have hplaces : n.places = ds := by rw [Numeral.places, hf, Option.getD_some]
      have hfits : ds.length ≤ maxScale := hplaces ▸ h.places
      rw [Numeral.digits, hplaces, Numeral.natural_append] at hbound
      rw [hf, Option.getD_some] at hnonempty
      rw [Numeral.pointChars, readPlain_point, ← List.append_nil (digitChars ds),
        readPlain_digits _ (by simpa using hbound) (by simpa using hfits)]
      simpa [readPlain, Numeral.digits, hplaces, Numeral.natural_append] using hnonempty

/-- **A text that is a numeral after trimming** is read as the decimal with its digits. -/
theorem parse?_eq_toDecimal {s : String} {n : Numeral} (hs : Text.trim s.toList = n.chars)
    (h : n.Fits) : parse? s = some n.toDecimal := by
  rw [parse?, hs]
  simp only [plain?_chars h, Option.some_or]

end Decimal

/-! ### Integers -/

namespace Numeral

/-- The digits of a number, without leading zeros. -/
def digitsOf (n : ℕ) : List (Fin 10) :=
  if h : n < 10 then [⟨n, h⟩] else digitsOf (n / 10) ++ [⟨n % 10, Nat.mod_lt n (by decide)⟩]

theorem digitsOf_ne_nil (n : ℕ) : digitsOf n ≠ [] := by
  unfold digitsOf
  split <;> simp

/-- The digits of a number are written. -/
theorem digitChars_digitsOf (n : ℕ) : digitChars (digitsOf n) = Text.digits n := by
  fun_induction digitsOf n with
  | case1 n h => rw [Text.digits, if_pos h, digitChars_cons, digitChars_nil]
  | case2 n h ih =>
      have hlast : Text.digitChar (n % 10) = Text.digitChar n := by
        rw [Text.digitChar, Text.digitChar, Nat.mod_mod]
      rw [Text.digits, if_neg h, ← ih]
      simp only [digitChars, List.map_append, List.map_cons, List.map_nil, hlast]

theorem natural_digitsOf (n : ℕ) : natural (digitsOf n) = n := by
  fun_induction digitsOf n with
  | case1 n h => exact natural_singleton _
  | case2 n h ih =>
      rw [natural_append, ih, natural_singleton, List.length_singleton, pow_one]
      exact Nat.div_add_mod' n 10

/-- **The numeral of an integer.** -/
def ofInt (n : ℤ) : Numeral where
  sign := if n < 0 then .minus else .none
  whole := digitsOf n.natAbs
  fraction := none
  nonempty := by simpa using digitsOf_ne_nil n.natAbs

/-- **An integer is written as its numeral.** -/
theorem chars_ofInt (n : ℤ) : (ofInt n).chars = (Text.integer n).toList := by
  rw [chars, ofInt, digitChars_digitsOf, Text.integer]
  split
  · simp [Sign.chars, pointChars]
  · simp [Sign.chars, pointChars, Text.natural]

/-- The numeral of an integer has its value. -/
theorem value_ofInt (n : ℤ) : (ofInt n).value = n := by
  have hmagnitude : (ofInt n).magnitude = n.natAbs := by
    rw [magnitude_eq, digits, places, ofInt]
    simp [natural_digitsOf]
  rw [value, hmagnitude, Nat.cast_natAbs]
  by_cases hn : n < 0
  · simp [ofInt, hn, Sign.isMinus, abs_of_neg]
  · simp [ofInt, hn, Sign.isMinus, abs_of_nonneg (not_lt.1 hn)]

/-- An integer of at most 28 digits fits. -/
theorem fits_ofInt {n : ℤ} (h : n.natAbs < 10 ^ 28) : (ofInt n).Fits where
  significant := by
    rw [← natural_lt_pow_iff, digits, places, ofInt]
    simpa [natural_digitsOf] using h
  places := by simp [places, ofInt]

end Numeral

end OfferLayout
