/-
**Numerals as scaled words.**

The digits of a numeral are gathered in a word of 64 bits for as long as they fit.  Digits of the
integer part that do not fit count as powers of ten, and digits of the fraction that do not fit are
dropped.  The word is rounded to a floating-point number, and that number is multiplied or divided
by the one nearest to the power of ten.  Each of these steps rounds, so that the result may differ
from the number nearest to the numeral in its last digits.

Main definitions:

* `gather` — the digits that fit a word;
* `ScaledDigits.ofNumeral` — what is kept of a numeral;
* `Binary.scale?` — a floating-point number times a power of ten;
* `ScaledDigits.binary?` — **the floating-point number of a numeral**.
-/

import OfferLayout.Number.Shortest

set_option relaxedAutoImplicit false
set_option autoImplicit false

namespace OfferLayout

/-! ### Gathering digits -/

/-- The greatest number of a word of 64 bits. -/
def maxWord : Nat := 18446744073709551615

/-- Appends digits to a number as long as it fits a word, and gives the digits left over. -/
def gather (n : Nat) : List Char → Nat × List Char
  | [] => (n, [])
  | c :: s =>
      let m := 10 * n + (c.toNat - 48)
      if m ≤ maxWord then gather m s else (n, c :: s)

/-- **What is kept of a numeral** with the given digits before and after its point, times a power of
ten. -/
def ScaledDigits.ofNumeral (whole fraction : List Char) (power : Int) : ScaledDigits :=
  let w := gather 0 whole
  let f := gather w.1 fraction
  -- every digit of the fraction that was gathered moves the point by one place
  ⟨f.1, power + w.2.length - (fraction.length - f.2.length : Nat)⟩

/-! ### Powers of ten -/

/-- The greatest power of ten that is a floating-point number of 64 bits. -/
def maxPowerOfTen : Nat := 308

/-- The floating-point number nearest to a power of ten. -/
def powerOfTen? (n : Nat) : Option Binary :=
  if n ≤ maxPowerOfTen then BinaryFormat.double.round? false (Nat.pow 10 n) 1 else none

/-- **A floating-point number times a power of ten.**  Divisors beyond the greatest power are split,
and every quotient is rounded. -/
def Binary.scale? (x : Binary) (power : Int) : Option Binary :=
  if x.mantissa = 0 then some x
  else if 0 ≤ power then (powerOfTen? power.toNat).bind (BinaryFormat.double.mul? x)
  else if -(maxPowerOfTen : Int) ≤ power then
    (powerOfTen? power.natAbs).bind (BinaryFormat.double.div? x)
  else
    ((powerOfTen? maxPowerOfTen).bind (BinaryFormat.double.div? x)).bind fun y =>
      y.scale? (power + maxPowerOfTen)
termination_by (-power).toNat
decreasing_by
  simp only [maxPowerOfTen] at *
  omega

/-- **The floating-point number of scaled digits** that fit a word, if it is not beyond the greatest
one. -/
def ScaledDigits.binary? (d : ScaledDigits) : Option Binary :=
  (BinaryFormat.double.round? false d.digits 1).bind fun x => x.scale? d.scale

end OfferLayout
