/-
**The shortest decimal that reads back.**

A floating-point number is written with the fewest decimal digits that determine it: among the
decimals with `n` digits the two neighbours of the number are tried, for growing `n`, and the first
that rounds to the number is taken.  If both do, it is the nearer one, and of two equally near ones
the one whose last digit is even.

Main definitions:

* `Binary.shortest` — the digits of that decimal and the power of ten of its last digit;
* `ScaledDigits.layout` — how the digits are written out: with a point, or with an exponent.
-/

import OfferLayout.Number.Binary
import OfferLayout.Text.Numeral

set_option relaxedAutoImplicit false
set_option autoImplicit false

namespace OfferLayout

/-- A decimal given by its digits and the power of ten of the last one. -/
structure ScaledDigits where
  /-- The digits, read as one integer. -/
  digits : Nat
  /-- The power of ten of the last digit. -/
  scale : Int
deriving DecidableEq, Repr

/-! ### The interval of decimals that read back -/

/-- The numbers that round to a floating-point number, as integers over one denominator. -/
structure RoundingInterval where
  /-- The least number of the interval. -/
  lo : Nat
  /-- The floating-point number itself. -/
  mid : Nat
  /-- The greatest number of the interval. -/
  hi : Nat
  /-- The denominator of all three. -/
  den : Nat
  /-- Whether the two ends round to the number as well. -/
  closed : Bool

/-- The interval of the numbers that round to `x`: half the way to its neighbours.  Below a power
of two the neighbour is at half the distance. -/
def Binary.interval (f : BinaryFormat) (x : Binary) : RoundingInterval :=
  let down := if x.mantissa = Nat.pow 2 (f.precision - 1) ∧ f.minExponent < x.exponent then 1 else 2
  let unit := if 2 ≤ x.exponent then Nat.pow 2 (x.exponent - 2).toNat else 1
  let den := if 2 ≤ x.exponent then 1 else Nat.pow 2 (2 - x.exponent).toNat
  { lo := (4 * x.mantissa - down) * unit
    mid := 4 * x.mantissa * unit
    hi := (4 * x.mantissa + 2) * unit
    den := den
    closed := x.mantissa % 2 = 0 }

/-- The power of ten of the first digit of `num / den`. -/
def leadingPower (num den : Nat) : Int :=
  if den ≤ num then ((Text.digits (num / den)).length : Int) - 1
  else
    let n := (Text.digits (den / num)).length
    if num * Nat.pow 10 (n - 1) = den then -((n : Int) - 1) else -(n : Int)

/-- The decimal `digits · 10 ^ scale` over the denominator of an interval, as a fraction. -/
def ScaledDigits.over (d : ScaledDigits) (den : Nat) : Nat × Nat :=
  if 0 ≤ d.scale then (d.digits * den * Nat.pow 10 d.scale.toNat, 1)
  else (d.digits * den, Nat.pow 10 (-d.scale).toNat)

/-- Whether a decimal lies in an interval. -/
def RoundingInterval.contains (i : RoundingInterval) (d : ScaledDigits) : Bool :=
  let (num, den) := d.over i.den
  if i.closed then i.lo * den ≤ num && num ≤ i.hi * den
  else i.lo * den < num && num < i.hi * den

/-- The distance of a decimal from the middle of an interval, times the second component. -/
def RoundingInterval.distance (i : RoundingInterval) (d : ScaledDigits) : Nat :=
  let (num, den) := d.over i.den
  (num - i.mid * den) + (i.mid * den - num)

/-! ### The search -/

/-- The decimal with `n` digits next to the middle of an interval that lies in it. -/
def RoundingInterval.nearest? (i : RoundingInterval) (first : Int) (n : Nat) : Option ScaledDigits :=
  let scale := first - n + 1
  let floor :=
    if 0 ≤ scale then i.mid / (i.den * Nat.pow 10 scale.toNat)
    else i.mid * Nat.pow 10 (-scale).toNat / i.den
  let below : ScaledDigits := ⟨floor, scale⟩
  let above : ScaledDigits := ⟨floor + 1, scale⟩
  if i.contains below then
    if i.contains above && (i.distance above < i.distance below ||
        i.distance above = i.distance below && floor % 2 = 1) then some above
    else some below
  else if i.contains above then some above else none

/-- The first hit among the decimals with `n`, `n + 1`, … digits. -/
def RoundingInterval.search (i : RoundingInterval) (first : Int) : Nat → Nat → ScaledDigits
  | 0, n => (i.nearest? first n).getD ⟨0, 0⟩
  | more + 1, n => (i.nearest? first n).getD (i.search first more (n + 1))

/-- A decimal without the zeros at the end of its digits. -/
def ScaledDigits.strip (d : ScaledDigits) : ScaledDigits :=
  if d.digits = 0 then ⟨0, 0⟩
  else if d.digits % 10 = 0 then ScaledDigits.strip ⟨d.digits / 10, d.scale + 1⟩
  else d
termination_by d.digits

/-- **The decimal with the fewest digits that rounds to `x`**, without its sign. -/
def Binary.shortest (f : BinaryFormat) (x : Binary) : ScaledDigits :=
  if x.mantissa = 0 then ⟨0, 0⟩
  else
    let i := x.interval f
    (i.search (leadingPower i.mid i.den) 16 1).strip

/-! ### Writing it out -/

/-- The spelling of decimals in documents.  A number whose point falls at most sixteen places after
the first digit, or at most four places before it, is written with a point and at least one digit
on both sides; any other one with one digit before the point and a signed exponent. -/
def ScaledDigits.layout (d : ScaledDigits) : List Char :=
  let s := Text.digits d.digits
  let point := (s.length : Int) + d.scale
  if 0 ≤ d.scale ∧ point ≤ 16 then
    s ++ List.replicate d.scale.toNat '0' ++ ['.', '0']
  else if 0 < point ∧ point ≤ 16 then
    s.take point.toNat ++ '.' :: s.drop point.toNat
  else if -5 < point ∧ point ≤ 0 then
    '0' :: '.' :: List.replicate (-point).toNat '0' ++ s
  else
    let power := point - 1
    let sign := if power < 0 then '-' else '+'
    let mantissa := if s.length ≤ 1 then s else s.take 1 ++ '.' :: s.drop 1
    mantissa ++ 'e' :: sign :: Text.digits power.natAbs

/-- A number of 64 bits as documents spell it. -/
def Binary.text (x : Binary) : List Char :=
  let body := if x.mantissa = 0 then ['0', '.', '0'] else (x.shortest .double).layout
  if x.negative then '-' :: body else body

end OfferLayout
