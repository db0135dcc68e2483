/-
**Binary floating-point numbers and rounding to nearest.**

A finite floating-point number is a signed integer times a power of two.  A format bounds the
integer and the power; a rational number is rounded to the nearest number of the format, and a tie
goes to the even integer.  All of it is exact arithmetic on natural numbers.

Main definitions:

* `Binary` — a finite floating-point number;
* `BinaryFormat`, `BinaryFormat.double`, `BinaryFormat.single` — the formats of 64 and 32 bits;
* `divNearest` — the quotient rounded to nearest, ties to even;
* `BinaryFormat.round?` — the number of the format nearest to a rational number;
* `BinaryFormat.mul?`, `BinaryFormat.div?` — the numbers nearest to a product and to a quotient;
* `BinaryFormat.ofDecimal?` — the number nearest to a decimal literal.
-/

set_option relaxedAutoImplicit false
set_option autoImplicit false

namespace OfferLayout

/-- A finite floating-point number: `mantissa · 2 ^ exponent`, negated if `negative` is set.  Zero
has a sign too. -/
structure Binary where
  /-- The sign, which zero has as well. -/
  negative : Bool
  /-- The integer that is scaled. -/
  mantissa : Nat
  /-- The power of two it is scaled by. -/
  exponent : Int
deriving DecidableEq, Repr

/-- The bounds of a floating-point format. -/
structure BinaryFormat where
  /-- The number of bits of a mantissa. -/
  precision : Nat
  /-- The least exponent, which zero and the subnormal numbers have. -/
  minExponent : Int
  /-- The greatest exponent of a finite number. -/
  maxExponent : Int
deriving DecidableEq, Repr

namespace BinaryFormat

/-- The format of 64 bits. -/
def double : BinaryFormat := ⟨53, -1074, 971⟩

/-- The format of 32 bits. -/
def single : BinaryFormat := ⟨24, -149, 104⟩

end BinaryFormat

/-! ### Rounding -/

/-- The quotient rounded to the nearest integer; a tie goes to the even one. -/
def divNearest (num den : Nat) : Nat :=
  let q := num / den
  let r := num % den
  if 2 * r < den then q
  else if den < 2 * r then q + 1
  else if q % 2 = 0 then q else q + 1

/-- The quotient of two natural numbers, scaled by a power of two, as a fraction. -/
def scaleBinary (num den : Nat) (e : Int) : Nat × Nat :=
  if 0 ≤ e then (num * Nat.pow 2 e.toNat, den)
  else (num, den * Nat.pow 2 (-e).toNat)

namespace BinaryFormat

/-- The exponent at which the integer part of `num / den` has just the bits of a mantissa, kept
above the least exponent of the format. -/
def exponentOf (f : BinaryFormat) (num den : Nat) : Int :=
  let e := (Nat.log2 num : Int) - Nat.log2 den - f.precision + 1
  let scaled := scaleBinary num den (-e)
  let e := if scaled.1 / scaled.2 < Nat.pow 2 (f.precision - 1) then e - 1 else e
  max e f.minExponent

/-- **The number of the format nearest to `num / den`**, or nothing if that is beyond its greatest
number. -/
def round? (f : BinaryFormat) (negative : Bool) (num den : Nat) : Option Binary :=
  if num = 0 then some ⟨negative, 0, f.minExponent⟩
  else
    let e := f.exponentOf num den
    let scaled := scaleBinary num den (-e)
    let m := divNearest scaled.1 scaled.2
    let rounded : Binary :=
      if m = Nat.pow 2 f.precision then ⟨negative, Nat.pow 2 (f.precision - 1), e + 1⟩
      else ⟨negative, m, e⟩
    if rounded.exponent ≤ f.maxExponent then some rounded else none

/-- The number of the format nearest to a number of another format. -/
def ofBinary? (f : BinaryFormat) (x : Binary) : Option Binary :=
  let scaled := scaleBinary x.mantissa 1 x.exponent
  f.round? x.negative scaled.1 scaled.2

/-- The number of the format nearest to an integer. -/
def ofInt? (f : BinaryFormat) (n : Int) : Option Binary :=
  f.round? (n < 0) n.natAbs 1

/-- **The number of the format nearest to a product.** -/
def mul? (f : BinaryFormat) (x y : Binary) : Option Binary :=
  let scaled := scaleBinary (x.mantissa * y.mantissa) 1 (x.exponent + y.exponent)
  f.round? (x.negative != y.negative) scaled.1 scaled.2

/-- **The number of the format nearest to a quotient**, whose divisor is not zero. -/
def div? (f : BinaryFormat) (x y : Binary) : Option Binary :=
  let scaled := scaleBinary x.mantissa y.mantissa (x.exponent - y.exponent)
  f.round? (x.negative != y.negative) scaled.1 scaled.2

/-- The number of the format nearest to `significand · 10 ^ scale`, where `digitCount` bounds the
digits of the significand.  A scale far outside the format is decided by the bound alone. -/
def ofDecimal? (f : BinaryFormat) (negative : Bool) (significand digitCount : Nat) (scale : Int) :
    Option Binary :=
  if significand = 0 ∨ scale + digitCount < 2 * f.minExponent then
    some ⟨negative, 0, f.minExponent⟩
  else if 2 * f.maxExponent < scale then none
  else if 0 ≤ scale then f.round? negative (significand * Nat.pow 10 scale.toNat) 1
  else f.round? negative significand (Nat.pow 10 (-scale).toNat)

end BinaryFormat

end OfferLayout
