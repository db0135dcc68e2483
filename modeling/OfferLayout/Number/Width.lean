/-
**Widths of a view.**

The width of a view is a floating-point number of 32 bits, which may be infinite or undefined.
Widths in pixels are converted to that format before they are compared with it, so pixel counts
above 2²⁴ may be compared after rounding.

Main definitions:

* `Width` — a width;
* `Width.ofInt`, `Width.ofBinary`, `Width.ofNumber` — the width nearest to a number;
* `Width.lt` — the order of widths, in which nothing compares with the undefined one.

Main results:

* `Binary.order_self`, `Width.lt_irrefl` — no width is below itself.
-/

import OfferLayout.Json.Fields

set_option relaxedAutoImplicit false
set_option autoImplicit false

namespace OfferLayout

/-! ### The order of floating-point numbers -/

namespace Binary

/-- The number as an integer multiple of `2 ^ e`, if `e` is not above its exponent. -/
def multipleOf (x : Binary) (e : Int) : Int :=
  let m : Int := (x.mantissa * Nat.pow 2 (x.exponent - e).toNat : Nat)
  if x.negative then -m else m

/-- The order of two floating-point numbers by value; the two zeros are equal. -/
def order (x y : Binary) : Ordering :=
  let e := min x.exponent y.exponent
  compare (x.multipleOf e) (y.multipleOf e)

@[simp] theorem order_self (x : Binary) : x.order x = .eq := by
  simp [order]

end Binary

/-! ### Widths -/

/-- The width of a view. -/
inductive Width where
  /-- A finite width. -/
  | finite (x : Binary)
  /-- An infinite width. -/
  | infinite (negative : Bool)
  /-- The undefined width. -/
  | undefined
deriving DecidableEq, Repr

namespace Width

/-- The width zero. -/
def zero : Width := .finite ⟨false, 0, BinaryFormat.single.minExponent⟩

/-- A rounded number as a width; one that is too great is infinite. -/
def ofRounded (negative : Bool) : Option Binary → Width
  | some x => .finite x
  | none => .infinite negative

/-- The width nearest to an integer. -/
def ofInt (n : Int) : Width := ofRounded (n < 0) (BinaryFormat.single.ofInt? n)

/-- The width nearest to a floating-point number. -/
def ofBinary (x : Binary) : Width := ofRounded x.negative (BinaryFormat.single.ofBinary? x)

/-- The width nearest to a number of a document. -/
def ofNumber : Json.Number → Width
  | .integer n => ofInt n
  | .real x => ofBinary x

/-- Whether a width is below another one. -/
def lt : Width → Width → Bool
  | .undefined, _ => false
  | _, .undefined => false
  | .infinite a, .infinite b => a && !b
  | .infinite a, .finite _ => a
  | .finite _, .infinite b => !b
  | .finite x, .finite y => x.order y = .lt

/-- No width is below itself. -/
@[simp] theorem lt_irrefl (w : Width) : w.lt w = false := by
  cases w <;> simp [lt]

end Width

end OfferLayout
