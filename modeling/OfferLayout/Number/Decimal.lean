/-
**Decimal numbers of 96 bits.**

Operands are compared as decimals: an integer below 2⁹⁶ over a power of ten up to 10²⁸.  A plain
numeral has an optional sign, digits with at most one point among them, and underscores anywhere
after the first digit.  Fraction digits that no longer fit are rounded away by the first of them;
whether an underscore in its place is passed over depends on how wide the mantissa is.  A numeral
that is not plain may be a plain one times a power of ten.

Main definitions:

* `Decimal` — a decimal;
* `Decimal.plain?`, `Decimal.scientific?`, `Decimal.parse?` — reading numerals;
* `Decimal.order` — the order of two decimals by value;
* `Decimal.text` — the shortest plain numeral.

Main results:

* `Decimal.order_self` — a decimal equals itself.
-/

import OfferLayout.Text.Blank
import OfferLayout.Text.Numeral

set_option relaxedAutoImplicit false
set_option autoImplicit false

namespace OfferLayout

/-- A decimal: `mantissa / 10 ^ scale`, negated if `negative` is set. -/
structure Decimal where
  /-- The sign. -/
  negative : Bool
  /-- The digits, read as one integer. -/
  mantissa : Nat
  /-- The number of fraction digits. -/
  scale : Nat
deriving DecidableEq, Repr

namespace Decimal

/-- The greatest mantissa. -/
def maxMantissa : Nat := 79228162514264337593543950335

/-- The greatest number of fraction digits. -/
def maxScale : Nat := 28

/-! ### Plain numerals -/

/-- Rounds a decimal upwards in its last digit.  A mantissa that is full then loses a digit, if it
has fraction digits to lose. -/
def roundUp (d : Decimal) : Option Decimal :=
  if d.mantissa < maxMantissa then some { d with mantissa := d.mantissa + 1 }
  else if d.scale = 0 then none
  else some { d with mantissa := (d.mantissa + 1 + 4) / 10, scale := d.scale - 1 }

/-- Whether a character may stand among the digits that are dropped. -/
def isDroppable (c : Char) : Bool := c.isDigit || c = '_'

/-- The least mantissa that is counted as wide: one to which a further digit might not be added
within a word of 64 bits, with a margin of 255. -/
def wideMantissa : Nat := 18446744073709551615 / 10 - 255

/-- The digit that rounds, among the characters that follow the last digit that fits.  If the digits
before that one make up a wide mantissa, underscores are passed over; else an underscore counts as
zero. -/
def roundingDigit (d : Decimal) (dropped : List Char) : Nat :=
  if wideMantissa ≤ d.mantissa / 10 then (dropped.findSome? Text.digit?).getD 0
  else (dropped.head?.bind Text.digit?).getD 0

/-- Finishes a numeral whose other digits do not fit: one of them rounds, all are dropped. -/
def finish (d : Decimal) (dropped : List Char) : Option Decimal :=
  if dropped.all isDroppable then
    if 5 ≤ d.roundingDigit dropped then roundUp d else some d
  else none

/-- Reads the digits of a plain numeral onto those read so far.  `point` says whether the point was
read, and `any` whether a digit was. -/
def readPlain (d : Decimal) (point any : Bool) : List Char → Option Decimal
  | [] => if any then some d else none
  | c :: s =>
      if point && d.scale = maxScale then finish d (c :: s)
      else
        match Text.digit? c with
        | some n =>
            let mantissa := 10 * d.mantissa + n
            if mantissa ≤ maxMantissa then
              readPlain { d with mantissa, scale := if point then d.scale + 1 else d.scale }
                point true s
            else if point then finish d (c :: s)
            else none
        | none =>
            if c = '.' && !point then readPlain d true any s
            else if c = '_' && any then readPlain d point any s
            else none

/-- Reads a plain numeral. -/
def plain? : List Char → Option Decimal
  | '-' :: s => readPlain ⟨true, 0, 0⟩ false false s
  | '+' :: s => readPlain ⟨false, 0, 0⟩ false false s
  | s => readPlain ⟨false, 0, 0⟩ false false s

/-! ### Powers of ten -/

/-- The decimal rounded to fewer fraction digits, halves away from zero. -/
def roundTo (d : Decimal) (scale : Nat) : Decimal :=
  let unit := Nat.pow 10 (d.scale - scale)
  { d with mantissa := (2 * d.mantissa + unit) / (2 * unit), scale := scale }

/-- The decimal over a power of ten.  Digits beyond the greatest scale are rounded away first. -/
def shiftDown (d : Decimal) (power : Nat) : Option Decimal :=
  if maxScale < power then none
  else
    let d := if maxScale < d.scale + power then d.roundTo (maxScale - power) else d
    some { d with scale := d.scale + power }

/-- The decimal times a power of ten. -/
def shiftUp (d : Decimal) (power : Nat) : Option Decimal :=
  if power ≤ d.scale then some { d with scale := d.scale - power }
  else if maxScale < power then none
  else
    let mantissa := d.mantissa * Nat.pow 10 (power - d.scale)
    if mantissa ≤ maxMantissa then some { d with mantissa, scale := 0 } else none

/-- Reads the power of ten of a numeral onto its decimal. -/
def shift (d : Decimal) : List Char → Option Decimal
  | '-' :: s => (Text.uint32? s).bind fun n => d.shiftDown n.toNat
  | s => (Text.uint32? s).bind fun n => d.shiftUp n.toNat

/-- Whether a character announces a power of ten. -/
def isExponentLetter (c : Char) : Bool := c = 'e' || c = 'E'

/-- Reads a plain numeral times a power of ten. -/
def scientific? (s : List Char) : Option Decimal :=
  match s.dropWhile fun c => !isExponentLetter c with
  | [] => none
  | _ :: power => (plain? (s.takeWhile fun c => !isExponentLetter c)).bind fun d => d.shift power

/-- **Reads a numeral**, with the blanks around it ignored. -/
def parse? (s : String) : Option Decimal :=
  let s := Text.trim s.toList
  (plain? s).or (scientific? s)

/-! ### Order and spelling -/

/-- The mantissa with its sign. -/
def signed (d : Decimal) : Int := if d.negative then -(d.mantissa : Int) else d.mantissa

/-- **The order of two decimals by value.** -/
def order (a b : Decimal) : Ordering :=
  compare (a.signed * Nat.pow 10 b.scale) (b.signed * Nat.pow 10 a.scale)

/-- A decimal equals itself. -/
@[simp] theorem order_self (d : Decimal) : d.order d = .eq := by
  simp [order]

/-- The decimal of the same value without zeros at the end of its fraction. -/
def normalize (d : Decimal) : Decimal :=
  match d with
  | ⟨negative, mantissa, 0⟩ => ⟨negative, mantissa, 0⟩
  | ⟨negative, mantissa, scale + 1⟩ =>
      if mantissa % 10 = 0 then normalize ⟨negative, mantissa / 10, scale⟩
      else ⟨negative, mantissa, scale + 1⟩
termination_by d.scale

/-- The shortest plain numeral of a decimal; zero has no sign. -/
def text (d : Decimal) : String :=
  let d := d.normalize
  let digits := Text.digits d.mantissa
  let padded := List.replicate (d.scale + 1 - digits.length) '0' ++ digits
  let whole := padded.take (padded.length - d.scale)
  let fraction := padded.drop (padded.length - d.scale)
  let body := if fraction.isEmpty then whole else whole ++ '.' :: fraction
  String.ofList (if d.negative && d.mantissa ≠ 0 then '-' :: body else body)

end Decimal

end OfferLayout
