/-
**Numbers, dates and times of a settings text.**

Everything that is not quoted and not made of parts is written without blanks, up to the next blank,
comma, closing mark or comment; only between a date and a time there may be one blank.  Digits may
be grouped by underscores, each of them between two digits.

Main definitions:

* `Toml.ungrouped?` — digits without the underscores between them;
* `Toml.integer?`, `Toml.float?` — numbers;
* `Toml.isDate`, `Toml.isTime`, `Toml.isDateTime` — dates and times;
* `Toml.scalar?` — **the value that is written without parts**.
-/

import OfferLayout.Date
import OfferLayout.Toml.Value
import OfferLayout.Text.Cut
import OfferLayout.Text.Numeral

set_option relaxedAutoImplicit false
set_option autoImplicit false

namespace OfferLayout

namespace Toml

/-! ### Digits -/

/-- The digits of a text, if it is made of digits with at most one underscore between two of
them. -/
def ungrouped? (isDigit : Char → Bool) : List Char → Option (List Char)
  | [] => none
  | [c] => if isDigit c then some [c] else none
  | c :: '_' :: s => if isDigit c then (ungrouped? isDigit s).map (c :: ·) else none
  | c :: d :: s => if isDigit c then (ungrouped? isDigit (d :: s)).map (c :: ·) else none

/-- Whether a character is a digit of a base of at most sixteen. -/
def isDigitOf (base : Nat) (c : Char) : Bool := (Text.digitOfBase? base c).isSome

/-- The decimal digits of a whole number; it starts with zero only if it is zero. -/
def wholeDigits? (s : List Char) : Option (List Char) :=
  (ungrouped? Char.isDigit s).bind fun ds =>
    if ds.head? = some '0' ∧ ds ≠ ['0'] then none else some ds

/-- The sign that a text may start with, and the text after it. -/
def splitSign : List Char → Bool × List Char
  | '-' :: s => (true, s)
  | '+' :: s => (false, s)
  | s => (false, s)

/-! ### Numbers -/

/-- The integer in the given base, if it is a word of 64 bits. -/
def basedInteger? (base : Nat) (s : List Char) : Option Int :=
  ((ungrouped? (isDigitOf base) s).bind (Text.numberOfBase? base)).bind fun n =>
    if n < 9223372036854775808 then some n else none

/-- The integer that is written, if it is a word of 64 bits.  A sign is only for decimal ones. -/
def integer? : List Char → Option Int
  | '0' :: 'x' :: s => basedInteger? 16 s
  | '0' :: 'o' :: s => basedInteger? 8 s
  | '0' :: 'b' :: s => basedInteger? 2 s
  | s =>
      ((wholeDigits? (splitSign s).2).bind Text.natural?).bind fun n =>
        let m : Int := if (splitSign s).1 then -n else n
        if -9223372036854775808 ≤ m ∧ m < 9223372036854775808 then some m else none

/-- The text before the first letter of an exponent, and the text after it, if there is one. -/
def splitExponent : List Char → List Char × Option (List Char)
  | [] => ([], none)
  | c :: s =>
      if c = 'e' ∨ c = 'E' then ([], some s)
      else ((c :: (splitExponent s).1), (splitExponent s).2)

/-- The power of ten that is written. -/
def power? (s : List Char) : Option Int :=
  ((ungrouped? Char.isDigit (splitSign s).2).bind Text.natural?).map fun n =>
    if (splitSign s).1 then -(n : Int) else n

/-- The floating-point number that is written; a positive one must not be too great. -/
def decimalFloat? (negative : Bool) (s : List Char) : Option Value :=
  let parts := splitExponent s
  let point := Text.splitFirst '.' parts.1
  if point.2.isNone ∧ parts.2.isNone then none
  else do
    let whole ← wholeDigits? point.1
    let fraction ← (point.2.map (ungrouped? Char.isDigit)).getD (some [])
    let power ← (parts.2.map power?).getD (some 0)
    let significand ← Text.natural? (whole ++ fraction)
    match BinaryFormat.double.ofDecimal? negative significand (whole.length + fraction.length)
        (power - fraction.length) with
    | some x => some (.float (some x))
    | none => if negative then some (.float none) else none

/-- The floating-point number that is written: digits with a point or an exponent, or one of the
two words. -/
def float? (s : List Char) : Option Value :=
  match (splitSign s).2 with
  | ['i', 'n', 'f'] => some (.float none)
  | ['n', 'a', 'n'] => some (.float none)
  | r => decimalFloat? (splitSign s).1 r

/-! ### Dates and times -/

/-- The number that a text of exactly two digits stands for, if it is below a bound. -/
def twoDigits? (bound : Nat) (s : List Char) : Option Nat :=
  if s.length = 2 then (Text.natural? s).bind fun n => if n < bound then some n else none else none

/-- Whether a text is a date: four, two and two digits. -/
def isDate (s : List Char) : Bool :=
  match s with
  | [a, b, c, d, '-', m, m', '-', e, e'] =>
      match Text.natural? [a, b, c, d], twoDigits? 13 [m, m'], twoDigits? 32 [e, e'] with
      | some year, some month, some day => decide (Date.Valid ⟨year, month, day⟩)
      | _, _, _ => false
  | _ => false

/-- Whether a text is an hour and a minute. -/
def isHourMinute : List Char → Bool
  | [h, h', ':', m, m'] => (twoDigits? 24 [h, h']).isSome && (twoDigits? 60 [m, m']).isSome
  | _ => false

/-- Whether a text is nothing, or a point with digits after it. -/
def isFraction : List Char → Bool
  | [] => true
  | '.' :: s => !s.isEmpty && s.all Char.isDigit
  | _ => false

/-- Whether a text is a time of a day.  A leap second counts. -/
def isTime (s : List Char) : Bool :=
  isHourMinute (s.take 5) && s[5]? = some ':' && (twoDigits? 61 ((s.drop 6).take 2)).isSome &&
    isFraction (s.drop 8)

/-- Whether a text is nothing, or a distance from coordinated universal time. -/
def isOffset : List Char → Bool
  | [] => true
  | ['Z'] => true
  | ['z'] => true
  | '+' :: s => isHourMinute s
  | '-' :: s => isHourMinute s
  | _ => false

/-- Whether a character may start a distance from coordinated universal time. -/
def startsOffset (c : Char) : Bool := c = 'Z' || c = 'z' || c = '+' || c = '-'

/-- Whether a text is a time of a day at some distance from coordinated universal time. -/
def isOffsetTime (s : List Char) : Bool :=
  isTime (s.takeWhile fun c => !startsOffset c) && isOffset (s.dropWhile fun c => !startsOffset c)

/-- Whether a text is a date with a time after the letter that separates them. -/
def isDateTime (s : List Char) : Bool :=
  isDate (s.take 10) && (s[10]? = some 'T' || s[10]? = some 't') && isOffsetTime (s.drop 11)

/-! ### Values without parts -/

/-- Whether a character may follow a value that is written without parts. -/
def endsScalar (c : Char) : Bool :=
  isBlank c || c = '\n' || c = '\r' || c = '#' || c = ',' || c = ']' || c = '}'

/-- The value of a text without blanks. -/
def word? (s : List Char) : Option Value :=
  if s = ['t', 'r', 'u', 'e'] then some (.bool true)
  else if s = ['f', 'a', 'l', 's', 'e'] then some (.bool false)
  else if isDate s || isTime s || isDateTime s then some (.dateTime (String.ofList s))
  else
    match integer? s with
    | some n => some (.integer n)
    | none => float? s

/-- **The value that is written without parts** at the start of a text, and what follows it. -/
def scalar? (s : List Char) : Option (Value × List Char) :=
  let word := s.takeWhile fun c => !endsScalar c
  let rest := s.dropWhile fun c => !endsScalar c
  let time := (rest.drop 1).takeWhile fun c => !endsScalar c
  if isDate word ∧ rest.head? = some ' ' ∧ isOffsetTime time then
    some (.dateTime (String.ofList (word ++ ' ' :: time)), rest.drop (time.length + 1))
  else (word? word).map fun v => (v, rest)

end Toml

end OfferLayout
