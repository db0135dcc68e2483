/-
**Instants in coordinated universal time.**

The instant of an event is written in coordinated universal time, to the millisecond.  It is given
as a local time and the offset at which that time is shown.

Main definitions:

* `LocalTime`, `Offset` — a time of a day, and how far it is ahead;
* `LocalTime.utc` — the same instant in coordinated universal time;
* `LocalTime.text` — **how an instant is written**.

Main results:

* `LocalTime.secondOfDay_utc_lt` — the result is a time of a day.
-/

import OfferLayout.Date
import OfferLayout.Text.Numeral

set_option relaxedAutoImplicit false
set_option autoImplicit false

namespace OfferLayout

/-! ### Times of a day -/

/-- How far a local time is ahead of coordinated universal time. -/
structure Offset where
  /-- The hours. -/
  hours : Int
  /-- The minutes. -/
  minutes : Int
  /-- The seconds. -/
  seconds : Int
deriving DecidableEq, Repr

/-- The offset in seconds.  Its first part that is not zero says whether it is ahead or behind. -/
def Offset.total (o : Offset) : Int :=
  let size : Int := o.hours.natAbs * 3600 + o.minutes.natAbs * 60 + o.seconds.natAbs
  let direction := if o.hours ≠ 0 then o.hours else if o.minutes ≠ 0 then o.minutes else o.seconds
  if direction < 0 then -size else size

/-- A time of a day. -/
structure LocalTime where
  /-- The day. -/
  date : Date
  /-- The hour. -/
  hour : Nat
  /-- The minute. -/
  minute : Nat
  /-- The second. -/
  second : Nat
  /-- The billionths of a second. -/
  nanosecond : Nat
deriving DecidableEq, Repr

namespace LocalTime

/-- The seconds since midnight. -/
def secondOfDay (t : LocalTime) : Nat := t.hour * 3600 + t.minute * 60 + t.second

/-- **The same instant in coordinated universal time.** -/
def utc (t : LocalTime) (o : Offset) : LocalTime :=
  let s : Int := t.secondOfDay - o.total
  let r := (s % 86400).toNat
  { date := t.date.shift (s / 86400), hour := r / 3600, minute := r / 60 % 60, second := r % 60,
    nanosecond := t.nanosecond }

/-- The result is a time of a day. -/
theorem secondOfDay_utc_lt (t : LocalTime) (o : Offset) : (t.utc o).secondOfDay < 86400 := by
  simp only [utc, secondOfDay]
  omega

/-- A number with at least `width` digits. -/
def padded (width n : Nat) : List Char :=
  List.replicate (width - (Text.digits n).length) '0' ++ Text.digits n

/-- A year with at least four digits, after a minus sign if it is negative. -/
def yearText (year : Int) : List Char :=
  (if year < 0 then ['-'] else []) ++ padded 4 year.natAbs

/-- **How an instant is written**; parts of a millisecond are dropped. -/
def text (t : LocalTime) : String :=
  String.ofList <|
    yearText t.date.year ++ '-' :: padded 2 t.date.month ++ '-' :: padded 2 t.date.day ++
    'T' :: padded 2 t.hour ++ ':' :: padded 2 t.minute ++ ':' :: padded 2 t.second ++
    '.' :: padded 3 (t.nanosecond / 1000000) ++ ['Z']

end LocalTime

end OfferLayout
