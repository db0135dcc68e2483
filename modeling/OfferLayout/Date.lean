/-
**Dates.**

Dates are those of the Gregorian calendar, extended in both directions and with a year zero.

Main definitions:

* `Date`, `Date.Valid` — dates, and which of them there are;
* `Date.next`, `Date.previous`, `Date.shift` — moving by days.

Main results:

* `Date.previous_next` — going one day on and back leads to the same date.
-/

set_option relaxedAutoImplicit false
set_option autoImplicit false

namespace OfferLayout

/-! ### Dates -/

/-- A date of the Gregorian calendar. -/
structure Date where
  /-- The year. -/
  year : Int
  /-- The month, from one. -/
  month : Nat
  /-- The day of the month, from one. -/
  day : Nat
deriving DecidableEq, Repr

/-- Whether a year has a leap day. -/
def isLeapYear (year : Int) : Bool := year % 4 = 0 && (year % 100 ≠ 0 || year % 400 = 0)

/-- The number of days of a month. -/
def daysOfMonth (year : Int) (month : Nat) : Nat :=
  if month = 2 then if isLeapYear year then 29 else 28
  else if month = 4 ∨ month = 6 ∨ month = 9 ∨ month = 11 then 30
  else 31

namespace Date

/-- Whether there is such a date. -/
def Valid (d : Date) : Prop :=
  1 ≤ d.month ∧ d.month ≤ 12 ∧ 1 ≤ d.day ∧ d.day ≤ daysOfMonth d.year d.month

instance (d : Date) : Decidable d.Valid := by
  unfold Valid
  infer_instance

/-- The day after. -/
def next (d : Date) : Date :=
  if d.day < daysOfMonth d.year d.month then { d with day := d.day + 1 }
  else if d.month < 12 then ⟨d.year, d.month + 1, 1⟩
  else ⟨d.year + 1, 1, 1⟩

/-- The day before. -/
def previous (d : Date) : Date :=
  if 1 < d.day then { d with day := d.day - 1 }
  else if 1 < d.month then ⟨d.year, d.month - 1, daysOfMonth d.year (d.month - 1)⟩
  else ⟨d.year - 1, 12, 31⟩

/-- The date `n` days later. -/
def later (d : Date) : Nat → Date
  | 0 => d
  | n + 1 => (d.later n).next

/-- The date `n` days earlier. -/
def earlier (d : Date) : Nat → Date
  | 0 => d
  | n + 1 => (d.earlier n).previous

/-- The date some days later, or earlier if their number is negative. -/
def shift (d : Date) : Int → Date
  | .ofNat n => d.later n
  | .negSucc n => d.earlier (n + 1)

/-- **Going one day on and back leads to the same date.** -/
theorem previous_next {d : Date} (h : d.Valid) : d.next.previous = d := by
  obtain ⟨year, month, day⟩ := d
  obtain ⟨hm, hm', hd, hd'⟩ := h
  simp only at hm hm' hd hd'
  unfold next
  split
  · next hlt =>
      simp only [previous]
      have h1 : 1 < day + 1 := by omega
      simp [h1]
  · next hlt =>
      simp only [Nat.not_lt] at hlt
      split
      · simp only [previous]
        have h1 : 1 < month + 1 := by omega
        simp only [Nat.lt_irrefl, if_false, h1, if_true, Nat.add_sub_cancel, Date.mk.injEq, true_and]
        omega
      · next h12 =>
          simp only [Nat.not_lt] at h12
          have h12' : month = 12 := by omega
          subst h12'
          simp only [previous, Nat.lt_irrefl, if_false, Date.mk.injEq]
          refine ⟨by omega, trivial, ?_⟩
          have : daysOfMonth year 12 = 31 := by simp [daysOfMonth]
          omega

end Date

end OfferLayout
