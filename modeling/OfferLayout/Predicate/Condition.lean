/-
**Conditions.**

A predicate asks for one of eight conditions.  Four of them compare: two quantities that are ordered
satisfy one or two of them.

Main definitions:

* `Condition` — a condition, `Condition.name` and `Condition.named?` its spelling;
* `Condition.admits` — whether a condition holds of two quantities in the given order.

Main results:

* `Condition.named?_name` — a condition is found by its name.
-/

set_option relaxedAutoImplicit false
set_option autoImplicit false

namespace OfferLayout

/-- What a predicate asks for. -/
inductive Condition where
  /-- The quantities are equal. -/
  | equal
  /-- The quantities differ. -/
  | different
  /-- The actual quantity is the greater one. -/
  | above
  /-- The actual quantity is the lesser one. -/
  | below
  /-- The thing exists. -/
  | present
  /-- The thing does not exist. -/
  | absent
  /-- The truth value is true. -/
  | truth
  /-- The truth value is false. -/
  | falsity
deriving DecidableEq, Repr

namespace Condition

/-- The name of a condition. -/
def name : Condition → String
  | equal => "is"
  | different => "isNot"
  | above => "isAbove"
  | below => "isBelow"
  | present => "exists"
  | absent => "notExists"
  | truth => "isTrue"
  | falsity => "isFalse"

/-- All conditions. -/
def all : List Condition := [equal, different, above, below, present, absent, truth, falsity]

/-- The condition with the given name. -/
def named? (s : String) : Option Condition := all.find? fun c => c.name = s

/-- **A condition is found by its name.** -/
@[simp] theorem named?_name (c : Condition) : named? c.name = some c := by
  cases c <;> decide

/-- Only its own name names a condition. -/
theorem name_of_named? {s : String} {c : Condition} (h : named? s = some c) : c.name = s := by
  simpa using List.find?_some h

/-- Whether a condition that compares holds of an actual and an expected quantity in the given
order; any other condition does not. -/
def admits : Condition → Ordering → Bool
  | equal, o => o = .eq
  | different, o => o ≠ .eq
  | above, o => o = .gt
  | below, o => o = .lt
  | _, _ => false

/-- Whether a condition holds of two quantities that may only be equal or not. -/
def admitsEqual : Condition → Bool → Bool
  | equal, same => same
  | different, same => !same
  | _, _ => false

end Condition

end OfferLayout
