/-
**Whether a predicate holds.**

A predicate is true or false of a snapshot; there is no third answer.  An operand that is missing or
cannot be read makes its predicate false, except that two things differ if one of them is absent.

Main definitions:

* `index?`, `resolveIndex?` — an index operand, and the index it stands for among the items;
* `Subject.holds` — **whether a condition holds of a subject**;
* `Predicate.holds`, `allHold` — whether a predicate holds, and whether all of a list do.

Main results:

* `allHold_nil`, `allHold_append` — the empty list always holds, and a list holds part by part.
-/

import OfferLayout.Expansion.Basic
import OfferLayout.Number.Decimal
import OfferLayout.Predicate.Basic
import OfferLayout.Predicate.Snapshot

set_option relaxedAutoImplicit false
set_option autoImplicit false

namespace OfferLayout

/-! ### Indices -/

/-- The index that a text stands for, with the blanks around it ignored. -/
def index? (s : String) : Option Int32 := Text.int32? (Text.trim s.toList)

/-- The index among `total` items that `value` stands for: a negative one counts from the end, and
one that leaves the range of words stands for none. -/
def resolveIndex? (value total : Int32) : Option Int32 :=
  if value.toInt < 0 then Text.toInt32? (total.toInt + value.toInt) else some value

/-- Whether a condition holds of an index and the one that an operand stands for. -/
def indexHolds (c : Condition) (actual value total : Int32) : Bool :=
  match resolveIndex? value total with
  | none => false
  | some target => c.admits (compare actual.toInt target.toInt)

/-! ### Operands -/

/-- The expansion of an operand with the records and the state of a snapshot. -/
def Snapshot.operand? (s : Snapshot) (template : String) : Option String :=
  (expandWithState template s.source s.values).toOption

/-- The copy at a key of a map, if it is not empty. -/
def copyAt? (copy : Dict String) (key : String) : Option String :=
  (copy.get? key).filter fun text => !text.isEmpty

/-- Whether a snapshot shows copy at a key, in the creative or else in the catalog item. -/
def Snapshot.hasCopy (s : Snapshot) (key : String) : Bool :=
  (s.creative.bind fun c => copyAt? c.copy key).isSome ||
    (s.catalogItem.bind fun i => copyAt? i.copy key).isSome

/-- **Copy shows** if the creative, or else the catalog item, has a text at the key that is not
empty. -/
theorem Snapshot.hasCopy_eq_true_iff {s : Snapshot} {key : String} :
    s.hasCopy key = true ↔
      (∃ text, (s.creative.bind fun c => c.copy.get? key) = some text ∧ text ≠ "") ∨
        ∃ text, (s.catalogItem.bind fun i => i.copy.get? key) = some text ∧ text ≠ "" := by
  have hshown : ∀ copy : Dict String,
      (copyAt? copy key).isSome = true ↔ ∃ text, copy.get? key = some text ∧ text ≠ "" := by
    intro copy
    rw [copyAt?]
    cases copy.get? key <;> simp [Option.filter]
  cases hc : s.creative <;> cases hi : s.catalogItem <;> simp [hasCopy, hc, hi, hshown]

/-- Whether a condition holds of two quantities that may be missing; nothing holds if one is. -/
def bothHold {α : Type} (order : α → α → Ordering) (c : Condition) : Option α → Option α → Bool
  | some actual, some expected => c.admits (order actual expected)
  | _, _ => false

theorem bothHold_eq_false {α : Type} {order : α → α → Ordering} {c : Condition}
    {actual expected : Option α} (h : actual = none ∨ expected = none) :
    bothHold order c actual expected = false := by
  rcases h with rfl | rfl
  · rfl
  · cases actual <;> rfl

/-! ### Predicates -/

/-- **Whether a condition holds of a subject** in a snapshot. -/
def Subject.holds (s : Snapshot) (c : Condition) : Subject → Bool
  | .progression value =>
      match index? value with
      | none => false
      | some v => indexHolds c s.progress v s.total
  | .position value =>
      match index? value, s.position with
      | none, _ => false
      | some v, some place => indexHolds c place v s.total
      | some _, none => c = .different
  | .breakpoint value =>
      bothHold compare c ((s.breakpoints.at? s.width).map fun b => b.1)
        (s.breakpoints.ordinalOf? value)
  | .darkMode value =>
      match c with
      | .truth => s.darkMode
      | .falsity => !s.darkMode
      | c => c.admitsEqual (s.darkMode = value)
  | .customState key value =>
      match s.custom? key with
      | some current => c.admits (compare current.toInt value.toInt)
      | none => c = .different
  | .staticBoolean value =>
      match c with
      | .truth => value
      | .falsity => !value
      | _ => false
  | .staticString input value => c.admitsEqual (input = value)
  | .creativeCopy key =>
      match c with
      | .present => s.hasCopy key
      | .absent => !s.hasCopy key
      | _ => false
  | .placeholderTextValue input value =>
      match s.operand? input, s.operand? value with
      | some actual, some expected => c.admitsEqual (actual = expected)
      | _, _ => false
  | .placeholderTextLength input value =>
      bothHold compare c ((s.operand? input).map fun text => (text.length : Int))
        ((s.operand? value).bind fun text => Text.int64? (Text.trim text.toList))
  | .placeholderNumeric input value =>
      bothHold Decimal.order c ((s.operand? input).bind Decimal.parse?)
        ((s.operand? value).bind Decimal.parse?)

/-- Whether a predicate holds in a snapshot. -/
def Predicate.holds (p : Predicate) (s : Snapshot) : Bool := p.subject.holds s p.condition

/-- **Whether all predicates of a list hold.** -/
def allHold (ps : List Predicate) (s : Snapshot) : Bool := ps.all fun p => p.holds s

@[simp] theorem allHold_nil (s : Snapshot) : allHold [] s = true := rfl

@[simp] theorem allHold_append (ps qs : List Predicate) (s : Snapshot) :
    allHold (ps ++ qs) s = (allHold ps s && allHold qs s) := by
  simp [allHold]

end OfferLayout
