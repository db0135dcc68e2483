/-
**The conditions that hold of a subject.**

Six kinds of subjects compare an actual quantity with a target.  All quantities are rational numbers
here: indices, places of breakpoints, entries of the custom state, lengths of texts, and decimals by
their value.  Where both quantities exist, the conditions that hold are told by their order alone.
Where one does not, none holds, except that a missing position and a missing entry of the custom
state differ from every target.  The other subjects are equal or not, present or absent, true or
false.

Main definitions:

* `Subject.conditions` — **the conditions that hold of a subject**;
* `Subject.actual?`, `Subject.target?` — the two quantities of a subject that compares;
* `Subject.IsMissing` — the quantity is missing, but differs from the target.

Main results:

* `Subject.holds_of_quantities` — **the order of the quantities decides**;
* `Snapshot.operand?_eq_none_iff` — an operand that has no expansion names an illegal namespace;
* `conditions_of_subject` — the conditions that hold, for every kind of subject.
-/

import OfferLayout.Predicate.Holds
import OfferLayout.Proofs.Expansion.Scope
import OfferLayout.Proofs.Number.Value

set_option relaxedAutoImplicit false
set_option autoImplicit false

namespace OfferLayout

/-! ### Quantities -/

/-- The index among `total` items that an operand stands for, in integers: a negative one counts
from the end.  One that leaves the range of words is none. -/
def indexTarget? (total : Int32) (operand : String) : Option ℤ :=
  (index? operand).bind fun v =>
    let target := if v.toInt < 0 then total.toInt + v.toInt else v.toInt
    if -2147483648 ≤ target ∧ target < 2147483648 then some target else none

namespace Subject

/-- **The conditions that hold of a subject**: those of the predicates about it that hold. -/
def conditions (s : Snapshot) (subject : Subject) : Set Condition :=
  {c | (Predicate.mk c subject).holds s = true}

theorem conditions_eq (s : Snapshot) (subject : Subject) :
    subject.conditions s = {c | subject.holds s c = true} := rfl

/-- Whether a subject compares quantities. -/
def compares : Subject → Bool
  | progression _ | position _ | breakpoint _ | customState _ _ => true
  | placeholderTextLength _ _ | placeholderNumeric _ _ => true
  | _ => false

/-- The quantity that a snapshot shows, if there is one. -/
def actual? (s : Snapshot) : Subject → Option ℚ
  | progression _ => some (s.progress.toInt : ℚ)
  | position _ => s.position.map fun place => (place.toInt : ℚ)
  | breakpoint _ => (s.breakpoints.at? s.width).map fun b => (b.1 : ℚ)
  | customState key _ => (s.custom? key).map fun n => (n.toInt : ℚ)
  | placeholderTextLength input _ => (s.operand? input).map fun text => (text.length : ℚ)
  | placeholderNumeric input _ =>
      ((s.operand? input).bind Decimal.parse?).map Decimal.value
  | _ => none

/-- The quantity that is asked for, if the operand makes sense. -/
def target? (s : Snapshot) : Subject → Option ℚ
  | progression value => (indexTarget? s.total value).map Int.cast
  | position value => (indexTarget? s.total value).map Int.cast
  | breakpoint value => (s.breakpoints.ordinalOf? value).map Nat.cast
  | customState _ value => some (value.toInt : ℚ)
  | placeholderTextLength _ value =>
      ((s.operand? value).bind fun text => Text.int64? (Text.trim text.toList)).map Int.cast
  | placeholderNumeric _ value =>
      ((s.operand? value).bind Decimal.parse?).map Decimal.value
  | _ => none

/-- **The quantity is missing** although the operand is in order: there is no position, or there is
no entry of the custom state at exactly this position and key. -/
def IsMissing (s : Snapshot) : Subject → Prop
  | position value => index? value ≠ none ∧ s.position = none
  | customState key _ => ∀ n, ((s.position, key), n) ∉ s.customState
  | _ => False

end Subject

/-! ### Operands without a value -/

/-- The index that an operand stands for is the same in words as in integers. -/
theorem map_toInt_resolveIndex? {operand : String} {v : Int32} (h : index? operand = some v)
    (total : Int32) : (resolveIndex? v total).map Int32.toInt = indexTarget? total operand := by
  rw [indexTarget?, h, Option.bind_some, resolveIndex?]
  by_cases hneg : v.toInt < 0
  · simp only [hneg, if_true, Text.toInt32?]
    split
    · next hrange => rw [Option.map_some, Int32.toInt_ofInt_of_le hrange.1 hrange.2]
    · rfl
  · have hrange : -2147483648 ≤ v.toInt ∧ v.toInt < 2147483648 := ⟨v.le_toInt, v.toInt_lt⟩
    simp only [hneg, if_false, hrange, and_self, if_true, Option.map_some]

/-- **An operand that has no expansion** names a namespace that is out of scope. -/
theorem Snapshot.operand?_eq_none_iff {s : Snapshot} {t : String} :
    s.operand? t = none ↔
      ∃ ps n, placeholdersOf t = .ok ps ∧
        firstOutside s.source.scope (ps.flatMap Placeholder.links) = some n := by
  have herror : s.operand? t = none ↔ ∃ e, expandWithState t s.source s.values = .error e := by
    rw [Snapshot.operand?]
    cases expandWithState t s.source s.values <;> simp [Except.toOption]
  simp only [herror, expandWithState_eq_error_iff]
  constructor
  · rintro ⟨e, ps, n, hps, hout, -⟩
    exact ⟨ps, n, hps, hout⟩
  · rintro ⟨ps, n, hps, hout⟩
    exact ⟨_, ps, n, hps, hout, rfl⟩

/-! ### Comparing -/

namespace Subject

/-- **The order of the quantities decides**, where both exist. -/
theorem holds_of_quantities {s : Snapshot} {subject : Subject} {actual target : ℚ}
    (hactual : subject.actual? s = some actual) (htarget : subject.target? s = some target)
    (c : Condition) : subject.holds s c = c.admits (compare actual target) := by
  have hindex : ∀ (place : Int32) {operand : String},
      (indexTarget? s.total operand).map Int.cast = some target →
        ∃ v, index? operand = some v ∧
          indexHolds c place v s.total = c.admits (compare (place.toInt : ℚ) target) := by
    intro place operand h
    obtain ⟨n, hn, rfl⟩ := Option.map_eq_some_iff.1 h
    obtain ⟨v, hv, -⟩ := Option.bind_eq_some_iff.1 hn
    rw [← map_toInt_resolveIndex? hv] at hn
    obtain ⟨w, hw, rfl⟩ := Option.map_eq_some_iff.1 hn
    refine ⟨v, hv, ?_⟩
    rw [indexHolds, hw, compare_intCast]
  cases subject with
  | progression value =>
      obtain ⟨v, hv, hholds⟩ := hindex s.progress htarget
      obtain rfl := Option.some.inj hactual
      simp only [holds, hv, hholds]
  | position value =>
      obtain ⟨place, hplace, rfl⟩ := Option.map_eq_some_iff.1 hactual
      obtain ⟨v, hv, hholds⟩ := hindex place htarget
      simp only [holds, hv, hplace, hholds]
  | breakpoint value =>
      obtain ⟨b, hb, rfl⟩ := Option.map_eq_some_iff.1 hactual
      obtain ⟨n, hn, rfl⟩ := Option.map_eq_some_iff.1 htarget
      simp only [holds, hb, hn, Option.map_some, bothHold, compare_natCast]
  | customState key value =>
      obtain ⟨n, hn, rfl⟩ := Option.map_eq_some_iff.1 hactual
      obtain rfl := Option.some.inj htarget
      simp only [holds, hn, compare_intCast]
  | placeholderTextLength input value =>
      obtain ⟨text, htext, rfl⟩ := Option.map_eq_some_iff.1 hactual
      obtain ⟨n, hn, rfl⟩ := Option.map_eq_some_iff.1 htarget
      simp only [holds, htext, hn, Option.map_some, bothHold, ← compare_intCast, Int.cast_natCast]
  | placeholderNumeric input value =>
      obtain ⟨d, hd, rfl⟩ := Option.map_eq_some_iff.1 hactual
      obtain ⟨d', hd', rfl⟩ := Option.map_eq_some_iff.1 htarget
      simp only [holds, hd, hd', bothHold, Decimal.order_eq_compare]
  | darkMode _ => cases hactual
  | staticBoolean _ => cases hactual
  | staticString _ _ => cases hactual
  | creativeCopy _ => cases hactual
  | placeholderTextValue _ _ => cases hactual

/-- Where a quantity that is missing counts as different, nothing else holds. -/
theorem holds_of_isMissing {s : Snapshot} {subject : Subject} (h : subject.IsMissing s)
    (c : Condition) : subject.holds s c = decide (c = .different) := by
  cases subject with
  | position value =>
      obtain ⟨v, hv⟩ := Option.ne_none_iff_exists'.1 h.1
      simp only [holds, hv, h.2]
  | customState key value =>
      have hnone : s.custom? key = none := CustomState.get?_eq_none_iff.2 h
      simp only [holds, hnone]
  | _ => cases h

/-- Where a quantity does not exist, and is not missing in this way, nothing holds. -/
theorem holds_eq_false {s : Snapshot} {subject : Subject} (hcompares : subject.compares = true)
    (hnone : subject.actual? s = none ∨ subject.target? s = none) (hmissing : ¬ subject.IsMissing s)
    (c : Condition) : subject.holds s c = false := by
  have hindex : ∀ {place v : Int32} {operand : String}, index? operand = some v →
      (indexTarget? s.total operand).map (Int.cast : ℤ → ℚ) = none →
        indexHolds c place v s.total = false := by
    intro place v operand hv h
    rw [Option.map_eq_none_iff, ← map_toInt_resolveIndex? hv, Option.map_eq_none_iff] at h
    rw [indexHolds, h]
  cases subject with
  | progression value =>
      have htarget := hnone.resolve_left (by simp [actual?])
      cases hv : index? value with
      | none => simp only [holds, hv]
      | some v => simp only [holds, hv, hindex hv htarget]
  | position value =>
      cases hv : index? value with
      | none => simp only [holds, hv]
      | some v =>
          cases hplace : s.position with
          | none => exact absurd ⟨by simp [hv], hplace⟩ hmissing
          | some place =>
              have htarget := hnone.resolve_left (by simp [actual?, hplace])
              simp only [holds, hv, hplace, hindex hv htarget]
  | breakpoint value =>
      rw [holds, bothHold_eq_false]
      simpa only [actual?, target?, Option.map_eq_none_iff] using hnone
  | customState key value =>
      have hactual := hnone.resolve_right (by simp [target?])
      exact absurd (CustomState.get?_eq_none_iff.1 (Option.map_eq_none_iff.1 hactual)) hmissing
  | placeholderTextLength input value =>
      rw [holds, bothHold_eq_false]
      simpa only [actual?, target?, Option.map_eq_none_iff] using hnone
  | placeholderNumeric input value =>
      rw [holds, bothHold_eq_false]
      simpa only [actual?, target?, Option.map_eq_none_iff] using hnone
  | _ => cases hcompares

end Subject

/-! ### Sets of conditions -/

/-- **The conditions that hold of two quantities**, by their order. -/
theorem setOf_admits_compare (actual target : ℚ) :
    (actual = target → {c : Condition | c.admits (compare actual target) = true} = {.equal}) ∧
    (target < actual →
      {c : Condition | c.admits (compare actual target) = true} = {.different, .above}) ∧
    (actual < target →
      {c : Condition | c.admits (compare actual target) = true} = {.different, .below}) := by
  refine ⟨fun h => ?_, fun h => ?_, fun h => ?_⟩
  · rw [compare_eq_iff_eq.2 h]
    ext c
    cases c <;> simp [Condition.admits]
  · rw [compare_gt_iff_gt.2 h]
    ext c
    cases c <;> simp [Condition.admits]
  · rw [compare_lt_iff_lt.2 h]
    ext c
    cases c <;> simp [Condition.admits]

/-- The conditions that hold of two things that are equal or not. -/
theorem setOf_admitsEqual (p : Prop) [Decidable p] :
    {c : Condition | c.admitsEqual p = true} = if p then {.equal} else {.different} := by
  by_cases h : p
  · simp only [h, decide_true, if_true]
    ext c
    cases c <;> simp [Condition.admitsEqual]
  · simp only [h, decide_false, if_false]
    ext c
    cases c <;> simp [Condition.admitsEqual]

/-! ### Every kind of subject -/

/-- **The conditions that hold of a subject.**  Of a subject that compares, those hold that fit the
order of the two quantities.  If a position is missing, or an entry of the custom state, the subject
is different only, and if anything else is missing, no condition holds.  An index is missing if it
leaves the range of words, a place of a breakpoint if there are none or none bears the name, and the
expansion of an operand if it names a namespace out of scope.  Texts are equal or different, copy is
present or absent, and truth values are true or false; no other condition ever holds. -/
theorem conditions_of_subject (s : Snapshot) :
    (∀ subject : Subject, subject.compares = true →
      (∀ actual target, subject.actual? s = some actual → subject.target? s = some target →
        (actual = target → subject.conditions s = {.equal}) ∧
        (target < actual → subject.conditions s = {.different, .above}) ∧
        (actual < target → subject.conditions s = {.different, .below})) ∧
      (subject.IsMissing s → subject.conditions s = {.different}) ∧
      (subject.actual? s = none ∨ subject.target? s = none → ¬ subject.IsMissing s →
        subject.conditions s = ∅)) ∧
    (∀ name width, (s.breakpoints.ordinalOf? name = none ↔
        ∀ e ∈ s.breakpoints.entries, e.1 ≠ name) ∧
      (s.breakpoints.at? width = none ↔ s.breakpoints.entries = [])) ∧
    (∀ t, s.operand? t = none ↔ ∃ ps n, placeholdersOf t = .ok ps ∧
      firstOutside s.source.scope (ps.flatMap Placeholder.links) = some n) ∧
    (∀ input value, (Subject.staticString input value).conditions s =
      if input = value then {.equal} else {.different}) ∧
    (∀ input value,
      (∀ actual expected, s.operand? input = some actual → s.operand? value = some expected →
        (Subject.placeholderTextValue input value).conditions s =
          if actual = expected then {.equal} else {.different}) ∧
      (s.operand? input = none ∨ s.operand? value = none →
        (Subject.placeholderTextValue input value).conditions s = ∅)) ∧
    (∀ key, (Subject.creativeCopy key).conditions s =
      if s.hasCopy key then {.present} else {.absent}) ∧
    (∀ value, (Subject.darkMode value).conditions s =
      {if s.darkMode = value then .equal else .different, if s.darkMode then .truth else .falsity}) ∧
    ∀ value, (Subject.staticBoolean value).conditions s =
      if value then {.truth} else {.falsity} := by
  refine ⟨?_, fun _ _ => ⟨Breakpoints.ordinalOf?_eq_none_iff, Breakpoints.at?_eq_none_iff⟩,
    fun _ => Snapshot.operand?_eq_none_iff, fun _ _ => setOf_admitsEqual _, ?_, ?_, ?_, ?_⟩
  · intro subject hcompares
    refine ⟨?_, ?_, ?_⟩
    · intro actual target hactual htarget
      simp only [Subject.conditions_eq, Subject.holds_of_quantities hactual htarget]
      exact setOf_admits_compare actual target
    · intro hmissing
      simp only [Subject.conditions_eq, Subject.holds_of_isMissing hmissing, decide_eq_true_eq,
        Set.ofPred_eq_eq_singleton]
    · intro hnone hmissing
      simp only [Subject.conditions_eq, Subject.holds_eq_false hcompares hnone hmissing,
        Bool.false_eq_true, Set.ofPred_false]
  · intro input value
    constructor
    · intro actual expected hactual hexpected
      simp only [Subject.conditions_eq, Subject.holds, hactual, hexpected]
      exact setOf_admitsEqual _
    · intro hnone
      have hfalse : ∀ c, (Subject.placeholderTextValue input value).holds s c = false := by
        intro c
        rcases hnone with h | h
        · simp only [Subject.holds, h]
        · cases hinput : s.operand? input <;> simp only [Subject.holds, hinput, h]
      simp only [Subject.conditions_eq, hfalse, Bool.false_eq_true, Set.ofPred_false]
  · intro key
    ext c
    cases hcopy : s.hasCopy key <;> cases c <;> simp [Subject.conditions_eq, Subject.holds, hcopy]
  · intro value
    ext c
    cases hdark : s.darkMode <;> cases value <;> cases c <;>
      simp [Subject.conditions_eq, Subject.holds, Condition.admitsEqual, hdark]
  · intro value
    ext c
    cases value <;> cases c <;> simp [Subject.conditions_eq, Subject.holds]

/-- An offer in view, without a position or breakpoints: the item in view is the second from the end
and before the last; the price has the value of the operand though not its spelling, and its length
is above four; a position and an entry of the custom state are missing; there is no breakpoint; and
a catalog item may not be named. -/
theorem conditions_in_offer :
    let s : Snapshot :=
      { progress := 1, total := 3, creative := some { copy := Dict.ofList [("price", "10.50")] } }
    (Subject.progression "-2").conditions s = {.equal} ∧
    (Subject.progression "-1").conditions s = {.different, .below} ∧
    (Subject.placeholderNumeric "%^DATA.creativeCopy.price^%" " 1050e-2").conditions s = {.equal} ∧
    (Subject.placeholderTextLength "%^DATA.creativeCopy.price^%" "4").conditions s =
      {.different, .above} ∧
    (Subject.position "+07").conditions s = {.different} ∧
    (Subject.customState "count" 0).conditions s = {.different} ∧
    (Subject.breakpoint "wide").conditions s = ∅ ∧
    (Subject.placeholderNumeric "%^DATA.catalogItem.price^%" "1").conditions s = ∅ ∧
    (Subject.placeholderTextValue "%^DATA.creativeCopy.price^%" "10.5").conditions s =
      {.different} := by
  intro s
  obtain ⟨hcompares, hplaces, -, -, htexts, -⟩ := conditions_of_subject s
  refine ⟨?_, ?_, ?_, ?_, ?_, ?_, ?_, ?_, ?_⟩
  · exact ((hcompares _ rfl).1 1 1 (by decide +kernel) (by decide +kernel)).1 rfl
  · exact ((hcompares _ rfl).1 1 2 (by decide +kernel) (by decide +kernel)).2.2 (by decide)
  · exact ((hcompares _ rfl).1 (21 / 2) (21 / 2) (by decide +kernel) (by decide +kernel)).1 rfl
  · exact ((hcompares _ rfl).1 5 4 (by decide +kernel) (by decide +kernel)).2.1 (by decide)
  · exact (hcompares _ rfl).2.1 ⟨by decide +kernel, rfl⟩
  · exact (hcompares _ rfl).2.1 fun _ => List.not_mem_nil
  · have hnone := (hplaces "wide" s.width).2.2 rfl
    exact (hcompares _ rfl).2.2 (Or.inl (Option.map_eq_none_iff.2 hnone)) id
  · exact (hcompares _ rfl).2.2 (Or.inl (by decide +kernel)) id
  · exact (htexts _ _).1 "10.50" "10.5" (by decide +kernel) (by decide +kernel)

end OfferLayout
