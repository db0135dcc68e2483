/-
**Negative indices count from the end.**

The operand of a progression or of a position is an integer, written in any way in which an integer
is read.  A negative one counts from the end: among `n` items, `-k` stands for `n - k`.  The sum is
a word of 32 bits; as long as the number of items is not negative it cannot leave the range of
words, so the comparison is that of integers.  Where it does leave the range, and where the operand
itself does, there is nothing to compare with, and no condition holds.

Main definitions:

* `SpellsInteger` — a text that is read as an integer;
* `countedIndex` — the index that an integer stands for, in integers.

Main results:

* `index?_eq_some_iff` — **the texts that stand for an index**;
* `indexTarget?_of_spells` — the index that an operand stands for, if there is one;
* `Predicate.index_comparison_is_exact` — **indices are compared as integers**, and when not at all.
-/

import OfferLayout.Proofs.Number.Integer
import OfferLayout.Proofs.Predicate.Numeric

set_option relaxedAutoImplicit false
set_option autoImplicit false

namespace OfferLayout

/-! ### Operands -/

/-- **A text spells an integer**: it is digits after a sign or none, between blanks. -/
def SpellsInteger (text : String) (n : ℤ) : Prop :=
  ∃ x : Numeral, x.fraction = none ∧ x.Spells text ∧ x.value = n

theorem spellsInteger_iff {text : String} {n : ℤ} :
    SpellsInteger text n ↔ Text.integer? (Text.trim text.toList) = some n := by
  rw [Numeral.integer?_eq_some_iff, SpellsInteger]
  simp only [Numeral.Spells, eq_comm]

instance (text : String) (n : ℤ) : Decidable (SpellsInteger text n) :=
  decidable_of_iff _ spellsInteger_iff.symm

/-- The index that an integer stands for among `total` items: a negative one counts from the end. -/
def countedIndex (total n : ℤ) : ℤ := if n < 0 then total + n else n

/-- What a text that spells an integer stands for is the word of that integer. -/
theorem index?_of_spells {text : String} {n : ℤ} (h : SpellsInteger text n) :
    index? text = Text.toInt32? n := by
  rw [index?, Text.int32?, spellsInteger_iff.1 h, Option.bind_some]

/-- **The texts that stand for an index** are those that spell an integer in the range of words. -/
theorem index?_eq_some_iff {text : String} {w : Int32} :
    index? text = some w ↔ SpellsInteger text w.toInt := by
  constructor
  · intro h
    obtain ⟨n, hn, hw⟩ := Option.bind_eq_some_iff.1 h
    rw [Text.toInt32?_eq_some_iff.1 hw]
    exact spellsInteger_iff.2 hn
  · intro h
    rw [index?_of_spells h, Text.toInt32?_eq_some_iff]

theorem index?_eq_none {text : String} {n : ℤ} (h : SpellsInteger text n) (hn : ¬ Text.InWord n) :
    index? text = none := by
  rw [index?_of_spells h, Text.toInt32?_eq_none_iff]
  exact hn

/-- **The index that an operand stands for**: the one that its integer does, if neither leaves the
range of words. -/
theorem indexTarget?_of_spells {text : String} {n : ℤ} (h : SpellsInteger text n) (total : Int32) :
    indexTarget? total text =
      if Text.InWord n ∧ Text.InWord (countedIndex total.toInt n) then
        some (countedIndex total.toInt n)
      else none := by
  rw [indexTarget?, index?_of_spells h]
  cases hword : Text.toInt32? n with
  | none => rw [if_neg fun hboth => Text.toInt32?_eq_none_iff.1 hword hboth.1, Option.bind_none]
  | some w =>
      obtain rfl := Text.toInt32?_eq_some_iff.1 hword
      have hboth : Text.InWord w.toInt ∧ Text.InWord (countedIndex total.toInt w.toInt) ↔
          Text.InWord (countedIndex total.toInt w.toInt) := and_iff_right (Text.inWord_toInt w)
      simp only [hboth]
      rfl

/-- **Counting from the end does not leave the range of words** if the number of items is not
negative. -/
theorem inWord_countedIndex {total : Int32} {n : ℤ} (htotal : 0 ≤ total.toInt)
    (hn : Text.InWord n) : Text.InWord (countedIndex total.toInt n) := by
  have hmax := (Text.inWord_toInt total).2
  obtain ⟨hlow, hhigh⟩ := hn
  unfold countedIndex
  split
  · exact ⟨by omega, by omega⟩
  · exact ⟨hlow, hhigh⟩

/-! ### Comparing -/

namespace Subject

/-- A subject that compares an index with the one that an operand stands for. -/
structure ComparesIndex (subject : Subject) (s : Snapshot) (operand : String) (actual : ℤ) :
    Prop where
  /-- The index in the snapshot. -/
  actual : subject.actual? s = some (actual : ℚ)
  /-- The index that the operand stands for. -/
  target : subject.target? s = (indexTarget? s.total operand).map Int.cast
  /-- It is not missing. -/
  notMissing : ¬ subject.IsMissing s

theorem comparesIndex_progression (s : Snapshot) (operand : String) :
    (progression operand).ComparesIndex s operand s.progress.toInt :=
  ⟨rfl, rfl, id⟩

theorem comparesIndex_position {s : Snapshot} {place : Int32} (h : s.position = some place)
    (operand : String) : (position operand).ComparesIndex s operand place.toInt where
  actual := by rw [actual?, h, Option.map_some]
  target := rfl
  notMissing hmissing := by
    have hnone := hmissing.2
    rw [h] at hnone
    cases hnone

variable {subject : Subject} {s : Snapshot} {operand : String} {actual n : ℤ}

/-- **Indices are compared as integers.** -/
theorem ComparesIndex.holds_iff (h : subject.ComparesIndex s operand actual)
    (hoperand : SpellsInteger operand n) (hn : Text.InWord n) (htotal : 0 ≤ s.total.toInt)
    (c : Condition) :
    subject.holds s c = true ↔ c.Relates actual (countedIndex s.total.toInt n) := by
  have htarget : subject.target? s = some ((countedIndex s.total.toInt n : ℤ) : ℚ) := by
    rw [h.target, indexTarget?_of_spells hoperand, if_pos ⟨hn, inWord_countedIndex htotal hn⟩,
      Option.map_some]
  rw [holds_of_quantities h.actual htarget, Condition.admits_compare_iff,
    Condition.relates_intCast_iff]

/-- Where the index that is asked for leaves the range of words, nothing holds. -/
theorem ComparesIndex.holds_eq_false (h : subject.ComparesIndex s operand actual)
    (hcompares : subject.compares = true) (hoperand : SpellsInteger operand n)
    (hn : ¬ Text.InWord (countedIndex s.total.toInt n)) (c : Condition) :
    subject.holds s c = false := by
  refine Subject.holds_eq_false hcompares (Or.inr ?_) h.notMissing c
  rw [h.target, indexTarget?_of_spells hoperand, if_neg fun hboth => hn hboth.2, Option.map_none]

/-- Where the operand leaves the range of words, nothing holds, whether there is a position or
not. -/
theorem holds_index_of_not_inWord (hoperand : SpellsInteger operand n) (hn : ¬ Text.InWord n)
    (s : Snapshot) (c : Condition) :
    (progression operand).holds s c = false ∧ (position operand).holds s c = false := by
  have hnone := index?_eq_none hoperand hn
  constructor
  · simp only [holds, hnone]
  · simp only [holds, hnone]

end Subject

/-! ### The whole of it -/

/-- **Indices are compared exactly, and negative ones count from the end.**  The texts that stand
for an index are those that spell an integer in the range of words.  Among a number of items that is
not negative, the index in view and the position compare with an operand as integers do; `-k` and
`total - k` mean the same, also where there is no position.  If the number of items is negative, and
counting from the end leaves the range of words, no condition holds of an index that is there; and
if the operand leaves it, no condition holds at all. -/
theorem Predicate.index_comparison_is_exact :
    (∀ text w, index? text = some w ↔ SpellsInteger text w.toInt) ∧
    (∀ (s : Snapshot) (text : String) (n : ℤ), SpellsInteger text n → Text.InWord n →
      0 ≤ s.total.toInt → ∀ c,
      (Predicate.holds ⟨c, .progression text⟩ s = true ↔
        c.Relates s.progress.toInt (countedIndex s.total.toInt n)) ∧
      ∀ place, s.position = some place →
        (Predicate.holds ⟨c, .position text⟩ s = true ↔
          c.Relates place.toInt (countedIndex s.total.toInt n))) ∧
    (∀ (s : Snapshot) (text text' : String) (k : ℤ), 1 ≤ k → k ≤ s.total.toInt →
      SpellsInteger text (-k) → SpellsInteger text' (s.total.toInt - k) → ∀ c,
      Predicate.holds ⟨c, .progression text⟩ s = Predicate.holds ⟨c, .progression text'⟩ s ∧
        Predicate.holds ⟨c, .position text⟩ s = Predicate.holds ⟨c, .position text'⟩ s) ∧
    (∀ (s : Snapshot) (text : String) (n : ℤ), SpellsInteger text n → s.total.toInt < 0 → n < 0 →
      s.total.toInt + n < -2147483648 → ∀ c,
      Predicate.holds ⟨c, .progression text⟩ s = false ∧
        (s.position ≠ none → Predicate.holds ⟨c, .position text⟩ s = false)) ∧
    ∀ (s : Snapshot) (text : String) (n : ℤ), SpellsInteger text n → ¬ Text.InWord n → ∀ c,
      Predicate.holds ⟨c, .progression text⟩ s = false ∧
        Predicate.holds ⟨c, .position text⟩ s = false := by
  refine ⟨fun _ _ => index?_eq_some_iff, ?_, ?_, ?_, ?_⟩
  · intro s text n htext hn htotal c
    refine ⟨(Subject.comparesIndex_progression s text).holds_iff htext hn htotal c, ?_⟩
    intro place hplace
    exact (Subject.comparesIndex_position hplace text).holds_iff htext hn htotal c
  · intro s text text' k hk hktotal htext htext' c
    have htotal : 0 ≤ s.total.toInt := by omega
    have hmax := (Text.inWord_toInt s.total).2
    have hn : Text.InWord (-k) := ⟨by omega, by omega⟩
    have hn' : Text.InWord (s.total.toInt - k) := ⟨by omega, by omega⟩
    have hsame : countedIndex s.total.toInt (-k) =
        countedIndex s.total.toInt (s.total.toInt - k) := by
      rw [countedIndex, countedIndex, if_pos (by omega), if_neg (by omega)]
      ring
    have hboth : ∀ {subject subject' : Subject} {actual : ℤ},
        subject.ComparesIndex s text actual → subject'.ComparesIndex s text' actual →
          subject.holds s c = subject'.holds s c := by
      intro subject subject' actual h h'
      rw [Bool.eq_iff_iff, h.holds_iff htext hn htotal, h'.holds_iff htext' hn' htotal, hsame]
    refine ⟨hboth (Subject.comparesIndex_progression s text)
      (Subject.comparesIndex_progression s text'), ?_⟩
    cases hplace : s.position with
    | some place =>
        exact hboth (Subject.comparesIndex_position hplace text)
          (Subject.comparesIndex_position hplace text')
    | none =>
        have hmissing : ∀ {operand : String} {m : ℤ}, SpellsInteger operand m → Text.InWord m →
            (Subject.position operand).IsMissing s := by
          intro operand m hoperand hm
          refine ⟨fun hnone => ?_, hplace⟩
          rw [index?_of_spells hoperand] at hnone
          exact Text.toInt32?_eq_none_iff.1 hnone hm
        exact (Subject.holds_of_isMissing (hmissing htext hn) c).trans
          (Subject.holds_of_isMissing (hmissing htext' hn') c).symm
  · intro s text n htext _ hneg hunder c
    have hout : ¬ Text.InWord (countedIndex s.total.toInt n) := by
      rw [countedIndex, if_pos hneg]
      exact fun hword => absurd hword.1 (not_le.2 hunder)
    refine ⟨(Subject.comparesIndex_progression s text).holds_eq_false rfl htext hout c, ?_⟩
    intro hplace
    obtain ⟨place, hplace⟩ := Option.ne_none_iff_exists'.1 hplace
    exact (Subject.comparesIndex_position hplace text).holds_eq_false rfl htext hout c
  · intro s text n htext hn c
    exact Subject.holds_index_of_not_inWord htext hn s c

/-- The second of three items is in view, at the last position: a sign, zeros and blanks do not
matter, and `-2` is 1.  Among `-1` items, the least word leaves the range of words, and the number
after the greatest word is in range nowhere. -/
theorem Predicate.index_comparison_is_exact_at_limits :
    let s : Snapshot := { progress := 1, total := 3, position := some 2 }
    let t : Snapshot := { total := -1, position := some 0 }
    Predicate.holds ⟨.equal, .progression " -0002\t"⟩ s = true ∧
    Predicate.holds ⟨.above, .position "+1"⟩ s = true ∧
    Predicate.holds ⟨.equal, .position " -0002\t"⟩ s = Predicate.holds ⟨.equal, .position "+1"⟩ s ∧
    Predicate.holds ⟨.different, .position "-2147483648"⟩ t = false ∧
    Predicate.holds ⟨.different, .position "2147483648"⟩ s = false := by
  intro s t
  obtain ⟨-, hexact, hsame, hunder, hout⟩ := index_comparison_is_exact
  have hend : SpellsInteger " -0002\t" (-2) := by decide +kernel
  have hstart : SpellsInteger "+1" 1 := by decide +kernel
  refine ⟨?_, ?_, ?_, ?_, ?_⟩
  · exact (hexact s _ (-2) hend (by decide) (by decide) .equal).1.2
      (show (1 : ℤ) = countedIndex 3 (-2) by decide)
  · exact ((hexact s _ 1 hstart (by decide) (by decide) .above).2 2 rfl).2
      (show countedIndex 3 1 < (2 : ℤ) by decide)
  · exact (hsame s _ _ 2 (by decide) (by decide) hend hstart .equal).2
  · have hleast : SpellsInteger "-2147483648" (-2147483648) := by decide +kernel
    exact (hunder t _ _ hleast (by decide) (by decide) (by decide) .different).2 (by decide)
  · exact (hout s "2147483648" 2147483648 (by decide +kernel) (by decide) .different).2

end OfferLayout
