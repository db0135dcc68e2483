/-
**Written integers.**

A written integer is a sign, if it is negative, and digits.  There is no blank in it, so trimming
leaves it as it is, and it reads back as a word exactly if it is in the range of that word.

Main definitions:

* `Text.InWord` — the integers that a signed word of 32 bits holds.

Main results:

* `Text.trim_integer` — a written integer is trimmed;
* `Text.toInt32?_eq_some_iff`, `Text.toInt32?_eq_none_iff`, `Text.toUInt32?_eq_some_iff` — an
  integer as a word of 32 bits;
* `Text.int32?_integer_eq_some_iff` — **the words of 32 bits that written integers stand for**.
-/

import OfferLayout.Proofs.Text.Pieces
import OfferLayout.Text.Numeral

set_option relaxedAutoImplicit false
set_option autoImplicit false

namespace OfferLayout

namespace Text

/-! ### Characters -/

theorem mem_integer {n : Int} {c : Char} (h : c ∈ (integer n).toList) :
    c = '-' ∨ digit? c ≠ none := by
  rw [integer] at h
  split at h
  · rw [String.toList_ofList, List.mem_cons] at h
    exact h.imp_right digit?_ne_none_of_mem_digits
  · rw [natural, String.toList_ofList] at h
    exact Or.inr (digit?_ne_none_of_mem_digits h)

/-- No digit is a blank. -/
theorem isBlank_of_digit? {c : Char} (h : digit? c ≠ none) : isBlank c = false := by
  obtain ⟨hge, hle⟩ := range_of_digit? h
  have hnone : ∀ r ∈ blankRanges, ¬ (r.1 ≤ c.toNat ∧ c.toNat ≤ r.2) := by
    simp only [blankRanges, List.forall_mem_cons, List.not_mem_nil, false_implies, implies_true,
      and_true]
    omega
  rw [isBlank, List.any_eq_false]
  intro r hr
  simpa using hnone r hr

theorem isBlank_of_mem_integer {n : Int} {c : Char} (h : c ∈ (integer n).toList) :
    isBlank c = false := by
  rcases mem_integer h with rfl | hdigit
  · decide
  · exact isBlank_of_digit? hdigit

/-- A text without blanks is trimmed. -/
theorem trim_of_forall_not_blank {s : List Char} (h : ∀ c ∈ s, isBlank c = false) :
    trim s = s := by
  rw [trim_eq_self_iff, trimStart_eq_self_iff, trimEnd_eq_self_iff]
  constructor
  · intro c hc
    exact h c (List.mem_of_mem_head? hc)
  · intro c hc
    exact h c (List.mem_of_mem_getLast? hc)

/-- **A written integer is trimmed.** -/
theorem trim_integer (n : Int) : trim (integer n).toList = (integer n).toList :=
  trim_of_forall_not_blank fun _ => isBlank_of_mem_integer

/-- A written integer is not empty. -/
theorem integer_ne_empty (n : Int) : integer n ≠ "" := by
  intro h
  have hread := integer?_integer n
  rw [h] at hread
  cases hread

/-! ### Words -/

/-- The integers that a signed word of 32 bits holds. -/
def InWord (n : Int) : Prop := -2147483648 ≤ n ∧ n < 2147483648

instance : DecidablePred InWord := fun _ => inferInstanceAs (Decidable (_ ∧ _))

theorem inWord_toInt (w : Int32) : InWord w.toInt := ⟨w.le_toInt, w.toInt_lt⟩

/-- **An integer is made into the word with its value**, if there is one. -/
theorem toInt32?_eq_some_iff {n : Int} {w : Int32} : toInt32? n = some w ↔ w.toInt = n := by
  constructor
  · exact toInt_of_toInt32?
  · rintro rfl
    exact (if_pos (inWord_toInt w)).trans (congrArg some (Int32.ofInt_toInt w))

theorem toInt32?_eq_none_iff {n : Int} : toInt32? n = none ↔ ¬ InWord n := by
  unfold toInt32?
  split
  · next h => exact iff_of_false (Option.some_ne_none _) (not_not_intro h)
  · next h => exact iff_of_true rfl h

theorem toUInt32?_eq_some_iff {n : Int} {w : UInt32} : toUInt32? n = some w ↔ n = w.toNat := by
  have hw := w.toNat_lt
  rw [toUInt32?]
  split
  · next h =>
      have hn : n.toNat < UInt32.size := by
        simp only [UInt32.size]
        omega
      rw [Option.some.injEq, ← UInt32.toNat_inj, UInt32.toNat_ofNat_of_lt' hn]
      omega
  · next h =>
      simp only [reduceCtorEq, false_iff]
      omega

/-- **A written integer stands for the word with its value**, and for none if it is out of range. -/
theorem int32?_integer_eq_some_iff {n : Int} {w : Int32} :
    int32? (integer n).toList = some w ↔ w.toInt = n := by
  rw [int32?, integer?_integer, Option.bind_some, toInt32?_eq_some_iff]

end Text

end OfferLayout
