/-
**Predicates and the documents that are written for them.**

The document of a predicate is an object with one member.  Its name is the kind of the subject, and
its value has the name of the condition and the operands for members, in any order.  Decoding such a
document gives the predicate it was written for, whatever the texts in it are.  An operand that
stands for a number may be written as an integer as well; what is decoded is the same.

Main definitions:

* `Subject.numeral?`, `Subject.operandsAs` — the operand that stands for a number, and the operands
  with that one written as an integer;
* `Subject.IsSpelled` — the spellings of the operands;
* `Predicate.IsWrittenAs` — **the documents of a predicate**.

Main results:

* `Predicate.isReadFrom_of_isSpelled` — a subject is read from its operands, in either spelling;
* `Predicate.ofValue?_of_isWrittenAs` — **a document of a predicate decodes to it**;
* `Predicate.documents_decode` — the same for lists, and what becomes of an index.
-/

import OfferLayout.Predicate.Holds
import OfferLayout.Proofs.Predicate.Decoding

set_option relaxedAutoImplicit false
set_option autoImplicit false

namespace OfferLayout

open Json (Value)

/-! ### The documents of a predicate -/

namespace Subject

/-- The text of the operand that stands for a number, where there is one. -/
def numeral? : Subject → Option String
  | progression value => some value
  | position value => some value
  | placeholderTextLength _ value => some value
  | placeholderNumeric _ value => some value
  | _ => none

/-- The operands of a subject, with the value written as an integer. -/
def operandsAs (n : Int) (subject : Subject) : List (String × Value) :=
  subject.operands.map fun m => if m.1 = "value" then ("value", .ofInt n) else m

/-- **The spellings of the operands**: texts and numbers as they are, or with an integer in the
place of its digits. -/
def IsSpelled (subject : Subject) (operands : List (String × Value)) : Prop :=
  operands = subject.operands ∨
    ∃ n, subject.numeral? = some (Text.integer n) ∧ operands = subject.operandsAs n

end Subject

namespace Predicate

/-- **The documents of a predicate**: an object of its kind, with the condition and the operands for
members in any order. -/
def IsWrittenAs (p : Predicate) (v : Value) : Prop :=
  ∃ operands members, p.subject.IsSpelled operands ∧
    members.Perm (("condition", .string p.condition.name) :: operands) ∧
    v = .object [(p.subject.kind, .object members)]

theorem isWrittenAs_toValue (p : Predicate) : p.IsWrittenAs p.toValue :=
  ⟨p.subject.operands, _, Or.inl rfl, List.Perm.refl _, rfl⟩

/-! ### Members in any order -/

/-- The names of the operands do not depend on their spelling. -/
theorem map_fst_operandsAs (n : Int) (subject : Subject) :
    (subject.operandsAs n).map Prod.fst = subject.operands.map Prod.fst := by
  rw [Subject.operandsAs, List.map_map]
  refine List.map_congr_left fun m _ => ?_
  by_cases h : m.1 = "value"
  · simp [h]
  · simp [h]

/-- The members of a document have different names. -/
theorem nodup_members {subject : Subject} {operands : List (String × Value)}
    (h : subject.IsSpelled operands) (c : Condition) :
    ((("condition", Value.string c.name) :: operands).map Prod.fst).Nodup := by
  have hnames : operands.map Prod.fst = subject.operands.map Prod.fst := by
    rcases h with rfl | ⟨n, -, rfl⟩
    · rfl
    · exact map_fst_operandsAs n subject
  rw [List.map_cons, hnames]
  cases subject <;> simp [Subject.operands]

/-- Members with different names are found by their names, whatever their order. -/
theorem get?_of_perm {members members' : List (String × Value)} (hperm : members'.Perm members)
    (hnodup : (members.map Prod.fst).Nodup) {m : String × Value} (hm : m ∈ members) :
    (Value.object members').get? m.1 = some m.2 :=
  Dict.lookup_of_mem ((hperm.map Prod.fst).nodup_iff.2 hnodup) (hperm.mem_iff.2 hm)

/-! ### Decoding -/

/-- **A subject is read from its operands**, as they stand or with a number for an integer. -/
theorem isReadFrom_of_isSpelled {subject : Subject} {operands : List (String × Value)}
    {body : Value} (hspelled : subject.IsSpelled operands)
    (h : ∀ m ∈ operands, body.get? m.1 = some m.2) : subject.IsReadFrom body := by
  rcases hspelled with rfl | ⟨n, hn, rfl⟩
  · cases subject <;> simp only [Subject.operands, List.forall_mem_cons] at h <;>
      simp [Subject.IsReadFrom, GivesNumeral, h]
  · have hnumber : ∀ {value : String}, value = Text.integer n →
        body.get? "value" = some (.ofInt n) → GivesNumeral body "value" value := by
      rintro _ rfl hget
      exact Or.inr ⟨.integer n, hget, rfl⟩
    cases subject <;> simp only [Subject.numeral?, Option.some.injEq, reduceCtorEq] at hn <;>
      simp only [Subject.operandsAs, Subject.operands, List.map_cons, List.map_nil,
        List.forall_mem_cons, String.reduceEq, if_true, if_false] at h <;>
      simp [Subject.IsReadFrom, hnumber hn, h]

/-- What is written for a predicate is what it is read from. -/
theorem isReadFrom_of_isWrittenAs {p : Predicate} {v : Value} (h : p.IsWrittenAs v) :
    p.IsReadFrom v := by
  obtain ⟨operands, members, hspelled, hperm, rfl⟩ := h
  have hget := fun m hm => get?_of_perm hperm (nodup_members hspelled p.condition) (m := m) hm
  obtain ⟨hcondition, hoperands⟩ := List.forall_mem_cons.1 hget
  exact ⟨.object members, rfl, hcondition, isReadFrom_of_isSpelled hspelled hoperands⟩

/-- **A document of a predicate decodes to it.** -/
theorem ofValue?_of_isWrittenAs {p : Predicate} {v : Value} (h : p.IsWrittenAs v) :
    ofValue? v = .ok p :=
  ofValue?_eq_ok_iff.2 (isReadFrom_of_isWrittenAs h)

/-- Documents of predicates decode one by one. -/
theorem ofItems?_of_isWrittenAs {ps : List Predicate} {vs : List Value}
    (h : List.Forall₂ IsWrittenAs ps vs) : ofItems? vs = .ok ps :=
  readsEach_ofItems?.eq_ok_iff.2 (h.flip.imp fun _ _ => ofValue?_of_isWrittenAs)

/-- **What is written for a predicate decodes to it.**  Every predicate can be written, and decodes
from whatever document is written for it, with its members in any order, and with an integer in the
place of its digits where an operand stands for a number.  So do lists of predicates, in their
order.  The digits of an integer are read as an index exactly if the integer is a word of 32 bits,
and then as this word. -/
theorem documents_decode :
    (∀ p : Predicate, p.IsWrittenAs p.toValue ∧ ∀ v, p.IsWrittenAs v → ofValue? v = .ok p) ∧
    (∀ ps vs, List.Forall₂ IsWrittenAs ps vs → listOfValue? (.array vs) = .ok ps) ∧
    ∀ n : Int, ((∃ w, index? (Text.integer n) = some w) ↔ -2147483648 ≤ n ∧ n < 2147483648) ∧
      ∀ w, index? (Text.integer n) = some w ↔ w.toInt = n := by
  have hindex : ∀ {n : Int} {w : Int32}, index? (Text.integer n) = some w ↔ w.toInt = n := by
    intro n w
    rw [index?, Text.trim_integer, Text.int32?_integer_eq_some_iff]
  refine ⟨fun p => ⟨p.isWrittenAs_toValue, fun v => ofValue?_of_isWrittenAs⟩,
    fun ps vs => ofItems?_of_isWrittenAs, fun n => ⟨?_, fun w => hindex⟩⟩
  constructor
  · rintro ⟨w, hw⟩
    obtain rfl := hindex.1 hw
    exact ⟨w.le_toInt, w.toInt_lt⟩
  · rintro ⟨hmin, hmax⟩
    exact ⟨Int32.ofInt n, hindex.2 (Int32.toInt_ofInt_of_le hmin hmax)⟩

/-- A custom state with its members in reverse order, and an index that is written as an integer. -/
theorem documents_decode_reversed :
    listOfValue? (.array [
        .object [("customState", .object [("value", .ofInt (-2147483648)), ("key", .string "%^é"),
          ("condition", .string "isNot")])],
        .object [("progression", .object [("value", .ofInt (-1)),
          ("condition", .string "isBelow")])]]) =
      .ok [⟨.different, .customState "%^é" (-2147483648)⟩, ⟨.below, .progression "-1"⟩] ∧
    index? "-1" = some (-1) := by
  have hdigits : Text.integer (-1) = "-1" := by decide +kernel
  have hstate : IsWrittenAs ⟨.different, .customState "%^é" (-2147483648)⟩
      (.object [("customState", .object [("value", .ofInt (-2147483648)), ("key", .string "%^é"),
        ("condition", .string "isNot")])]) :=
    ⟨_, _, Or.inl rfl, List.reverse_perm _, rfl⟩
  have hindex : IsWrittenAs ⟨.below, .progression "-1"⟩
      (.object [("progression", .object [("value", .ofInt (-1)),
        ("condition", .string "isBelow")])]) :=
    ⟨_, _, Or.inr ⟨-1, congrArg some hdigits.symm, rfl⟩, List.reverse_perm _, rfl⟩
  obtain ⟨-, hlist, hnumber⟩ := documents_decode
  refine ⟨hlist _ _ (.cons hstate (.cons hindex .nil)), ?_⟩
  rw [← hdigits]
  exact (hnumber (-1)).2 (-1) |>.2 rfl

end Predicate

end OfferLayout
