/-
**Which documents are predicates, and what is wrong with the others.**

A document that is no predicate may have several faults at once.  The one that is reported is fixed:
the shape of the document comes before the condition, the condition before the kind, the kind before
the operands, and the operands come in their order.  A list of predicates is refused for the first
element that is none.  What a predicate is read from is its kind, its condition and its operands;
whatever else stands in the document does not matter.

Main definitions:

* `Operand`, `operandsOf` — the operands of the subjects of a kind;
* `Subject.IsReadFrom`, `Predicate.IsReadFrom` — **the documents that a predicate is read from**;
* `Predicate.Refuses` — **the documents that are refused**, and the fault that is reported.

Main results:

* `Predicate.subjectOf_eq_error_iff`, `Predicate.subjectOf_eq_ok_iff` — reading the operands;
* `Predicate.ofValue?_eq_error_iff`, `Predicate.ofValue?_eq_ok_iff` — reading one predicate;
* `Predicate.listOfValue?_eq_ok_iff`, `Predicate.listOfValue?_eq_error_iff` — reading a list;
* `Predicate.decoding_is_all_or_nothing` — **all of it together**.
-/

import OfferLayout.Predicate.Basic
import OfferLayout.Proofs.FirstFault
import OfferLayout.Proofs.Text.Numeral

set_option relaxedAutoImplicit false
set_option autoImplicit false

namespace OfferLayout

open Json (Value)

/-! ### Operands -/

/-- What an operand has to be. -/
inductive Operand where
  /-- A string. -/
  | text
  /-- A string or a number. -/
  | numeral
  /-- A truth value. -/
  | truth
  /-- An integer in the range of words. -/
  | word
  /-- Anything, or nothing. -/
  | optional
deriving DecidableEq, Repr

/-- Whether what a document has in the place of an operand will do. -/
def Operand.admits : Operand → Option Value → Bool
  | text, some (.string _) => true
  | numeral, some (.string _) => true
  | numeral, some (.number _) => true
  | truth, some (.bool _) => true
  | word, some (.number (.integer n)) => Text.InWord n
  | optional, _ => true
  | _, _ => false

/-- **The operands of the subjects of a kind**, in the order in which they are looked for. -/
def operandsOf : String → List (String × Operand)
  | "progression" => [("value", .numeral)]
  | "position" => [("value", .numeral)]
  | "breakpoint" => [("value", .text)]
  | "darkMode" => [("value", .optional)]
  | "customState" => [("key", .text), ("value", .word)]
  | "staticBoolean" => [("value", .truth)]
  | "staticString" => [("input", .text), ("value", .text)]
  | "creativeCopy" => [("key", .text)]
  | "placeholderTextValue" => [("input", .text), ("value", .text)]
  | "placeholderTextLength" => [("input", .text), ("value", .numeral)]
  | "placeholderNumeric" => [("input", .text), ("value", .numeral)]
  | _ => []

/-- A document gives a text that stands for a number: as it is, or as a number. -/
def GivesNumeral (body : Value) (field text : String) : Prop :=
  body.get? field = some (.string text) ∨ ∃ n, body.get? field = some (.number n) ∧ n.text = text

/-- **The documents that the operands of a subject are read from.** -/
def Subject.IsReadFrom (body : Value) : Subject → Prop
  | progression value => GivesNumeral body "value" value
  | position value => GivesNumeral body "value" value
  | breakpoint value => body.get? "value" = some (.string value)
  | darkMode value => value = false ↔ body.get? "value" = some (.bool false)
  | customState key value =>
      body.get? "key" = some (.string key) ∧ body.get? "value" = some (.ofInt value.toInt)
  | staticBoolean value => body.get? "value" = some (.bool value)
  | staticString input value =>
      body.get? "input" = some (.string input) ∧ body.get? "value" = some (.string value)
  | creativeCopy key => body.get? "key" = some (.string key)
  | placeholderTextValue input value =>
      body.get? "input" = some (.string input) ∧ body.get? "value" = some (.string value)
  | placeholderTextLength input value =>
      body.get? "input" = some (.string input) ∧ GivesNumeral body "value" value
  | placeholderNumeric input value =>
      body.get? "input" = some (.string input) ∧ GivesNumeral body "value" value

namespace Predicate

/-! ### Values -/

theorem bind_string?_eq_some_iff {v : Option Value} {s : String} :
    v.bind Value.string? = some s ↔ v = some (.string s) := by
  rcases v with _ | v
  · simp
  · cases v <;> simp [Value.string?]

theorem bind_bool?_eq_some_iff {v : Option Value} {b : Bool} :
    v.bind Value.bool? = some b ↔ v = some (.bool b) := by
  rcases v with _ | v
  · simp
  · cases v <;> simp [Value.bool?]

theorem bind_indexText?_eq_some_iff {body : Value} {field text : String} :
    (body.get? field).bind indexText? = some text ↔ GivesNumeral body field text := by
  rw [GivesNumeral]
  rcases body.get? field with _ | v
  · simp
  · cases v <;> simp [indexText?]

/-- **The words that a document stands for**: it is an integer in their range. -/
theorem bind_int32?_eq_some_iff {v : Option Value} {w : Int32} :
    v.bind Value.int32? = some w ↔ v = some (.ofInt w.toInt) := by
  rcases v with _ | v
  · simp
  · cases v with
    | number n =>
        cases n with
        | integer n =>
            simp [Value.int32?, Value.integer?, Value.ofInt, Text.toInt32?_eq_some_iff,
              eq_comm (a := n)]
        | _ => simp [Value.int32?, Value.integer?, Value.ofInt]
    | _ => simp [Value.int32?, Value.integer?, Value.ofInt]

/-! ### One operand -/

/-- A decoder reads what an operand admits, and nothing else. -/
def Decodes {α : Type} (o : Operand) (decode : Value → Option α) : Prop :=
  ∀ v : Option Value, (v.bind decode).isSome = o.admits v

theorem decodes_text : Decodes .text Value.string? := by
  rintro (_ | v)
  · rfl
  · cases v <;> rfl

theorem decodes_numeral : Decodes .numeral indexText? := by
  rintro (_ | v)
  · rfl
  · cases v <;> rfl

theorem decodes_truth : Decodes .truth Value.bool? := by
  rintro (_ | v)
  · rfl
  · cases v <;> rfl

theorem decodes_word : Decodes .word Value.int32? := by
  rintro (_ | v)
  · rfl
  · cases v with
    | number n =>
        cases n with
        | integer n =>
            rw [Bool.eq_iff_iff, ← Option.ne_none_iff_isSome]
            simp [Value.int32?, Value.integer?, Operand.admits, Text.toInt32?_eq_none_iff]
        | _ => rfl
    | _ => rfl

/-- An operand is required to be what its kind admits. -/
def requires (kind : String) (body : Value) (o : String × Operand) : Except PredicateError Unit :=
  if o.2.admits (body.get? o.1) then .ok () else .error (.missing kind o.1)

variable {α β : Type} {kind field field' : String} {body : Value} {decode : Value → Option α}
  {decode' : Value → Option β} {o o' : Operand} {e : PredicateError}

theorem operand_eq_ok_iff {a : α} :
    operand kind body field decode = .ok a ↔ (body.get? field).bind decode = some a := by
  rw [operand]
  cases (body.get? field).bind decode <;> simp

/-- **An operand is read exactly if it is what it has to be.** -/
theorem requires_eq (h : Decodes o decode) :
    requires kind body (field, o) = (operand kind body field decode).map fun _ => () := by
  rw [requires, ← h (body.get? field), operand]
  cases (body.get? field).bind decode <;> rfl

/-! ### The operands of a subject -/

/-- A subject with one operand is refused for it. -/
theorem map_operand_eq_error_iff (h : Decodes o decode) {subject : α → Subject} :
    (operand kind body field decode).map subject = .error e ↔
      FirstFault (requires kind body) [(field, o)] e := by
  rw [firstFault_cons_iff, requires_eq h]
  cases operand kind body field decode <;> simp [Except.map, not_firstFault_nil]

theorem map_operand_eq_ok_iff {subject : α → Subject} {s : Subject} :
    (operand kind body field decode).map subject = .ok s ↔
      ∃ a, (body.get? field).bind decode = some a ∧ subject a = s := by
  simp only [← @operand_eq_ok_iff _ kind]
  cases operand kind body field decode <;> simp [Except.map]

/-- A subject with two operands is refused for the first, or for the second after a first one that
will do. -/
theorem bind_operand_eq_error_iff (h : Decodes o decode) (h' : Decodes o' decode')
    {subject : α → β → Subject} :
    ((operand kind body field decode).bind fun a =>
        (operand kind body field' decode').map (subject a)) = .error e ↔
      FirstFault (requires kind body) [(field, o), (field', o')] e := by
  rw [firstFault_cons_iff, requires_eq h]
  cases operand kind body field decode with
  | error _ => simp [Except.bind, Except.map]
  | ok a => exact (map_operand_eq_error_iff h').trans (by simp [Except.map])

theorem bind_operand_eq_ok_iff {subject : α → β → Subject} {s : Subject} :
    ((operand kind body field decode).bind fun a =>
        (operand kind body field' decode').map (subject a)) = .ok s ↔
      ∃ a b, (body.get? field).bind decode = some a ∧ (body.get? field').bind decode' = some b ∧
        subject a b = s := by
  simp only [← @operand_eq_ok_iff _ kind]
  cases operand kind body field decode <;>
    cases operand kind body field' decode' <;> simp [Except.bind, Except.map]

/-- The kinds of subjects. -/
def kinds : List String :=
  ["progression", "position", "breakpoint", "darkMode", "customState", "staticBoolean",
    "staticString", "creativeCopy", "placeholderTextValue", "placeholderTextLength",
    "placeholderNumeric"]

/-- **The known kinds are those of subjects.** -/
theorem mem_kinds_iff : kind ∈ kinds ↔ ∃ s : Subject, s.kind = kind := by
  constructor
  · intro h
    simp only [kinds, List.mem_cons, List.not_mem_nil, or_false] at h
    rcases h with rfl | rfl | rfl | rfl | rfl | rfl | rfl | rfl | rfl | rfl | rfl
    · exact ⟨.progression "", rfl⟩
    · exact ⟨.position "", rfl⟩
    · exact ⟨.breakpoint "", rfl⟩
    · exact ⟨.darkMode true, rfl⟩
    · exact ⟨.customState "" 0, rfl⟩
    · exact ⟨.staticBoolean true, rfl⟩
    · exact ⟨.staticString "" "", rfl⟩
    · exact ⟨.creativeCopy "", rfl⟩
    · exact ⟨.placeholderTextValue "" "", rfl⟩
    · exact ⟨.placeholderTextLength "" "", rfl⟩
    · exact ⟨.placeholderNumeric "" "", rfl⟩
  · rintro ⟨s, rfl⟩
    cases s <;> simp [Subject.kind, kinds]

/-- A kind is that of a subject, or of none. -/
theorem known_or_unknown (kind : String) :
    (∃ s : Subject, s.kind = kind) ∨ ∀ s : Subject, s.kind ≠ kind := by
  rw [← not_exists]
  exact em _

theorem notMem_kinds (h : ∀ s : Subject, s.kind ≠ kind) : kind ∉ kinds := by
  rw [mem_kinds_iff, not_exists]
  exact h

/-- A subject of no known kind is refused for it. -/
theorem subjectOf_of_unknown (h : ∀ s : Subject, s.kind ≠ kind) :
    subjectOf kind body = .error (.unknownKind kind) := by
  have hkind := notMem_kinds h
  simp only [kinds, List.mem_cons, List.not_mem_nil, or_false, not_or] at hkind
  simp [subjectOf, hkind]

theorem operandsOf_of_unknown (h : ∀ s : Subject, s.kind ≠ kind) : operandsOf kind = [] := by
  have hkind := notMem_kinds h
  simp only [kinds, List.mem_cons, List.not_mem_nil, or_false, not_or] at hkind
  unfold operandsOf
  split <;> simp_all

theorem inputSubject_eq_bind {decode : Value → Option String}
    {subject : String → String → Subject} :
    inputSubject kind body decode subject = (operand kind body "input" Value.string?).bind
      fun input => (operand kind body "value" decode).map (subject input) := by
  rw [inputSubject]
  cases operand kind body "input" Value.string? <;> rfl

theorem subjectOf_customState : subjectOf "customState" body =
    (operand "customState" body "key" Value.string?).bind
      fun key => (operand "customState" body "value" Value.int32?).map (.customState key) := by
  simp only [subjectOf, String.reduceEq, if_true, if_false]
  cases operand "customState" body "key" Value.string? <;> rfl

theorem requires_optional : requires kind body (field, .optional) = .ok () := by
  simp [requires, Operand.admits]

/-- **The subject of a known kind is refused for the first operand that will not do.** -/
theorem subjectOf_kind_eq_error_iff (s : Subject) :
    subjectOf s.kind body = .error e ↔ FirstFault (requires s.kind body) (operandsOf s.kind) e := by
  cases s <;> simp only [Subject.kind, subjectOf_customState]
  case customState => exact bind_operand_eq_error_iff decodes_text decodes_word
  all_goals
    simp only [subjectOf, String.reduceEq, if_true, if_false, inputSubject_eq_bind, textSubject]
  case darkMode =>
    simp [operandsOf, firstFault_cons_iff, requires_optional, not_firstFault_nil]
  case progression | position => exact map_operand_eq_error_iff decodes_numeral
  case breakpoint | creativeCopy => exact map_operand_eq_error_iff decodes_text
  case staticBoolean => exact map_operand_eq_error_iff decodes_truth
  case staticString | placeholderTextValue =>
    exact bind_operand_eq_error_iff decodes_text decodes_text
  case placeholderTextLength | placeholderNumeric =>
    exact bind_operand_eq_error_iff decodes_text decodes_numeral

/-- **Why a subject is refused**: for its kind, or for the first operand that will not do. -/
theorem subjectOf_eq_error_iff : subjectOf kind body = .error e ↔
    ((∀ s : Subject, s.kind ≠ kind) ∧ e = .unknownKind kind) ∨
      FirstFault (requires kind body) (operandsOf kind) e := by
  rcases known_or_unknown kind with ⟨s, rfl⟩ | hunknown
  · rw [subjectOf_kind_eq_error_iff, or_iff_right]
    rintro ⟨h, -⟩
    exact h s rfl
  · rw [subjectOf_of_unknown hunknown, operandsOf_of_unknown hunknown,
      or_iff_left (not_firstFault_nil _ _), Except.error.injEq, eq_comm]
    exact (and_iff_right hunknown).symm

/-- A subject of a known kind that is read is of this kind, and what it is read from. -/
theorem isReadFrom_of_subjectOf_kind {s t : Subject} (h : subjectOf t.kind body = .ok s) :
    s.kind = t.kind ∧ s.IsReadFrom body := by
  cases t <;> simp only [Subject.kind, subjectOf_customState] at h
  case customState =>
    obtain ⟨_, _, hkey, hvalue, rfl⟩ := bind_operand_eq_ok_iff.1 h
    exact ⟨rfl, bind_string?_eq_some_iff.1 hkey, bind_int32?_eq_some_iff.1 hvalue⟩
  all_goals
    simp only [subjectOf, String.reduceEq, if_true, if_false, inputSubject_eq_bind,
      textSubject] at h
  case darkMode =>
    cases h
    refine ⟨rfl, ?_⟩
    rw [Subject.IsReadFrom, ← bind_bool?_eq_some_iff]
    cases (body.get? "value").bind Value.bool? <;> simp
  case progression | position =>
    obtain ⟨_, hvalue, rfl⟩ := map_operand_eq_ok_iff.1 h
    exact ⟨rfl, bind_indexText?_eq_some_iff.1 hvalue⟩
  case breakpoint | creativeCopy =>
    obtain ⟨_, htext, rfl⟩ := map_operand_eq_ok_iff.1 h
    exact ⟨rfl, bind_string?_eq_some_iff.1 htext⟩
  case staticBoolean =>
    obtain ⟨_, hvalue, rfl⟩ := map_operand_eq_ok_iff.1 h
    exact ⟨rfl, bind_bool?_eq_some_iff.1 hvalue⟩
  case staticString | placeholderTextValue =>
    obtain ⟨_, _, hinput, hvalue, rfl⟩ := bind_operand_eq_ok_iff.1 h
    exact ⟨rfl, bind_string?_eq_some_iff.1 hinput, bind_string?_eq_some_iff.1 hvalue⟩
  case placeholderTextLength | placeholderNumeric =>
    obtain ⟨_, _, hinput, hvalue, rfl⟩ := bind_operand_eq_ok_iff.1 h
    exact ⟨rfl, bind_string?_eq_some_iff.1 hinput, bind_indexText?_eq_some_iff.1 hvalue⟩

/-- A subject is read from what it is to be read from. -/
theorem subjectOf_of_isReadFrom {s : Subject} (h : s.IsReadFrom body) :
    subjectOf s.kind body = .ok s := by
  cases s <;>
    simp only [Subject.IsReadFrom, ← bind_string?_eq_some_iff, ← bind_bool?_eq_some_iff,
      ← bind_int32?_eq_some_iff, ← bind_indexText?_eq_some_iff] at h
  case darkMode value =>
    simp only [subjectOf, Subject.kind, String.reduceEq, if_true, if_false]
    cases value <;> cases hvalue : (body.get? "value").bind Value.bool? <;> simp_all
  all_goals simp [subjectOf, Subject.kind, textSubject, inputSubject, operand, h, Except.map]

/-- **What a subject is read from.** -/
theorem subjectOf_eq_ok_iff {s : Subject} :
    subjectOf kind body = .ok s ↔ s.kind = kind ∧ s.IsReadFrom body := by
  constructor
  · intro h
    rcases known_or_unknown kind with ⟨t, rfl⟩ | hunknown
    · exact isReadFrom_of_subjectOf_kind h
    · rw [subjectOf_of_unknown hunknown] at h
      cases h
  · rintro ⟨rfl, h⟩
    exact subjectOf_of_isReadFrom h

/-- Documents that have the same operands have the same subject. -/
theorem subjectOf_congr {body' : Value}
    (h : ∀ m ∈ operandsOf kind, body.get? m.1 = body'.get? m.1) :
    subjectOf kind body = subjectOf kind body' := by
  rcases known_or_unknown kind with ⟨s, rfl⟩ | hunknown
  · cases s <;> simp only [Subject.kind, operandsOf, List.forall_mem_cons] at h <;>
      simp [subjectOf, Subject.kind, textSubject, inputSubject, operand, h]
  · rw [subjectOf_of_unknown hunknown, subjectOf_of_unknown hunknown]

/-! ### Predicates -/

/-- **The documents that a predicate is read from**: an object with one member, which bears the kind
for its name, and gives the condition and the operands. -/
def IsReadFrom (p : Predicate) (v : Value) : Prop :=
  ∃ body, v = .object [(p.subject.kind, body)] ∧
    body.get? "condition" = some (.string p.condition.name) ∧ p.subject.IsReadFrom body

/-- **The documents that are refused**, and the fault that is reported for them.  Faults that come
later in this list are reported only where there is none that comes before. -/
inductive Refuses : Value → PredicateError → Prop where
  /-- The document is not an object. -/
  | notObject {v : Value} (h : ∀ members, v ≠ .object members) : Refuses v .notObject
  /-- It has no member, or several. -/
  | kindCount {members : List (String × Value)} (h : members.length ≠ 1) :
      Refuses (.object members) (.kindCount members.length)
  /-- There is no string for a condition. -/
  | noCondition {kind : String} {body : Value}
      (h : ∀ name, body.get? "condition" ≠ some (.string name)) :
      Refuses (.object [(kind, body)]) (.missing kind "condition")
  /-- The string is not the name of a condition. -/
  | unknownCondition {kind name : String} {body : Value}
      (hname : body.get? "condition" = some (.string name)) (h : ∀ c : Condition, c.name ≠ name) :
      Refuses (.object [(kind, body)]) (.unknownCondition kind name)
  /-- The kind is not that of a subject. -/
  | unknownKind {kind : String} {body : Value} {c : Condition}
      (hcondition : body.get? "condition" = some (.string c.name))
      (h : ∀ s : Subject, s.kind ≠ kind) :
      Refuses (.object [(kind, body)]) (.unknownKind kind)
  /-- An operand is not what it has to be, and those before it are. -/
  | operand {kind : String} {body : Value} {c : Condition} {e : PredicateError}
      (hcondition : body.get? "condition" = some (.string c.name))
      (h : FirstFault (requires kind body) (operandsOf kind) e) :
      Refuses (.object [(kind, body)]) e

theorem named?_eq_some_iff {name : String} {c : Condition} :
    Condition.named? name = some c ↔ c.name = name :=
  ⟨Condition.name_of_named?, fun h => h ▸ Condition.named?_name c⟩

theorem conditionOf_eq_ok_iff {c : Condition} :
    conditionOf kind body = .ok c ↔ body.get? "condition" = some (.string c.name) := by
  rw [← bind_string?_eq_some_iff, conditionOf]
  cases (body.get? "condition").bind Value.string? with
  | none => simp
  | some name =>
      rw [Option.some.injEq, eq_comm (a := name), ← named?_eq_some_iff]
      cases h : Condition.named? name <;> simp [h]

theorem conditionOf_eq_error_iff :
    conditionOf kind body = .error e ↔
      ((∀ name, body.get? "condition" ≠ some (.string name)) ∧ e = .missing kind "condition") ∨
        ∃ name, body.get? "condition" = some (.string name) ∧ (∀ c : Condition, c.name ≠ name) ∧
          e = .unknownCondition kind name := by
  simp only [← bind_string?_eq_some_iff, ne_eq, ← named?_eq_some_iff, conditionOf]
  cases (body.get? "condition").bind Value.string? with
  | none => simp [eq_comm]
  | some name => cases h : Condition.named? name <;> simp [h, eq_comm]

theorem ofBody?_eq_ok_iff {p : Predicate} :
    ofBody? kind body = .ok p ↔
      conditionOf kind body = .ok p.condition ∧ subjectOf kind body = .ok p.subject := by
  obtain ⟨c, s⟩ := p
  rw [ofBody?]
  cases conditionOf kind body <;> cases subjectOf kind body <;> simp [Except.map]

theorem ofBody?_eq_error_iff :
    ofBody? kind body = .error e ↔
      conditionOf kind body = .error e ∨
        ∃ c, conditionOf kind body = .ok c ∧ subjectOf kind body = .error e := by
  rw [ofBody?]
  cases conditionOf kind body <;> cases subjectOf kind body <;> simp [Except.map]

/-- **What a predicate is read from.** -/
theorem ofValue?_eq_ok_iff {v : Value} {p : Predicate} : ofValue? v = .ok p ↔ p.IsReadFrom v := by
  constructor
  · intro h
    unfold ofValue? at h
    split at h
    · next kind body =>
        obtain ⟨hcondition, hsubject⟩ := ofBody?_eq_ok_iff.1 h
        obtain ⟨rfl, hread⟩ := subjectOf_eq_ok_iff.1 hsubject
        exact ⟨body, rfl, conditionOf_eq_ok_iff.1 hcondition, hread⟩
    · cases h
    · cases h
  · rintro ⟨body, rfl, hcondition, hread⟩
    exact ofBody?_eq_ok_iff.2
      ⟨conditionOf_eq_ok_iff.2 hcondition, subjectOf_eq_ok_iff.2 ⟨rfl, hread⟩⟩

/-- **Why a document is no predicate.** -/
theorem ofValue?_eq_error_iff {v : Value} : ofValue? v = .error e ↔ Refuses v e := by
  constructor
  · intro h
    unfold ofValue? at h
    split at h
    · rcases ofBody?_eq_error_iff.1 h with hcondition | ⟨c, hcondition, hsubject⟩
      · rcases conditionOf_eq_error_iff.1 hcondition with ⟨hnone, rfl⟩ | ⟨name, hname, hc, rfl⟩
        · exact .noCondition hnone
        · exact .unknownCondition hname hc
      · have hname := conditionOf_eq_ok_iff.1 hcondition
        rcases subjectOf_eq_error_iff.1 hsubject with ⟨hkind, rfl⟩ | hoperand
        · exact .unknownKind hname hkind
        · exact .operand hname hoperand
    · next members hnot =>
        cases h
        refine .kindCount fun hlength => ?_
        obtain ⟨m, rfl⟩ := List.length_eq_one_iff.1 hlength
        exact hnot m.1 m.2 rfl
    · next hnot =>
        cases h
        exact .notObject hnot
  · intro h
    cases h with
    | notObject h =>
        cases v with
        | object members => exact absurd rfl (h members)
        | _ => rfl
    | kindCount h =>
        unfold ofValue?
        split
        · next heq => cases heq; exact absurd rfl h
        · next heq => cases heq; rfl
        · next hnot => exact absurd rfl (hnot _)
    | noCondition h =>
        exact ofBody?_eq_error_iff.2 (Or.inl (conditionOf_eq_error_iff.2 (Or.inl ⟨h, rfl⟩)))
    | unknownCondition hname h =>
        exact ofBody?_eq_error_iff.2
          (Or.inl (conditionOf_eq_error_iff.2 (Or.inr ⟨_, hname, h, rfl⟩)))
    | unknownKind hcondition h =>
        exact ofBody?_eq_error_iff.2 (Or.inr ⟨_, conditionOf_eq_ok_iff.2 hcondition,
          subjectOf_eq_error_iff.2 (Or.inl ⟨h, rfl⟩)⟩)
    | operand hcondition h =>
        exact ofBody?_eq_error_iff.2 (Or.inr ⟨_, conditionOf_eq_ok_iff.2 hcondition,
          subjectOf_eq_error_iff.2 (Or.inr h)⟩)

/-- **Nothing else is refused**: a document that has none of the faults is a predicate. -/
theorem exists_isReadFrom_iff {v : Value} :
    (∃ p : Predicate, p.IsReadFrom v) ↔ ∀ e, ¬ Refuses v e := by
  simp only [← ofValue?_eq_ok_iff, ← ofValue?_eq_error_iff]
  cases ofValue? v <;> simp

/-! ### Lists of predicates -/

theorem readsEach_ofItems? : ReadsEach ofValue? ofItems? where
  nil := rfl
  cons v items := by
    rw [ofItems?]
    cases ofValue? v <;> cases ofItems? items <;> rfl

/-- **The documents of lists of predicates**: null, and the arrays of documents of predicates. -/
theorem listOfValue?_eq_ok_iff {v : Value} {ps : List Predicate} :
    listOfValue? v = .ok ps ↔ (v = .null ∧ ps = []) ∨
      ∃ items, v = .array items ∧ List.Forall₂ (fun w p => ofValue? w = .ok p) items ps := by
  simp only [← readsEach_ofItems?.eq_ok_iff]
  cases v <;> simp [listOfValue?, eq_comm]

/-- **Why a document is no list of predicates**: it is no list, or its first element that is no
predicate is at fault. -/
theorem listOfValue?_eq_error_iff {v : Value} :
    listOfValue? v = .error e ↔
      (v ≠ .null ∧ (∀ items, v ≠ .array items) ∧ e = .notArray) ∨
        ∃ items, v = .array items ∧ FirstFault ofValue? items e := by
  simp only [← readsEach_ofItems?.eq_error_iff]
  cases v <;> simp [listOfValue?, eq_comm]

/-- A list can be read exactly if it is null, or an array of documents of predicates. -/
theorem exists_listOfValue?_eq_ok_iff {v : Value} :
    (∃ ps, listOfValue? v = .ok ps) ↔
      v = .null ∨ ∃ items, v = .array items ∧ ∀ w ∈ items, ∃ p, ofValue? w = .ok p := by
  simp only [listOfValue?_eq_ok_iff, exists_or, exists_and_left, exists_eq, and_true,
    ← exists_forall₂_iff]
  rw [exists_comm]
  simp only [exists_and_left]

/-! ### What does not matter -/

/-- **Only the condition and the operands matter.** -/
theorem ofValue?_congr {body' : Value}
    (h : ∀ name ∈ "condition" :: (operandsOf kind).map Prod.fst,
      body.get? name = body'.get? name) :
    ofValue? (.object [(kind, body)]) = ofValue? (.object [(kind, body')]) := by
  obtain ⟨hcondition, hoperands⟩ := List.forall_mem_cons.1 h
  rw [List.forall_mem_map] at hoperands
  simp only [ofValue?, ofBody?, conditionOf, hcondition, subjectOf_congr hoperands]

/-! ### The whole of it -/

/-- **Decoding predicates is all or nothing, and the fault that is reported is fixed.**  A list of
predicates is null or an array of documents of predicates, and gives one predicate for each element,
in their order; it is refused for the first element that is none, or for being no list.  A document
is read as a predicate exactly if the predicate is read from its kind, its condition and its
operands, and is refused for the fault that comes first among those that a document may have; if it
has none of them, it is not refused.  Other members of the document do not matter, and a view is to
be dark where no truth value says otherwise. -/
theorem decoding_is_all_or_nothing :
    (∀ v, (∃ ps, listOfValue? v = .ok ps) ↔
      v = .null ∨ ∃ items, v = .array items ∧ ∀ w ∈ items, ∃ p, ofValue? w = .ok p) ∧
    (∀ v ps, listOfValue? v = .ok ps ↔ (v = .null ∧ ps = []) ∨
      ∃ items, v = .array items ∧ List.Forall₂ (fun w p => ofValue? w = .ok p) items ps) ∧
    (∀ v e, listOfValue? v = .error e ↔
      (v ≠ .null ∧ (∀ items, v ≠ .array items) ∧ e = .notArray) ∨
        ∃ items, v = .array items ∧ FirstFault ofValue? items e) ∧
    (∀ v (p : Predicate), ofValue? v = .ok p ↔ p.IsReadFrom v) ∧
    (∀ v e, ofValue? v = .error e ↔ Refuses v e) ∧
    (∀ v, (∃ p : Predicate, p.IsReadFrom v) ↔ ∀ e, ¬ Refuses v e) ∧
    (∀ kind body body',
      (∀ name ∈ "condition" :: (operandsOf kind).map Prod.fst, body.get? name = body'.get? name) →
      ofValue? (.object [(kind, body)]) = ofValue? (.object [(kind, body')])) ∧
    ∀ (body : Value) (c : Condition), body.get? "condition" = some (.string c.name) →
      (∀ b, body.get? "value" ≠ some (.bool b)) →
      ofValue? (.object [("darkMode", body)]) = .ok ⟨c, .darkMode true⟩ := by
  refine ⟨fun _ => exists_listOfValue?_eq_ok_iff, fun _ _ => listOfValue?_eq_ok_iff,
    fun _ _ => listOfValue?_eq_error_iff, fun _ _ => ofValue?_eq_ok_iff,
    fun _ _ => ofValue?_eq_error_iff, fun _ => exists_isReadFrom_iff, fun _ _ _ => ofValue?_congr,
    ?_⟩
  intro body c hcondition hvalue
  exact ofValue?_eq_ok_iff.2 ⟨body, rfl, hcondition, iff_of_false (by simp) (hvalue false)⟩

/-- The first element is dark whatever its value says, as that is a text.  The second one is of no
known kind and has no known condition, and the condition is what is reported; the third one, with
neither key nor value, is not looked at.  On its own the third one lacks a key. -/
theorem decoding_reports_first_fault :
    let dark : Value := .object [("darkMode", .object [("value", .string "no"),
      ("condition", .string "is")])]
    let unknown : Value := .object [("weather", .object [("condition", .string "isSunny")])]
    let state : Value := .object [("customState", .object [("condition", .string "exists"),
      ("value", .ofInt 2147483648)])]
    ofValue? dark = .ok ⟨.equal, .darkMode true⟩ ∧
    listOfValue? (.array [dark, unknown, state]) = .error (.unknownCondition "weather" "isSunny") ∧
    listOfValue? (.array [dark, state]) = .error (.missing "customState" "key") ∧
    listOfValue? (.array [dark]) = .ok [⟨.equal, .darkMode true⟩] ∧
    ofValue? (.object [("customState", .object [("condition", .string "exists"),
      ("value", .ofInt 2147483648), ("note", .null)])]) =
      .error (.missing "customState" "key") := by
  intro dark unknown state
  obtain ⟨-, hok, herror, -, hrefuses, -, hframe, hdark⟩ := decoding_is_all_or_nothing
  have hread : ofValue? dark = .ok ⟨.equal, .darkMode true⟩ :=
    hdark _ .equal rfl nofun
  have hunknown : ofValue? unknown = .error (.unknownCondition "weather" "isSunny") :=
    (hrefuses _ _).2 (.unknownCondition rfl (by intro c; cases c <;> decide))
  have hstate : ofValue? state = .error (.missing "customState" "key") :=
    (hrefuses _ _).2 (.operand (c := .present) rfl (firstFault_cons_iff.2 (Or.inl rfl)))
  refine ⟨hread, ?_, ?_, ?_, ?_⟩
  · exact (herror _ _).2 (Or.inr ⟨_, rfl, [dark], unknown, [state], rfl, by simp [hread], hunknown⟩)
  · exact (herror _ _).2 (Or.inr ⟨_, rfl, [dark], state, [], rfl, by simp [hread], hstate⟩)
  · exact (hok _ _).2 (Or.inr ⟨_, rfl, .cons hread .nil⟩)
  · rw [← hstate]
    refine hframe _ _ _ ?_
    simp only [operandsOf, List.map_cons, List.map_nil, List.forall_mem_cons]
    exact ⟨rfl, rfl, rfl, by simp⟩

end Predicate

end OfferLayout
