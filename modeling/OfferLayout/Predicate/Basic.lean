/-
**Predicates and their documents.**

A predicate applies a condition to a subject: the progress of the view, a static text, a placeholder
and so on.  It is written as an object with one member, whose name is the kind of the subject and
whose value holds the name of the condition and the operands.  Decoding a list of predicates is all
or nothing, and of the faults of one document a fixed one is reported.

Main definitions:

* `Subject`, `Predicate` — what is tested, and the test;
* `PredicateError`, `PredicateError.message` — why a document is no predicate;
* `Predicate.ofValue?`, `Predicate.listOfValue?` — decoding one predicate, and a list;
* `Predicate.toValue` — the document of a predicate.
-/

import OfferLayout.Json.Fields
import OfferLayout.Predicate.Condition

set_option relaxedAutoImplicit false
set_option autoImplicit false

namespace OfferLayout

open Json (Value)

/-! ### Predicates -/

/-- What a predicate tests. -/
inductive Subject where
  /-- The index of the item in view, against an index. -/
  | progression (value : String)
  /-- The position of the part being rendered, against an index. -/
  | position (value : String)
  /-- The breakpoint of the view, against a named one. -/
  | breakpoint (value : String)
  /-- Whether the view is dark, against a truth value. -/
  | darkMode (value : Bool)
  /-- The entry of the custom state at a key, against a number. -/
  | customState (key : String) (value : Int32)
  /-- A truth value. -/
  | staticBoolean (value : Bool)
  /-- A text, against a text. -/
  | staticString (input value : String)
  /-- The copy at a key. -/
  | creativeCopy (key : String)
  /-- The expansion of a template, against that of another. -/
  | placeholderTextValue (input value : String)
  /-- The length of the expansion of a template, against the expansion of another. -/
  | placeholderTextLength (input value : String)
  /-- The expansion of a template as a number, against that of another. -/
  | placeholderNumeric (input value : String)
deriving DecidableEq, Repr

/-- A condition applied to a subject. -/
structure Predicate where
  /-- What is asked for. -/
  condition : Condition
  /-- What is tested. -/
  subject : Subject
deriving DecidableEq, Repr

namespace Subject

/-- The kind of a subject. -/
def kind : Subject → String
  | progression _ => "progression"
  | position _ => "position"
  | breakpoint _ => "breakpoint"
  | darkMode _ => "darkMode"
  | customState _ _ => "customState"
  | staticBoolean _ => "staticBoolean"
  | staticString _ _ => "staticString"
  | creativeCopy _ => "creativeCopy"
  | placeholderTextValue _ _ => "placeholderTextValue"
  | placeholderTextLength _ _ => "placeholderTextLength"
  | placeholderNumeric _ _ => "placeholderNumeric"

/-- The operands of a subject, as members of a document. -/
def operands : Subject → List (String × Value)
  | progression value => [("value", .string value)]
  | position value => [("value", .string value)]
  | breakpoint value => [("value", .string value)]
  | darkMode value => [("value", .bool value)]
  | customState key value => [("key", .string key), ("value", .ofInt value.toInt)]
  | staticBoolean value => [("value", .bool value)]
  | staticString input value => [("input", .string input), ("value", .string value)]
  | creativeCopy key => [("key", .string key)]
  | placeholderTextValue input value => [("input", .string input), ("value", .string value)]
  | placeholderTextLength input value => [("input", .string input), ("value", .string value)]
  | placeholderNumeric input value => [("input", .string input), ("value", .string value)]

end Subject

/-- The document of a predicate. -/
def Predicate.toValue (p : Predicate) : Value :=
  .object [(p.subject.kind,
    .object (("condition", .string p.condition.name) :: p.subject.operands))]

/-! ### Errors -/

/-- Why a document is no list of predicates. -/
inductive PredicateError where
  /-- The document is not an array. -/
  | notArray
  /-- An element is not an object. -/
  | notObject
  /-- An element has another number of members than one. -/
  | kindCount (count : Nat)
  /-- A field is missing, or of the wrong kind. -/
  | missing (kind field : String)
  /-- No condition has the name. -/
  | unknownCondition (kind condition : String)
  /-- No subject is of the kind. -/
  | unknownKind (kind : String)
deriving DecidableEq, Repr

namespace PredicateError

/-- What is said about the error. -/
def message : PredicateError → String
  | .notArray => "deserialization error: predicates must be an array"
  | .notObject => "deserialization error: predicate must be an object"
  | .kindCount count =>
      "deserialization error: predicate must have exactly one kind, found " ++ Text.natural count
  | .missing kind field => s!"deserialization error: {kind} missing '{field}'"
  | .unknownCondition kind condition => s!"invalid condition '{condition}' for predicate '{kind}'"
  | .unknownKind kind => s!"unknown predicate kind: {kind}"

end PredicateError

/-! ### Decoding -/

namespace Predicate

/-- A text that is written as a string or as a number. -/
def indexText? : Value → Option String
  | .string s => some s
  | .number n => some n.text
  | _ => none

/-- The operand at a field of a document, decoded. -/
def operand {α : Type} (kind : String) (body : Value) (field : String)
    (decode : Value → Option α) : Except PredicateError α :=
  match (body.get? field).bind decode with
  | some a => .ok a
  | none => .error (.missing kind field)

/-- The condition that a document names. -/
def conditionOf (kind : String) (body : Value) : Except PredicateError Condition :=
  match (body.get? "condition").bind Value.string? with
  | none => .error (.missing kind "condition")
  | some name =>
      match Condition.named? name with
      | none => .error (.unknownCondition kind name)
      | some c => .ok c

/-- A subject with one text for its operand. -/
def textSubject (kind : String) (body : Value) (field : String) (decode : Value → Option String)
    (subject : String → Subject) : Except PredicateError Subject :=
  (operand kind body field decode).map subject

/-- A subject with an input and a value. -/
def inputSubject (kind : String) (body : Value) (decode : Value → Option String)
    (subject : String → String → Subject) : Except PredicateError Subject :=
  match operand kind body "input" Value.string? with
  | .error e => .error e
  | .ok input => (operand kind body "value" decode).map (subject input)

/-- The subject of the given kind with the operands that a document gives. -/
def subjectOf (kind : String) (body : Value) : Except PredicateError Subject :=
  if kind = "progression" then textSubject kind body "value" indexText? .progression
  else if kind = "position" then textSubject kind body "value" indexText? .position
  else if kind = "breakpoint" then textSubject kind body "value" Value.string? .breakpoint
  else if kind = "darkMode" then
    .ok (.darkMode (((body.get? "value").bind Value.bool?).getD true))
  else if kind = "customState" then
    match operand kind body "key" Value.string? with
    | .error e => .error e
    | .ok key => (operand kind body "value" Value.int32?).map (.customState key)
  else if kind = "staticBoolean" then
    (operand kind body "value" Value.bool?).map .staticBoolean
  else if kind = "staticString" then inputSubject kind body Value.string? .staticString
  else if kind = "creativeCopy" then textSubject kind body "key" Value.string? .creativeCopy
  else if kind = "placeholderTextValue" then
    inputSubject kind body Value.string? .placeholderTextValue
  else if kind = "placeholderTextLength" then
    inputSubject kind body indexText? .placeholderTextLength
  else if kind = "placeholderNumeric" then
    inputSubject kind body indexText? .placeholderNumeric
  else .error (.unknownKind kind)

/-- The predicate of the given kind that a document describes: its condition is read first. -/
def ofBody? (kind : String) (body : Value) : Except PredicateError Predicate :=
  match conditionOf kind body with
  | .error e => .error e
  | .ok condition => (subjectOf kind body).map fun subject => ⟨condition, subject⟩

/-- **The predicate that a document describes.** -/
def ofValue? : Value → Except PredicateError Predicate
  | .object [(kind, body)] => ofBody? kind body
  | .object members => .error (.kindCount members.length)
  | _ => .error .notObject

/-- The predicates that documents describe; the first that describes none is the fault. -/
def ofItems? : List Value → Except PredicateError (List Predicate)
  | [] => .ok []
  | v :: rest =>
      match ofValue? v with
      | .error e => .error e
      | .ok p =>
          match ofItems? rest with
          | .error e => .error e
          | .ok ps => .ok (p :: ps)

/-- **The list of predicates that a document describes**; null is the empty list. -/
def listOfValue? : Value → Except PredicateError (List Predicate)
  | .null => .ok []
  | .array items => ofItems? items
  | _ => .error .notArray

end Predicate

end OfferLayout
