/-
**Records as documents.**

A record is written as an object, or as an array of its fields in the order in which the record
declares them.  Unknown members of an object are ignored, a known one must not occur twice, and an
array must not be longer than the record.  A field is required, or has a value to be taken when it
is missing, or is optional; only an optional field may be null, which means that it is absent.

Main definitions:

* `Json.Fields` — the fields of a record by name;
* `Json.Value.fields?` — the fields that a document gives;
* `Json.Fields.required?`, `Json.Fields.defaulted?`, `Json.Fields.optional?` — reading a field;
* `Json.Value.list?`, `Json.Value.dict?`, `Json.Value.variant?` — reading lists, maps and one of a
  list of names;
* `Json.optionalMember` — writing an optional field.

Main results:

* `Json.Value.fields?_object` — the fields of an object are its members.
-/

import OfferLayout.Json.Tree

set_option relaxedAutoImplicit false
set_option autoImplicit false

namespace OfferLayout

namespace Json

universe u

variable {α : Type u}

/-- The fields of a record, by name; a missing field has no value. -/
structure Fields where
  /-- The value of the field with the given name. -/
  value? : String → Option Value

/-- Whether two members bear the same one of the given names. -/
def repeats (names : List String) (members : List (String × Value)) : Bool :=
  names.any fun name => 1 < (members.filter fun m => m.1 = name).length

namespace Value

/-- **The fields that a document gives** for a record that declares them in the order of `names`. -/
def fields? (names : List String) : Value → Option Fields
  | .object members => if repeats names members then none else some ⟨fun name => members.lookup name⟩
  | .array items =>
      if items.length ≤ names.length then some ⟨fun name => (names.zip items).lookup name⟩ else none
  | _ => none

/-- The elements of an array, each decoded. -/
def list? (decode : Value → Option α) : Value → Option (List α)
  | .array items => items.mapM decode
  | _ => none

/-- The members of an object, each decoded, as a map. -/
def dict? (decode : Value → Option α) : Value → Option (Dict α)
  | .object members =>
      (members.mapM fun m => (decode m.2).map fun a => (m.1, a)).map Dict.ofList
  | _ => none

/-- One of a list of named values: its name, or an object whose only member bears the name and is
null. -/
def variant? (named : String → Option α) : Value → Option α
  | .string s => named s
  | .object [(name, .null)] => named name
  | _ => none

/-- An integer in the range of a signed word of 32 bits. -/
def int32? (v : Value) : Option Int32 := v.integer?.bind Text.toInt32?

/-- An integer in the range of an unsigned word of 32 bits. -/
def uint32? (v : Value) : Option UInt32 := v.integer?.bind Text.toUInt32?

/-- An integer in the range of an unsigned word of 64 bits. -/
def uint64? (v : Value) : Option UInt64 := v.integer?.bind Text.toUInt64?

/-- The document of an optional value; null means that it is absent. -/
def nullable? (decode : Value → Option α) : Value → Option (Option α)
  | .null => some none
  | v => (decode v).map some

theorem fields?_object {names : List String} {members : List (String × Value)}
    (h : repeats names members = false) :
    (Value.object members).fields? names = some ⟨fun name => members.lookup name⟩ := by
  simp [fields?, h]

end Value

namespace Fields

/-- A field that must not be missing. -/
def required? (f : Fields) (name : String) (decode : Value → Option α) : Option α :=
  (f.value? name).bind decode

/-- A field that has a value to be taken when it is missing. -/
def defaulted? (f : Fields) (name : String) (decode : Value → Option α) (otherwise : α) : Option α :=
  match f.value? name with
  | none => some otherwise
  | some v => decode v

/-- A field that may be missing or null. -/
def optional? (f : Fields) (name : String) (decode : Value → Option α) : Option (Option α) :=
  match f.value? name with
  | none => some none
  | some v => v.nullable? decode

/-- A text that is empty when it is missing. -/
def text? (f : Fields) (name : String) : Option String := f.defaulted? name Value.string? ""

/-- A text that may be missing or null. -/
def optionalText? (f : Fields) (name : String) : Option (Option String) :=
  f.optional? name Value.string?

end Fields

/-- The member of an optional field: none if the field is absent. -/
def optionalMember (name : String) (encode : α → Value) : Option α → List (String × Value)
  | none => []
  | some a => [(name, encode a)]

/-- The document of a map. -/
def Value.ofDict (encode : α → Value) (d : Dict α) : Value :=
  .object (d.entries.map fun e => (e.1, encode e.2))

/-- The document of a list. -/
def Value.ofList (encode : α → Value) (l : List α) : Value := .array (l.map encode)

end Json

end OfferLayout
