/-
**Events.**

An event is one signal with the circumstances in which it was observed.  Two events are taken for
the same one if they agree in their *key*: the session, the parent, the signal, the appearance of
the page and the data.  The instant, the identifier of the event and what else it carries do not
count.

Main definitions:

* `NameValue` — a named value;
* `Event` — an event;
* `Event.Key`, `Event.key` — what makes two events the same;
* `Event.observed`, `Event.withData`, `Event.withMetadata`, `Event.withObject` — making an event;
* `Event.ofValue?`, `Event.ofString?` — reading an event;
* `Event.toValue` — writing it.

Main results:

* `Event.key_withMetadata`, `Event.key_withObject` — metadata does not change the key.
-/

import OfferLayout.Event.Signal

set_option relaxedAutoImplicit false
set_option autoImplicit false

namespace OfferLayout

open Json (Value Tree)

/-! ### Named values -/

/-- A named value. -/
structure NameValue where
  /-- The name. -/
  name : String
  /-- The value. -/
  value : String
deriving DecidableEq, Repr

namespace NameValue

/-- The names of the fields, in order. -/
def fieldNames : List String := ["name", "value"]

/-- The named value that a document describes. -/
def ofValue? (v : Value) : Option NameValue := do
  let f ← v.fields? fieldNames
  let name ← f.required? "name" Value.string?
  let value ← f.required? "value" Value.string?
  return { name, value }

/-- The document of a named value. -/
def toValue (p : NameValue) : Value :=
  .object [("name", .string p.name), ("value", .string p.value)]

/-- What a named value keeps of a tree. -/
def restrict : Tree → Tree := Tree.restrict fieldNames fun _ t => t

end NameValue

/-! ### Events -/

/-- One signal, with the circumstances in which it was observed. -/
structure Event where
  /-- The identifier of the event. -/
  instanceGuid : String
  /-- The identifier of the session. -/
  sessionId : String
  /-- The signal. -/
  signal : Signal
  /-- The identifier of what the signal is about. -/
  parentGuid : String
  /-- The instant of the observation. -/
  time : String
  /-- The data of the signal. -/
  data : List NameValue
  /-- What is known about the observation. -/
  metadata : List NameValue
  /-- The object that the signal concerns. -/
  object : Dict String
  /-- The identifier of this appearance of the page. -/
  pageInstanceGuid : String
  /-- The token of the page. -/
  token : String
deriving DecidableEq

namespace Event

/-! ### The key of an event -/

/-- What makes two events the same. -/
structure Key where
  /-- The identifier of the session. -/
  sessionId : String
  /-- The identifier of what the signal is about. -/
  parentGuid : String
  /-- The signal. -/
  signal : Signal
  /-- The identifier of the appearance of the page. -/
  pageInstanceGuid : String
  /-- The data of the signal, in order. -/
  data : List NameValue
deriving DecidableEq, Repr

/-- The key of an event. -/
def key (e : Event) : Key := ⟨e.sessionId, e.parentGuid, e.signal, e.pageInstanceGuid, e.data⟩

/-! ### Making an event -/

/-- An event that was observed just now, without any data. -/
def observed (instanceGuid time : String) (signal : Signal)
    (sessionId parentGuid pageInstanceGuid token : String) : Event :=
  { instanceGuid, sessionId, signal, parentGuid, time, data := [], metadata := [], object := ∅,
    pageInstanceGuid, token }

/-- Adds to the data. -/
def withData (e : Event) (name value : String) : Event :=
  { e with data := e.data ++ [⟨name, value⟩] }

/-- Adds to the metadata. -/
def withMetadata (e : Event) (name value : String) : Event :=
  { e with metadata := e.metadata ++ [⟨name, value⟩] }

/-- Describes the object by one more entry, which replaces an earlier one of its name. -/
def withObject (e : Event) (name value : String) : Event :=
  { e with object := e.object.insert name value }

@[simp] theorem key_withMetadata (e : Event) (name value : String) :
    (e.withMetadata name value).key = e.key := rfl

@[simp] theorem key_withObject (e : Event) (name value : String) :
    (e.withObject name value).key = e.key := rfl

/-! ### Reading and writing -/

/-- The names of the fields, in order. -/
def fieldNames : List String :=
  ["instanceGuid", "sessionId", "eventType", "parentGuid", "eventTime", "eventData", "metadata",
    "objectData", "pageInstanceGuid", "token"]

/-- The event that a document describes. -/
def ofValue? (v : Value) : Option Event := do
  let f ← v.fields? fieldNames
  let instanceGuid ← f.required? "instanceGuid" Value.string?
  let sessionId ← f.required? "sessionId" Value.string?
  let signal ← f.required? "eventType" Signal.ofValue?
  let parentGuid ← f.required? "parentGuid" Value.string?
  let time ← f.required? "eventTime" Value.string?
  let data ← f.defaulted? "eventData" (Value.list? NameValue.ofValue?) []
  let metadata ← f.defaulted? "metadata" (Value.list? NameValue.ofValue?) []
  let object ← f.defaulted? "objectData" (Value.dict? Value.string?) ∅
  let pageInstanceGuid ← f.required? "pageInstanceGuid" Value.string?
  let token ← f.required? "token" Value.string?
  return { instanceGuid, sessionId, signal, parentGuid, time, data, metadata, object,
           pageInstanceGuid, token }

/-- The document of an event; an object without entries is left out. -/
def toValue (e : Event) : Value :=
  .object <|
    [("instanceGuid", .string e.instanceGuid), ("sessionId", .string e.sessionId),
      ("eventType", .string e.signal.name), ("parentGuid", .string e.parentGuid),
      ("eventTime", .string e.time), ("eventData", .ofList NameValue.toValue e.data),
      ("metadata", .ofList NameValue.toValue e.metadata)] ++
    (if e.object.isEmpty then [] else [("objectData", .ofDict .string e.object)]) ++
    [("pageInstanceGuid", .string e.pageInstanceGuid), ("token", .string e.token)]

/-- The text of an event. -/
def text (e : Event) : String := e.toValue.text

/-- What an event keeps of a tree.  Only what is kept has to denote something. -/
def restrict : Tree → Tree :=
  Tree.restrict fieldNames fun name t =>
    if name = "eventData" ∨ name = "metadata" then t.mapItems NameValue.restrict else t

/-- **The event that a text describes.**  Unlike the members of a document, no field may be given
twice. -/
def ofString? (s : String) : Option Event :=
  (Tree.ofString? s).bind fun t => (restrict t).value?.bind ofValue?

end Event

end OfferLayout
