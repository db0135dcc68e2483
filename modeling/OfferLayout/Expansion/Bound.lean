/-
**Texts that await live state.**

When a template is expanded, some placeholders turn out to be live state.  The result is then a text
in segments: plain text, and places where the state is to be filled in.  Plain text is merged as it
is added, so a text has one form, whatever pieces it was made of.

Main definitions:

* `StateKey`, `StateValues` — the live state that can be filled in, and its values;
* `Segment`, `BoundText` — a text in segments;
* `BoundText.pushText`, `BoundText.pushState` — adding to a text;
* `BoundText.text`, `BoundText.render` — the text with the placeholders as they stand, and filled
  in;
* `Binding` — a value that is fixed, or depends on live state.

Main results:

* `StateKey.parse?_name` — a key is found by its name;
* `BoundText.text_pushText`, `BoundText.render_pushText` and their companions — what adding does to
  the text.
-/

import OfferLayout.Json.Fields

set_option relaxedAutoImplicit false
set_option autoImplicit false

namespace OfferLayout

open Json (Value)

/-! ### Live state -/

/-- A part of the live state that a template can show. -/
inductive StateKey where
  /-- The place of the current offer, counted from one. -/
  | indicatorPosition
  /-- The number of offers. -/
  | totalOffers
deriving DecidableEq, Repr

namespace StateKey

/-- The name of a key. -/
def name : StateKey → String
  | .indicatorPosition => "IndicatorPosition"
  | .totalOffers => "TotalOffers"

/-- Whether two texts agree up to the case of ASCII letters. -/
def sameLetters (s t : String) : Bool :=
  s.toList.map Char.toLower = t.toList.map Char.toLower

/-- The key with the given name in any case of ASCII letters. -/
def parse? (s : String) : Option StateKey :=
  if sameLetters s indicatorPosition.name then some .indicatorPosition
  else if sameLetters s totalOffers.name then some .totalOffers
  else none

/-- A key is found by its name. -/
@[simp] theorem parse?_name (k : StateKey) : parse? k.name = some k := by
  cases k <;> decide

end StateKey

/-- The values of the live state. -/
structure StateValues where
  /-- The place of the current offer, counted from zero. -/
  indicatorPosition : UInt64 := 0
  /-- The number of offers. -/
  totalOffers : UInt64 := 0
deriving DecidableEq, Repr

namespace StateValues

/-- The text that is filled in for a key.  The place of the offer is shown one higher, unless that
would leave the range of words. -/
def render (v : StateValues) : StateKey → String
  | .indicatorPosition => Text.natural (min (v.indicatorPosition.toNat + 1) 18446744073709551615)
  | .totalOffers => Text.natural v.totalOffers.toNat

/-- The names of the fields, in order. -/
def fieldNames : List String := ["indicatorPosition", "totalOffers"]

/-- The values that a document gives; both must be there. -/
def ofValue? (v : Value) : Option StateValues := do
  let f ← v.fields? fieldNames
  let indicatorPosition ← f.required? "indicatorPosition" Value.uint64?
  let totalOffers ← f.required? "totalOffers" Value.uint64?
  return { indicatorPosition, totalOffers }

end StateValues

/-! ### Texts in segments -/

/-- A part of a text. -/
inductive Segment where
  /-- Plain text. -/
  | text (s : String)
  /-- A place for live state, with the text of its placeholder. -/
  | state (raw : String) (key : StateKey)
deriving DecidableEq, Repr

namespace Segment

/-- The segment with its placeholder as it stands. -/
def source : Segment → String
  | .text s => s
  | .state raw _ => raw

/-- The segment with the state filled in. -/
def render (v : StateValues) : Segment → String
  | .text s => s
  | .state _ key => v.render key

/-- Whether the segment is a place for live state. -/
def isState : Segment → Bool
  | .text _ => false
  | .state _ _ => true

end Segment

/-- A text that may await live state. -/
structure BoundText where
  /-- The segments, the last one first. -/
  latest : List Segment := []
deriving DecidableEq, Repr

namespace BoundText

/-- The text without segments. -/
def empty : BoundText := {}

/-- The segments, in order. -/
def segments (b : BoundText) : List Segment := b.latest.reverse

/-- Adds plain text, which is merged with plain text before it. -/
def pushText (b : BoundText) (s : String) : BoundText :=
  if s.isEmpty then b
  else
    match b.latest with
    | .text t :: rest => ⟨.text (t ++ s) :: rest⟩
    | latest => ⟨.text s :: latest⟩

/-- Adds a place for live state. -/
def pushState (b : BoundText) (raw : String) (key : StateKey) : BoundText :=
  ⟨.state raw key :: b.latest⟩

/-- Whether the text awaits live state. -/
def hasState (b : BoundText) : Bool := b.segments.any Segment.isState

/-- **The text with its placeholders as they stand.** -/
def text (b : BoundText) : String := String.join (b.segments.map Segment.source)

/-- **The text with the state filled in.** -/
def render (b : BoundText) (v : StateValues) : String :=
  String.join (b.segments.map (Segment.render v))

@[simp] theorem segments_empty : empty.segments = [] := rfl

@[simp] theorem segments_pushState (b : BoundText) (raw : String) (key : StateKey) :
    (b.pushState raw key).segments = b.segments ++ [.state raw key] := by
  simp [pushState, segments]

/-- Reading the segments of a text from the first to the last, a pushed text comes last. -/
theorem join_map_pushText (f : Segment → String) (hf : ∀ s, f (.text s) = s) (b : BoundText)
    (s : String) :
    String.join ((b.pushText s).segments.map f) = String.join (b.segments.map f) ++ s := by
  unfold pushText
  split
  · next h =>
      have hs : s = "" := by simpa using h
      simp [hs]
  · split
    · next t rest h => simp [segments, h, hf, String.append_assoc]
    · simp [segments, hf]

@[simp] theorem text_empty : empty.text = "" := rfl

@[simp] theorem render_empty (v : StateValues) : empty.render v = "" := rfl

@[simp] theorem text_pushText (b : BoundText) (s : String) : (b.pushText s).text = b.text ++ s :=
  join_map_pushText Segment.source (fun _ => rfl) b s

@[simp] theorem render_pushText (b : BoundText) (s : String) (v : StateValues) :
    (b.pushText s).render v = b.render v ++ s :=
  join_map_pushText (Segment.render v) (fun _ => rfl) b s

@[simp] theorem text_pushState (b : BoundText) (raw : String) (key : StateKey) :
    (b.pushState raw key).text = b.text ++ raw := by
  simp [text, Segment.source]

@[simp] theorem render_pushState (b : BoundText) (raw : String) (key : StateKey)
    (v : StateValues) : (b.pushState raw key).render v = b.render v ++ v.render key := by
  simp [render, Segment.render]

end BoundText

/-! ### Bindings -/

/-- A value that is fixed, or depends on live state. -/
inductive Binding (α : Type) where
  /-- A fixed value. -/
  | value (a : α)
  /-- A value that depends on live state. -/
  | state (a : α)
deriving DecidableEq, Repr

namespace Binding

variable {α : Type}

/-- What is bound. -/
def inner : Binding α → α
  | .value a => a
  | .state a => a

/-- Whether the value depends on live state. -/
def isState : Binding α → Bool
  | .value _ => false
  | .state _ => true

/-- The name of the kind of binding. -/
def kind : Binding α → String
  | .value _ => "value"
  | .state _ => "state"

/-- The way to bind a value that the name of a kind tells. -/
def ofKind? (kind : String) : Option (α → Binding α) :=
  if kind = "value" then some .value
  else if kind = "state" then some .state
  else none

/-- The names of the two fields of a binding, in order. -/
def fieldNames : List String := ["kind", "value"]

/-- The binding that a document describes: its kind, and the document of what is bound. -/
def ofValue? (decode : Value → Option α) (v : Value) : Option (Binding α) := do
  let f ← v.fields? fieldNames
  let bind ← f.required? "kind" (Value.variant? ofKind?)
  let a ← f.required? "value" decode
  return bind a

end Binding

end OfferLayout
