/-
**Layouts.**

A layout document names the breakpoints of a page and lists its slots.  Both must be there; all
other members are optional, and those for the renderer are passed through as they are.  Loading is
all or nothing, and the faults of a document are looked for in a fixed order: the breakpoints first,
by name, then the slots, by index.

Main definitions:

* `Layout` — a layout;
* `LayoutError`, `LayoutError.message` — why a document is no layout;
* `Layout.ofValue?`, `Layout.ofString?` — loading a layout;
* `Layout.offer?` — the offer in a slot.
-/

import OfferLayout.Record.Offer

set_option relaxedAutoImplicit false
set_option autoImplicit false

namespace OfferLayout

open Json (Value)

/-- The layout of a page. -/
structure Layout where
  /-- The identifier of the session. -/
  sessionId : String := ""
  /-- The identifier of this appearance of the page. -/
  pageInstanceGuid : String := ""
  /-- The token of the page. -/
  token : String := ""
  /-- The breakpoints, each with its width in pixels. -/
  breakpoints : Dict UInt32 := ∅
  /-- Settings for the renderer, not interpreted here. -/
  settings : Value := .null
  /-- A tree for the renderer, not interpreted here. -/
  layout : Option Value := none
  /-- The slots, in order. -/
  slots : List Slot := []

/-- Why a document is no layout. -/
inductive LayoutError where
  /-- The text is not that of a document. -/
  | notJson
  /-- A member that must be there is missing. -/
  | missing (field : String)
  /-- The breakpoints are not an object. -/
  | breakpointsNotObject
  /-- A breakpoint is not a width in pixels. -/
  | notPixels (name : String)
  /-- The element at an index describes no slot. -/
  | badSlot (index : Nat)
deriving DecidableEq, Repr

namespace LayoutError

/-- The record at fault, for the errors that concern one. -/
def record? : LayoutError → Option String
  | .breakpointsNotObject | .notPixels _ => some "breakpoints"
  | .badSlot i => some ("slot[" ++ Text.natural i ++ "]")
  | _ => none

/-- What is said about the error. -/
def message : LayoutError → String
  | .notJson => "invalid schema JSON: not a document"
  | .missing field => s!"schema missing required field: '{field}'"
  | .breakpointsNotObject => "invalid breakpoints: expected an object of name -> pixel width"
  | .notPixels name => s!"invalid breakpoints: breakpoint '{name}' is not a pixel width"
  | .badSlot i => "invalid slot[" ++ Text.natural i ++ "]: not a slot"

end LayoutError

namespace Layout

/-! ### Parts of a document -/

/-- The widths of named breakpoints; the first that is not a width is the fault. -/
def pixelWidths : List (String × Value) → Except LayoutError (List (String × UInt32))
  | [] => .ok []
  | (name, v) :: rest =>
      match v.uint32? with
      | none => .error (.notPixels name)
      | some px =>
          match pixelWidths rest with
          | .error e => .error e
          | .ok widths => .ok ((name, px) :: widths)

/-- The breakpoints that a document lists, examined by increasing name. -/
def breakpointsOf : Value → Except LayoutError (Dict UInt32)
  | .object members => (pixelWidths (Dict.ofList members).entries).map Dict.ofList
  | _ => .error .breakpointsNotObject

/-- The slots that documents describe, where the first has the given index; the first document
that describes none is the fault. -/
def slotsFrom (index : Nat) : List Value → Except LayoutError (List Slot)
  | [] => .ok []
  | v :: rest =>
      match Slot.ofValue? v with
      | none => .error (.badSlot index)
      | some slot =>
          match slotsFrom (index + 1) rest with
          | .error e => .error e
          | .ok slots => .ok (slot :: slots)

/-- The text of a member, or nothing if it is missing or no text. -/
def textAt (doc : Value) (name : String) : String := ((doc.get? name).bind Value.string?).getD ""

/-! ### Loading -/

/-- **The layout that a document describes.** -/
def ofValue? (doc : Value) : Except LayoutError Layout :=
  match doc.get? "breakpoints" with
  | none => .error (.missing "breakpoints")
  | some b =>
      match breakpointsOf b with
      | .error e => .error e
      | .ok breakpoints =>
          match (doc.get? "slots").bind Value.items? with
          | none => .error (.missing "slots")
          | some items =>
              match slotsFrom 0 items with
              | .error e => .error e
              | .ok slots =>
                  .ok
                    { sessionId := textAt doc "sessionId"
                      pageInstanceGuid := textAt doc "pageInstanceGuid"
                      token := textAt doc "token"
                      breakpoints := breakpoints
                      settings := (doc.get? "settings").getD .null
                      layout := doc.get? "layout"
                      slots := slots }

/-- The layout that the text of a document describes. -/
def ofString? (s : String) : Except LayoutError Layout :=
  match Value.ofString? s with
  | none => .error .notJson
  | some doc => ofValue? doc

/-- The offer in the slot at an index, if there is such a slot and it carries one. -/
def offer? (l : Layout) (index : Nat) : Option Offer := l.slots[index]?.bind Slot.offer

end Layout

end OfferLayout
