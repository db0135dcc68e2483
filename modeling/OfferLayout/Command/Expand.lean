/-
**Expanding a template on the command line.**

The data come from the offer in a slot of a layout and, if one is named, from one of its catalog
items.  A template that collapses gives the empty text.

Main definitions:

* `Expansion` — a template that was expanded;
* `ExpandRequest.source` — the data;
* `ExpandRequest.run` — **expanding a template**;
* `Expansion.report` — what is reported about it.

Main results:

* `ExpandRequest.bind_eq` — a template that can be bound is bound as it is.
-/

import OfferLayout.Command.Report
import OfferLayout.Expansion.Basic

set_option relaxedAutoImplicit false
set_option autoImplicit false

namespace OfferLayout

open Json (Value)

/-- A template that was expanded. -/
structure Expansion where
  /-- Whether the text awaits live state, and its segments. -/
  binding : Binding BoundText
  /-- The text with the live state filled in. -/
  rendered : String
deriving DecidableEq

namespace ExpandRequest

/-- The data from the offer in a slot, with the catalog item and the response that are named. -/
def source (r : ExpandRequest) (layout : Layout) : Except Failure Source :=
  match layout.offer? r.slot with
  | none => .error (.noOffer r.slot)
  | some offer =>
      match r.catalogItem with
      | none => .ok { Source.offer offer.creative with response := r.response }
      | some index =>
          match offer.catalogItems[index]? with
          | none => .error (.noItem r.slot index (some offer.catalogItems.length))
          | some item => .ok { Source.offerWithItem offer.creative item with response := r.response }

/-- The binding of the template; one that collapses is the empty text. -/
def bind (r : ExpandRequest) (s : Source) : Except Failure (Binding BoundText) :=
  match bindTemplate r.template s with
  | .ok b => .ok b
  | .error e => if e.collapses then .ok (.value .empty) else .error (.badTemplate e)

/-- A template that can be bound is bound as it is. -/
theorem bind_eq {r : ExpandRequest} {s : Source} {b : Binding BoundText}
    (h : bindTemplate r.template s = .ok b) : r.bind s = .ok b := by
  simp [bind, h]

/-- The live state: the place that was asked for, and the number of slots. -/
def values (r : ExpandRequest) (layout : Layout) : StateValues where
  indicatorPosition := r.position
  totalOffers := UInt64.ofNat layout.slots.length

/-- **Expands a template.** -/
def run (r : ExpandRequest) (files : Files) : Except Failure Expansion := do
  let layout ← files.layout r.schema
  let source ← r.source layout
  let binding ← r.bind source
  return { binding, rendered := binding.inner.render (r.values layout) }

end ExpandRequest

namespace Expansion

/-- The document of an expansion. -/
def toValue (e : Expansion) : Value :=
  .object [("binding", .string e.binding.kind), ("rendered", .string e.rendered),
    ("text", .string e.binding.inner.text)]

/-- **What is reported about an expansion.** -/
def report (format : OutputFormat) (e : Expansion) : Report :=
  match format with
  | .text => { stdout := lineOf e.rendered }
  | .json => { stdout := lineOf e.toValue.pretty }

end Expansion

end OfferLayout
