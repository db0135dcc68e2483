/-
**Testing predicates on the command line.**

The state comes from a file, and what is missing in it from a layout, if one is given: the
breakpoints, the number of items and the records in view.

Main definitions:

* `Evaluation` — predicates that were tested;
* `EvalRequest.snapshot` — what they are tested against;
* `EvalRequest.run` — **testing predicates**;
* `Evaluation.report` — what is reported about it.

Main results:

* `Evaluation.applies_ofPredicates` — predicates apply exactly if all of them hold.
-/

import OfferLayout.Command.Report
import OfferLayout.Predicate.Holds

set_option relaxedAutoImplicit false
set_option autoImplicit false

namespace OfferLayout

open Json (Value)

/-- The predicates that were tested: the kind of each, and whether it holds. -/
structure Evaluation where
  /-- The kinds, and whether they hold. -/
  results : List (String × Bool)
deriving DecidableEq, Repr

namespace Evaluation

/-- Whether all predicates hold. -/
def applies (e : Evaluation) : Bool := e.results.all fun r => r.2

/-- Tests predicates against a snapshot. -/
def ofPredicates (ps : List Predicate) (s : Snapshot) : Evaluation :=
  ⟨ps.map fun p => (p.subject.kind, p.holds s)⟩

/-- **Predicates apply exactly if all of them hold.** -/
theorem applies_ofPredicates (ps : List Predicate) (s : Snapshot) :
    (ofPredicates ps s).applies = allHold ps s := by
  simp [applies, ofPredicates, allHold, List.all_map, Function.comp_def]

/-- The document of an evaluation. -/
def toValue (e : Evaluation) : Value :=
  .object [("applies", .bool e.applies),
    ("predicates", .ofList
      (fun r => .object [("holds", .bool r.2), ("kind", .string r.1)]) e.results)]

/-- The word for a truth value. -/
def word (b : Bool) : String := if b then "true" else "false"

/-- **What is reported about an evaluation.** -/
def report (format : OutputFormat) (e : Evaluation) : Report :=
  match format with
  | .text => { stdout := lineOf (word e.applies) }
  | .json => { stdout := lineOf e.toValue.pretty }

end Evaluation

namespace EvalRequest

/-- The predicates in a file. -/
def loadPredicates (r : EvalRequest) (files : Files) : Except Failure (List Predicate) :=
  (files.document r.predicates).bind fun v =>
    (Predicate.listOfValue? v).mapError (.badPredicates r.predicates)

/-- The state in a file. -/
def loadState (r : EvalRequest) (files : Files) : Except Failure StateDocument :=
  (files.document r.state).bind fun v =>
    match StateDocument.ofValue? v with
    | none => .error (.badState r.state)
    | some d => .ok d

/-- The layout, if one is given. -/
def loadLayout (r : EvalRequest) (files : Files) : Except Failure (Option Layout) :=
  match r.schema with
  | none => .ok none
  | some path => (files.layout path).map some

/-- The catalog item of an offer that is in view, if one is named. -/
def item (r : EvalRequest) (offer : Offer) : Except Failure (Option CatalogItem) :=
  match r.catalogItem with
  | none => .ok none
  | some index =>
      match offer.catalogItems[index]? with
      | none => .error (.noItem r.slot index none)
      | some item => .ok (some item)

/-- **What predicates are tested against.** -/
def snapshot (r : EvalRequest) (d : StateDocument) (layout : Option Layout) :
    Except Failure Snapshot :=
  let base : Snapshot :=
    { progress := d.currentProgress
      total := (d.totalItems.or (layout.bind fun l => Text.toInt32? l.slots.length)).getD 1
      position := d.position
      width := d.width
      breakpoints := (d.breakpoints.or (layout.map Layout.breakpoints)).getD ∅
      darkMode := d.darkMode
      customState := CustomState.ofEntries d.customState }
  match layout.bind fun l => l.offer? r.slot with
  | none => .ok base
  | some offer =>
      (r.item offer).map fun item =>
        { base with creative := some offer.creative, catalogItem := item }

/-- **Tests predicates.** -/
def run (r : EvalRequest) (files : Files) : Except Failure Evaluation := do
  let predicates ← r.loadPredicates files
  let state ← r.loadState files
  let layout ← r.loadLayout files
  let snapshot ← r.snapshot state layout
  return Evaluation.ofPredicates predicates snapshot

end EvalRequest

end OfferLayout
