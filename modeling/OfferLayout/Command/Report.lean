/-
**What a command reports.**

A command ends with an exit code and the texts on the two outputs.  A command that cannot be carried
out fails for one cause, which is shown as text or as a document, or not at all if nothing is to be
shown.

Main definitions:

* `Failure`, `Failure.message` — why a command cannot be carried out;
* `Report`, `Report.ofFailure` — what a command reports;
* `Files.document`, `Files.layout` — reading a document and a layout.

Main results:

* `Report.ofFailure_quiet` — where nothing is to be shown, a failure shows in the exit code alone.
-/

import OfferLayout.Command.Arguments
import OfferLayout.Command.File
import OfferLayout.Layout
import OfferLayout.Predicate.Basic
import OfferLayout.Template.Link

set_option relaxedAutoImplicit false
set_option autoImplicit false

namespace OfferLayout

open Json (Value)

/-! ### Failures -/

/-- Why a command cannot be carried out. -/
inductive Failure where
  /-- A file cannot be read. -/
  | noFile (path : String)
  /-- A file does not hold the text of a document. -/
  | notJson (path : String)
  /-- A document is no layout. -/
  | badLayout (path : String) (e : LayoutError)
  /-- A slot carries no offer, or there is no such slot. -/
  | noOffer (slot : Nat)
  /-- An offer has no such item; the number of its items may be told. -/
  | noItem (slot item : Nat) (available : Option Nat)
  /-- A template cannot be expanded. -/
  | badTemplate (e : PlaceholderError)
  /-- A document is no list of predicates. -/
  | badPredicates (path : String) (e : PredicateError)
  /-- A document is no state. -/
  | badState (path : String)
  /-- The file of settings cannot be read. -/
  | noSettings (path : String) (fault : FileFault)
  /-- A text gives no settings. -/
  | badSettings
  /-- The file of events cannot be read. -/
  | noEvents (path : String)
  /-- A line describes no event. -/
  | badEvent (path : String) (line : Nat)
deriving DecidableEq, Repr

/-- What is said about a failure. -/
def Failure.message : Failure → String
  | .noFile path => s!"error: file not found: {path}"
  | .notJson path => s!"error: invalid JSON in {path}: not a document"
  | .badLayout path e => s!"error: invalid layout schema {path}: " ++ e.message
  | .noOffer slot => "error: slot " ++ Text.natural slot ++ " has no offer"
  | .noItem slot item available =>
      "error: slot " ++ Text.natural slot ++ " has no catalog item " ++ Text.natural item ++
        ((available.map fun n => " (" ++ Text.natural n ++ " available)").getD "")
  | .badTemplate e => "error: " ++ e.message
  | .badPredicates path e => s!"error: invalid predicates in {path}: " ++ e.message
  | .badState path => s!"error: invalid state in {path}: not a state"
  | .noSettings path fault => s!"error: cannot read config file {path}: " ++ fault.message
  | .badSettings => "error: invalid pipeline config: not a settings text"
  | .noEvents path => s!"error: events file not found: {path}"
  | .badEvent path line => s!"error: invalid event at {path}:" ++ Text.natural line ++ ": not an event"

/-! ### Reports -/

/-- What a command reports. -/
structure Report where
  /-- The exit code. -/
  exit : Nat := 0
  /-- The text on the standard output. -/
  stdout : String := ""
  /-- The text on the standard error output. -/
  stderr : String := ""
deriving DecidableEq, Repr

/-- The text of a line. -/
def lineOf (s : String) : String := s ++ "\n"

/-- **The report of a failure.** -/
def Report.ofFailure (format : OutputFormat) (quiet : Bool) (f : Failure) : Report :=
  if quiet then { exit := 1 }
  else
    match format with
    | .text => { exit := 1, stderr := lineOf f.message }
    | .json => { exit := 1, stderr := lineOf (Value.object [("error", .string f.message)]).text }

/-- Where nothing is to be shown, a failure shows in the exit code alone. -/
@[simp] theorem Report.ofFailure_quiet (format : OutputFormat) (f : Failure) :
    Report.ofFailure format true f = { exit := 1 } := rfl

/-! ### Files -/

namespace Files

/-- The document in a file. -/
def document (files : Files) (path : String) : Except Failure Value :=
  match files path with
  | .error _ => .error (.noFile path)
  | .ok text =>
      match Value.ofString? text with
      | none => .error (.notJson path)
      | some v => .ok v

/-- The layout in a file. -/
def layout (files : Files) (path : String) : Except Failure Layout :=
  (files.document path).bind fun v => (Layout.ofValue? v).mapError (.badLayout path)

end Files

end OfferLayout
