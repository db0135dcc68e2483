/-
**Replaying events on the command line.**

The events stand in a file, one on a line; blank lines count but say nothing.  They are submitted
one after the other, with a fixed time between them, and at the end the open window is closed.
Nothing is submitted unless every line describes an event.

Main definitions:

* `eventsOfLines` — the events that lines describe;
* `Replay` — what became of the events;
* `Replay.submitAll`, `Replay.ofEvents` — **feeding events to the pipeline**;
* `ReplayRequest.run` — replaying the events in a file;
* `Replay.report` — what is reported about it.

Main results:

* `Replay.submitted_count` — every outcome is counted once.
-/

import OfferLayout.Command.Report
import OfferLayout.Event.Payload
import OfferLayout.Event.Settings
import OfferLayout.Event.Timeline

set_option relaxedAutoImplicit false
set_option autoImplicit false

namespace OfferLayout

open Json (Value)

/-! ### Events in a file -/

/-- The text of a line without the carriage return at its end. -/
def withoutReturn (line : List Char) : List Char := (Text.dropLast? '\r' line).getD line

/-- The events that lines describe, where the first line has the given number; the first line that
is not blank and describes none is the fault. -/
def eventsOfLines (path : String) (number : Nat) : List (List Char) → Except Failure (List Event)
  | [] => .ok []
  | line :: rest =>
      if Text.isAllBlank line then eventsOfLines path (number + 1) rest
      else
        match Event.ofString? (String.ofList (withoutReturn line)) with
        | none => .error (.badEvent path number)
        | some e => (eventsOfLines path (number + 1) rest).map (e :: ·)

/-! ### Replaying -/

/-- What became of events. -/
structure Replay where
  /-- The outcomes, in the order of the events. -/
  outcomes : List Outcome := []
  /-- The batches, in the order in which they were sent. -/
  batches : List (List Event) := []
deriving DecidableEq

namespace Replay

/-- The number of events with an outcome. -/
def count (r : Replay) (o : Outcome) : Nat := r.outcomes.count o

/-- Every outcome is counted once. -/
theorem submitted_count (r : Replay) :
    r.count .queued + r.count .duplicate + r.count .filtered = r.outcomes.length := by
  have h : ∀ l : List Outcome,
      l.count .queued + l.count .duplicate + l.count .filtered = l.length := by
    intro l
    induction l with
    | nil => rfl
    | cons o l ih => cases o <;> simp <;> omega
  exact h r.outcomes

/-- A batch among others, unless there is nothing in it. -/
def sent (batch : List Event) : List (List Event) := Sink.deliver (.channel true) batch

/-- Moves the clock on by the time between two events, if there is any. -/
def pause (interval : Nat) (t : Timeline) : List Event × Timeline :=
  if interval = 0 then ([], t) else t.advance interval

/-- **Submits events one after the other**, with a fixed time after each, and closes the window at
the end. -/
def submitAll (set : Settings) (interval : Nat) (t : Timeline) : List Event → Replay
  | [] => { batches := sent t.flush.1 }
  | e :: rest =>
      let submitted := t.submit set.mode set.delay e
      let paused := pause interval submitted.2
      let others := submitAll set interval paused.2 rest
      { outcomes := submitted.1 :: others.outcomes, batches := sent paused.1 ++ others.batches }

/-- What becomes of events that are fed to a new pipeline. -/
def ofEvents (set : Settings) (interval : Nat) (events : List Event) : Replay :=
  submitAll set interval {} events

/-- The summary of a replay. -/
def summary (r : Replay) : String :=
  Text.natural (r.count .queued) ++ " queued, " ++ Text.natural (r.count .duplicate) ++
    " duplicate, " ++ Text.natural (r.count .filtered) ++ " filtered, " ++
    Text.natural r.batches.length ++ " batch(es)"

/-- The document of a replay. -/
def toValue (set : Settings) (r : Replay) : Value :=
  .object
    [("batches", .ofList (fun b => (Payload.toValue ⟨set.integration, b⟩).canonical) r.batches),
      ("duplicate", .ofNat (r.count .duplicate)), ("filtered", .ofNat (r.count .filtered)),
      ("queued", .ofNat (r.count .queued))]

/-- **What is reported about a replay.** -/
def report (format : OutputFormat) (set : Settings) (r : Replay) : Report :=
  match format with
  | .text =>
      { stdout := String.join (r.batches.map fun b => lineOf (Payload.text ⟨set.integration, b⟩))
        stderr := lineOf r.summary }
  | .json => { stdout := lineOf (r.toValue set).pretty }

end Replay

namespace ReplayRequest

/-- The settings in a file, or the usual ones. -/
def settings (r : ReplayRequest) (files : Files) : Except Failure Settings :=
  match r.config with
  | none => .ok {}
  | some path =>
      match files path with
      | .error fault => .error (.noSettings path fault)
      | .ok text =>
          match Settings.ofString? text with
          | none => .error .badSettings
          | some set => .ok set

/-- The events in a file. -/
def loadEvents (r : ReplayRequest) (files : Files) : Except Failure (List Event) :=
  match files r.events with
  | .error _ => .error (.noEvents r.events)
  | .ok text => eventsOfLines r.events 1 (Text.fields '\n' text.toList)

/-- **Replays the events in a file**, and tells the settings under which that was done. -/
def run (r : ReplayRequest) (files : Files) : Except Failure (Settings × Replay) := do
  let set ← r.settings files
  let events ← r.loadEvents files
  return (set, Replay.ofEvents set r.interval events)

end ReplayRequest

end OfferLayout
