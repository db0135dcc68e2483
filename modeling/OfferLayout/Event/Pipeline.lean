/-
**The pipeline of events.**

Events are submitted one at a time.  A signal that the mode leaves to the partner is filtered; an
event that was queued before is a duplicate, unless its signal is repeatable; every other event is
queued.  The first event that is queued while no window is open opens one, with the next number, and
arms a timer for it.  A window is closed by its timer or by a flush, and closing it takes
everything that is queued as one batch.

A timer may fire late, after its window was closed; it then finds another window, or none, and does
nothing.

Main definitions:

* `Pipeline` — the state;
* `Outcome` — what became of a submitted event;
* `Pipeline.submit`, `Pipeline.flush`, `Pipeline.fire` — the three things that can happen;
* `Pipeline.step`, `Pipeline.run` — one of them, and any number of them.

Main results:

* `Pipeline.flush_flush` — a flush right after another takes nothing.
-/

import OfferLayout.Event.Basic
import OfferLayout.Event.Integration

set_option relaxedAutoImplicit false
set_option autoImplicit false

namespace OfferLayout

/-- The state of the pipeline. -/
structure Pipeline where
  /-- The keys of the events that were queued, except for repeatable signals, latest first. -/
  seen : List Event.Key := []
  /-- The events that wait in the open window, in order. -/
  pending : List Event := []
  /-- The number of the window that was opened last.  It is a word, which starts again at zero after
  the largest. -/
  window : UInt64 := 0
  /-- The window whose timer is armed. -/
  timer : Option UInt64 := none
deriving DecidableEq

/-- What became of a submitted event. -/
inductive Outcome where
  /-- Its signal is left to the partner. -/
  | filtered
  /-- It was queued before. -/
  | duplicate
  /-- It waits in the open window. -/
  | queued
deriving DecidableEq, Repr

/-- The name of an outcome. -/
def Outcome.name : Outcome → String
  | .filtered => "filtered"
  | .duplicate => "duplicate"
  | .queued => "queued"

namespace Pipeline

/-! ### What can happen -/

/-- Remembers the key of an event whose signal is not repeatable. -/
def remember (p : Pipeline) (e : Event) : Pipeline :=
  if e.signal.isRepeatable then p else { p with seen := e.key :: p.seen }

/-- Opens the window with the next number and arms its timer, unless a timer is armed. -/
def openWindow (p : Pipeline) : Pipeline :=
  match p.timer with
  | some _ => p
  | none => { p with window := p.window + 1, timer := some (p.window + 1) }

/-- Puts an event into the open window. -/
def enqueue (p : Pipeline) (e : Event) : Pipeline :=
  ({ p.remember e with pending := p.pending ++ [e] }).openWindow

/-- What becomes of an event that is submitted now. -/
def outcome (mode : IntegrationMode) (p : Pipeline) (e : Event) : Outcome :=
  if mode = .server ∧ e.signal.isLoad then .filtered
  else if e.signal.isRepeatable = false ∧ e.key ∈ p.seen then .duplicate
  else .queued

/-- **Submits an event.** -/
def submit (mode : IntegrationMode) (p : Pipeline) (e : Event) : Outcome × Pipeline :=
  match p.outcome mode e with
  | .queued => (.queued, p.enqueue e)
  | other => (other, p)

/-- **Closes the window**, and gives what waited in it. -/
def flush (p : Pipeline) : List Event × Pipeline :=
  (p.pending, { p with pending := [], timer := none })

/-- **The timer of a window fires.**  It closes that window if it is the one whose timer is armed,
and does nothing otherwise. -/
def fire (p : Pipeline) (window : UInt64) : List Event × Pipeline :=
  if p.window = window ∧ p.timer.isSome then p.flush else ([], p)

/-! ### Runs -/

/-- Something that happens to the pipeline. -/
inductive Action where
  /-- An event is submitted. -/
  | submit (e : Event)
  /-- The window is closed. -/
  | flush
  /-- The timer of a window fires. -/
  | fire (window : UInt64)
deriving DecidableEq

/-- What the pipeline does in answer. -/
structure Reaction where
  /-- What became of the event, if one was submitted. -/
  outcome : Option Outcome := none
  /-- The batch that is sent; there is none if nothing waited. -/
  batch : List Event := []
deriving DecidableEq

/-- **One thing happens.** -/
def step (mode : IntegrationMode) (p : Pipeline) : Action → Reaction × Pipeline
  | .submit e => ({ outcome := some (p.submit mode e).1 }, (p.submit mode e).2)
  | .flush => ({ batch := p.flush.1 }, p.flush.2)
  | .fire window => ({ batch := (p.fire window).1 }, (p.fire window).2)

/-- **Any number of things happen**, one after the other. -/
def run (mode : IntegrationMode) (p : Pipeline) : List Action → List Reaction × Pipeline
  | [] => ([], p)
  | a :: rest =>
      let r := p.step mode a
      let rs := run mode r.2 rest
      (r.1 :: rs.1, rs.2)

/-- The batches that reactions send. -/
def batches (rs : List Reaction) : List (List Event) :=
  (rs.map Reaction.batch).filter fun b => !b.isEmpty

/-- A flush right after another takes nothing and changes nothing. -/
theorem flush_flush (p : Pipeline) : p.flush.2.flush = ([], p.flush.2) := rfl

end Pipeline

end OfferLayout
