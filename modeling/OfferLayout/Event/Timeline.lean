/-
**The pipeline in time.**

On a clock that moves only when it is told to, the timer of a window is due a fixed time after the
window was opened, however many events arrive in the meantime.  It fires while the clock moves, at
the first instant at which it is due; a flush closes the window before that.

Batches go to a sink.  A sink may be closed from its other end, after which batches are lost.

Main definitions:

* `Timeline` — the pipeline, the clock and the instant at which the timer is due;
* `Timeline.submit`, `Timeline.flush`, `Timeline.advance` — what can happen on it;
* `Sink`, `Sink.deliver` — where batches go.

Main results:

* `Timeline.advance_now` — the clock moves by what it is told to.
-/

import OfferLayout.Event.Pipeline

set_option relaxedAutoImplicit false
set_option autoImplicit false

namespace OfferLayout

/-- The pipeline on a clock.  Instants are counted in milliseconds. -/
structure Timeline where
  /-- The pipeline. -/
  pipeline : Pipeline := {}
  /-- The instant that the clock shows. -/
  now : Nat := 0
  /-- The instant at which the timer of the open window is due. -/
  due : Option Nat := none
deriving DecidableEq

namespace Timeline

/-- **Submits an event.**  If that opens a window, its timer is due after the given time. -/
def submit (mode : IntegrationMode) (delay : Nat) (t : Timeline) (e : Event) :
    Outcome × Timeline :=
  let r := t.pipeline.submit mode e
  let due := if r.2.timer = t.pipeline.timer then t.due else some (t.now + delay)
  (r.1, { t with pipeline := r.2, due := due })

/-- **Closes the window now.** -/
def flush (t : Timeline) : List Event × Timeline :=
  (t.pipeline.flush.1, { t with pipeline := t.pipeline.flush.2, due := none })

/-- **Moves the clock.**  The timer fires if it is due by then. -/
def advance (t : Timeline) (ms : Nat) : List Event × Timeline :=
  let now := t.now + ms
  match t.due with
  | none => ([], { t with now := now })
  | some due =>
      if due ≤ now then
        let r := t.pipeline.fire t.pipeline.window
        (r.1, { pipeline := r.2, now := now, due := none })
      else ([], { t with now := now })

/-- The clock moves by what it is told to. -/
@[simp] theorem advance_now (t : Timeline) (ms : Nat) : (t.advance ms).2.now = t.now + ms := by
  unfold advance
  split
  · rfl
  · dsimp only
    split <;> rfl

/-- The clock does not matter for what becomes of an event. -/
theorem submit_outcome (mode : IntegrationMode) (delay : Nat) (t : Timeline) (e : Event) :
    (t.submit mode delay e).1 = (t.pipeline.submit mode e).1 := rfl

end Timeline

/-! ### Sinks -/

/-- Where batches go. -/
inductive Sink where
  /-- A function, which takes every batch. -/
  | function
  /-- A channel, which takes batches as long as its other end is open. -/
  | channel (isOpen : Bool)
deriving DecidableEq, Repr

namespace Sink

/-- The other end of the sink goes away. -/
def close : Sink → Sink
  | .function => .function
  | .channel _ => .channel false

/-- The batches that arrive when one is sent: none if there is nothing in it, or nobody to take
it. -/
def deliver (s : Sink) (batch : List Event) : List (List Event) :=
  if batch.isEmpty then []
  else
    match s with
    | .function => [batch]
    | .channel isOpen => if isOpen then [batch] else []

end Sink

end OfferLayout
