/-
**No queued event is lost, sent twice or out of order.**

Two steps take what is pending: a flush, and the timer of the open window.  Between them the events
wait in the order in which they were queued.  So at every moment the events that were sent, followed
by those that are pending, are the events that were queued.  This holds for every order of steps;
timers may fire late, more than once, or for windows that were never opened.

Main definitions:

* `Action.queued?` — the event that a step queued, if it did;
* `queuedEvents` — **the events that a run queued**, in order.

Main results:

* `flatten_batches` — what is sent is what the steps took;
* `step_conserves` — one step neither loses nor adds an event;
* `run_conserves` — **neither does a run**, from any state;
* `run_conserves_events` — the events of a run from the start.
-/

import OfferLayout.Proofs.Event.Step

set_option relaxedAutoImplicit false
set_option autoImplicit false

namespace OfferLayout

namespace Pipeline

/-! ### The events that are queued -/

/-- The event that a step queued: the one it submitted, if the answer is that it was queued. -/
def Action.queued? : Action → Reaction → Option Event
  | .submit e, r => if r.outcome = some .queued then some e else none
  | .flush, _ => none
  | .fire _, _ => none

/-- **The events that a run queued**, in the order of their submission. -/
def queuedEvents (actions : List Action) (reactions : List Reaction) : List Event :=
  (actions.zip reactions).filterMap fun x => x.1.queued? x.2

theorem queuedEvents_cons (a : Action) (actions : List Action) (r : Reaction)
    (reactions : List Reaction) :
    queuedEvents (a :: actions) (r :: reactions) =
      (a.queued? r).toList ++ queuedEvents actions reactions := by
  rw [queuedEvents, List.zip_cons_cons, List.filterMap_cons]
  cases a.queued? r <;> rfl

/-! ### The events that are sent -/

theorem batches_cons (r : Reaction) (reactions : List Reaction) :
    batches (r :: reactions) = batches [r] ++ batches reactions := by
  rw [batches, batches, batches, List.map_cons, List.map_singleton, ← List.filter_append,
    List.singleton_append]

/-- What is sent is what the steps took; a batch without events is not sent. -/
theorem flatten_batches (reactions : List Reaction) :
    (batches reactions).flatten = reactions.flatMap Reaction.batch := by
  rw [batches, List.flatten_filter_not_isEmpty, List.flatMap_def]

theorem nil_notMem_batches (reactions : List Reaction) : [] ∉ batches reactions := by
  intro h
  have := (List.mem_filter.1 h).2
  simp at this

/-! ### Conservation -/

/-- **One step neither loses nor adds an event**: what it sends and what is pending after it is what
was pending before it and what it queued. -/
theorem step_conserves (mode : IntegrationMode) (p : Pipeline) (a : Action) :
    (p.step mode a).1.batch ++ (p.step mode a).2.pending =
      p.pending ++ (a.queued? (p.step mode a).1).toList := by
  cases a with
  | submit e =>
      simp only [step, submit_eq, Action.queued?, Option.some_inj, List.nil_append]
      by_cases h : p.outcome mode e = .queued
      · rw [if_pos h, if_pos h, pending_enqueue, Option.toList_some]
      · rw [if_neg h, if_neg h, Option.toList_none, List.append_nil]
  | flush => simp [step, flush, Action.queued?]
  | fire window =>
      -- a late timer takes nothing, and then everything stays pending
      simp only [step, Action.queued?, Option.toList_none, List.append_nil]
      rcases p.fire_cases window with h | h
      · rw [h, flush, List.append_nil]
      · rw [h, List.nil_append]

theorem length_run (mode : IntegrationMode) (p : Pipeline) (actions : List Action) :
    (p.run mode actions).1.length = actions.length := by
  induction actions generalizing p with
  | nil => rfl
  | cons a actions ih => rw [run, List.length_cons, List.length_cons, ih]

/-- **A run neither loses nor adds an event.** -/
theorem run_conserves (mode : IntegrationMode) (p : Pipeline) (actions : List Action) :
    (batches (p.run mode actions).1).flatten ++ (p.run mode actions).2.pending =
      p.pending ++ queuedEvents actions (p.run mode actions).1 := by
  rw [flatten_batches]
  induction actions generalizing p with
  | nil => simp [run, queuedEvents]
  | cons a actions ih =>
      have hstep := step_conserves mode p a
      -- for the rest of the run, what is pending is what the first step left
      have hrest := ih (p.step mode a).2
      rw [run, List.flatMap_cons, queuedEvents_cons, List.append_assoc, hrest, ← List.append_assoc,
        hstep, List.append_assoc]

/-- **Conservation of events.**  Whatever happens, in whatever order, each step has its answer; the
batches that were sent, one after the other, and then the pending events are exactly the events
whose submission was answered by queueing, in the order of submission; and no batch is empty. -/
theorem run_conserves_events (mode : IntegrationMode) (actions : List Action) :
    (run mode {} actions).1.length = actions.length ∧
      (batches (run mode {} actions).1).flatten ++ (run mode {} actions).2.pending =
        queuedEvents actions (run mode {} actions).1 ∧
      [] ∉ batches (run mode {} actions).1 :=
  ⟨length_run mode {} actions, run_conserves mode {} actions, nil_notMem_batches _⟩

end Pipeline

end OfferLayout
