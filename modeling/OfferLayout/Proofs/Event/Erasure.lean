/-
**Dropped events leave no trace.**

An event that is filtered, or is a duplicate, changes nothing: it is not remembered, it waits
nowhere, and it neither opens a window nor moves a deadline.  So a run from which all such
submissions are struck out is the same run, moment by moment, without the moments at which they were
made.  A pipeline whose partner tells of the loading of the page is, in the same sense, one without
a partner to which the events about the loading were never submitted.

Both are cases of one observation: where every step that is struck out leaves the state alone and
sends nothing, and every other step is the same, what is left of the run is the run of what is left.

Main definitions:

* `Moment`, `moments` — one step of a run, and **a run moment by moment**;
* `Traceless` — the steps that may be struck out;
* `Pipeline.Reaction.isDropped` — whether an event was dropped;
* `Pipeline.Action.tellsLoad`, `Timeline.Move.tellsLoad` — whether a step submits an event about the
  loading of the page.

Main results:

* `Traceless.moments_kept` — **what is left of a run is the run of what is left**;
* `Traceless.kept` — so runs agree in what is left, in the last state and in the batches;
* `Pipeline.traceless_dropped`, `Timeline.traceless_dropped` — dropped events leave no trace;
* `Pipeline.traceless_load`, `Timeline.traceless_load` — nor do those about the loading of the page;
* `Pipeline.dropped_leave_no_trace` — the whole of it.
-/

import OfferLayout.Proofs.Event.History

set_option relaxedAutoImplicit false
set_option autoImplicit false

namespace OfferLayout

open Pipeline (Action Reaction batches batches_cons)

/-! ### Runs, moment by moment -/

/-- One step of a run: what was done, the answer to it, and the state after it. -/
structure Moment (α σ : Type) where
  /-- What was done. -/
  action : α
  /-- The answer. -/
  reaction : Reaction
  /-- The state after it. -/
  state : σ

section

variable {α σ : Type}

/-- The moment at which something is done in a state. -/
def momentOf (step : σ → α → Reaction × σ) (s : σ) (a : α) : Moment α σ :=
  ⟨a, (step s a).1, (step s a).2⟩

/-- **A run, moment by moment.** -/
def moments (step : σ → α → Reaction × σ) (s : σ) : List α → List (Moment α σ)
  | [] => []
  | a :: rest => momentOf step s a :: moments step (step s a).2 rest

/-- The state after moments that began in the state `s`. -/
def stateAfter (s : σ) (ms : List (Moment α σ)) : σ := ms.foldl (fun _ m => m.state) s

/-- **Steps that leave no trace** when they are struck out: such a step changes nothing and sends
nothing, and any other step is the same for both machines. -/
structure Traceless (step step' : σ → α → Reaction × σ) (drop : Moment α σ → Bool) : Prop where
  /-- What is struck out changes nothing. -/
  state_eq : ∀ s a, drop (momentOf step s a) = true → (step s a).2 = s
  /-- What is struck out sends nothing. -/
  batch_eq : ∀ s a, drop (momentOf step s a) = true → (step s a).1.batch = []
  /-- What is kept is the same step. -/
  step_eq : ∀ s a, drop (momentOf step s a) = false → step' s a = step s a

variable {step step' : σ → α → Reaction × σ} {drop : Moment α σ → Bool}

/-- **What is left of a run is the run of what is left.** -/
theorem Traceless.moments_kept (h : Traceless step step' drop) (s : σ) (actions : List α) :
    moments step' s (((moments step s actions).filter fun m => !drop m).map Moment.action) =
      (moments step s actions).filter fun m => !drop m := by
  induction actions generalizing s with
  | nil => rfl
  | cons a actions ih =>
      have hrest := ih (step s a).2
      rw [moments, List.filter_cons]
      cases hdrop : drop (momentOf step s a) with
      | true =>
          -- the other steps find the state in which this one was made
          rw [h.state_eq s a hdrop] at hrest ⊢
          exact hrest
      | false =>
          have hstep := h.step_eq s a hdrop
          simp only [Bool.not_false, if_true, List.map_cons, moments, momentOf, hstep, hrest]

theorem Traceless.stateAfter_kept (h : Traceless step step' drop) (s : σ) (actions : List α) :
    stateAfter s ((moments step s actions).filter fun m => !drop m) =
      stateAfter s (moments step s actions) := by
  induction actions generalizing s with
  | nil => rfl
  | cons a actions ih =>
      have hrest := ih (step s a).2
      rw [moments, List.filter_cons]
      cases hdrop : drop (momentOf step s a) with
      | true =>
          have hstate := h.state_eq s a hdrop
          rw [hstate] at hrest ⊢
          have hlast : stateAfter s (momentOf step s a :: moments step s actions) =
              stateAfter s (moments step s actions) := by
            rw [stateAfter, List.foldl_cons, momentOf, hstate, stateAfter]
          rw [hlast]
          exact hrest
      | false => exact hrest

theorem Traceless.batches_kept (h : Traceless step step' drop) (s : σ) (actions : List α) :
    batches (((moments step s actions).filter fun m => !drop m).map Moment.reaction) =
      batches ((moments step s actions).map Moment.reaction) := by
  induction actions generalizing s with
  | nil => rfl
  | cons a actions ih =>
      have hrest := ih (step s a).2
      rw [moments, List.filter_cons, List.map_cons, batches_cons, ← hrest]
      cases hdrop : drop (momentOf step s a) with
      | true =>
          have hempty : batches [(momentOf step s a).reaction] = [] := by
            simp [batches, momentOf, h.batch_eq s a hdrop]
          rw [hempty]
          rfl
      | false => exact batches_cons _ _

/-- **Runs of the two machines agree** in what is left, in the last state and in the batches. -/
theorem Traceless.kept (h : Traceless step step' drop) {run run' : σ → List α → List Reaction × σ}
    (hrun : ∀ s actions, run s actions =
      ((moments step s actions).map Moment.reaction, stateAfter s (moments step s actions)))
    (hrun' : ∀ s actions, run' s actions =
      ((moments step' s actions).map Moment.reaction, stateAfter s (moments step' s actions)))
    {s : σ} {actions kept : List α}
    (hkept : ((moments step s actions).filter fun m => !drop m).map Moment.action = kept) :
    moments step' s kept = (moments step s actions).filter (fun m => !drop m) ∧
      (run' s kept).2 = (run s actions).2 ∧ batches (run' s kept).1 = batches (run s actions).1 := by
  have hmoments := h.moments_kept s actions
  rw [hkept] at hmoments
  rw [hrun, hrun', hmoments]
  exact ⟨rfl, h.stateAfter_kept s actions, h.batches_kept s actions⟩

/-- If it can be told from the steps themselves which of them are struck out, they are just left
out. -/
theorem map_action_filter (step : σ → α → Reaction × σ) (keep : α → Bool) (s : σ)
    (actions : List α) :
    ((moments step s actions).filter fun m => keep m.action).map Moment.action =
      actions.filter keep := by
  induction actions generalizing s with
  | nil => rfl
  | cons a actions ih =>
      rw [moments, List.filter_cons, List.filter_cons]
      cases hkeep : keep a with
      | true => simp only [momentOf, hkeep, if_true, List.map_cons, ih]
      | false => simp only [momentOf, hkeep, Bool.false_eq_true, if_false, ih]

end

namespace Pipeline

theorem run_eq_moments (mode : IntegrationMode) (p : Pipeline) (actions : List Action) :
    p.run mode actions =
      ((moments (step mode) p actions).map Moment.reaction,
        stateAfter p (moments (step mode) p actions)) := by
  induction actions generalizing p with
  | nil => rfl
  | cons a actions ih =>
      rw [run, ih]
      rfl

/-! ### Events that are dropped -/

/-- Whether the step submitted an event that was dropped: left to the partner, or a duplicate. -/
def Reaction.isDropped (r : Reaction) : Bool :=
  r.outcome = some .filtered || r.outcome = some .duplicate

theorem Reaction.isDropped_of_ne_queued {r : Reaction} {o : Outcome} (h : r.outcome = some o) :
    r.isDropped = true ↔ o ≠ .queued := by
  rw [isDropped, h]
  cases o <;> decide

/-- **Dropped events leave no trace.** -/
theorem traceless_dropped (mode : IntegrationMode) :
    Traceless (step mode) (step mode) fun m => m.reaction.isDropped := by
  have hunchanged : ∀ (p : Pipeline) (a : Action), (p.step mode a).1.isDropped = true →
      (p.step mode a).2 = p ∧ (p.step mode a).1.batch = [] := by
    intro p a hdrop
    rcases step_cases mode p a with ⟨e, -, -, h⟩ | ⟨e, -, -, h⟩ | ⟨-, h⟩ | ⟨w, -, -, h⟩
    · rw [h] at hdrop
      cases hdrop
    · rw [h]
      exact ⟨rfl, rfl⟩
    · rw [h] at hdrop
      cases hdrop
    · rw [h]
      exact ⟨rfl, rfl⟩
  exact ⟨fun p a h => (hunchanged p a h).1, fun p a h => (hunchanged p a h).2, fun _ _ _ => rfl⟩

/-! ### Events about the loading of the page -/

/-- Whether the step submits an event about the loading of the page. -/
def Action.tellsLoad (a : Action) : Bool := a.event?.any fun e => e.signal.isLoad

theorem outcome_of_isLoad {e : Event} (h : e.signal.isLoad = true) (p : Pipeline) :
    p.outcome .server e = .filtered := if_pos ⟨rfl, h⟩

theorem submit_of_isLoad {e : Event} (h : e.signal.isLoad = true) (p : Pipeline) :
    p.submit .server e = (.filtered, p) := by
  rw [submit_eq, outcome_of_isLoad h]
  rfl

/-- The mode matters for events about the loading of the page only. -/
theorem submit_of_not_isLoad {e : Event} (h : e.signal.isLoad = false) (p : Pipeline) :
    p.submit .client e = p.submit .server e := by
  have houtcome : p.outcome .client e = p.outcome .server e := by
    simp [outcome, h]
  rw [submit_eq, submit_eq, houtcome]

/-- **A partner who tells of the loading** makes the difference that those events are never
submitted. -/
theorem traceless_load : Traceless (step .server) (step .client) fun m => m.action.tellsLoad := by
  constructor
  · intro p a hload
    cases a with
    | submit e => simp only [step, submit_of_isLoad (e := e) hload]
    | flush => cases hload
    | fire w => cases hload
  · intro p a hload
    cases a with
    | submit e => rfl
    | flush => cases hload
    | fire w => cases hload
  · intro p a hkeep
    cases a with
    | submit e => simp only [step, submit_of_not_isLoad (e := e) hkeep]
    | flush => rfl
    | fire w => rfl

end Pipeline

namespace Timeline

open Pipeline (submit_of_isLoad submit_of_not_isLoad)

/-! ### The same on a clock -/

theorem play_eq_moments (mode : IntegrationMode) (delay : Nat) (t : Timeline) (moves : List Move) :
    t.play mode delay moves =
      ((moments (move mode delay) t moves).map Moment.reaction,
        stateAfter t (moments (move mode delay) t moves)) := by
  induction moves generalizing t with
  | nil => rfl
  | cons m moves ih =>
      rw [play, ih]
      rfl

/-- Whether the move submits an event about the loading of the page. -/
def Move.tellsLoad (m : Move) : Bool := m.event?.any fun e => e.signal.isLoad

/-- **Dropped events leave no trace** on the clock either, and move no deadline. -/
theorem traceless_dropped (mode : IntegrationMode) (delay : Nat) :
    Traceless (move mode delay) (move mode delay) fun m => m.reaction.isDropped := by
  constructor
  · intro t m hdrop
    cases m with
    | submit e =>
        have hne : (t.submit mode delay e).1 ≠ .queued :=
          (Reaction.isDropped_of_ne_queued rfl).1 hdrop
        exact submit_of_ne_queued mode delay hne
    | flush => cases hdrop
    | advance ms => cases hdrop
  · intro t m hdrop
    cases m with
    | submit e => rfl
    | flush => cases hdrop
    | advance ms => cases hdrop
  · intro _ _ _
    rfl

/-- Nor do events about the loading of the page, where the partner tells of it. -/
theorem traceless_load (delay : Nat) :
    Traceless (move .server delay) (move .client delay) fun m => m.action.tellsLoad := by
  constructor
  · intro t m hload
    cases m with
    | submit e => simp [move, submit, submit_of_isLoad (e := e) hload]
    | flush => cases hload
    | advance ms => cases hload
  · intro t m hload
    cases m with
    | submit e => rfl
    | flush => cases hload
    | advance ms => cases hload
  · intro t m hkeep
    cases m with
    | submit e => simp [move, submit, submit_of_not_isLoad (e := e) hkeep]
    | flush => rfl
    | advance ms => rfl

end Timeline

/-! ### Runs without dropped events -/

namespace Pipeline

/-- **Dropped events are invisible.**  From any state, a run without the submissions that were
filtered or duplicates has the remaining moments of the run, each with its answer and the state
after it; so the batches are the same, and so is the last state.  The same holds of a run where the
partner tells of the loading of the page, and the run of a pipeline without a partner to which the
events about the loading are not submitted.  And both hold on a clock, with the instant at which the
timer is due in the state, whatever the delay and however the clock moves. -/
theorem dropped_leave_no_trace (mode : IntegrationMode) (delay : Nat) :
    (∀ (p : Pipeline) (actions : List Action),
      let kept := (moments (step mode) p actions).filter fun m => !m.reaction.isDropped
      moments (step mode) p (kept.map Moment.action) = kept ∧
        (p.run mode (kept.map Moment.action)).2 = (p.run mode actions).2 ∧
        batches (p.run mode (kept.map Moment.action)).1 = batches (p.run mode actions).1) ∧
    (∀ (p : Pipeline) (actions : List Action),
      let kept := actions.filter fun a => !a.tellsLoad
      moments (step .client) p kept =
          (moments (step .server) p actions).filter (fun m => !m.action.tellsLoad) ∧
        (p.run .client kept).2 = (p.run .server actions).2 ∧
        batches (p.run .client kept).1 = batches (p.run .server actions).1) ∧
    (∀ (t : Timeline) (moves : List Timeline.Move),
      let kept := (moments (Timeline.move mode delay) t moves).filter fun m => !m.reaction.isDropped
      moments (Timeline.move mode delay) t (kept.map Moment.action) = kept ∧
        (t.play mode delay (kept.map Moment.action)).2 = (t.play mode delay moves).2 ∧
        batches (t.play mode delay (kept.map Moment.action)).1 =
          batches (t.play mode delay moves).1) ∧
    ∀ (t : Timeline) (moves : List Timeline.Move),
      let kept := moves.filter fun m => !m.tellsLoad
      moments (Timeline.move .client delay) t kept =
          (moments (Timeline.move .server delay) t moves).filter (fun m => !m.action.tellsLoad) ∧
        (t.play .client delay kept).2 = (t.play .server delay moves).2 ∧
        batches (t.play .client delay kept).1 = batches (t.play .server delay moves).1 := by
  have hrun := run_eq_moments
  have hplay := fun mode => Timeline.play_eq_moments mode delay
  refine ⟨?_, ?_, ?_, ?_⟩
  · intro p actions
    exact (traceless_dropped mode).kept (hrun mode) (hrun mode) rfl
  · intro p actions
    have hkept := map_action_filter (step .server) (fun a => !a.tellsLoad) p actions
    exact traceless_load.kept (hrun .server) (hrun .client) hkept
  · intro t moves
    exact (Timeline.traceless_dropped mode delay).kept (hplay mode) (hplay mode) rfl
  · intro t moves
    have hkept := map_action_filter (Timeline.move .server delay) (fun m => !m.tellsLoad) t moves
    exact (Timeline.traceless_load delay).kept (hplay .server) (hplay .client) hkept

end Pipeline

end OfferLayout
