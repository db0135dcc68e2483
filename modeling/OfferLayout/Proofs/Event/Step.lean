/-
**What one step does to the pipeline.**

A submission either puts the event at the end of what is pending or changes nothing; a timer either
closes the window or changes nothing.  What follows for runs is proved from these two alternatives
and from what a flush does, not from the definitions of the steps.

Main results:

* `Pipeline.pending_enqueue`, `Pipeline.seen_enqueue` — an event that is queued waits behind those
  that are pending, and its key is remembered;
* `Pipeline.enqueue_of_armed`, `Pipeline.enqueue_of_not_armed` — it opens a window if none is open;
* `Pipeline.submit_eq` — a submission changes the pipeline only if the event is queued;
* `Pipeline.fire_cases` — **a timer that fires is a flush, or nothing happens**;
* `Pipeline.step_cases` — **what a step can do**;
* `Pipeline.run_keeps` — what every step keeps, a run keeps.
-/

import OfferLayout.Event.Pipeline

set_option relaxedAutoImplicit false
set_option autoImplicit false

namespace OfferLayout

namespace Pipeline

/-! ### Queueing an event -/

@[simp] theorem pending_openWindow (p : Pipeline) : p.openWindow.pending = p.pending := by
  unfold openWindow
  split <;> rfl

/-- An event that is queued waits behind those that are pending. -/
@[simp] theorem pending_enqueue (p : Pipeline) (e : Event) :
    (p.enqueue e).pending = p.pending ++ [e] := by
  rw [enqueue, pending_openWindow]

@[simp] theorem seen_openWindow (p : Pipeline) : p.openWindow.seen = p.seen := by
  unfold openWindow
  split <;> rfl

/-- The key of an event that is queued is remembered, unless its signal is repeatable. -/
@[simp] theorem seen_enqueue (p : Pipeline) (e : Event) :
    (p.enqueue e).seen = if e.signal.isRepeatable then p.seen else e.key :: p.seen := by
  rw [enqueue, seen_openWindow, remember]
  split <;> rfl

@[simp] theorem timer_remember (p : Pipeline) (e : Event) : (p.remember e).timer = p.timer := by
  unfold remember
  split <;> rfl

@[simp] theorem window_remember (p : Pipeline) (e : Event) : (p.remember e).window = p.window := by
  unfold remember
  split <;> rfl

/-- Where a timer is armed, an event that is queued leaves it alone. -/
theorem enqueue_of_armed {p : Pipeline} {w : UInt64} (h : p.timer = some w) (e : Event) :
    (p.enqueue e).timer = some w ∧ (p.enqueue e).window = p.window := by
  simp [enqueue, openWindow, h]

/-- Where none is armed, it opens the next window. -/
theorem enqueue_of_not_armed {p : Pipeline} (h : p.timer = none) (e : Event) :
    (p.enqueue e).timer = some (p.window + 1) ∧ (p.enqueue e).window = p.window + 1 := by
  simp [enqueue, openWindow, h]

/-! ### The alternatives of a step -/

/-- An event is queued unless it is left to the partner, or its key is remembered. -/
theorem outcome_eq_queued_iff {mode : IntegrationMode} {p : Pipeline} {e : Event} :
    p.outcome mode e = .queued ↔
      ¬ (mode = .server ∧ e.signal.isLoad = true) ∧
        (e.signal.isRepeatable = false → e.key ∉ p.seen) := by
  unfold outcome
  split
  · simp_all
  · split <;> simp_all

/-- A submission changes the pipeline only if the event is queued. -/
theorem submit_eq (mode : IntegrationMode) (p : Pipeline) (e : Event) :
    p.submit mode e =
      (p.outcome mode e, if p.outcome mode e = .queued then p.enqueue e else p) := by
  unfold submit
  cases p.outcome mode e <;> rfl

/-- **A timer that fires is a flush, or nothing happens.** -/
theorem fire_cases (p : Pipeline) (window : UInt64) :
    p.fire window = p.flush ∨ p.fire window = ([], p) := by
  unfold fire
  split
  · exact Or.inl rfl
  · exact Or.inr rfl

/-- **What a step can do**: it queues an event; it drops one; it takes what is pending, by a flush
or by the timer of the open window; or it is a timer that finds another window, or none, and nothing
happens. -/
theorem step_cases (mode : IntegrationMode) (p : Pipeline) (a : Action) :
    (∃ e, a = .submit e ∧ p.outcome mode e = .queued ∧
      p.step mode a = ({ outcome := some .queued }, p.enqueue e)) ∨
    (∃ e, a = .submit e ∧ p.outcome mode e ≠ .queued ∧
      p.step mode a = ({ outcome := some (p.outcome mode e) }, p)) ∨
    ((a = .flush ∨ a = .fire p.window ∧ p.timer.isSome = true) ∧
      p.step mode a = ({ batch := p.pending }, { p with pending := [], timer := none })) ∨
    ∃ window, a = .fire window ∧ ¬ (p.window = window ∧ p.timer.isSome = true) ∧
      p.step mode a = ({}, p) := by
  cases a with
  | submit e =>
      by_cases h : p.outcome mode e = .queued
      · exact Or.inl ⟨e, rfl, h, by simp [step, submit_eq, h]⟩
      · exact Or.inr (Or.inl ⟨e, rfl, h, by simp [step, submit_eq, h]⟩)
  | flush => exact Or.inr (Or.inr (Or.inl ⟨Or.inl rfl, rfl⟩))
  | fire window =>
      by_cases h : p.window = window ∧ p.timer.isSome = true
      · obtain ⟨rfl, htimer⟩ := h
        exact Or.inr (Or.inr (Or.inl ⟨Or.inr ⟨rfl, htimer⟩, by simp [step, fire, flush, htimer]⟩))
      · exact Or.inr (Or.inr (Or.inr ⟨window, rfl, h, by simp [step, fire, h]⟩))

/-- What every step keeps, a run keeps. -/
theorem run_keeps {mode : IntegrationMode} {P : Pipeline → Prop}
    (hstep : ∀ p a, P p → P (p.step mode a).2) {p : Pipeline} (hp : P p) (actions : List Action) :
    P (p.run mode actions).2 := by
  induction actions generalizing p with
  | nil => exact hp
  | cons a actions ih => exact ih (hstep p a hp)

end Pipeline

end OfferLayout
