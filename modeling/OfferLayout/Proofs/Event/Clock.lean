/-
**Runs on a clock.**

A run becomes one in time when every step has an instant.  The instants must not decrease, and the
timer of the open window must fire when it is due, neither before nor after; nothing is said about
the order of steps at one instant, or about the timers of windows that were closed.  What such a run
does is what the run does without a clock: the clock only decides which runs can be.

The clock that moves when it is told to is one way to get such a run.

Main definitions:

* `Timeline.occur` — **a step at an instant**;
* `Timeline.Allows`, `Timeline.Punctual` — the steps and the runs that a clock allows;
* `Timeline.Move`, `Timeline.move`, `Timeline.play` — moving the clock, and what happens meanwhile;
* `Timeline.stepsOf` — the steps that make up a play.

Main results:

* `Timeline.pipeline_occur` — a step at an instant is a step;
* `Timeline.submit_of_ne_queued` — **what is not queued opens no window and moves no deadline**;
* `Timeline.due_submit_of_armed` — while a window is open, its timer stays due at the same instant;
* `Timeline.play_eq_run`, `Timeline.punctual_stepsOf` — **a play is a run that the clock allows**.
-/

import OfferLayout.Event.Timeline
import OfferLayout.Proofs.Event.Conservation

set_option relaxedAutoImplicit false
set_option autoImplicit false

namespace OfferLayout

namespace Timeline

open Pipeline (Action Reaction batches batches_cons)

/-! ### Steps at instants -/

/-- The timer of a window fires.  If that closes the window, no timer is due. -/
def fire (t : Timeline) (window : UInt64) : List Event × Timeline :=
  let r := t.pipeline.fire window
  (r.1, { t with pipeline := r.2, due := if r.2.timer.isSome then t.due else none })

/-- **A step at an instant**, at which the clock then stands. -/
def occur (mode : IntegrationMode) (delay : Nat) (t : Timeline) (x : Nat × Action) :
    Reaction × Timeline :=
  let t := { t with now := x.1 }
  match x.2 with
  | .submit e => ({ outcome := some (t.submit mode delay e).1 }, (t.submit mode delay e).2)
  | .flush => ({ batch := t.flush.1 }, t.flush.2)
  | .fire window => ({ batch := (t.fire window).1 }, (t.fire window).2)

/-- Whether a step may come next at its instant: that is not in the past, not after the instant at
which a timer is due, and that very instant if the timer of the last window fires. -/
def Allows (t : Timeline) (x : Nat × Action) : Prop :=
  t.now ≤ x.1 ∧ ∀ due ∈ t.due, x.1 ≤ due ∧ (x.2 = .fire t.pipeline.window → x.1 = due)

instance (t : Timeline) (x : Nat × Action) : Decidable (t.Allows x) :=
  inferInstanceAs (Decidable (t.now ≤ x.1 ∧
    ∀ due ∈ t.due, x.1 ≤ due ∧ (x.2 = .fire t.pipeline.window → x.1 = due)))

/-- **The runs that the clock allows**, when it is last looked at at the instant `finish`; no timer
may be overdue then. -/
def Punctual (mode : IntegrationMode) (delay finish : Nat) (t : Timeline) :
    List (Nat × Action) → Prop
  | [] => t.now ≤ finish ∧ ∀ due ∈ t.due, finish ≤ due
  | x :: rest => t.Allows x ∧ Punctual mode delay finish (t.occur mode delay x).2 rest

instance decidablePunctual (mode : IntegrationMode) (delay finish : Nat) :
    ∀ (t : Timeline) (xs : List (Nat × Action)), Decidable (Punctual mode delay finish t xs)
  | t, [] => inferInstanceAs (Decidable (t.now ≤ finish ∧ ∀ due ∈ t.due, finish ≤ due))
  | t, x :: rest =>
      have := decidablePunctual mode delay finish (t.occur mode delay x).2 rest
      inferInstanceAs (Decidable (t.Allows x ∧ _))

section
variable (mode : IntegrationMode) (delay : Nat)

/-- **A step at an instant is a step.** -/
theorem pipeline_occur (t : Timeline) (x : Nat × Action) :
    (t.occur mode delay x).1 = (t.pipeline.step mode x.2).1 ∧
      (t.occur mode delay x).2.pipeline = (t.pipeline.step mode x.2).2 := by
  obtain ⟨instant, a⟩ := x
  cases a <;> exact ⟨rfl, rfl⟩

@[simp] theorem now_occur (t : Timeline) (x : Nat × Action) :
    (t.occur mode delay x).2.now = x.1 := by
  obtain ⟨instant, a⟩ := x
  cases a <;> rfl

/-- Where the clock stood before a step does not matter, and it stands at its instant after it. -/
theorem withNow_occur (t : Timeline) (x : Nat × Action) {earlier : Nat} :
    { (t.occur mode delay x).2 with now := x.1 } =
      ({ t with now := earlier }.occur mode delay x).2 := by
  obtain ⟨instant, a⟩ := x
  cases a <;> rfl

/-- The instants of a run do not decrease. -/
theorem Punctual.le_of_mem {finish : Nat} {xs : List (Nat × Action)} {t : Timeline}
    (h : Punctual mode delay finish t xs) : t.now ≤ finish ∧ ∀ x ∈ xs, t.now ≤ x.1 := by
  induction xs generalizing t with
  | nil => exact ⟨h.1, by simp⟩
  | cons x xs ih =>
      obtain ⟨hfinish, hrest⟩ := ih h.2
      rw [now_occur] at hfinish hrest
      have hx : t.now ≤ x.1 := h.1.1
      refine ⟨Nat.le_trans hx hfinish, ?_⟩
      rintro y (_ | ⟨_, hy⟩)
      · exact hx
      · exact Nat.le_trans hx (hrest y hy)

/-! ### When the timer is due -/

/-- **What is not queued neither opens a window nor moves a deadline**: it changes nothing. -/
theorem submit_of_ne_queued {t : Timeline} {e : Event} (h : (t.submit mode delay e).1 ≠ .queued) :
    (t.submit mode delay e).2 = t := by
  rw [submit_outcome, Pipeline.submit_eq] at h
  simp [submit, Pipeline.submit_eq, h]

/-- While a window is open, an event that is submitted leaves its deadline alone. -/
theorem due_submit_of_armed {t : Timeline} (h : t.pipeline.timer.isSome = true) (e : Event) :
    (t.submit mode delay e).2.due = t.due := by
  obtain ⟨w, hw⟩ := Option.isSome_iff_exists.1 h
  by_cases hq : t.pipeline.outcome mode e = .queued
  · simp [submit, Pipeline.submit_eq, hq, (Pipeline.enqueue_of_armed hw e).1, hw]
  · simp [submit, Pipeline.submit_eq, hq]

/-- An event that is queued while no window is open makes the timer due after the given time. -/
theorem due_submit_of_queued {t : Timeline} (h : t.pipeline.timer = none) {e : Event}
    (hq : t.pipeline.outcome mode e = .queued) :
    (t.submit mode delay e).2.due = some (t.now + delay) := by
  simp [submit, Pipeline.submit_eq, hq, (Pipeline.enqueue_of_not_armed h e).1, h]

end

/-! ### Moving the clock -/

/-- What can be done to a clock that moves only when it is told to. -/
inductive Move where
  /-- An event is submitted. -/
  | submit (e : Event)
  /-- The window is closed. -/
  | flush
  /-- The clock moves. -/
  | advance (ms : Nat)
deriving DecidableEq

/-- The event that a move submits. -/
def Move.event? : Move → Option Event
  | .submit e => some e
  | .flush => none
  | .advance _ => none

variable (mode : IntegrationMode) (delay : Nat)

/-- One move. -/
def move (t : Timeline) : Move → Reaction × Timeline
  | .submit e => ({ outcome := some (t.submit mode delay e).1 }, (t.submit mode delay e).2)
  | .flush => ({ batch := t.flush.1 }, t.flush.2)
  | .advance ms => ({ batch := (t.advance ms).1 }, (t.advance ms).2)

/-- **Any number of moves.** -/
def play (t : Timeline) : List Move → List Reaction × Timeline
  | [] => ([], t)
  | m :: rest =>
      let r := t.move mode delay m
      let rs := play r.2 rest
      (r.1 :: rs.1, rs.2)

/-- The step that a move makes, if any, and its instant. -/
def stepOf (t : Timeline) : Move → Option (Nat × Action)
  | .submit e => some (t.now, .submit e)
  | .flush => some (t.now, .flush)
  | .advance ms =>
      t.due.bind fun due =>
        if due ≤ t.now + ms then some (due, .fire t.pipeline.window) else none

/-- **The steps that make up a play.** -/
def stepsOf (t : Timeline) : List Move → List (Nat × Action)
  | [] => []
  | m :: rest => (t.stepOf m).toList ++ stepsOf (t.move mode delay m).2 rest

/-- After the timer of the last window has fired, none is armed. -/
theorem timer_fire_window (p : Pipeline) : (p.fire p.window).2.timer = none := by
  cases htimer : p.timer <;> simp [Pipeline.fire, Pipeline.flush, htimer]

/-- **A move is its step**, after which the clock may move on; one without a step only moves the
clock. -/
theorem move_cases (t : Timeline) (m : Move) :
    (∃ x later, t.stepOf m = some x ∧ x.1 ≤ later ∧
      t.move mode delay m =
        ((t.occur mode delay x).1, { (t.occur mode delay x).2 with now := later })) ∨
    ∃ later, t.stepOf m = none ∧ t.now ≤ later ∧
      t.move mode delay m = ({}, { t with now := later }) := by
  cases m with
  | submit e => exact Or.inl ⟨(t.now, .submit e), t.now, rfl, Nat.le_refl _, rfl⟩
  | flush => exact Or.inl ⟨(t.now, .flush), t.now, rfl, Nat.le_refl _, rfl⟩
  | advance ms =>
      cases hdue : t.due with
      | none =>
          refine Or.inr ⟨t.now + ms, ?_, Nat.le_add_right _ _, ?_⟩
          · simp [stepOf, hdue]
          · simp [move, advance, hdue]
      | some due =>
          by_cases hle : due ≤ t.now + ms
          · refine Or.inl ⟨(due, .fire t.pipeline.window), t.now + ms, ?_, hle, ?_⟩
            · simp [stepOf, hdue, hle]
            · simp [move, advance, occur, fire, hdue, hle, timer_fire_window]
          · refine Or.inr ⟨t.now + ms, ?_, Nat.le_add_right _ _, ?_⟩
            · simp [stepOf, hdue, hle]
            · simp [move, advance, hdue, hle]

/-- **A play does what its steps do.** -/
theorem play_eq_run (t : Timeline) (moves : List Move) :
    (t.play mode delay moves).2.pipeline =
        (t.pipeline.run mode ((t.stepsOf mode delay moves).map Prod.snd)).2 ∧
      batches (t.play mode delay moves).1 =
        batches (t.pipeline.run mode ((t.stepsOf mode delay moves).map Prod.snd)).1 ∧
      (t.play mode delay moves).1.filterMap Reaction.outcome =
        (t.pipeline.run mode ((t.stepsOf mode delay moves).map Prod.snd)).1.filterMap
          Reaction.outcome := by
  induction moves generalizing t with
  | nil => exact ⟨rfl, rfl, rfl⟩
  | cons m moves ih =>
      have hrest := ih (t.move mode delay m).2
      rcases move_cases mode delay t m with ⟨x, later, hstep, -, hmove⟩ | ⟨later, hstep, -, hmove⟩
      · have hreaction : (t.move mode delay m).1 = (t.pipeline.step mode x.2).1 := by
          rw [hmove]
          exact (pipeline_occur mode delay t x).1
        have hpipeline : (t.move mode delay m).2.pipeline = (t.pipeline.step mode x.2).2 := by
          rw [hmove]
          exact (pipeline_occur mode delay t x).2
        rw [hpipeline] at hrest
        obtain ⟨hlast, hsent, houtcomes⟩ := hrest
        simp only [play, stepsOf, hstep, Option.toList_some, List.singleton_append, List.map_cons,
          Pipeline.run, hreaction]
        refine ⟨hlast, ?_, ?_⟩
        · rw [batches_cons, hsent, ← batches_cons]
        · rw [List.filterMap_cons, List.filterMap_cons, houtcomes]
      · have hreaction : (t.move mode delay m).1 = {} := by rw [hmove]
        have hpipeline : (t.move mode delay m).2.pipeline = t.pipeline := by rw [hmove]
        rw [hpipeline] at hrest
        simp only [play, stepsOf, hstep, Option.toList_none, List.nil_append, hreaction]
        exact hrest

/-! ### A clock that moves is punctual -/

/-- No timer is overdue. -/
def IsTimely (t : Timeline) : Prop := ∀ due ∈ t.due, t.now ≤ due

variable {mode delay}

theorem IsTimely.move {t : Timeline} (ht : t.IsTimely) (m : Move) :
    (t.move mode delay m).2.IsTimely := by
  cases m with
  | submit e =>
      intro due hdue
      simp only [Timeline.move, submit] at hdue ⊢
      split at hdue
      · exact ht due hdue
      · have heq : t.now + delay = due := Option.some.inj hdue
        omega
  | flush =>
      intro due hdue
      exact absurd hdue (by simp [Timeline.move, flush])
  | advance ms =>
      intro due hdue
      rw [Timeline.move, advance] at hdue ⊢
      cases hold : t.due with
      | none => simp [hold] at hdue
      | some due' =>
          by_cases hle : due' ≤ t.now + ms
          · simp [hold, hle] at hdue
          · obtain rfl : due' = due := by simpa [hold, hle] using hdue
            simpa [hold, hle] using Nat.le_of_lt (Nat.lt_of_not_le hle)

/-- The step of a move is one that the clock allows. -/
theorem IsTimely.allows {t : Timeline} (ht : t.IsTimely) {m : Move} {x : Nat × Action}
    (h : t.stepOf m = some x) : t.Allows x := by
  cases m with
  | submit e =>
      obtain rfl := Option.some.inj h
      exact ⟨Nat.le_refl _, fun due hdue => ⟨ht due hdue, by simp⟩⟩
  | flush =>
      obtain rfl := Option.some.inj h
      exact ⟨Nat.le_refl _, fun due hdue => ⟨ht due hdue, by simp⟩⟩
  | advance ms =>
      obtain ⟨due, hdue, hx⟩ := Option.bind_eq_some_iff.1 h
      obtain ⟨-, hx⟩ := Option.ite_none_right_eq_some.1 hx
      obtain rfl := Option.some.inj hx
      refine ⟨ht due hdue, ?_⟩
      intro due' hdue'
      obtain rfl : due = due' := Option.some.inj (hdue.symm.trans hdue')
      exact ⟨Nat.le_refl _, fun _ => rfl⟩

/-- **A play is a run that the clock allows.** -/
theorem punctual_stepsOf {t : Timeline} (ht : t.IsTimely) {earlier : Nat} (h : earlier ≤ t.now)
    (moves : List Move) :
    Punctual mode delay (t.play mode delay moves).2.now { t with now := earlier }
      (t.stepsOf mode delay moves) := by
  induction moves generalizing t earlier with
  | nil => exact ⟨h, ht⟩
  | cons m moves ih =>
      have hnext : (t.move mode delay m).2.IsTimely := ht.move m
      rw [play, stepsOf]
      rcases move_cases mode delay t m with ⟨x, later, hstep, hlater, hmove⟩ |
        ⟨later, hstep, hlater, hmove⟩
      · obtain ⟨hx, hdue⟩ := ht.allows hstep
        have hle : x.1 ≤ (t.move mode delay m).2.now := by
          rw [hmove]
          exact hlater
        have hrest := ih hnext hle
        have hclock : { (t.move mode delay m).2 with now := x.1 } =
            ({ t with now := earlier }.occur mode delay x).2 := by
          rw [hmove]
          exact withNow_occur mode delay t x
        rw [hclock] at hrest
        rw [hstep, Option.toList_some, List.singleton_append]
        exact ⟨⟨Nat.le_trans h hx, hdue⟩, hrest⟩
      · have hle : earlier ≤ (t.move mode delay m).2.now := by
          rw [hmove]
          exact Nat.le_trans h hlater
        have hrest := ih hnext hle
        rw [hstep, Option.toList_none, List.nil_append]
        rw [hmove] at hrest ⊢
        exact hrest

end Timeline

end OfferLayout
