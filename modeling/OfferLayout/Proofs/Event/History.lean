/-
**What becomes of an event depends on the events before it.**

The pipeline remembers keys, and forgets none: not at a flush, and not when a timer fires.  So what
becomes of a submitted event can be told from the events that were submitted before it, and from the
mode; neither the windows nor the clock have a part in it.  Of events with one key, unless they may
be repeated, just the first is queued.

Main definitions:

* `Event.Repeats` — **two events are taken for the same one**;
* `Pipeline.submitted`, `Pipeline.answered` — the events that a run submits, and the answers;
* `Pipeline.outcomeAfter`, `Pipeline.outcomesAfter` — **the answers, told from the events alone**;
* `Pipeline.Recalls` — what the remembered keys say about the earlier events.

Main results:

* `Pipeline.Recalls.step` — every step keeps the memory;
* `Pipeline.answered_run`, `Pipeline.outcomes_play` — **the answers follow from the events**, in a
  run and on a clock;
* `Pipeline.seen_run`, `Pipeline.nodup_seen` — the remembered keys are those of the queued events,
  each of them once;
* `Pipeline.outcomes_of_history` — the whole of it.
-/

import Mathlib.Data.Finset.Card
import OfferLayout.Proofs.Event.Batch
import OfferLayout.Proofs.Event.Clock

set_option relaxedAutoImplicit false
set_option autoImplicit false

namespace OfferLayout

/-- **One event repeats another**: they agree in the session, the parent, the signal, the appearance
of the page, and the data in order. -/
def Event.Repeats (e d : Event) : Prop :=
  e.sessionId = d.sessionId ∧ e.parentGuid = d.parentGuid ∧ e.signal = d.signal ∧
    e.pageInstanceGuid = d.pageInstanceGuid ∧ e.data = d.data

theorem Event.key_eq_iff {e d : Event} : e.key = d.key ↔ e.Repeats d := by
  rw [key, key, Key.mk.injEq, Repeats]

namespace Pipeline

/-! ### Answers -/

/-- The event that a step submits. -/
def Action.event? : Action → Option Event
  | .submit e => some e
  | .flush => none
  | .fire _ => none

/-- The events that a run submits, in order. -/
def submitted (actions : List Action) : List Event := actions.filterMap Action.event?

/-- The event of a step and the answer to it. -/
def Action.answer? (a : Action) (r : Reaction) : Option (Event × Outcome) :=
  a.event?.bind fun e => r.outcome.map fun o => (e, o)

/-- **The events that a run submits, and what became of them**, in order. -/
def answered (actions : List Action) (reactions : List Reaction) : List (Event × Outcome) :=
  (actions.zip reactions).filterMap fun x => x.1.answer? x.2

theorem answered_cons (a : Action) (actions : List Action) (r : Reaction)
    (reactions : List Reaction) :
    answered (a :: actions) (r :: reactions) =
      (a.answer? r).toList ++ answered actions reactions := by
  rw [answered, List.zip_cons_cons, List.filterMap_cons]
  cases a.answer? r <;> rfl

theorem submitted_cons (a : Action) (actions : List Action) :
    submitted (a :: actions) = a.event?.toList ++ submitted actions := by
  rw [submitted, List.filterMap_cons]
  cases a.event? <;> rfl

/-! ### Answers from the events alone -/

/-- **What becomes of an event** after earlier ones. -/
def outcomeAfter (mode : IntegrationMode) (earlier : List Event) (e : Event) : Outcome :=
  if mode = .server ∧ e.signal.isLoad then .filtered
  else if e.signal.isRepeatable = false ∧ ∃ d ∈ earlier, e.key = d.key then .duplicate
  else .queued

/-- **What becomes of events**, one after the other. -/
def outcomesAfter (mode : IntegrationMode) (earlier : List Event) :
    List Event → List (Event × Outcome)
  | [] => []
  | e :: rest => (e, outcomeAfter mode earlier e) :: outcomesAfter mode (earlier ++ [e]) rest

theorem map_fst_outcomesAfter (mode : IntegrationMode) (earlier events : List Event) :
    (outcomesAfter mode earlier events).map Prod.fst = events := by
  induction events generalizing earlier with
  | nil => rfl
  | cons e events ih => rw [outcomesAfter, List.map_cons, ih]

/-- The answer to one event depends on the events before it. -/
theorem eq_outcomeAfter {mode : IntegrationMode} {earlier events : List Event}
    {before after : List (Event × Outcome)} {e : Event} {o : Outcome}
    (h : outcomesAfter mode earlier events = before ++ (e, o) :: after) :
    o = outcomeAfter mode (earlier ++ before.map Prod.fst) e := by
  induction events generalizing earlier before with
  | nil => simp [outcomesAfter] at h
  | cons d events ih =>
      cases before with
      | nil =>
          rw [outcomesAfter, List.nil_append, List.cons.injEq, Prod.mk.injEq] at h
          obtain ⟨⟨rfl, rfl⟩, -⟩ := h
          rw [List.map_nil, List.append_nil]
      | cons x before =>
          rw [outcomesAfter, List.cons_append, List.cons.injEq] at h
          obtain ⟨rfl, hrest⟩ := h
          rw [ih hrest, List.map_cons, List.append_assoc, List.singleton_append]

theorem outcomeAfter_eq_filtered_iff {mode : IntegrationMode} {earlier : List Event} {e : Event} :
    outcomeAfter mode earlier e = .filtered ↔ mode = .server ∧ e.signal.isLoad = true := by
  unfold outcomeAfter
  split
  · simp_all
  · split <;> simp_all

theorem outcomeAfter_eq_duplicate_iff {mode : IntegrationMode} {earlier : List Event} {e : Event} :
    outcomeAfter mode earlier e = .duplicate ↔
      ¬ (mode = .server ∧ e.signal.isLoad = true) ∧ e.signal.isRepeatable = false ∧
        ∃ d ∈ earlier, e.key = d.key := by
  unfold outcomeAfter
  split
  · simp_all
  · split <;> simp_all

/-! ### What the pipeline remembers -/

/-- **What the remembered keys say about the earlier events**: whether an event that is neither left
to the partner nor repeatable is among them. -/
def Recalls (mode : IntegrationMode) (earlier : List Event) (p : Pipeline) : Prop :=
  ∀ e : Event, ¬ (mode = .server ∧ e.signal.isLoad = true) → e.signal.isRepeatable = false →
    (e.key ∈ p.seen ↔ ∃ d ∈ earlier, e.key = d.key)

theorem recalls_start (mode : IntegrationMode) : Recalls mode [] {} := by
  intro e _ _
  simp

variable {mode : IntegrationMode}

theorem Recalls.outcome_eq {earlier : List Event} {p : Pipeline} (h : Recalls mode earlier p)
    (e : Event) : p.outcome mode e = outcomeAfter mode earlier e := by
  unfold outcome outcomeAfter
  split
  · rfl
  · rename_i hleft
    by_cases hrep : e.signal.isRepeatable = false
    · simp only [hrep, true_and, h e hleft hrep]
    · simp [hrep]

theorem signal_eq_of_key_eq {e d : Event} (h : e.key = d.key) : e.signal = d.signal :=
  congrArg Event.Key.signal h

/-- A submitted event joins the earlier ones, whatever becomes of it. -/
theorem Recalls.submit {earlier : List Event} {p : Pipeline} (h : Recalls mode earlier p)
    (e : Event) : Recalls mode (earlier ++ [e]) (p.submit mode e).2 := by
  intro e' hleft hrep
  have hearlier : (∃ d ∈ earlier ++ [e], e'.key = d.key) ↔ e'.key ∈ p.seen ∨ e'.key = e.key := by
    rw [h e' hleft hrep]
    simp [or_and_right, exists_or]
  rw [hearlier, submit_eq]
  by_cases hq : p.outcome mode e = .queued
  · rw [if_pos hq, seen_enqueue]
    split
    · rename_i hrepeatable
      -- an event that may be repeated has another signal
      constructor
      · exact Or.inl
      · rintro (hmem | hkey)
        · exact hmem
        · rw [signal_eq_of_key_eq hkey, hrepeatable] at hrep
          cases hrep
    · rw [List.mem_cons, or_comm]
  · rw [if_neg hq]
    constructor
    · exact Or.inl
    · rintro (hmem | hkey)
      · exact hmem
      · rw [signal_eq_of_key_eq hkey] at hleft hrep
        rw [outcome_eq_queued_iff, not_and] at hq
        have hmem : ¬ e.key ∉ p.seen := fun hnew => hq hleft fun _ => hnew
        rw [hkey]
        exact Decidable.not_not.1 hmem

theorem Recalls.step {earlier : List Event} {p : Pipeline} (h : Recalls mode earlier p)
    (a : Action) : Recalls mode (earlier ++ a.event?.toList) (p.step mode a).2 := by
  cases a with
  | submit e => exact h.submit e
  | flush =>
      rw [Action.event?, Option.toList_none, List.append_nil]
      exact h
  | fire w =>
      rw [Action.event?, Option.toList_none, List.append_nil]
      rcases p.fire_cases w with hw | hw
      · rw [Pipeline.step, hw]
        exact h
      · rw [Pipeline.step, hw]
        exact h

/-- **The answers of a run follow from the events.** -/
theorem answered_run {earlier : List Event} {p : Pipeline} (h : Recalls mode earlier p)
    (actions : List Action) :
    answered actions (p.run mode actions).1 = outcomesAfter mode earlier (submitted actions) := by
  induction actions generalizing p earlier with
  | nil => rfl
  | cons a actions ih =>
      have hrest := ih (h.step a)
      rw [run, answered_cons, submitted_cons, hrest]
      cases a with
      | submit e =>
          have houtcome := h.outcome_eq e
          simp only [step, submit_eq, houtcome, Action.answer?, Action.event?, Option.bind_some,
            Option.map_some, Option.toList_some, List.singleton_append, outcomesAfter]
      | flush =>
          rw [Action.event?, Option.toList_none, List.append_nil, List.nil_append]
          rfl
      | fire w =>
          rw [Action.event?, Option.toList_none, List.append_nil, List.nil_append]
          rfl

/-- A step has an outcome exactly if it submits an event. -/
theorem map_snd_answered (mode : IntegrationMode) (p : Pipeline) (actions : List Action) :
    (answered actions (p.run mode actions).1).map Prod.snd =
      (p.run mode actions).1.filterMap Reaction.outcome := by
  induction actions generalizing p with
  | nil => rfl
  | cons a actions ih =>
      rw [run, answered_cons, List.map_append, ih, List.filterMap_cons]
      cases a <;> rfl

/-- The steps of a play submit the events of its moves. -/
theorem submitted_stepsOf (mode : IntegrationMode) (delay : Nat) (t : Timeline)
    (moves : List Timeline.Move) :
    submitted ((t.stepsOf mode delay moves).map Prod.snd) =
      moves.filterMap Timeline.Move.event? := by
  induction moves generalizing t with
  | nil => rfl
  | cons m moves ih =>
      have hstep : submitted ((t.stepOf m).toList.map Prod.snd) = m.event?.toList := by
        cases m with
        | submit e => rfl
        | flush => rfl
        | advance ms =>
            cases hx : t.stepOf (.advance ms) with
            | none => rfl
            | some x =>
                obtain ⟨due, -, hdue⟩ := Option.bind_eq_some_iff.1 hx
                obtain ⟨-, hfire⟩ := Option.ite_none_right_eq_some.1 hdue
                rw [← Option.some.inj hfire]
                rfl
      have hrest := ih (t.move mode delay m).2
      rw [submitted] at hstep hrest ⊢
      rw [Timeline.stepsOf, List.map_append, List.filterMap_append, hstep, hrest,
        List.filterMap_cons]
      cases m.event? <;> rfl

/-- **So do those of a clock**, whatever the delay and however the clock moves. -/
theorem outcomes_play (mode : IntegrationMode) (delay : Nat) (moves : List Timeline.Move) :
    (Timeline.play mode delay {} moves).1.filterMap Reaction.outcome =
      (outcomesAfter mode [] (moves.filterMap Timeline.Move.event?)).map Prod.snd := by
  obtain ⟨-, -, houtcomes⟩ := Timeline.play_eq_run mode delay {} moves
  rw [houtcomes, ← map_snd_answered, answered_run (recalls_start mode), submitted_stepsOf]

/-! ### The remembered keys -/

/-- The keys that the pipeline remembers of events. -/
def keysOf (events : List Event) : List Event.Key :=
  (events.filter fun e => !e.signal.isRepeatable).map Event.key

theorem keysOf_append (l m : List Event) : keysOf (l ++ m) = keysOf l ++ keysOf m := by
  rw [keysOf, List.filter_append, List.map_append, keysOf, keysOf]

theorem seen_step (mode : IntegrationMode) (p : Pipeline) (a : Action) :
    (p.step mode a).2.seen.reverse =
      p.seen.reverse ++ keysOf (a.queued? (p.step mode a).1).toList := by
  rcases step_cases mode p a with ⟨e, rfl, -, h⟩ | ⟨e, rfl, hq, h⟩ | ⟨ha, h⟩ | ⟨w, rfl, -, h⟩
  · rw [h, seen_enqueue]
    cases hrep : e.signal.isRepeatable <;> simp [Action.queued?, keysOf, hrep]
  · rw [h]
    simp [Action.queued?, hq, keysOf]
  · rw [h]
    rcases ha with rfl | ⟨rfl, -⟩ <;> simp [Action.queued?, keysOf]
  · rw [h]
    simp [Action.queued?, keysOf]

/-- **The remembered keys are those of the queued events**, except for repeatable signals. -/
theorem seen_run (mode : IntegrationMode) (p : Pipeline) (actions : List Action) :
    (p.run mode actions).2.seen.reverse =
      p.seen.reverse ++ keysOf (queuedEvents actions (p.run mode actions).1) := by
  induction actions generalizing p with
  | nil => simp [run, queuedEvents, keysOf]
  | cons a actions ih =>
      rw [run, ih, seen_step, queuedEvents_cons, keysOf_append, List.append_assoc]

/-- No key is remembered twice. -/
theorem nodup_seen_step {p : Pipeline} (hp : p.seen.Nodup) (mode : IntegrationMode) (a : Action) :
    (p.step mode a).2.seen.Nodup := by
  rcases step_cases mode p a with ⟨e, -, hq, h⟩ | ⟨e, -, -, h⟩ | ⟨-, h⟩ | ⟨w, -, -, h⟩
  · rw [h, seen_enqueue]
    have hnew := (outcome_eq_queued_iff.1 hq).2
    cases hrep : e.signal.isRepeatable with
    | true => exact hp
    | false => exact List.nodup_cons.2 ⟨hnew hrep, hp⟩
  · rw [h]
    exact hp
  · rw [h]
    exact hp
  · rw [h]
    exact hp

theorem nodup_seen (mode : IntegrationMode) (actions : List Action) :
    (run mode {} actions).2.seen.Nodup :=
  run_keeps (P := fun p => p.seen.Nodup) (fun _ a hp => nodup_seen_step hp mode a) List.nodup_nil
    actions

/-! ### What becomes of events -/

/-- An answer is that an event is left to the partner exactly if its signal tells so. -/
theorem eq_filtered_iff_of_mem {earlier events : List Event} {x : Event × Outcome}
    (h : x ∈ outcomesAfter mode earlier events) :
    x.2 = .filtered ↔ mode = .server ∧ x.1.signal.isLoad = true := by
  obtain ⟨before, after, hsplit⟩ := List.append_of_mem h
  rw [eq_outcomeAfter hsplit, outcomeAfter_eq_filtered_iff]

/-- An event is a duplicate exactly if it may not be repeated and repeats an earlier one; neither is
then left to the partner. -/
theorem eq_duplicate_iff_of_split {events : List Event} {before after : List (Event × Outcome)}
    {e : Event} {o : Outcome} (h : outcomesAfter mode [] events = before ++ (e, o) :: after) :
    o = .duplicate ↔ o ≠ .filtered ∧ e.signal.isRepeatable = false ∧
      ∃ x ∈ before, x.2 ≠ .filtered ∧ e.Repeats x.1 := by
  have hleft : o = .filtered ↔ mode = .server ∧ e.signal.isLoad = true :=
    eq_filtered_iff_of_mem (x := (e, o)) (by rw [h]; simp)
  have hearlier : ∀ x ∈ before, (x.2 = .filtered ↔ mode = .server ∧ x.1.signal.isLoad = true) :=
    fun x hx => eq_filtered_iff_of_mem (by rw [h]; exact List.mem_append_left _ hx)
  have ho := eq_outcomeAfter h
  rw [List.nil_append] at ho
  rw [ne_eq, hleft]
  rw [ho, outcomeAfter_eq_duplicate_iff]
  refine and_congr_right fun hnot => and_congr_right fun _ => ?_
  constructor
  · rintro ⟨d, hd, hkey⟩
    obtain ⟨x, hx, rfl⟩ := List.mem_map.1 hd
    refine ⟨x, hx, ?_, Event.key_eq_iff.1 hkey⟩
    rw [ne_eq, hearlier x hx, ← signal_eq_of_key_eq hkey]
    exact hnot
  · rintro ⟨x, hx, -, hrepeats⟩
    exact ⟨x.1, List.mem_map_of_mem hx, Event.key_eq_iff.2 hrepeats⟩

/-- **What becomes of events is told by the events and the mode.**  In a run, and on a clock with
any delay, the answers are a function of the events in order.  An event is filtered if the partner
tells of its signal; else it is a duplicate if it repeats an earlier event that was not filtered,
unless its signal is repeatable; else it is queued.  So each key is queued once, repeatable signals
are queued every time, and as many keys are remembered as were queued.  What else an event carries
has no part in this, nor in which submissions a batch holds. -/
theorem outcomes_of_history (mode : IntegrationMode) :
    (∀ actions : List Action,
      answered actions (run mode {} actions).1 = outcomesAfter mode [] (submitted actions) ∧
      (answered actions (run mode {} actions).1).map Prod.fst = submitted actions ∧
      (∀ before e o after,
        answered actions (run mode {} actions).1 = before ++ (e, o) :: after →
        (o = .filtered ↔
          mode = .server ∧ (e.signal = .loadStart ∨ e.signal = .loadComplete)) ∧
        (o = .duplicate ↔ o ≠ .filtered ∧
          ¬ (e.signal = .userInteraction ∨ e.signal = .purchaseInitiated) ∧
          ∃ x ∈ before, x.2 ≠ .filtered ∧ e.Repeats x.1)) ∧
      (keysOf (queuedEvents actions (run mode {} actions).1)).Nodup ∧
      (∀ x ∈ answered actions (run mode {} actions).1,
        x.1.signal = .userInteraction ∨ x.1.signal = .purchaseInitiated →
        x.2 ≠ .filtered → x.2 = .queued) ∧
      (run mode {} actions).2.seen.length =
        (keysOf (queuedEvents actions (run mode {} actions).1)).toFinset.card ∧
      (batchNumbers (run mode {} actions).1).map (fun numbers => numbers.map fun n => actions[n]?) =
        (batches (run mode {} actions).1).map fun batch => batch.map fun e => some (.submit e)) ∧
    (∀ (delay : Nat) (moves : List Timeline.Move),
      (Timeline.play mode delay {} moves).1.filterMap Reaction.outcome =
        (outcomesAfter mode [] (moves.filterMap Timeline.Move.event?)).map Prod.snd) ∧
    ∀ actions actions' : List Action, List.Forall₂ Action.Alike actions actions' →
      (run mode {} actions).1.map Reaction.outcome =
          (run mode {} actions').1.map Reaction.outcome ∧
        batchNumbers (run mode {} actions).1 = batchNumbers (run mode {} actions').1 := by
  refine ⟨?_, outcomes_play mode, ?_⟩
  · intro actions
    have hanswers := answered_run (recalls_start mode) actions
    have hkeys : (run mode {} actions).2.seen.reverse =
        keysOf (queuedEvents actions (run mode {} actions).1) := seen_run mode {} actions
    have hnodup : (keysOf (queuedEvents actions (run mode {} actions).1)).Nodup := by
      rw [← hkeys, List.nodup_reverse]
      exact nodup_seen mode actions
    refine ⟨hanswers, ?_, ?_, hnodup, ?_, ?_, map_batchNumbers mode actions⟩
    · rw [hanswers, map_fst_outcomesAfter]
    · intro before e o after hsplit
      rw [hanswers] at hsplit
      refine ⟨?_, ?_⟩
      · rw [← Signal.isLoad_iff]
        exact eq_filtered_iff_of_mem (x := (e, o)) (by rw [hsplit]; simp)
      · rw [← Signal.isRepeatable_iff, Bool.not_eq_true]
        exact eq_duplicate_iff_of_split hsplit
    · intro x hx hrepeatable hleft
      rw [hanswers] at hx
      obtain ⟨before, after, hsplit⟩ := List.append_of_mem hx
      have hdup := eq_duplicate_iff_of_split hsplit
      rw [Signal.isRepeatable_iff.2 hrepeatable] at hdup
      cases ho : x.2 with
      | filtered => exact absurd ho hleft
      | duplicate => exact absurd (hdup.1 ho).2.1 (by decide)
      | queued => rfl
    · rw [List.toFinset_card_of_nodup hnodup, ← hkeys, List.length_reverse]
  · intro actions actions' halike
    have hreactions := run_alike (SameShape.refl {}) mode halike
    exact ⟨map_outcome_congr hreactions, batchNumbers_congr hreactions⟩

/-- An event that was queued, and sent, is a duplicate when it comes again with another token. -/
theorem outcomes_of_history_resent :
    let load := Event.observed "1" "" .loadStart "session" "parent" "page" ""
    let viewed := Event.observed "2" "" .viewed "session" "parent" "page" ""
    let again :=
      (Event.observed "3" "" .viewed "session" "parent" "page" "token").withMetadata "k" "v"
    let click := Event.observed "4" "" .userInteraction "session" "parent" "page" ""
    let actions : List Action :=
      [.submit load, .submit viewed, .flush, .submit again, .submit click, .submit click]
    answered actions (run .server {} actions).1 =
        [(load, .filtered), (viewed, .queued), (again, .duplicate), (click, .queued),
          (click, .queued)] ∧
      (∃ x ∈ [(load, Outcome.filtered), (viewed, .queued)],
        x.2 ≠ .filtered ∧ again.Repeats x.1) ∧
      (run .server {} actions).2.seen.length = 1 ∧
      batchNumbers (run .server {} [.submit viewed, .submit click, .flush]).1 =
        batchNumbers (run .server {} [.submit again, .submit click, .flush]).1 := by
  intro load viewed again click actions
  obtain ⟨hruns, -, halike⟩ := outcomes_of_history .server
  obtain ⟨-, -, hsplit, -, -, hseen, -⟩ := hruns actions
  have hanswers : answered actions (run .server {} actions).1 =
      [(load, .filtered), (viewed, .queued), (again, .duplicate), (click, .queued),
        (click, .queued)] := by decide +kernel
  obtain ⟨-, hduplicate⟩ := hsplit [(load, .filtered), (viewed, .queued)] again .duplicate
    [(click, .queued), (click, .queued)] hanswers
  have hsame : List.Forall₂ Action.Alike [.submit viewed, .submit click, .flush]
      [.submit again, .submit click, .flush] :=
    .cons rfl (.cons rfl (.cons trivial .nil))
  refine ⟨hanswers, (hduplicate.1 rfl).2.2, ?_, (halike _ _ hsame).2⟩
  rw [hseen]
  decide +kernel

end Pipeline

end OfferLayout
