/-
**The order of submissions does not matter for what is queued.**

Several producers may submit events, one after the other and each in its own order; how their
submissions interleave, and where windows are closed in between, is left to chance.  Which of two
events with one key is queued may depend on it.  How many events are queued, dropped as duplicates
and left to the partner does not, nor do the keys that are queued, each of them once, nor the
repeatable events that are queued.  The reason is that all of these can be told from the submitted
events without their order.

The pipeline never changes the order of events, so each batch has the events of one producer in
that producer's order, and so have the batches one after the other.

Main definitions:

* `IntegrationMode.admits` — whether an event is not left to the partner;
* `Pipeline.queuedIn` — the events that a run queues;
* `Pipeline.submissions`, `Pipeline.ofProducer` — the events with their producers, and **those of
  one producer**;
* `Pipeline.queuedSubmissions`, `Pipeline.attributed` — those that are queued, and the batches, with
  their producers.

Main results:

* `Pipeline.filter_queuedIn` — the repeatable events that are queued are those that are admitted;
* `Pipeline.mem_keysOf_queuedIn_iff` — **the keys that are queued are those that are admitted**;
* `Pipeline.count_outcome` — how often each answer is given, told without the order;
* `Pipeline.countP_queued` — of the admitted events of one key, **exactly one is queued**;
* `Pipeline.submitted_perm` — two ways to interleave submit the same events;
* `Pipeline.flatten_attributed_isPrefix` — the batches keep the order;
* `Pipeline.order_of_submissions` — the whole of it.
-/

import OfferLayout.Proofs.Event.History

set_option relaxedAutoImplicit false
set_option autoImplicit false

namespace OfferLayout

/-- Whether an event is not left to the partner. -/
def IntegrationMode.admits (mode : IntegrationMode) (e : Event) : Bool :=
  !(mode = .server && e.signal.isLoad)

theorem IntegrationMode.admits_eq_false_iff {mode : IntegrationMode} {e : Event} :
    mode.admits e = false ↔ mode = .server ∧ e.signal.isLoad = true := by
  simp [admits]

theorem IntegrationMode.admits_iff {mode : IntegrationMode} {e : Event} :
    mode.admits e = true ↔ ¬ (mode = .server ∧ e.signal.isLoad = true) := by
  rw [← admits_eq_false_iff, Bool.not_eq_false]

namespace Pipeline

/-- The events that a run from the start queues, in order. -/
def queuedIn (mode : IntegrationMode) (actions : List Action) : List Event :=
  queuedEvents actions (run mode {} actions).1

/-! ### What the answers say about the events -/

/-- The queued events are those whose answer says so. -/
theorem queuedEvents_eq (actions : List Action) (reactions : List Reaction) :
    queuedEvents actions reactions =
      ((answered actions reactions).filter fun x => x.2 = .queued).map Prod.fst := by
  rw [queuedEvents, answered, List.filter_filterMap, List.map_filterMap]
  refine List.filterMap_congr ?_
  rintro ⟨a, r⟩ -
  cases a with
  | submit e =>
      cases h : r.outcome with
      | none => simp [Action.queued?, Action.answer?, Action.event?, h]
      | some o => cases o <;> simp [Action.queued?, Action.answer?, Action.event?, h]
  | flush => rfl
  | fire w => rfl

variable {mode : IntegrationMode}

theorem outcomeAfter_eq_filtered_iff_admits {earlier : List Event} {e : Event} :
    outcomeAfter mode earlier e = .filtered ↔ mode.admits e = false := by
  rw [outcomeAfter_eq_filtered_iff, IntegrationMode.admits_eq_false_iff]

/-- A repeatable event is queued exactly if it is admitted. -/
theorem outcomeAfter_eq_queued_iff_of_isRepeatable {earlier : List Event} {e : Event}
    (h : e.signal.isRepeatable = true) :
    outcomeAfter mode earlier e = .queued ↔ mode.admits e = true := by
  have hfiltered : outcomeAfter mode earlier e = .filtered ↔ mode.admits e = false :=
    outcomeAfter_eq_filtered_iff_admits
  rw [← Bool.not_eq_false, ← hfiltered]
  cases ho : outcomeAfter mode earlier e with
  | filtered => simp
  | duplicate =>
      have hnot := (outcomeAfter_eq_duplicate_iff.1 ho).2.1
      rw [h] at hnot
      cases hnot
  | queued => simp

/-! ### The repeatable events -/

theorem filter_queued_outcomesAfter (earlier events : List Event) :
    (((outcomesAfter mode earlier events).filter fun x => x.2 = .queued).map Prod.fst).filter
        (fun e => e.signal.isRepeatable) =
      (events.filter mode.admits).filter fun e => e.signal.isRepeatable := by
  induction events generalizing earlier with
  | nil => rfl
  | cons e events ih =>
      have hrest := ih (earlier ++ [e])
      rw [outcomesAfter, List.filter_cons, List.filter_cons]
      cases hrep : e.signal.isRepeatable with
      | true =>
          have hqueued : outcomeAfter mode earlier e = .queued ↔ mode.admits e = true :=
            outcomeAfter_eq_queued_iff_of_isRepeatable hrep
          cases hadmits : mode.admits e with
          | true => simp [hqueued.2 hadmits, hrep, hrest]
          | false =>
              have hnot : outcomeAfter mode earlier e ≠ .queued := by
                rw [ne_eq, hqueued, hadmits]
                exact Bool.false_ne_true
              simp [hnot, hrest]
      | false =>
          -- whatever becomes of the event, it is not among the repeatable ones
          cases mode.admits e <;> by_cases hq : outcomeAfter mode earlier e = .queued <;>
            simp [hq, hrep, hrest]

/-- **The repeatable events that are queued are those that are admitted.** -/
theorem filter_queuedIn (mode : IntegrationMode) (actions : List Action) :
    (queuedIn mode actions).filter (fun e => e.signal.isRepeatable) =
      ((submitted actions).filter mode.admits).filter fun e => e.signal.isRepeatable := by
  rw [queuedIn, queuedEvents_eq, answered_run (recalls_start mode), filter_queued_outcomesAfter]

/-! ### The keys -/

theorem Recalls.run {earlier : List Event} {p : Pipeline} (h : Recalls mode earlier p)
    (actions : List Action) :
    Recalls mode (earlier ++ submitted actions) (p.run mode actions).2 := by
  induction actions generalizing p earlier with
  | nil =>
      rw [show submitted [] = [] from rfl, List.append_nil]
      exact h
  | cons a actions ih =>
      have hrest := ih (h.step a)
      rw [submitted_cons, ← List.append_assoc]
      exact hrest

theorem mem_keysOf_iff {events : List Event} {k : Event.Key} :
    k ∈ keysOf events ↔ ∃ e ∈ events, e.signal.isRepeatable = false ∧ e.key = k := by
  simp [keysOf, and_assoc]

/-- The keys remembered are those of the queued events, latest first. -/
theorem reverse_seen (mode : IntegrationMode) (actions : List Action) :
    (Pipeline.run mode {} actions).2.seen.reverse = keysOf (queuedIn mode actions) :=
  seen_run mode {} actions

theorem mem_seen_iff (mode : IntegrationMode) (actions : List Action) (k : Event.Key) :
    k ∈ (Pipeline.run mode {} actions).2.seen ↔ k ∈ keysOf (queuedIn mode actions) := by
  rw [← reverse_seen, List.mem_reverse]

theorem mem_of_mem_queuedIn {actions : List Action} {e : Event} (h : e ∈ queuedIn mode actions) :
    e ∈ submitted actions ∧ mode.admits e = true := by
  rw [queuedIn, queuedEvents_eq, answered_run (recalls_start mode)] at h
  obtain ⟨x, hx, rfl⟩ := List.mem_map.1 h
  obtain ⟨hmem, hqueued⟩ := List.mem_filter.1 hx
  have hsubmitted := List.mem_map_of_mem (f := Prod.fst) hmem
  rw [map_fst_outcomesAfter] at hsubmitted
  refine ⟨hsubmitted, IntegrationMode.admits_iff.2 ?_⟩
  rw [← eq_filtered_iff_of_mem hmem, of_decide_eq_true hqueued]
  exact Outcome.noConfusion

/-- **The keys that are queued are those that are admitted.** -/
theorem mem_keysOf_queuedIn_iff (mode : IntegrationMode) (actions : List Action) (k : Event.Key) :
    k ∈ keysOf (queuedIn mode actions) ↔ k ∈ keysOf ((submitted actions).filter mode.admits) := by
  constructor
  · intro h
    obtain ⟨e, he, hrep, rfl⟩ := mem_keysOf_iff.1 h
    exact mem_keysOf_iff.2 ⟨e, List.mem_filter.2 (mem_of_mem_queuedIn he), hrep, rfl⟩
  · intro h
    obtain ⟨e, he, hrep, rfl⟩ := mem_keysOf_iff.1 h
    obtain ⟨hsubmitted, hadmits⟩ := List.mem_filter.1 he
    have hrecalls := (recalls_start mode).run actions
    rw [List.nil_append] at hrecalls
    rw [← mem_seen_iff, hrecalls e (IntegrationMode.admits_iff.1 hadmits) hrep]
    exact ⟨e, hsubmitted, rfl⟩

theorem nodup_keysOf_queuedIn (mode : IntegrationMode) (actions : List Action) :
    (keysOf (queuedIn mode actions)).Nodup := by
  rw [← reverse_seen, List.nodup_reverse]
  exact nodup_seen mode actions

theorem count_keysOf {e : Event} (h : e.signal.isRepeatable = false) (events : List Event) :
    (keysOf events).count e.key = events.countP fun d => d.key = e.key := by
  rw [keysOf, List.count, List.countP_map, List.countP_filter]
  refine List.countP_congr fun d _ => ?_
  by_cases hkey : d.key = e.key
  · simp [hkey, signal_eq_of_key_eq hkey, h]
  · simp [hkey]

/-- **Of the admitted events of one key, exactly one is queued.** -/
theorem countP_queued {actions : List Action} {e : Event} (he : e ∈ submitted actions)
    (hadmits : mode.admits e = true) (hrep : e.signal.isRepeatable = false) :
    (answered actions (Pipeline.run mode {} actions).1).countP
      (fun x => x.1.key = e.key ∧ x.2 = .queued) = 1 := by
  have hmem : e.key ∈ keysOf (queuedIn mode actions) := by
    rw [mem_keysOf_queuedIn_iff]
    exact mem_keysOf_iff.2 ⟨e, List.mem_filter.2 ⟨he, hadmits⟩, hrep, rfl⟩
  have hone := List.count_eq_one_of_mem (nodup_keysOf_queuedIn mode actions) hmem
  rw [count_keysOf hrep, queuedIn, queuedEvents_eq, List.countP_map, List.countP_filter] at hone
  rw [← hone]
  refine List.countP_congr fun x _ => ?_
  simp

/-! ### How often each answer is given -/

/-- The answers of a run from the start, in order. -/
def outcomesIn (mode : IntegrationMode) (actions : List Action) : List Outcome :=
  (Pipeline.run mode {} actions).1.filterMap Reaction.outcome

theorem outcomesIn_eq (mode : IntegrationMode) (actions : List Action) :
    outcomesIn mode actions = (outcomesAfter mode [] (submitted actions)).map Prod.snd := by
  rw [outcomesIn, ← map_snd_answered, answered_run (recalls_start mode)]

theorem length_outcomesIn (mode : IntegrationMode) (actions : List Action) :
    (outcomesIn mode actions).length = (submitted actions).length := by
  have hfst := congrArg List.length (map_fst_outcomesAfter mode [] (submitted actions))
  rw [List.length_map] at hfst
  rw [outcomesIn_eq, List.length_map, hfst]

theorem countP_filtered_outcomesAfter (earlier events : List Event) :
    (outcomesAfter mode earlier events).countP (fun x => x.2 = .filtered) =
      events.countP fun e => !mode.admits e := by
  induction events generalizing earlier with
  | nil => rfl
  | cons e events ih =>
      have hhead : (outcomeAfter mode earlier e = .filtered) ↔ mode.admits e = false :=
        outcomeAfter_eq_filtered_iff_admits
      rw [outcomesAfter, List.countP_cons, List.countP_cons, ih]
      cases hadmits : mode.admits e <;> simp [hhead, hadmits]

/-- As many events are left to the partner as are not admitted. -/
theorem count_filtered (mode : IntegrationMode) (actions : List Action) :
    (outcomesIn mode actions).count .filtered =
      (submitted actions).countP fun e => !mode.admits e := by
  rw [outcomesIn_eq, List.count, List.countP_map, ← countP_filtered_outcomesAfter []]
  exact List.countP_congr fun x _ => by simp

/-- The queued events are the repeatable ones and one of each key. -/
theorem count_queued (mode : IntegrationMode) (actions : List Action) :
    (outcomesIn mode actions).count .queued =
      ((queuedIn mode actions).filter fun e => e.signal.isRepeatable).length +
        (keysOf (queuedIn mode actions)).length := by
  have hlength : (outcomesIn mode actions).count .queued = (queuedIn mode actions).length := by
    rw [outcomesIn, ← map_snd_answered, queuedIn, queuedEvents_eq, List.length_map, List.count,
      List.countP_map, List.countP_eq_length_filter]
    congr 2
  rw [hlength, keysOf, List.length_map,
    List.length_eq_length_filter_add fun e : Event => e.signal.isRepeatable]

theorem count_add_count (outcomes : List Outcome) :
    outcomes.count .filtered + outcomes.count .duplicate + outcomes.count .queued =
      outcomes.length := by
  induction outcomes with
  | nil => rfl
  | cons o outcomes ih =>
      rw [List.count_cons, List.count_cons, List.count_cons, List.length_cons]
      cases o <;> simp <;> omega

section

variable {actions actions' : List Action}

/-- The repeatable events that are queued do not depend on the order of the submissions. -/
theorem filter_queuedIn_perm (h : (submitted actions).Perm (submitted actions')) :
    ((queuedIn mode actions).filter fun e => e.signal.isRepeatable).Perm
      ((queuedIn mode actions').filter fun e => e.signal.isRepeatable) := by
  rw [filter_queuedIn, filter_queuedIn]
  exact (h.filter _).filter _

/-- **Nor do the keys that are queued.** -/
theorem keysOf_queuedIn_perm (h : (submitted actions).Perm (submitted actions')) :
    (keysOf (queuedIn mode actions)).Perm (keysOf (queuedIn mode actions')) := by
  have hadmitted : (keysOf ((submitted actions).filter mode.admits)).Perm
      (keysOf ((submitted actions').filter mode.admits)) :=
    ((h.filter _).filter _).map _
  refine (List.perm_ext_iff_of_nodup (nodup_keysOf_queuedIn mode actions)
    (nodup_keysOf_queuedIn mode actions')).2 fun k => ?_
  rw [mem_keysOf_queuedIn_iff, mem_keysOf_queuedIn_iff, hadmitted.mem_iff]

/-- **Nor does the number of times that each answer is given.** -/
theorem count_outcome (h : (submitted actions).Perm (submitted actions')) (o : Outcome) :
    (outcomesIn mode actions).count o = (outcomesIn mode actions').count o := by
  have hfiltered : (outcomesIn mode actions).count .filtered =
      (outcomesIn mode actions').count .filtered := by
    rw [count_filtered, count_filtered, h.countP_eq]
  have hqueued : (outcomesIn mode actions).count .queued =
      (outcomesIn mode actions').count .queued := by
    rw [count_queued, count_queued, (filter_queuedIn_perm h).length_eq,
      (keysOf_queuedIn_perm h).length_eq]
  cases o with
  | filtered => exact hfiltered
  | queued => exact hqueued
  | duplicate =>
      -- what is left of all the answers are the duplicates
      have hall := count_add_count (outcomesIn mode actions)
      have hall' := count_add_count (outcomesIn mode actions')
      rw [length_outcomesIn] at hall hall'
      have hlength := h.length_eq
      omega

end

/-! ### Producers -/

section

variable {Producer : Type}

/-- **The events that producers submit**, in the order in which they are submitted.  Every step is
made by one of the producers; who makes a step that submits nothing does not matter. -/
def submissions (steps : List (Producer × Action)) : List (Producer × Event) :=
  steps.filterMap fun x => x.2.event?.map fun e => (x.1, e)

/-- Those of them that are queued. -/
def queuedSubmissions (steps : List (Producer × Action)) (reactions : List Reaction) :
    List (Producer × Event) :=
  (steps.zip reactions).filterMap fun x => (x.1.2.queued? x.2).map fun e => (x.1.1, e)

/-- **The batches, with the producer of every event**: the queued submissions, cut as the batches
are. -/
def attributed (steps : List (Producer × Action)) (reactions : List Reaction) :
    List (List (Producer × Event)) :=
  ((batches reactions).map List.length).splitLengths (queuedSubmissions steps reactions)

/-- The events of one producer, in order. -/
def ofProducer [DecidableEq Producer] (i : Producer) (l : List (Producer × Event)) : List Event :=
  (l.filter fun x => x.1 = i).map Prod.snd

theorem map_snd_submissions (steps : List (Producer × Action)) :
    (submissions steps).map Prod.snd = submitted (steps.map Prod.snd) := by
  rw [submissions, submitted, List.map_filterMap, List.filterMap_map]
  refine List.filterMap_congr fun x _ => ?_
  cases h : x.2.event? <;> simp [h]

theorem map_snd_queuedSubmissions (steps : List (Producer × Action)) (reactions : List Reaction) :
    (queuedSubmissions steps reactions).map Prod.snd =
      queuedEvents (steps.map Prod.snd) reactions := by
  rw [queuedSubmissions, queuedEvents, List.map_filterMap, List.zip_map_left, List.filterMap_map]
  refine List.filterMap_congr fun x _ => ?_
  cases h : x.1.2.queued? x.2 <;> simp [h]

/-- The queued submissions are some of the submissions, in order. -/
theorem queuedSubmissions_sublist (steps : List (Producer × Action)) (reactions : List Reaction) :
    (queuedSubmissions steps reactions).Sublist (submissions steps) := by
  induction steps generalizing reactions with
  | nil => exact List.Sublist.refl _
  | cons x steps ih =>
      cases reactions with
      | nil => exact List.nil_sublist _
      | cons r reactions =>
          have hrest := ih reactions
          obtain ⟨i, a⟩ := x
          cases a with
          | submit e =>
              by_cases hq : r.outcome = some .queued
              · simpa [queuedSubmissions, submissions, Action.queued?, Action.event?, hq]
                  using hrest
              · simpa [queuedSubmissions, submissions, Action.queued?, Action.event?, hq]
                  using hrest.cons (i, e)
          | flush => exact hrest
          | fire w => exact hrest

theorem flatten_splitLengths_isPrefix {α : Type} (sizes : List Nat) (l : List α) :
    (sizes.splitLengths l).flatten <+: l := by
  induction sizes generalizing l with
  | nil => exact List.nil_prefix
  | cons n sizes ih =>
      have hrest := ih (l.drop n)
      rw [List.splitLengths_cons, List.flatten_cons]
      calc l.take n ++ (sizes.splitLengths (l.drop n)).flatten
          <+: l.take n ++ l.drop n := (List.prefix_append_right_inj _).2 hrest
        _ = l := List.take_append_drop n l

/-- **The attributed batches are the batches.** -/
theorem map_attributed (mode : IntegrationMode) (steps : List (Producer × Action)) :
    (attributed steps (Pipeline.run mode {} (steps.map Prod.snd)).1).map (List.map Prod.snd) =
      batches (Pipeline.run mode {} (steps.map Prod.snd)).1 := by
  have hconserved := run_conserves mode {} (steps.map Prod.snd)
  rw [List.nil_append] at hconserved
  rw [attributed, map_splitLengths, map_snd_queuedSubmissions, ← hconserved]
  exact splitLengths_flatten_append _ _

/-- **The batches keep the order** in which the events were queued. -/
theorem flatten_attributed_isPrefix (steps : List (Producer × Action)) (reactions : List Reaction) :
    (attributed steps reactions).flatten <+: queuedSubmissions steps reactions :=
  flatten_splitLengths_isPrefix _ _

/-- When nothing waits, everything that was queued is in the batches. -/
theorem flatten_attributed {steps : List (Producer × Action)}
    (h : (Pipeline.run mode {} (steps.map Prod.snd)).2.pending = []) :
    (attributed steps (Pipeline.run mode {} (steps.map Prod.snd)).1).flatten =
      queuedSubmissions steps (Pipeline.run mode {} (steps.map Prod.snd)).1 := by
  have hconserved := run_conserves mode {} (steps.map Prod.snd)
  rw [h, List.append_nil, List.nil_append, ← map_snd_queuedSubmissions] at hconserved
  have hlength := congrArg List.length hconserved
  rw [List.length_flatten, List.length_map] at hlength
  exact List.flatten_splitLengths _ _ (Nat.le_of_eq hlength.symm)

variable [DecidableEq Producer]

theorem count_ofProducer (l : List (Producer × Event)) (i : Producer) (e : Event) :
    (ofProducer i l).count e = l.count (i, e) := by
  rw [ofProducer, List.count, List.countP_map, List.countP_filter, List.count]
  refine List.countP_congr fun x _ => ?_
  simp [Prod.ext_iff, and_comm]

/-- **Two ways to interleave what the producers submit** submit the same events. -/
theorem submitted_perm {steps steps' : List (Producer × Action)}
    (h : ∀ i, ofProducer i (submissions steps) = ofProducer i (submissions steps')) :
    (submitted (steps.map Prod.snd)).Perm (submitted (steps'.map Prod.snd)) := by
  have hperm : (submissions steps).Perm (submissions steps') := by
    rw [List.perm_iff_count]
    rintro ⟨i, e⟩
    rw [← count_ofProducer, h i, count_ofProducer]
  rw [← map_snd_submissions, ← map_snd_submissions]
  exact hperm.map _

theorem ofProducer_isPrefix {l l' : List (Producer × Event)} (h : l <+: l') (i : Producer) :
    ofProducer i l <+: ofProducer i l' := (h.filter _).map _

theorem ofProducer_sublist {l l' : List (Producer × Event)} (h : l.Sublist l') (i : Producer) :
    (ofProducer i l).Sublist (ofProducer i l') := (h.filter _).map _

end

/-- **The order of submissions does not matter for what is queued.**  If two runs submit the same
events, in any order and with flushes and timers anywhere, then each answer is given equally often,
the same keys are queued, each of them once, and the same repeatable events are queued.  Of the
admitted events of one key, exactly one is queued.  Two ways to interleave what some producers
submit are two such runs.  And in every run, the events of one producer stand in the batches in
the order in which it submitted them; if nothing waits any longer, they are all those of its events
that were queued. -/
theorem order_of_submissions (mode : IntegrationMode) :
    (∀ actions actions' : List Action, (submitted actions).Perm (submitted actions') →
      (∀ o, (outcomesIn mode actions).count o = (outcomesIn mode actions').count o) ∧
      (keysOf (queuedIn mode actions)).Nodup ∧
      (keysOf (queuedIn mode actions)).Perm (keysOf (queuedIn mode actions')) ∧
      ((queuedIn mode actions).filter fun e => e.signal.isRepeatable).Perm
        ((queuedIn mode actions').filter fun e => e.signal.isRepeatable)) ∧
    (∀ actions, ∀ e ∈ submitted actions, mode.admits e = true → e.signal.isRepeatable = false →
      (answered actions (Pipeline.run mode {} actions).1).countP
        (fun x => x.1.key = e.key ∧ x.2 = .queued) = 1) ∧
    ∀ (Producer : Type) [DecidableEq Producer],
      (∀ steps steps' : List (Producer × Action),
        (∀ i, ofProducer i (submissions steps) = ofProducer i (submissions steps')) →
        (submitted (steps.map Prod.snd)).Perm (submitted (steps'.map Prod.snd))) ∧
      ∀ steps : List (Producer × Action),
        let r := Pipeline.run mode {} (steps.map Prod.snd)
        (attributed steps r.1).map (List.map Prod.snd) = batches r.1 ∧
        ∀ i,
          ofProducer i (attributed steps r.1).flatten <+:
            ofProducer i (queuedSubmissions steps r.1) ∧
          (ofProducer i (queuedSubmissions steps r.1)).Sublist (ofProducer i (submissions steps)) ∧
          (r.2.pending = [] →
            ofProducer i (attributed steps r.1).flatten =
              ofProducer i (queuedSubmissions steps r.1)) := by
  refine ⟨?_, fun actions e he hadmits hrep => countP_queued he hadmits hrep, ?_⟩
  · intro actions actions' h
    exact ⟨count_outcome h, nodup_keysOf_queuedIn mode actions, keysOf_queuedIn_perm h,
      filter_queuedIn_perm h⟩
  · intro Producer _
    refine ⟨fun steps steps' h => submitted_perm h, ?_⟩
    intro steps r
    refine ⟨map_attributed mode steps, fun i => ⟨?_, ?_, ?_⟩⟩
    · exact ofProducer_isPrefix (flatten_attributed_isPrefix steps r.1) i
    · exact ofProducer_sublist (queuedSubmissions_sublist steps r.1) i
    · intro hpending
      rw [flatten_attributed hpending]

/-- Two producers that report one view and a click each: whoever comes first, one view is queued and
both clicks are, and the batches have them in each producer's order. -/
theorem order_of_submissions_two_producers :
    let viewed := Event.observed "1" "" .viewed "session" "parent" "page" ""
    let again := Event.observed "2" "" .viewed "session" "parent" "page" "token"
    let click := Event.observed "3" "" .userInteraction "session" "parent" "page" ""
    let steps : List (Bool × Action) :=
      [(true, .submit viewed), (false, .submit again), (false, .flush), (true, .submit click),
        (false, .submit click), (false, .flush)]
    let steps' : List (Bool × Action) :=
      [(false, .submit again), (true, .submit viewed), (false, .submit click), (true, .fire 1),
        (true, .submit click), (true, .flush)]
    (submitted (steps.map Prod.snd)).Perm (submitted (steps'.map Prod.snd)) ∧
      (outcomesIn .client (steps.map Prod.snd)).count .queued =
        (outcomesIn .client (steps'.map Prod.snd)).count .queued ∧
      (answered (steps'.map Prod.snd) (Pipeline.run .client {} (steps'.map Prod.snd)).1).countP
        (fun x => x.1.key = viewed.key ∧ x.2 = .queued) = 1 ∧
      ofProducer true
        (attributed steps' (Pipeline.run .client {} (steps'.map Prod.snd)).1).flatten = [click] ∧
      ofProducer true
        (attributed steps (Pipeline.run .client {} (steps.map Prod.snd)).1).flatten =
          [viewed, click] := by
  intro viewed again click steps steps'
  obtain ⟨hcounts, hone, hproducers⟩ := order_of_submissions .client
  obtain ⟨hperm, hbatches⟩ := hproducers Bool
  have hsame := hperm steps steps' (by decide +kernel)
  have htrue' := ((hbatches steps').2 true).2.2 (by decide +kernel)
  have htrue := ((hbatches steps).2 true).2.2 (by decide +kernel)
  refine ⟨hsame, (hcounts _ _ hsame).1 .queued, hone _ viewed (by decide +kernel) (by decide)
    (by decide), htrue'.trans (by decide +kernel), htrue.trans (by decide +kernel)⟩

end Pipeline

end OfferLayout
