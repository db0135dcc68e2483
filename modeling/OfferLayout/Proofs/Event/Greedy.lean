/-
**Windows do not slide.**

The first event that is queued while no window is open opens one.  That window is closed at the
first flush, or when the time of a window has passed since it was opened, whichever comes first; the
events that are queued until then go with the first one, however many they are and whenever they
arrive.  So the batches follow from the instants at which events are queued and windows flushed.
Only at the very instant at which a window is due does the order of the steps decide: an event that
is queued then goes with that window or opens the next.

Main definitions:

* `Timeline.Mark`, `Timeline.marks` — the queued events and the flushes, at their instants;
* `Timeline.Greedy` — **the greedy partition of the queued events into batches**;
* `Timeline.Holds` — the events that wait in the open window, with their instants.

Main results:

* `Timeline.Holds.occur` — what one step makes of the open window;
* `Timeline.greedy_run` — **the batches of a run are the greedy partition**;
* `Timeline.Greedy.unique` — there is one such partition, unless there are ties;
* `Timeline.Greedy.together` — events that are queued at one instant go together.
-/

import OfferLayout.Proofs.Event.Clock
import OfferLayout.Proofs.Event.Window

set_option relaxedAutoImplicit false
set_option autoImplicit false

namespace OfferLayout

namespace Timeline

open Pipeline (Action Reaction batches batches_cons)

/-! ### The greedy partition -/

/-- What decides about the windows. -/
inductive Mark where
  /-- An event was queued. -/
  | queued (instant : Nat) (e : Event)
  /-- The window was closed, if one was open. -/
  | flushed (instant : Nat)
deriving DecidableEq

namespace Mark

def instant : Mark → Nat
  | .queued instant _ => instant
  | .flushed instant => instant

def ofQueued (x : Nat × Event) : Mark := .queued x.1 x.2

end Mark

/-- **The greedy partition**, seen at the instant `now`: the queued events as batches, and the ones
that still wait.  An event that finds no window opens one, which stays open for the given delay:
what is queued until then goes with it.  At the instant at which the window is due, an event may
still go with it, or come after it. -/
inductive Greedy (delay now : Nat) : List Mark → List (List Event) → List Event → Prop where
  | nil : Greedy delay now [] [] []
  /-- A flush finds no window. -/
  | idle {t : Nat} {rest : List Mark} {sent : List (List Event)} {waiting : List Event} :
      Greedy delay now rest sent waiting →
      Greedy delay now (.flushed t :: rest) sent waiting
  /-- The window is closed by a flush, before it is due or just then. -/
  | flushed {t t' : Nat} {e : Event} {others : List (Nat × Event)} {rest : List Mark}
      {sent : List (List Event)} {waiting : List Event} :
      (∀ x ∈ others, x.1 ≤ t + delay) → t' ≤ t + delay → Greedy delay now rest sent waiting →
      Greedy delay now (.queued t e :: (others.map Mark.ofQueued ++ .flushed t' :: rest))
        ((e :: others.map Prod.snd) :: sent) waiting
  /-- The window is closed when it is due, and all else comes later or just then. -/
  | expired {t : Nat} {e : Event} {others : List (Nat × Event)} {rest : List Mark}
      {sent : List (List Event)} {waiting : List Event} :
      (∀ x ∈ others, x.1 ≤ t + delay) → (∀ m ∈ rest, t + delay ≤ m.instant) → t + delay ≤ now →
      Greedy delay now rest sent waiting →
      Greedy delay now (.queued t e :: (others.map Mark.ofQueued ++ rest))
        ((e :: others.map Prod.snd) :: sent) waiting
  /-- The window is still open. -/
  | waiting {t : Nat} {e : Event} {others : List (Nat × Event)} :
      (∀ x ∈ others, x.1 ≤ t + delay) → now ≤ t + delay →
      Greedy delay now (.queued t e :: others.map Mark.ofQueued) [] (e :: others.map Prod.snd)

/-- Events that are in time for a window stand before what comes after its end. -/
theorem prefix_of_inTime {deadline : Nat} {early others : List (Nat × Event)}
    {later rest : List Mark}
    (h : early.map Mark.ofQueued ++ later = others.map Mark.ofQueued ++ rest)
    (hearly : ∀ x ∈ early, x.1 < deadline)
    (hrest : ∀ x, rest.head? = some (Mark.ofQueued x) → deadline ≤ x.1) : early <+: others := by
  induction early generalizing others with
  | nil => exact List.nil_prefix
  | cons x early ih =>
      have hx : x.1 < deadline := hearly x List.mem_cons_self
      cases others with
      | nil =>
          have hle : deadline ≤ x.1 := hrest x (by rw [← show _ = rest from h]; rfl)
          omega
      | cons y others =>
          simp only [List.map_cons, List.cons_append, List.cons.injEq, Mark.ofQueued,
            Mark.queued.injEq] at h
          obtain ⟨⟨hinstant, hevent⟩, htail⟩ := h
          obtain rfl : x = y := Prod.ext hinstant hevent
          have hprefix : early <+: others :=
            ih htail fun z hz => hearly z (List.mem_cons_of_mem _ hz)
          exact List.cons_prefix_cons.2 ⟨rfl, hprefix⟩

/-- What becomes of the window that an event opens: the events `others` go with it, and the marks
`rest` come after them.  None of those is an event that could have been in time. -/
theorem Greedy.of_queued {delay now t : Nat} {e : Event} {ms : List Mark}
    {sent : List (List Event)} {waiting : List Event}
    (h : Greedy delay now (.queued t e :: ms) sent waiting) :
    ∃ (others : List (Nat × Event)) (rest : List Mark),
      ms = others.map Mark.ofQueued ++ rest ∧ (∀ x ∈ others, x.1 ≤ t + delay) ∧
      (∀ x, rest.head? = some (Mark.ofQueued x) → t + delay ≤ x.1) ∧
      ((∃ t' rest' sent', rest = .flushed t' :: rest' ∧ t' ≤ t + delay ∧
          sent = (e :: others.map Prod.snd) :: sent' ∧ Greedy delay now rest' sent' waiting) ∨
        (∃ sent', (∀ m ∈ rest, t + delay ≤ m.instant) ∧ t + delay ≤ now ∧
          sent = (e :: others.map Prod.snd) :: sent' ∧ Greedy delay now rest sent' waiting) ∨
        (rest = [] ∧ now ≤ t + delay ∧ sent = [] ∧ waiting = e :: others.map Prod.snd)) := by
  cases h with
  | @flushed _ t' _ others rest sent' _ hothers ht' hrest =>
      refine ⟨others, .flushed t' :: rest, rfl, hothers, ?_, Or.inl ?_⟩
      · intro x hx
        cases hx
      · exact ⟨t', rest, sent', rfl, ht', rfl, hrest⟩
  | @expired _ _ others rest sent' _ hothers hlater hnow hrest =>
      refine ⟨others, rest, rfl, hothers, ?_, Or.inr (Or.inl ?_)⟩
      · intro x hx
        exact hlater _ (List.mem_of_mem_head? hx)
      · exact ⟨sent', hlater, hnow, rfl, hrest⟩
  | @waiting _ _ others hothers hnow =>
      refine ⟨others, [], (List.append_nil _).symm, hothers, ?_, Or.inr (Or.inr ?_)⟩
      · intro x hx
        cases hx
      · exact ⟨rfl, hnow, rfl, rfl⟩

/-- **Events that are queued at one instant, one after the other, go together**, if windows stay
open for any time.  So of those that come at the instant at which a window is due, some go with that
window, and all that come after its end go with the next. -/
theorem Greedy.together {delay now t : Nat} {tied : List (Nat × Event)} {later : List Mark}
    {sent : List (List Event)} {waiting : List Event} (hdelay : 0 < delay)
    (htied : ∀ x ∈ tied, x.1 = t)
    (h : Greedy delay now (tied.map Mark.ofQueued ++ later) sent waiting) :
    ∃ batch, (sent ++ [waiting]).head? = some batch ∧ tied.map Prod.snd <+: batch := by
  cases tied with
  | nil =>
      cases sent with
      | nil => exact ⟨waiting, rfl, List.nil_prefix⟩
      | cons batch sent => exact ⟨batch, rfl, List.nil_prefix⟩
  | cons first tied =>
      have hfirst : first.1 = t := htied first List.mem_cons_self
      obtain ⟨others, rest, heq, -, hrest, hend⟩ := h.of_queued
      have hin : tied <+: others := by
        refine prefix_of_inTime heq ?_ hrest
        intro x hx
        rw [hfirst, htied x (List.mem_cons_of_mem _ hx)]
        omega
      have hbatch : (first :: tied).map Prod.snd <+: first.2 :: others.map Prod.snd :=
        List.cons_prefix_cons.2 ⟨rfl, hin.map Prod.snd⟩
      rcases hend with ⟨_, _, sent', -, -, rfl, -⟩ | ⟨sent', -, -, rfl, -⟩ | ⟨-, -, rfl, rfl⟩
      · exact ⟨_, rfl, hbatch⟩
      · exact ⟨_, rfl, hbatch⟩
      · exact ⟨_, rfl, hbatch⟩

/-- Nothing happens just when a window would be due that one of the events opened. -/
def Untied (delay now : Nat) (ms : List Mark) : Prop :=
  ∀ t e, .queued t e ∈ ms → now ≠ t + delay ∧ ∀ m ∈ ms, m.instant ≠ t + delay

theorem Untied.mono {delay now : Nat} {ms ms' : List Mark} (h : Untied delay now ms)
    (hsub : ms' ⊆ ms) : Untied delay now ms' := by
  intro t e hmem
  obtain ⟨hnow, hms⟩ := h t e (hsub hmem)
  exact ⟨hnow, fun m hm => hms m (hsub hm)⟩

/-- Without ties, what goes with the window of an event is determined by the instants. -/
theorem Untied.others_eq {delay now t : Nat} {e : Event} {others others' : List (Nat × Event)}
    {rest rest' : List Mark}
    (h : Untied delay now (.queued t e :: (others.map Mark.ofQueued ++ rest)))
    (heq : others.map Mark.ofQueued ++ rest = others'.map Mark.ofQueued ++ rest')
    (hothers : ∀ x ∈ others, x.1 ≤ t + delay) (hothers' : ∀ x ∈ others', x.1 ≤ t + delay)
    (hrest : ∀ x, rest.head? = some (Mark.ofQueued x) → t + delay ≤ x.1)
    (hrest' : ∀ x, rest'.head? = some (Mark.ofQueued x) → t + delay ≤ x.1) :
    others = others' ∧ rest = rest' := by
  obtain ⟨-, hms⟩ := h t e List.mem_cons_self
  have hearly : ∀ x ∈ others, x.1 < t + delay := by
    intro x hx
    have hne : x.1 ≠ t + delay := hms (Mark.ofQueued x)
      (List.mem_cons_of_mem _ (List.mem_append_left _ (List.mem_map_of_mem hx)))
    exact Nat.lt_of_le_of_ne (hothers x hx) hne
  have hearly' : ∀ x ∈ others', x.1 < t + delay := by
    intro x hx
    rw [heq] at hms
    have hne : x.1 ≠ t + delay := hms (Mark.ofQueued x)
      (List.mem_cons_of_mem _ (List.mem_append_left _ (List.mem_map_of_mem hx)))
    exact Nat.lt_of_le_of_ne (hothers' x hx) hne
  have hle : others <+: others' := prefix_of_inTime heq hearly hrest'
  have hge : others' <+: others := prefix_of_inTime heq.symm hearly' hrest
  obtain rfl : others = others' := hle.eq_of_length_le hge.length_le
  exact ⟨rfl, List.append_cancel_left heq⟩

/-- **There is one greedy partition**, unless there are ties. -/
theorem Greedy.unique {delay now : Nat} {ms : List Mark} {sent sent' : List (List Event)}
    {waiting waiting' : List Event} (hms : Untied delay now ms)
    (h : Greedy delay now ms sent waiting) (h' : Greedy delay now ms sent' waiting') :
    sent = sent' ∧ waiting = waiting' := by
  induction h generalizing sent' waiting' with
  | nil =>
      cases h'
      exact ⟨rfl, rfl⟩
  | idle _ ih =>
      cases h' with
      | idle h' => exact ih (hms.mono (List.subset_cons_self _ _)) h'
  | @flushed t t' e others rest sent waiting hothers ht' _ ih =>
      obtain ⟨others', rest', heq, hothers', hrest', hend⟩ := h'.of_queued
      obtain ⟨rfl, rfl⟩ := hms.others_eq heq hothers hothers' (fun x hx => by cases hx) hrest'
      have hmem : Mark.flushed t' ∈ Mark.queued t e ::
          (others.map Mark.ofQueued ++ .flushed t' :: rest) := by simp
      have hne : t' ≠ t + delay := (hms t e List.mem_cons_self).2 _ hmem
      rcases hend with ⟨_, rest', sent', hflush, -, rfl, hrest⟩ | ⟨sent', hlater, -⟩ | ⟨hnil, -⟩
      · cases hflush
        have hsub : rest ⊆ Mark.queued t e :: (others.map Mark.ofQueued ++ .flushed t' :: rest) :=
          fun m hm => List.mem_cons_of_mem _
            (List.mem_append_right _ (List.mem_cons_of_mem _ hm))
        obtain ⟨rfl, rfl⟩ := ih (hms.mono hsub) hrest
        exact ⟨rfl, rfl⟩
      · have hle : t + delay ≤ t' := hlater _ List.mem_cons_self
        omega
      · cases hnil
  | @expired t e others rest sent waiting hothers hlater hnow _ ih =>
      obtain ⟨others', rest', heq, hothers', hrest', hend⟩ := h'.of_queued
      obtain ⟨rfl, rfl⟩ := hms.others_eq heq hothers hothers'
        (fun x hx => hlater _ (List.mem_of_mem_head? hx)) hrest'
      obtain ⟨hne, hms'⟩ := hms t e List.mem_cons_self
      rcases hend with ⟨t', rest', sent', rfl, ht', -⟩ | ⟨sent', -, -, rfl, hrest⟩ | ⟨-, hopen, -⟩
      · have hle : t + delay ≤ t' := hlater _ List.mem_cons_self
        exact absurd (Nat.le_antisymm ht' hle) (hms' (.flushed t') (by simp))
      · have hsub : rest ⊆ Mark.queued t e :: (others.map Mark.ofQueued ++ rest) :=
          fun m hm => List.mem_cons_of_mem _ (List.mem_append_right _ hm)
        obtain ⟨rfl, rfl⟩ := ih (hms.mono hsub) hrest
        exact ⟨rfl, rfl⟩
      · omega
  | @waiting t e others hothers hnow =>
      obtain ⟨others', rest', heq, hothers', hrest', hend⟩ := h'.of_queued
      have heq' : others.map Mark.ofQueued ++ [] = others'.map Mark.ofQueued ++ rest' := by
        rw [List.append_nil, heq]
      rw [← List.append_nil (others.map Mark.ofQueued)] at hms
      obtain ⟨rfl, rfl⟩ := hms.others_eq heq' hothers hothers' (fun x hx => by cases hx) hrest'
      obtain ⟨hne, -⟩ := hms t e List.mem_cons_self
      rcases hend with ⟨t', rest', sent', hflush, -⟩ | ⟨sent', -, hexpired, -⟩ | ⟨-, -, rfl, rfl⟩
      · cases hflush
      · omega
      · exact ⟨rfl, rfl⟩

/-! ### The marks of a run -/

/-- What a step has to do with the windows: the event that it queued, or that it is a flush. -/
def mark? (x : Nat × Action) (r : Reaction) : Option Mark :=
  match x.2 with
  | .submit e => if r.outcome = some .queued then some (.queued x.1 e) else none
  | .flush => some (.flushed x.1)
  | .fire _ => none

/-- **The events that a run queued, and its flushes**, at their instants. -/
def marks (xs : List (Nat × Action)) (reactions : List Reaction) : List Mark :=
  (xs.zip reactions).filterMap fun y => mark? y.1 y.2

theorem marks_cons (x : Nat × Action) (xs : List (Nat × Action)) (r : Reaction)
    (reactions : List Reaction) :
    marks (x :: xs) (r :: reactions) = (mark? x r).toList ++ marks xs reactions := by
  rw [marks, List.zip_cons_cons, List.filterMap_cons]
  cases mark? x r <;> rfl

theorem instant_of_mark? {x : Nat × Action} {r : Reaction} {m : Mark} (h : mark? x r = some m) :
    m.instant = x.1 := by
  obtain ⟨instant, a⟩ := x
  cases a with
  | submit e =>
      obtain ⟨-, hm⟩ := Option.ite_none_right_eq_some.1 h
      rw [← Option.some.inj hm]
      rfl
  | flush =>
      rw [← Option.some.inj h]
      rfl
  | fire w => exact absurd h (by simp [mark?])

/-- Marks are made at the instants of steps. -/
theorem exists_step_of_mem_marks {xs : List (Nat × Action)} {reactions : List Reaction} {m : Mark}
    (h : m ∈ marks xs reactions) : ∃ x ∈ xs, m.instant = x.1 := by
  obtain ⟨⟨x, r⟩, hmem, hm⟩ := List.mem_filterMap.1 h
  exact ⟨x, (List.of_mem_zip hmem).1, instant_of_mark? hm⟩

/-- Marks are in order, as the steps of a run are. -/
theorem Punctual.pairwise_marks {mode : IntegrationMode} {delay finish : Nat}
    {xs : List (Nat × Action)} {t : Timeline} (h : Punctual mode delay finish t xs)
    (reactions : List Reaction) :
    (marks xs reactions).Pairwise fun m m' => m.instant ≤ m'.instant := by
  induction xs generalizing t reactions with
  | nil => exact List.Pairwise.nil
  | cons x xs ih =>
      cases reactions with
      | nil => exact List.Pairwise.nil
      | cons r reactions =>
          rw [marks_cons, List.pairwise_append]
          refine ⟨?_, ih h.2 reactions, ?_⟩
          · cases mark? x r with
            | none => exact List.Pairwise.nil
            | some m => exact List.pairwise_singleton _ m
          · intro m hm m' hm'
            obtain ⟨y, hy, hinstant⟩ := exists_step_of_mem_marks hm'
            rw [instant_of_mark? (Option.mem_toList.1 hm), hinstant]
            have hle := h.2.le_of_mem.2 y hy
            rwa [now_occur] at hle

/-! ### The open window -/

/-- **The events that wait in the open window**, with the instants at which they were queued.  The
first of them decides when the window is due. -/
structure Holds (delay : Nat) (t : Timeline) (held : List (Nat × Event)) : Prop where
  timed : t.pipeline.IsTimed
  pending : t.pipeline.pending = held.map Prod.snd
  due : t.due = held.head?.map fun first => first.1 + delay
  inTime : ∀ first ∈ held.head?, ∀ x ∈ held, x.1 ≤ first.1 + delay

theorem holds_start (delay : Nat) : Holds delay {} [] :=
  ⟨Pipeline.isTimed_start, rfl, rfl, by simp⟩

variable {mode : IntegrationMode} {delay : Nat}

theorem Holds.eq_nil_iff {t : Timeline} {held : List (Nat × Event)} (h : Holds delay t held) :
    held = [] ↔ t.pipeline.timer = none := by
  constructor
  · intro hnil
    cases htimer : t.pipeline.timer with
    | none => rfl
    | some w =>
        have hne : t.pipeline.pending ≠ [] := h.timed.pending_iff.2 (by rw [htimer]; rfl)
        exact absurd (by rw [h.pending, hnil]; rfl) hne
  · intro hnone
    cases held with
    | nil => rfl
    | cons first others =>
        have hsome : t.pipeline.timer.isSome = true := h.timed.pending_iff.1 (by simp [h.pending])
        simp [hnone] at hsome

/-- The first event decides when the window is due, and the others are in time for it. -/
theorem Holds.of_cons {t : Timeline} {first : Nat × Event} {others : List (Nat × Event)}
    (h : Holds delay t (first :: others)) :
    t.due = some (first.1 + delay) ∧ ∀ x ∈ others, x.1 ≤ first.1 + delay :=
  ⟨h.due, fun x hmem => h.inTime first rfl x (List.mem_cons_of_mem _ hmem)⟩

/-- An event that is queued joins those that wait, and is in time for the window. -/
theorem Holds.queue {t : Timeline} {held : List (Nat × Event)} (h : Holds delay t held)
    {instant : Nat} {e : Event} (hx : t.Allows (instant, .submit e))
    (hq : t.pipeline.outcome mode e = .queued) :
    Holds delay (t.occur mode delay (instant, .submit e)).2 (held ++ [(instant, e)]) := by
  have hpipeline := (pipeline_occur mode delay t (instant, .submit e)).2
  constructor
  · rw [hpipeline]
    exact h.timed.step mode (.submit e)
  · rw [hpipeline, Pipeline.step, Pipeline.submit_eq, if_pos hq, Pipeline.pending_enqueue,
      h.pending, List.map_append, List.map_singleton]
  · cases held with
    | nil =>
        have hnone : t.pipeline.timer = none := h.eq_nil_iff.1 rfl
        exact due_submit_of_queued mode delay (t := { t with now := instant }) hnone hq
    | cons first others =>
        have hsome : t.pipeline.timer.isSome = true := by
          rw [Option.isSome_iff_ne_none]
          exact fun hnone => absurd (h.eq_nil_iff.2 hnone) (by simp)
        exact (due_submit_of_armed mode delay (t := { t with now := instant }) hsome e).trans h.due
  · cases held with
    | nil => simp
    | cons first others =>
        intro first' hfirst x hmem
        obtain rfl : first = first' := Option.some.inj hfirst
        rcases List.mem_append.1 hmem with hmem | hmem
        · exact h.inTime first rfl x hmem
        · rw [List.mem_singleton.1 hmem]
          exact (hx.2 _ h.of_cons.1).1

/-- **What one step makes of the open window**: an event joins it; nothing happens to it; a flush
closes it, if it is open; or its timer closes it, at the instant at which it is due. -/
theorem Holds.occur (mode : IntegrationMode) {t : Timeline} {held : List (Nat × Event)}
    (h : Holds delay t held) {x : Nat × Action} (hx : t.Allows x) :
    (∃ e, mark? x (t.occur mode delay x).1 = some (.queued x.1 e) ∧
      (t.occur mode delay x).1.batch = [] ∧
      Holds delay (t.occur mode delay x).2 (held ++ [(x.1, e)])) ∨
    (mark? x (t.occur mode delay x).1 = none ∧ (t.occur mode delay x).1.batch = [] ∧
      Holds delay (t.occur mode delay x).2 held) ∨
    (mark? x (t.occur mode delay x).1 = some (.flushed x.1) ∧
      (t.occur mode delay x).1.batch = held.map Prod.snd ∧
      (∀ first ∈ held.head?, x.1 ≤ first.1 + delay) ∧ Holds delay (t.occur mode delay x).2 []) ∨
    ∃ first ∈ held.head?, x.1 = first.1 + delay ∧ mark? x (t.occur mode delay x).1 = none ∧
      (t.occur mode delay x).1.batch = held.map Prod.snd ∧
      Holds delay (t.occur mode delay x).2 [] := by
  obtain ⟨instant, a⟩ := x
  cases a with
  | submit e =>
      by_cases hq : t.pipeline.outcome mode e = .queued
      · refine Or.inl ⟨e, ?_, rfl, h.queue hx hq⟩
        simp [mark?, Timeline.occur, submit_outcome, Pipeline.submit_eq, hq]
      · have hsame : (t.occur mode delay (instant, .submit e)).2 = { t with now := instant } :=
          submit_of_ne_queued mode delay (by simpa [submit_outcome, Pipeline.submit_eq] using hq)
        refine Or.inr (Or.inl ⟨?_, rfl, ?_⟩)
        · simp [mark?, Timeline.occur, submit_outcome, Pipeline.submit_eq, hq]
        · rw [hsame]
          exact ⟨h.timed, h.pending, h.due, h.inTime⟩
  | flush =>
      refine Or.inr (Or.inr (Or.inl ⟨rfl, h.pending, ?_, ?_⟩))
      · intro first hfirst
        exact (hx.2 _ (by rw [h.due, hfirst]; rfl)).1
      · exact ⟨h.timed.step mode .flush, rfl, rfl, by simp⟩
  | fire w =>
      by_cases harmed : t.pipeline.timer = some w
      · have hw : w = t.pipeline.window := h.timed.eq_window w harmed
        have hflush : t.pipeline.fire w = t.pipeline.flush := h.timed.fire_of_armed harmed
        cases held with
        | nil => simp [h.eq_nil_iff.1 rfl] at harmed
        | cons first others =>
            refine Or.inr (Or.inr (Or.inr ⟨first, rfl, ?_, rfl, ?_, ?_⟩))
            · exact (hx.2 _ h.of_cons.1).2 (by rw [hw])
            · simp only [Timeline.occur, fire, hflush]
              exact h.pending
            · simp only [Timeline.occur, fire, hflush]
              exact ⟨h.timed.step mode .flush, rfl, rfl, by simp⟩
      · have hsame : t.pipeline.fire w = ([], t.pipeline) := h.timed.fire_of_not_armed harmed
        refine Or.inr (Or.inl ⟨rfl, ?_, ?_⟩)
        · simp only [Timeline.occur, fire, hsame]
        · simp only [Timeline.occur, fire, hsame]
          refine ⟨h.timed, h.pending, ?_, h.inTime⟩
          cases htimer : t.pipeline.timer with
          | none => simp [h.eq_nil_iff.2 htimer]
          | some w' => exact h.due

/-! ### The batches of a run -/

theorem batches_singleton (r : Reaction) :
    batches [r] = if r.batch = [] then [] else [r.batch] := by
  cases h : r.batch <;> simp [batches, h]

/-- **The batches of a run are the greedy partition**, where events may already wait. -/
theorem greedy_run {finish : Nat} {xs : List (Nat × Action)} {t : Timeline}
    {held : List (Nat × Event)} (hheld : Holds delay t held)
    (h : Punctual mode delay finish t xs) :
    Greedy delay finish
      (held.map Mark.ofQueued ++ marks xs (t.pipeline.run mode (xs.map Prod.snd)).1)
      (batches (t.pipeline.run mode (xs.map Prod.snd)).1)
      (t.pipeline.run mode (xs.map Prod.snd)).2.pending := by
  induction xs generalizing t held with
  | nil =>
      rw [List.map_nil, Pipeline.run, marks, List.zip_nil_left, List.filterMap_nil, List.append_nil,
        hheld.pending]
      cases held with
      | nil => exact Greedy.nil
      | cons first others =>
          obtain ⟨hdue, hothers⟩ := hheld.of_cons
          exact Greedy.waiting hothers (h.2 _ hdue)
  | cons x xs ih =>
      obtain ⟨hx, hxs⟩ := h
      obtain ⟨hreaction, hpipeline⟩ := pipeline_occur mode delay t x
      rw [List.map_cons, Pipeline.run, marks_cons, batches_cons, batches_singleton, ← hpipeline,
        ← hreaction]
      rcases hheld.occur mode hx with ⟨e, hmark, hbatch, hnext⟩ | ⟨hmark, hbatch, hnext⟩ |
        ⟨hmark, hbatch, hdue, hnext⟩ | ⟨first, hfirst, hdue, hmark, hbatch, hnext⟩
      · have hrest := ih hnext hxs
        rw [hmark, hbatch]
        rw [List.map_append, List.append_assoc] at hrest
        exact hrest
      · have hrest := ih hnext hxs
        rw [hmark, hbatch]
        exact hrest
      · have hrest := ih hnext hxs
        rw [hmark, hbatch]
        cases held with
        | nil => exact Greedy.idle hrest
        | cons first others => exact Greedy.flushed hheld.of_cons.2 (hdue first rfl) hrest
      · have hrest := ih hnext hxs
        rw [hmark, hbatch]
        cases held with
        | nil => cases hfirst
        | cons first' others =>
            obtain rfl : first' = first := Option.some.inj hfirst
            -- the clock stands at the instant at which the window was due
            obtain ⟨hfinish, hlater⟩ := hxs.le_of_mem
            rw [now_occur, hdue] at hfinish hlater
            refine Greedy.expired hheld.of_cons.2 ?_ hfinish hrest
            intro m hm
            obtain ⟨y, hy, hinstant⟩ := exists_step_of_mem_marks hm
            rw [hinstant]
            exact hlater y hy

end Timeline

end OfferLayout
