/-
**What is queued just when a window is due.**

Where no event is queued at the very instant at which a window is due, the instants decide about the
batches.  An event that is queued at that instant finds the window still open, or opens the next
one, or finds the next one open.  So it goes with the window or with the next, as long as the next
one has not been closed at that instant too.  For a window that is not open for any time that
happens by itself, and for any other one a flush can do it: `Timeline.tie_beyond_next`.

Main definitions:

* `Timeline.Tie` — **an event that is queued just when a window of a run is due**;
* `Timeline.Tie.NextIsOpen` — no flush has closed the next window before;
* `Timeline.Tie.Resolved` — the event is in one of the two batches.

Main results:

* `Timeline.Greedy.of_opening` — the partition goes on from every event that opens a window;
* `Timeline.Tie.resolved` — **ties are resolved in favour of the window or of the next**;
* `Timeline.batches_greedy` — fixed windows, and the whole of it;
* `Timeline.tie_beyond_next` — ties that go beyond the next window.
-/

import Mathlib.Logic.Basic
import OfferLayout.Proofs.Event.Greedy

set_option relaxedAutoImplicit false
set_option autoImplicit false

namespace OfferLayout

namespace Timeline

open Pipeline (Action Reaction batches)

/-! ### The queued events -/

/-- The event that a mark tells of. -/
def Mark.event? : Mark → Option Event
  | .queued _ e => some e
  | .flushed _ => none

/-- **The events that marks tell of**, in their order. -/
def eventsOf (ms : List Mark) : List Event := ms.filterMap Mark.event?

@[simp] theorem eventsOf_queued (t : Nat) (e : Event) (ms : List Mark) :
    eventsOf (.queued t e :: ms) = e :: eventsOf ms := rfl

@[simp] theorem eventsOf_flushed (t : Nat) (ms : List Mark) :
    eventsOf (.flushed t :: ms) = eventsOf ms := rfl

@[simp] theorem eventsOf_append (ms ms' : List Mark) :
    eventsOf (ms ++ ms') = eventsOf ms ++ eventsOf ms' := List.filterMap_append

@[simp] theorem eventsOf_map_ofQueued (held : List (Nat × Event)) :
    eventsOf (held.map Mark.ofQueued) = held.map Prod.snd := by
  induction held with
  | nil => rfl
  | cons x held ih =>
      rw [List.map_cons, List.map_cons, ← ih]
      rfl

/-- Marks without a flush are those of queued events. -/
theorem exists_map_ofQueued {ms : List Mark} (h : ∀ t, .flushed t ∉ ms) :
    ∃ held : List (Nat × Event), ms = held.map Mark.ofQueued := by
  induction ms with
  | nil => exact ⟨[], rfl⟩
  | cons m ms ih =>
      obtain ⟨held, rfl⟩ := ih fun t ht => h t (List.mem_cons_of_mem _ ht)
      cases m with
      | queued t e => exact ⟨(t, e) :: held, rfl⟩
      | flushed t => exact absurd List.mem_cons_self (h t)

/-- Nothing was queued before a mark that is the first of a queued event. -/
theorem eq_nil_of_eventsOf {t : Nat} {e : Event} {ms before after : List Mark}
    (h : .queued t e :: ms = before ++ after) (hbefore : eventsOf before = []) : before = [] := by
  cases before with
  | nil => rfl
  | cons m before =>
      obtain rfl : Mark.queued t e = m := (List.cons.inj h).1
      cases hbefore

/-- Queued events stand first among marks if they are the first events that those tell of. -/
theorem exists_append_of_eventsOf {held : List (Nat × Event)} {ms before after : List Mark}
    {later : List Event} (h : held.map Mark.ofQueued ++ ms = before ++ after)
    (hevents : eventsOf before = held.map Prod.snd ++ later) :
    ∃ rest, before = held.map Mark.ofQueued ++ rest ∧ ms = rest ++ after ∧
      eventsOf rest = later := by
  induction held generalizing before with
  | nil => exact ⟨before, rfl, h, hevents⟩
  | cons x held ih =>
      cases before with
      | nil => cases hevents
      | cons m before =>
          obtain ⟨rfl, htail⟩ := List.cons.inj h
          obtain ⟨rest, rfl, hms, hrest⟩ := ih htail (List.cons.inj hevents).2
          exact ⟨rest, rfl, hms, hrest⟩

/-! ### From the opening of a window -/

/-- **The partition goes on from every event that opens a window**, with the batch of that window.
-/
theorem Greedy.of_opening {delay now t : Nat} {ms before after : List Mark}
    {sent earlier later : List (List Event)} {waiting batch : List Event} {first : Event}
    (h : Greedy delay now ms sent waiting) (hms : ms = before ++ .queued t first :: after)
    (hparts : sent ++ [waiting] = earlier ++ batch :: later)
    (hbefore : eventsOf before = earlier.flatten) :
    ∃ sent', sent' ++ [waiting] = batch :: later ∧
      Greedy delay now (.queued t first :: after) sent' waiting := by
  induction h generalizing before earlier with
  | nil => simp at hms
  | idle h ih =>
      cases before with
      | nil => cases hms
      | cons m before =>
          obtain ⟨rfl, htail⟩ := List.cons.inj hms
          exact ih htail hparts hbefore
  | @flushed s t' e others rest sent waiting hothers hle h ih =>
      cases earlier with
      | nil =>
          obtain rfl := eq_nil_of_eventsOf hms hbefore
          rw [List.nil_append] at hms
          rw [← hms]
          exact ⟨_, hparts, Greedy.flushed hothers hle h⟩
      | cons b earlier =>
          simp only [List.cons_append, List.cons.injEq] at hparts
          obtain ⟨rfl, hparts⟩ := hparts
          obtain ⟨between, -, hrest, hevents⟩ :=
            exists_append_of_eventsOf (show ((s, e) :: others).map Mark.ofQueued ++ _ = _ from hms)
              hbefore
          cases between with
          | nil => cases hrest
          | cons m between =>
              simp only [List.cons_append, List.cons.injEq] at hrest
              obtain ⟨rfl, hrest⟩ := hrest
              exact ih hrest hparts hevents
  | @expired s e others rest sent waiting hothers hlater hle h ih =>
      cases earlier with
      | nil =>
          obtain rfl := eq_nil_of_eventsOf hms hbefore
          rw [List.nil_append] at hms
          rw [← hms]
          exact ⟨_, hparts, Greedy.expired hothers hlater hle h⟩
      | cons b earlier =>
          simp only [List.cons_append, List.cons.injEq] at hparts
          obtain ⟨rfl, hparts⟩ := hparts
          obtain ⟨between, -, hrest, hevents⟩ :=
            exists_append_of_eventsOf (show ((s, e) :: others).map Mark.ofQueued ++ _ = _ from hms)
              hbefore
          exact ih hrest hparts hevents
  | @waiting s e others hothers hle =>
      cases earlier with
      | nil =>
          obtain rfl := eq_nil_of_eventsOf hms hbefore
          rw [List.nil_append] at hms
          rw [← hms]
          exact ⟨_, hparts, Greedy.waiting hothers hle⟩
      | cons b earlier => simp at hparts

/-! ### Ties -/

/-- **An event that is queued just when a window of a run is due**, among the marks `ms` of the run
and the parts into which its queued events fall. -/
structure Tie (delay : Nat) (ms : List Mark) (parts : List (List Event)) where
  /-- The marks before the opening of the window. -/
  before : List Mark
  /-- The instant at which the window is opened. -/
  opened : Nat
  /-- The event that opens the window. -/
  first : Event
  /-- The marks between the opening and the event. -/
  between : List Mark
  /-- The event that is queued at the instant at which the window is due. -/
  tied : Event
  /-- The marks after the event. -/
  after : List Mark
  /-- The parts before that of the window. -/
  earlier : List (List Event)
  /-- The part of the window. -/
  batch : List Event
  /-- The parts after that of the window. -/
  later : List (List Event)
  /-- These are the marks of the run. -/
  marks_eq : ms =
    before ++ .queued opened first :: (between ++ .queued (opened + delay) tied :: after)
  /-- These are the parts of its queued events. -/
  parts_eq : parts = earlier ++ batch :: later
  /-- The part of the window begins with the event that opens it. -/
  opens : eventsOf before = earlier.flatten

namespace Tie

variable {delay : Nat} {ms : List Mark} {parts : List (List Event)}

/-- The part after that of the window. -/
def next (x : Tie delay ms parts) : List Event := x.later.headD []

/-- The events that are queued from the opening of the window on, before the tied one. -/
def queued (x : Tie delay ms parts) : List Event := x.first :: eventsOf x.between

/-- **The next window is open still**: if there is a flush between the opening of the window and the
tied event, then just when the window is due, and no event of the next window was queued before. -/
def NextIsOpen (x : Tie delay ms parts) : Prop :=
  ∀ u t v, x.between = u ++ .flushed t :: v →
    t = x.opened + delay ∧ x.first :: eventsOf u <+: x.batch

/-- **The tied event is in the batch of the window, or in the next one**, at the place where it was
queued, and not in both. -/
def Resolved (x : Tie delay ms parts) : Prop :=
  Xor (x.queued ++ [x.tied] <+: x.batch)
    (∃ rest, x.queued = x.batch ++ rest ∧ rest ++ [x.tied] <+: x.next)

end Tie

/-- A batch that ends before the last events that were queued does not have what is queued after
them. -/
theorem not_prefix_of_eq_append {queued batch rest : List Event} {e : Event}
    (h : queued = batch ++ rest) : ¬ queued ++ [e] <+: batch := by
  intro hprefix
  have hlength : (queued ++ [e]).length ≤ batch.length := hprefix.length_le
  rw [h, List.length_append, List.length_append, List.length_singleton] at hlength
  omega

/-- **Events that are queued at one instant go together**, also after flushes that find nothing. -/
theorem Greedy.together_after_flushes {delay now t : Nat} {between after : List Mark} {e : Event}
    {sent : List (List Event)} {waiting : List Event} (hdelay : 0 < delay)
    (hinstant : ∀ m ∈ between, m.instant = t)
    (hflush : ∀ u t' v, between = u ++ .flushed t' :: v → eventsOf u = [])
    (h : Greedy delay now (between ++ .queued t e :: after) sent waiting) :
    eventsOf between ++ [e] <+: (sent ++ [waiting]).headD [] := by
  induction between with
  | nil =>
      have htied : Greedy delay now ([(t, e)].map Mark.ofQueued ++ after) sent waiting := h
      obtain ⟨part, hpart, hprefix⟩ := htied.together hdelay (List.forall_mem_singleton.2 rfl)
      rw [List.headD_eq_head?_getD, hpart]
      exact hprefix
  | cons m between ih =>
      cases m with
      | flushed t' =>
          cases h with
          | idle h =>
              refine ih (fun m hm => hinstant m (List.mem_cons_of_mem _ hm)) ?_ h
              intro u t'' v huv
              exact hflush (.flushed t' :: u) t'' v (congrArg _ huv)
      | queued s x =>
          -- an event was queued, so no flush can follow
          have hnone : ∀ t', .flushed t' ∉ Mark.queued s x :: between := by
            intro t' hmem
            obtain ⟨u, v, huv⟩ := List.append_of_mem hmem
            obtain rfl := eq_nil_of_eventsOf huv (hflush u t' v huv)
            cases huv
          obtain ⟨held, hheld⟩ := exists_map_ofQueued hnone
          have htied : ∀ y ∈ held ++ [(t, e)], y.1 = t := by
            intro y hy
            rcases List.mem_append.1 hy with hy | hy
            · have hmem : Mark.ofQueued y ∈ Mark.queued s x :: between := by
                rw [hheld]
                exact List.mem_map_of_mem hy
              exact hinstant _ hmem
            · rw [List.mem_singleton.1 hy]
          rw [hheld] at h ⊢
          have hall : Greedy delay now ((held ++ [(t, e)]).map Mark.ofQueued ++ after) sent
              waiting := by
            rw [List.map_append, List.append_assoc]
            exact h
          obtain ⟨part, hpart, hprefix⟩ := hall.together hdelay htied
          rw [List.headD_eq_head?_getD, hpart, eventsOf_map_ofQueued]
          rwa [List.map_append] at hprefix

/-- An event is one of the first queued ones among the marks, or it comes after those. -/
theorem prefix_or_exists_append {t : Nat} {tied : Event} {others : List (Nat × Event)}
    {between after rest : List Mark}
    (h : between ++ .queued t tied :: after = others.map Mark.ofQueued ++ rest) :
    (eventsOf between ++ [tied] <+: others.map Prod.snd) ∨
      ∃ mid, between = others.map Mark.ofQueued ++ mid ∧ rest = mid ++ .queued t tied :: after := by
  rcases List.append_eq_append_iff.1 h with ⟨mid, hothers, hmid⟩ | ⟨mid, hbetween, hmid⟩
  · cases mid with
    | nil =>
        refine Or.inr ⟨[], ?_, hmid.symm⟩
        rw [hothers, List.append_nil, List.append_nil]
    | cons m mid =>
        obtain ⟨rfl, -⟩ := List.cons.inj hmid
        refine Or.inl ⟨eventsOf mid, ?_⟩
        rw [← eventsOf_map_ofQueued, hothers, eventsOf_append, eventsOf_queued, List.append_assoc,
          List.singleton_append]
  · exact Or.inr ⟨mid, hbetween, hmid⟩

namespace Tie

variable {delay : Nat} {ms : List Mark} {parts : List (List Event)}

/-- After the events of the window, flushes come just when it is due, and before the events of the
next one. -/
theorem NextIsOpen.of_append {x : Tie delay ms parts} (h : x.NextIsOpen)
    {others : List (Nat × Event)} {mid : List Mark}
    (hbetween : x.between = others.map Mark.ofQueued ++ mid)
    (hbatch : x.batch = x.first :: others.map Prod.snd) {u v : List Mark} {t : Nat}
    (hmid : mid = u ++ .flushed t :: v) : t = x.opened + delay ∧ eventsOf u = [] := by
  obtain ⟨ht, hprefix⟩ := h (others.map Mark.ofQueued ++ u) t v
    (by rw [hbetween, hmid, List.append_assoc])
  rw [hbatch, eventsOf_append, eventsOf_map_ofQueued, ← List.cons_append] at hprefix
  have hlength := hprefix.length_le
  rw [List.length_append] at hlength
  exact ⟨ht, List.length_eq_zero_iff.1 (by omega)⟩

/-- The marks after the events of the window are in the order of their instants. -/
theorem pairwise_of_append {x : Tie delay ms parts}
    (hms : ms.Pairwise fun m m' => m.instant ≤ m'.instant) {others : List (Nat × Event)}
    {mid : List Mark} (hbetween : x.between = others.map Mark.ofQueued ++ mid) :
    (mid ++ .queued (x.opened + delay) x.tied :: x.after).Pairwise
      fun m m' : Mark => m.instant ≤ m'.instant := by
  rw [x.marks_eq] at hms
  have hwindow := (List.pairwise_append.1 hms).2.1.of_cons
  rw [hbetween, List.append_assoc] at hwindow
  exact (List.pairwise_append.1 hwindow).2.1

/-- The next window begins with what is queued after the window is closed, up to the tied event, if
that is all at the instant at which the window is due. -/
theorem NextIsOpen.begins_next {x : Tie delay ms parts} (h : x.NextIsOpen) (hdelay : 0 < delay)
    {others : List (Nat × Event)} {mid closing rest : List Mark}
    (hbetween : x.between = others.map Mark.ofQueued ++ mid)
    (hbatch : x.batch = x.first :: others.map Prod.snd) (hmid : mid = closing ++ rest)
    (hinstant : ∀ m ∈ rest, m.instant = x.opened + delay) {now : Nat} {sent : List (List Event)}
    {waiting : List Event} (hlater : sent ++ [waiting] = x.later)
    (hgreedy : Greedy delay now (rest ++ .queued (x.opened + delay) x.tied :: x.after) sent
      waiting) :
    eventsOf rest ++ [x.tied] <+: x.next := by
  rw [next, ← hlater]
  refine hgreedy.together_after_flushes hdelay hinstant ?_
  intro u t v huv
  have hnone : eventsOf (closing ++ u) = [] :=
    (h.of_append hbetween hbatch (by rw [hmid, huv, List.append_assoc])).2
  rw [eventsOf_append] at hnone
  exact (List.append_eq_nil_iff.1 hnone).2

/-- **A tie is resolved in favour of the window or of the next one**, if windows stay open for any
time and the next one is open still. -/
theorem resolved {now : Nat} {sent : List (List Event)} {waiting : List Event} (hdelay : 0 < delay)
    (h : Greedy delay now ms sent waiting)
    (hms : ms.Pairwise fun m m' => m.instant ≤ m'.instant)
    (x : Tie delay ms (sent ++ [waiting])) (hnext : x.NextIsOpen) : x.Resolved := by
  obtain ⟨sent', hsent, hfrom⟩ := h.of_opening x.marks_eq x.parts_eq x.opens
  obtain ⟨others, rest, heq, -, -, hend⟩ := hfrom.of_queued
  have hbatch : x.batch = x.first :: others.map Prod.snd := by
    rcases hend with ⟨_, _, _, -, -, rfl, -⟩ | ⟨_, -, -, rfl, -⟩ | ⟨-, -, rfl, hwaiting⟩
    · exact (List.cons.inj hsent).1.symm
    · exact (List.cons.inj hsent).1.symm
    · exact (List.cons.inj hsent).1.symm.trans hwaiting
  rcases prefix_or_exists_append heq with hin | ⟨mid, hbetween, hrest⟩
  · have hall : x.queued ++ [x.tied] <+: x.batch := by
      rw [hbatch]
      exact List.cons_prefix_cons.2 ⟨rfl, hin⟩
    refine Or.inl ⟨hall, ?_⟩
    rintro ⟨rest', hqueued, -⟩
    exact not_prefix_of_eq_append hqueued hall
  · have hqueued : x.queued = x.batch ++ eventsOf mid := by
      rw [queued, hbetween, hbatch, eventsOf_append, eventsOf_map_ofQueued, List.cons_append]
    have hsorted := pairwise_of_append hms hbetween
    have hle : ∀ m ∈ mid, m.instant ≤ x.opened + delay := fun m hm =>
      (List.pairwise_append.1 hsorted).2.2 m hm _ List.mem_cons_self
    have hgoes : eventsOf mid ++ [x.tied] <+: x.next := by
      rcases hend with ⟨t, rest', sent'', rfl, -, rfl, hgreedy⟩ |
        ⟨sent'', hafter, -, rfl, hgreedy⟩ | ⟨rfl, -⟩
      · -- a flush has closed the window, at the instant of the tied event
        cases mid with
        | nil => cases hrest
        | cons m mid =>
            obtain ⟨rfl, rfl⟩ := List.cons.inj hrest
            obtain ⟨rfl, -⟩ := hnext.of_append (u := []) hbetween hbatch rfl
            have hinstant : ∀ m ∈ mid, m.instant = x.opened + delay := fun m hm =>
              Nat.le_antisymm (hle m (List.mem_cons_of_mem _ hm))
                ((List.pairwise_cons.1 hsorted).1 m (List.mem_append_left _ hm))
            rw [eventsOf_flushed]
            exact hnext.begins_next hdelay hbetween hbatch List.singleton_append.symm hinstant
              (List.cons.inj hsent).2 hgreedy
      · -- the timer has closed it, and nothing that follows is earlier
        rw [hrest] at hafter hgreedy
        have hinstant : ∀ m ∈ mid, m.instant = x.opened + delay := fun m hm =>
          Nat.le_antisymm (hle m hm) (hafter m (List.mem_append_left _ hm))
        exact hnext.begins_next hdelay hbetween hbatch (List.nil_append _).symm hinstant
          (List.cons.inj hsent).2 hgreedy
      · simp at hrest
    exact Or.inr ⟨⟨eventsOf mid, hqueued, hgoes⟩, not_prefix_of_eq_append hqueued⟩

/-- A tied event that is in neither of the two batches is not resolved. -/
theorem not_resolved {x : Tie delay ms parts} (hbatch : x.tied ∉ x.batch)
    (hnext : x.tied ∉ x.next) : ¬ x.Resolved := by
  rintro (⟨hin, -⟩ | ⟨⟨rest, -, hin⟩, -⟩)
  · exact hbatch (hin.subset (List.mem_append_right _ List.mem_cons_self))
  · exact hnext (hin.subset (List.mem_append_right _ List.mem_cons_self))

end Tie

/-! ### Fixed windows -/

/-- **Windows are fixed, and the batches are the greedy partition of the queued events.**  For every
delay: in every run that the clock allows, whatever the order of the steps at one instant, the
batches are a greedy partition, and the only one if there are no ties; so they are if the clock
moves when it is told to.  What is not queued neither opens a window nor moves a deadline.  If
windows stay open for any time, an event that is queued just when one is due goes with it or with
the next, but not with both, unless a flush has closed the next one before. -/
theorem batches_greedy (mode : IntegrationMode) (delay : Nat) :
    (∀ (xs : List (Nat × Action)) (finish : Nat), Punctual mode delay finish {} xs →
      Greedy delay finish (marks xs (Pipeline.run mode {} (xs.map Prod.snd)).1)
          (batches (Pipeline.run mode {} (xs.map Prod.snd)).1)
          (Pipeline.run mode {} (xs.map Prod.snd)).2.pending ∧
        (Untied delay finish (marks xs (Pipeline.run mode {} (xs.map Prod.snd)).1) →
          ∀ sent waiting,
            Greedy delay finish (marks xs (Pipeline.run mode {} (xs.map Prod.snd)).1) sent waiting →
            sent = batches (Pipeline.run mode {} (xs.map Prod.snd)).1 ∧
              waiting = (Pipeline.run mode {} (xs.map Prod.snd)).2.pending)) ∧
    (∀ moves : List Move,
      Greedy delay (play mode delay {} moves).2.now
        (marks (stepsOf mode delay {} moves)
          (Pipeline.run mode {} ((stepsOf mode delay {} moves).map Prod.snd)).1)
        (batches (play mode delay {} moves).1)
        (play mode delay {} moves).2.pipeline.pending) ∧
    (∀ (t : Timeline) (e : Event), (t.submit mode delay e).1 ≠ .queued →
      (t.submit mode delay e).2 = t) ∧
    ∀ (xs : List (Nat × Action)) (finish : Nat), Punctual mode delay finish {} xs → 0 < delay →
      ∀ x : Tie delay (marks xs (Pipeline.run mode {} (xs.map Prod.snd)).1)
        (batches (Pipeline.run mode {} (xs.map Prod.snd)).1 ++
          [(Pipeline.run mode {} (xs.map Prod.snd)).2.pending]),
        x.NextIsOpen → x.Resolved := by
  have hruns : ∀ (xs : List (Nat × Action)) (finish : Nat), Punctual mode delay finish {} xs →
      Greedy delay finish (marks xs (Pipeline.run mode {} (xs.map Prod.snd)).1)
        (batches (Pipeline.run mode {} (xs.map Prod.snd)).1)
        (Pipeline.run mode {} (xs.map Prod.snd)).2.pending := by
    intro xs finish h
    have hgreedy := greedy_run (holds_start delay) h
    rwa [List.map_nil, List.nil_append] at hgreedy
  refine ⟨?_, ?_, fun t e h => submit_of_ne_queued mode delay h, ?_⟩
  · intro xs finish h
    exact ⟨hruns xs finish h, fun hms sent waiting h' => Greedy.unique hms h' (hruns xs finish h)⟩
  · intro moves
    have hstart : IsTimely {} := by
      intro due hdue
      cases hdue
    have hpunctual : Punctual mode delay (play mode delay {} moves).2.now {}
        (stepsOf mode delay {} moves) := punctual_stepsOf hstart (Nat.le_refl 0) moves
    have hgreedy := hruns _ _ hpunctual
    obtain ⟨hlast, hsent, -⟩ := play_eq_run mode delay {} moves
    rw [← hlast, ← hsent] at hgreedy
    exact hgreedy
  · intro xs finish h hdelay x hnext
    exact x.resolved hdelay (hruns xs finish h) (h.pairwise_marks _) hnext

/-- An event that is queued just when the window is due goes with it or with the next, as the timer
fires after it or before; also with the next one if a flush closes the window at that instant.  A
duplicate does not count. -/
theorem batches_greedy_tie :
    let a := Event.observed "1" "" .viewed "session" "parent" "page" ""
    let b := Event.observed "2" "" .dismissal "session" "parent" "page" ""
    let opened : Timeline := { pipeline := Pipeline.enqueue {} a, now := 3, due := some 5 }
    let flushed : Tie 5 [.queued 0 a, .flushed 5, .queued 5 b] [[a], [b]] :=
      ⟨[], 0, a, [.flushed 5], b, [], [], [a], [[b]], rfl, rfl, rfl⟩
    Greedy 5 5 [.queued 0 a, .queued 5 b] [[a, b]] [] ∧
      Greedy 5 5 [.queued 0 a, .queued 5 b] [[a]] [b] ∧
      (∀ sent waiting, Greedy 5 9 [.queued 0 a, .queued 7 b] sent waiting →
        sent = [[a]] ∧ waiting = [b]) ∧
      (opened.submit .client 5 a).2 = opened ∧
      flushed.NextIsOpen ∧ flushed.Resolved := by
  intro a b opened flushed
  obtain ⟨hruns, -, hdropped, hties⟩ := batches_greedy .client 5
  have hafter := hruns [(0, .submit a), (5, .submit b), (5, .fire 1)] 5 (by decide +kernel)
  have hbefore := hruns [(0, .submit a), (5, .fire 1), (5, .submit b)] 5 (by decide +kernel)
  have hlater := hruns [(0, .submit a), (3, .submit a), (5, .fire 1), (7, .submit b)] 9
    (by decide +kernel)
  have huntied : Untied 5 9 [.queued 0 a, .queued 7 b] := by
    intro t e hmem
    rcases hmem with _ | ⟨_, _ | ⟨_, hmem⟩⟩
    · simp [Mark.instant]
    · simp [Mark.instant]
    · cases hmem
  have hopen : flushed.NextIsOpen := by
    intro u t v huv
    cases u with
    | nil => exact ⟨(Mark.flushed.inj (List.cons.inj huv).1).symm, List.prefix_rfl⟩
    | cons m u => cases (List.append_eq_nil_iff.1 (List.cons.inj huv).2.symm).2
  refine ⟨hafter.1, hbefore.1, hlater.2 huntied, ?_, hopen, ?_⟩
  · exact hdropped opened a (by decide +kernel)
  · exact hties [(0, .submit a), (5, .flush), (5, .submit b)] 5 (by decide +kernel) (by decide)
      flushed hopen

/-- **Ties that go beyond the next window.**  An event opens a window, whose timer fires when it is
due, at the instant 25.  Then, still at that instant, a second event is queued, there is a flush,
and a third event is queued: it is neither in the batch of the window nor in the next one.  If
windows are not open for any time, timers alone do as much. -/
theorem tie_beyond_next :
    let a := Event.observed "1" "" .viewed "session" "parent" "page" ""
    let b := Event.observed "2" "" .dismissal "session" "parent" "page" ""
    let c := Event.observed "3" "" .response "session" "parent" "page" ""
    let xs : List (Nat × Action) :=
      [(0, .submit a), (25, .fire 1), (25, .submit b), (25, .flush), (25, .submit c)]
    let ys : List (Nat × Action) :=
      [(0, .submit a), (0, .fire 1), (0, .submit b), (0, .fire 2), (0, .submit c)]
    (Punctual .client 25 25 {} xs ∧
      ∃ x : Tie 25 (marks xs (Pipeline.run .client {} (xs.map Prod.snd)).1)
        (batches (Pipeline.run .client {} (xs.map Prod.snd)).1 ++
          [(Pipeline.run .client {} (xs.map Prod.snd)).2.pending]),
        x.first = a ∧ x.tied = c ∧ c ∉ x.batch ∧ c ∉ x.next ∧ ¬ x.Resolved) ∧
    (Punctual .client 0 0 {} ys ∧
      ∃ y : Tie 0 (marks ys (Pipeline.run .client {} (ys.map Prod.snd)).1)
        (batches (Pipeline.run .client {} (ys.map Prod.snd)).1 ++
          [(Pipeline.run .client {} (ys.map Prod.snd)).2.pending]),
        y.first = a ∧ y.tied = c ∧ c ∉ y.batch ∧ c ∉ y.next ∧ ¬ y.Resolved) := by
  intro a b c xs ys
  have hne : c ∉ [a] ∧ c ∉ [b] := by decide +kernel
  have hmarks : marks xs (Pipeline.run .client {} (xs.map Prod.snd)).1 =
      [.queued 0 a, .queued 25 b, .flushed 25, .queued 25 c] := by decide +kernel
  have hparts : batches (Pipeline.run .client {} (xs.map Prod.snd)).1 ++
      [(Pipeline.run .client {} (xs.map Prod.snd)).2.pending] = [[a], [b], [c]] := by
    decide +kernel
  have hmarks' : marks ys (Pipeline.run .client {} (ys.map Prod.snd)).1 =
      [.queued 0 a, .queued 0 b, .queued 0 c] := by decide +kernel
  have hparts' : batches (Pipeline.run .client {} (ys.map Prod.snd)).1 ++
      [(Pipeline.run .client {} (ys.map Prod.snd)).2.pending] = [[a], [b], [c]] := by
    decide +kernel
  refine ⟨⟨by decide +kernel, ?_⟩, by decide +kernel, ?_⟩
  · refine ⟨⟨[], 0, a, [.queued 25 b, .flushed 25], c, [], [], [a], [[b], [c]], hmarks, hparts,
      rfl⟩, rfl, rfl, hne.1, hne.2, ?_⟩
    exact Tie.not_resolved hne.1 hne.2
  · refine ⟨⟨[], 0, a, [.queued 0 b], c, [], [], [a], [[b], [c]], hmarks', hparts', rfl⟩, rfl, rfl,
      hne.1, hne.2, ?_⟩
    exact Tie.not_resolved hne.1 hne.2

end Timeline

end OfferLayout
