/-
**A replay from the file of events to what is printed.**

A replay reads its events line by line and stops at the first line that is no event, before anything
is submitted.  Otherwise the events go to the pipeline on a clock that moves on after each, and what
waits at the end is flushed.  So a replay is a play of moves that ends with a flush: the pipeline is
empty after it, and what conservation says about every run becomes a statement about the batches
alone.  Whether a timer fires between two events does not matter for it.

Main definitions:

* `Replay.moves` — **the moves that make up a replay**.

Main results:

* `Replay.submitAll_eq_play` — a replay is a play of its moves;
* `Replay.flatten_batches_ofEvents` — the batches hold the queued events in order;
* `Replay.batches_ofEvents_zero` — **without time between events there is one batch at most**;
* `Invocation.run_replay` — the whole of it.
-/

import OfferLayout.Command.Run
import OfferLayout.Proofs.Command.EventLines
import OfferLayout.Proofs.Command.Report
import OfferLayout.Proofs.Event.Producers
import OfferLayout.Proofs.FirstFault

set_option relaxedAutoImplicit false
set_option autoImplicit false

namespace OfferLayout

open Json (Value)

namespace Replay

/-! ### A replay as a play -/

/-- The move between two events, if there is any time between them. -/
def wait (interval : Nat) : List Timeline.Move :=
  if interval = 0 then [] else [.advance interval]

/-- **The moves that make up a replay**: every event is submitted, and at the end the window is
closed. -/
def moves (interval : Nat) : List Event → List Timeline.Move
  | [] => [.flush]
  | e :: rest => .submit e :: (wait interval ++ moves interval rest)

theorem event?_moves (interval : Nat) (events : List Event) :
    (moves interval events).filterMap Timeline.Move.event? = events := by
  induction events with
  | nil => rfl
  | cons e events ih =>
      have hwait : (wait interval).filterMap Timeline.Move.event? = [] := by
        unfold wait
        split <;> rfl
      have hsubmit : (Timeline.Move.submit e).event? = some e := rfl
      rw [moves, List.filterMap_cons_some hsubmit, List.filterMap_append, hwait, ih,
        List.nil_append]

/-- What a reaction takes is sent as it is in a replay. -/
theorem batches_singleton (reaction : Pipeline.Reaction) :
    Pipeline.batches [reaction] = sent reaction.batch := by
  cases h : reaction.batch <;> simp [Pipeline.batches, sent, Sink.deliver, h]

/-- The move between two events is the pause between them. -/
theorem play_wait_append (set : Settings) (interval : Nat) (t : Timeline)
    (rest : List Timeline.Move) :
    (t.play set.mode set.delay (wait interval ++ rest)).1.filterMap Pipeline.Reaction.outcome =
        ((pause interval t).2.play set.mode set.delay rest).1.filterMap
          Pipeline.Reaction.outcome ∧
      Pipeline.batches (t.play set.mode set.delay (wait interval ++ rest)).1 =
        sent (pause interval t).1 ++
          Pipeline.batches ((pause interval t).2.play set.mode set.delay rest).1 := by
  by_cases h : interval = 0
  · rw [wait, pause, if_pos h, if_pos h]
    exact ⟨rfl, rfl⟩
  · rw [wait, pause, if_neg h, if_neg h, List.singleton_append, Timeline.play]
    refine ⟨rfl, ?_⟩
    rw [Pipeline.batches_cons, batches_singleton]
    rfl

/-- **A replay is a play of its moves**, from any state. -/
theorem submitAll_eq_play (set : Settings) (interval : Nat) (t : Timeline) (events : List Event) :
    submitAll set interval t events =
      { outcomes := (t.play set.mode set.delay (moves interval events)).1.filterMap
          Pipeline.Reaction.outcome
        batches := Pipeline.batches (t.play set.mode set.delay (moves interval events)).1 } := by
  induction events generalizing t with
  | nil =>
      rw [submitAll, moves, Timeline.play, Timeline.play, batches_singleton]
      rfl
  | cons e events ih =>
      obtain ⟨houtcomes, hbatches⟩ := play_wait_append set interval
        (t.submit set.mode set.delay e).2 (moves interval events)
      rw [submitAll, moves, Timeline.play, ih, Pipeline.batches_cons, batches_singleton]
      simp only [Timeline.move, List.filterMap_cons, houtcomes, hbatches]
      rfl

/-! ### The batches of a replay -/

theorem pending_moves (mode : IntegrationMode) (delay interval : Nat) (t : Timeline)
    (events : List Event) :
    (t.play mode delay (moves interval events)).2.pipeline.pending = [] := by
  induction events generalizing t with
  | nil => rfl
  | cons e events ih =>
      rw [moves, Timeline.play, wait]
      split
      · exact ih _
      · exact ih _

/-- **The outcomes of a replay** are those that follow from its events. -/
theorem outcomes_ofEvents (set : Settings) (interval : Nat) (events : List Event) :
    (ofEvents set interval events).outcomes =
      (Pipeline.outcomesAfter set.mode [] events).map Prod.snd := by
  rw [ofEvents, submitAll_eq_play, Pipeline.outcomes_play, event?_moves]

/-- **The batches of a replay** hold the queued events in the order of the file. -/
theorem flatten_batches_ofEvents (set : Settings) (interval : Nat) (events : List Event) :
    (ofEvents set interval events).batches.flatten =
      ((Pipeline.outcomesAfter set.mode [] events).filter fun x => x.2 = .queued).map Prod.fst := by
  obtain ⟨hlast, hsent, -⟩ := Timeline.play_eq_run set.mode set.delay {} (moves interval events)
  have hconserved := Pipeline.run_conserves set.mode {}
    ((Timeline.stepsOf set.mode set.delay {} (moves interval events)).map Prod.snd)
  have hpending := pending_moves set.mode set.delay interval {} events
  rw [hlast] at hpending
  rw [hpending, List.append_nil, Pipeline.queuedEvents_eq,
    Pipeline.answered_run (Pipeline.recalls_start set.mode), Pipeline.submitted_stepsOf,
    event?_moves] at hconserved
  rw [ofEvents, submitAll_eq_play, hsent]
  exact hconserved

theorem nil_notMem_batches_ofEvents (set : Settings) (interval : Nat) (events : List Event) :
    [] ∉ (ofEvents set interval events).batches := by
  rw [ofEvents, submitAll_eq_play]
  exact Pipeline.nil_notMem_batches _

/-- Without time between events, only the flush at the end sends anything. -/
theorem exists_sent_submitAll (set : Settings) (t : Timeline) (events : List Event) :
    ∃ batch, (submitAll set 0 t events).batches = sent batch := by
  induction events generalizing t with
  | nil => exact ⟨t.flush.1, rfl⟩
  | cons e events ih => exact ih (t.submit set.mode set.delay e).2

theorem flatten_sent (batch : List Event) : (sent batch).flatten = batch := by
  cases batch <;> simp [sent, Sink.deliver]

/-- **Without time between events there is one batch at most**, with all queued events. -/
theorem batches_ofEvents_zero (set : Settings) (events : List Event) :
    (ofEvents set 0 events).batches =
      sent (((Pipeline.outcomesAfter set.mode [] events).filter fun x => x.2 = .queued).map
        Prod.fst) := by
  obtain ⟨batch, hbatch⟩ := exists_sent_submitAll set {} events
  have hflat := flatten_batches_ofEvents set 0 events
  rw [ofEvents, hbatch, flatten_sent] at hflat
  rw [ofEvents, hbatch, hflat]

/-- The events of a replay that were queued, by their outcomes. -/
def queued (r : Replay) (events : List Event) : List Event :=
  ((events.zip r.outcomes).filter fun x => x.2 = .queued).map Prod.fst

theorem zip_outcomes_ofEvents (set : Settings) (interval : Nat) (events : List Event) :
    events.zip (ofEvents set interval events).outcomes =
      Pipeline.outcomesAfter set.mode [] events := by
  rw [outcomes_ofEvents]
  exact (List.zip_of_prod (Pipeline.map_fst_outcomesAfter set.mode [] events) rfl).symm

theorem length_queued {r : Replay} {events : List Event}
    (h : events.length = r.outcomes.length) : (r.queued events).length = r.count .queued := by
  have hsnd : (events.zip r.outcomes).map Prod.snd = r.outcomes :=
    List.map_snd_zip (Nat.le_of_eq h.symm)
  rw [queued, List.length_map, ← List.countP_eq_length_filter, count]
  conv_rhs => rw [← hsnd, List.count, List.countP_map]
  refine List.countP_congr ?_
  intro x _
  simp

/-- **Without time between events there is one batch** if anything was queued, and none
otherwise. -/
theorem length_batches_ofEvents_zero (set : Settings) (events : List Event) :
    (ofEvents set 0 events).batches.length =
      if (ofEvents set 0 events).count .queued = 0 then 0 else 1 := by
  have hlength : events.length = (ofEvents set 0 events).outcomes.length := by
    rw [outcomes_ofEvents, List.length_map, ← List.length_map (f := Prod.fst),
      Pipeline.map_fst_outcomesAfter]
  rw [← length_queued hlength, queued, zip_outcomes_ofEvents, batches_ofEvents_zero]
  cases ((Pipeline.outcomesAfter set.mode [] events).filter fun x => x.2 = .queued).map Prod.fst <;>
    simp [sent, Sink.deliver]

end Replay

/-! ### The whole of it -/

theorem ReplayRequest.run_eq_error {r : ReplayRequest} {files : Files} {set : Settings}
    {f : Failure} (hset : r.settings files = .ok set) (hload : r.loadEvents files = .error f) :
    r.run files = .error f := by
  rw [run, hset, hload]
  rfl

theorem ReplayRequest.run_eq_ok {r : ReplayRequest} {files : Files} {set : Settings}
    {events : List Event} (hset : r.settings files = .ok set)
    (hload : r.loadEvents files = .ok events) :
    r.run files = .ok (set, Replay.ofEvents set r.interval events) := by
  rw [run, hset, hload]
  rfl

/-- A fault shows in the exit code, and not on the standard output. -/
theorem Report.exit_stdout_ofFailure (format : OutputFormat) (quiet : Bool) (f : Failure) :
    (Report.ofFailure format quiet f).exit = 1 ∧
      (Report.ofFailure format quiet f).stdout = "" := by
  cases quiet <;> cases format <;> exact ⟨rfl, rfl⟩

theorem Replay.exit_report (format : OutputFormat) (set : Settings) (r : Replay) :
    (r.report format set).exit = 0 := by
  cases format <;> rfl

theorem Invocation.run_replay_of_error {r : ReplayRequest} {files : Files} {f : Failure}
    (h : r.run files = .error f) (format : OutputFormat) (quiet : Bool) :
    Invocation.run ⟨format, quiet, .replay r⟩ files = Report.ofFailure format quiet f := by
  rw [Invocation.run, Command.run, h]
  rfl

theorem Invocation.run_replay_of_ok {r : ReplayRequest} {files : Files} {set : Settings}
    {replay : Replay} (h : r.run files = .ok (set, replay)) (format : OutputFormat) (quiet : Bool) :
    Invocation.run ⟨format, quiet, .replay r⟩ files =
      if quiet then {} else replay.report format set := by
  rw [Invocation.run, Command.run, h]
  rfl

/-- **A replay from the file of events to what is printed**, for any settings and any time between
events.  If a line that is not blank is no event, nothing is replayed, and the message that is shown
names the first such line.  Otherwise every such line has an outcome, which follows from the events
up to it; the batches, one after the other, hold the events that were queued, in the order of the
file, and none is empty; and what is printed is read as documents that carry the batches with the
integration of the settings, and as the number of events with each outcome.  Without time between
events there is one batch if anything was queued, and none otherwise. -/
theorem Invocation.run_replay {r : ReplayRequest} {files : Files} {set : Settings} {text : String}
    (hset : r.settings files = .ok set) (htext : files r.events = .ok text)
    (format : OutputFormat) (quiet : Bool) :
    ((∃ line ∈ eventLines text, ∀ e : Event, ¬ e.IsOn line) →
      ∃ number, FirstFaultyLine (Text.fields '\n' text.toList) number ∧
        r.run files = .error (.badEvent r.events number) ∧
        Invocation.run ⟨format, quiet, .replay r⟩ files =
          Report.ofFailure format quiet (.badEvent r.events number) ∧
        (Invocation.run ⟨format, quiet, .replay r⟩ files).exit = 1 ∧
        (Invocation.run ⟨format, quiet, .replay r⟩ files).stdout = "" ∧
        (quiet = false →
          ∃ message, NamesLine message r.events number ∧
            format.ShowsFault (Invocation.run ⟨format, quiet, .replay r⟩ files).stderr message)) ∧
    ((∀ line ∈ eventLines text, ∃ e : Event, e.IsOn line) →
      ∃ events replay documents,
        List.Forall₂ (fun line e => Event.IsOn e line) (eventLines text) events ∧
        r.run files = .ok (set, replay) ∧
        replay.count .queued + replay.count .duplicate + replay.count .filtered =
          (eventLines text).length ∧
        replay.outcomes = (Pipeline.outcomesAfter set.mode [] events).map Prod.snd ∧
        replay.batches.flatten = replay.queued events ∧ [] ∉ replay.batches ∧
        (r.interval = 0 →
          replay.batches.length = if replay.count .queued = 0 then 0 else 1) ∧
        List.Forall₂ (fun batch v => Payload.IsCarriedBy ⟨set.integration, batch⟩ v)
          replay.batches documents ∧
        (Invocation.run ⟨format, quiet, .replay r⟩ files).exit = 0 ∧
        (quiet = false →
          format.Shows (Invocation.run ⟨format, quiet, .replay r⟩ files) documents
            replay.count)) := by
  rcases ReplayRequest.loadEvents_cases htext with ⟨number, hfirst, hload⟩ |
    ⟨events, hevents, hload⟩
  · have hrun := ReplayRequest.run_eq_error hset hload
    constructor
    · rintro -
      obtain ⟨hexit, hstdout⟩ :=
        Report.exit_stdout_ofFailure format quiet (.badEvent r.events number)
      rw [Invocation.run_replay_of_error hrun]
      refine ⟨number, hfirst, hrun, rfl, hexit, hstdout, ?_⟩
      rintro rfl
      exact ⟨_, Failure.namesLine_badEvent r.events number, Report.showsFault_ofFailure format _⟩
    · intro hall
      obtain ⟨line, hline, hnone⟩ := hfirst.exists_mem
      obtain ⟨e, he⟩ := hall line hline
      exact absurd he (hnone e)
  · have hrun := ReplayRequest.run_eq_ok hset hload
    constructor
    · rintro ⟨line, hline, hnone⟩
      obtain ⟨e, he⟩ := forall_left_of_forall₂ (p := fun line => ∃ e : Event, e.IsOn line)
        hevents (fun line e _ h => ⟨e, h⟩) line hline
      exact absurd he (hnone e)
    · rintro -
      refine ⟨events, Replay.ofEvents set r.interval events,
        (Replay.ofEvents set r.interval events).documents set, hevents, hrun, ?_,
        Replay.outcomes_ofEvents set r.interval events, ?_,
        Replay.nil_notMem_batches_ofEvents set r.interval events, ?_, ?_, ?_, ?_⟩
      · rw [Replay.submitted_count, Replay.outcomes_ofEvents, List.length_map,
          hevents.length_eq, ← List.length_map (f := Prod.fst), Pipeline.map_fst_outcomesAfter]
      · rw [Replay.flatten_batches_ofEvents, Replay.queued, Replay.zip_outcomes_ofEvents]
      · intro hzero
        rw [hzero]
        exact Replay.length_batches_ofEvents_zero set events
      · rw [Replay.documents, List.forall₂_map_right_iff, List.forall₂_same]
        exact fun batch _ => Payload.isCarriedBy_canonical ⟨set.integration, batch⟩
      · rw [Invocation.run_replay_of_ok hrun]
        cases quiet with
        | true => rfl
        | false => exact Replay.exit_report format set _
      · rintro rfl
        rw [Invocation.run_replay_of_ok hrun]
        exact Replay.shows_report format set _

/-- The lines of events are lines on which there are events. -/
theorem isOn_of_mem_eventLines_join {events : List Event} :
    ∀ line ∈ eventLines (String.join (events.map fun e => lineOf e.text)),
      ∃ e : Event, e.IsOn line := by
  let r : ReplayRequest := { events := "" }
  let files : Files := fun _ => .ok (String.join (events.map fun e => lineOf e.text))
  have hload : r.loadEvents files = .ok events := r.loadEvents_lines events
  rcases @ReplayRequest.loadEvents_cases r files _ rfl with ⟨number, -, herror⟩ | ⟨_, hevents, -⟩
  · cases hload.symm.trans herror
  · exact forall_left_of_forall₂ hevents fun line e _ he => ⟨e, he⟩

/-- One view is reported twice, so it is sent once; a line that is no event stops the replay, and is
found after a blank line and an event.  With more time between events than a window is open, a
dismissal is sent on its own, and the document that is printed has both batches. -/
theorem Invocation.run_replay_repeated_view :
    let viewed := Event.observed "1" "" .viewed "session" "parent" "page" ""
    let again := Event.observed "2" "" .viewed "session" "parent" "page" "token"
    let dismissed := Event.observed "3" "" .dismissal "session" "parent" "page" ""
    let r : ReplayRequest := { events := "events" }
    let files : Files := fun _ => .ok (String.join ([viewed, again].map fun e => lineOf e.text))
    let slow : ReplayRequest := { events := "events", interval := 30 }
    let more : Files :=
      fun _ => .ok (String.join ([viewed, again, dismissed].map fun e => lineOf e.text))
    let faulty : Files := fun _ => .ok ("\n" ++ lineOf viewed.text ++ "view")
    Invocation.run ⟨.text, false, .replay r⟩ faulty =
        Report.ofFailure .text false (.badEvent "events" 3) ∧
      (∃ message, NamesLine message "events" 3 ∧ OutputFormat.json.ShowsFault
        (Invocation.run ⟨.json, false, .replay slow⟩ faulty).stderr message) ∧
      (∃ replay, r.run files = .ok ({}, replay) ∧ replay.batches.flatten = [viewed] ∧
        replay.batches.length = 1) ∧
      ∃ first second, Payload.IsCarriedBy ⟨({} : Settings).integration, [viewed]⟩ first ∧
        Payload.IsCarriedBy ⟨({} : Settings).integration, [dismissed]⟩ second ∧
        Value.ofString? (Invocation.run ⟨.json, false, .replay slow⟩ more).stdout =
          some (.object [("batches", .array [first, second]), ("duplicate", .ofNat 1),
            ("filtered", .ofNat 0), ("queued", .ofNat 2)]) := by
  intro viewed again dismissed r files slow more faulty
  have hlines : Text.fields '\n' ("\n" ++ lineOf viewed.text ++ "view").toList =
      [[], viewed.text.toList, "view".toList] := by
    have hview : Text.fields '\n' "view".toList = ["view".toList] :=
      Text.fields_of_notMem (by decide)
    have htext : ("\n" ++ lineOf viewed.text ++ "view").toList =
        '\n' :: (viewed.text.toList ++ '\n' :: "view".toList) := by
      simp [lineOf]
    rw [htext, Text.fields_sep, Text.fields_append,
      Text.fields_of_notMem viewed.newLine_notMem_text, hview]
    rfl
  have hview : Text.isAllBlank "view".toList = false ∧
      Event.ofString? (String.ofList (withoutReturn "view".toList)) = none := by
    decide +kernel
  have hfault : FirstFaultyLine
      (Text.fields '\n' ("\n" ++ lineOf viewed.text ++ "view").toList) 3 := by
    refine ⟨[[], viewed.text.toList], "view".toList, [], hlines, rfl, hview.1, ?_, ?_⟩
    · intro e he
      rw [Event.isOn_iff, hview.2] at he
      cases he
    · intro line hline hblank
      rcases List.mem_cons.1 hline with rfl | hline
      · cases hblank
      · exact ⟨viewed, List.mem_singleton.1 hline ▸ viewed.isOn_text⟩
  refine ⟨?_, ?_, ?_, ?_⟩
  · obtain ⟨hfaulty, -⟩ := @Invocation.run_replay r faulty {} _ rfl rfl .text false
    obtain ⟨number, hfirst, -, hreport, -⟩ := hfaulty hfault.exists_mem
    rw [hreport, hfirst.unique hfault]
  · obtain ⟨hfaulty, -⟩ := @Invocation.run_replay slow faulty {} _ rfl rfl .json false
    obtain ⟨number, hfirst, -, -, -, -, hshown⟩ := hfaulty hfault.exists_mem
    rw [← hfirst.unique hfault]
    exact hshown rfl
  · have hrun : r.run files = .ok ({}, Replay.ofEvents {} 0 [viewed, again]) :=
      ReplayRequest.run_eq_ok rfl (r.loadEvents_lines [viewed, again])
    obtain ⟨-, hgood⟩ := @Invocation.run_replay r files {} _ rfl rfl .text false
    obtain ⟨events, replay, documents, -, hreplay, -, -, -, -, hzero, -⟩ :=
      hgood isOn_of_mem_eventLines_join
    obtain rfl : replay = Replay.ofEvents {} 0 [viewed, again] :=
      congrArg Prod.snd (Except.ok.inj (hreplay.symm.trans hrun))
    refine ⟨_, hreplay, ?_, (hzero rfl).trans ?_⟩
    · decide +kernel
    · decide +kernel
  · have hrun : slow.run more = .ok ({}, Replay.ofEvents {} 30 [viewed, again, dismissed]) :=
      ReplayRequest.run_eq_ok rfl (slow.loadEvents_lines [viewed, again, dismissed])
    obtain ⟨-, hgood⟩ := @Invocation.run_replay slow more {} _ rfl rfl .json false
    obtain ⟨events, replay, documents, -, hreplay, -, -, -, -, -, hdocuments, -, hshown⟩ :=
      hgood isOn_of_mem_eventLines_join
    obtain rfl : replay = Replay.ofEvents {} 30 [viewed, again, dismissed] :=
      congrArg Prod.snd (Except.ok.inj (hreplay.symm.trans hrun))
    have hbatches : (Replay.ofEvents {} 30 [viewed, again, dismissed]).batches =
        [[viewed], [dismissed]] := by
      decide +kernel
    have hcounts : (Replay.ofEvents {} 30 [viewed, again, dismissed]).count .queued = 2 ∧
        (Replay.ofEvents {} 30 [viewed, again, dismissed]).count .duplicate = 1 ∧
        (Replay.ofEvents {} 30 [viewed, again, dismissed]).count .filtered = 0 := by
      decide +kernel
    rw [hbatches] at hdocuments
    obtain ⟨hqueued, hduplicate, hfiltered⟩ := hcounts
    cases hdocuments with
    | cons hfirst hrest =>
        cases hrest with
        | cons hsecond hnone =>
            cases hnone
            refine ⟨_, _, hfirst, hsecond, ?_⟩
            obtain ⟨-, -, hread⟩ := hshown rfl
            rw [hqueued, hduplicate, hfiltered] at hread
            refine hread ?_
            intro o
            cases o <;> decide +kernel

end OfferLayout
