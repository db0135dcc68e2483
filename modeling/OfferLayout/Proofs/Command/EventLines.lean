/-
**The events of a file, line by line.**

A file of events is read line by line, and a blank line is passed over.  The first line that is no
event stops the reading, and it is named by its number, in which blank lines count.  So a file is
either the list of its events, one for each line that is not blank, or it has a first faulty line.

Main definitions:

* `Event.IsOn` — the event that a line describes;
* `eventLines` — the lines of a text that are not blank;
* `FirstFaultyLine` — **the first line that is no event**, by its number.

Main results:

* `eventsOfLines_eq_ok_iff`, `eventsOfLines_eq_error_iff` — what comes of reading lines;
* `FirstFaultyLine.unique` — there is one first line that is no event, at most;
* `ReplayRequest.loadEvents_cases` — **a replay loads all its events, or names the first fault**.
-/

import Mathlib.Data.List.Forall2
import OfferLayout.Proofs.Event.RoundTrip

set_option relaxedAutoImplicit false
set_option autoImplicit false

namespace OfferLayout

/-! ### The lines of a file of events -/

/-- The event that a line describes. -/
def Event.IsOn (e : Event) (line : List Char) : Prop :=
  Event.ofString? (String.ofList (withoutReturn line)) = some e

/-- The lines of a text that are not blank. -/
def eventLines (text : String) : List (List Char) :=
  (Text.fields '\n' text.toList).filter fun line => !Text.isAllBlank line

/-- **The first line that is no event**, by its number: it is not blank, describes no event, and
every line before it is blank or describes one. -/
def FirstFaultyLine (lines : List (List Char)) (number : Nat) : Prop :=
  ∃ before line after, lines = before ++ line :: after ∧ number = before.length + 1 ∧
    Text.isAllBlank line = false ∧ (∀ e : Event, ¬ e.IsOn line) ∧
    ∀ earlier ∈ before, Text.isAllBlank earlier = false → ∃ e : Event, e.IsOn earlier

theorem Event.isOn_iff {line : List Char} {e : Event} :
    e.IsOn line ↔ Event.ofString? (String.ofList (withoutReturn line)) = some e := Iff.rfl

/-- The text of an event describes the event. -/
theorem Event.isOn_text (e : Event) : e.IsOn e.text.toList := by
  rw [isOn_iff, e.withoutReturn_text, String.ofList_toList, e.ofString?_text]

theorem firstFaultyLine_cons_iff {line : List Char} {lines : List (List Char)} {number : Nat} :
    FirstFaultyLine (line :: lines) number ↔
      (number = 1 ∧ Text.isAllBlank line = false ∧ ∀ e : Event, ¬ e.IsOn line) ∨
        ∃ n, number = n + 1 ∧ (Text.isAllBlank line = false → ∃ e : Event, e.IsOn line) ∧
          FirstFaultyLine lines n := by
  constructor
  · rintro ⟨before, faulty, after, heq, rfl, hblank, hnone, hbefore⟩
    cases before with
    | nil =>
        obtain ⟨rfl, -⟩ := List.cons.inj heq
        exact Or.inl ⟨rfl, hblank, hnone⟩
    | cons first before =>
        obtain ⟨rfl, rfl⟩ := List.cons.inj heq
        obtain ⟨hfirst, hbefore⟩ := List.forall_mem_cons.1 hbefore
        exact Or.inr ⟨before.length + 1, rfl, hfirst, before, faulty, after, rfl, rfl, hblank,
          hnone, hbefore⟩
  · rintro (⟨rfl, hblank, hnone⟩ |
      ⟨n, rfl, hfirst, before, faulty, after, rfl, rfl, hblank, hnone, hbefore⟩)
    · exact ⟨[], line, lines, rfl, rfl, hblank, hnone, by simp⟩
    · exact ⟨line :: before, faulty, after, rfl, rfl, hblank, hnone,
        List.forall_mem_cons.2 ⟨hfirst, hbefore⟩⟩

/-- **Lines are read** as the events that those of them describe that are not blank. -/
theorem eventsOfLines_eq_ok_iff {path : String} {number : Nat} {lines : List (List Char)}
    {events : List Event} :
    eventsOfLines path number lines = .ok events ↔
      List.Forall₂ (fun line e => Event.IsOn e line)
        (lines.filter fun line => !Text.isAllBlank line) events := by
  induction lines generalizing number events with
  | nil => simp [eventsOfLines, eq_comm]
  | cons line lines ih =>
      rw [eventsOfLines]
      cases hblank : Text.isAllBlank line with
      | true => simpa [hblank] using ih
      | false =>
          simp only [Bool.false_eq_true, if_false, List.filter_cons, hblank, Bool.not_false,
            if_true]
          constructor
          · intro h
            cases he : Event.ofString? (String.ofList (withoutReturn line)) with
            | none => simp [he] at h
            | some e =>
                cases hrest : eventsOfLines path (number + 1) lines with
                | error f => simp [he, hrest, Except.map] at h
                | ok rest =>
                    simp only [he, hrest, Except.map, Except.ok.injEq] at h
                    subst h
                    exact List.Forall₂.cons he (ih.1 hrest)
          · rintro (_ | ⟨he, hrest⟩)
            rw [Event.isOn_iff.1 he, ih.2 hrest]
            rfl

/-- **The fault of lines** is the first of them that is no event. -/
theorem eventsOfLines_eq_error_iff {path : String} {number : Nat} {lines : List (List Char)}
    {f : Failure} :
    eventsOfLines path (number + 1) lines = .error f ↔
      ∃ n, FirstFaultyLine lines n ∧ f = .badEvent path (number + n) := by
  induction lines generalizing number with
  | nil => simp [eventsOfLines, FirstFaultyLine]
  | cons line lines ih =>
      have hlater : (∃ n, FirstFaultyLine lines n ∧ f = .badEvent path (number + (n + 1))) ↔
          eventsOfLines path (number + 1 + 1) lines = .error f := by
        rw [ih]
        simp only [Nat.add_assoc, Nat.add_comm 1]
      simp only [firstFaultyLine_cons_iff]
      rw [eventsOfLines]
      cases hblank : Text.isAllBlank line with
      | true =>
          rw [if_pos rfl, ← hlater]
          simp
      | false =>
          rw [if_neg Bool.false_ne_true]
          cases he : Event.ofString? (String.ofList (withoutReturn line)) with
          | none =>
              have hnone : ∀ e : Event, ¬ e.IsOn line := by
                intro e
                rw [Event.isOn_iff, he]
                simp
              constructor
              · intro h
                cases h
                exact ⟨1, Or.inl ⟨rfl, rfl, hnone⟩, rfl⟩
              · rintro ⟨n, ⟨rfl, -, -⟩ | ⟨n, rfl, hfirst, -⟩, rfl⟩
                · rfl
                · obtain ⟨e, hon⟩ := hfirst rfl
                  exact absurd hon (hnone e)
          | some e =>
              have hmap : (eventsOfLines path (number + 1 + 1) lines).map (e :: ·) = .error f ↔
                  eventsOfLines path (number + 1 + 1) lines = .error f := by
                cases eventsOfLines path (number + 1 + 1) lines <;> simp [Except.map]
              rw [hmap, ← hlater]
              constructor
              · rintro ⟨n, hn, hf⟩
                exact ⟨n + 1, Or.inr ⟨n, rfl, fun _ => ⟨e, he⟩, hn⟩, hf⟩
              · rintro ⟨n, ⟨rfl, -, hnone⟩ | ⟨n, rfl, -, hn⟩, hf⟩
                · exact absurd he (hnone e)
                · exact ⟨n, hn, hf⟩

/-- There is one first line that is no event, at most. -/
theorem FirstFaultyLine.unique {lines : List (List Char)} {number number' : Nat}
    (h : FirstFaultyLine lines number) (h' : FirstFaultyLine lines number') : number = number' := by
  have hread : eventsOfLines "" (0 + 1) lines = .error (.badEvent "" (0 + number)) :=
    eventsOfLines_eq_error_iff.2 ⟨number, h, rfl⟩
  have hread' : eventsOfLines "" (0 + 1) lines = .error (.badEvent "" (0 + number')) :=
    eventsOfLines_eq_error_iff.2 ⟨number', h', rfl⟩
  simpa using hread.symm.trans hread'

theorem FirstFaultyLine.exists_mem {text : String} {number : Nat}
    (h : FirstFaultyLine (Text.fields '\n' text.toList) number) :
    ∃ line ∈ eventLines text, ∀ e : Event, ¬ e.IsOn line := by
  obtain ⟨before, line, after, hlines, -, hblank, hnone, -⟩ := h
  refine ⟨line, ?_, hnone⟩
  rw [eventLines, hlines, List.mem_filter]
  simp [hblank]

/-- **The events of a replay are loaded** from all lines that are not blank, or the first of them
that is no event is the fault. -/
theorem ReplayRequest.loadEvents_cases {r : ReplayRequest} {files : Files} {text : String}
    (htext : files r.events = .ok text) :
    (∃ number, FirstFaultyLine (Text.fields '\n' text.toList) number ∧
        r.loadEvents files = .error (.badEvent r.events number)) ∨
      ∃ events, List.Forall₂ (fun line e => Event.IsOn e line) (eventLines text) events ∧
        r.loadEvents files = .ok events := by
  have hload : r.loadEvents files =
      eventsOfLines r.events (0 + 1) (Text.fields '\n' text.toList) := by
    rw [loadEvents, htext]
  rw [hload]
  cases hread : eventsOfLines r.events (0 + 1) (Text.fields '\n' text.toList) with
  | error f =>
      obtain ⟨number, hfirst, rfl⟩ := eventsOfLines_eq_error_iff.1 hread
      exact Or.inl ⟨number, hfirst, by rw [Nat.zero_add]⟩
  | ok events => exact Or.inr ⟨events, eventsOfLines_eq_ok_iff.1 hread, rfl⟩

end OfferLayout
