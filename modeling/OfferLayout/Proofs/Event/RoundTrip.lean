/-
**What is sent can be read back.**

A batch leaves as text.  The text is that of a document, and the integration and the events are
found in it, in their order and with nothing changed, whatever characters the strings are made of.
The text of one event describes that event, so events that were written one on a line can be
replayed.  It follows that two batches with the same text are the same batch.

An event without entries in its object is written without a member for it, and the missing member
is read as an object without entries.

Main results:

* `NameValue.ofValue?_write`, `Integration.ofValue?_write`, `Event.ofValue?_write` — each record is
  read back from its document and from the canonical form of it;
* `Event.ofString?_text` — **the text of an event describes the event**;
* `Payload.ofString?_text` — the text of a batch is that of a document;
* `ReplayRequest.loadEvents_lines` — events written one on a line are loaded for a replay;
* `Payload.text_reads_back` — the whole of it.
-/

import OfferLayout.Command.Replay
import OfferLayout.Proofs.Json.Faithful
import OfferLayout.Proofs.Text.Pieces

set_option relaxedAutoImplicit false
set_option autoImplicit false

namespace OfferLayout

open Json (Value Tree)
open Json.Value (Faithful)

variable {write : Value → Value}

/-! ### Named values -/

namespace NameValue

theorem ofValue?_write (hw : Faithful write) (p : NameValue) :
    ofValue? (write p.toValue) = some p := by
  rw [toValue, ofValue?, hw.fields (by simp)]
  simp [Json.Fields.required?, lookup_cons_ite, hw.string, Value.string?]

theorem isPlain (p : NameValue) (n : Nat) : p.toValue.IsPlain (n + 1) :=
  .object (by simp [Value.IsPlain.string])

theorem restrict_tree (p : NameValue) : restrict p.toValue.tree = p.toValue.tree :=
  Tree.restrict_tree (by simp [fieldNames])

end NameValue

/-! ### Integrations -/

namespace Integration

theorem ofValue?_write (hw : Faithful write) (i : Integration) :
    ofValue? (write i.toValue) = some i := by
  rw [toValue, ofValue?, hw.fields (by simp), Option.bind_some]
  simp only [ofParts?, Json.Fields.text?, Json.Fields.defaulted?, lookup_cons_ite,
    String.reduceEq, if_true, if_false, Option.map_some, hw.string, Value.string?]
  rfl

theorem isPlain (i : Integration) (n : Nat) : i.toValue.IsPlain (n + 1) :=
  .object (by simp [Value.IsPlain.string])

end Integration

/-! ### Events -/

namespace Event

theorem ofValue?_write (hw : Faithful write) (e : Event) : ofValue? (write e.toValue) = some e := by
  have hnamed := hw.list?_ofList (NameValue.ofValue?_write hw)
  have hobject := hw.dict?_ofDict hw.string?_string
  have hsignal : Signal.ofValue? (.string e.signal.name) = some e.signal :=
    Signal.named?_name e.signal
  -- only the object may be missing, and is then read as one without entries
  cases hempty : e.object.isEmpty with
  | true =>
      have hnone : e.object = ∅ := Dict.isEmpty_iff.1 hempty
      simp only [toValue, hempty, if_true, List.append_nil, List.cons_append, List.nil_append]
      rw [ofValue?, hw.fields (by simp), Option.bind_eq_bind, Option.bind_some]
      simp only [Json.Fields.required?, Json.Fields.defaulted?, lookup_cons_ite, String.reduceEq,
        if_true, if_false, Option.map_some, Option.map_none, List.lookup_nil, Option.bind_some,
        hw.string, Value.string?, hsignal, hnamed, ← hnone]
      rfl
  | false =>
      simp only [toValue, hempty, Bool.false_eq_true, if_false, List.cons_append, List.nil_append]
      rw [ofValue?, hw.fields (by simp), Option.bind_eq_bind, Option.bind_some]
      simp only [Json.Fields.required?, Json.Fields.defaulted?, lookup_cons_ite, String.reduceEq,
        if_true, if_false, Option.map_some, Option.bind_some, hw.string, Value.string?, hsignal,
        hnamed, hobject]
      rfl

theorem isPlain (e : Event) (n : Nat) : e.toValue.IsPlain (n + 3) := by
  have hnamed := fun l => Value.IsPlain.ofList (fun p => NameValue.isPlain p n) l
  have hobject : ∀ d : Dict String, (Value.ofDict .string d).IsPlain (n + 2) :=
    fun d => Value.IsPlain.ofDict (fun s => .string s) d
  refine .object ?_
  split <;> simp [Value.IsPlain.string, hnamed, hobject]

theorem restrict_tree (e : Event) : restrict e.toValue.tree = e.toValue.tree := by
  refine Tree.restrict_tree ?_
  have hnamed := Tree.mapItems_tree NameValue.restrict_tree
  split <;> simp [fieldNames, hnamed]

/-- **The text of an event describes the event.** -/
theorem ofString?_text (e : Event) : ofString? e.text = some e := by
  rw [ofString?, text, Tree.ofString?_text (e.isPlain 0), Option.bind_some, restrict_tree,
    Tree.value?_tree, Option.bind_some]
  exact ofValue?_write Json.Value.faithful_id e

/-- The text of an event is that of a document, which has a member for the object of the event
exactly if the object has entries. -/
theorem exists_members (e : Event) : ∃ members, Value.ofString? e.text = some (.object members) ∧
    (members.lookup "objectData" = none ↔ e.object = ∅) := by
  obtain ⟨entries, hcanonical, -, hlookup⟩ :=
    Value.exists_canonical (show e.toValue = .object _ from rfl) (by split <;> simp)
  refine ⟨entries, ?_, ?_⟩
  · rw [text, Value.ofString?_text (e.isPlain 124), hcanonical]
  · rw [hlookup, ← Dict.isEmpty_iff]
    cases hempty : e.object.isEmpty <;> simp [lookup_cons_ite]

end Event

/-! ### Batches -/

namespace Payload

theorem isPlain (p : Payload) (n : Nat) : p.toValue.IsPlain (n + 5) :=
  .object (List.forall_mem_cons.2 ⟨p.integration.isPlain (n + 3), List.forall_mem_cons.2
    ⟨Value.IsPlain.ofList (fun e => Event.isPlain e n) p.events, fun _ hm => nomatch hm⟩⟩)

/-- **The text of a batch is that of a document**, in canonical form. -/
theorem ofString?_text (p : Payload) : Value.ofString? p.text = some p.toValue.canonical :=
  Value.ofString?_text (p.isPlain 122)

/-- The integration and the events are found in the document, the events in their order. -/
theorem exists_members (p : Payload) :
    ∃ members items, Value.ofString? p.text = some (.object members) ∧
      (members.lookup "integration").bind Integration.ofValue? = some p.integration ∧
      members.lookup "events" = some (.array items) ∧
      items.map Event.ofValue? = p.events.map some := by
  have hfaithful := Json.Value.faithful_canonical
  obtain ⟨entries, hcanonical, -, hlookup⟩ :=
    Value.exists_canonical (show p.toValue = .object _ from rfl) (by simp)
  have hintegration : entries.lookup "integration" = some p.integration.toValue.canonical := by
    simp [hlookup]
  have hevents : entries.lookup "events" =
      some (Value.ofList Event.toValue p.events).canonical := by
    simp [hlookup, lookup_cons_ite]
  refine ⟨entries, p.events.map fun e => e.toValue.canonical, ?_, ?_, ?_, ?_⟩
  · rw [p.ofString?_text, hcanonical]
  · rw [hintegration, Option.bind_some, Integration.ofValue?_write hfaithful]
  · rw [hevents, Value.canonical_ofList]
    rfl
  · rw [List.map_map]
    exact List.map_congr_left fun e _ => Event.ofValue?_write hfaithful e

/-- **Two batches with the same text are the same batch.** -/
theorem text_inj {p q : Payload} : p.text = q.text ↔ p = q := by
  refine ⟨fun h => ?_, fun h => congrArg text h⟩
  obtain ⟨members, items, hp, hintegration, hevents, hitems⟩ := p.exists_members
  obtain ⟨members', items', hq, hintegration', hevents', hitems'⟩ := q.exists_members
  rw [h, hq, Option.some.injEq, Value.object.injEq] at hp
  subst hp
  rw [hevents, Option.some.injEq, Value.array.injEq] at hevents'
  subst hevents'
  have hsameEvents : p.events = q.events :=
    (List.map_inj_right fun _ _ => Option.some.inj).1 (hitems.symm.trans hitems')
  have hsameIntegration : p.integration = q.integration :=
    Option.some.inj (hintegration.symm.trans hintegration')
  obtain ⟨integration, events⟩ := p
  cases hsameEvents
  cases hsameIntegration
  rfl

end Payload

/-! ### Events one on a line -/

/-- The text of a plain document takes one line. -/
theorem Json.Value.newLine_notMem_text {n : Nat} {v : Value} (h : v.IsPlain n) :
    '\n' ∉ v.text.toList := by
  intro hmem
  rw [Value.text, String.toList_ofList] at hmem
  have hle := Json.Printable.chars h _ hmem
  exact absurd hle (by decide)

/-- Lines that are written one after the other are found again; after the last one is an empty
line. -/
theorem fields_join_lineOf (texts : List String) (h : ∀ t ∈ texts, '\n' ∉ t.toList) :
    Text.fields '\n' (String.join (texts.map lineOf)).toList = texts.map String.toList ++ [[]] := by
  rw [String.toList_join]
  induction texts with
  | nil => rfl
  | cons t texts ih =>
      obtain ⟨ht, htexts⟩ := List.forall_mem_cons.1 h
      have hline : (lineOf t).toList = t.toList ++ ['\n'] := by simp [lineOf]
      rw [List.map_cons, List.flatMap_cons, hline, List.append_assoc, List.singleton_append,
        Text.fields_append, Text.fields_of_notMem ht, ih htexts]
      rfl

namespace Event

/-- The text of an event stands between two braces. -/
theorem toList_text (e : Event) : ∃ s, e.text.toList = '{' :: s ++ ['}'] := by
  obtain ⟨members, hmembers⟩ : ∃ members, e.toValue = .object members := ⟨_, rfl⟩
  refine ⟨Value.charsMembers members, ?_⟩
  rw [text, Value.text, String.toList_ofList, hmembers, Value.chars]

/-- The text of an event takes one line. -/
theorem newLine_notMem_text (e : Event) : '\n' ∉ e.text.toList :=
  Value.newLine_notMem_text (e.isPlain 0)

theorem isAllBlank_text (e : Event) : Text.isAllBlank e.text.toList = false := by
  obtain ⟨s, hs⟩ := e.toList_text
  have hbrace : Text.isBlank '{' = false := by decide
  simp [hs, Text.isAllBlank, hbrace]

theorem withoutReturn_text (e : Event) : withoutReturn e.text.toList = e.text.toList := by
  obtain ⟨s, hs⟩ := e.toList_text
  have hlast : e.text.toList.getLast? ≠ some '\r' := by
    rw [hs, List.getLast?_concat]
    decide
  rw [withoutReturn, Text.dropLast?, if_neg hlast, Option.getD_none]

end Event

/-- The lines of events describe the events, and so they do with blank lines after them. -/
theorem eventsOfLines_text (path : String) (number : Nat) (events : List Event) :
    eventsOfLines path number (events.map (fun e => e.text.toList) ++ [[]]) = .ok events := by
  induction events generalizing number with
  | nil => rfl
  | cons e events ih =>
      rw [List.map_cons, List.cons_append, eventsOfLines, e.isAllBlank_text, e.withoutReturn_text,
        String.ofList_toList, e.ofString?_text, ih]
      rfl

/-- **Events written one on a line are loaded for a replay.** -/
theorem ReplayRequest.loadEvents_lines (r : ReplayRequest) (events : List Event) :
    r.loadEvents (fun _ => .ok (String.join (events.map fun e => lineOf e.text))) = .ok events := by
  have hlines : Text.fields '\n' (String.join (events.map fun e => lineOf e.text)).toList =
      events.map (fun e => e.text.toList) ++ [[]] := by
    have htexts := fields_join_lineOf (events.map Event.text)
      (List.forall_mem_map.2 fun e _ => e.newLine_notMem_text)
    rwa [List.map_map, List.map_map] at htexts
  rw [loadEvents]
  simp only [hlines, eventsOfLines_text]

/-! ### The whole of it -/

/-- **What is sent can be read back.**  The text of a batch is that of a document in which the
integration and the events are found; the text of an event describes the event, and has a member
for its object exactly if the object has entries; events written one on a line are loaded for a
replay; and two batches with the same text are the same batch. -/
theorem Payload.text_reads_back :
    (∀ p : Payload, ∃ members items, Value.ofString? p.text = some (.object members) ∧
      (members.lookup "integration").bind Integration.ofValue? = some p.integration ∧
      members.lookup "events" = some (.array items) ∧
      items.map Event.ofValue? = p.events.map some) ∧
    (∀ e : Event, Event.ofString? e.text = some e ∧
      ∃ members, Value.ofString? e.text = some (.object members) ∧
        (members.lookup "objectData" = none ↔ e.object = ∅)) ∧
    (∀ (r : ReplayRequest) (events : List Event),
      r.loadEvents (fun _ => .ok (String.join (events.map fun e => lineOf e.text))) =
        .ok events) ∧
    ∀ p q : Payload, p.text = q.text ↔ p = q := by
  refine ⟨fun p => p.exists_members, fun e => ⟨e.ofString?_text, e.exists_members⟩, ?_, ?_⟩
  · exact fun r events => r.loadEvents_lines events
  · exact fun _ _ => Payload.text_inj

end OfferLayout
