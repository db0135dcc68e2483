/-
**What a replay prints is read back.**

What is printed of a replay is looked at from the side of its reader.  As text, every line is that
of a document, and a summary on the other output tells how many events had which outcome.  As a
document, the text is read as an object, and the batches and the numbers are its members.  A number
beyond the greatest word would be read as a floating-point number, so only the place of such a
member is told.

A fault is shown on the other output, in both formats with its message; the message for a line that
is no event names the line by its number.

Main definitions:

* `OutputFormat.ShowsFault`, `NamesLine` — **a message that is shown**, and one that names a line;
* `Payload.IsCarriedBy` — a document that carries a batch;
* `OutputFormat.Shows` — **documents and tallies that are shown**.

Main results:

* `Report.showsFault_ofFailure` — the message of a failure is shown;
* `Failure.namesLine_badEvent` — the message for a line names it;
* `Replay.ofString?_report` — the document that is printed of a replay is read as its tree;
* `Replay.shows_report` — **what is printed are the batches and the tallies**.
-/

import OfferLayout.Command.Replay
import OfferLayout.Proofs.Event.RoundTrip
import OfferLayout.Proofs.Json.Indented

set_option relaxedAutoImplicit false
set_option autoImplicit false

namespace OfferLayout

open Json (Value Tree Spells Begins numeralTree)

/-- A line is read as what is spelled on it. -/
theorem ofString?_lineOf {s : List Char} {t : Tree} (h : Spells s t.tokens) :
    Tree.ofString? (lineOf (String.ofList s)) = some t := by
  have hline : lineOf (String.ofList s) = String.ofList (s ++ ['\n']) := by
    simp [lineOf, String.ofList_append]
  rw [hline]
  exact Tree.ofString?_of_spells h (List.forall_mem_singleton.2 rfl)

/-! ### Faults -/

/-- **A message that is shown**: as text, on a line of its own; as a document, as its only member.
-/
def OutputFormat.ShowsFault (format : OutputFormat) (stderr message : String) : Prop :=
  match format with
  | .text => stderr = message ++ "\n"
  | .json => Value.ofString? stderr = some (.object [("error", .string message)])

/-- **A message that names a line of a file** by its number. -/
def NamesLine (message path : String) (number : Nat) : Prop :=
  ∃ numeral cause : String,
    message = "error: invalid event at " ++ path ++ ":" ++ numeral ++ ": " ++ cause ∧
      Text.natural? numeral.toList = some number

/-- The message of a failure is shown. -/
theorem Report.showsFault_ofFailure (format : OutputFormat) (f : Failure) :
    format.ShowsFault (Report.ofFailure format false f).stderr f.message := by
  cases format with
  | text => rfl
  | json =>
      have hplain : (Value.object [("error", .string f.message)]).IsPlain 1 :=
        .object (List.forall_mem_singleton.2 (.string _))
      have hread := ofString?_lineOf (Begins.chars hplain).spells
      have hdepth := Nat.le_trans (Tree.depth_le hplain) (show 1 ≤ Json.maxDepth by decide)
      exact congrArg (Option.map Value.canonical) (Value.ofStringRaw?_of_tree hread hdepth)

/-- The message for a line that is no event names it. -/
theorem Failure.namesLine_badEvent (path : String) (number : Nat) :
    NamesLine (Failure.badEvent path number).message path number := by
  refine ⟨Text.natural number, "not an event", ?_, ?_⟩
  · have hcause : ": " ++ "not an event" = ": not an event" := by decide
    rw [String.append_assoc, hcause]
    rfl
  · exact Text.natural?_natural number

/-! ### Batches -/

/-- **A document that carries a batch**: the integration and the events are found in it, the events
in their order. -/
def Payload.IsCarriedBy (p : Payload) (v : Value) : Prop :=
  ∃ members items, v = .object members ∧
    (members.lookup "integration").bind Integration.ofValue? = some p.integration ∧
    members.lookup "events" = some (.array items) ∧ items.map Event.ofValue? = p.events.map some

theorem Payload.isCarriedBy_canonical (p : Payload) : p.IsCarriedBy p.toValue.canonical := by
  obtain ⟨members, items, hread, hintegration, hevents, hitems⟩ := p.exists_members
  rw [p.ofString?_text] at hread
  exact ⟨members, items, Option.some.inj hread, hintegration, hevents, hitems⟩

/-- **Documents and tallies that are shown.**  As text, each document is that of a line, and the
numerals of the summary on the other output are those of the tallies.  As a document, the documents
are the elements of its member for batches, and the tallies are members too; where no tally is
beyond the greatest word, it has no other members. -/
def OutputFormat.Shows (format : OutputFormat) (report : Report) (documents : List Value)
    (tally : Outcome → Nat) : Prop :=
  match format with
  | .text =>
      (∃ lines, Text.fields '\n' report.stdout.toList = lines ++ [[]] ∧
        lines.map (fun line => Value.ofString? (String.ofList line)) = documents.map some) ∧
      ∃ queued duplicate filtered batches : String,
        report.stderr = queued ++ " queued, " ++ duplicate ++ " duplicate, " ++ filtered ++
          " filtered, " ++ batches ++ " batch(es)\n" ∧
        Text.natural? queued.toList = some (tally .queued) ∧
        Text.natural? duplicate.toList = some (tally .duplicate) ∧
        Text.natural? filtered.toList = some (tally .filtered) ∧
        Text.natural? batches.toList = some documents.length
  | .json =>
      report.stderr = "" ∧
      (∃ members, Tree.ofString? report.stdout = some (.object members) ∧
        members.lookup (some "batches") = some (.array (documents.map Value.tree)) ∧
        ∀ x ∈ [("queued", Outcome.queued), ("duplicate", .duplicate), ("filtered", .filtered)],
          ∃ number, members.lookup (some x.1) = some (.number number) ∧
            (tally x.2 ≤ maxWord → number = some (.integer (tally x.2)))) ∧
      ((∀ o, tally o ≤ maxWord) →
        Value.ofString? report.stdout = some (.object
          [("batches", .array documents), ("duplicate", .ofNat (tally .duplicate)),
            ("filtered", .ofNat (tally .filtered)), ("queued", .ofNat (tally .queued))]))

namespace Replay

/-- The documents of the batches of a replay. -/
def documents (set : Settings) (r : Replay) : List Value :=
  r.batches.map fun b => (Payload.toValue ⟨set.integration, b⟩).canonical

theorem isPlain_of_mem_documents {set : Settings} {r : Replay} {v : Value}
    (h : v ∈ r.documents set) : v.IsPlain 5 := by
  obtain ⟨b, -, rfl⟩ := List.mem_map.1 h
  exact (Payload.isPlain ⟨set.integration, b⟩ 0).canonical

theorem canonical_of_mem_documents {set : Settings} {r : Replay} {v : Value}
    (h : v ∈ r.documents set) : v.canonical = v := by
  obtain ⟨b, -, rfl⟩ := List.mem_map.1 h
  exact Value.canonical_canonical _

/-- What the document of a replay is read as. -/
def tree (set : Settings) (r : Replay) : Tree :=
  .object
    [(some "batches", .array ((r.documents set).map Value.tree)),
      (some "duplicate", numeralTree (r.count .duplicate)),
      (some "filtered", numeralTree (r.count .filtered)),
      (some "queued", numeralTree (r.count .queued))]

/-- **The document that is printed of a replay is read as its tree.** -/
theorem ofString?_report (set : Settings) (r : Replay) :
    Tree.ofString? (r.report .json set).stdout = some (r.tree set) := by
  have hbatches : Begins ((Value.array (r.documents set)).prettyChars 1)
      (Tree.array ((r.documents set).map Value.tree)).tokens := by
    refine Begins.prettyArray ?_
    rw [List.forall₂_map_right_iff, List.forall₂_same]
    exact fun v hv => Spells.pretty (isPlain_of_mem_documents hv) 2
  have hall : Begins ((r.toValue set).prettyChars 0) (r.tree set).tokens :=
    Begins.prettyObject (.cons ⟨rfl, hbatches.spells⟩ (.cons ⟨rfl, Spells.prettyOfNat _ 1⟩
      (.cons ⟨rfl, Spells.prettyOfNat _ 1⟩ (.cons ⟨rfl, Spells.prettyOfNat _ 1⟩ .nil))))
  exact ofString?_lineOf hall.spells

theorem depth_tree_toValue (set : Settings) (r : Replay) :
    (r.toValue set).tree.depth ≤ Json.maxDepth := by
  have hbatches : Tree.depth (Value.array (r.documents set)).tree ≤ 6 :=
    Tree.depth_le (.array fun v hv => isPlain_of_mem_documents hv)
  have hmembers : Tree.depth (r.toValue set).tree ≤ 7 := by
    refine Nat.succ_le_succ (Tree.depthMembers_le ?_)
    exact List.forall_mem_cons.2 ⟨hbatches, List.forall_mem_cons.2 ⟨Nat.zero_le _,
      List.forall_mem_cons.2 ⟨Nat.zero_le _, List.forall_mem_singleton.2 (Nat.zero_le _)⟩⟩⟩
  exact Nat.le_trans hmembers (by decide)

/-- The document of a replay is in canonical form. -/
theorem canonical_toValue (set : Settings) (r : Replay) :
    (r.toValue set).canonical = r.toValue set := by
  have hnames : ["batches", "duplicate", "filtered", "queued"].Pairwise (· < ·) := by decide
  have hbatches : (Value.array (r.documents set)).canonical = .array (r.documents set) :=
    Value.canonical_array fun v hv => canonical_of_mem_documents hv
  refine Value.canonical_object (hnames.of_map Prod.fst fun _ _ h => h) ?_
  exact List.forall_mem_cons.2 ⟨hbatches, List.forall_mem_cons.2 ⟨rfl,
    List.forall_mem_cons.2 ⟨rfl, List.forall_mem_singleton.2 rfl⟩⟩⟩

/-- Where no tally is beyond the greatest word, the text is that of the document. -/
theorem ofString?_report_of_le {set : Settings} {r : Replay} (h : ∀ o, r.count o ≤ maxWord) :
    Value.ofString? (r.report .json set).stdout = some (r.toValue set) := by
  have htree : r.tree set = (r.toValue set).tree := by
    rw [tree, Json.numeralTree_eq (h _), Json.numeralTree_eq (h _), Json.numeralTree_eq (h _),
      ← Value.treeItems_eq_map]
    rfl
  have hraw : Value.ofStringRaw? (r.report .json set).stdout = some (r.toValue set) :=
    Value.ofStringRaw?_of_tree ((ofString?_report set r).trans (congrArg some htree))
      (depth_tree_toValue set r)
  rw [Value.ofString?, hraw, Option.map_some, canonical_toValue]

/-- **What is printed are the batches and the tallies.** -/
theorem shows_report (format : OutputFormat) (set : Settings) (r : Replay) :
    format.Shows (r.report format set) (r.documents set) r.count := by
  cases format with
  | text =>
      have hlines := fields_join_lineOf
        (r.batches.map fun b => Payload.text ⟨set.integration, b⟩)
        (List.forall_mem_map.2 fun b _ =>
          Value.newLine_notMem_text (Payload.isPlain ⟨set.integration, b⟩ 0))
      rw [List.map_map, List.map_map] at hlines
      refine ⟨⟨_, hlines, ?_⟩, Text.natural (r.count .queued), Text.natural (r.count .duplicate),
        Text.natural (r.count .filtered), Text.natural r.batches.length, ?_, ?_, ?_, ?_, ?_⟩
      · simp [documents, Payload.ofString?_text]
      · have hend : " batch(es)" ++ "\n" = " batch(es)\n" := by decide
        rw [← hend, ← String.append_assoc]
        rfl
      · exact Text.natural?_natural _
      · exact Text.natural?_natural _
      · exact Text.natural?_natural _
      · rw [documents, List.length_map]
        exact Text.natural?_natural _
  | json =>
      refine ⟨rfl, ⟨_, ofString?_report set r, rfl, ?_⟩, ofString?_report_of_le⟩
      have htally : ∀ o, r.count o ≤ maxWord →
          Json.numberOf? false (Text.digits (r.count o)) [] none = some (.integer (r.count o)) :=
        fun o h => Tree.number.inj (Json.numeralTree_eq h)
      exact List.forall_mem_cons.2 ⟨⟨_, rfl, htally .queued⟩, List.forall_mem_cons.2
        ⟨⟨_, rfl, htally .duplicate⟩, List.forall_mem_singleton.2 ⟨_, rfl, htally .filtered⟩⟩⟩

end Replay

end OfferLayout
