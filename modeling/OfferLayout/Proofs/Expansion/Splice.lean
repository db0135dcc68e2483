/-
**What is found replaces its placeholder, and nothing else changes.**

Each placeholder of a template resolves on its own to a segment: a text, or a place for live state.
This module shows that the expansion of the template is the template with the span of each
placeholder replaced by that segment.  Whatever the segments hold, also marks and the text of other
placeholders, is copied as it stands.

Main definitions:

* `Binding.segment?` — the segment that a binding puts in the place of a placeholder;
* `ResolvesTo` — the segment that a placeholder resolves to, on its own;
* `replaced` — **a template with its placeholders replaced** by texts.

Main results:

* `toList_write_pushMarks` — what a filled template reads;
* `bindTemplate_isOk_iff` — a template is bound exactly when each of its placeholders resolves;
* `bindTemplate_eq_replaced` — **the text that is bound is the template with its placeholders
  replaced**.
-/

import OfferLayout.Proofs.Expansion.Filling

set_option relaxedAutoImplicit false
set_option autoImplicit false

namespace OfferLayout

/-! ### Segments in the place of placeholders -/

/-- The segment that a binding puts in the place of a placeholder. -/
def Binding.segment? (raw : String) : Binding String → Option Segment
  | .value text => some (.text text)
  | .state name => (StateKey.parse? name).map (.state raw)

/-- The segment for what a chain found; nothing is the empty text. -/
def segmentOf (raw : String) : Option Found → Segment
  | none => .text ""
  | some (.text s) => .text s
  | some (.state key) => .state raw key

theorem segment?_bindingOf (raw : String) (found : Option Found) :
    (bindingOf found).segment? raw = some (segmentOf raw found) := by
  rcases found with _ | ⟨s⟩ | ⟨key⟩
  · rfl
  · rfl
  · simp [bindingOf, Found.binding, Binding.segment?, segmentOf]

/-- A text in segments with each of them written in some way. -/
def BoundText.write (b : BoundText) (f : Segment → String) : String :=
  String.join (b.segments.map f)

section Write

variable {f : Segment → String} (hf : ∀ s, f (.text s) = s)

include hf

theorem write_pushText (b : BoundText) (s : String) : (b.pushText s).write f = b.write f ++ s :=
  BoundText.join_map_pushText f hf b s

theorem write_pushFound (b : BoundText) (raw : String) (found : Option Found) :
    (b.pushFound raw found).write f = b.write f ++ f (segmentOf raw found) := by
  rcases found with _ | ⟨s⟩ | ⟨key⟩
  · simp [BoundText.pushFound, segmentOf, hf]
  · rw [BoundText.pushFound, write_pushText hf, segmentOf, hf]
  · simp [BoundText.pushFound, BoundText.write, segmentOf]

/-- **A filled template reads** as its plain text with what was found in between. -/
theorem toList_write_pushMarks (b : BoundText) (l : List (Mark × Option Found)) :
    ((b.pushMarks l).write f).toList =
      (b.write f).toList ++ l.flatMap fun x => x.1.gap ++ (f (segmentOf x.1.raw x.2)).toList := by
  induction l generalizing b with
  | nil => simp [BoundText.pushMarks]
  | cons x l ih =>
      obtain ⟨m, found⟩ := x
      rw [BoundText.pushMarks, ih, write_pushFound hf, write_pushText hf]
      simp

end Write

/-! ### The resolution of the placeholders -/

/-- **The segment that a placeholder resolves to**, on its own. -/
def ResolvesTo (s : Source) (raw : String) (segment : Segment) : Prop :=
  ∃ r, resolve raw s = .ok r ∧ r.segment? raw = some segment

/-- A placeholder that was read resolves as its chain does. -/
theorem resolve_raw_eq_ok_iff {s : Source} {m : Mark} (h : Chain.parse m.expression = .ok m.links)
    {r : Binding String} :
    resolve m.raw s = .ok r ↔
      firstOutside s.scope m.links = none ∧
        ∃ found, resolveChain s m.links = .ok found ∧ r = bindingOf found :=
  resolve_markedText_eq_ok_iff h

/-- Nothing is out of scope in lists of links if nothing is in each of them. -/
theorem firstOutside_flatMap_eq_none_iff {scope : List Namespace} {marks : List Mark} :
    firstOutside scope (marks.flatMap Mark.links) = none ↔
      ∀ m ∈ marks, firstOutside scope m.links = none := by
  induction marks with
  | nil => simp
  | cons m marks ih =>
      rw [List.flatMap_cons, firstOutside_append, Option.or_eq_none_iff, ih, List.forall_mem_cons]

/-- What the chains of a template find are the segments that its placeholders resolve to. -/
theorem forall₂_resolvesTo {s : Source} {start : Nat} {ms : List (List Char × List Char)}
    {marks : List Mark} (hmarks : Template.parseMarks ms = .ok marks)
    (hscope : firstOutside s.scope (marks.flatMap Mark.links) = none) {founds : List (Option Found)}
    (hfounds : List.Forall₂ (fun m found => resolveChain s m.links = .ok found) marks founds) :
    List.Forall₂ (fun p segment => ResolvesTo s p.raw segment)
      (Template.placeholdersFrom start marks)
      ((marks.zip founds).map fun x => segmentOf x.1.raw x.2) := by
  rw [← List.forall₂_map_left_iff (R := ResolvesTo s) (f := Placeholder.raw),
    map_raw_placeholdersFrom, List.forall₂_map_left_iff]
  refine forall₂_map_zip hfounds ?_
  intro m hm found hfound
  have hparse := parse_expression_of_parseMarks hmarks m hm
  have hinside := firstOutside_flatMap_eq_none_iff.1 hscope m hm
  exact ⟨_, (resolve_raw_eq_ok_iff hparse).2 ⟨hinside, found, hfound, rfl⟩,
    segment?_bindingOf m.raw found⟩

/-- What holds of the text of every placeholder holds of the text of every mark. -/
theorem forall_raw_placeholdersFrom_iff {start : Nat} {marks : List Mark} {P : String → Prop} :
    (∀ p ∈ Template.placeholdersFrom start marks, P p.raw) ↔ ∀ m ∈ marks, P m.raw := by
  have h := map_raw_placeholdersFrom start marks
  rw [← List.forall_mem_map (f := Placeholder.raw) (P := P), h, List.forall_mem_map]

/-- **A template is bound exactly when each of its placeholders resolves** on its own. -/
theorem bindTemplate_isOk_iff {t : String} {s : Source} :
    (∃ b, bindTemplate t s = .ok b) ↔
      ∃ ps, placeholdersOf t = .ok ps ∧ ∀ p ∈ ps, ∃ r, resolve p.raw s = .ok r := by
  constructor
  · rintro ⟨b, hb⟩
    obtain ⟨filled, hfilled, -⟩ := bindTemplate_eq_ok_iff.1 hb
    obtain ⟨marks, founds, hmarks, hscope, hfounds, -⟩ := substitute_eq_ok_iff.1 hfilled
    refine ⟨_, placeholdersOf_eq_ok_iff.2 ⟨marks, hmarks, rfl⟩, ?_⟩
    rw [forall_raw_placeholdersFrom_iff (P := fun raw => ∃ r, resolve raw s = .ok r)]
    intro m hm
    obtain ⟨found, hfound⟩ := exists_forall₂_iff.1 ⟨founds, hfounds⟩ m hm
    have hparse := parse_expression_of_parseMarks hmarks m hm
    exact ⟨_, (resolve_raw_eq_ok_iff hparse).2
      ⟨firstOutside_flatMap_eq_none_iff.1 hscope m hm, found, hfound, rfl⟩⟩
  · rintro ⟨ps, hps, hall⟩
    obtain ⟨marks, hmarks, rfl⟩ := placeholdersOf_eq_ok_iff.1 hps
    rw [forall_raw_placeholdersFrom_iff (P := fun raw => ∃ r, resolve raw s = .ok r)] at hall
    -- each placeholder passes both examinations on its own, so the template does
    have hmark : ∀ m ∈ marks, firstOutside s.scope m.links = none ∧
        ∃ found, resolveChain s m.links = .ok found := by
      intro m hm
      obtain ⟨r, hr⟩ := hall m hm
      have hparse := parse_expression_of_parseMarks hmarks m hm
      obtain ⟨hscope, found, hfound, -⟩ := (resolve_raw_eq_ok_iff hparse).1 hr
      exact ⟨hscope, found, hfound⟩
    obtain ⟨founds, hfounds⟩ := exists_forall₂_iff.2 fun m hm => (hmark m hm).2
    have hfilled := substitute_eq_ok_iff.2 ⟨marks, founds, hmarks,
      firstOutside_flatMap_eq_none_iff.2 fun m hm => (hmark m hm).1, hfounds, rfl⟩
    exact ⟨_, bindTemplate_eq_ok_iff.2 ⟨_, hfilled, rfl⟩⟩

/-! ### The template with its placeholders replaced -/

/-- **A template with its placeholders replaced** by texts, and all else copied. -/
def replaced (t : String) (ps : List Placeholder) (texts : List String) : Option String :=
  (Span.splice t.toList 0 ((ps.map Placeholder.span).zip (texts.map String.toList))).map
    String.ofList

/-- A template whose placeholders are replaced by their own texts is the template itself. -/
theorem replaced_raw {t : String} {ps : List Placeholder} (h : placeholdersOf t = .ok ps) :
    replaced t ps (ps.map Placeholder.raw) = some t := by
  have hsplice := splice_placeholders h
  rw [← List.zip_map'] at hsplice
  rw [replaced, List.map_map, Function.comp_def, hsplice, Option.map_some, String.ofList_toList]

/-- A filled template reads as the template with its placeholders replaced by what was found. -/
theorem replaced_eq_write {f : Segment → String} (hf : ∀ s, f (.text s) = s) {t : String}
    {marks : List Mark} (hmarks : Template.parseMarks (cutMarks t.toList).marks = .ok marks)
    {founds : List (Option Found)} (hlength : marks.length = founds.length) :
    replaced t (Template.placeholdersFrom 0 marks)
        ((marks.zip founds).map fun x => f (segmentOf x.1.raw x.2)) =
      some (((BoundText.empty.pushMarks (marks.zip founds)).pushText
        (String.ofList (cutMarks t.toList).rest)).write f) := by
  have hspans : (Template.placeholdersFrom 0 marks).map Placeholder.span =
      markSpans 0 (cutMarks t.toList).marks := by
    rw [map_span_placeholdersFrom, map_expression_of_parseMarks hmarks]
  have hms : (marks.zip founds).map (fun x => (x.1.gap, x.1.expression)) =
      (cutMarks t.toList).marks := by
    have hfst : (marks.zip founds).map Prod.fst = marks := List.map_fst_zip (Nat.le_of_eq hlength)
    rw [← map_expression_of_parseMarks hmarks]
    conv_rhs => rw [← hfst]
    rw [List.map_map]
    rfl
  -- the template is the plain text of its cut with the expressions in between; splicing puts what
  -- was found there instead, which is how a filled template reads
  have hsplice := splice_markSpans [] (cutMarks t.toList).rest
    ((marks.zip founds).map fun x =>
      ((x.1.gap, x.1.expression), (f (segmentOf x.1.raw x.2)).toList))
  simp only [List.map_map, Function.comp_def, List.nil_append, Text.byteSize_nil,
    List.flatMap_map, hms] at hsplice
  have hflat : Cut.flatten ⟨(cutMarks t.toList).marks, (cutMarks t.toList).rest⟩ = t.toList :=
    flatten_cutMarks t.toList
  rw [hflat] at hsplice
  rw [replaced, hspans, List.map_map, Function.comp_def, hsplice, Option.map_some,
    Option.some_inj, ← String.toList_inj, String.toList_ofList, write_pushText hf,
    String.toList_append, toList_write_pushMarks hf, String.toList_ofList]
  rfl

/-- **What is bound is the template with its placeholders replaced.**  A template is bound exactly
when its placeholders are read and each of them resolves on its own.  Then the segment that each
resolves to stands in its place, in the text with the placeholders for live state as they stand and
in the text with the live state filled in, and all else is copied from the template. -/
theorem bindTemplate_eq_replaced (t : String) (s : Source) :
    ((∃ b, bindTemplate t s = .ok b) ↔
      ∃ ps, placeholdersOf t = .ok ps ∧ ∀ p ∈ ps, ∃ r, resolve p.raw s = .ok r) ∧
    ∀ ps b, placeholdersOf t = .ok ps → bindTemplate t s = .ok b →
      replaced t ps (ps.map Placeholder.raw) = some t ∧
      ∃ segments,
        List.Forall₂ (fun p segment => ResolvesTo s p.raw segment) ps segments ∧
        expand t s = .ok b.inner.text ∧
        replaced t ps (segments.map Segment.source) = some b.inner.text ∧
        ∀ v, expandWithState t s v = .ok (b.inner.render v) ∧
          replaced t ps (segments.map (Segment.render v)) = some (b.inner.render v) := by
  refine ⟨bindTemplate_isOk_iff, ?_⟩
  intro ps b hps hb
  refine ⟨replaced_raw hps, ?_⟩
  obtain ⟨filled, hfilled, rfl⟩ := bindTemplate_eq_ok_iff.1 hb
  obtain ⟨marks, founds, hmarks, hscope, hfounds, rfl⟩ := substitute_eq_ok_iff.1 hfilled
  obtain rfl : Template.placeholdersFrom 0 marks = ps :=
    Except.ok.inj ((placeholdersOf_eq_ok_iff.2 ⟨marks, hmarks, rfl⟩).symm.trans hps)
  have hlength := hfounds.length_eq
  refine ⟨(marks.zip founds).map fun x => segmentOf x.1.raw x.2,
    forall₂_resolvesTo hmarks hscope hfounds, expand_eq_of_bindTemplate hb, ?_, ?_⟩
  · rw [inner_binding, List.map_map]
    exact replaced_eq_write (f := Segment.source) (fun _ => rfl) hmarks hlength
  · intro v
    refine ⟨expandWithState_eq_of_bindTemplate hb v, ?_⟩
    rw [inner_binding, List.map_map]
    exact replaced_eq_write (f := Segment.render v) (fun _ => rfl) hmarks hlength

/-- The text that is found here is that of the other placeholder.  It is copied, and only the
placeholder that stands in the template itself shows the live state. -/
theorem bindTemplate_found_placeholder :
    placeholdersOf "é%^DATA.creativeCopy.a|x^%%^STATE.TotalOffers^%" =
      .ok [⟨"%^DATA.creativeCopy.a|x^%", 2, 27,
          [.keyed (.data .creativeCopy "a") false, .literal "x"]⟩,
        ⟨"%^STATE.TotalOffers^%", 27, 48, [.keyed (.state "TotalOffers") false]⟩] ∧
    expand "é%^DATA.creativeCopy.a|x^%%^STATE.TotalOffers^%"
        (.offer { copy := Dict.ofList [("a", "%^STATE.TotalOffers^%")] }) =
      .ok "é%^STATE.TotalOffers^%%^STATE.TotalOffers^%" ∧
    ∀ v, expandWithState "é%^DATA.creativeCopy.a|x^%%^STATE.TotalOffers^%"
        (.offer { copy := Dict.ofList [("a", "%^STATE.TotalOffers^%")] }) v =
      .ok ("é%^STATE.TotalOffers^%" ++ v.render .totalOffers) := by
  have hps : placeholdersOf "é%^DATA.creativeCopy.a|x^%%^STATE.TotalOffers^%" =
      .ok [⟨"%^DATA.creativeCopy.a|x^%", 2, 27,
          [.keyed (.data .creativeCopy "a") false, .literal "x"]⟩,
        ⟨"%^STATE.TotalOffers^%", 27, 48, [.keyed (.state "TotalOffers") false]⟩] := by
    decide +kernel
  have hb : bindTemplate "é%^DATA.creativeCopy.a|x^%%^STATE.TotalOffers^%"
      (.offer { copy := Dict.ofList [("a", "%^STATE.TotalOffers^%")] }) =
      .ok (.state ⟨[.state "%^STATE.TotalOffers^%" .totalOffers,
        .text "é%^STATE.TotalOffers^%"]⟩) := by
    decide +kernel
  obtain ⟨-, segments, -, htext, -, hstate⟩ := (bindTemplate_eq_replaced _ _).2 _ _ hps hb
  refine ⟨hps, htext, ?_⟩
  intro v
  rw [(hstate v).1]
  simp [Binding.inner, BoundText.render, BoundText.segments, Segment.render]

end OfferLayout
