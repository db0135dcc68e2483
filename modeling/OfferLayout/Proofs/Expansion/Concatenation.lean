/-
**Templates are expanded one after the other.**

Where two texts are put together at a seam, the placeholders of both are those of the whole.  So the
whole is bound exactly if both are, whatever the data, and then what is bound is the one followed by
the other: the segments of both with texts next to each other merged, and hence also the texts that
are read from them.

Main results:

* `fill_append_eq_ok_iff` — two templates put together are filled as each of them is;
* `tidy_of_substitute` — a filled template is tidy;
* `bindTemplate_append` — **the placeholders and the binding of two texts at a seam**.
-/

import OfferLayout.Proofs.Expansion.Segments
import OfferLayout.Proofs.Template.Concatenation

set_option relaxedAutoImplicit false
set_option autoImplicit false

namespace OfferLayout

/-! ### Filling -/

theorem fillMarks_append (s : Source) (b : BoundText) (marks marks' : List Mark) :
    Template.fillMarks s b (marks ++ marks') = (do
      let c ← Template.fillMarks s b marks
      Template.fillMarks s c marks') := by
  induction marks generalizing b with
  | nil => rfl
  | cons m marks ih =>
      rw [List.cons_append, Template.fillMarks, Template.fillMarks]
      cases resolveChain s m.links with
      | error e => rfl
      | ok found => exact ih _

/-- More plain text before a placeholder is text that was there before. -/
theorem fillMarks_after (s : Source) (b : BoundText) (gap : List Char) (m : Mark)
    (marks : List Mark) :
    Template.fillMarks s b (m.after gap :: marks) =
      Template.fillMarks s (b.pushText (String.ofList gap)) (m :: marks) := by
  simp only [Template.fillMarks, Mark.after, Mark.raw, BoundText.pushText_pushText,
    String.ofList_append]

/-- Placeholders that are added to the second of two texts are added to both. -/
theorem fillMarks_append_text (s : Source) (b c : BoundText) (marks : List Mark) :
    Template.fillMarks s (b.append c) marks = (Template.fillMarks s c marks).map b.append := by
  induction marks generalizing c with
  | nil => rfl
  | cons m marks ih =>
      rw [Template.fillMarks, Template.fillMarks]
      cases resolveChain s m.links with
      | error e => rfl
      | ok found =>
          simp only
          rw [← ih, BoundText.pushFound_eq_pushSegment, BoundText.pushFound_eq_pushSegment,
            BoundText.append_pushSegment, BoundText.append_pushText]

theorem flatMap_links_append (t t' : Template) :
    (t.append t').marks.flatMap Mark.links =
      t.marks.flatMap Mark.links ++ t'.marks.flatMap Mark.links := by
  obtain ⟨_ | ⟨m, marks'⟩, rest'⟩ := t'
  · simp [Template.append]
  · simp [Template.append, Mark.after]

/-- The second of two templates is filled where the first one ends. -/
theorem fillMarks_append_template (s : Source) (b : BoundText) (t t' : Template) :
    (Template.fillMarks s b (t.append t').marks).map
        (fun c => c.pushText (String.ofList (t.append t').rest)) = (do
      let c ← Template.fillMarks s b t.marks
      (Template.fillMarks s (c.pushText (String.ofList t.rest)) t'.marks).map
        fun c => c.pushText (String.ofList t'.rest)) := by
  obtain ⟨_ | ⟨m, marks'⟩, rest'⟩ := t'
  · simp only [Template.append, String.ofList_append, ← BoundText.pushText_pushText]
    cases Template.fillMarks s b t.marks <;> rfl
  · simp only [Template.append, fillMarks_append, fillMarks_after]
    cases Template.fillMarks s b t.marks <;> rfl

/-- **Two templates put together** are filled as each of them is, one after the other. -/
theorem fill_append_eq_ok_iff {t t' : Template} {s : Source} {b : BoundText} :
    (t.append t').fill s = .ok b ↔
      ∃ x y, t.fill s = .ok x ∧ t'.fill s = .ok y ∧ b = x.append y := by
  simp only [Template.fill, checkMarks_eq, checkLinks_eq, flatMap_links_append,
    firstOutside_append, fillMarks_append_template]
  cases firstOutside s.scope (t.marks.flatMap Mark.links) with
  | some n => simp
  | none =>
      cases firstOutside s.scope (t'.marks.flatMap Mark.links) with
      | some n => simp
      | none =>
          cases Template.fillMarks s .empty t.marks with
          | error e => simp [bind, Except.bind, Except.map]
          | ok c =>
              -- what the second template adds to the text of the first is what it is filled with
              have hsecond := fillMarks_append_text s (c.pushText (String.ofList t.rest)) .empty
                t'.marks
              rw [BoundText.append_empty] at hsecond
              simp only [Option.or_none, bind, Except.bind, hsecond]
              cases Template.fillMarks s .empty t'.marks with
              | error e => simp [Except.map]
              | ok c' => simp [Except.map, BoundText.append_pushText, eq_comm]

/-- **Two texts at a seam** are filled as each of them is, one after the other. -/
theorem substitute_append_eq_ok_iff {t t' : String} (h : Seam t.toList t'.toList) {s : Source}
    {b : BoundText} :
    substitute (t ++ t') s = .ok b ↔
      ∃ x y, substitute t s = .ok x ∧ substitute t' s = .ok y ∧ b = x.append y := by
  simp only [substitute, parse_append h]
  cases Template.parse t with
  | error e => simp [bind, Except.bind]
  | ok x =>
      cases Template.parse t' with
      | error e => simp [bind, Except.bind]
      | ok y => exact fill_append_eq_ok_iff

/-- **A filled template is tidy.** -/
theorem tidy_of_substitute {t : String} {s : Source} {b : BoundText} (h : substitute t s = .ok b) :
    b.Tidy := by
  obtain ⟨marks, founds, -, -, -, rfl⟩ := substitute_eq_ok_iff.1 h
  exact (BoundText.tidy_empty.pushMarks _).pushText _

/-! ### Binding -/

/-- **Templates are expanded one after the other.**  The placeholders of two texts at a seam are
those of the first, and those of the second moved by its length; the fault of the first comes first.
The whole is bound exactly if both texts are, from whatever source.  Then its segments are those of
both with texts next to each other merged, it awaits live state if one of them does, and it reads as
the one followed by the other, with the placeholders for live state as they stand and with the live
state filled in. -/
theorem bindTemplate_append {t t' : String} (h : Seam t.toList t'.toList) :
    placeholdersOf (t ++ t') = (do
      let ps ← placeholdersOf t
      let qs ← placeholdersOf t'
      return ps ++ qs.map (Placeholder.shift t.utf8ByteSize)) ∧
    ∀ s : Source,
      ((∃ b, bindTemplate (t ++ t') s = .ok b) ↔
        (∃ x, bindTemplate t s = .ok x) ∧ ∃ y, bindTemplate t' s = .ok y) ∧
      ∀ x y, bindTemplate t s = .ok x → bindTemplate t' s = .ok y →
        ∃ b, bindTemplate (t ++ t') s = .ok b ∧
          b.inner.segments = Segment.merge (x.inner.segments ++ y.inner.segments) ∧
          b.isState = (x.isState || y.isState) ∧
          b.inner.text = x.inner.text ++ y.inner.text ∧
          ∀ v, b.inner.render v = x.inner.render v ++ y.inner.render v := by
  refine ⟨placeholdersOf_append h, ?_⟩
  intro s
  constructor
  · constructor
    · rintro ⟨b, hb⟩
      obtain ⟨filled, hfilled, -⟩ := bindTemplate_eq_ok_iff.1 hb
      obtain ⟨c, d, hc, hd, -⟩ := (substitute_append_eq_ok_iff h).1 hfilled
      exact ⟨⟨_, bindTemplate_eq_ok_iff.2 ⟨c, hc, rfl⟩⟩, _, bindTemplate_eq_ok_iff.2 ⟨d, hd, rfl⟩⟩
    · rintro ⟨⟨x, hx⟩, y, hy⟩
      obtain ⟨c, hc, -⟩ := bindTemplate_eq_ok_iff.1 hx
      obtain ⟨d, hd, -⟩ := bindTemplate_eq_ok_iff.1 hy
      have hcd := (substitute_append_eq_ok_iff h).2 ⟨c, d, hc, hd, rfl⟩
      exact ⟨_, bindTemplate_eq_ok_iff.2 ⟨_, hcd, rfl⟩⟩
  · intro x y hx hy
    obtain ⟨c, hc, rfl⟩ := bindTemplate_eq_ok_iff.1 hx
    obtain ⟨d, hd, rfl⟩ := bindTemplate_eq_ok_iff.1 hy
    have hcd := (substitute_append_eq_ok_iff h).2 ⟨c, d, hc, hd, rfl⟩
    refine ⟨_, bindTemplate_eq_ok_iff.2 ⟨_, hcd, rfl⟩, ?_⟩
    simp only [inner_binding, isState_binding]
    exact ⟨BoundText.segments_append (tidy_of_substitute hc) (tidy_of_substitute hd),
      BoundText.hasState_append c d, BoundText.write_append (fun _ => rfl) c d,
      fun v => BoundText.write_append (f := Segment.render v) (fun _ => rfl) c d⟩

/-- The first text ends with half a mark, which the second one does not complete; the plain text at
the seam becomes one segment. -/
theorem bindTemplate_half_mark :
    placeholdersOf ("%^STATE.TotalOffers^% 5%" ++ "é%^DATA.creativeCopy.a!|x^%") =
      .ok [⟨"%^STATE.TotalOffers^%", 0, 21, [.keyed (.state "TotalOffers") false]⟩,
        ⟨"%^DATA.creativeCopy.a!|x^%", 26, 52,
          [.keyed (.data .creativeCopy "a") true, .literal "x"]⟩] ∧
    ∃ b, bindTemplate ("%^STATE.TotalOffers^% 5%" ++ "é%^DATA.creativeCopy.a!|x^%")
        (.offer { copy := Dict.ofList [("a", "%^")] }) = .ok b ∧
      b.inner.segments = [.state "%^STATE.TotalOffers^%" .totalOffers, .text " 5%é%^"] := by
  have hseam : Seam "%^STATE.TotalOffers^% 5%".toList "é%^DATA.creativeCopy.a!|x^%".toList :=
    { closed := by decide +kernel, apart := by decide +kernel }
  have hx : bindTemplate "%^STATE.TotalOffers^% 5%"
      (.offer { copy := Dict.ofList [("a", "%^")] }) =
      .ok (.state ⟨[.text " 5%", .state "%^STATE.TotalOffers^%" .totalOffers]⟩) := by
    decide +kernel
  have hy : bindTemplate "é%^DATA.creativeCopy.a!|x^%"
      (.offer { copy := Dict.ofList [("a", "%^")] }) = .ok (.value ⟨[.text "é%^"]⟩) := by
    decide +kernel
  obtain ⟨hplaces, hbind⟩ := bindTemplate_append hseam
  obtain ⟨b, hb, hsegments, -⟩ := (hbind _).2 _ _ hx hy
  refine ⟨hplaces.trans (by decide +kernel), b, hb, hsegments.trans (by decide +kernel)⟩

end OfferLayout
