/-
**Live state shows in the text.**

A template is bound to live state exactly if one of its placeholders resolves to some, and only then
does the text depend on the values of the state.  It then never reads as the template does: the
placeholder for the state has marks in it, and the numbers that are filled in have none.

Main definitions:

* `percentSigns` — the number of percent signs in a text, which tells marks from numbers.

Main results:

* `hasState_pushMarks` — a filled template awaits live state if one of its segments does;
* `isState_bindTemplate_iff` — **the binding is to live state exactly if a placeholder is**;
* `render_eq_text_of_hasState_eq_false` — without live state the text is the same for all values;
* `percentSigns_render_lt` — **filling in live state takes percent signs away**.
-/

import Mathlib.Algebra.Order.BigOperators.Group.List
import Mathlib.Algebra.Order.Ring.Nat
import OfferLayout.Proofs.Expansion.Splice

set_option relaxedAutoImplicit false
set_option autoImplicit false

namespace OfferLayout

/-! ### Texts that await live state -/

theorem hasState_pushText (b : BoundText) (s : String) : (b.pushText s).hasState = b.hasState := by
  unfold BoundText.pushText
  split
  · rfl
  · split
    · next t rest h =>
        simp [BoundText.hasState, BoundText.segments, h, Segment.isState]
    · simp [BoundText.hasState, BoundText.segments, Segment.isState]

theorem hasState_pushFound (b : BoundText) (raw : String) (found : Option Found) :
    (b.pushFound raw found).hasState = (b.hasState || (segmentOf raw found).isState) := by
  rcases found with _ | ⟨s⟩ | ⟨key⟩
  · simp [BoundText.pushFound, segmentOf, Segment.isState]
  · rw [BoundText.pushFound, hasState_pushText, segmentOf, Segment.isState, Bool.or_false]
  · simp [BoundText.pushFound, BoundText.hasState, segmentOf, Segment.isState]

/-- **A filled template awaits live state** if one of its segments does. -/
theorem hasState_pushMarks (b : BoundText) (l : List (Mark × Option Found)) :
    (b.pushMarks l).hasState =
      (b.hasState || l.any fun x => (segmentOf x.1.raw x.2).isState) := by
  induction l generalizing b with
  | nil => simp [BoundText.pushMarks]
  | cons x l ih =>
      obtain ⟨m, found⟩ := x
      rw [BoundText.pushMarks, ih, hasState_pushFound, hasState_pushText, List.any_cons,
        Bool.or_assoc]

/-- The segment of a placeholder is one for live state exactly if it resolves to some. -/
theorem isState_iff_of_resolvesTo {s : Source} {raw : String} {segment : Segment}
    (h : ResolvesTo s raw segment) :
    segment.isState = true ↔ ∃ name, resolve raw s = .ok (.state name) := by
  obtain ⟨r, hr, hsegment⟩ := h
  rw [hr]
  cases r with
  | value text =>
      simp only [Binding.segment?, Option.some.injEq] at hsegment
      subst hsegment
      simp [Segment.isState]
  | state name =>
      obtain ⟨key, -, rfl⟩ := Option.map_eq_some_iff.1 hsegment
      simp [Segment.isState]

/-- **A template is bound to live state exactly if one of its placeholders resolves to some.** -/
theorem isState_bindTemplate_iff {t : String} {s : Source} {ps : List Placeholder}
    {b : Binding BoundText} (hps : placeholdersOf t = .ok ps) (hb : bindTemplate t s = .ok b) :
    b.isState = true ↔ ∃ p ∈ ps, ∃ name, resolve p.raw s = .ok (.state name) := by
  obtain ⟨filled, hfilled, rfl⟩ := bindTemplate_eq_ok_iff.1 hb
  obtain ⟨marks, founds, hmarks, hscope, hfounds, rfl⟩ := substitute_eq_ok_iff.1 hfilled
  obtain rfl : Template.placeholdersFrom 0 marks = ps :=
    Except.ok.inj ((placeholdersOf_eq_ok_iff.2 ⟨marks, hmarks, rfl⟩).symm.trans hps)
  have hresolves : List.Forall₂ (fun p segment => ResolvesTo s p.raw segment)
      (Template.placeholdersFrom 0 marks)
      ((marks.zip founds).map fun x => segmentOf x.1.raw x.2) :=
    forall₂_resolvesTo hmarks hscope hfounds
  have hsame := exists_iff_of_forall₂ hresolves fun p segment h =>
    (isState_iff_of_resolvesTo h).symm
  rw [hsame, isState_binding, hasState_pushText, hasState_pushMarks]
  simp [BoundText.hasState, and_comm]

/-! ### Filling in live state -/

/-- Without live state, the text is the same for all values. -/
theorem render_eq_text_of_hasState_eq_false {b : BoundText} (h : b.hasState = false)
    (v : StateValues) : b.render v = b.text := by
  have hplain : ∀ segment ∈ b.segments, segment.render v = segment.source := by
    intro segment hsegment
    have hnot : segment.isState = false := by
      simpa using List.any_eq_false.1 h segment hsegment
    cases segment with
    | text s => rfl
    | state raw key => cases hnot
  rw [BoundText.render, BoundText.text, List.map_congr_left hplain]

/-- The number of percent signs in a text. -/
def percentSigns (s : String) : Nat := s.toList.count '%'

/-- There is no percent sign in the values of the state. -/
theorem percentSigns_render (v : StateValues) (key : StateKey) :
    percentSigns (v.render key) = 0 := by
  have hnumber : ∀ n, percentSigns (Text.natural n) = 0 := by
    intro n
    rw [percentSigns, Text.natural, String.toList_ofList, List.count_eq_zero]
    intro hmem
    exact Text.digit?_ne_none_of_mem_digits hmem (by decide)
  cases key with
  | indicatorPosition => exact hnumber _
  | totalOffers => exact hnumber _

theorem percentSigns_raw_pos (m : Mark) : 0 < percentSigns m.raw := by
  rw [percentSigns, Mark.raw, String.toList_ofList, List.count_pos_iff]
  simp [markedText]

/-- Filling in live state takes percent signs away, and leaves plain text as it is. -/
theorem percentSigns_segmentOf (v : StateValues) (m : Mark) (found : Option Found) :
    percentSigns ((segmentOf m.raw found).render v) ≤
        percentSigns (segmentOf m.raw found).source ∧
      ((segmentOf m.raw found).isState = true →
        percentSigns ((segmentOf m.raw found).render v) <
          percentSigns (segmentOf m.raw found).source) := by
  rcases found with _ | ⟨s⟩ | ⟨key⟩
  · exact ⟨le_rfl, by simp [segmentOf, Segment.isState]⟩
  · exact ⟨le_rfl, by simp [segmentOf, Segment.isState]⟩
  · have hless : percentSigns (v.render key) < percentSigns m.raw := by
      rw [percentSigns_render]
      exact percentSigns_raw_pos m
    exact ⟨hless.le, fun _ => hless⟩

/-- The percent signs of a filled template are those of its plain text and of its segments. -/
theorem percentSigns_write {f : Segment → String} (hf : ∀ s, f (.text s) = s)
    (l : List (Mark × Option Found)) (rest : String) :
    percentSigns (((BoundText.empty.pushMarks l).pushText rest).write f) =
      (l.map fun x => x.1.gap.count '%' + percentSigns (f (segmentOf x.1.raw x.2))).sum +
        percentSigns rest := by
  rw [write_pushText hf, percentSigns, String.toList_append, toList_write_pushMarks hf,
    List.count_append, List.count_append, List.count_flatMap]
  simp [percentSigns, BoundText.write, Function.comp_def]

/-- **Filling in live state takes percent signs away.** -/
theorem percentSigns_render_lt {t : String} {s : Source} {b : BoundText}
    (hb : substitute t s = .ok b) (hstate : b.hasState = true) (v : StateValues) :
    percentSigns (b.render v) < percentSigns b.text := by
  obtain ⟨marks, founds, -, -, -, rfl⟩ := substitute_eq_ok_iff.1 hb
  rw [hasState_pushText, hasState_pushMarks] at hstate
  obtain ⟨x, hx, hxstate⟩ : ∃ x ∈ marks.zip founds, (segmentOf x.1.raw x.2).isState = true := by
    simpa [BoundText.hasState] using hstate
  have hrender := percentSigns_write (f := Segment.render v) (fun _ => rfl) (marks.zip founds)
    (String.ofList (cutMarks t.toList).rest)
  have htext := percentSigns_write (f := Segment.source) (fun _ => rfl) (marks.zip founds)
    (String.ofList (cutMarks t.toList).rest)
  rw [BoundText.write] at hrender htext
  rw [BoundText.render, BoundText.text, hrender, htext]
  refine Nat.add_lt_add_right (List.sum_lt_sum _ _ ?_ ⟨x, hx, ?_⟩) _
  · intro y _
    exact Nat.add_le_add_left (percentSigns_segmentOf v y.1 y.2).1 _
  · exact Nat.add_lt_add_left ((percentSigns_segmentOf v x.1 x.2).2 hxstate) _

end OfferLayout
