/-
**A text in segments has one form.**

A text in segments is built from nothing by adding plain texts and places for live state.  However
it is built, it is tidy, it reads as what was added, one after the other, and it awaits live state
if a place for it was added.  All that is forgotten is how the plain text was cut: two ways to build
a text give the same one exactly if they add the same places in the same order, with the same plain
text before, between and after them.

Main definitions:

* `Segment.places`, `Segment.gaps` — the places for live state among segments, and the plain text
  around them;
* `Segment.Alike` — **segments that differ in the way the plain text is cut only**;
* `Segment.alternate` — segments with given places and given plain text around them;
* `BoundText.ofAdditions` — the text that additions build.

Main results:

* `BoundText.alike_foldl_pushSegment` — no addition changes the places that were there, or the plain
  text around them;
* `BoundText.foldl_pushSegment_alternate` — **additions matter by their places and their plain text
  only**;
* `BoundText.additions_have_one_form` — what is built, and when it is the same.
-/

import OfferLayout.Proofs.Expansion.Segments

set_option relaxedAutoImplicit false
set_option autoImplicit false

namespace OfferLayout

namespace Segment

/-! ### Places and the plain text around them -/

/-- The places for live state, in order. -/
def places (l : List Segment) : List Segment := l.filter isState

/-- The plain text before the first place for live state, between any two of them that follow each
other, and after the last one. -/
def gaps (l : List Segment) : List String :=
  (l.splitOnP isState).map fun run => String.join (run.map source)

@[simp] theorem gaps_nil : gaps [] = [""] := rfl

theorem gaps_state (raw : String) (key : StateKey) (l : List Segment) :
    gaps (.state raw key :: l) = "" :: gaps l := by
  simp [gaps, List.splitOnP_cons_eq_if_modifyHead, isState]

theorem gaps_ne_nil (l : List Segment) : gaps l ≠ [] :=
  mt List.map_eq_nil_iff.1 (List.splitOnP_ne_nil isState l)

theorem gaps_text (s : String) (l : List Segment) :
    gaps (.text s :: l) = (gaps l).modifyHead (s ++ ·) := by
  rw [gaps, gaps, List.splitOnP_cons_eq_if_modifyHead, if_neg (by simp [isState])]
  obtain ⟨run, runs, h⟩ := List.exists_cons_of_ne_nil (List.splitOnP_ne_nil isState l)
  simp [h, source]

/-- **Segments that differ in the way the plain text is cut only.** -/
structure Alike (l l' : List Segment) : Prop where
  /-- The places for live state are the same, in the same order. -/
  places : places l = places l'
  /-- The plain text around them is the same. -/
  gaps : gaps l = gaps l'

namespace Alike

variable {l l' l'' : List Segment}

theorem refl (l : List Segment) : Alike l l := ⟨rfl, rfl⟩

theorem symm (h : Alike l l') : Alike l' l := ⟨h.places.symm, h.gaps.symm⟩

theorem trans (h : Alike l l') (h' : Alike l' l'') : Alike l l'' :=
  ⟨h.places.trans h'.places, h.gaps.trans h'.gaps⟩

theorem cons (x : Segment) (h : Alike l l') : Alike (x :: l) (x :: l') := by
  refine { places := ?_, gaps := ?_ }
  · have hplaces := h.places
    simp only [Segment.places, List.filter_cons] at hplaces ⊢
    rw [hplaces]
  · cases x with
    | text s => rw [gaps_text, gaps_text, h.gaps]
    | state raw key => rw [gaps_state, gaps_state, h.gaps]

theorem append_left (k : List Segment) (h : Alike l l') : Alike (k ++ l) (k ++ l') := by
  induction k with
  | nil => exact h
  | cons x k ih => exact ih.cons x

/-- Two texts next to each other are one. -/
theorem text_text (s t : String) (l : List Segment) :
    Alike (.text (s ++ t) :: l) (.text s :: .text t :: l) := by
  refine { places := rfl, gaps := ?_ }
  obtain ⟨g, gs, h⟩ := List.exists_cons_of_ne_nil (gaps_ne_nil l)
  simp only [gaps_text, h, List.modifyHead_cons, String.append_assoc]

theorem text_empty (l : List Segment) : Alike l (.text "" :: l) := by
  refine { places := rfl, gaps := ?_ }
  obtain ⟨g, gs, h⟩ := List.exists_cons_of_ne_nil (gaps_ne_nil l)
  simp only [gaps_text, h, List.modifyHead_cons, String.empty_append]

end Alike

/-- **Segments with the given plain text around the given places.** -/
def alternate : List String → List Segment → List Segment
  | [], _ => []
  | g :: _, [] => [.text g]
  | g :: gs, x :: xs => .text g :: x :: alternate gs xs

end Segment

namespace BoundText

open Segment (places gaps Alike alternate)

/-! ### What additions keep -/

/-- An addition puts a segment at the end, up to the way the plain text is cut. -/
theorem alike_pushSegment (b : BoundText) (x : Segment) (l : List Segment) :
    Alike ((b.pushSegment x).segments ++ l) (b.segments ++ x :: l) := by
  cases x with
  | state raw key =>
      rw [pushSegment, segments_pushState, List.append_assoc]
      exact Alike.refl _
  | text s =>
      by_cases hs : s = ""
      · rw [pushSegment, hs, pushText_empty]
        exact (Alike.text_empty l).append_left b.segments
      · rcases b.segments_pushText_cases hs with ⟨init, t, hb, hpush⟩ | ⟨-, hpush⟩
        · rw [pushSegment, hpush, hb, List.append_assoc, List.append_assoc]
          exact (Alike.text_text t s l).append_left init
        · rw [pushSegment, hpush, List.append_assoc]
          exact Alike.refl _

/-- **No addition changes the places that were there**, or the plain text around them. -/
theorem alike_foldl_pushSegment (b : BoundText) (l : List Segment) :
    Alike (l.foldl pushSegment b).segments (b.segments ++ l) := by
  induction l generalizing b with
  | nil =>
      rw [List.append_nil]
      exact Alike.refl _
  | cons x l ih => exact (ih (b.pushSegment x)).trans (b.alike_pushSegment x l)

/-! ### What additions depend on -/

/-- **Additions matter by their places and their plain text only.** -/
theorem foldl_pushSegment_alternate (b : BoundText) (l : List Segment) :
    (alternate (gaps l) (places l)).foldl pushSegment b = l.foldl pushSegment b := by
  induction l generalizing b with
  | nil => rfl
  | cons x l ih =>
      obtain ⟨g, gs, hgaps⟩ := List.exists_cons_of_ne_nil (Segment.gaps_ne_nil l)
      rw [List.foldl_cons, ← ih (b.pushSegment x), hgaps]
      cases x with
      | state raw key =>
          rw [Segment.gaps_state, hgaps]
          rfl
      | text s =>
          have hplaces : places (.text s :: l) = places l := rfl
          rw [Segment.gaps_text, hgaps, List.modifyHead_cons, hplaces]
          -- the first plain text is all that differs, and it is added in two parts or as one
          cases places l <;>
            simp only [alternate, List.foldl_cons, List.foldl_nil, pushSegment, pushText_pushText]

/-! ### Building a text -/

/-- **The text that additions build** from nothing: a plain text is added, or a place for live
state. -/
def ofAdditions (l : List Segment) : BoundText := l.foldl pushSegment .empty

theorem write_ofAdditions {f : Segment → String} (hf : ∀ s, f (.text s) = s) (l : List Segment) :
    (ofAdditions l).write f = String.join (l.map f) :=
  (write_foldl_pushSegment hf .empty l).trans String.empty_append

theorem hasState_ofAdditions_iff {l : List Segment} :
    (ofAdditions l).hasState = true ↔ ∃ x ∈ l, x.isState = true := by
  rw [ofAdditions, hasState_foldl_pushSegment, hasState, segments_empty, List.any_nil,
    Bool.false_or, List.any_eq_true]

theorem alike_segments_ofAdditions (l : List Segment) : Alike (ofAdditions l).segments l :=
  alike_foldl_pushSegment .empty l

/-- Two ways to build a text give the same one exactly if they differ in the way the plain text is
cut only. -/
theorem ofAdditions_eq_iff {l l' : List Segment} :
    ofAdditions l = ofAdditions l' ↔ Alike l l' := by
  constructor
  · intro h
    have hsegments := alike_segments_ofAdditions l
    rw [h] at hsegments
    exact hsegments.symm.trans (alike_segments_ofAdditions l')
  · intro h
    rw [ofAdditions, ofAdditions, ← foldl_pushSegment_alternate, h.gaps, h.places,
      foldl_pushSegment_alternate]

/-- Plain text that is cut in three or left whole makes no difference; without the place between
them two texts would be one. -/
example :
    ofAdditions [.text "", .text "a", .state "" .totalOffers, .text "b", .text "", .text "c"] =
        ofAdditions [.text "a", .state "" .totalOffers, .text "bc"] ∧
      ofAdditions [.text "a", .state "" .totalOffers, .text "bc"] ≠ ofAdditions [.text "abc"] := by
  decide

end BoundText

end OfferLayout
