/-
**Texts in segments, one after the other.**

A text in segments is built by adding to its end, and a text that is added merges with a text
before it.  Adding all segments of a second text to a first one therefore gives the segments of
both, with two texts merged where they come to stand next to each other.  Nothing else happens,
because a text that is built in this way is tidy: it has no empty texts, and no two texts next to
each other.

Main definitions:

* `Segment.merge` — **segments with texts next to each other merged**;
* `BoundText.pushSegment`, `BoundText.append` — one segment, and those of another text, added to a
  text;
* `BoundText.Tidy` — a text without empty texts, or texts next to each other.

Main results:

* `BoundText.segments_pushText_cases` — what the addition of a text does;
* `BoundText.append_pushSegment` — adding to the second of two texts;
* `BoundText.segments_append` — **the segments of two texts are those of both, merged**;
* `BoundText.write_append`, `BoundText.hasState_append` — two texts are written one after the other,
  and await live state if one of them does.
-/

import Mathlib.Data.List.Chain
import OfferLayout.Proofs.Expansion.LiveState

set_option relaxedAutoImplicit false
set_option autoImplicit false

namespace OfferLayout

namespace Segment

/-! ### Merging -/

/-- Puts a segment before others; a text merges with a text. -/
def consMerged : Segment → List Segment → List Segment
  | .text s, .text t :: rest => .text (s ++ t) :: rest
  | x, rest => x :: rest

/-- **Segments with texts next to each other merged.** -/
def merge (l : List Segment) : List Segment := l.foldr consMerged []

theorem consMerged_text_text (s t : String) (l : List Segment) :
    consMerged (.text s) (consMerged (.text t) l) = consMerged (.text (s ++ t)) l := by
  rcases l with _ | ⟨⟨u⟩ | ⟨raw, key⟩, l⟩
  · rfl
  · simp only [consMerged, String.append_assoc]
  · rfl

theorem merge_append (l l' : List Segment) : merge (l ++ l') = l.foldr consMerged (merge l') :=
  List.foldr_append

/-- Two segments that do not merge. -/
def Apart (x y : Segment) : Prop := x.isState = true ∨ y.isState = true

/-- Nothing happens where no texts stand next to each other. -/
theorem merge_eq_self {l : List Segment} (h : l.IsChain Apart) : merge l = l := by
  induction l with
  | nil => rfl
  | cons x l ih =>
      have htail : merge l = l := ih h.tail
      rw [← List.singleton_append, merge_append, htail]
      cases l with
      | nil => cases x <;> rfl
      | cons y l =>
          have hxy : Apart x y := h.rel
          cases x with
          | state raw key => rfl
          | text s =>
              cases y with
              | state raw key => rfl
              | text t => exact absurd hxy (by simp [Apart, isState])

end Segment

namespace BoundText

/-! ### Adding to a text -/

/-- **What the addition of a text does**: it is merged with a text at the end, or becomes the last
segment. -/
theorem segments_pushText_cases (b : BoundText) {s : String} (hs : s ≠ "") :
    (∃ init t, b.segments = init ++ [.text t] ∧
        (b.pushText s).segments = init ++ [.text (t ++ s)]) ∨
      ((∀ x ∈ b.segments.getLast?, x.isState = true) ∧
        (b.pushText s).segments = b.segments ++ [.text s]) := by
  have hempty : s.isEmpty = false := by simpa using hs
  obtain ⟨_ | ⟨⟨t⟩ | ⟨raw, key⟩, latest⟩⟩ := b
  · right
    simp [pushText, hempty, segments]
  · left
    exact ⟨latest.reverse, t, by simp [segments], by simp [pushText, hempty, segments]⟩
  · right
    simp [pushText, hempty, segments, Segment.isState]

@[simp] theorem pushText_empty (b : BoundText) : b.pushText "" = b := rfl

/-- Two texts that are added one after the other are added as one. -/
theorem pushText_pushText (b : BoundText) (s t : String) :
    (b.pushText s).pushText t = b.pushText (s ++ t) := by
  by_cases hs : s = ""
  · rw [hs, pushText_empty, String.empty_append]
  · by_cases ht : t = ""
    · rw [ht, pushText_empty, String.append_empty]
    · obtain ⟨_ | ⟨⟨u⟩ | ⟨raw, key⟩, latest⟩⟩ := b <;>
        simp [pushText, hs, ht, String.append_assoc]

/-- Adds a segment. -/
def pushSegment (b : BoundText) : Segment → BoundText
  | .text s => b.pushText s
  | .state raw key => b.pushState raw key

/-- What a placeholder found is added as its segment. -/
theorem pushFound_eq_pushSegment (b : BoundText) (raw : String) (found : Option Found) :
    b.pushFound raw found = b.pushSegment (segmentOf raw found) := by
  rcases found with _ | ⟨s⟩ | ⟨key⟩ <;> rfl

/-- **The segments of one text added to another.** -/
def append (b c : BoundText) : BoundText := c.segments.foldl pushSegment b

@[simp] theorem append_empty (b : BoundText) : b.append .empty = b := rfl

theorem append_pushText (b c : BoundText) (s : String) :
    b.append (c.pushText s) = (b.append c).pushText s := by
  by_cases hs : s = ""
  · rw [hs, pushText_empty, pushText_empty]
  · rcases c.segments_pushText_cases hs with ⟨init, t, hc, hpush⟩ | ⟨-, hpush⟩
    · -- the text is merged into the last segment, which is the last one that is added to `b`
      simp only [append, hpush, hc, List.foldl_append, List.foldl_cons, List.foldl_nil, pushSegment,
        pushText_pushText]
    · simp only [append, hpush, List.foldl_append, List.foldl_cons, List.foldl_nil, pushSegment]

/-- **What is added to the second of two texts** is added to both. -/
theorem append_pushSegment (b c : BoundText) (x : Segment) :
    b.append (c.pushSegment x) = (b.append c).pushSegment x := by
  cases x with
  | text s => exact append_pushText b c s
  | state raw key =>
      simp only [append, pushSegment, segments_pushState, List.foldl_append, List.foldl_cons,
        List.foldl_nil]

/-! ### Tidy texts -/

/-- **A text without empty texts, or texts next to each other.** -/
structure Tidy (b : BoundText) : Prop where
  /-- No text in it is empty. -/
  nonempty : Segment.text "" ∉ b.segments
  /-- No two texts stand next to each other. -/
  apart : b.segments.IsChain Segment.Apart

theorem tidy_empty : Tidy .empty where
  nonempty := List.not_mem_nil
  apart := List.IsChain.nil

theorem Tidy.pushText {b : BoundText} (h : b.Tidy) (s : String) : (b.pushText s).Tidy := by
  by_cases hs : s = ""
  · rw [hs]
    exact h
  · rcases b.segments_pushText_cases hs with ⟨init, t, hb, hpush⟩ | ⟨hlast, hpush⟩
    · obtain ⟨hnonempty, hapart⟩ := h
      rw [hb, List.mem_append, not_or] at hnonempty
      rw [hb, List.isChain_append] at hapart
      refine { nonempty := ?_, apart := ?_ }
      · rw [hpush, List.mem_append, not_or, List.mem_singleton, Segment.text.injEq]
        exact ⟨hnonempty.1, fun heq => hs (String.append_eq_empty_iff.1 heq.symm).2⟩
      · rw [hpush, List.isChain_append]
        refine ⟨hapart.1, List.IsChain.singleton _, ?_⟩
        rintro x hx _ ⟨rfl⟩
        have hxt : Segment.Apart x (.text t) := hapart.2.2 x hx (.text t) rfl
        exact hxt
    · refine { nonempty := ?_, apart := ?_ }
      · rw [hpush, List.mem_append, not_or, List.mem_singleton, Segment.text.injEq]
        exact ⟨h.nonempty, Ne.symm hs⟩
      · rw [hpush, List.isChain_append]
        exact ⟨h.apart, List.IsChain.singleton _, fun x hx _ _ => Or.inl (hlast x hx)⟩

/-- A tidy text stays tidy, whatever is added. -/
theorem Tidy.pushSegment {b : BoundText} (h : b.Tidy) (x : Segment) : (b.pushSegment x).Tidy := by
  cases x with
  | text s => exact h.pushText s
  | state raw key =>
      refine { nonempty := ?_, apart := ?_ }
      · simpa [BoundText.pushSegment] using h.nonempty
      · rw [BoundText.pushSegment, segments_pushState, List.isChain_append]
        refine ⟨h.apart, List.IsChain.singleton _, ?_⟩
        rintro x - _ ⟨rfl⟩
        exact Or.inr rfl

theorem Tidy.foldl_pushSegment {b : BoundText} (h : b.Tidy) (l : List Segment) :
    (l.foldl BoundText.pushSegment b).Tidy := by
  induction l generalizing b with
  | nil => exact h
  | cons x l ih => exact ih (h.pushSegment x)

theorem Tidy.append {b : BoundText} (h : b.Tidy) (c : BoundText) : (b.append c).Tidy :=
  h.foldl_pushSegment c.segments

theorem Tidy.pushMarks {b : BoundText} (h : b.Tidy) (l : List (Mark × Option Found)) :
    (b.pushMarks l).Tidy := by
  induction l generalizing b with
  | nil => exact h
  | cons x l ih =>
      obtain ⟨m, found⟩ := x
      rw [BoundText.pushMarks, pushFound_eq_pushSegment]
      exact ih ((h.pushText _).pushSegment _)

/-! ### The segments of two texts -/

/-- A segment that is added merges with what is there as it does with what follows. -/
theorem merge_segments_pushSegment (b : BoundText) {x : Segment} (hx : x ≠ .text "")
    (l : List Segment) :
    Segment.merge ((b.pushSegment x).segments ++ l) = Segment.merge (b.segments ++ x :: l) := by
  cases x with
  | state raw key => simp [pushSegment]
  | text s =>
      have hs : s ≠ "" := by
        rintro rfl
        exact hx rfl
      rcases b.segments_pushText_cases hs with ⟨init, t, hb, hpush⟩ | ⟨-, hpush⟩
      · rw [pushSegment, hpush, hb, List.append_assoc, List.append_assoc, Segment.merge_append init,
          Segment.merge_append init]
        exact congrArg (init.foldr Segment.consMerged ·)
          (Segment.consMerged_text_text t s (Segment.merge l)).symm
      · rw [pushSegment, hpush, List.append_assoc, List.singleton_append]

theorem merge_segments_foldl_pushSegment (b : BoundText) {l : List Segment}
    (hl : Segment.text "" ∉ l) :
    Segment.merge (l.foldl pushSegment b).segments = Segment.merge (b.segments ++ l) := by
  induction l generalizing b with
  | nil => rw [List.foldl_nil, List.append_nil]
  | cons x l ih =>
      rw [List.mem_cons, not_or] at hl
      rw [List.foldl_cons, ih (b.pushSegment x) hl.2,
        merge_segments_pushSegment b (Ne.symm hl.1)]

/-- **The segments of two texts** are those of both, with texts next to each other merged. -/
theorem segments_append {b c : BoundText} (hb : b.Tidy) (hc : c.Tidy) :
    (b.append c).segments = Segment.merge (b.segments ++ c.segments) := by
  rw [← merge_segments_foldl_pushSegment b hc.nonempty]
  exact (Segment.merge_eq_self (hb.append c).apart).symm

theorem write_pushSegment {f : Segment → String} (hf : ∀ s, f (.text s) = s) (b : BoundText)
    (x : Segment) : (b.pushSegment x).write f = b.write f ++ f x := by
  cases x with
  | text s => rw [pushSegment, write_pushText hf, hf]
  | state raw key => simp [pushSegment, write]

theorem write_foldl_pushSegment {f : Segment → String} (hf : ∀ s, f (.text s) = s) (b : BoundText)
    (l : List Segment) :
    (l.foldl pushSegment b).write f = b.write f ++ String.join (l.map f) := by
  induction l generalizing b with
  | nil => simp
  | cons x l ih =>
      rw [List.foldl_cons, ih, write_pushSegment hf, List.map_cons, String.join_cons,
        String.append_assoc]

/-- **Two texts are written one after the other.** -/
theorem write_append {f : Segment → String} (hf : ∀ s, f (.text s) = s) (b c : BoundText) :
    (b.append c).write f = b.write f ++ c.write f :=
  write_foldl_pushSegment hf b c.segments

theorem hasState_pushSegment (b : BoundText) (x : Segment) :
    (b.pushSegment x).hasState = (b.hasState || x.isState) := by
  cases x with
  | text s => rw [pushSegment, hasState_pushText, Segment.isState, Bool.or_false]
  | state raw key => simp [pushSegment, hasState, Segment.isState]

theorem hasState_foldl_pushSegment (b : BoundText) (l : List Segment) :
    (l.foldl pushSegment b).hasState = (b.hasState || l.any Segment.isState) := by
  induction l generalizing b with
  | nil => simp
  | cons x l ih => rw [List.foldl_cons, ih, hasState_pushSegment, List.any_cons, Bool.or_assoc]

theorem hasState_append (b c : BoundText) :
    (b.append c).hasState = (b.hasState || c.hasState) :=
  hasState_foldl_pushSegment b c.segments

end BoundText

end OfferLayout
