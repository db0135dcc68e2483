/-
**Spans of bytes.**

A place in a text is given by the number of UTF-8 bytes before it.  It lies between two characters,
or at one end, exactly if the bytes before it are the encoding of the characters before it.  A span
is given by two such places, and holds the characters between them; a span with an end in the
middle of a character holds nothing.

Main definitions:

* `Text.splitAtByte?` — the text before and after a place;
* `Span`, `Span.slice?` — a span, and the characters that it holds;
* `Span.gaps`, `Span.finish` — what lies before and between spans, and where the last one stops;
* `Span.splice` — **a text with its spans replaced**, everything else copied.

Main results:

* `Text.isValid_ofList_iff` — the places between two characters are the valid positions of the text;
* `Span.slice?_eq_some_iff` — what a span holds stands between the bytes before and after it.
-/

import OfferLayout.Text.Cut

set_option relaxedAutoImplicit false
set_option autoImplicit false

namespace OfferLayout

namespace Text

/-! ### Places between characters -/

/-- The size of a text in the core library. -/
@[simp] theorem utf8ByteSize_ofList (s : List Char) :
    (String.ofList s).utf8ByteSize = byteSize s := by
  induction s with
  | nil => rfl
  | cons c s ih =>
      have hsplit : String.ofList (c :: s) = String.singleton c ++ String.ofList s := by
        rw [String.singleton_eq_ofList, ← String.ofList_append, List.singleton_append]
      rw [hsplit, String.utf8ByteSize_append, String.utf8ByteSize_singleton, ih, byteSize_cons]

theorem byteSize_eq_zero_iff {s : List Char} : byteSize s = 0 ↔ s = [] := by
  cases s with
  | nil => simp
  | cons c s =>
      have := c.utf8Size_pos
      simp only [byteSize_cons, reduceCtorEq, iff_false]
      omega

/-- Two ways to cut a text at the same byte are the same. -/
theorem append_inj_of_byteSize {u v u' v' : List Char} (h : u ++ v = u' ++ v')
    (hsize : byteSize u = byteSize u') : u = u' ∧ v = v' := by
  induction u generalizing u' with
  | nil =>
      have hu' : u' = [] := byteSize_eq_zero_iff.1 hsize.symm
      subst hu'
      exact ⟨rfl, h⟩
  | cons c u ih =>
      cases u' with
      | nil => exact absurd (byteSize_eq_zero_iff.1 hsize) (by simp)
      | cons d u' =>
          simp only [List.cons_append, List.cons.injEq] at h
          obtain ⟨rfl, h⟩ := h
          simp only [byteSize_cons, Nat.add_left_cancel_iff] at hsize
          obtain ⟨rfl, rfl⟩ := ih h hsize
          exact ⟨rfl, rfl⟩

/-- The text before and after the place that has the given number of bytes before it, if there is
such a place between two characters or at an end. -/
def splitAtByte? : List Char → Nat → Option (List Char × List Char)
  | s, 0 => some ([], s)
  | [], _ + 1 => none
  | c :: s, n + 1 =>
      if c.utf8Size ≤ n + 1 then
        (splitAtByte? s (n + 1 - c.utf8Size)).map fun cut => (c :: cut.1, cut.2)
      else none

theorem splitAtByte?_cons {c : Char} (s : List Char) {n : Nat} (h : c.utf8Size ≤ n) :
    splitAtByte? (c :: s) n =
      (splitAtByte? s (n - c.utf8Size)).map fun cut => (c :: cut.1, cut.2) := by
  obtain ⟨k, rfl⟩ : ∃ k, n = k + 1 := ⟨n - 1, by have := c.utf8Size_pos; omega⟩
  rw [splitAtByte?, if_pos h]

theorem splitAtByte?_append (u v : List Char) :
    splitAtByte? (u ++ v) (byteSize u) = some (u, v) := by
  induction u with
  | nil => simp [splitAtByte?]
  | cons c u ih =>
      rw [List.cons_append, byteSize_cons, splitAtByte?_cons _ (Nat.le_add_right _ _),
        Nat.add_sub_cancel_left, ih]
      rfl

theorem append_of_splitAtByte? {s u v : List Char} {n : Nat}
    (h : splitAtByte? s n = some (u, v)) : s = u ++ v ∧ byteSize u = n := by
  fun_induction splitAtByte? s n generalizing u v with
  | case1 s =>
      simp only [Option.some.injEq, Prod.mk.injEq] at h
      obtain ⟨rfl, rfl⟩ := h
      exact ⟨rfl, rfl⟩
  | case2 => simp at h
  | case3 c s n hc ih =>
      obtain ⟨⟨p, q⟩, hpq, heq⟩ := Option.map_eq_some_iff.1 h
      simp only [Prod.mk.injEq] at heq
      obtain ⟨rfl, rfl⟩ := heq
      obtain ⟨rfl, hsize⟩ := ih hpq
      refine ⟨rfl, ?_⟩
      rw [byteSize_cons, hsize]
      omega
  | case4 => simp at h

/-- **A text is cut at a byte** in the only way. -/
theorem splitAtByte?_eq_some_iff {s u v : List Char} {n : Nat} :
    splitAtByte? s n = some (u, v) ↔ s = u ++ v ∧ byteSize u = n := by
  constructor
  · exact append_of_splitAtByte?
  · rintro ⟨rfl, rfl⟩
    exact splitAtByte?_append u v

/-- **The places between characters are the valid positions** of the core library. -/
theorem isValid_ofList_iff {s : List Char} {n : Nat} :
    (⟨n⟩ : String.Pos.Raw).IsValid (String.ofList s) ↔ ∃ u v, s = u ++ v ∧ byteSize u = n := by
  rw [String.Pos.Raw.isValid_ofList]
  constructor
  · rintro ⟨i, hi⟩
    rw [utf8ByteSize_ofList] at hi
    exact ⟨s.take i, s.drop i, (List.take_append_drop i s).symm, hi.symm⟩
  · rintro ⟨u, v, rfl, rfl⟩
    refine ⟨u.length, ?_⟩
    rw [List.take_left, utf8ByteSize_ofList]

end Text

open Text (byteSize)

/-! ### Spans -/

/-- A span of the bytes of a text. -/
structure Span where
  /-- The number of bytes before the span. -/
  start : Nat
  /-- The number of bytes before the span and in it. -/
  stop : Nat
deriving DecidableEq, Repr

namespace Span

/-- **What a span of a text holds**, if both its ends lie between characters, in order. -/
def slice? (x : Span) (s : List Char) : Option (List Char) :=
  (Text.splitAtByte? s x.stop).bind fun cut => (Text.splitAtByte? cut.1 x.start).map Prod.snd

/-- **What a span holds** stands between the bytes before it and those after it. -/
theorem slice?_eq_some_iff {x : Span} {s p : List Char} :
    x.slice? s = some p ↔
      ∃ u v, s = u ++ p ++ v ∧ byteSize u = x.start ∧ byteSize (u ++ p) = x.stop := by
  constructor
  · intro h
    obtain ⟨⟨w, v⟩, hw, hp⟩ := Option.bind_eq_some_iff.1 h
    obtain ⟨⟨u, q⟩, hu, rfl⟩ := Option.map_eq_some_iff.1 hp
    obtain ⟨rfl, hstop⟩ := Text.splitAtByte?_eq_some_iff.1 hw
    obtain ⟨rfl, hstart⟩ := Text.splitAtByte?_eq_some_iff.1 hu
    exact ⟨u, v, rfl, hstart, hstop⟩
  · rintro ⟨u, v, rfl, hstart, hstop⟩
    have hw : Text.splitAtByte? (u ++ p ++ v) x.stop = some (u ++ p, v) :=
      Text.splitAtByte?_eq_some_iff.2 ⟨rfl, hstop⟩
    have hu : Text.splitAtByte? (u ++ p) x.start = some (u, p) :=
      Text.splitAtByte?_eq_some_iff.2 ⟨rfl, hstart⟩
    rw [slice?, hw, Option.bind_some, hu, Option.map_some]

/-- What a span holds that starts where a first part of the text ends. -/
theorem slice?_append_iff {u w p : List Char} {n : Nat} :
    (Span.mk (byteSize u) n).slice? (u ++ w) = some p ↔
      ∃ v, w = p ++ v ∧ byteSize (u ++ p) = n := by
  rw [slice?_eq_some_iff]
  constructor
  · rintro ⟨u', v, h, hstart, hstop⟩
    rw [List.append_assoc] at h
    obtain ⟨rfl, rfl⟩ := Text.append_inj_of_byteSize h hstart.symm
    exact ⟨v, rfl, hstop⟩
  · rintro ⟨v, rfl, hstop⟩
    exact ⟨u, v, (List.append_assoc u p v).symm, rfl, hstop⟩

/-- A span that holds something lies within the text and starts and stops between characters. -/
theorem isValid_of_slice? {x : Span} {s p : List Char} (h : x.slice? s = some p) :
    (⟨x.start⟩ : String.Pos.Raw).IsValid (String.ofList s) ∧
      (⟨x.stop⟩ : String.Pos.Raw).IsValid (String.ofList s) := by
  obtain ⟨u, v, rfl, hstart, hstop⟩ := slice?_eq_some_iff.1 h
  rw [Text.isValid_ofList_iff, Text.isValid_ofList_iff]
  exact ⟨⟨u, p ++ v, List.append_assoc u p v, hstart⟩, ⟨u ++ p, v, rfl, hstop⟩⟩

/-! ### What lies between spans -/

/-- The spans from a place to the first of the given spans, and from each of them to the next. -/
def gaps (start : Nat) : List Span → List Span
  | [] => []
  | x :: rest => ⟨start, x.start⟩ :: gaps x.stop rest

/-- The place where the last of the spans stops; where there are none, the given place. -/
def finish (start : Nat) : List Span → Nat
  | [] => start
  | x :: rest => finish x.stop rest

/-- **The text from a place on with its spans replaced.**  What lies between them is copied. -/
def splice (s : List Char) (start : Nat) : List (Span × List Char) → Option (List Char)
  | [] => (Span.mk start (byteSize s)).slice? s
  | (x, r) :: rest =>
      ((Span.mk start x.start).slice? s).bind fun gap =>
        (splice s x.stop rest).map fun others => gap ++ r ++ others

/-- What a text holds from a place to its end. -/
theorem slice?_to_end (u w : List Char) :
    (Span.mk (byteSize u) (byteSize (u ++ w))).slice? (u ++ w) = some w :=
  slice?_append_iff.2 ⟨[], by simp, rfl⟩

end Span

end OfferLayout
