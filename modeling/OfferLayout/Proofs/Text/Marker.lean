/-
**Where a marker of two characters occurs.**

`Text.cutAt?` cuts a text at the first occurrence of a marker `a b`.  A marker of two different
characters cannot overlap itself, so the cut is characterized by what it leaves before the marker:
a text in which the marker does not occur.

Main results:

* `Text.cutAt?_eq_none_iff` — nothing is cut exactly when the marker does not occur;
* `Text.cutAt?_eq_some_iff` — **the first occurrence** is the one with no occurrence before it;
* `Text.suffix_of_cutAt?` — every occurrence is the first one or comes after it;
* `Text.occurs_append` — **an occurrence in two texts, one after the other**, is in one of them or
  across the seam.
-/

import OfferLayout.Text.Cut

set_option relaxedAutoImplicit false
set_option autoImplicit false

namespace OfferLayout

namespace Text

/-- A marker occurs in a text of two characters or more at its start or after its first
character. -/
theorem marker_infix_cons_cons {a b c d : Char} {s : List Char} :
    [a, b] <:+: c :: d :: s ↔ (c = a ∧ d = b) ∨ [a, b] <:+: d :: s := by
  rw [List.infix_cons_iff, List.cons_prefix_cons, List.cons_prefix_cons]
  constructor
  · rintro (⟨rfl, rfl, _⟩ | h)
    · exact Or.inl ⟨rfl, rfl⟩
    · exact Or.inr h
  · rintro (⟨rfl, rfl⟩ | h)
    · exact Or.inl ⟨rfl, rfl, List.nil_prefix⟩
    · exact Or.inr h

/-- A marker does not fit into a text of fewer than two characters. -/
theorem not_marker_infix_of_length_lt {a b : Char} {s : List Char} (h : s.length < 2) :
    ¬ [a, b] <:+: s := by
  intro hin
  have := hin.length_le
  simp only [List.length_cons, List.length_nil] at this
  omega

/-- **Nothing is cut** exactly when the marker does not occur. -/
theorem cutAt?_eq_none_iff {a b : Char} {s : List Char} :
    cutAt? a b s = none ↔ ¬ [a, b] <:+: s := by
  fun_induction cutAt? a b s with
  | case1 c d s hcd =>
      rw [marker_infix_cons_cons]
      simp [hcd]
  | case2 c d s hcd ih =>
      rw [Option.map_eq_none_iff, ih, marker_infix_cons_cons]
      simp [hcd]
  | case3 s hs =>
      have hlen : s.length < 2 := by
        rcases s with _ | ⟨c, _ | ⟨d, s⟩⟩
        · simp
        · simp
        · exact absurd rfl (hs c d s)
      simpa using not_marker_infix_of_length_lt hlen

/-- The marker does not occur before its first occurrence. -/
theorem not_infix_of_cutAt? {a b : Char} {s u v : List Char} (h : cutAt? a b s = some (u, v)) :
    ¬ [a, b] <:+: u := by
  fun_induction cutAt? a b s generalizing u v with
  | case1 c d s _ =>
      simp only [Option.some.injEq, Prod.mk.injEq] at h
      rw [← h.1]
      exact not_marker_infix_of_length_lt (by simp)
  | case2 c d s hcd ih =>
      obtain ⟨⟨p, q⟩, hpq, heq⟩ := Option.map_eq_some_iff.1 h
      simp only [Prod.mk.injEq] at heq
      obtain ⟨rfl, rfl⟩ := heq
      cases p with
      | nil => exact not_marker_infix_of_length_lt (by simp)
      | cons e p =>
          -- the text before the marker starts with the next character of the text
          have he : d = e := by
            have := eq_of_cutAt? hpq
            simp only [List.cons_append, List.cons.injEq] at this
            exact this.1
          subst he
          rw [marker_infix_cons_cons]
          rintro (h | h)
          · exact hcd h
          · exact ih hpq h
  | case3 => simp at h

/-- A marker of two different characters that does not occur in a text does not start in it
either when it follows. -/
theorem cutAt?_append {a b : Char} (hab : a ≠ b) {u : List Char} (h : ¬ [a, b] <:+: u)
    (v : List Char) : cutAt? a b (u ++ a :: b :: v) = some (u, v) := by
  induction u with
  | nil => simp [cutAt?]
  | cons c u ih =>
      have hu : ¬ [a, b] <:+: u := fun hin => h (List.infix_cons hin)
      cases u with
      | nil =>
          -- the character before the marker and the first one of the marker are no marker
          have : ¬ (c = a ∧ a = b) := fun hca => hab hca.2
          simp [cutAt?, this]
      | cons d u =>
          have hcd : ¬ (c = a ∧ d = b) := fun hcd => h (marker_infix_cons_cons.2 (Or.inl hcd))
          simp only [List.cons_append, cutAt?, if_neg hcd]
          rw [← List.cons_append, ih hu]
          rfl

/-- **The first occurrence** of a marker of two different characters is the one with no occurrence
before it. -/
theorem cutAt?_eq_some_iff {a b : Char} (hab : a ≠ b) {s u v : List Char} :
    cutAt? a b s = some (u, v) ↔ s = u ++ a :: b :: v ∧ ¬ [a, b] <:+: u := by
  constructor
  · intro h
    exact ⟨eq_of_cutAt? h, not_infix_of_cutAt? h⟩
  · rintro ⟨rfl, h⟩
    exact cutAt?_append hab h v

/-- **The first occurrence comes first**: what follows any occurrence is the end of what follows
the first one. -/
theorem suffix_of_cutAt? {a b : Char} (hab : a ≠ b) {s u v u' v' : List Char}
    (h : cutAt? a b s = some (u, v)) (hs : s = u' ++ a :: b :: v') : v' <:+ v := by
  fun_induction cutAt? a b s generalizing u v u' with
  | case1 c d s hcd =>
      simp only [Option.some.injEq, Prod.mk.injEq] at h
      obtain ⟨rfl, rfl⟩ := h
      -- an occurrence that starts within the first one would make its two characters the same
      rcases u' with _ | ⟨x, _ | ⟨y, u'⟩⟩
      · simp only [List.nil_append, List.cons.injEq] at hs
        exact hs.2.2 ▸ List.suffix_refl s
      · simp only [List.cons_append, List.nil_append, List.cons.injEq] at hs
        exact absurd (hs.2.1.symm.trans hcd.2) hab
      · simp only [List.cons_append, List.cons.injEq] at hs
        exact ⟨u' ++ [a, b], by simp [hs.2.2]⟩
  | case2 c d s hcd ih =>
      obtain ⟨⟨p, q⟩, hpq, heq⟩ := Option.map_eq_some_iff.1 h
      simp only [Prod.mk.injEq] at heq
      obtain ⟨rfl, rfl⟩ := heq
      cases u' with
      | nil =>
          simp only [List.nil_append, List.cons.injEq] at hs
          exact absurd ⟨hs.1, hs.2.1⟩ hcd
      | cons x u' =>
          simp only [List.cons_append, List.cons.injEq] at hs
          exact ih hpq hs.2
  | case3 => simp at h

/-- **An occurrence in two texts, one after the other,** is in the first one, across the seam, or in
the second one. -/
theorem occurs_append {a b : Char} {s t u v : List Char} (h : s ++ t = u ++ a :: b :: v) :
    [a, b] <:+: s ∨ (s.getLast? = some a ∧ t.head? = some b) ∨
      ∃ w, u = s ++ w ∧ t = w ++ a :: b :: v := by
  rcases List.append_eq_append_iff.1 h with ⟨w, hu, ht⟩ | ⟨w, hs, hv⟩
  · exact Or.inr (Or.inr ⟨w, hu, ht⟩)
  · rcases w with _ | ⟨c, _ | ⟨d, w⟩⟩
    · exact Or.inr (Or.inr ⟨[], by simpa using hs.symm, by simpa using hv.symm⟩)
    · simp only [List.cons_append, List.nil_append, List.cons.injEq] at hv
      obtain ⟨rfl, rfl⟩ := hv
      exact Or.inr (Or.inl ⟨by simp [hs], rfl⟩)
    · simp only [List.cons_append, List.cons.injEq] at hv
      obtain ⟨rfl, rfl, -⟩ := hv
      exact Or.inl ⟨u, w, by simp [hs]⟩

/-- A marker that occurs in neither of two texts and not across the seam does not occur in them
together. -/
theorem not_infix_append {a b : Char} {s t : List Char} (hs : ¬ [a, b] <:+: s)
    (hseam : ¬ (s.getLast? = some a ∧ t.head? = some b)) (ht : ¬ [a, b] <:+: t) :
    ¬ [a, b] <:+: s ++ t := by
  rintro ⟨u, v, huv⟩
  rcases occurs_append (u := u) (v := v) (by simpa using huv.symm) with h | h | ⟨w, -, h⟩
  · exact hs h
  · exact hseam h
  · exact ht ⟨w, v, by simp [h]⟩

/-! ### A marker at the start and at the end -/

theorem dropMarker?_eq_some_iff {a b : Char} {s t : List Char} :
    dropMarker? a b s = some t ↔ s = a :: b :: t := by
  rcases s with _ | ⟨c, _ | ⟨d, s⟩⟩
  · simp [dropMarker?]
  · simp [dropMarker?]
  · simp [dropMarker?, and_assoc]

theorem dropMarkerEnd?_eq_some_iff {a b : Char} {s t : List Char} :
    dropMarkerEnd? a b s = some t ↔ s = t ++ [a, b] := by
  simp only [dropMarkerEnd?, Option.map_eq_some_iff, dropMarker?_eq_some_iff]
  constructor
  · rintro ⟨u, hs, rfl⟩
    have hreverse := congrArg List.reverse hs
    simpa using hreverse
  · rintro rfl
    exact ⟨t.reverse, by simp, List.reverse_reverse t⟩

end Text

end OfferLayout
