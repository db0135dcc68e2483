/-
**Breakpoints and growing widths.**

The breakpoint of a view is found by going through the breakpoints in order, and so is the place of
a breakpoint that is named.  The two agree, whatever widths the breakpoints share, since names are
different.  A view that grows passes the breakpoints in their order and never goes back: what a
greater width is below, a lesser one is below as well.  So a predicate that asks for a view above a
breakpoint turns from false to true once, at most, and one that asks for a view below it from true
to false.

Main definitions:

* `FirstOrLast` — **the place of the first element that a condition holds of**, or of the last one.

Main results:

* `FirstOrLast.le`, `findIdx?_getD_mono` — a condition that holds of more elements holds of one no
  later;
* `existsUnique_firstOrLast` — there is just one such place;
* `Breakpoints.ordinalOf?_of_getElem?` — **every place in the order is that of a name**;
* `Breakpoints.indexAt_mono` — **a greater width belongs to no earlier breakpoint**;
* `Breakpoints.selection_is_monotone` — both, and what follows for predicates.
-/

import OfferLayout.Proofs.Number.Order
import OfferLayout.Proofs.Predicate.Numeric

set_option relaxedAutoImplicit false
set_option autoImplicit false

namespace OfferLayout

/-! ### The first that fits -/

section

variable {α : Type} {l : List α}

/-- **The place of the first element that a condition holds of**, or of the last element if it holds
of none. -/
structure FirstOrLast (p : α → Prop) (l : List α) (i : ℕ) : Prop where
  /-- The condition holds of the element, unless it is the last one. -/
  here : ∃ a, l[i]? = some a ∧ (p a ∨ i + 1 = l.length)
  /-- The condition does not hold of any element before it. -/
  before : ∀ a ∈ l.take i, ¬ p a

namespace FirstOrLast

variable {p q : α → Prop} {i j : ℕ}

theorem lt_length (h : FirstOrLast p l i) : i < l.length :=
  let ⟨_, ha, _⟩ := h.here
  (List.getElem?_eq_some_iff.1 ha).1

/-- **A condition that holds of more elements** holds of one no later. -/
theorem le (hp : FirstOrLast p l i) (hq : FirstOrLast q l j) (h : ∀ a ∈ l, q a → p a) : i ≤ j := by
  by_contra hlt
  obtain ⟨a, ha, hqa | hlast⟩ := hq.here
  · obtain ⟨hj, rfl⟩ := List.getElem?_eq_some_iff.1 ha
    have htake : l[j] ∈ l.take i :=
      List.mem_take_iff_getElem.2 ⟨j, lt_min (not_le.1 hlt) hj, rfl⟩
    exact hp.before _ htake (h _ (List.getElem_mem hj) hqa)
  · have hi := hp.lt_length
    omega

/-- There is one such place only. -/
theorem unique (hi : FirstOrLast p l i) (hj : FirstOrLast p l j) : i = j :=
  le_antisymm (hi.le hj fun _ _ h => h) (hj.le hi fun _ _ h => h)

end FirstOrLast

/-- The place is found by a search, unless there is no element at all. -/
theorem firstOrLast_findIdx? (hl : l ≠ []) (p : α → Bool) :
    FirstOrLast (p · = true) l ((l.findIdx? p).getD (l.length - 1)) := by
  cases hfind : l.findIdx? p with
  | none =>
      have hlength := List.length_pos_iff.2 hl
      refine ⟨⟨_, List.getElem?_eq_getElem (Nat.sub_lt hlength Nat.one_pos), Or.inr ?_⟩, ?_⟩
      · exact Nat.sub_add_cancel hlength
      · intro a ha
        simp [List.findIdx?_eq_none_iff.1 hfind a (List.mem_of_mem_take ha)]
  | some i =>
      obtain ⟨hi, hpi, hbefore⟩ := List.findIdx?_eq_some_iff_getElem.1 hfind
      refine ⟨⟨_, List.getElem?_eq_getElem hi, Or.inl hpi⟩, ?_⟩
      intro a ha
      obtain ⟨j, hj, rfl⟩ := List.mem_take_iff_getElem.1 ha
      exact hbefore j (lt_min_iff.1 hj).1

/-- **There is just one such place** in a list that is not empty. -/
theorem existsUnique_firstOrLast (hl : l ≠ []) (p : α → Prop) : ∃! i, FirstOrLast p l i := by
  classical
  have hfind := firstOrLast_findIdx? hl fun a => decide (p a)
  simp only [decide_eq_true_eq] at hfind
  exact ⟨_, hfind, fun j hj => hj.unique hfind⟩

/-- A condition that holds of more elements is found to hold of one no later. -/
theorem findIdx?_getD_mono {p q : α → Bool} (h : ∀ a ∈ l, q a = true → p a = true) :
    (l.findIdx? p).getD (l.length - 1) ≤ (l.findIdx? q).getD (l.length - 1) := by
  rcases eq_or_ne l [] with rfl | hl
  · exact le_rfl
  · exact (firstOrLast_findIdx? hl p).le (firstOrLast_findIdx? hl q) h

end

namespace Breakpoints

/-! ### Names and places -/

theorem nodup_ordered (b : Breakpoints) : (b.ordered.map Prod.fst).Nodup :=
  (((List.mergeSort_perm b.entries comesFirst).map Prod.fst).nodup_iff).2 b.nodup_names

/-- **Every place in the order is that of the name that stands there**: no other place bears it. -/
theorem ordinalOf?_of_getElem? {b : Breakpoints} {i : ℕ} {e : String × UInt32}
    (h : b.ordered[i]? = some e) : b.ordinalOf? e.1 = some i := by
  obtain ⟨hi, rfl⟩ := List.getElem?_eq_some_iff.1 h
  have hpairwise : b.ordered.Pairwise fun a c => a.1 ≠ c.1 :=
    List.pairwise_map.1 b.nodup_ordered
  refine List.findIdx?_eq_some_iff_getElem.2 ⟨hi, by simp, fun j hj => ?_⟩
  have hne := List.pairwise_iff_getElem.1 hpairwise j i (hj.trans hi) hi hj
  simpa using hne

/-- The breakpoint of a view is found again by its name. -/
theorem ordinalOf?_of_at? {b : Breakpoints} {w : Width} {i : ℕ} {name : String}
    (h : b.at? w = some (i, name)) : b.ordinalOf? name = some i := by
  obtain ⟨e, he, heq⟩ := Option.map_eq_some_iff.1 h
  cases heq
  exact ordinalOf?_of_getElem? he

/-! ### Growing widths -/

/-- **A greater width belongs to no earlier breakpoint.** -/
theorem indexAt_mono (b : Breakpoints) {w w' : Width} (h : w.AtMost w') :
    b.indexAt w ≤ b.indexAt w' :=
  findIdx?_getD_mono fun _ _ hexceeds => h.lt hexceeds

theorem indexAt_of_at? {b : Breakpoints} {w : Width} {i : ℕ} {name : String}
    (h : b.at? w = some (i, name)) : b.indexAt w = i := by
  obtain ⟨e, -, heq⟩ := Option.map_eq_some_iff.1 h
  exact congrArg Prod.fst heq

/-- A breakpoint that is named is compared with the place of the view. -/
theorem holds_iff {s : Snapshot} {name : String} {target : ℕ}
    (h : s.breakpoints.ordinalOf? name = some target) (c : Condition) :
    (Subject.breakpoint name).holds s c = true ↔
      c.Relates (s.breakpoints.indexAt s.width) target := by
  have hne : s.breakpoints.ordered ≠ [] := by
    intro hnil
    simp [ordinalOf?, hnil] at h
  have hat : (s.breakpoints.at? s.width).map Prod.fst = some (s.breakpoints.indexAt s.width) := by
    rw [at?, List.getElem?_eq_getElem (indexAt_lt hne s.width)]
    rfl
  rw [Subject.holds, hat, h, bothHold, Condition.admits_compare_iff]

/-- One of three conditions holds of two numbers. -/
theorem existsUnique_relates (m n : ℕ) :
    ∃! c, c ∈ [Condition.equal, .above, .below] ∧ c.Relates m n := by
  have hiff : ∀ c, c ∈ [Condition.equal, .above, .below] ∧ c.Relates m n ↔
      c = .equal ∧ m = n ∨ c = .above ∧ n < m ∨ c = .below ∧ m < n := by
    intro c
    cases c <;> simp [Condition.Relates]
  simp only [hiff]
  rcases lt_trichotomy m n with h | h | h
  · simp [h, h.ne, h.not_gt]
  · simp [h]
  · simp [h, h.ne', h.not_gt]

/-! ### The whole of it -/

/-- **Breakpoints are passed in their order.**  The breakpoint of a view stands at the place that
its name has, and there is one unless there are no breakpoints.  A width that is at least another
one belongs to no earlier breakpoint.  Hence, for every breakpoint that is named, a view that grows
stays above it once it is, and once it is not below it, it stays so; and at every width the view is
at the breakpoint, above it or below it, and only one of these. -/
theorem selection_is_monotone (b : Breakpoints) :
    (∀ w i name, b.at? w = some (i, name) → b.ordinalOf? name = some i) ∧
    (∀ w, b.at? w = none ↔ b.entries = []) ∧
    (∀ w w', w.AtMost w' → ∀ i name i' name', b.at? w = some (i, name) →
      b.at? w' = some (i', name') → i ≤ i') ∧
    ∀ (s : Snapshot) (name : String) (px : UInt32), s.breakpoints = b → (name, px) ∈ b.entries →
      (∀ w w', w.AtMost w' →
        (Predicate.holds ⟨.above, .breakpoint name⟩ { s with width := w } = true →
          Predicate.holds ⟨.above, .breakpoint name⟩ { s with width := w' } = true) ∧
        (Predicate.holds ⟨.below, .breakpoint name⟩ { s with width := w' } = true →
          Predicate.holds ⟨.below, .breakpoint name⟩ { s with width := w } = true)) ∧
      ∀ w, ∃! c, c ∈ [Condition.equal, .above, .below] ∧
        Predicate.holds ⟨c, .breakpoint name⟩ { s with width := w } = true := by
  refine ⟨fun _ _ _ => ordinalOf?_of_at?, fun _ => at?_eq_none_iff, ?_, ?_⟩
  · intro w w' hle i name i' name' h h'
    rw [← indexAt_of_at? h, ← indexAt_of_at? h']
    exact b.indexAt_mono hle
  · rintro s name px rfl hmem
    obtain ⟨target, htarget⟩ : ∃ target, s.breakpoints.ordinalOf? name = some target := by
      rw [← Option.ne_none_iff_exists', ne_eq, ordinalOf?_eq_none_iff]
      exact fun hnone => hnone _ hmem rfl
    have hholds : ∀ c w, Predicate.holds ⟨c, .breakpoint name⟩ { s with width := w } = true ↔
        c.Relates (s.breakpoints.indexAt w) target :=
      fun c w => holds_iff (s := { s with width := w }) htarget c
    simp only [hholds]
    refine ⟨fun w w' hle => ?_, fun w => existsUnique_relates _ _⟩
    have hmono := s.breakpoints.indexAt_mono hle
    exact ⟨fun h => lt_of_lt_of_le h hmono, fun h => lt_of_le_of_lt hmono h⟩

/-- Two breakpoints of 500 pixels, and one that is rounded when it is compared.  The first of the
two is that of a narrower view; a view of 500 pixels passes both at once.  Since it is above the
second of them then, so is an infinite view, and the least one is below it as that of 499 pixels is.
-/
theorem selection_is_monotone_with_ties :
    let b : Breakpoints := Dict.ofList [("wide", 16777217), ("b", 500), ("a", 500)]
    let s : Snapshot := { breakpoints := b }
    b.at? (.ofInt 499) = some (0, "a") ∧ b.ordinalOf? "a" = some 0 ∧
    b.at? (.ofInt 500) = some (2, "wide") ∧ b.ordinalOf? "wide" = some 2 ∧
    (Width.ofInt 499).AtMost (.ofInt 500) ∧ 0 ≤ 2 ∧
    Predicate.holds ⟨.above, .breakpoint "b"⟩ { s with width := .infinite false } = true ∧
    Predicate.holds ⟨.below, .breakpoint "b"⟩ { s with width := .infinite true } = true := by
  intro b s
  obtain ⟨hsame, -, hmono, hpredicate⟩ := selection_is_monotone b
  have hordered : b.ordered = [("a", 500), ("b", 500), ("wide", 16777217)] :=
    List.mergeSort_of_pairwise (by decide +kernel)
  have hnarrow : b.at? (.ofInt 499) = some (0, "a") := by
    rw [at?, indexAt, hordered]
    decide +kernel
  have hgreater : b.at? (.ofInt 500) = some (2, "wide") := by
    rw [at?, indexAt, hordered]
    decide +kernel
  have hplace : b.ordinalOf? "b" = some 1 := by
    rw [ordinalOf?, hordered]
    decide +kernel
  have hle : (Width.ofInt 499).AtMost (.ofInt 500) := Width.atMost_iff.2 (by decide +kernel)
  have hinfinite : (Width.ofInt 500).AtMost (.infinite false) :=
    Width.atMost_iff.2 (by decide +kernel)
  have hgrow := (hpredicate s "b" 500 rfl (by decide +kernel)).1
  have habove :
      Predicate.holds ⟨.above, .breakpoint "b"⟩ { s with width := .ofInt 500 } = true := by
    refine (holds_iff (s := { s with width := .ofInt 500 }) hplace .above).2 ?_
    rw [indexAt_of_at? hgreater]
    exact Nat.lt_succ_self 1
  have hbelow :
      Predicate.holds ⟨.below, .breakpoint "b"⟩ { s with width := .ofInt 499 } = true := by
    refine (holds_iff (s := { s with width := .ofInt 499 }) hplace .below).2 ?_
    rw [indexAt_of_at? hnarrow]
    exact Nat.zero_lt_one
  have hnegative : (Width.infinite true).AtMost (.ofInt 499) :=
    Width.atMost_iff.2 (by decide +kernel)
  exact ⟨hnarrow, hsame _ _ _ hnarrow, hgreater, hsame _ _ _ hgreater, hle,
    hmono _ _ hle _ _ _ _ hnarrow hgreater, (hgrow _ _ hinfinite).1 habove,
    (hgrow _ _ hnegative).2 hbelow⟩

end Breakpoints

end OfferLayout
