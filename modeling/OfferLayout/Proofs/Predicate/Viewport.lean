/-
**The breakpoint of a finite width, by exact numbers.**

By the rule a view belongs to the first breakpoint, by pixels and then by name, whose number of
pixels is greater than the width as a real number, or to the last one.  But a number of pixels is
rounded to the format of the width before the two are compared.  Rounding never passes a width, so a
breakpoint is found wider only if it is; but one that is wider may be rounded to the very width, and
then it is passed over.  That takes a width of 2²⁴ or more and a breakpoint above 2²⁴, as in
`Breakpoints.selection_passes_over_rounded`.  For every other width and breakpoint the rule is
exact.

Main definitions:

* `Breakpoints.RoundedTo` — **a number of pixels is rounded to a width**.

Main results:

* `Breakpoints.ordered_eq_mergeSort` — **the order is that of a stable sort by pixels**;
* `Breakpoints.exceeds_iff` — a breakpoint is found wider if it is and is not rounded to the width;
* `Breakpoints.selection_exact_unless_rounded` — **when the rule holds**;
* `Breakpoints.selection_passes_over_rounded` — a width at which it does not.
-/

import OfferLayout.Proofs.Number.Rounding
import OfferLayout.Proofs.Predicate.Breakpoint

set_option relaxedAutoImplicit false
set_option autoImplicit false

namespace OfferLayout

namespace Breakpoints

/-! ### The order -/

/-- By pixels, and by name for equal numbers of pixels. -/
def Precedes (a c : String × UInt32) : Prop := a.2 < c.2 ∨ a.2 = c.2 ∧ a.1 < c.1

theorem Precedes.comesFirst {a c : String × UInt32} (h : Precedes a c) : comesFirst a c = true := by
  simp only [Breakpoints.comesFirst, Bool.or_eq_true, Bool.and_eq_true, decide_eq_true_eq]
  exact h.imp id (And.imp id Std.le_of_lt)

theorem comesFirst_antisymm {a c : String × UInt32} (h : comesFirst a c = true)
    (h' : comesFirst c a = true) : a = c := by
  simp only [comesFirst, Bool.or_eq_true, Bool.and_eq_true, decide_eq_true_eq] at h h'
  have hpixels : a.2 = c.2 := by grind
  have hname : a.1 = c.1 := by grind
  exact Prod.ext hname hpixels

theorem comesFirst_trans (a c d : String × UInt32) (h : comesFirst a c = true)
    (h' : comesFirst c d = true) : comesFirst a d = true := by
  simp only [comesFirst, Bool.or_eq_true, Bool.and_eq_true, decide_eq_true_eq] at h h' ⊢
  grind

theorem comesFirst_total (a c : String × UInt32) : (comesFirst a c || comesFirst c a) = true := by
  simp only [comesFirst, Bool.or_eq_true, Bool.and_eq_true, decide_eq_true_eq]
  grind

/-- Of two entries the one with the lesser name stands first. -/
theorem pair_sublist_entries {b : Breakpoints} {a c : String × UInt32} (ha : a ∈ b.entries)
    (hc : c ∈ b.entries) (hne : a ≠ c) (hname : ¬ c.1 < a.1) : [a, c].Sublist b.entries := by
  obtain ⟨l, l', hsplit⟩ := List.append_of_mem hc
  have hascending := b.ascending
  rw [hsplit] at ha hascending ⊢
  have hafter : ∀ e ∈ l', c.1 < e.1 :=
    (List.pairwise_cons.1 (List.pairwise_append.1 hascending).2.1).1
  rcases List.mem_append.1 ha with ha | ha
  · exact (List.singleton_sublist.2 ha).append (List.singleton_sublist.2 List.mem_cons_self)
  · rcases List.mem_cons.1 ha with rfl | ha
    · exact absurd rfl hne
    · exact absurd (hafter a ha) hname

/-- A stable sort by pixels leaves breakpoints with equal numbers of pixels in the order of their
names, which is that of the entries. -/
theorem pairwise_mergeSort_pixels (b : Breakpoints) :
    (b.entries.mergeSort fun a c => a.2 ≤ c.2).Pairwise Precedes := by
  have htrans (a c d : String × UInt32) (h : decide (a.2 ≤ c.2) = true)
      (h' : decide (c.2 ≤ d.2) = true) : decide (a.2 ≤ d.2) = true :=
    decide_eq_true (Std.le_trans (of_decide_eq_true h) (of_decide_eq_true h'))
  have htotal (a c : String × UInt32) : (decide (a.2 ≤ c.2) || decide (c.2 ≤ a.2)) = true := by
    simpa using UInt32.le_total a.2 c.2
  have hperm := List.mergeSort_perm b.entries fun a c => decide (a.2 ≤ c.2)
  have hnodup : (b.entries.mergeSort fun a c => a.2 ≤ c.2).Nodup :=
    hperm.nodup_iff.2 b.nodup_names.of_map
  refine List.pairwise_iff_forall_sublist.2 fun {a c} hpair => ?_
  have hle : a.2 ≤ c.2 := of_decide_eq_true
    (List.pairwise_iff_forall_sublist.1 (List.pairwise_mergeSort htrans htotal b.entries) hpair)
  rcases UInt32.lt_or_eq_of_le hle with hlt | heq
  · exact Or.inl hlt
  · refine Or.inr ⟨heq, ?_⟩
    have hne : a ≠ c := List.pairwise_iff_forall_sublist.1 hnodup hpair
    have hmem (e : String × UInt32) (he : e ∈ [a, c]) : e ∈ b.entries :=
      hperm.mem_iff.1 (hpair.subset he)
    by_contra hname
    -- the entries would have the two the other way round, and the sort would leave them so
    have hentries := pair_sublist_entries (hmem c (by simp)) (hmem a (by simp)) hne.symm hname
    have hsorted := List.pair_sublist_mergeSort htrans htotal (decide_eq_true (heq ▸ hle)) hentries
    have hsame := (hnodup.perm_iff_eq_of_sublist hpair hsorted).1 (List.Perm.swap c a [])
    exact hne (List.cons.inj hsame).1

/-- **The order is that of a stable sort by pixels** of the breakpoints by name. -/
theorem ordered_eq_mergeSort (b : Breakpoints) :
    b.ordered = b.entries.mergeSort fun a c => a.2 ≤ c.2 := by
  have hordered : b.ordered.Pairwise fun a c => comesFirst a c = true :=
    List.pairwise_mergeSort comesFirst_trans comesFirst_total b.entries
  refine List.Perm.eq_of_pairwise (fun _ _ _ _ => comesFirst_antisymm) hordered
    (b.pairwise_mergeSort_pixels.imp Precedes.comesFirst) ?_
  exact (List.mergeSort_perm _ _).trans (List.mergeSort_perm _ _).symm

theorem pairwise_ordered (b : Breakpoints) : b.ordered.Pairwise Precedes :=
  b.ordered_eq_mergeSort ▸ b.pairwise_mergeSort_pixels

/-! ### Rounding -/

open BinaryFormat (single)

/-- **A number of pixels is rounded to a width**: they are equal once they are compared. -/
def RoundedTo (x : Binary) (px : UInt32) : Prop :=
  ∃ y, Width.ofInt px.toNat = .finite y ∧ y.value = x.value

/-- **A breakpoint is found wider than a view** if it is wider and is not rounded to its width. -/
theorem exceeds_iff {x : Binary} (hx : single.Holds x) (e : String × UInt32) :
    exceeds (.finite x) e = true ↔ x.value < e.2.toNat ∧ ¬ RoundedTo x e.2 := by
  obtain ⟨y, hy, hnearest⟩ := Width.exists_ofInt e.2
  have hrounded : RoundedTo x e.2 ↔ y.value = x.value := by
    simp [RoundedTo, hy]
  have hexceeds : exceeds (.finite x) e = true ↔ x.value < y.value := by
    simp [exceeds, hy, Width.lt, Binary.order_eq_compare, compare_lt_iff_lt]
  rw [hrounded, hexceeds]
  have hnear := hnearest x hx
  constructor
  · intro hlt
    refine ⟨lt_of_not_ge fun hle => ?_, hlt.ne'⟩
    rw [abs_of_nonneg (sub_nonneg.2 hle)] at hnear
    linarith [le_abs_self (y.value - e.2.toNat)]
  · rintro ⟨hlt, hne⟩
    refine lt_of_le_of_ne (le_of_not_gt fun hlt' => ?_) (Ne.symm hne)
    rw [abs_of_neg (sub_neg.2 hlt), abs_of_neg (sub_neg.2 (hlt'.trans hlt))] at hnear
    linarith

/-- Every integer of at most 24 bits, and 2²⁴, is a number of the format. -/
theorem exists_holds_of_le {n : ℕ} (h : n ≤ 2 ^ 24) : ∃ z, single.Holds z ∧ z.value = n := by
  rcases lt_or_eq_of_le h with hlt | rfl
  · exact ⟨⟨false, n, 0⟩, ⟨hlt, (by decide : (-149 : ℤ) ≤ 0), (by decide : (0 : ℤ) ≤ 104)⟩,
      by simp [Binary.value]⟩
  · exact ⟨⟨false, 2 ^ 23, 1⟩, by decide, by norm_num [Binary.value]⟩

/-- **Nothing is rounded to a width below 2²⁴**, and no number of pixels up to 2²⁴ is rounded at
all. -/
theorem not_roundedTo {x : Binary} {px : UInt32} (hlt : x.value < px.toNat)
    (h : x.value < 2 ^ 24 ∨ px.toNat ≤ 2 ^ 24) : ¬ RoundedTo x px := by
  rintro ⟨y, hy, heq⟩
  obtain ⟨y', hy', hnearest⟩ := Width.exists_ofInt px
  obtain rfl : y' = y := Width.finite.inj (hy'.symm.trans hy)
  -- the pixels, or 2²⁴ if they are more, are between the width and the pixels
  obtain ⟨z, hz, hvalue⟩ := exists_holds_of_le (min_le_right px.toNat (2 ^ 24))
  have hbetween : x.value < (min px.toNat (2 ^ 24) : ℕ) := by
    rw [Nat.cast_min]
    refine lt_min hlt ?_
    rcases h with hwidth | hpixels
    · exact_mod_cast hwidth
    · exact hlt.trans_le (by exact_mod_cast hpixels)
  have hmin : ((min px.toNat (2 ^ 24) : ℕ) : ℚ) ≤ px.toNat :=
    Nat.cast_le.2 (min_le_left px.toNat (2 ^ 24))
  have hnear := hnearest z hz
  rw [heq, hvalue, abs_of_neg (sub_neg.2 hlt), abs_of_nonpos (sub_nonpos.2 hmin)] at hnear
  linarith

/-! ### The rule -/

theorem ordered_ne_nil {b : Breakpoints} (hb : b.entries ≠ []) : b.ordered ≠ [] := by
  rwa [← List.length_pos_iff, length_ordered, List.length_pos_iff]

/-- The place that is found for a finite width. -/
theorem firstOrLast_indexAt {b : Breakpoints} (hb : b.entries ≠ []) {x : Binary}
    (hx : single.Holds x) :
    FirstOrLast (fun e => x.value < e.2.toNat ∧ ¬ RoundedTo x e.2) b.ordered
      (b.indexAt (.finite x)) := by
  have hfind := firstOrLast_findIdx? (ordered_ne_nil hb) (exceeds (.finite x))
  simp only [exceeds_iff hx] at hfind
  exact hfind

theorem at?_eq_some_iff {b : Breakpoints} {w : Width} {i : ℕ} {e : String × UInt32}
    (he : b.ordered[i]? = some e) : b.at? w = some (i, e.1) ↔ b.indexAt w = i := by
  refine ⟨indexAt_of_at?, fun h => ?_⟩
  rw [at?, h, he]
  rfl

/-- **The rule for a finite width holds unless a breakpoint is rounded to it.**  The order is by
pixels and then by name, and is that of a stable sort.  If there are breakpoints, the rule gives one
place.  The breakpoint that is found is there or after it, and is the first one that is wider and is
not rounded to the width, or the last one.  It is the one of the rule just if this one is the last
or is not rounded to the width; and it always is for widths below 2²⁴ and for breakpoints up to 2²⁴.
-/
theorem selection_exact_unless_rounded {b : Breakpoints} {x : Binary} (hb : b.entries ≠ [])
    (hx : single.Holds x) :
    b.ordered.Perm b.entries ∧ b.ordered.Pairwise Precedes ∧
    (b.ordered = b.entries.mergeSort fun a c => a.2 ≤ c.2) ∧
    (∃! i, FirstOrLast (fun e => x.value < e.2.toNat) b.ordered i) ∧
    ∀ i name px, FirstOrLast (fun e => x.value < e.2.toNat) b.ordered i →
      b.ordered[i]? = some (name, px) →
      (∃ j other, b.at? (.finite x) = some (j, other) ∧ i ≤ j ∧
        FirstOrLast (fun e => x.value < e.2.toNat ∧ ¬ RoundedTo x e.2) b.ordered j) ∧
      (b.at? (.finite x) = some (i, name) ↔ i + 1 = b.ordered.length ∨ ¬ RoundedTo x px) ∧
      (x.value < 2 ^ 24 ∨ (∀ e ∈ b.entries, e.2.toNat ≤ 2 ^ 24) →
        b.at? (.finite x) = some (i, name)) := by
  have hfound := firstOrLast_indexAt hb hx
  refine ⟨List.mergeSort_perm _ _, b.pairwise_ordered, b.ordered_eq_mergeSort,
    existsUnique_firstOrLast (ordered_ne_nil hb) _, fun i name px hrule hplace => ?_⟩
  have hwider : x.value < px.toNat ∨ i + 1 = b.ordered.length := by
    obtain ⟨e, he, hor⟩ := hrule.here
    cases hplace.symm.trans he
    exact hor
  have hiff : b.at? (.finite x) = some (i, name) ↔
      i + 1 = b.ordered.length ∨ ¬ RoundedTo x px := by
    rw [at?_eq_some_iff hplace]
    constructor
    · intro hindex
      obtain ⟨e, he, hor⟩ := (hindex ▸ hfound).here
      cases hplace.symm.trans he
      exact hor.symm.imp id And.right
    · intro hor
      refine hfound.unique ⟨⟨_, hplace, ?_⟩, fun e he h => hrule.before e he h.1⟩
      rcases hor with hlast | hnot
      · exact Or.inr hlast
      · exact hwider.imp (fun h => ⟨h, hnot⟩) id
  refine ⟨?_, hiff, fun hsmall => hiff.2 ?_⟩
  · obtain ⟨e, he, -⟩ := hfound.here
    exact ⟨_, e.1, (at?_eq_some_iff he).2 rfl, hrule.le hfound fun _ _ h => h.1, hfound⟩
  · rcases hwider with hlt | hlast
    · have hmem : (name, px) ∈ b.entries := mem_ordered.1 (List.mem_of_getElem? hplace)
      exact Or.inr (not_roundedTo hlt (hsmall.imp id fun h => h _ hmem))
    · exact Or.inl hlast

/-- A width of 499.5 among two breakpoints of 500 pixels, and one beyond 2²⁴: the first of the two
by name is the one of the rule, and is found. -/
theorem selection_exact_unless_rounded_at_tie :
    let b : Breakpoints := Dict.ofList [("wide", 16777217), ("b", 500), ("a", 500)]
    let x : Binary := ⟨false, 999, -1⟩
    b.entries ≠ [] ∧ single.Holds x ∧
    FirstOrLast (fun e => x.value < e.2.toNat) b.ordered 0 ∧ b.ordered[0]? = some ("a", 500) ∧
    b.at? (.finite x) = some (0, "a") := by
  intro b x
  have hordered : b.ordered = [("a", 500), ("b", 500), ("wide", 16777217)] :=
    List.mergeSort_of_pairwise (by decide +kernel)
  have hb : b.entries ≠ [] := by decide +kernel
  have hx : single.Holds x := by decide
  have hrule : FirstOrLast (fun e => x.value < e.2.toNat) b.ordered 0 := by
    have hlt : x.value < (500 : ℕ) := by norm_num [x, Binary.value]
    exact ⟨⟨("a", 500), by rw [hordered]; rfl, Or.inl hlt⟩, by simp⟩
  have hplace : b.ordered[0]? = some ("a", 500) := by
    rw [hordered]
    rfl
  obtain ⟨-, -, -, -, hexact⟩ := selection_exact_unless_rounded hb hx
  refine ⟨hb, hx, hrule, hplace, (hexact 0 "a" 500 hrule hplace).2.2 (Or.inl ?_)⟩
  norm_num [x, Binary.value]

/-- A breakpoint of 2²⁴ + 1 pixels is wider than a view of 2²⁴ pixels, and yet the view does not
belong to it but to the next one. -/
theorem selection_passes_over_rounded :
    let b : Breakpoints := Dict.ofList [("a", 16777217), ("b", 20000000)]
    let x : Binary := ⟨false, 8388608, 1⟩
    Width.ofNumber (.integer 16777216) = .finite x ∧ single.Holds x ∧ x.value = 16777216 ∧
    FirstOrLast (fun e => x.value < e.2.toNat) b.ordered 0 ∧
    b.ordered[0]? = some ("a", 16777217) ∧
    b.at? (.finite x) = some (1, "b") ∧ b.at? (.finite x) ≠ some (0, "a") := by
  intro b x
  have hread : Width.ofNumber (.integer 16777216) = .finite x := by decide +kernel
  have hordered : b.ordered = [("a", 16777217), ("b", 20000000)] :=
    List.mergeSort_of_pairwise (by decide +kernel)
  have hvalue : x.value = 16777216 := by norm_num [x, Binary.value]
  have hlt : x.value < (16777217 : ℕ) := by norm_num [hvalue]
  have hfound : b.at? (.finite x) = some (1, "b") := by
    rw [at?, indexAt, hordered]
    decide +kernel
  have hplace : b.ordered[0]? = some ("a", 16777217) := by
    rw [hordered]
    rfl
  exact ⟨hread, Width.holds_of_ofNumber hread, hvalue, ⟨⟨_, hplace, Or.inl hlt⟩, by simp⟩, hplace,
    hfound, by simp [hfound]⟩

end Breakpoints

end OfferLayout
