/-
**The pieces of a text, and the blanks around them.**

A text is the list of its pieces with a separator between any two of them, and its pieces are those
of the core library, so what is known about splitting lists holds of it.  Blanks at both ends of the
text belong to its first and its last piece, so whether they are removed before the text is cut or
from the pieces after that makes no difference to the pieces.

Main results:

* `Text.fields_append` — **a separator between two texts separates their pieces**;
* `Text.fields_intercalate` — pieces without separators are found again;
* `Text.splitFirst_eq_some_iff` — the first separator is the one with no separator before it;
* `Text.trim_eq_self_iff` — a trimmed text is one that neither starts nor ends with a blank;
* `Text.exists_trim_append` — what is removed by trimming are blanks at both ends;
* `Text.map_trim_fields_trim` — **trimming a text does not change its trimmed pieces**.
-/

import Mathlib.Data.List.DropRight
import OfferLayout.Text.Blank
import OfferLayout.Text.Cut

set_option relaxedAutoImplicit false
set_option autoImplicit false

namespace OfferLayout

namespace Text

/-! ### Pieces -/

/-- The pieces between separators are those of the core library. -/
theorem fields_eq_splitOn (sep : Char) (s : List Char) : fields sep s = s.splitOn sep := by
  induction s with
  | nil => rfl
  | cons c s ih =>
      rw [List.splitOn_cons_eq_if_modifyHead, fields, ih]
      obtain ⟨piece, pieces, h⟩ := List.exists_cons_of_ne_nil (List.splitOn_ne_nil sep s)
      simp [h]

/-- **A separator between two texts separates their pieces.** -/
theorem fields_append (sep : Char) (s t : List Char) :
    fields sep (s ++ sep :: t) = fields sep s ++ fields sep t := by
  simp only [fields_eq_splitOn, List.splitOn_append_cons_self]

/-- Pieces without separators are found again. -/
theorem fields_intercalate {sep : Char} {pieces : List (List Char)} (hne : pieces ≠ [])
    (h : ∀ piece ∈ pieces, sep ∉ piece) : fields sep ([sep].intercalate pieces) = pieces := by
  rw [fields_eq_splitOn, List.splitOn_intercalate sep h hne]

theorem fields_of_notMem {sep : Char} {s : List Char} (h : sep ∉ s) : fields sep s = [s] := by
  have hjoin : fields sep ([sep].intercalate [s]) = [s] :=
    fields_intercalate (List.cons_ne_nil s []) (by simpa using h)
  simpa using hjoin

theorem notMem_of_mem_fields {sep : Char} {s piece : List Char} (h : piece ∈ fields sep s) :
    sep ∉ piece := by
  induction s generalizing piece with
  | nil =>
      rw [List.mem_singleton.1 h]
      exact List.not_mem_nil
  | cons c s ih =>
      obtain ⟨first, others, hs⟩ := List.exists_cons_of_ne_nil (fields_ne_nil sep s)
      rw [hs] at ih
      rw [fields, hs] at h
      split at h
      · rcases List.mem_cons.1 h with rfl | h
        · exact List.not_mem_nil
        · exact ih h
      · next hc =>
          rcases List.mem_cons.1 h with rfl | h
          · rw [List.mem_cons, not_or]
            exact ⟨fun heq => hc heq.symm, ih List.mem_cons_self⟩
          · exact ih (List.mem_cons_of_mem first h)

/-- What stands before a text without a separator in between belongs to its first piece. -/
theorem exists_fields_append_left {sep : Char} {t : List Char} (ht : sep ∉ t) (s : List Char) :
    ∃ first others, fields sep s = first :: others ∧
      fields sep (t ++ s) = (t ++ first) :: others := by
  induction t with
  | nil =>
      obtain ⟨first, others, h⟩ := List.exists_cons_of_ne_nil (fields_ne_nil sep s)
      exact ⟨first, others, h, h⟩
  | cons c t ih =>
      rw [List.mem_cons, not_or] at ht
      obtain ⟨first, others, hs, happend⟩ := ih ht.2
      refine ⟨first, others, hs, ?_⟩
      rw [List.cons_append, fields, if_neg (Ne.symm ht.1), happend]
      rfl

/-- What stands after a text without a separator in between belongs to its last piece. -/
theorem exists_fields_append_right {sep : Char} {t : List Char} (ht : sep ∉ t) (s : List Char) :
    ∃ others last, fields sep s = others ++ [last] ∧
      fields sep (s ++ t) = others ++ [last ++ t] := by
  induction s with
  | nil => exact ⟨[], [], rfl, fields_of_notMem ht⟩
  | cons c s ih =>
      obtain ⟨others, last, hs, happend⟩ := ih
      by_cases hc : c = sep
      · subst hc
        refine ⟨[] :: others, last, ?_, ?_⟩
        · rw [fields_sep, hs, List.cons_append]
        · rw [List.cons_append, fields_sep, happend, List.cons_append]
      · rw [List.cons_append, fields, fields, if_neg hc, if_neg hc, hs, happend]
        cases others with
        | nil => exact ⟨[], c :: last, rfl, rfl⟩
        | cons first others => exact ⟨(c :: first) :: others, last, rfl, rfl⟩

/-- What is before and after the first separator. -/
theorem splitFirst_eq_some_iff {sep : Char} {s u v : List Char} :
    splitFirst sep s = (u, some v) ↔ s = u ++ sep :: v ∧ sep ∉ u := by
  induction s generalizing u with
  | nil => simp [splitFirst]
  | cons c s ih =>
      by_cases hc : c = sep
      · rw [splitFirst, if_pos hc, Prod.mk.injEq, Option.some.injEq]
        constructor
        · rintro ⟨rfl, rfl⟩
          exact ⟨by rw [hc, List.nil_append], List.not_mem_nil⟩
        · rintro ⟨hs, hsep⟩
          cases u with
          | nil => exact ⟨rfl, (List.cons.inj hs).2⟩
          | cons d u =>
              have hd : c = d := (List.cons.inj hs).1
              exact absurd (hc ▸ hd ▸ List.mem_cons_self) hsep
      · rw [splitFirst, if_neg hc, Prod.mk.injEq]
        constructor
        · rintro ⟨rfl, hv⟩
          obtain ⟨hs, hsep⟩ := ih.1 (Prod.ext rfl hv)
          refine ⟨by rw [List.cons_append, ← hs], ?_⟩
          rw [List.mem_cons, not_or]
          exact ⟨Ne.symm hc, hsep⟩
        · rintro ⟨hs, hsep⟩
          cases u with
          | nil => exact absurd (List.cons.inj hs).1 hc
          | cons d u =>
              obtain ⟨rfl, htail⟩ := List.cons.inj hs
              have hsplit := ih.2 ⟨htail, fun hmem => hsep (List.mem_cons_of_mem c hmem)⟩
              rw [hsplit]
              exact ⟨rfl, rfl⟩

theorem after?_eq_some_iff {start s t : List Char} : after? start s = some t ↔ s = start ++ t := by
  rw [after?, List.isPrefixOf?_eq_some_iff_append_eq, eq_comm]

theorem after?_eq_none_iff {start s : List Char} : after? start s = none ↔ ¬ start <+: s := by
  rw [Option.eq_none_iff_forall_ne_some]
  constructor
  · rintro h ⟨t, rfl⟩
    exact h t (after?_eq_some_iff.2 rfl)
  · intro h t ht
    exact h ⟨t, (after?_eq_some_iff.1 ht).symm⟩

theorem dropLast?_eq_some_iff {c : Char} {s t : List Char} :
    dropLast? c s = some t ↔ s = t ++ [c] := by
  rw [dropLast?]
  constructor
  · intro h
    split at h
    · next hlast =>
        rw [← Option.some.inj h]
        exact (List.dropLast_append_getLast? c hlast).symm
    · cases h
  · rintro rfl
    simp

/-! ### Blanks -/

/-- A text loses nothing at its start exactly if it does not start with a blank. -/
theorem trimStart_eq_self_iff {s : List Char} :
    trimStart s = s ↔ ∀ c, s.head? = some c → isBlank c = false := by
  cases s with
  | nil => simp
  | cons c s => simp [trimStart, List.dropWhile_eq_self_iff]

/-- A text loses nothing at its end exactly if it does not end with a blank. -/
theorem trimEnd_eq_self_iff {s : List Char} :
    trimEnd s = s ↔ ∀ c, s.getLast? = some c → isBlank c = false := by
  have h := trimStart_eq_self_iff (s := s.reverse)
  rw [List.head?_reverse] at h
  rw [← h, trimEnd, trimStart, List.reverse_eq_iff]

theorem trimStart_append_of_blank {t : List Char} (ht : ∀ c ∈ t, isBlank c = true)
    (s : List Char) : trimStart (t ++ s) = trimStart s :=
  List.dropWhile_append_of_pos ht

theorem trimEnd_append_of_blank {t : List Char} (ht : ∀ c ∈ t, isBlank c = true) (s : List Char) :
    trimEnd (s ++ t) = trimEnd s := by
  rw [trimEnd, List.reverse_append, List.dropWhile_append_of_pos (by simpa using ht)]
  rfl

/-- What is removed at the start of a text are blanks. -/
theorem exists_trimStart_append (s : List Char) :
    ∃ before, (∀ c ∈ before, isBlank c = true) ∧ s = before ++ trimStart s :=
  ⟨s.takeWhile isBlank, fun _ => List.mem_takeWhile_imp, List.takeWhile_append_dropWhile.symm⟩

theorem exists_trimEnd_append (s : List Char) :
    ∃ after, (∀ c ∈ after, isBlank c = true) ∧ s = trimEnd s ++ after := by
  obtain ⟨before, hblank, h⟩ := exists_trimStart_append s.reverse
  refine ⟨before.reverse, by simpa using hblank, ?_⟩
  have hreverse := congrArg List.reverse h
  rw [List.reverse_reverse, List.reverse_append] at hreverse
  exact hreverse

/-- Removing blanks at the end does not make a text start with a blank. -/
theorem trimStart_trimEnd {s : List Char} (h : trimStart s = s) :
    trimStart (trimEnd s) = trimEnd s := by
  rw [trimStart_eq_self_iff] at h ⊢
  intro c hc
  obtain ⟨after, -, hs⟩ := exists_trimEnd_append s
  refine h c ?_
  rw [hs, List.head?_append, hc]
  rfl

theorem trimStart_trimStart (s : List Char) : trimStart (trimStart s) = trimStart s :=
  List.dropWhile_idempotent isBlank s

theorem trimEnd_trimEnd (s : List Char) : trimEnd (trimEnd s) = trimEnd s :=
  List.rdropWhile_idempotent isBlank s

/-- A text is trimmed exactly if it loses nothing at its start, and nothing at its end. -/
theorem trim_eq_self_iff {s : List Char} : trim s = s ↔ trimStart s = s ∧ trimEnd s = s := by
  constructor
  · intro h
    have hstart : trimStart s = s := by
      rw [← h]
      exact trimStart_trimEnd (trimStart_trimStart s)
    rw [trim, hstart] at h
    exact ⟨hstart, h⟩
  · rintro ⟨hstart, hend⟩
    rw [trim, hstart, hend]

@[simp] theorem trim_trim (s : List Char) : trim (trim s) = trim s :=
  trim_eq_self_iff.2 ⟨trimStart_trimEnd (trimStart_trimStart s), trimEnd_trimEnd (trimStart s)⟩

/-- **What is removed by trimming are blanks** at both ends. -/
theorem exists_trim_append (s : List Char) :
    ∃ before after, (∀ c ∈ before, isBlank c = true) ∧ (∀ c ∈ after, isBlank c = true) ∧
      s = before ++ trim s ++ after := by
  obtain ⟨before, hbefore, hstart⟩ := exists_trimStart_append s
  obtain ⟨after, hafter, hend⟩ := exists_trimEnd_append (trimStart s)
  refine ⟨before, after, hbefore, hafter, ?_⟩
  rw [List.append_assoc]
  exact hstart.trans (congrArg (before ++ ·) hend)

theorem trim_append_of_blank_left {t : List Char} (ht : ∀ c ∈ t, isBlank c = true)
    (s : List Char) : trim (t ++ s) = trim s := by
  rw [trim, trimStart_append_of_blank ht, trim]

theorem trim_append_of_blank_right {t : List Char} (ht : ∀ c ∈ t, isBlank c = true)
    (s : List Char) : trim (s ++ t) = trim s := by
  rw [trim, trim, trimStart, trimStart, List.dropWhile_append]
  split
  · next hs =>
      have hempty : t.dropWhile isBlank = [] := List.dropWhile_eq_nil_iff.2 ht
      rw [hempty, List.isEmpty_iff.1 hs]
  · exact trimEnd_append_of_blank ht _

/-! ### Trimmed pieces -/

/-- Blanks around a text do not change its trimmed pieces. -/
theorem map_trim_fields_append {sep : Char} (hsep : isBlank sep = false)
    {before after : List Char} (hbefore : ∀ c ∈ before, isBlank c = true)
    (hafter : ∀ c ∈ after, isBlank c = true) (s : List Char) :
    (fields sep (before ++ s ++ after)).map trim = (fields sep s).map trim := by
  have hnotMem {t : List Char} (ht : ∀ c ∈ t, isBlank c = true) : sep ∉ t := by
    intro hmem
    simp [ht sep hmem] at hsep
  obtain ⟨others, last, hs, happend⟩ :=
    exists_fields_append_right (hnotMem hafter) (before ++ s)
  have hright : (fields sep (before ++ s ++ after)).map trim =
      (fields sep (before ++ s)).map trim := by
    rw [hs, happend, List.map_append, List.map_append, List.map_singleton, List.map_singleton,
      trim_append_of_blank_right hafter]
  obtain ⟨first, others', hs', happend'⟩ := exists_fields_append_left (hnotMem hbefore) s
  rw [hright, hs', happend', List.map_cons, List.map_cons, trim_append_of_blank_left hbefore]

/-- **Trimming a text does not change its trimmed pieces.** -/
theorem map_trim_fields_trim {sep : Char} (hsep : isBlank sep = false) (s : List Char) :
    (fields sep (trim s)).map trim = (fields sep s).map trim := by
  obtain ⟨before, after, hbefore, hafter, hs⟩ := exists_trim_append s
  conv_rhs => rw [hs]
  exact (map_trim_fields_append hsep hbefore hafter (trim s)).symm

end Text

end OfferLayout
