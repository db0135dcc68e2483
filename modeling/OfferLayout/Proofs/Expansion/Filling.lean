/-
**What the filling of a template yields, and why it fails.**

A template is filled in three stages: its placeholders are read, the namespaces of all their links
are compared with the scope, and then every chain is resolved in turn.  This module says what comes
out of the stages together: the text that is made of what the chains found, or the fault of the
first stage that has one.

Main definitions:

* `BoundText.pushMarks` — a text with placeholders added, each with the plain text before it;
* `MissesFirst` — **the placeholder at which the resolution of a template fails**.

Main results:

* `substitute_eq_ok_iff` — a template is filled with what its chains find;
* `substitute_eq_error_iff` — **the fault of a template**: the first in an expression, otherwise the
  first namespace out of scope, otherwise the first missing mandatory key.
-/

import OfferLayout.Proofs.Expansion.Chain
import OfferLayout.Proofs.Template.Decomposition

set_option relaxedAutoImplicit false
set_option autoImplicit false

namespace OfferLayout

/-! ### Placeholders and their marks -/

/-- The placeholders of a template have its texts and its links. -/
theorem map_raw_links_placeholdersFrom (start : Nat) (marks : List Mark) :
    (Template.placeholdersFrom start marks).map (fun p => (p.raw, p.links)) =
      marks.map fun m => (m.raw, m.links) := by
  induction marks generalizing start with
  | nil => rfl
  | cons m marks ih =>
      simp only [Template.placeholdersFrom, List.map_cons]
      rw [ih]

theorem map_raw_placeholdersFrom (start : Nat) (marks : List Mark) :
    (Template.placeholdersFrom start marks).map Placeholder.raw = marks.map Mark.raw := by
  have h := congrArg (List.map Prod.fst) (map_raw_links_placeholdersFrom start marks)
  simpa only [List.map_map, Function.comp_def] using h

theorem map_links_placeholdersFrom (start : Nat) (marks : List Mark) :
    (Template.placeholdersFrom start marks).map Placeholder.links = marks.map Mark.links := by
  have h := congrArg (List.map Prod.snd) (map_raw_links_placeholdersFrom start marks)
  simpa only [List.map_map, Function.comp_def] using h

theorem flatMap_links_placeholdersFrom (start : Nat) (marks : List Mark) :
    (Template.placeholdersFrom start marks).flatMap Placeholder.links =
      marks.flatMap Mark.links := by
  rw [List.flatMap_def, List.flatMap_def, map_links_placeholdersFrom]

/-! ### The two passes -/

/-- **The scope of a template** is that of all its links. -/
theorem checkMarks_eq (s : Source) (marks : List Mark) :
    Template.checkMarks s marks = checkLinks s (marks.flatMap Mark.links) := by
  induction marks with
  | nil => rfl
  | cons m marks ih =>
      rw [Template.checkMarks, ih, List.flatMap_cons, checkLinks_eq, checkLinks_eq, checkLinks_eq,
        firstOutside_append]
      cases firstOutside s.scope m.links <;> rfl

/-- Adds placeholders with what they found, and the plain text before each. -/
def BoundText.pushMarks (b : BoundText) : List (Mark × Option Found) → BoundText
  | [] => b
  | (m, found) :: rest =>
      pushMarks ((b.pushText (String.ofList m.gap)).pushFound m.raw found) rest

/-- **A template is filled** with what each of its chains finds. -/
theorem fillMarks_eq_ok_iff {s : Source} {b b' : BoundText} {marks : List Mark} :
    Template.fillMarks s b marks = .ok b' ↔
      ∃ founds, List.Forall₂ (fun m found => resolveChain s m.links = .ok found) marks founds ∧
        b' = b.pushMarks (marks.zip founds) := by
  induction marks generalizing b with
  | nil =>
      simp only [Template.fillMarks, Except.ok.injEq, List.forall₂_nil_left_iff, exists_eq_left,
        List.zip_nil_left, BoundText.pushMarks]
      exact eq_comm
  | cons m marks ih =>
      rw [Template.fillMarks]
      constructor
      · intro h
        cases hm : resolveChain s m.links with
        | error e => simp [hm] at h
        | ok found =>
            simp only [hm] at h
            obtain ⟨founds, hfounds, rfl⟩ := ih.1 h
            exact ⟨found :: founds, List.Forall₂.cons hm hfounds, rfl⟩
      · rintro ⟨_, hfounds, rfl⟩
        cases hfounds with
        | @cons _ found _ founds hm hfounds =>
            simp only [hm]
            exact ih.2 ⟨founds, hfounds, rfl⟩

/-- **The resolution of a template fails** at the first chain that fails. -/
theorem fillMarks_eq_error_iff {s : Source} {b : BoundText} {marks : List Mark}
    {e : PlaceholderError} :
    Template.fillMarks s b marks = .error e ↔
      FirstFault (fun m => resolveChain s m.links) marks e := by
  induction marks generalizing b with
  | nil => exact iff_of_false (by simp [Template.fillMarks]) (not_firstFault_nil _ _)
  | cons m marks ih =>
      rw [Template.fillMarks, firstFault_cons_iff]
      cases hm : resolveChain s m.links with
      | error e' => simp
      | ok found => simp [ih]

/-- **The filling of a template depends on what its chains find only.** -/
theorem fillMarks_congr {s s' : Source} {b : BoundText} {marks : List Mark}
    (h : ∀ m ∈ marks, resolveChain s m.links = resolveChain s' m.links) :
    Template.fillMarks s b marks = Template.fillMarks s' b marks := by
  induction marks generalizing b with
  | nil => rfl
  | cons m marks ih =>
      obtain ⟨hm, hmarks⟩ := List.forall_mem_cons.1 h
      rw [Template.fillMarks, Template.fillMarks, hm]
      cases resolveChain s' m.links with
      | error e => rfl
      | ok found => exact ih hmarks

/-! ### The three stages together -/

/-- **A template is filled** exactly when its placeholders are read, none of their namespaces is out
of scope, and every chain is resolved. -/
theorem substitute_eq_ok_iff {t : String} {s : Source} {b : BoundText} :
    substitute t s = .ok b ↔
      ∃ marks founds, Template.parseMarks (cutMarks t.toList).marks = .ok marks ∧
        firstOutside s.scope (marks.flatMap Mark.links) = none ∧
        List.Forall₂ (fun m found => resolveChain s m.links = .ok found) marks founds ∧
        b = (BoundText.empty.pushMarks (marks.zip founds)).pushText
          (String.ofList (cutMarks t.toList).rest) := by
  simp only [substitute, Template.parse]
  cases Template.parseMarks (cutMarks t.toList).marks with
  | error e => simp [Except.map]
  | ok marks =>
      simp only [Except.map, Template.fill, checkMarks_eq, checkLinks_eq]
      cases hscope : firstOutside s.scope (marks.flatMap Mark.links) with
      | some n => simp [hscope]
      | none =>
          constructor
          · intro h
            cases hfill : Template.fillMarks s .empty marks with
            | error e => simp [hfill] at h
            | ok b' =>
                simp only [hfill, Except.ok.injEq] at h
                obtain ⟨founds, hfounds, rfl⟩ := fillMarks_eq_ok_iff.1 hfill
                exact ⟨marks, founds, rfl, hscope, hfounds, h.symm⟩
          · rintro ⟨_, founds, ⟨⟩, -, hfounds, rfl⟩
            rw [fillMarks_eq_ok_iff.2 ⟨founds, hfounds, rfl⟩]

/-- A template that is one placeholder is filled with what its chain finds. -/
theorem substitute_markedText {e : String} {links : List Link} {s : Source} {found : Option Found}
    (hparse : Chain.parse e.toList = .ok links) (hend : ¬ ['^', '%'] <:+: e.toList)
    (hscope : firstOutside s.scope links = none) (hfound : resolveChain s links = .ok found) :
    substitute ("%^" ++ e ++ "^%") s =
      .ok (BoundText.empty.pushFound ("%^" ++ e ++ "^%") found) := by
  have htext : ("%^" ++ e ++ "^%").toList = markedText e.toList := by
    simp [markedText]
  rw [substitute_eq_ok_iff, htext, cutMarks_markedText hend]
  refine ⟨[⟨[], e.toList, links⟩], [found], ?_, ?_, ?_, ?_⟩
  · simp only [Template.parseMarks, hparse]
  · simpa using hscope
  · simpa using hfound
  · rw [List.zip_cons_cons, List.zip_nil_left, BoundText.pushMarks, BoundText.pushMarks, Mark.raw,
      ← htext, String.ofList_toList]
    rfl

/-- A template without placeholders is its own text. -/
theorem substitute_of_plain {t : String} (h : Plain t.toList) (s : Source) :
    substitute t s = .ok (BoundText.empty.pushText t) := by
  rw [substitute_eq_ok_iff, cutMarks_of_none (firstMark?_eq_none_iff.2 h)]
  refine ⟨[], [], rfl, rfl, List.Forall₂.nil, ?_⟩
  rw [List.zip_nil_left, BoundText.pushMarks, String.ofList_toList]

/-- A template is bound to what it is filled with. -/
theorem bindTemplate_eq_ok_iff {t : String} {s : Source} {b : Binding BoundText} :
    bindTemplate t s = .ok b ↔ ∃ filled, substitute t s = .ok filled ∧ filled.binding = b := by
  unfold bindTemplate
  cases substitute t s <;> simp [Except.map]

theorem bindTemplate_eq_error_iff {t : String} {s : Source} {e : PlaceholderError} :
    bindTemplate t s = .error e ↔ substitute t s = .error e := by
  unfold bindTemplate
  cases substitute t s <;> simp [Except.map]

/-- **The placeholder at which the resolution of a template fails**: the first one with a missing
mandatory key. -/
def MissesFirst (s : Source) (ps : List Placeholder) (target : Target) : Prop :=
  ∃ before p after, ps = before ++ p :: after ∧
    (∀ q ∈ before, ∀ missed, ¬ FirstMiss s q.links missed) ∧ FirstMiss s p.links target

/-- A chain is resolved exactly when it has no missing mandatory key. -/
theorem exists_resolveChain_iff {s : Source} {links : List Link} :
    (∃ found, resolveChain s links = .ok found) ↔ ∀ target, ¬ FirstMiss s links target := by
  cases h : resolveChain s links with
  | error e =>
      obtain ⟨target, hmiss, -⟩ := resolveChain_eq_error_iff.1 h
      simp only [reduceCtorEq, exists_false, false_iff, not_forall, not_not]
      exact ⟨target, hmiss⟩
  | ok found =>
      simp only [Except.ok.injEq, exists_eq', true_iff]
      intro target hmiss
      have := resolveChain_eq_error_iff.2 ⟨target, hmiss, rfl⟩
      simp [h] at this

/-- The first chain that fails is the first one with a missing mandatory key. -/
theorem firstFault_resolveChain_iff {s : Source} {ps : List Placeholder} {e : PlaceholderError} :
    FirstFault (fun p => resolveChain s p.links) ps e ↔
      ∃ target, MissesFirst s ps target ∧ e = .mandatoryEmpty target := by
  constructor
  · rintro ⟨before, p, after, rfl, hbefore, hp⟩
    obtain ⟨target, hmiss, rfl⟩ := resolveChain_eq_error_iff.1 hp
    exact ⟨target, ⟨before, p, after, rfl,
      fun q hq => exists_resolveChain_iff.1 (hbefore q hq), hmiss⟩, rfl⟩
  · rintro ⟨target, ⟨before, p, after, rfl, hbefore, hmiss⟩, rfl⟩
    exact ⟨before, p, after, rfl, fun q hq => exists_resolveChain_iff.2 (hbefore q hq),
      resolveChain_eq_error_iff.2 ⟨target, hmiss, rfl⟩⟩

/-- **The fault of a template** is the first in an expression; otherwise the first namespace out of
scope; otherwise the first missing mandatory key. -/
theorem substitute_eq_error_iff {t : String} {s : Source} {e : PlaceholderError} :
    substitute t s = .error e ↔
      placeholdersOf t = .error e ∨
      ∃ ps, placeholdersOf t = .ok ps ∧
        ((∃ n, firstOutside s.scope (ps.flatMap Placeholder.links) = some n ∧
            e = .illegalNamespace n) ∨
          (firstOutside s.scope (ps.flatMap Placeholder.links) = none ∧
            ∃ target, MissesFirst s ps target ∧ e = .mandatoryEmpty target)) := by
  rw [placeholdersOf_eq_error_iff]
  simp only [placeholdersOf_eq_ok_iff, substitute, Template.parse]
  cases Template.parseMarks (cutMarks t.toList).marks with
  | error e' => simp [Except.map]
  | ok marks =>
      -- the placeholders have the links of the marks, so both fail at the same chain
      have hlinks := flatMap_links_placeholdersFrom 0 marks
      have hfault : FirstFault (fun m => resolveChain s m.links) marks e ↔
          ∃ target, MissesFirst s (Template.placeholdersFrom 0 marks) target ∧
            e = .mandatoryEmpty target := by
        rw [← firstFault_resolveChain_iff, ← firstFault_map_iff (f := Mark.links),
          ← firstFault_map_iff (f := Placeholder.links), map_links_placeholdersFrom]
      simp only [reduceCtorEq, false_or, Except.map, Except.ok.injEq, exists_eq_left',
        Template.fill, checkMarks_eq, checkLinks_eq]
      cases hscope : firstOutside s.scope (marks.flatMap Mark.links) with
      | some n => simp [hlinks, hscope, eq_comm]
      | none =>
          rw [← fillMarks_eq_error_iff (b := .empty)] at hfault
          simp only [hlinks, hscope]
          cases hfill : Template.fillMarks s .empty marks <;> simp [← hfault, hfill]

end OfferLayout
