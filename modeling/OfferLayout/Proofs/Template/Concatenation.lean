/-
**The placeholders of two texts, one after the other.**

Where one text follows another, the placeholders of both are those of the whole, the ones of the
second text moved by the length of the first.  This needs a seam at which nothing new starts: no
placeholder may be left open in the first text, and no mark may come into being where the texts
meet.  The plain text at the end of the first text then runs on into that at the start of the
second.

Main definitions:

* `Seam` — **two texts that may be put together**;
* `Cut.append`, `Template.append` — the cuts and the templates of two texts, put together;
* `Placeholder.shift` — a placeholder in a text with something before it.

Main results:

* `cutMarks_append` — the cut of two texts at a seam;
* `parse_append` — **the template of two texts at a seam**;
* `placeholders_append` — its placeholders.
-/

import OfferLayout.Proofs.Template.Decomposition

set_option relaxedAutoImplicit false
set_option autoImplicit false

namespace OfferLayout

open Text (byteSize)

/-! ### Seams -/

/-- **Two texts that may be put together**: no placeholder starts in the plain text at the end of
the first one, and none starts where that meets the second one. -/
structure Seam (s t : List Char) : Prop where
  /-- No placeholder starts after the last one of the first text. -/
  closed : ¬ ['%', '^'] <:+: (cutMarks s).rest
  /-- The texts do not meet in the middle of a mark. -/
  apart : ¬ ((cutMarks s).rest.getLast? = some '%' ∧ t.head? = some '^')

/-- The cuts of two texts, put together: the plain text at the end of the first runs on into that
at the start of the second. -/
def Cut.append (c c' : Cut) : Cut :=
  match c'.marks with
  | [] => ⟨c.marks, c.rest ++ c'.rest⟩
  | m :: ms => ⟨c.marks ++ (c.rest ++ m.1, m.2) :: ms, c'.rest⟩

theorem Cut.flatten_append (c c' : Cut) : (c.append c').flatten = c.flatten ++ c'.flatten := by
  obtain ⟨marks, rest⟩ := c
  obtain ⟨_ | ⟨m, marks'⟩, rest'⟩ := c'
  · simp [Cut.append, Cut.flatten]
  · simp [Cut.append, Cut.flatten]

/-- No placeholder starts and ends in the plain text on both sides of a seam. -/
theorem Plain.append {s t : List Char} (ht : Plain t) (hs : ¬ ['%', '^'] <:+: s)
    (hseam : ¬ (s.getLast? = some '%' ∧ t.head? = some '^')) : Plain (s ++ t) := by
  intro u v huv
  rcases Text.occurs_append huv with h | h | ⟨w, -, hw⟩
  · exact absurd h hs
  · exact absurd h hseam
  · exact ht w v hw

/-- Proper cuts put together at a seam are proper. -/
theorem Cut.IsProper.append {c c' : Cut} (h : c.IsProper) (h' : c'.IsProper)
    (hclosed : ¬ ['%', '^'] <:+: c.rest)
    (hapart : ¬ (c.rest.getLast? = some '%' ∧ c'.flatten.head? = some '^')) :
    (c.append c').IsProper := by
  obtain ⟨marks, rest⟩ := c
  obtain ⟨_ | ⟨m, marks'⟩, rest'⟩ := c'
  · exact { gap := h.gap, expression := h.expression, rest := h'.rest.append hclosed hapart }
  · have hgap : ¬ ['%', '^'] <:+: rest ++ m.1 := by
      refine Text.not_infix_append hclosed ?_ (h'.gap m List.mem_cons_self)
      rintro ⟨hlast, hhead⟩
      refine hapart ⟨hlast, ?_⟩
      rw [flatten_cons, List.append_assoc, List.head?_append, hhead]
      rfl
    refine { gap := ?_, expression := ?_, rest := h'.rest }
    · intro k hk
      rcases List.mem_append.1 hk with hk | hk
      · exact h.gap k hk
      · rcases List.mem_cons.1 hk with rfl | hk
        · exact hgap
        · exact h'.gap k (List.mem_cons_of_mem m hk)
    · intro k hk
      rcases List.mem_append.1 hk with hk | hk
      · exact h.expression k hk
      · rcases List.mem_cons.1 hk with rfl | hk
        · exact h'.expression m List.mem_cons_self
        · exact h'.expression k (List.mem_cons_of_mem m hk)

/-- **The cut of two texts at a seam** is that of both, put together. -/
theorem cutMarks_append {s t : List Char} (h : Seam s t) :
    cutMarks (s ++ t) = (cutMarks s).append (cutMarks t) := by
  rw [cutMarks_eq_iff, Cut.flatten_append, flatten_cutMarks, flatten_cutMarks]
  refine ⟨(isProper_cutMarks s).append (isProper_cutMarks t) h.closed ?_, rfl⟩
  rw [flatten_cutMarks]
  exact h.apart

/-! ### Templates -/

/-- A mark with more plain text before it. -/
def Mark.after (gap : List Char) (m : Mark) : Mark := { m with gap := gap ++ m.gap }

/-- The templates of two texts, put together. -/
def Template.append (t t' : Template) : Template :=
  match t'.marks with
  | [] => ⟨t.marks, t.rest ++ t'.rest⟩
  | m :: ms => ⟨t.marks ++ m.after t.rest :: ms, t'.rest⟩

theorem parseMarks_append (ms ms' : List (List Char × List Char)) :
    Template.parseMarks (ms ++ ms') = (do
      let marks ← Template.parseMarks ms
      let marks' ← Template.parseMarks ms'
      return marks ++ marks') := by
  induction ms with
  | nil =>
      rw [List.nil_append]
      cases Template.parseMarks ms' <;> rfl
  | cons m ms ih =>
      rw [List.cons_append, Template.parseMarks, Template.parseMarks, ih]
      cases Chain.parse m.2 with
      | error e => rfl
      | ok links =>
          cases Template.parseMarks ms with
          | error e => rfl
          | ok marks => cases Template.parseMarks ms' <;> rfl

/-- More plain text before a placeholder does not change how it is read. -/
theorem parseMarks_after (gap : List Char) (m : List Char × List Char)
    (ms : List (List Char × List Char)) :
    Template.parseMarks ((gap ++ m.1, m.2) :: ms) =
      (Template.parseMarks (m :: ms)).map fun marks => marks.modifyHead (Mark.after gap) := by
  rw [Template.parseMarks, Template.parseMarks]
  cases Chain.parse m.2 with
  | error e => rfl
  | ok links => cases Template.parseMarks ms <;> rfl

/-- **The template of two texts at a seam** is that of both, put together; where one of them is no
template, the fault is that of the first that is none. -/
theorem parse_append {s t : String} (h : Seam s.toList t.toList) :
    Template.parse (s ++ t) = (do
      let x ← Template.parse s
      let y ← Template.parse t
      return x.append y) := by
  simp only [Template.parse, String.toList_append, cutMarks_append h]
  generalize cutMarks s.toList = c
  obtain ⟨_ | ⟨m, ms⟩, rest⟩ := cutMarks t.toList
  · simp only [Cut.append]
    cases Template.parseMarks c.marks <;> rfl
  · simp only [Cut.append, parseMarks_append, parseMarks_after]
    cases Template.parseMarks c.marks with
    | error e => rfl
    | ok marks =>
        cases hms : Template.parseMarks (m :: ms) with
        | error e => rfl
        | ok marks' =>
            obtain ⟨links, others, -, -, rfl⟩ := parseMarks_cons_eq_ok_iff.1 hms
            rfl

/-! ### Places -/

/-- A placeholder in a text with `n` bytes before it. -/
def Placeholder.shift (n : Nat) (p : Placeholder) : Placeholder :=
  { p with start := n + p.start, stop := n + p.stop }

/-- The text of marks with the plain text before each. -/
def Mark.flatten (marks : List Mark) : List Char :=
  marks.flatMap fun m => m.gap ++ markedText m.expression

theorem placeholdersFrom_append (n : Nat) (marks marks' : List Mark) :
    Template.placeholdersFrom n (marks ++ marks') =
      Template.placeholdersFrom n marks ++
        Template.placeholdersFrom (n + byteSize (Mark.flatten marks)) marks' := by
  induction marks generalizing n with
  | nil => rfl
  | cons m marks ih =>
      simp only [List.cons_append, Template.placeholdersFrom, ih, Mark.flatten, List.flatMap_cons,
        Text.byteSize_append, Nat.add_assoc]

theorem placeholdersFrom_add (k n : Nat) (marks : List Mark) :
    Template.placeholdersFrom (k + n) marks =
      (Template.placeholdersFrom n marks).map (Placeholder.shift k) := by
  induction marks generalizing n with
  | nil => rfl
  | cons m marks ih =>
      simp only [Template.placeholdersFrom, List.map_cons, Placeholder.shift, Nat.add_assoc, ih]

/-- Plain text before a placeholder counts like any text before it. -/
theorem placeholdersFrom_after (n : Nat) (gap : List Char) (m : Mark) (marks : List Mark) :
    Template.placeholdersFrom n (m.after gap :: marks) =
      Template.placeholdersFrom (n + byteSize gap) (m :: marks) := by
  simp only [Template.placeholdersFrom, Mark.after, Mark.raw, Text.byteSize_append, Nat.add_assoc]

/-- The placeholders of two templates, put together: those of the second come after the text of the
first. -/
theorem placeholders_append (t t' : Template) :
    (t.append t').placeholders =
      t.placeholders ++
        t'.placeholders.map (Placeholder.shift (byteSize (Mark.flatten t.marks ++ t.rest))) := by
  obtain ⟨_ | ⟨m, marks'⟩, rest'⟩ := t'
  · simp [Template.append, Template.placeholders, Template.placeholdersFrom]
  · simp only [Template.append, Template.placeholders, placeholdersFrom_append,
      placeholdersFrom_after, ← placeholdersFrom_add, Text.byteSize_append, Nat.zero_add,
      Nat.add_zero]

theorem flatten_of_parse {s : String} {t : Template} (h : Template.parse s = .ok t) :
    Mark.flatten t.marks ++ t.rest = s.toList := by
  cases hmarks : Template.parseMarks (cutMarks s.toList).marks with
  | error e => simp [Template.parse, hmarks, Except.map] at h
  | ok marks =>
      simp only [Template.parse, hmarks, Except.map, Except.ok.injEq] at h
      subst h
      conv_rhs => rw [← flatten_cutMarks s.toList]
      rw [Cut.flatten, ← map_expression_of_parseMarks hmarks, List.flatMap_map, Mark.flatten]

/-- **The placeholders of two texts at a seam** are those of the first, and those of the second
moved by the length of the first. -/
theorem placeholdersOf_append {s t : String} (h : Seam s.toList t.toList) :
    placeholdersOf (s ++ t) = (do
      let ps ← placeholdersOf s
      let qs ← placeholdersOf t
      return ps ++ qs.map (Placeholder.shift s.utf8ByteSize)) := by
  simp only [placeholdersOf, parse_append h]
  cases hs : Template.parse s with
  | error e => rfl
  | ok x =>
      cases Template.parse t with
      | error e => rfl
      | ok y =>
          have hsize : byteSize (Mark.flatten x.marks ++ x.rest) = s.utf8ByteSize := by
            rw [flatten_of_parse hs, utf8ByteSize_eq_byteSize]
          exact congrArg Except.ok (hsize ▸ placeholders_append x y)

end OfferLayout
