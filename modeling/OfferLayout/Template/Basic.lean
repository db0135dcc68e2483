/-
**Templates.**

A template is plain text with placeholders in it.  A placeholder starts at the mark "%^" and runs to
the first mark "^%" after that; marks that start another placeholder in between belong to its
expression.  A start without an end after it is plain text.  So every text is cut in one way into
placeholders, the plain text before each, and the rest.

Main definitions:

* `Cut`, `cutMarks` — a text cut at its placeholders, before their expressions are read;
* `Mark`, `Template` — a placeholder with the text before it, and a template;
* `Template.parse` — **reads a template**;
* `Placeholder`, `Template.placeholders` — the placeholders with the places where they stand.

Main results:

* `flatten_cutMarks` — the parts of a cut make up the text.
-/

import OfferLayout.Template.Link

set_option relaxedAutoImplicit false
set_option autoImplicit false

namespace OfferLayout

/-! ### Cutting at placeholders -/

/-- A text cut at its placeholders. -/
structure Cut where
  /-- The plain text before each placeholder, and the expression of the placeholder. -/
  marks : List (List Char × List Char)
  /-- The plain text after the last placeholder. -/
  rest : List Char
deriving DecidableEq, Repr

/-- The text of a placeholder with the given expression. -/
def markedText (expression : List Char) : List Char := '%' :: '^' :: expression ++ ['^', '%']

/-- The text that was cut. -/
def Cut.flatten (c : Cut) : List Char :=
  c.marks.flatMap (fun m => m.1 ++ markedText m.2) ++ c.rest

/-- The first placeholder of a text: the plain text before it, its expression, and the text after
it. -/
def firstMark? (s : List Char) : Option (List Char × List Char × List Char) :=
  (Text.cutAt? '%' '^' s).bind fun (gap, s) =>
    (Text.cutAt? '^' '%' s).map fun (expression, s) => (gap, expression, s)

theorem eq_of_firstMark? {s gap expression after : List Char}
    (h : firstMark? s = some (gap, expression, after)) :
    s = gap ++ markedText expression ++ after := by
  obtain ⟨⟨u, v⟩, hu, hv⟩ := Option.bind_eq_some_iff.1 h
  obtain ⟨⟨x, y⟩, hx, heq⟩ := Option.map_eq_some_iff.1 hv
  simp only [Prod.mk.injEq] at heq
  obtain ⟨rfl, rfl, rfl⟩ := heq
  rw [Text.eq_of_cutAt? hu, Text.eq_of_cutAt? hx]
  simp [markedText]

theorem length_lt_of_firstMark? {s gap expression after : List Char}
    (h : firstMark? s = some (gap, expression, after)) : after.length < s.length := by
  rw [eq_of_firstMark? h]
  simp only [markedText, List.length_append, List.length_cons]
  omega

/-- **The only way to cut a text at its placeholders.** -/
def cutMarks (s : List Char) : Cut :=
  match _h : firstMark? s with
  | none => ⟨[], s⟩
  | some (gap, expression, after) =>
      let c := cutMarks after
      ⟨(gap, expression) :: c.marks, c.rest⟩
termination_by s.length
decreasing_by exact length_lt_of_firstMark? _h

theorem cutMarks_of_none {s : List Char} (h : firstMark? s = none) : cutMarks s = ⟨[], s⟩ := by
  rw [cutMarks]
  split
  · rfl
  · next h' => simp [h] at h'

theorem cutMarks_of_some {s gap expression after : List Char}
    (h : firstMark? s = some (gap, expression, after)) :
    cutMarks s = ⟨(gap, expression) :: (cutMarks after).marks, (cutMarks after).rest⟩ := by
  rw [cutMarks]
  split
  · next h' => simp [h] at h'
  · next h' =>
      rw [h] at h'
      simp only [Option.some.injEq, Prod.mk.injEq] at h'
      obtain ⟨rfl, rfl, rfl⟩ := h'
      rfl

/-- **The parts of a cut make up the text.** -/
theorem flatten_cutMarks (s : List Char) : (cutMarks s).flatten = s := by
  fun_induction cutMarks s with
  | case1 s h => simp [Cut.flatten]
  | case2 s gap expression after h c ih =>
      rw [eq_of_firstMark? h]
      simp only [Cut.flatten] at ih ⊢
      rw [List.flatMap_cons, List.append_assoc, ih]

/-! ### Templates -/

/-- A placeholder, with the plain text before it. -/
structure Mark where
  /-- The plain text since the placeholder before. -/
  gap : List Char
  /-- The expression between the two marks. -/
  expression : List Char
  /-- The links of the expression. -/
  links : List Link
deriving DecidableEq, Repr

namespace Mark

/-- The text of the placeholder with both marks. -/
def raw (m : Mark) : String := String.ofList (markedText m.expression)

end Mark

/-- A text with placeholders. -/
structure Template where
  /-- The placeholders, in order. -/
  marks : List Mark
  /-- The plain text after the last placeholder. -/
  rest : List Char
deriving DecidableEq, Repr

namespace Template

/-- Reads the expressions of the placeholders of a text; the first that is no chain is the fault. -/
def parseMarks : List (List Char × List Char) → Except PlaceholderError (List Mark)
  | [] => .ok []
  | (gap, expression) :: rest =>
      match Chain.parse expression with
      | .error e => .error e
      | .ok links =>
          match parseMarks rest with
          | .error e => .error e
          | .ok marks => .ok (⟨gap, expression, links⟩ :: marks)

/-- **Reads a template.** -/
def parse (s : String) : Except PlaceholderError Template :=
  let c := cutMarks s.toList
  (parseMarks c.marks).map fun marks => ⟨marks, c.rest⟩

end Template

/-! ### Places -/

/-- A placeholder of a template, with the place where it stands. -/
structure Placeholder where
  /-- The text of the placeholder with both marks. -/
  raw : String
  /-- The number of bytes of the template before it. -/
  start : Nat
  /-- The number of bytes of the template up to its end. -/
  stop : Nat
  /-- Its links. -/
  links : List Link
deriving DecidableEq, Repr

namespace Template

/-- The placeholders of marks that follow `start` bytes of text. -/
def placeholdersFrom (start : Nat) : List Mark → List Placeholder
  | [] => []
  | m :: rest =>
      let first := start + Text.byteSize m.gap
      let stop := first + Text.byteSize (markedText m.expression)
      ⟨m.raw, first, stop, m.links⟩ :: placeholdersFrom stop rest

/-- **The placeholders of a template**, in order. -/
def placeholders (t : Template) : List Placeholder := placeholdersFrom 0 t.marks

end Template

/-- The placeholders of a text. -/
def placeholdersOf (s : String) : Except PlaceholderError (List Placeholder) :=
  (Template.parse s).map Template.placeholders

end OfferLayout
