/-
**Cutting a text at separators and markers.**

A text is cut at every occurrence of a separator character, or at the first occurrence of a marker
of two characters.  Nothing is lost by a cut: the parts and what separated them make up the text.

Main definitions:

* `Text.fields` — the pieces between the separators;
* `Text.splitFirst` — the text before and after the first separator;
* `Text.cutAt?` — the text before and after the first occurrence of a two-character marker;
* `Text.dropMarker?`, `Text.dropMarkerEnd?` — a text without its first or last two characters, if
  they are the marker;
* `Text.byteSize` — the length of a text in UTF-8.

Main results:

* `Text.intercalate_fields` — the pieces joined by the separator are the text;
* `Text.eq_of_cutAt?` — the two parts around the marker are the text.
-/

set_option relaxedAutoImplicit false
set_option autoImplicit false

namespace OfferLayout

namespace Text

/-! ### Pieces between separators -/

/-- The pieces of a text between the occurrences of `sep`.  There is one piece more than there are
separators. -/
def fields (sep : Char) : List Char → List (List Char)
  | [] => [[]]
  | c :: s =>
      if c = sep then [] :: fields sep s
      else
        match fields sep s with
        | [] => [[c]]
        | piece :: pieces => (c :: piece) :: pieces

@[simp] theorem fields_nil (sep : Char) : fields sep [] = [[]] := rfl

theorem fields_sep (sep : Char) (s : List Char) : fields sep (sep :: s) = [] :: fields sep s := by
  simp [fields]

theorem fields_ne_nil (sep : Char) (s : List Char) : fields sep s ≠ [] := by
  cases s with
  | nil => simp
  | cons c s =>
      simp only [fields]
      split
      · simp
      · split <;> simp

/-- **Nothing is lost**: the pieces joined by the separator are the text. -/
theorem intercalate_fields (sep : Char) (s : List Char) :
    List.intercalate [sep] (fields sep s) = s := by
  induction s with
  | nil => simp [fields, List.intercalate]
  | cons c s ih =>
      simp only [fields]
      obtain ⟨piece, pieces, h⟩ := List.exists_cons_of_ne_nil (fields_ne_nil sep s)
      rw [h] at ih
      split
      · next hc => simp [h, hc, List.intercalate] at ih ⊢; exact ih
      · rw [h]
        cases pieces with
        | nil => simpa [List.intercalate] using ih
        | cons p ps => simpa [List.intercalate] using ih

/-- The text before the first `sep` and the text after it, if there is one. -/
def splitFirst (sep : Char) : List Char → List Char × Option (List Char)
  | [] => ([], none)
  | c :: s =>
      if c = sep then ([], some s)
      else ((c :: (splitFirst sep s).1), (splitFirst sep s).2)

/-! ### Two-character markers -/

/-- The text before the first occurrence of the marker `a b` and the text after it. -/
def cutAt? (a b : Char) : List Char → Option (List Char × List Char)
  | c :: d :: s =>
      if c = a ∧ d = b then some ([], s)
      else (cutAt? a b (d :: s)).map fun cut => (c :: cut.1, cut.2)
  | _ => none

/-- **Nothing is lost**: the marker stands between the two parts. -/
theorem eq_of_cutAt? {a b : Char} {s u v : List Char} (h : cutAt? a b s = some (u, v)) :
    s = u ++ a :: b :: v := by
  fun_induction cutAt? a b s generalizing u v with
  | case1 c d s hcd =>
      simp only [Option.some.injEq, Prod.mk.injEq] at h
      simp [← h.1, ← h.2, hcd.1, hcd.2]
  | case2 c d s _ ih =>
      obtain ⟨⟨p, q⟩, hpq, heq⟩ := Option.map_eq_some_iff.1 h
      simp only [Prod.mk.injEq] at heq
      rw [← heq.1, ← heq.2, List.cons_append, ← ih hpq]
  | case3 => simp at h

/-- The text after the marker `a b`, if the text starts with it. -/
def dropMarker? (a b : Char) : List Char → Option (List Char)
  | c :: d :: s => if c = a ∧ d = b then some s else none
  | _ => none

/-- The text before the marker `a b`, if the text ends with it. -/
def dropMarkerEnd? (a b : Char) (s : List Char) : Option (List Char) :=
  (dropMarker? b a s.reverse).map List.reverse

/-! ### Sizes and prefixes -/

/-- The length of a text in UTF-8. -/
def byteSize : List Char → Nat
  | [] => 0
  | c :: s => c.utf8Size + byteSize s

@[simp] theorem byteSize_nil : byteSize [] = 0 := rfl

@[simp] theorem byteSize_cons (c : Char) (s : List Char) :
    byteSize (c :: s) = c.utf8Size + byteSize s := rfl

@[simp] theorem byteSize_append (s t : List Char) :
    byteSize (s ++ t) = byteSize s + byteSize t := by
  induction s with
  | nil => simp
  | cons c s ih =>
      simp only [List.cons_append, byteSize_cons, ih]
      omega

/-- What follows `start` in the text, if the text starts with it. -/
def after? (start : List Char) (s : List Char) : Option (List Char) := start.isPrefixOf? s

/-- The text without one final `c`, if it ends with one. -/
def dropLast? (c : Char) (s : List Char) : Option (List Char) :=
  if s.getLast? = some c then some s.dropLast else none

end Text

end OfferLayout
