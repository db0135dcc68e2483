/-
**The pieces of an expression, and the links they stand for.**

An expression is read in two steps: it is cut into pieces, and every piece is read on its own.  The
first step respects the bars of the expression and ignores the blanks around it; the second is a
relation between the pieces and the links, one by one.  So whatever is said about a chain of links
can be said about its pieces first.

Main definitions:

* `Chain.IsPiece` — a text that can be a piece of an expression.

Main results:

* `Chain.pieces_append`, `Chain.pieces_trim` — **the pieces of two expressions with a bar between
  them**, and of an expression without the blanks around it;
* `Chain.pieces_intercalate` — pieces are found again in the expression that they make;
* `Chain.parse_eq_ok_iff`, `Chain.parse_eq_error_iff` — **an expression is a chain** if it has a
  piece and every piece is a link, and what is wrong with it otherwise;
* `Chain.parse_append` — the chain of two expressions with a bar between them.
-/

import OfferLayout.Proofs.FirstFault
import OfferLayout.Proofs.Text.Pieces
import OfferLayout.Template.Link

set_option relaxedAutoImplicit false
set_option autoImplicit false

namespace OfferLayout

namespace Chain

/-! ### Pieces -/

/-- A text that can be a piece of an expression. -/
structure IsPiece (piece : List Char) : Prop where
  /-- It is not empty. -/
  nonempty : piece ≠ []
  /-- There are no blanks around it. -/
  trimmed : Text.trim piece = piece
  /-- There is no bar in it. -/
  noBar : '|' ∉ piece

instance (piece : List Char) : Decidable (IsPiece piece) :=
  decidable_of_iff (piece ≠ [] ∧ Text.trim piece = piece ∧ '|' ∉ piece)
    ⟨fun h => ⟨h.1, h.2.1, h.2.2⟩, fun h => ⟨h.nonempty, h.trimmed, h.noBar⟩⟩

/-- The pieces on both sides of a bar have nothing to do with each other. -/
theorem pieces_append (e e' : List Char) : pieces (e ++ '|' :: e') = pieces e ++ pieces e' := by
  simp only [pieces, Text.fields_append, List.map_append, List.filter_append]

/-- The blanks around an expression belong to no piece. -/
theorem pieces_trim (e : List Char) : pieces (Text.trim e) = pieces e := by
  rw [pieces, pieces, Text.map_trim_fields_trim (by decide)]

theorem isPiece_of_mem_pieces {e piece : List Char} (h : piece ∈ pieces e) : IsPiece piece := by
  obtain ⟨hmem, hne⟩ := List.mem_filter.1 h
  obtain ⟨field, hfield, rfl⟩ := List.mem_map.1 hmem
  refine { nonempty := by simpa using hne, trimmed := Text.trim_trim field, noBar := ?_ }
  intro hbar
  obtain ⟨before, after, -, -, hs⟩ := Text.exists_trim_append field
  refine Text.notMem_of_mem_fields hfield ?_
  rw [hs]
  exact List.mem_append_left after (List.mem_append_right before hbar)

/-- **Pieces are found again** in the expression that they make. -/
theorem pieces_intercalate {ps : List (List Char)} (h : ∀ piece ∈ ps, IsPiece piece) :
    pieces (['|'].intercalate ps) = ps := by
  cases ps with
  | nil => rfl
  | cons piece ps =>
      rw [pieces, Text.fields_intercalate (List.cons_ne_nil piece ps) fun p hp => (h p hp).noBar,
        List.map_congr_left fun p hp => (h p hp).trimmed, List.map_id', List.filter_eq_self]
      intro p hp
      simpa using (h p hp).nonempty

/-! ### The links of pieces -/

/-- Pieces are read one by one. -/
theorem readsEach_parsePieces : ReadsEach Link.parse parsePieces where
  nil := rfl
  cons piece ps := by
    rw [parsePieces]
    cases Link.parse piece with
    | error e => rfl
    | ok link => cases parsePieces ps <;> rfl

/-- **An expression is a chain** if it has a piece and every piece is a link. -/
theorem parse_eq_ok_iff {e : List Char} {links : List Link} :
    parse e = .ok links ↔
      pieces e ≠ [] ∧
        List.Forall₂ (fun piece link => Link.parse piece = .ok link) (pieces e) links := by
  by_cases hpieces : pieces e = []
  · simp [parse, hpieces]
  · rw [parse_eq hpieces, readsEach_parsePieces.eq_ok_iff, and_iff_right hpieces]

/-- **An expression is no chain** if it has no piece, and otherwise for the fault of its first piece
that is no link. -/
theorem parse_eq_error_iff {e : List Char} {fault : PlaceholderError} :
    parse e = .error fault ↔
      pieces e = [] ∧ fault = .noLinks (String.ofList e) ∨
        FirstFault Link.parse (pieces e) fault := by
  by_cases hpieces : pieces e = []
  · simp [parse, hpieces, not_firstFault_nil, eq_comm]
  · rw [parse_eq hpieces, readsEach_parsePieces.eq_error_iff]
    simp only [hpieces, false_and, false_or]

theorem ne_nil_of_parse {e : List Char} {links : List Link} (h : parse e = .ok links) :
    links ≠ [] := by
  obtain ⟨hpieces, hlinks⟩ := parse_eq_ok_iff.1 h
  rintro rfl
  exact hpieces (List.forall₂_nil_right_iff.1 hlinks)

/-- The blanks around an expression do not matter for its links. -/
theorem parse_trim_eq_ok_iff {e : List Char} {links : List Link} :
    parse (Text.trim e) = .ok links ↔ parse e = .ok links := by
  rw [parse_eq_ok_iff, parse_eq_ok_iff, pieces_trim]

/-- **Two chains with a bar between them** are one chain with the links of both. -/
theorem parse_append {e e' : List Char} {links links' : List Link} (h : parse e = .ok links)
    (h' : parse e' = .ok links') : parse (e ++ '|' :: e') = .ok (links ++ links') := by
  obtain ⟨hpieces, hlinks⟩ := parse_eq_ok_iff.1 h
  obtain ⟨-, hlinks'⟩ := parse_eq_ok_iff.1 h'
  rw [parse_eq_ok_iff, pieces_append]
  exact ⟨List.append_ne_nil_of_left_ne_nil hpieces _, List.rel_append hlinks hlinks'⟩

end Chain

end OfferLayout
