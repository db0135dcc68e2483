/-
**The grammar of fallback chains.**

An expression is cut at its bars, and what is left of each part without the blanks around it is a
piece, unless nothing is left.  There has to be a piece, and a piece is a link unless it begins like
a key and names none: `DATA.` is followed by a namespace, a point and a path, and `STATE.` by a key.
Everything else is a literal, whatever it looks like.  The layout does not matter: blanks around a
piece and pieces that are blank can be added anywhere.

Main definitions:

* `Link.Refused` — **what can be wrong with a piece**;
* `Link.Reads` — the link that a piece stands for;
* `Chain.LaidOut` — parts of an expression with blanks and blank parts added.

Main results:

* `Link.parse_eq_error_iff`, `Link.parse_eq_ok_iff` — a piece is read unless it is refused;
* `Chain.pieces_of_laidOut` — the layout of an expression does not change its pieces;
* `Chain.parse_follows_grammar` — **the expressions that are chains**, and what is wrong with the
  others.
-/

import OfferLayout.Proofs.Template.LinkSpelling

set_option relaxedAutoImplicit false
set_option autoImplicit false

namespace OfferLayout

namespace Text

/-- A text is divided where its first separator stands. -/
theorem fst_splitFirst (sep : Char) (s : List Char) :
    (splitFirst sep s).1 = s.takeWhile (· ≠ sep) := by
  induction s with
  | nil => rfl
  | cons c s ih =>
      by_cases hc : c = sep
      · simp [splitFirst, hc]
      · simp [splitFirst, hc, ih]

theorem splitFirst_of_notMem {sep : Char} {s : List Char} (h : sep ∉ s) :
    splitFirst sep s = (s, none) := by
  induction s with
  | nil => rfl
  | cons c s ih =>
      rw [List.mem_cons, not_or] at h
      rw [splitFirst, if_neg (Ne.symm h.1), ih h.2]

theorem eq_of_splitFirst_eq_none {sep : Char} {s u : List Char}
    (h : splitFirst sep s = (u, none)) : u = s := by
  induction s generalizing u with
  | nil => exact (congrArg Prod.fst h).symm
  | cons c s ih =>
      rw [splitFirst] at h
      split at h
      · cases h
      · rw [Prod.mk.injEq] at h
        have htail : (splitFirst sep s).1 = s := ih (Prod.ext rfl h.2)
        rw [← h.1, htail]

end Text

namespace Link

/-! ### Pieces that are no links -/

/-- **What can be wrong with a piece**, which is looked at without its mark. -/
inductive Refused (piece : List Char) : PlaceholderError → Prop where
  /-- What follows `DATA.` up to a point is not the name of a namespace. -/
  | unknownNamespace {rest : List Char} (lead : (splitMark piece).1 = "DATA.".toList ++ rest)
      (unknown : ∀ space : DataSpace, space.segment.toList ≠ rest.takeWhile (· ≠ '.')) :
      Refused piece (.unknownNamespace (String.ofList piece))
  /-- No path follows the name of a namespace, or an empty one does. -/
  | noPath {space : DataSpace} {point : List Char}
      (lead : (splitMark piece).1 = "DATA.".toList ++ (space.segment.toList ++ point))
      (empty : point = [] ∨ point = ['.']) : Refused piece (.noKey (String.ofList piece))
  /-- No key follows `STATE.`. -/
  | noStateKey (lead : (splitMark piece).1 = "STATE.".toList) :
      Refused piece (.noKey (String.ofList piece))

/-- **The link that a piece stands for**: a key that is spelled before the mark, or a literal, if
the piece does not begin like a key. -/
inductive Reads (piece : List Char) : Link → Prop where
  /-- The piece is the spelling of a target, with or without a mark. -/
  | keyed {target : Target} {mandatory : Bool} (key : target.key ≠ "")
      (name : splitMark piece = (target.name.toList, mandatory)) :
      Reads piece (.keyed target mandatory)
  /-- The piece is a text as it stands, its mark included. -/
  | literal (data : ¬ "DATA.".toList <+: (splitMark piece).1)
      (state : ¬ "STATE.".toList <+: (splitMark piece).1) :
      Reads piece (.literal (String.ofList piece))

theorem parse_eq_ok_iff {piece : List Char} {link : Link} :
    parse piece = .ok link ↔ Reads piece link := by
  constructor
  · intro h
    rcases parse_cases h with ⟨target, hkey, hname, rfl⟩ | ⟨hdata, hstate, rfl⟩
    · exact .keyed hkey (Prod.ext hname rfl)
    · exact .literal hdata hstate
  · rintro (⟨hkey, hname⟩ | ⟨hdata, hstate⟩)
    · exact parse_of_name hkey hname
    · exact parse_of_not_lead hdata hstate

theorem point_notMem_segment (space : DataSpace) : '.' ∉ space.segment.toList := by
  cases space <;> decide

theorem parse_of_refused {piece : List Char} {fault : PlaceholderError} (h : Refused piece fault) :
    parse piece = .error fault := by
  cases h with
  | @unknownNamespace rest lead unknown =>
      have hspace : DataSpace.ofSegment? (String.ofList (rest.takeWhile (· ≠ '.'))) = none := by
        rw [Option.eq_none_iff_forall_ne_some]
        intro space hspace
        refine unknown space ?_
        rw [DataSpace.segment_of_ofSegment? hspace, String.toList_ofList]
      simp only [parse, Text.after?_eq_some_iff.2 lead, Text.fst_splitFirst, hspace]
  | @noPath space point lead empty =>
      have hsplit : Text.splitFirst '.' (space.segment.toList ++ point) =
          (space.segment.toList, if point = [] then none else some []) := by
        rcases empty with rfl | rfl
        · rw [List.append_nil]
          exact Text.splitFirst_of_notMem (point_notMem_segment space)
        · exact Text.splitFirst_eq_some_iff.2 ⟨rfl, point_notMem_segment space⟩
      simp only [parse, Text.after?_eq_some_iff.2 lead, hsplit, String.ofList_toList,
        DataSpace.ofSegment?_segment]
      rcases empty with rfl | rfl <;> rfl
  | noStateKey lead =>
      have hdata : Text.after? "DATA.".toList "STATE.".toList = none := by decide
      have hstate : Text.after? "STATE.".toList "STATE.".toList = some [] := by decide
      simp only [parse, lead, hdata, hstate]

/-- **A piece is no link** exactly if it is refused. -/
theorem parse_eq_error_iff {piece : List Char} {fault : PlaceholderError} :
    parse piece = .error fault ↔ Refused piece fault := by
  refine ⟨fun h => ?_, parse_of_refused⟩
  rw [parse] at h
  split at h
  next body mandatory hmark =>
  have hbody : (splitMark piece).1 = body := congrArg Prod.fst hmark
  split at h
  · next rest hdata =>
      have lead := hbody.trans (Text.after?_eq_some_iff.1 hdata)
      split at h
      next segment path hsplit =>
      have hsegment : segment = rest.takeWhile (· ≠ '.') := by
        rw [← Text.fst_splitFirst, hsplit]
      split at h
      · next hspace =>
          cases h
          refine .unknownNamespace lead ?_
          intro space heq
          rw [hsegment, ← heq, String.ofList_toList, DataSpace.ofSegment?_segment] at hspace
          cases hspace
      · next space hspace =>
          have hname : space.segment.toList = segment := by
            rw [DataSpace.segment_of_ofSegment? hspace, String.toList_ofList]
          split at h
          · next =>
              cases h
              have hrest := Text.eq_of_splitFirst_eq_none hsplit
              have lead' : (splitMark piece).1 =
                  "DATA.".toList ++ (space.segment.toList ++ []) := by
                rw [lead, List.append_nil, hname, hrest]
              exact .noPath lead' (Or.inl rfl)
          · next =>
              cases h
              have hrest := (Text.splitFirst_eq_some_iff.1 hsplit).1
              have lead' : (splitMark piece).1 =
                  "DATA.".toList ++ (space.segment.toList ++ ['.']) := by
                rw [lead, hname, hrest]
              exact .noPath lead' (Or.inr rfl)
          · cases h
  · split at h
    · next hstate =>
        cases h
        refine .noStateKey ?_
        rw [hbody, Text.after?_eq_some_iff.1 hstate, List.append_nil]
    · cases h
    · cases h

theorem exists_parse_eq_ok_iff {piece : List Char} :
    (∃ link, parse piece = .ok link) ↔ ∀ fault, ¬ Refused piece fault := by
  simp only [← parse_eq_error_iff]
  cases parse piece <;> simp

end Link

namespace Chain

open Text (isBlank trim)

/-! ### The layout of an expression -/

/-- **Parts of an expression with blanks and blank parts added.** -/
inductive LaidOut : List (List Char) → List (List Char) → Prop where
  /-- There is nothing to add to. -/
  | nil : LaidOut [] []
  /-- Blanks are added around a part. -/
  | padded {before after : List Char} (hbefore : ∀ c ∈ before, isBlank c = true)
      (hafter : ∀ c ∈ after, isBlank c = true) {part : List Char} {parts parts' : List (List Char)}
      (h : LaidOut parts parts') : LaidOut (part :: parts) ((before ++ part ++ after) :: parts')
  /-- A blank part is added. -/
  | blank {part : List Char} (hpart : ∀ c ∈ part, isBlank c = true)
      {parts parts' : List (List Char)} (h : LaidOut parts parts') :
      LaidOut parts (part :: parts')

theorem pieces_eq_splitOn (e : List Char) :
    pieces e = ((e.splitOn '|').map trim).filter fun piece => !piece.isEmpty := by
  rw [pieces, Text.fields_eq_splitOn]

/-- What is left of the parts of an expression does not depend on their layout. -/
theorem LaidOut.trimmed {parts parts' : List (List Char)} (h : LaidOut parts parts') :
    ((parts'.map trim).filter fun piece => !piece.isEmpty) =
      (parts.map trim).filter fun piece => !piece.isEmpty := by
  induction h with
  | nil => rfl
  | padded hbefore hafter h ih =>
      rw [List.map_cons, List.map_cons, Text.trim_append_of_blank_right hafter,
        Text.trim_append_of_blank_left hbefore, List.filter_cons, List.filter_cons, ih]
  | blank hpart h ih =>
      have htrim := Text.trim_append_of_blank_right hpart []
      rw [List.nil_append, Text.trim_nil] at htrim
      rw [List.map_cons, htrim, ← ih]
      rfl

/-- **The layout of an expression does not change its pieces.** -/
theorem pieces_of_laidOut {e e' : List Char} (h : LaidOut (e.splitOn '|') (e'.splitOn '|')) :
    pieces e' = pieces e := by
  rw [pieces_eq_splitOn, pieces_eq_splitOn, h.trimmed]

/-! ### Chains -/

/-- **An expression is a chain** exactly if it has a piece and none of its pieces is refused. -/
theorem exists_parse_eq_ok_iff {e : List Char} :
    (∃ links, parse e = .ok links) ↔
      pieces e ≠ [] ∧ ∀ piece ∈ pieces e, ∀ fault, ¬ Link.Refused piece fault := by
  simp only [parse_eq_ok_iff, exists_and_left, exists_forall₂_iff, Link.exists_parse_eq_ok_iff]

/-- **The fault of an expression** that is no chain is that of its first piece that is refused. -/
theorem parse_eq_error_iff_refused {e : List Char} {fault : PlaceholderError} :
    parse e = .error fault ↔
      pieces e = [] ∧ fault = .noLinks (String.ofList e) ∨
        ∃ before piece after, pieces e = before ++ piece :: after ∧
          (∀ p ∈ before, ∀ fault', ¬ Link.Refused p fault') ∧ Link.Refused piece fault := by
  simp only [parse_eq_error_iff, FirstFault, Link.exists_parse_eq_ok_iff, Link.parse_eq_error_iff]

/-- **The expressions that are chains.**  An expression is cut at its bars, and its pieces are what
is left of the parts without the blanks around them, if anything is left.  It is a chain exactly if
it has a piece and no piece is refused, and then each piece is one link, in order.  Otherwise its
fault is that of its first piece that is refused, which tells that piece with its mark, or, if it
has no piece, tells the whole expression.  Blanks around pieces and blank pieces that are added to a
chain do not change its links, and two chains with a bar between them are one chain with the links
of both. -/
theorem parse_follows_grammar (e : List Char) :
    pieces e = ((e.splitOn '|').map trim).filter (fun piece => !piece.isEmpty) ∧
    ((∃ links, parse e = .ok links) ↔
      pieces e ≠ [] ∧ ∀ piece ∈ pieces e, ∀ fault, ¬ Link.Refused piece fault) ∧
    (∀ links, parse e = .ok links ↔
      pieces e ≠ [] ∧ List.Forall₂ Link.Reads (pieces e) links) ∧
    (∀ fault, parse e = .error fault ↔
      pieces e = [] ∧ fault = .noLinks (String.ofList e) ∨
        ∃ before piece after, pieces e = before ++ piece :: after ∧
          (∀ p ∈ before, ∀ fault', ¬ Link.Refused p fault') ∧ Link.Refused piece fault) ∧
    (∀ text, (PlaceholderError.unknownNamespace text).message =
        "unknown placeholder namespace in '" ++ text ++ "'" ∧
      (PlaceholderError.noKey text).message =
        "malformed placeholder: link '" ++ text ++ "' names no key" ∧
      (PlaceholderError.noLinks text).message =
        "malformed placeholder: empty placeholder expression '%^" ++ text ++ "^%'") ∧
    (∀ e', LaidOut (e.splitOn '|') (e'.splitOn '|') →
      ∀ links, parse e = .ok links → parse e' = .ok links) ∧
    ∀ e' links links', parse e = .ok links → parse e' = .ok links' →
      parse (e ++ '|' :: e') = .ok (links ++ links') := by
  refine ⟨pieces_eq_splitOn e, exists_parse_eq_ok_iff, fun links => ?_,
    fun _ => parse_eq_error_iff_refused, fun text => ⟨rfl, rfl, rfl⟩, ?_,
    fun _ _ _ h h' => parse_append h h'⟩
  · simp only [parse_eq_ok_iff, Link.parse_eq_ok_iff]
  · intro e' hlaidOut links h
    rw [parse_eq_ok_iff] at h ⊢
    rwa [pieces_of_laidOut hlaidOut]

/-- Texts that begin nearly like keys are literals, and an ideographic space is a blank.  A blank
before the name of a namespace belongs to the name, so the second piece of the last expression is
the first one with a fault. -/
theorem parse_follows_grammar_laid_out :
    LaidOut ("DATA.creativeCopy.a !|STATEment".toList.splitOn '|')
      (" |DATA.creativeCopy.a !\u3000| STATEment".toList.splitOn '|') ∧
    parse "DATA.creativeCopy.a !|STATEment".toList =
      .ok [.keyed (.data .creativeCopy "a") true, .literal "STATEment"] ∧
    parse " |DATA.creativeCopy.a !\u3000| STATEment".toList =
      .ok [.keyed (.data .creativeCopy "a") true, .literal "STATEment"] ∧
    parse "STATE.x".toList = .ok [.keyed (.state "x") false] ∧
    parse "DATA.creativeCopy.a !|STATEment|STATE.x".toList =
      .ok [.keyed (.data .creativeCopy "a") true, .literal "STATEment",
        .keyed (.state "x") false] ∧
    parse "DATA!| |DATA. creativeCopy|DATA.creativecopy.a !|STATE.".toList =
      .error (.unknownNamespace "DATA. creativeCopy") := by
  obtain ⟨-, -, -, -, -, hlayout, hjoin⟩ :=
    parse_follows_grammar "DATA.creativeCopy.a !|STATEment".toList
  have hparts : "DATA.creativeCopy.a !|STATEment".toList.splitOn '|' =
      ["DATA.creativeCopy.a !".toList, "STATEment".toList] := by
    decide +kernel
  have hparts' : " |DATA.creativeCopy.a !\u3000| STATEment".toList.splitOn '|' =
      [[' '], [] ++ "DATA.creativeCopy.a !".toList ++ ['\u3000'],
        [' '] ++ "STATEment".toList ++ []] := by
    decide +kernel
  have hlaidOut : LaidOut ("DATA.creativeCopy.a !|STATEment".toList.splitOn '|')
      (" |DATA.creativeCopy.a !\u3000| STATEment".toList.splitOn '|') := by
    have hspace : ∀ c ∈ [' '], isBlank c = true := List.forall_mem_singleton.2 (by decide)
    have hwide : ∀ c ∈ ['\u3000'], isBlank c = true := List.forall_mem_singleton.2 (by decide)
    have hnone : ∀ c ∈ [], isBlank c = true := List.forall_mem_nil _
    rw [hparts, hparts']
    exact .blank hspace (.padded hnone hwide (.padded hspace hnone .nil))
  have hparse : parse "DATA.creativeCopy.a !|STATEment".toList =
      .ok [.keyed (.data .creativeCopy "a") true, .literal "STATEment"] := by
    decide +kernel
  have hstate : parse "STATE.x".toList = .ok [.keyed (.state "x") false] := by
    decide +kernel
  have hfault := (parse_follows_grammar
    "DATA!| |DATA. creativeCopy|DATA.creativecopy.a !|STATE.".toList).2.2.2.1
  refine ⟨hlaidOut, hparse, hlayout _ hlaidOut _ hparse, hstate, hjoin _ _ _ hparse hstate,
    (hfault _).2 (Or.inr ⟨["DATA!".toList], "DATA. creativeCopy".toList,
      ["DATA.creativecopy.a !".toList, "STATE.".toList], by decide +kernel, ?_, ?_⟩)⟩
  · intro piece hpiece fault hrefused
    rw [List.mem_singleton.1 hpiece] at hrefused
    have hliteral : Link.parse "DATA!".toList = .ok (.literal "DATA!") := by decide +kernel
    rw [Link.parse_of_refused hrefused] at hliteral
    cases hliteral
  · have hlead : (Link.splitMark "DATA. creativeCopy".toList).1 =
        "DATA.".toList ++ " creativeCopy".toList := by
      decide +kernel
    refine .unknownNamespace hlead ?_
    intro space
    cases space <;> decide +kernel

end Chain

end OfferLayout
