/-
**A chain falls back on the chain after it.**

A bar between two expressions makes one chain of two.  The chain after the bar is consulted exactly
if the one before it found nothing and failed nowhere: what a link finds is never the empty text,
so the empty text is how it shows that nothing was found.  Hence the resolution of the whole is that
of its parts, tried one after the other.

Main definitions:

* `IsMarked` — an expression that is written with the marks of a placeholder.

Main results:

* `resolveChain_append` — the links after the first ones are tried where those find nothing;
* `resolveChain_eq_none_iff` — when it is that links find nothing;
* `resolve_eq_of_parse` — the resolution of an expression without marks is that of its chain;
* `resolve_append_bar` — **the resolution of two expressions with a bar between them**.
-/

import OfferLayout.Proofs.Expansion.Chain
import OfferLayout.Proofs.Template.Pieces

set_option relaxedAutoImplicit false
set_option autoImplicit false

namespace OfferLayout

/-! ### Expressions with marks -/

/-- An expression that is written with the marks of a placeholder, with blanks around it at
most. -/
def IsMarked (e : List Char) : Prop := ∃ body, Text.trim e = markedText body

instance (e : List Char) : Decidable (IsMarked e) :=
  decidable_of_iff
    ((Text.dropMarker? '%' '^' (Text.trim e)).bind (Text.dropMarkerEnd? '^' '%')).isSome (by
      simp only [Option.isSome_iff_exists, bind_dropMarker?_eq_some_iff, IsMarked])

/-- Without marks, the chain of an expression is the expression. -/
theorem bareChain_of_not_isMarked {e : List Char} (h : ¬ IsMarked e) :
    bareChain e = Text.trim e := by
  have hnone : (Text.dropMarker? '%' '^' (Text.trim e)).bind (Text.dropMarkerEnd? '^' '%') =
      none := by
    rw [Option.eq_none_iff_forall_ne_some]
    intro body hbody
    exact h ⟨body, bind_dropMarker?_eq_some_iff.1 hbody⟩
  simp only [bareChain, hnone, Option.getD_none]

/-! ### Links one after the other -/

/-- **The links after the first ones** are tried where those find nothing, and not where one of
them fails. -/
theorem resolveChain_append (s : Source) (links links' : List Link) :
    resolveChain s (links ++ links') =
      match resolveChain s links with
      | .ok none => resolveChain s links'
      | result => result := by
  induction links with
  | nil => rfl
  | cons link links ih =>
      rw [List.cons_append, resolveChain_cons, resolveChain_cons]
      cases link.find? s with
      | some found => rfl
      | none =>
          cases link with
          | literal text => exact ih
          | keyed target mandatory =>
              cases mandatory with
              | true => rfl
              | false => exact ih

/-- Links find nothing if none of them does, and none of them is mandatory. -/
theorem resolveChain_eq_none_iff {s : Source} {links : List Link} :
    resolveChain s links = .ok none ↔
      ∀ link ∈ links, link.find? s = none ∧ link.isMandatory = false := by
  induction links with
  | nil => simp [resolveChain]
  | cons link links ih =>
      rw [resolveChain_cons, List.forall_mem_cons, ← ih]
      cases hfind : link.find? s with
      | some found => simp
      | none =>
          cases link with
          | literal text => simp [Link.isMandatory]
          | keyed target mandatory => cases mandatory <;> simp [Link.isMandatory]

/-- **No link finds the empty text.** -/
theorem find?_ne_empty (s : Source) (link : Link) : link.find? s ≠ some (.text "") := by
  intro h
  cases link with
  | literal text => simp [Link.find?] at h
  | keyed target mandatory =>
      cases target with
      | state key => simp [Link.find?, Target.find?] at h
      | data space path =>
          obtain ⟨text, htext, heq⟩ := Option.map_eq_some_iff.1 h
          cases heq
          exact Source.ne_empty_of_find? htext rfl

/-- What a chain finds was found by one of its links. -/
theorem exists_find?_of_resolveChain {s : Source} {links : List Link} {found : Found}
    (h : resolveChain s links = .ok (some found)) : ∃ link ∈ links, link.find? s = some found := by
  induction links with
  | nil => simp [resolveChain] at h
  | cons link links ih =>
      rw [resolveChain_cons] at h
      cases hfind : link.find? s with
      | some found' =>
          simp only [hfind, Except.ok.injEq, Option.some.injEq] at h
          exact ⟨link, List.mem_cons_self, h ▸ hfind⟩
      | none =>
          have htail : resolveChain s links = .ok (some found) := by
            cases link with
            | literal text => simpa [hfind] using h
            | keyed target mandatory =>
                cases mandatory with
                | true => simp [hfind] at h
                | false => simpa [hfind] using h
          obtain ⟨link', hmem, hfind'⟩ := ih htail
          exact ⟨link', List.mem_cons_of_mem link hmem, hfind'⟩

/-- The empty text is bound where nothing was found only. -/
theorem map_bindingOf_eq_empty_iff {s : Source} {links : List Link} :
    (resolveChain s links).map bindingOf = .ok (.value "") ↔ resolveChain s links = .ok none := by
  constructor
  · intro h
    cases hchain : resolveChain s links with
    | error e => simp [hchain, Except.map] at h
    | ok found =>
        rcases found with _ | ⟨text⟩ | ⟨key⟩
        · rfl
        · obtain ⟨link, -, hfind⟩ := exists_find?_of_resolveChain hchain
          rw [hchain] at h
          have htext : text = "" := by simpa [Except.map, bindingOf, Found.binding] using h
          exact absurd (htext ▸ hfind) (find?_ne_empty s link)
        · simp [hchain, Except.map, bindingOf, Found.binding] at h
  · intro h
    rw [h]
    rfl

/-! ### The resolution of an expression -/

/-- **The resolution of an expression without marks** is that of its chain. -/
theorem resolve_eq_of_parse {e : String} {links : List Link} {s : Source}
    (hparse : Chain.parse e.toList = .ok links) (hbare : ¬ IsMarked e.toList)
    (hscope : ∀ link ∈ links, ∀ n, link.scope? = some n → n ∈ s.scope) :
    resolve e s = (resolveChain s links).map bindingOf := by
  rw [resolve, bareChain_of_not_isMarked hbare, Chain.parse_trim_eq_ok_iff.2 hparse]
  simp only [resolveLinks, checkLinks_eq, firstOutside_eq_none_iff.2 hscope]
  cases resolveChain s links <;> rfl

/-- **A chain falls back on the chain after it.**  Where the first of two expressions is bound to
the empty text, the whole is resolved as the second one; otherwise it is resolved as the first one,
whether that is bound to a text or to live state, or fails.  The first one is bound to the empty
text if no link of it finds anything and none is mandatory, and it fails at its first missing
mandatory key only. -/
theorem resolve_append_bar {e e' : String} {links links' : List Link} {s : Source}
    (hparse : Chain.parse e.toList = .ok links) (hparse' : Chain.parse e'.toList = .ok links')
    (hscope : ∀ link ∈ links ++ links', ∀ n, link.scope? = some n → n ∈ s.scope)
    (hbare : ¬ IsMarked e.toList) (hbare' : ¬ IsMarked e'.toList)
    (hjoined : ¬ IsMarked (e ++ "|" ++ e').toList) :
    (resolve e s = .ok (.value "") → resolve (e ++ "|" ++ e') s = resolve e' s) ∧
    (resolve e s ≠ .ok (.value "") → resolve (e ++ "|" ++ e') s = resolve e s) ∧
    (resolve e s = .ok (.value "") ↔
      ∀ link ∈ links, link.find? s = none ∧ link.isMandatory = false) ∧
    (∀ error, resolve e s = .error error ↔
      ∃ target, FirstMiss s links target ∧ error = .mandatoryEmpty target) ∧
    ∀ link ∈ links ++ links', link.find? s ≠ some (.text "") := by
  have htext : (e ++ "|" ++ e').toList = e.toList ++ '|' :: e'.toList := by simp
  have hwhole : Chain.parse (e ++ "|" ++ e').toList = .ok (links ++ links') := by
    rw [htext]
    exact Chain.parse_append hparse hparse'
  have hfirst := resolve_eq_of_parse hparse hbare fun link h =>
    hscope link (List.mem_append_left links' h)
  have hsecond := resolve_eq_of_parse hparse' hbare' fun link h =>
    hscope link (List.mem_append_right links h)
  rw [resolve_eq_of_parse hwhole hjoined hscope, hfirst, hsecond, map_bindingOf_eq_empty_iff,
    resolveChain_append]
  refine ⟨?_, ?_, resolveChain_eq_none_iff, ?_, fun link _ => find?_ne_empty s link⟩
  · intro hnone
    rw [hnone]
  · intro hne
    split
    · next hnone => exact absurd (map_bindingOf_eq_empty_iff.2 hnone) hne
    · rfl
  · intro error
    rw [← resolveChain_eq_error_iff]
    cases resolveChain s links <;> simp [Except.map]

/-- Nothing is found at the first key, so live state is bound; after a mandatory key at which
nothing is found, it is not. -/
theorem resolve_state_after_miss :
    resolve " DATA.creativeCopy.a || STATE.TotalOffers!" (.offer {}) =
      .ok (.state "TotalOffers") ∧
    resolve "DATA.creativeCopy.a!|STATE.TotalOffers" (.offer {}) =
      .error (.mandatoryEmpty (.data .creativeCopy "a")) := by
  constructor
  · have h := @resolve_append_bar " DATA.creativeCopy.a |" " STATE.TotalOffers!"
      [.keyed (.data .creativeCopy "a") false] [.keyed (.state "TotalOffers") true] (.offer {})
      (by decide +kernel) (by decide +kernel) (by decide)
      (by decide +kernel) (by decide +kernel) (by decide +kernel)
    exact (h.1 (by decide +kernel)).trans (by decide +kernel)
  · have h := @resolve_append_bar "DATA.creativeCopy.a!" "STATE.TotalOffers"
      [.keyed (.data .creativeCopy "a") true] [.keyed (.state "TotalOffers") false] (.offer {})
      (by decide +kernel) (by decide +kernel) (by decide)
      (by decide +kernel) (by decide +kernel) (by decide +kernel)
    exact (h.2.1 (by decide +kernel)).trans (by decide +kernel)

end OfferLayout
