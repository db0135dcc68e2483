/-
**Marking keys as mandatory only adds ways to fail.**

A chain is strengthened by marking some of its keys as mandatory.  It names the same namespaces
after that, and its links find the same.  So it is out of scope where it was before, and otherwise
it finds what it found before, unless a mandatory key is missing before anything is found.  A
template with strengthened chains reads as it did before or is empty.

Main definitions:

* `Link.Strengthens`, `Chain.Strengthens` — **a link and a chain with more mandatory keys**;
* `MissesKey` — a chain with a missing mandatory key;
* `StrengthensTemplate` — a template with strengthened chains.

Main results:

* `firstOutside_of_strengthens` — the strengthened chain names the same namespaces;
* `exists_firstMiss_iff` — where a mandatory key is missing, there is a first one;
* `resolveChain_of_strengthens` — **without a missing mandatory key, both chains find the same**;
* `parseMarks_of_strengthens` — both templates are read, or neither is;
* `strengthens_only_fails` — the resolution of strengthened chains and templates.
-/

import OfferLayout.Proofs.Expansion.Scope
import OfferLayout.Proofs.Expansion.Splice

set_option relaxedAutoImplicit false
set_option autoImplicit false

namespace OfferLayout

/-! ### Strengthened chains -/

/-- **A link that is marked as mandatory**, or stays as it is. -/
inductive Link.Strengthens : Link → Link → Prop where
  /-- The link stays as it is. -/
  | same (link : Link) : Strengthens link link
  /-- The key is marked. -/
  | marked (target : Target) : Strengthens (.keyed target false) (.keyed target true)

/-- **A chain with some more of its keys marked as mandatory.** -/
def Chain.Strengthens (links links' : List Link) : Prop :=
  List.Forall₂ Link.Strengthens links links'

theorem Chain.Strengthens.refl (links : List Link) : Chain.Strengthens links links :=
  List.forall₂_same.2 fun link _ => .same link

namespace Link.Strengthens

variable {link link' : Link}

theorem scope?_eq (h : link.Strengthens link') : link'.scope? = link.scope? := by
  cases h <;> rfl

theorem find?_eq (h : link.Strengthens link') (s : Source) : link'.find? s = link.find? s := by
  cases h <;> rfl

end Link.Strengthens

/-- A strengthened chain names the same namespaces. -/
theorem firstOutside_of_strengthens {scope : List Namespace} {links links' : List Link}
    (h : Chain.Strengthens links links') :
    firstOutside scope links' = firstOutside scope links := by
  have hscopes : links'.filterMap Link.scope? = links.filterMap Link.scope? := by
    induction h with
    | nil => rfl
    | cons hlink _ ih => rw [List.filterMap_cons, List.filterMap_cons, hlink.scope?_eq, ih]
  rw [firstOutside, firstOutside, hscopes]

/-! ### Missing mandatory keys -/

/-- **A mandatory key is missing**: nothing is found there, and nothing before it. -/
def MissesKey (s : Source) (links : List Link) : Prop :=
  ∃ before target after, links = before ++ .keyed target true :: after ∧ target.find? s = none ∧
    ∀ link ∈ before, link.find? s = none

/-- Where a mandatory key is missing, there is a first one. -/
theorem exists_firstMiss_iff {s : Source} {links : List Link} :
    (∃ target, FirstMiss s links target) ↔ MissesKey s links := by
  constructor
  · rintro ⟨target, before, after, heq, hmiss, hbefore⟩
    exact ⟨before, target, after, heq, hmiss, fun link hlink => (hbefore link hlink).1⟩
  · rintro ⟨before, target, after, rfl, hmiss, hbefore⟩
    induction before with
    | nil => exact ⟨target, firstMiss_cons_iff.2 (Or.inl ⟨rfl, hmiss⟩)⟩
    | cons link before ih =>
        obtain ⟨hlink, hbefore⟩ := List.forall_mem_cons.1 hbefore
        cases hmandatory : link.isMandatory with
        | false =>
            obtain ⟨target', htail⟩ := ih hbefore
            exact ⟨target', firstMiss_cons_iff.2 (Or.inr ⟨hlink, hmandatory, htail⟩)⟩
        | true =>
            cases link with
            | literal text => cases hmandatory
            | keyed target' mandatory =>
                cases hmandatory
                exact ⟨target', firstMiss_cons_iff.2 (Or.inl ⟨rfl, hlink⟩)⟩

/-- **Without a missing mandatory key**, a strengthened chain finds what the chain does. -/
theorem resolveChain_of_strengthens {s : Source} {links links' : List Link}
    (h : Chain.Strengthens links links') (hmiss : ∀ target, ¬ FirstMiss s links' target) :
    resolveChain s links' = resolveChain s links := by
  induction h with
  | nil => rfl
  | @cons link link' links links' hlink _ ih =>
      rw [resolveChain_cons, resolveChain_cons, hlink.find?_eq s]
      cases hfind : link.find? s with
      | some found => rfl
      | none =>
          -- no key is missing here, so the link does not fail, and none is missing after it
          have htail : link'.isMandatory = false →
              resolveChain s links' = resolveChain s links := by
            intro hoptional
            refine ih fun target htarget => hmiss target (firstMiss_cons_iff.2 (Or.inr ?_))
            exact ⟨(hlink.find?_eq s).trans hfind, hoptional, htarget⟩
          cases hlink with
          | marked target =>
              exact absurd (firstMiss_cons_iff.2 (Or.inl ⟨rfl, hfind⟩)) (hmiss target)
          | same =>
              cases link with
              | literal text => exact htail rfl
              | keyed target mandatory =>
                  cases mandatory with
                  | false => exact htail rfl
                  | true =>
                      exact absurd (firstMiss_cons_iff.2 (Or.inl ⟨rfl, hfind⟩)) (hmiss target)

/-- What a strengthened chain finds is what the chain does. -/
theorem resolveChain_eq_ok_of_strengthens {s : Source} {links links' : List Link}
    (h : Chain.Strengthens links links') {found : Option Found}
    (hfound : resolveChain s links' = .ok found) : resolveChain s links = .ok found := by
  rw [← resolveChain_of_strengthens h (exists_resolveChain_iff.1 ⟨found, hfound⟩), hfound]

/-- The resolution of links, in the two examinations that they pass. -/
theorem resolveLinks_eq_match (s : Source) (links : List Link) :
    resolveLinks s links =
      match firstOutside s.scope links with
      | some n => .error (.illegalNamespace n)
      | none => (resolveChain s links).map fun found => found.map Found.binding := by
  rw [resolveLinks, checkLinks_eq]
  cases firstOutside s.scope links <;> rfl

/-! ### Strengthened templates -/

/-- **An expression with some more of its keys marked as mandatory**; one that cannot be read stays
as it is. -/
def StrengthensExpression (e e' : List Char) : Prop :=
  e = e' ∨ ∃ links links', Chain.parse e = .ok links ∧ Chain.parse e' = .ok links' ∧
    Chain.Strengthens links links'

/-- **A template with strengthened chains**: the same plain text around expressions with some more
of their keys marked as mandatory. -/
structure StrengthensTemplate (t t' : String) : Prop where
  /-- The placeholders stand after the same plain text, with strengthened chains. -/
  marks : List.Forall₂ (fun m m' => m.1 = m'.1 ∧ StrengthensExpression m.2 m'.2)
    (cutMarks t.toList).marks (cutMarks t'.toList).marks
  /-- The plain text after the last placeholder is the same. -/
  rest : (cutMarks t.toList).rest = (cutMarks t'.toList).rest

/-- A placeholder after the same plain text, with a strengthened chain. -/
def Mark.Strengthens (m m' : Mark) : Prop := m.gap = m'.gap ∧ Chain.Strengthens m.links m'.links

/-- **Both templates are read, or neither is**, for the same fault. -/
theorem parseMarks_of_strengthens {ms ms' : List (List Char × List Char)}
    (h : List.Forall₂ (fun m m' => m.1 = m'.1 ∧ StrengthensExpression m.2 m'.2) ms ms') :
    (∃ e, Template.parseMarks ms = .error e ∧ Template.parseMarks ms' = .error e) ∨
      ∃ marks marks', Template.parseMarks ms = .ok marks ∧ Template.parseMarks ms' = .ok marks' ∧
        List.Forall₂ Mark.Strengthens marks marks' := by
  induction h with
  | nil => exact Or.inr ⟨[], [], rfl, rfl, .nil⟩
  | @cons m m' ms ms' hm _ ih =>
      obtain ⟨gap, e⟩ := m
      obtain ⟨gap', e'⟩ := m'
      obtain ⟨hgap, hexpression⟩ := hm
      have hchain : (∃ error, Chain.parse e = .error error ∧ Chain.parse e' = .error error) ∨
          ∃ links links', Chain.parse e = .ok links ∧ Chain.parse e' = .ok links' ∧
            Chain.Strengthens links links' := by
        rcases hexpression with heq | hread
        · obtain rfl : e = e' := heq
          cases hparse : Chain.parse e with
          | error error => exact Or.inl ⟨error, rfl, rfl⟩
          | ok links => exact Or.inr ⟨links, links, rfl, rfl, .refl links⟩
        · exact Or.inr hread
      rw [Template.parseMarks, Template.parseMarks]
      rcases hchain with ⟨error, hparse, hparse'⟩ | ⟨links, links', hparse, hparse', hlinks⟩
      · exact Or.inl ⟨error, by simp only [hparse], by simp only [hparse']⟩
      · rcases ih with ⟨error, hrest, hrest'⟩ | ⟨marks, marks', hrest, hrest', hmarks⟩
        · refine Or.inl ⟨error, ?_, ?_⟩
          · simp only [hparse, hrest]
          · simp only [hparse', hrest']
        · refine Or.inr ⟨⟨gap, e, links⟩ :: marks, ⟨gap', e', links'⟩ :: marks', ?_, ?_, ?_⟩
          · simp only [hparse, hrest]
          · simp only [hparse', hrest']
          · exact .cons ⟨hgap, hlinks⟩ hmarks

theorem flatMap_links_of_strengthens {marks marks' : List Mark}
    (h : List.Forall₂ Mark.Strengthens marks marks') :
    Chain.Strengthens (marks.flatMap Mark.links) (marks'.flatMap Mark.links) := by
  induction h with
  | nil => exact .nil
  | cons hm _ ih =>
      rw [List.flatMap_cons, List.flatMap_cons]
      exact List.rel_append hm.2 ih

/-- What the chains of a strengthened template find is what those of the template do. -/
theorem forall₂_resolveChain_of_strengthens {s : Source} {marks marks' : List Mark}
    (h : List.Forall₂ Mark.Strengthens marks marks') {founds : List (Option Found)}
    (hfounds : List.Forall₂ (fun m found => resolveChain s m.links = .ok found) marks' founds) :
    List.Forall₂ (fun m found => resolveChain s m.links = .ok found) marks founds := by
  induction h generalizing founds with
  | nil => exact hfounds
  | cons hm _ ih =>
      cases hfounds with
      | cons hfound hfounds =>
          exact .cons (resolveChain_eq_ok_of_strengthens hm.2 hfound) (ih hfounds)

/-- Placeholders after the same plain text that found the same read the same. -/
theorem flatMap_render_of_strengthens {marks marks' : List Mark}
    (h : List.Forall₂ Mark.Strengthens marks marks') (founds : List (Option Found))
    (v : StateValues) :
    ((marks.zip founds).flatMap fun x =>
        x.1.gap ++ ((segmentOf x.1.raw x.2).render v).toList) =
      (marks'.zip founds).flatMap fun x =>
        x.1.gap ++ ((segmentOf x.1.raw x.2).render v).toList := by
  have hraw : ∀ (raw raw' : String) (found : Option Found),
      (segmentOf raw found).render v = (segmentOf raw' found).render v := by
    intro raw raw' found
    rcases found with _ | ⟨text⟩ | ⟨key⟩ <;> rfl
  induction h generalizing founds with
  | nil => rfl
  | @cons m m' marks marks' hm _ ih =>
      cases founds with
      | nil => rfl
      | cons found founds =>
          rw [List.zip_cons_cons, List.zip_cons_cons, List.flatMap_cons, List.flatMap_cons,
            ih founds, hm.1, hraw m.raw m'.raw]

/-- **A strengthened template that is filled** reads as the template does. -/
theorem expandWithState_eq_of_strengthens {t t' : String} (h : StrengthensTemplate t t')
    {s : Source} {b : BoundText} (hb : substitute t' s = .ok b) (v : StateValues) :
    expandWithState t s v = .ok (b.render v) := by
  obtain ⟨marks', founds, hmarks', hscope, hfounds, rfl⟩ := substitute_eq_ok_iff.1 hb
  rcases parseMarks_of_strengthens h.marks with ⟨e, -, he⟩ | ⟨marks, marks'', hmarks, hmarks'', hm⟩
  · rw [hmarks'] at he
    cases he
  · obtain rfl := Except.ok.inj (hmarks'.symm.trans hmarks'')
    rw [firstOutside_of_strengthens (flatMap_links_of_strengthens hm)] at hscope
    have hfill := substitute_eq_ok_iff.2
      ⟨marks, founds, hmarks, hscope, forall₂_resolveChain_of_strengthens hm hfounds, rfl⟩
    have hwrite : ∀ l : List (Mark × Option Found),
        ((BoundText.empty.pushMarks l).render v).toList =
          l.flatMap fun x => x.1.gap ++ ((segmentOf x.1.raw x.2).render v).toList :=
      fun l => toList_write_pushMarks (f := Segment.render v) (fun _ => rfl) .empty l
    have hrender : ((BoundText.empty.pushMarks (marks.zip founds)).render v) =
        (BoundText.empty.pushMarks (marks'.zip founds)).render v := by
      rw [← String.toList_inj, hwrite, hwrite, flatMap_render_of_strengthens hm]
    rw [expandWithState, hfill]
    simp only [collapse, Except.map, BoundText.render_pushText, hrender, h.rest]

/-! ### Chains and templates -/

/-- Beyond the gate, a strengthened chain fails at its first missing mandatory key, and is resolved
as the chain is where no key is missing. -/
theorem resolveLinks_of_strengthens {s : Source} {links links' : List Link}
    (h : Chain.Strengthens links links') (hscope : firstOutside s.scope links = none) :
    (MissesKey s links' → ∃ target, FirstMiss s links' target ∧
      resolveLinks s links' = .error (.mandatoryEmpty target)) ∧
    (¬ MissesKey s links' → resolveLinks s links' = resolveLinks s links) := by
  have hscope' : firstOutside s.scope links' = none := (firstOutside_of_strengthens h).trans hscope
  simp only [resolveLinks_eq_match, hscope, hscope']
  constructor
  · intro hmisses
    obtain ⟨target, hmiss⟩ := exists_firstMiss_iff.2 hmisses
    refine ⟨target, hmiss, ?_⟩
    rw [resolveChain_eq_error_iff.2 ⟨target, hmiss, rfl⟩]
    rfl
  · intro hmisses
    have hnone : ∀ target, ¬ FirstMiss s links' target :=
      fun target hmiss => hmisses (exists_firstMiss_iff.1 ⟨target, hmiss⟩)
    rw [resolveChain_of_strengthens h hnone]

/-- Both templates fail alike, or neither does. -/
theorem expandWithState_eq_error_of_strengthens {t t' : String} (h : StrengthensTemplate t t')
    {s : Source} {v : StateValues} {e : PlaceholderError} :
    expandWithState t' s v = .error e ↔ expandWithState t s v = .error e := by
  simp only [expandWithState_eq_error_iff, placeholdersOf_eq_ok_iff]
  rcases parseMarks_of_strengthens h.marks with
    ⟨error, herror, herror'⟩ | ⟨marks, marks', hmarks, hmarks', hm⟩
  · simp [herror, herror']
  · have hsame : firstOutside s.scope (marks'.flatMap Mark.links) =
        firstOutside s.scope (marks.flatMap Mark.links) :=
      firstOutside_of_strengthens (flatMap_links_of_strengthens hm)
    constructor
    · rintro ⟨ps, n, ⟨marks'', hread, rfl⟩, hn, rfl⟩
      obtain rfl := Except.ok.inj (hmarks'.symm.trans hread)
      rw [flatMap_links_placeholdersFrom, hsame] at hn
      exact ⟨_, n, ⟨marks, hmarks, rfl⟩, (flatMap_links_placeholdersFrom 0 marks).symm ▸ hn, rfl⟩
    · rintro ⟨ps, n, ⟨marks'', hread, rfl⟩, hn, rfl⟩
      obtain rfl := Except.ok.inj (hmarks.symm.trans hread)
      rw [flatMap_links_placeholdersFrom, ← hsame] at hn
      exact ⟨_, n, ⟨marks', hmarks', rfl⟩, (flatMap_links_placeholdersFrom 0 marks').symm ▸ hn, rfl⟩

/-- **A strengthened template reads as it did, or is empty**, unless both fail. -/
theorem texts_of_strengthens {t t' : String} (h : StrengthensTemplate t t') (s : Source)
    (v : StateValues) :
    (∃ n, expandWithState t s v = .error (.illegalNamespace n) ∧
        expandWithState t' s v = .error (.illegalNamespace n)) ∨
      ∃ text, expandWithState t s v = .ok text ∧
        (expandWithState t' s v = .ok text ∨ expandWithState t' s v = .ok "") := by
  cases htext : expandWithState t s v with
  | error e =>
      obtain ⟨-, n, -, -, rfl⟩ := expandWithState_eq_error_iff.1 htext
      exact Or.inl ⟨n, rfl, (expandWithState_eq_error_of_strengthens h).2 htext⟩
  | ok text =>
      refine Or.inr ⟨text, rfl, ?_⟩
      cases hsub : substitute t' s with
      | ok b =>
          -- the strengthened template was filled, and the template with the same
          have hsame := (expandWithState_eq_of_strengthens h hsub v).symm.trans htext
          rw [expandWithState, hsub]
          exact Or.inl hsame
      | error e =>
          cases hcollapses : e.collapses with
          | true =>
              refine Or.inr ?_
              simp [expandWithState, hsub, collapse, hcollapses, Except.map]
          | false =>
              have herror : expandWithState t' s v = .error e := by
                simp [expandWithState, hsub, collapse, hcollapses, Except.map]
              rw [expandWithState_eq_error_of_strengthens h, htext] at herror
              cases herror

/-- **Marking keys as mandatory only adds ways to fail.**  A chain with a link that is out of scope
fails for the same namespace when some more of its keys are mandatory.  Any other chain then fails
exactly if one of its mandatory keys is missing, and before it nothing is found: it fails at the
first such key, and is resolved as before if there is none.  A template with strengthened chains
fails for the same namespaces, and otherwise reads as before or is empty. -/
theorem strengthens_only_fails (s : Source) :
    (∀ links links', Chain.Strengthens links links' →
      ((∃ link ∈ links, ∃ n, link.scope? = some n ∧ n ∉ s.scope) →
        ∃ n, resolveLinks s links = .error (.illegalNamespace n) ∧
          resolveLinks s links' = .error (.illegalNamespace n)) ∧
      ((∀ link ∈ links, ∀ n, link.scope? = some n → n ∈ s.scope) →
        (MissesKey s links' → ∃ target, FirstMiss s links' target ∧
          resolveLinks s links' = .error (.mandatoryEmpty target)) ∧
        (¬ MissesKey s links' → resolveLinks s links' = resolveLinks s links))) ∧
    ∀ t t', StrengthensTemplate t t' → ∀ v,
      (∃ n, expandWithState t s v = .error (.illegalNamespace n) ∧
          expandWithState t' s v = .error (.illegalNamespace n)) ∨
        ∃ text, expandWithState t s v = .ok text ∧
          (expandWithState t' s v = .ok text ∨ expandWithState t' s v = .ok "") := by
  refine ⟨?_, fun t t' h v => texts_of_strengthens h s v⟩
  intro links links' h
  constructor
  · rintro ⟨link, hlink, n, hn, hout⟩
    have hsome : firstOutside s.scope links ≠ none :=
      fun hnone => hout (firstOutside_eq_none_iff.1 hnone link hlink n hn)
    obtain ⟨n', hn'⟩ := Option.ne_none_iff_exists'.1 hsome
    refine ⟨n', ?_, ?_⟩
    · rw [resolveLinks_eq_match, hn']
    · rw [resolveLinks_eq_match, firstOutside_of_strengthens h, hn']
  · intro hscope
    exact resolveLinks_of_strengthens h (firstOutside_eq_none_iff.2 hscope)

/-- The first key is marked: where there is copy at it nothing changes, and where there is none the
text is empty instead of the literal after it. -/
theorem strengthens_only_fails_before_literal :
    let t := "é%^DATA.creativeCopy.a|x^%"
    let t' := "é%^DATA.creativeCopy.a!|x^%"
    let links : List Link := [.keyed (.data .creativeCopy "a") false, .literal "x"]
    let links' : List Link := [.keyed (.data .creativeCopy "a") true, .literal "x"]
    resolveLinks (.offer {}) links' = .error (.mandatoryEmpty (.data .creativeCopy "a")) ∧
    (∃ n, resolveLinks .stateOnly links = .error (.illegalNamespace n) ∧
      resolveLinks .stateOnly links' = .error (.illegalNamespace n)) ∧
    expandWithState t (.offer {}) {} = .ok "éx" ∧
    expandWithState t' (.offer {}) {} = .ok "" := by
  intro t t' links links'
  have hlinks : Chain.Strengthens links links' :=
    .cons (.marked _) (.cons (.same _) .nil)
  have hcut : cutMarks t.toList = ⟨[("é".toList, "DATA.creativeCopy.a|x".toList)], []⟩ := by
    decide +kernel
  have hcut' : cutMarks t'.toList = ⟨[("é".toList, "DATA.creativeCopy.a!|x".toList)], []⟩ := by
    decide +kernel
  have htemplate : StrengthensTemplate t t' := by
    refine ⟨?_, ?_⟩
    · rw [hcut, hcut']
      exact .cons ⟨rfl, Or.inr ⟨links, links', by decide +kernel, by decide +kernel, hlinks⟩⟩ .nil
    · rw [hcut, hcut']
  have hplain : expandWithState t (.offer {}) {} = .ok "éx" := by decide +kernel
  refine ⟨?_, ?_, hplain, ?_⟩
  · have hchain := ((strengthens_only_fails (.offer {})).1 links links' hlinks).2 (by decide)
    obtain ⟨target, hmiss, hfail⟩ := hchain.1 ⟨[], _, _, rfl, by decide, by simp⟩
    rcases firstMiss_cons_iff.1 hmiss with ⟨heq, -⟩ | ⟨-, hoptional, -⟩
    · cases heq
      exact hfail
    · cases hoptional
  · exact ((strengthens_only_fails .stateOnly).1 links links' hlinks).1
      ⟨_, List.mem_cons_self, _, rfl, by decide⟩
  · rcases (strengthens_only_fails (.offer {})).2 t t' htemplate {} with
      ⟨n, hfail, -⟩ | ⟨text, htext, hsame | hempty⟩
    · rw [hplain] at hfail
      cases hfail
    · obtain rfl := Except.ok.inj (hplain.symm.trans htext)
      exact absurd hsame (by decide +kernel)
    · exact hempty

end OfferLayout
