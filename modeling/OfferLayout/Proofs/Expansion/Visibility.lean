/-
**Only what is in scope is read.**

Two sources with the same scope may hold different records.  An expansion cannot tell them apart
unless they differ at a key that it names and that is in scope: neither its text, nor its segments,
nor the fault with which it fails.  A record that nothing in scope can reach may as well be missing.

Main definitions:

* `AgreeAt` — two sources find the same at the keys of links that are in scope;
* `Indistinguishable` — **two sources that no expansion tells apart**;
* `Source.visible` — a source without the records that its scope cannot reach.

Main results:

* `substitute_congr`, `resolve_congr` — a template, or an expression, depends on what its links find
  in scope;
* `Source.lookup_visible` — what is in scope is found in the visible part;
* `indistinguishable_of_visible` — **sources with the same visible part are indistinguishable**;
* `expansions_noninterference` — the whole of it.
-/

import OfferLayout.Proofs.Expansion.Scope

set_option relaxedAutoImplicit false
set_option autoImplicit false

namespace OfferLayout

/-! ### Sources that agree -/

/-- **Two sources agree at links**: they find the same at every key of the data that one of the
links names, if it is in scope. -/
def AgreeAt (s s' : Source) (links : List Link) : Prop :=
  ∀ space path mandatory, .keyed (.data space path) mandatory ∈ links → .data space ∈ s.scope →
    s.lookup (.data space) path = s'.lookup (.data space) path

/-- **Two sources that no expansion tells apart**, by its results or by its faults. -/
def Indistinguishable (s s' : Source) : Prop :=
  ∀ text, expansions text s = expansions text s' ∧ resolve text s = resolve text s'

variable {s s' : Source}

/-- Where nothing is out of scope, sources that agree find the same at every link. -/
theorem AgreeAt.find?_eq {links : List Link} (h : AgreeAt s s' links)
    (hscope : firstOutside s.scope links = none) : ∀ link ∈ links, link.find? s = link.find? s' := by
  intro link hlink
  cases link with
  | literal text => rfl
  | keyed target mandatory =>
      cases target with
      | state key => rfl
      | data space path =>
          have hin : .data space ∈ s.scope :=
            firstOutside_eq_none_iff.1 hscope _ hlink _ rfl
          have hsame : s.find? space path = s'.find? space path :=
            h space path mandatory hlink hin
          simp only [Link.find?, Target.find?, hsame]

/-- A chain passes or fails alike in both sources, and finds the same. -/
theorem resolveLinks_congr (hscope : s.scope = s'.scope) {links : List Link}
    (h : AgreeAt s s' links) : resolveLinks s links = resolveLinks s' links := by
  simp only [resolveLinks, checkLinks_eq, ← hscope]
  cases hout : firstOutside s.scope links with
  | some n => rfl
  | none => rw [resolveChain_congr (h.find?_eq hout)]

/-- **An expression depends on what its links find in scope.** -/
theorem resolve_congr (hscope : s.scope = s'.scope) {expression : String}
    (h : ∀ links, Chain.parse (bareChain expression.toList) = .ok links → AgreeAt s s' links) :
    resolve expression s = resolve expression s' := by
  simp only [resolve]
  cases hparse : Chain.parse (bareChain expression.toList) with
  | error e => rfl
  | ok links => simp only [resolveLinks_congr hscope (h links hparse)]

/-- **A template depends on what its links find in scope.** -/
theorem substitute_congr (hscope : s.scope = s'.scope) {t : String}
    (h : ∀ ps, placeholdersOf t = .ok ps → AgreeAt s s' (ps.flatMap Placeholder.links)) :
    substitute t s = substitute t s' := by
  simp only [substitute, Template.parse]
  cases hmarks : Template.parseMarks (cutMarks t.toList).marks with
  | error e => rfl
  | ok marks =>
      have hagree := h _ (placeholdersOf_eq_ok_iff.2 ⟨marks, hmarks, rfl⟩)
      rw [flatMap_links_placeholdersFrom] at hagree
      simp only [Except.map, Template.fill, checkMarks_eq, checkLinks_eq, ← hscope]
      cases hout : firstOutside s.scope (marks.flatMap Mark.links) with
      | some n => rfl
      | none =>
          -- past the gate every link is in scope, so each chain finds the same in both sources
          have hchain : ∀ m ∈ marks, resolveChain s m.links = resolveChain s' m.links := by
            intro m hm
            refine resolveChain_congr fun link hlink => ?_
            exact hagree.find?_eq hout link (List.mem_flatMap.2 ⟨m, hm, hlink⟩)
          simp only [fillMarks_congr hchain]

/-- Sources that find the same under every namespace in scope are indistinguishable. -/
theorem indistinguishable_of_lookup (hscope : s.scope = s'.scope)
    (h : ∀ n ∈ s.scope, ∀ path, s.lookup n path = s'.lookup n path) : Indistinguishable s s' := by
  have hagree : ∀ links, AgreeAt s s' links := fun _ space path _ _ hin => h (.data space) hin path
  intro text
  exact ⟨expansions_congr (substitute_congr hscope fun _ _ => hagree _),
    resolve_congr hscope fun _ _ => hagree _⟩

/-! ### Records out of reach -/

/-- Whether what a namespace names is found in the creative. -/
def Namespace.readsCreative : Namespace → Bool
  | .data .catalogItem => false
  | .data _ => true
  | .state => false

namespace Source

/-- **What is visible of a source**: its scope, and the records that something in scope can
reach. -/
def visible (s : Source) : Source where
  scope := s.scope
  creative := if s.scope.any Namespace.readsCreative then s.creative else none
  catalogItem := if .data .catalogItem ∈ s.scope then s.catalogItem else none
  response := if .data .creativeResponse ∈ s.scope then s.response else none

@[simp] theorem scope_visible (s : Source) : s.visible.scope = s.scope := rfl

theorem creative_visible {s : Source} {n : Namespace} (hn : n ∈ s.scope)
    (h : n.readsCreative = true) : s.visible.creative = s.creative :=
  if_pos (List.any_eq_true.2 ⟨n, hn, h⟩)

/-- **What is in scope is found in the visible part.** -/
theorem lookup_visible {s : Source} {n : Namespace} (hn : n ∈ s.scope) (path : String) :
    s.visible.lookup n path = s.lookup n path := by
  cases n with
  | state => rfl
  | data space =>
      have htext : s.visible.findText? space path = s.findText? space path := by
        cases space with
        | catalogItem =>
            have hitem : s.visible.catalogItem = s.catalogItem := if_pos hn
            rw [findText?, findText?, hitem]
        | creativeResponse =>
            have hkey : s.visible.response = s.response := if_pos hn
            rw [findText?, findText?, creative_visible hn rfl, hkey]
        | creativeCopy => rw [findText?, findText?, creative_visible hn rfl]
        | creativeLink => rw [findText?, findText?, creative_visible hn rfl]
        | imageCarousel => rw [findText?, findText?, creative_visible hn rfl]
      simp only [lookup, find?, htext]

end Source

/-- **Sources with the same visible part are indistinguishable.** -/
theorem indistinguishable_of_visible (h : s.visible = s'.visible) : Indistinguishable s s' := by
  have hscope : s.scope = s'.scope := by
    rw [← Source.scope_visible s, h, Source.scope_visible]
  refine indistinguishable_of_lookup hscope fun n hn path => ?_
  rw [← Source.lookup_visible hn, h, Source.lookup_visible (hscope ▸ hn)]

/-- **Noninterference.**  For two sources with the same scope: a template has the same expansions,
and an expression the same resolution, if the sources find the same at those of its data links that
are in scope; this includes the faults.  So a record that nothing in scope can reach makes no
difference to anything: neither a catalog item beside an offer that is rendered alone, nor a
creative or a response beside a catalog item that is rendered alone. -/
theorem expansions_noninterference (s s' : Source) :
    (s.scope = s'.scope →
      (∀ t, (∀ ps, placeholdersOf t = .ok ps → AgreeAt s s' (ps.flatMap Placeholder.links)) →
        expansions t s = expansions t s') ∧
      ∀ expression, (∀ links, Chain.parse (bareChain expression.toList) = .ok links →
          AgreeAt s s' links) →
        resolve expression s = resolve expression s') ∧
    (s.visible = s'.visible → Indistinguishable s s') ∧
    (∀ c item, Indistinguishable { Source.offer c with catalogItem := item } (.offer c)) ∧
    ∀ i c response,
      Indistinguishable { Source.item i with creative := c, response := response } (.item i) := by
  refine ⟨?_, indistinguishable_of_visible, ?_, ?_⟩
  · intro hscope
    exact ⟨fun t h => expansions_congr (substitute_congr hscope h),
      fun expression h => resolve_congr hscope h⟩
  · intro c item
    exact indistinguishable_of_visible rfl
  · intro i c response
    exact indistinguishable_of_visible rfl

/-- Two offers with one title: where the title is asked for, neither the rest of the copy nor a
catalog item matters, and where the catalog item is asked for, both fail alike. -/
theorem expansions_noninterference_title :
    let copy (note : String) : Creative :=
      { copy := Dict.ofList [("note", note), ("title", "Hello")] }
    let s := Source.offer (copy "a")
    let s' := { Source.offer (copy "b") with catalogItem := some {} }
    s.scope = s'.scope ∧
      expand "%^DATA.creativeCopy.title!^%, you" s = .ok "Hello, you" ∧
      expand "%^DATA.creativeCopy.title!^%, you" s' = .ok "Hello, you" ∧
      expand "%^DATA.creativeCopy.note^%" s ≠ expand "%^DATA.creativeCopy.note^%" s' ∧
      resolve "DATA.catalogItem.title" s' = .error (.illegalNamespace (.data .catalogItem)) := by
  intro copy s s'
  obtain ⟨hagree, -, hitem, -⟩ := expansions_noninterference s s'
  have hps : placeholdersOf "%^DATA.creativeCopy.title!^%, you" =
      .ok [⟨"%^DATA.creativeCopy.title!^%", 0, 28, [.keyed (.data .creativeCopy "title") true]⟩] := by
    decide +kernel
  have hsame := (hagree rfl).1 "%^DATA.creativeCopy.title!^%, you" (by
    intro ps h
    obtain rfl := Except.ok.inj (hps.symm.trans h)
    intro space path mandatory hlink _
    obtain ⟨⟨rfl, rfl⟩, rfl⟩ : (space = .creativeCopy ∧ path = "title") ∧ mandatory = true := by
      simpa using hlink
    decide +kernel)
  have hs : expand "%^DATA.creativeCopy.title!^%, you" s = .ok "Hello, you" := by decide +kernel
  have hplain : expand "%^DATA.creativeCopy.title!^%, you" s =
      expand "%^DATA.creativeCopy.title!^%, you" s' := congrArg Expansions.plain hsame
  refine ⟨rfl, hs, hplain.symm.trans hs, by decide +kernel, ?_⟩
  rw [(hitem (copy "b") (some {}) "DATA.catalogItem.title").2]
  decide +kernel

end OfferLayout
