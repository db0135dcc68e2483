/-
**What a chain of links finds, and why it fails.**

A chain passes two examinations.  The first reads its namespaces only and compares them with the
scope; the second reads the records only.  This module says what each of them yields without
following the links one by one: the first fails with the first namespace that is out of scope, the
second with the first mandatory key at which nothing is found and before which nothing was.

Main definitions:

* `firstOutside` — the first namespace of links that is out of scope;
* `Link.find?` — what a link finds in the records;
* `FirstMiss` — **the mandatory key at which a chain fails**.

Main results:

* `checkLinks_eq` — the first examination fails with the first namespace out of scope;
* `resolveChain_eq_error_iff` — the second one fails with the first missing mandatory key;
* `resolveChain_of_optional` — without mandatory keys it finds what the first link does;
* `resolveChain_congr` — **the second one depends on what the links find only**;
* `resolve_markedText_eq_ok_iff` — the resolution of a placeholder is that of its chain.
-/

import OfferLayout.Expansion.Basic
import OfferLayout.Proofs.Text.Marker

set_option relaxedAutoImplicit false
set_option autoImplicit false

namespace OfferLayout

/-! ### The scope of links -/

/-- The first namespace named by links that is not in scope. -/
def firstOutside (scope : List Namespace) (links : List Link) : Option Namespace :=
  (links.filterMap Link.scope?).find? fun n => n ∉ scope

@[simp] theorem firstOutside_nil (scope : List Namespace) : firstOutside scope [] = none := rfl

theorem firstOutside_append (scope : List Namespace) (links links' : List Link) :
    firstOutside scope (links ++ links') =
      (firstOutside scope links).or (firstOutside scope links') := by
  rw [firstOutside, List.filterMap_append, List.find?_append]
  rfl

/-- Nothing is out of scope exactly when every namespace that is named is in scope. -/
theorem firstOutside_eq_none_iff {scope : List Namespace} {links : List Link} :
    firstOutside scope links = none ↔
      ∀ link ∈ links, ∀ n, link.scope? = some n → n ∈ scope := by
  simp only [firstOutside, List.find?_eq_none, List.mem_filterMap, decide_not, Bool.not_eq_true',
    Bool.not_eq_false, decide_eq_true_eq, forall_exists_index, and_imp]
  constructor
  · intro h link hlink n hn
    exact h n link hlink hn
  · intro h n link hlink hn
    exact h link hlink n hn

/-- What is in scope stays in a greater scope. -/
theorem firstOutside_eq_none_mono {scope scope' : List Namespace} (hsub : scope ⊆ scope')
    {links : List Link} (h : firstOutside scope links = none) :
    firstOutside scope' links = none := by
  rw [firstOutside_eq_none_iff] at h ⊢
  intro link hlink n hn
  exact hsub (h link hlink n hn)

/-- **The examination of the scope** passes if nothing is out of scope, and fails with the first
namespace that is. -/
theorem checkLinks_eq (s : Source) (links : List Link) :
    checkLinks s links =
      match firstOutside s.scope links with
      | none => .ok ()
      | some n => .error (.illegalNamespace n) := by
  induction links with
  | nil => rfl
  | cons link links ih =>
      cases link with
      | literal text => simpa [checkLinks, firstOutside, Link.scope?] using ih
      | keyed target mandatory =>
          by_cases h : target.scope ∈ s.scope
          · simpa [checkLinks, Source.check, firstOutside, Link.scope?, h] using ih
          · simp [checkLinks, Source.check, firstOutside, Link.scope?, h]

/-! ### The first link that finds something -/

/-- What a link finds: a literal its own text, unless it is empty. -/
def Link.find? (s : Source) : Link → Option Found
  | .keyed target _ => target.find? s
  | .literal text => if text.isEmpty then none else some (.text text)

/-- A chain is resolved by what its first link finds; if that is nothing, the link fails if it is
mandatory, and the other links decide otherwise. -/
theorem resolveChain_cons (s : Source) (link : Link) (links : List Link) :
    resolveChain s (link :: links) =
      match link.find? s, link with
      | some found, _ => .ok (some found)
      | none, .keyed target true => .error (.mandatoryEmpty target)
      | none, _ => resolveChain s links := by
  cases link with
  | literal text => by_cases h : text.isEmpty <;> simp [resolveChain, Link.find?, h]
  | keyed target mandatory =>
      cases h : target.find? s <;> cases mandatory <;> simp [resolveChain, Link.find?, h]

/-- **A chain without mandatory keys** does not fail, and finds what its first link does that finds
something. -/
theorem resolveChain_of_optional {s : Source} {links : List Link}
    (h : ∀ link ∈ links, link.isMandatory = false) :
    resolveChain s links = .ok (links.findSome? fun link => link.find? s) := by
  induction links with
  | nil => rfl
  | cons link links ih =>
      obtain ⟨hoptional, htail⟩ := List.forall_mem_cons.1 h
      rw [resolveChain_cons, List.findSome?_cons, ih htail]
      cases link.find? s with
      | some found => rfl
      | none =>
          cases link with
          | literal text => rfl
          | keyed target mandatory =>
              cases hoptional
              rfl

/-- **The first missing mandatory key**: nothing is found there, and every link before it finds
nothing and is not mandatory. -/
def FirstMiss (s : Source) (links : List Link) (target : Target) : Prop :=
  ∃ before after, links = before ++ .keyed target true :: after ∧ target.find? s = none ∧
    ∀ link ∈ before, link.find? s = none ∧ link.isMandatory = false

theorem firstMiss_cons_iff {s : Source} {link : Link} {links : List Link} {target : Target} :
    FirstMiss s (link :: links) target ↔
      (link = .keyed target true ∧ target.find? s = none) ∨
        (link.find? s = none ∧ link.isMandatory = false ∧ FirstMiss s links target) := by
  constructor
  · rintro ⟨before, after, heq, hmiss, hbefore⟩
    cases before with
    | nil =>
        simp only [List.nil_append, List.cons.injEq] at heq
        exact Or.inl ⟨heq.1, hmiss⟩
    | cons first before =>
        simp only [List.cons_append, List.cons.injEq] at heq
        obtain ⟨rfl, rfl⟩ := heq
        obtain ⟨hnone, hoptional⟩ := hbefore link (List.mem_cons_self ..)
        exact Or.inr ⟨hnone, hoptional, before, after, rfl, hmiss,
          fun x hx => hbefore x (List.mem_cons_of_mem _ hx)⟩
  · rintro (⟨rfl, hmiss⟩ | ⟨hnone, hoptional, before, after, rfl, hmiss, hbefore⟩)
    · exact ⟨[], links, rfl, hmiss, by simp⟩
    · refine ⟨link :: before, after, rfl, hmiss, ?_⟩
      rintro x (_ | ⟨_, hx⟩)
      · exact ⟨hnone, hoptional⟩
      · exact hbefore x hx

/-- **A chain fails at its first missing mandatory key**, and for no other reason. -/
theorem resolveChain_eq_error_iff {s : Source} {links : List Link} {e : PlaceholderError} :
    resolveChain s links = .error e ↔
      ∃ target, FirstMiss s links target ∧ e = .mandatoryEmpty target := by
  induction links with
  | nil => simp [resolveChain, FirstMiss]
  | cons link links ih =>
      rw [resolveChain_cons]
      simp only [firstMiss_cons_iff]
      cases hfind : link.find? s with
      | some found =>
          constructor
          · intro h
            cases h
          · rintro ⟨target, ⟨rfl, hmiss⟩ | ⟨hnone, -⟩, -⟩
            · exact absurd (hfind.symm.trans hmiss) (by simp)
            · cases hnone
      | none =>
          cases link with
          | literal text => simpa [Link.isMandatory] using ih
          | keyed target mandatory =>
              have hmiss : target.find? s = none := hfind
              cases mandatory with
              | false => simpa [Link.isMandatory] using ih
              | true =>
                  constructor
                  · intro h
                    cases h
                    exact ⟨target, Or.inl ⟨rfl, hmiss⟩, rfl⟩
                  · rintro ⟨target', ⟨heq, -⟩ | ⟨-, hoptional, -⟩, rfl⟩
                    · cases heq
                      rfl
                    · cases hoptional

/-- **The resolution of a chain depends on what its links find only.** -/
theorem resolveChain_congr {s s' : Source} {links : List Link}
    (h : ∀ link ∈ links, link.find? s = link.find? s') :
    resolveChain s links = resolveChain s' links := by
  induction links with
  | nil => rfl
  | cons link links ih =>
      rw [resolveChain_cons, resolveChain_cons, h link (List.mem_cons_self ..),
        ih fun x hx => h x (List.mem_cons_of_mem link hx)]

/-- The scope does not matter for what a link finds. -/
theorem find?_withScope (s : Source) (scope : List Namespace) (link : Link) :
    link.find? { s with scope } = link.find? s := by
  cases link with
  | literal text => rfl
  | keyed target mandatory => cases target <;> rfl

theorem resolveChain_withScope (s : Source) (scope : List Namespace) (links : List Link) :
    resolveChain { s with scope } links = resolveChain s links :=
  resolveChain_congr fun link _ => find?_withScope s scope link

/-! ### The resolution of a placeholder -/

/-- The text of a placeholder starts and ends with no blank. -/
theorem trim_markedText (expression : List Char) :
    Text.trim (markedText expression) = markedText expression := by
  have hend : markedText expression = ('%' :: '^' :: expression ++ ['^']) ++ ['%'] := by
    simp [markedText]
  rw [Text.trim, markedText, List.cons_append, Text.trimStart_eq_self (by decide),
    ← List.cons_append, ← markedText, hend]
  exact Text.trimEnd_eq_self (by decide)

/-- Marks are removed from the text of a placeholder, and from no other. -/
theorem bind_dropMarker?_eq_some_iff {s body : List Char} :
    (Text.dropMarker? '%' '^' s).bind (Text.dropMarkerEnd? '^' '%') = some body ↔
      s = markedText body := by
  simp only [Option.bind_eq_some_iff, Text.dropMarker?_eq_some_iff,
    Text.dropMarkerEnd?_eq_some_iff, markedText]
  constructor
  · rintro ⟨t, rfl, rfl⟩
    rfl
  · rintro rfl
    exact ⟨_, rfl, rfl⟩

/-- The chain of a placeholder is what stands between its marks. -/
theorem bareChain_markedText (expression : List Char) :
    bareChain (markedText expression) = expression := by
  have hbody := bind_dropMarker?_eq_some_iff.2 (Eq.refl (markedText expression))
  simp only [bareChain, trim_markedText, hbody, Option.getD_some]

/-- What is bound where a chain found something, or nothing. -/
def bindingOf (found : Option Found) : Binding String :=
  (found.map Found.binding).getD (.value "")

/-- **The resolution of a placeholder is that of its chain.** -/
theorem resolve_markedText_eq_ok_iff {s : Source} {expression : List Char} {links : List Link}
    (h : Chain.parse expression = .ok links) {r : Binding String} :
    resolve (String.ofList (markedText expression)) s = .ok r ↔
      firstOutside s.scope links = none ∧
        ∃ found, resolveChain s links = .ok found ∧ r = bindingOf found := by
  simp only [resolve, String.toList_ofList, bareChain_markedText, h, resolveLinks, checkLinks_eq]
  cases firstOutside s.scope links with
  | some n => simp [Except.map]
  | none =>
      cases hfound : resolveChain s links with
      | error e => simp [Except.map]
      | ok found => simp [Except.map, bindingOf, eq_comm]

end OfferLayout
