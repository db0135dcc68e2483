/-
**Expanding templates.**

Every namespace that a template names is checked against the scope before anything is looked up.
Then each placeholder is resolved: its links are tried from left to right, and the first that finds
something wins.  A text that is found replaces the placeholder and is not read again; live state
keeps its place until it is rendered; a placeholder that finds nothing disappears.

Main definitions:

* `Found` — what a chain of links finds;
* `checkLinks`, `resolveChain`, `resolveLinks` — the scope of a chain, and its resolution;
* `resolve` — the resolution of one expression;
* `Template.fill`, `substitute` — a template with its placeholders resolved;
* `bindTemplate`, `expand`, `expandWithState` — **the three ways to expand a template**.

Main results:

* `expand_eq_of_bindTemplate`, `expandWithState_eq_of_bindTemplate` — the ways agree where
  `bindTemplate` succeeds.
-/

import OfferLayout.Expansion.Bound
import OfferLayout.Expansion.Source
import OfferLayout.Template.Basic

set_option relaxedAutoImplicit false
set_option autoImplicit false

namespace OfferLayout

/-! ### Chains -/

/-- What a chain of links finds. -/
inductive Found where
  /-- A text. -/
  | text (s : String)
  /-- Live state. -/
  | state (key : StateKey)
deriving DecidableEq, Repr

/-- Checks that every namespace that links name is in scope; the first that is not is the fault. -/
def checkLinks (s : Source) : List Link → Except PlaceholderError Unit
  | [] => .ok ()
  | .literal _ :: rest => checkLinks s rest
  | .keyed target _ :: rest =>
      match s.check target.scope with
      | .error e => .error e
      | .ok () => checkLinks s rest

/-- What is found at a target. -/
def Target.find? (s : Source) : Target → Option Found
  | .data space path => (s.find? space path).map .text
  | .state key => (StateKey.parse? key).map .state

/-- What the links of a chain find.  A mandatory key at which nothing is found ends the search. -/
def resolveChain (s : Source) : List Link → Except PlaceholderError (Option Found)
  | [] => .ok none
  | .literal text :: rest => if text.isEmpty then resolveChain s rest else .ok (some (.text text))
  | .keyed target mandatory :: rest =>
      match target.find? s with
      | some found => .ok (some found)
      | none => if mandatory then .error (.mandatoryEmpty target) else resolveChain s rest

/-- The binding of what is found: a text, or the name of the live state. -/
def Found.binding : Found → Binding String
  | .text s => .value s
  | .state key => .state key.name

/-- **The resolution of a chain of links**, its scope checked first. -/
def resolveLinks (s : Source) (links : List Link) :
    Except PlaceholderError (Option (Binding String)) :=
  match checkLinks s links with
  | .error e => .error e
  | .ok () => (resolveChain s links).map fun found => found.map Found.binding

/-- The chain of an expression that may stand between its two marks. -/
def bareChain (expression : List Char) : List Char :=
  let trimmed := Text.trim expression
  ((Text.dropMarker? '%' '^' trimmed).bind (Text.dropMarkerEnd? '^' '%')).getD trimmed

/-- **The resolution of one expression**; one that finds nothing is the empty text. -/
def resolve (expression : String) (s : Source) : Except PlaceholderError (Binding String) :=
  match Chain.parse (bareChain expression.toList) with
  | .error e => .error e
  | .ok links => (resolveLinks s links).map fun found => found.getD (.value "")

/-! ### Templates -/

namespace Template

/-- Checks the scope of every placeholder of a template. -/
def checkMarks (s : Source) : List Mark → Except PlaceholderError Unit
  | [] => .ok ()
  | m :: rest =>
      match checkLinks s m.links with
      | .error e => .error e
      | .ok () => checkMarks s rest

end Template

/-- Adds what a placeholder found. -/
def BoundText.pushFound (b : BoundText) (raw : String) : Option Found → BoundText
  | none => b
  | some (.text s) => b.pushText s
  | some (.state key) => b.pushState raw key

namespace Template

/-- Adds the placeholders of a template and the text before each. -/
def fillMarks (s : Source) (b : BoundText) : List Mark → Except PlaceholderError BoundText
  | [] => .ok b
  | m :: rest =>
      match resolveChain s m.links with
      | .error e => .error e
      | .ok found => fillMarks s ((b.pushText (String.ofList m.gap)).pushFound m.raw found) rest

/-- **A template with its placeholders resolved.** -/
def fill (t : Template) (s : Source) : Except PlaceholderError BoundText :=
  match checkMarks s t.marks with
  | .error e => .error e
  | .ok () => (fillMarks s .empty t.marks).map fun b => b.pushText (String.ofList t.rest)

end Template

/-- The text of a template with its placeholders resolved. -/
def substitute (template : String) (s : Source) : Except PlaceholderError BoundText :=
  match Template.parse template with
  | .error e => .error e
  | .ok t => t.fill s

/-- The result where an error that collapses gives the empty text. -/
def collapse : Except PlaceholderError BoundText → Except PlaceholderError BoundText
  | .ok b => .ok b
  | .error e => if e.collapses then .ok .empty else .error e

/-- A text as a binding: it is fixed unless it awaits live state. -/
def BoundText.binding (b : BoundText) : Binding BoundText := if b.hasState then .state b else .value b

/-- **The binding of a template.** -/
def bindTemplate (template : String) (s : Source) : Except PlaceholderError (Binding BoundText) :=
  (substitute template s).map BoundText.binding

/-- **The text of a template**, with live state left as it stands. -/
def expand (template : String) (s : Source) : Except PlaceholderError String :=
  (collapse (substitute template s)).map BoundText.text

/-- **The text of a template**, with live state filled in. -/
def expandWithState (template : String) (s : Source) (v : StateValues) :
    Except PlaceholderError String :=
  (collapse (substitute template s)).map fun b => b.render v

@[simp] theorem inner_binding (b : BoundText) : b.binding.inner = b := by
  unfold BoundText.binding
  split <;> rfl

@[simp] theorem isState_binding (b : BoundText) : b.binding.isState = b.hasState := by
  unfold BoundText.binding
  split <;> simp_all [Binding.isState]

/-- Where `bindTemplate` succeeds, its text is the expansion. -/
theorem expand_eq_of_bindTemplate {template : String} {s : Source} {b : Binding BoundText}
    (h : bindTemplate template s = .ok b) : expand template s = .ok b.inner.text := by
  unfold bindTemplate at h
  cases hs : substitute template s with
  | error e => simp [hs, Except.map] at h
  | ok t =>
      simp only [hs, Except.map, Except.ok.injEq] at h
      simp [expand, hs, collapse, Except.map, ← h]

/-- Where `bindTemplate` succeeds, its rendered text is the expansion with state. -/
theorem expandWithState_eq_of_bindTemplate {template : String} {s : Source} {b : Binding BoundText}
    (h : bindTemplate template s = .ok b) (v : StateValues) :
    expandWithState template s v = .ok (b.inner.render v) := by
  unfold bindTemplate at h
  cases hs : substitute template s with
  | error e => simp [hs, Except.map] at h
  | ok t =>
      simp only [hs, Except.map, Except.ok.injEq] at h
      simp [expandWithState, hs, collapse, Except.map, ← h]

end OfferLayout
