/-
**The data that an expansion may see.**

A source is a scope together with the records that placeholders are looked up in.  Whether a
namespace may be named depends on the scope alone; what is found under it depends on the records
alone.

Main definitions:

* `Source` — a scope and its records;
* `Source.offer`, `Source.item`, `Source.offerWithItem`, `Source.stateOnly` — the usual sources;
* `Source.check` — whether a namespace is in scope;
* `Source.find?` — the text at a path within a namespace, if there is one and it is not empty.
-/

import OfferLayout.Record.Creative
import OfferLayout.Record.Field
import OfferLayout.Template.Link

set_option relaxedAutoImplicit false
set_option autoImplicit false

namespace OfferLayout

/-- A scope with the records that placeholders are looked up in. -/
structure Source where
  /-- The namespaces that may be named. -/
  scope : List Namespace
  /-- The creative in view. -/
  creative : Option Creative := none
  /-- The catalog item in view. -/
  catalogItem : Option CatalogItem := none
  /-- The response in view. -/
  response : Option ResponseKey := none
deriving DecidableEq

namespace Source

/-! ### The usual sources -/

/-- The source for an offer. -/
def offer (c : Creative) : Source := { scope := Namespace.offerScope, creative := some c }

/-- The source for a catalog item on its own. -/
def item (i : CatalogItem) : Source := { scope := Namespace.catalogScope, catalogItem := some i }

/-- The source for a catalog item of an offer. -/
def offerWithItem (c : Creative) (i : CatalogItem) : Source :=
  { scope := Namespace.fullScope, creative := some c, catalogItem := some i }

/-- The source without any record. -/
def stateOnly : Source := { scope := Namespace.stateScope }

/-- The source with the scope that fits the records at hand. -/
def ofRecords : Option Creative → Option CatalogItem → Source
  | some c, some i => offerWithItem c i
  | some c, none => offer c
  | none, some i => item i
  | none, none => stateOnly

@[simp] theorem creative_ofRecords (c : Option Creative) (i : Option CatalogItem) :
    (ofRecords c i).creative = c := by
  cases c <;> cases i <;> rfl

@[simp] theorem catalogItem_ofRecords (c : Option Creative) (i : Option CatalogItem) :
    (ofRecords c i).catalogItem = i := by
  cases c <;> cases i <;> rfl

/-! ### Scope -/

/-- Whether a namespace may be named. -/
def check (s : Source) (n : Namespace) : Except PlaceholderError Unit :=
  if n ∈ s.scope then .ok () else .error (.illegalNamespace n)

/-! ### Looking up -/

/-- The anchor of a link, if it has both a title and an address. -/
def anchor? (l : CreativeLink) : Option String :=
  if l.title.isEmpty || l.url.isEmpty then none
  else some ("<a href=\"" ++ l.url ++ "\">" ++ l.title ++ "</a>")

/-- The text at a path within a part of the data, which may be empty. -/
def findText? (s : Source) : DataSpace → String → Option String
  | .catalogItem, path => s.catalogItem.bind fun i => i.asField.walk path
  | .creativeCopy, path => s.creative.bind fun c => (Field.map c.copy).walk path
  | .creativeResponse, path => do
      let c ← s.creative
      let key ← s.response
      let r ← c.responses.get? key
      r.asField.walk path
  | .creativeLink, path => s.creative.bind fun c => (c.links.get? path).bind anchor?
  | .imageCarousel, path => s.creative.bind fun c => (c.images.get? path).map CreativeImage.light

/-- **The text at a path within a part of the data**, if it is not empty. -/
def find? (s : Source) (space : DataSpace) (path : String) : Option String :=
  (s.findText? space path).filter fun text => !text.isEmpty

/-- The text at a path within a namespace; the state has no text. -/
def lookup (s : Source) : Namespace → String → Option String
  | .data space, path => s.find? space path
  | .state, _ => none

/-- What is found is not empty. -/
theorem ne_empty_of_find? {s : Source} {space : DataSpace} {path text : String}
    (h : s.find? space path = some text) : text ≠ "" := by
  have := (Option.filter_eq_some_iff.1 h).2
  simpa using this

end Source

end OfferLayout
