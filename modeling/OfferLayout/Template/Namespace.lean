/-
**The namespaces that a placeholder may name.**

A placeholder refers to data of an offer, under one of five namespaces, or to the live state of the
page.  Which of them are in scope depends on what is being rendered.

Main definitions:

* `DataSpace`, `Namespace` — the namespaces;
* `Namespace.name` — the spelling of a namespace;
* `Namespace.offerScope`, `Namespace.catalogScope`, `Namespace.fullScope`, `Namespace.stateScope` —
  the usual scopes.

Main results:

* `DataSpace.ofSegment?_segment` — a data namespace is found by its own segment.
-/

set_option relaxedAutoImplicit false
set_option autoImplicit false

namespace OfferLayout

/-- A part of the data of an offer. -/
inductive DataSpace where
  /-- The fields of the catalog item. -/
  | catalogItem
  /-- The copy of the creative. -/
  | creativeCopy
  /-- The fields of one response of the creative. -/
  | creativeResponse
  /-- The links of the creative. -/
  | creativeLink
  /-- The images of the creative. -/
  | imageCarousel
deriving DecidableEq, Repr

namespace DataSpace

/-- The segment that names the part. -/
def segment : DataSpace → String
  | .catalogItem => "catalogItem"
  | .creativeCopy => "creativeCopy"
  | .creativeResponse => "creativeResponse"
  | .creativeLink => "creativeLink"
  | .imageCarousel => "dataImageCarousel"

/-- All parts. -/
def all : List DataSpace :=
  [.catalogItem, .creativeCopy, .creativeResponse, .creativeLink, .imageCarousel]

/-- The part that a segment names. -/
def ofSegment? (s : String) : Option DataSpace := all.find? fun d => d.segment = s

/-- **A data namespace is found by its own segment.** -/
@[simp] theorem ofSegment?_segment (d : DataSpace) : ofSegment? d.segment = some d := by
  cases d <;> decide

/-- Only its own segment names a data namespace. -/
theorem segment_of_ofSegment? {s : String} {d : DataSpace} (h : ofSegment? s = some d) :
    d.segment = s := by
  simpa using List.find?_some h

end DataSpace

/-- What a placeholder may refer to. -/
inductive Namespace where
  /-- Data of the offer. -/
  | data (space : DataSpace)
  /-- Live state of the page. -/
  | state
deriving DecidableEq, Repr

namespace Namespace

/-- The spelling of a namespace. -/
def name : Namespace → String
  | .data space => "DATA." ++ space.segment
  | .state => "STATE"

/-- All namespaces. -/
def all : List Namespace := DataSpace.all.map .data ++ [.state]

/-- The namespace with the given spelling. -/
def named? (s : String) : Option Namespace := all.find? fun n => n.name = s

/-! ### Scopes -/

/-- The namespaces in scope where an offer is rendered. -/
def offerScope : List Namespace :=
  [.data .creativeCopy, .data .creativeResponse, .data .creativeLink, .data .imageCarousel, .state]

/-- The namespaces in scope where a catalog item is rendered on its own. -/
def catalogScope : List Namespace := [.data .catalogItem, .state]

/-- The namespaces in scope where a catalog item of an offer is rendered. -/
def fullScope : List Namespace :=
  [.data .catalogItem, .data .creativeCopy, .data .creativeResponse, .data .creativeLink,
    .data .imageCarousel, .state]

/-- The namespaces in scope where neither is rendered. -/
def stateScope : List Namespace := [.state]

/-- Every namespace is in the full scope. -/
theorem mem_fullScope (n : Namespace) : n ∈ fullScope := by
  rcases n with d | _
  · cases d <;> decide
  · decide

end Namespace

end OfferLayout
