/-
**Snapshots of a view.**

A predicate is tested against a snapshot of everything it may look at: the progress through the
items, the position being rendered, the width of the view and its breakpoints, the custom state, and
the records in view.

Main definitions:

* `CustomState` — numbers by position and key;
* `Snapshot` — a snapshot;
* `Snapshot.custom?` — the custom state at the position of the snapshot;
* `Snapshot.source`, `Snapshot.values` — what templates are expanded with;
* `StateDocument` — a snapshot as it is written down.

Main results:

* `CustomState.get?_set`, `CustomState.get?_eq_none_iff` — what is found in the custom state.
-/

import OfferLayout.Expansion.Source
import OfferLayout.Expansion.Bound
import OfferLayout.Predicate.Breakpoint

set_option relaxedAutoImplicit false
set_option autoImplicit false

namespace OfferLayout

open Json (Value)

/-! ### Custom state -/

/-- Numbers by position and key, the latest entry first.  An entry without a position is seen only
where there is no position. -/
abbrev CustomState : Type := List ((Option Int32 × String) × Int32)

namespace CustomState

/-- Adds an entry, which hides earlier ones at its position and key. -/
def set (c : CustomState) (position : Option Int32) (key : String) (value : Int32) : CustomState :=
  ((position, key), value) :: c

/-- The entry at a position and key. -/
def get? (c : CustomState) (position : Option Int32) (key : String) : Option Int32 :=
  (c.find? fun e => e.1 = (position, key)).map fun e => e.2

/-- An entry that is added is found at its position and key, and hides nothing else. -/
theorem get?_set (c : CustomState) (position position' : Option Int32) (key key' : String)
    (value : Int32) :
    (c.set position key value).get? position' key' =
      if (position, key) = (position', key') then some value else c.get? position' key' := by
  rw [set, get?, List.find?_cons]
  by_cases h : (position, key) = (position', key')
  · simp [h]
  · simp [h, get?]

/-- Nothing is found exactly where there is no entry. -/
theorem get?_eq_none_iff {c : CustomState} {position : Option Int32} {key : String} :
    c.get? position key = none ↔ ∀ value, ((position, key), value) ∉ c := by
  rw [get?, Option.map_eq_none_iff, List.find?_eq_none]
  constructor
  · intro h value hmem
    simpa using h _ hmem
  · rintro h ⟨name, value⟩ hmem heq
    obtain rfl : name = (position, key) := by simpa using heq
    exact h value hmem

end CustomState

/-! ### Snapshots -/

/-- Everything a predicate may look at. -/
structure Snapshot where
  /-- The index of the item in view, from zero. -/
  progress : Int32 := 0
  /-- The number of items. -/
  total : Int32 := 1
  /-- The position of the part being rendered, if it has one. -/
  position : Option Int32 := none
  /-- The width of the view. -/
  width : Width := .zero
  /-- The breakpoints of the layout. -/
  breakpoints : Breakpoints := ∅
  /-- Whether the view is dark. -/
  darkMode : Bool := false
  /-- The custom state. -/
  customState : CustomState := []
  /-- The creative in view. -/
  creative : Option Creative := none
  /-- The catalog item in view. -/
  catalogItem : Option CatalogItem := none

namespace Snapshot

/-- The custom state at a key, at the position of the snapshot. -/
def custom? (s : Snapshot) (key : String) : Option Int32 := s.customState.get? s.position key

/-- The source that the records in view make up. -/
def source (s : Snapshot) : Source := Source.ofRecords s.creative s.catalogItem

/-- The live state: negative numbers count as zero. -/
def values (s : Snapshot) : StateValues where
  indicatorPosition := UInt64.ofNat s.progress.toInt.toNat
  totalOffers := UInt64.ofNat s.total.toInt.toNat

end Snapshot

/-! ### Snapshots as documents -/

/-- An entry of the custom state, as it is written down. -/
structure CustomEntry where
  /-- The position. -/
  position : Option Int32
  /-- The key. -/
  key : String
  /-- The number. -/
  value : Int32
deriving DecidableEq, Repr

/-- The entry that a document describes. -/
def CustomEntry.ofValue? (v : Value) : Option CustomEntry := do
  let f ← v.fields? ["position", "key", "value"]
  let position ← f.optional? "position" Value.int32?
  let key ← f.required? "key" Value.string?
  let value ← f.required? "value" Value.int32?
  return { position, key, value }

/-- The custom state of a list of entries, later ones hiding earlier ones. -/
def CustomState.ofEntries (entries : List CustomEntry) : CustomState :=
  entries.foldl (fun c e => c.set e.position e.key e.value) []

/-- A snapshot as it is written down, without its records. -/
structure StateDocument where
  /-- The index of the item in view, from zero. -/
  currentProgress : Int32 := 0
  /-- The number of items. -/
  totalItems : Option Int32 := none
  /-- The position of the part being rendered. -/
  position : Option Int32 := none
  /-- The width of the view. -/
  width : Width := .zero
  /-- Whether the view is dark. -/
  darkMode : Bool := false
  /-- The breakpoints. -/
  breakpoints : Option Breakpoints := none
  /-- The entries of the custom state. -/
  customState : List CustomEntry := []

/-- The snapshot that a document describes; every field has a default. -/
def StateDocument.ofValue? (v : Value) : Option StateDocument := do
  let f ← v.fields? ["currentProgress", "totalItems", "position", "width", "darkMode",
    "breakpoints", "customState"]
  let currentProgress ← f.defaulted? "currentProgress" Value.int32? 0
  let totalItems ← f.optional? "totalItems" Value.int32?
  let position ← f.optional? "position" Value.int32?
  let width ← f.defaulted? "width" (fun v => v.number?.map Width.ofNumber) .zero
  let darkMode ← f.defaulted? "darkMode" Value.bool? false
  let breakpoints ← f.optional? "breakpoints" (Value.dict? Value.uint32?)
  let customState ← f.defaulted? "customState" (Value.list? CustomEntry.ofValue?) []
  return { currentProgress, totalItems, position, width, darkMode, breakpoints, customState }

end OfferLayout
