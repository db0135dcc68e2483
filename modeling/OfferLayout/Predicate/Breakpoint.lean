/-
**Breakpoints.**

The breakpoints of a layout, by increasing width and, for equal widths, by name, divide the widths
of a view: a view belongs to the first breakpoint that is wider than it, or to the last one if there
is none.

Main definitions:

* `Breakpoints` — named widths in pixels;
* `Breakpoints.ordered` — the breakpoints in order;
* `Breakpoints.ordinalOf?` — the place of a named breakpoint in the order;
* `Breakpoints.at?` — **the breakpoint of a view**.

Main results:

* `Breakpoints.mem_ordered` — ordering neither adds nor loses a breakpoint;
* `Breakpoints.ordinalOf?_eq_none_iff`, `Breakpoints.at?_eq_none_iff` — when there is no place, and
  no breakpoint.
-/

import OfferLayout.Number.Width

set_option relaxedAutoImplicit false
set_option autoImplicit false

namespace OfferLayout

/-- Named widths in pixels. -/
abbrev Breakpoints : Type := Dict UInt32

namespace Breakpoints

/-- Whether a breakpoint comes no later than another: by width, then by name. -/
def comesFirst (a b : String × UInt32) : Bool :=
  a.2 < b.2 || a.2 = b.2 && a.1 ≤ b.1

/-- The breakpoints in order. -/
def ordered (b : Breakpoints) : List (String × UInt32) := b.entries.mergeSort comesFirst

/-- Ordering neither adds nor loses a breakpoint. -/
theorem mem_ordered {b : Breakpoints} {e : String × UInt32} : e ∈ b.ordered ↔ e ∈ b.entries :=
  List.mem_mergeSort

theorem length_ordered (b : Breakpoints) : b.ordered.length = b.entries.length :=
  List.length_mergeSort _

/-- The place of a named breakpoint in the order. -/
def ordinalOf? (b : Breakpoints) (name : String) : Option Nat :=
  b.ordered.findIdx? fun e => e.1 = name

/-- A name has a place in the order unless no breakpoint bears it. -/
theorem ordinalOf?_eq_none_iff {b : Breakpoints} {name : String} :
    b.ordinalOf? name = none ↔ ∀ e ∈ b.entries, e.1 ≠ name := by
  simp [ordinalOf?, List.findIdx?_eq_none_iff, mem_ordered]

/-- Whether a breakpoint is wider than a view. -/
def exceeds (width : Width) (e : String × UInt32) : Bool := width.lt (.ofInt e.2.toNat)

/-- The place of the breakpoint of a view. -/
def indexAt (b : Breakpoints) (width : Width) : Nat :=
  (b.ordered.findIdx? (exceeds width)).getD (b.ordered.length - 1)

/-- **The breakpoint of a view**: its place in the order and its name.  There is one unless there
are no breakpoints at all. -/
def at? (b : Breakpoints) (width : Width) : Option (Nat × String) :=
  b.ordered[b.indexAt width]?.map fun e => (b.indexAt width, e.1)

theorem indexAt_lt {b : Breakpoints} (h : b.ordered ≠ []) (width : Width) :
    b.indexAt width < b.ordered.length := by
  unfold indexAt
  cases hfind : b.ordered.findIdx? (exceeds width) with
  | none => exact Nat.sub_lt (List.length_pos_iff.2 h) Nat.one_pos
  | some i => exact (List.findIdx?_eq_some_iff_getElem.1 hfind).1

/-- **A view belongs to a breakpoint** unless there are none. -/
theorem at?_eq_none_iff {b : Breakpoints} {width : Width} :
    b.at? width = none ↔ b.entries = [] := by
  rw [at?, Option.map_eq_none_iff, List.getElem?_eq_none_iff, ← List.length_eq_zero_iff,
    ← length_ordered]
  constructor
  · intro hle
    apply Decidable.byContradiction
    intro hne
    exact Nat.not_lt.2 hle (indexAt_lt (mt List.length_eq_zero_iff.2 hne) width)
  · intro hzero
    rw [hzero]
    exact Nat.zero_le _

end Breakpoints

end OfferLayout
