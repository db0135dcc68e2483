/-
**Which documents are layouts, and what is wrong with the others.**

A layout is loaded as a whole or not at all.  Of the faults that a document may have, those of the
breakpoints come first: they have to be there, to be an object, and to be widths in pixels; of those
that are not, the first by the bytes of its name is reported.  Then come the slots, which have to be
an array, and of which the first that cannot be read is reported.  What is loaded has the
breakpoints and the slots of the document, one by one; the other members cause no fault.

Main definitions:

* `Layout.IsPixels` — a value is a width in pixels;
* `Layout.HasBreakpoints` — the breakpoints of a document are widths in pixels;
* `Layout.IsReadFrom` — **what a layout has from its document**;
* `Layout.Refuses` — **the documents that are refused**, and the fault that is reported.

Main results:

* `Layout.breakpointsOf_eq_ok_iff`, `Layout.breakpointsOf_eq_error_iff` — reading the breakpoints;
* `Layout.slotsFrom_eq_ok_iff`, `Layout.slotsFrom_eq_error_iff` — reading the slots;
* `Layout.ofValue?_eq_ok_iff`, `Layout.ofValue?_eq_error_iff` — reading the document;
* `Layout.loading_is_all_or_nothing` — **all of it together**.
-/

import OfferLayout.Layout
import OfferLayout.Proofs.Dict
import OfferLayout.Proofs.FirstFault
import OfferLayout.Proofs.Json.Record
import OfferLayout.Proofs.Text.ByteOrder
import OfferLayout.Proofs.Text.Numeral

set_option relaxedAutoImplicit false
set_option autoImplicit false

namespace OfferLayout

open Json (Value)

namespace Layout

/-! ### Widths in pixels -/

/-- **A value is a width in pixels**: an integer that an unsigned word of 32 bits holds. -/
def IsPixels (v : Value) : Prop := ∃ n : Nat, v = .ofNat n ∧ n < 4294967296

theorem uint32?_eq_some_iff {v : Value} {px : UInt32} :
    v.uint32? = some px ↔ v = .ofNat px.toNat := by
  rw [Value.uint32?, Value.ofNat]
  cases v with
  | number n => cases n <;> simp [Value.integer?, Text.toUInt32?_eq_some_iff]
  | _ => simp [Value.integer?]

theorem ofNat_toNat_inj {px px' : UInt32} :
    Value.ofNat px.toNat = Value.ofNat px'.toNat ↔ px = px' := by
  rw [Value.ofNat, Value.ofNat, Value.number.injEq, Json.Number.integer.injEq, Int.natCast_inj,
    UInt32.toNat_inj]

theorem isPixels_iff {v : Value} : IsPixels v ↔ ∃ px : UInt32, v = .ofNat px.toNat := by
  constructor
  · rintro ⟨n, rfl, hn⟩
    exact ⟨UInt32.ofNat n, by rw [UInt32.toNat_ofNat_of_lt' hn]⟩
  · rintro ⟨px, rfl⟩
    exact ⟨px.toNat, rfl, px.toNat_lt⟩

/-- The width at a name. -/
def pixelWidth (m : String × Value) : Except LayoutError (String × UInt32) :=
  match m.2.uint32? with
  | none => .error (.notPixels m.1)
  | some px => .ok (m.1, px)

theorem pixelWidth_eq_ok_iff {m : String × Value} {w : String × UInt32} :
    pixelWidth m = .ok w ↔ m.1 = w.1 ∧ m.2 = .ofNat w.2.toNat := by
  obtain ⟨name, px⟩ := w
  rw [pixelWidth, ← uint32?_eq_some_iff]
  cases m.2.uint32? <;> simp

theorem exists_pixelWidth_eq_ok_iff {m : String × Value} :
    (∃ w, pixelWidth m = .ok w) ↔ IsPixels m.2 := by
  simp only [pixelWidth_eq_ok_iff, isPixels_iff, Prod.exists, exists_and_left, exists_eq_left']

theorem pixelWidth_eq_error_iff {m : String × Value} {e : LayoutError} :
    pixelWidth m = .error e ↔ ¬ IsPixels m.2 ∧ e = .notPixels m.1 := by
  rw [← exists_pixelWidth_eq_ok_iff, pixelWidth]
  cases m.2.uint32? <;> simp [eq_comm]

theorem readsEach_pixelWidths : ReadsEach pixelWidth pixelWidths where
  nil := rfl
  cons m l := by
    obtain ⟨name, v⟩ := m
    rw [pixelWidths, pixelWidth]
    cases v.uint32? <;> cases pixelWidths l <;> rfl

/-! ### Breakpoints -/

/-- Of entries in order, the first that is no width is the one with the least name. -/
theorem firstFault_entries_iff {d : Dict Value} {e : LayoutError} :
    FirstFault pixelWidth d.entries e ↔
      ∃ name v, d.get? name = some v ∧ ¬ IsPixels v ∧ e = .notPixels name ∧
        ∀ other w, d.get? other = some w → other < name → IsPixels w := by
  simp only [← Dict.mem_entries_iff]
  constructor
  · rintro ⟨before, ⟨name, v⟩, after, heq, hbefore, hv⟩
    obtain ⟨hbad, rfl⟩ := pixelWidth_eq_error_iff.1 hv
    refine ⟨name, v, by simp [heq], hbad, rfl, fun other w hmem hlt => ?_⟩
    have hascending := d.ascending
    rw [heq] at hmem hascending
    rcases List.mem_append.1 hmem with hmem | hmem
    · exact exists_pixelWidth_eq_ok_iff.1 (hbefore _ hmem)
    · -- what comes later has a greater name
      have hle : ¬ other < name := by
        rcases List.mem_cons.1 hmem with heq | hmem
        · cases heq
          exact String.lt_irrefl _
        · exact String.lt_asymm
            ((List.pairwise_cons.1 (List.pairwise_append.1 hascending).2.1).1 _ hmem)
      exact absurd hlt hle
  · rintro ⟨name, v, hmem, hbad, rfl, hfirst⟩
    obtain ⟨before, after, heq⟩ := List.append_of_mem hmem
    refine ⟨before, (name, v), after, heq, ?_, pixelWidth_eq_error_iff.2 ⟨hbad, rfl⟩⟩
    rintro ⟨other, w⟩ hother
    refine exists_pixelWidth_eq_ok_iff.2 (hfirst other w ?_ ?_)
    · rw [heq]
      exact List.mem_append_left _ hother
    · have hascending := d.ascending
      rw [heq] at hascending
      exact (List.pairwise_append.1 hascending).2.2 _ hother _ List.mem_cons_self

/-- **The breakpoints of an object are refused** for the least name whose last value is no width. -/
theorem breakpointsOf_eq_error_iff {members : List (String × Value)} {e : LayoutError} :
    breakpointsOf (.object members) = .error e ↔
      ∃ name v, IsLast members name v ∧ ¬ IsPixels v ∧ e = .notPixels name ∧
        ∀ other w, IsLast members other w → other < name → IsPixels w := by
  have hmap : breakpointsOf (.object members) = .error e ↔
      pixelWidths (Dict.ofList members).entries = .error e := by
    rw [breakpointsOf]
    cases pixelWidths (Dict.ofList members).entries <;> simp [Except.map]
  rw [hmap, readsEach_pixelWidths.eq_error_iff, firstFault_entries_iff]
  simp only [Dict.get?_ofList_eq_some_iff]

/-- What is found in the breakpoints that are read of an object. -/
theorem isLast_iff_of_breakpointsOf {members : List (String × Value)} {b : Dict UInt32}
    (h : breakpointsOf (.object members) = .ok b) (name : String) (v : Value) :
    IsLast members name v ↔ ∃ px : UInt32, b.get? name = some px ∧ v = .ofNat px.toNat := by
  rw [breakpointsOf] at h
  cases hwidths : pixelWidths (Dict.ofList members).entries with
  | error e => simp [hwidths, Except.map] at h
  | ok widths =>
      obtain rfl : Dict.ofList widths = b := by simpa [hwidths, Except.map] using h
      have hcorrespond := readsEach_pixelWidths.eq_ok_iff.1 hwidths
      simp only [pixelWidth_eq_ok_iff] at hcorrespond
      have hfound := Dict.get?_ofList_of_forall₂
        (R := fun v px => v = Value.ofNat (UInt32.toNat px)) hcorrespond name
      rw [← Dict.get?_ofList_eq_some_iff]
      generalize (Dict.ofList members).get? name = v? at hfound
      generalize (Dict.ofList widths).get? name = px? at hfound
      cases hfound with
      | none => simp
      | some hpx => simp [hpx, eq_comm]

/-- **The breakpoints of an object** are the names of its members, with their last values for
widths. -/
theorem breakpointsOf_eq_ok_iff {members : List (String × Value)} {b : Dict UInt32} :
    breakpointsOf (.object members) = .ok b ↔
      ∀ name v, IsLast members name v ↔
        ∃ px : UInt32, b.get? name = some px ∧ v = .ofNat px.toNat := by
  constructor
  · exact isLast_iff_of_breakpointsOf
  · intro h
    cases hread : breakpointsOf (.object members) with
    | error e =>
        obtain ⟨name, v, hlast, hbad, -⟩ := breakpointsOf_eq_error_iff.1 hread
        obtain ⟨px, -, hpx⟩ := (h name v).1 hlast
        exact absurd (isPixels_iff.2 ⟨px, hpx⟩) hbad
    | ok b' =>
        -- both maps have the same value at each name
        have hfound : ∀ {c : Dict UInt32}, (∀ name v, IsLast members name v ↔
            ∃ px : UInt32, c.get? name = some px ∧ v = .ofNat px.toNat) →
            ∀ name px, c.get? name = some px ↔ IsLast members name (.ofNat px.toNat) := by
          intro c hc name px
          rw [hc]
          simp only [ofNat_toNat_inj, exists_eq_right']
        rw [Except.ok.injEq]
        refine Dict.ext_get? fun name => Option.ext fun px => ?_
        rw [hfound (isLast_iff_of_breakpointsOf hread), hfound h]

/-! ### Slots -/

/-- The first element that describes no slot, by its index. -/
def IsFirstBadSlot (items : List Value) (i : Nat) : Prop :=
  (∃ v, items[i]? = some v ∧ Slot.ofValue? v = none) ∧
    ∀ j < i, ∀ v, items[j]? = some v → Slot.ofValue? v ≠ none

theorem isFirstBadSlot_zero {v : Value} {items : List Value} :
    IsFirstBadSlot (v :: items) 0 ↔ Slot.ofValue? v = none := by
  simp [IsFirstBadSlot]

theorem isFirstBadSlot_succ {v : Value} {items : List Value} {i : Nat} :
    IsFirstBadSlot (v :: items) (i + 1) ↔ Slot.ofValue? v ≠ none ∧ IsFirstBadSlot items i := by
  simp only [IsFirstBadSlot, List.getElem?_cons_succ]
  constructor
  · rintro ⟨hbad, hbefore⟩
    exact ⟨hbefore 0 (Nat.succ_pos i) v rfl, hbad,
      fun j hj => hbefore (j + 1) (Nat.succ_lt_succ hj)⟩
  · rintro ⟨hv, hbad, hbefore⟩
    refine ⟨hbad, fun j hj w hw => ?_⟩
    cases j with
    | zero =>
        cases hw
        exact hv
    | succ j => exact hbefore j (Nat.lt_of_succ_lt_succ hj) w hw

/-- **Slots are read one by one.** -/
theorem slotsFrom_eq_ok_iff {index : Nat} {items : List Value} {slots : List Slot} :
    slotsFrom index items = .ok slots ↔
      List.Forall₂ (fun v slot => Slot.ofValue? v = some slot) items slots := by
  induction items generalizing index slots with
  | nil => simp [slotsFrom, eq_comm]
  | cons v items ih =>
      rw [slotsFrom, List.forall₂_cons_left_iff]
      simp only [← @ih (index + 1)]
      cases Slot.ofValue? v <;> cases slotsFrom (index + 1) items <;> simp [eq_comm]

/-- **Slots are refused** for the first element that describes none. -/
theorem slotsFrom_eq_error_iff {index : Nat} {items : List Value} {e : LayoutError} :
    slotsFrom index items = .error e ↔
      ∃ i, IsFirstBadSlot items i ∧ e = .badSlot (index + i) := by
  induction items generalizing index with
  | nil => simp [slotsFrom, IsFirstBadSlot]
  | cons v items ih =>
      rw [slotsFrom, ← Nat.or_exists_add_one]
      simp only [isFirstBadSlot_zero, isFirstBadSlot_succ]
      cases hv : Slot.ofValue? v with
      | none => simp [eq_comm]
      | some slot =>
          have hlater : slotsFrom (index + 1) items = .error e ↔
              ∃ i, IsFirstBadSlot items i ∧ e = .badSlot (index + (i + 1)) := by
            rw [ih]
            simp only [Nat.add_assoc, Nat.add_comm 1]
          simp only [reduceCtorEq, false_and, false_or, ne_eq, not_false_eq_true, true_and,
            ← hlater]
          cases slotsFrom (index + 1) items <;> simp

/-! ### The document -/

/-- **The breakpoints of a document are there**: an object whose values are widths in pixels. -/
def HasBreakpoints (doc : Value) : Prop :=
  ∃ members, doc.get? "breakpoints" = some (.object members) ∧
    ∀ name v, IsLast members name v → IsPixels v

/-- The text of a member; it is empty where the member is no text. -/
def IsTextAt (doc : Value) (name text : String) : Prop :=
  doc.get? name = some (.string text) ∨ text = "" ∧ ∀ s, doc.get? name ≠ some (.string s)

/-- **What a layout has from its document.** -/
structure IsReadFrom (l : Layout) (doc : Value) : Prop where
  /-- The breakpoints are those of the document, each with its width. -/
  breakpoints : ∃ members, doc.get? "breakpoints" = some (.object members) ∧
    ∀ name v, IsLast members name v ↔
      ∃ px : UInt32, l.breakpoints.get? name = some px ∧ v = .ofNat px.toNat
  /-- The slots are those of the document, one by one. -/
  slots : ∃ items, doc.get? "slots" = some (.array items) ∧
    List.Forall₂ (fun v slot => Slot.ofValue? v = some slot) items l.slots
  /-- The session, if it is a text. -/
  sessionId : IsTextAt doc "sessionId" l.sessionId
  /-- The appearance of the page, if it is a text. -/
  pageInstanceGuid : IsTextAt doc "pageInstanceGuid" l.pageInstanceGuid
  /-- The token, if it is a text. -/
  token : IsTextAt doc "token" l.token
  /-- The settings as they are. -/
  settings : l.settings = (doc.get? "settings").getD .null
  /-- The tree as it is. -/
  layout : l.layout = doc.get? "layout"

/-- **The documents that are refused**, and the fault that is reported for them.  Faults that come
later in this list are reported only where there is none that comes before. -/
inductive Refuses (doc : Value) : LayoutError → Prop where
  /-- There are no breakpoints. -/
  | noBreakpoints (h : doc.get? "breakpoints" = none) : Refuses doc (.missing "breakpoints")
  /-- The breakpoints are no object. -/
  | breakpointsNotObject {v : Value} (hv : doc.get? "breakpoints" = some v)
      (h : ∀ members, v ≠ .object members) : Refuses doc .breakpointsNotObject
  /-- A breakpoint is no width, and those with a name before its name are. -/
  | notPixels {members : List (String × Value)} {name : String} {v : Value}
      (hb : doc.get? "breakpoints" = some (.object members)) (hv : IsLast members name v)
      (h : ¬ IsPixels v)
      (hbefore : ∀ other w, IsLast members other w → Text.bytes other < Text.bytes name →
        IsPixels w) : Refuses doc (.notPixels name)
  /-- There is no array of slots. -/
  | noSlots (hb : HasBreakpoints doc) (h : ∀ items, doc.get? "slots" ≠ some (.array items)) :
      Refuses doc (.missing "slots")
  /-- An element describes no slot, and those before it do. -/
  | badSlot {items : List Value} {i : Nat} (hb : HasBreakpoints doc)
      (hs : doc.get? "slots" = some (.array items)) (h : IsFirstBadSlot items i) :
      Refuses doc (.badSlot i)

/-- The members of a document that matter for a layout. -/
def memberNames : List String :=
  ["sessionId", "pageInstanceGuid", "token", "breakpoints", "settings", "layout", "slots"]

variable {doc : Value}

theorem textAt_eq_iff {name text : String} : textAt doc name = text ↔ IsTextAt doc name text := by
  rw [textAt, IsTextAt]
  rcases doc.get? name with _ | v
  · simp [eq_comm]
  · cases v <;> simp [Value.string?, eq_comm]

theorem bind_items?_eq_some_iff {v : Option Value} {items : List Value} :
    v.bind Value.items? = some items ↔ v = some (.array items) := by
  rcases v with _ | v
  · simp
  · cases v <;> simp [Value.items?]

theorem hasBreakpoints_iff :
    HasBreakpoints doc ↔ ∃ members b, doc.get? "breakpoints" = some (.object members) ∧
      breakpointsOf (.object members) = .ok b := by
  constructor
  · rintro ⟨members, hm, hpixels⟩
    cases hread : breakpointsOf (.object members) with
    | error e =>
        obtain ⟨name, v, hv, hbad, -⟩ := breakpointsOf_eq_error_iff.1 hread
        exact absurd (hpixels name v hv) hbad
    | ok b => exact ⟨members, b, hm, hread⟩
  · rintro ⟨members, b, hm, hread⟩
    refine ⟨members, hm, fun name v hv => isPixels_iff.2 ?_⟩
    obtain ⟨px, -, hpx⟩ := (isLast_iff_of_breakpointsOf hread name v).1 hv
    exact ⟨px, hpx⟩

/-- What may become of a document. -/
def IsOutcome (doc : Value) : Except LayoutError Layout → Prop
  | .ok l => l.IsReadFrom doc
  | .error e => Refuses doc e

/-- **What becomes of a document**: it is loaded as it stands, or refused for its first fault. -/
theorem isOutcome_ofValue? (doc : Value) : IsOutcome doc (ofValue? doc) := by
  generalize hr : ofValue? doc = r
  unfold ofValue? at hr
  split at hr
  · next hb =>
      subst hr
      exact Refuses.noBreakpoints hb
  · next b hb =>
      split at hr
      · next e hread =>
          subst hr
          cases b with
          | object members =>
              obtain ⟨name, v, hv, hbad, rfl, hbefore⟩ := breakpointsOf_eq_error_iff.1 hread
              exact Refuses.notPixels hb hv hbad fun other w hw hlt =>
                hbefore other w hw (Text.bytes_lt_iff.1 hlt)
          | _ =>
              cases hread
              exact Refuses.breakpointsNotObject hb (by simp)
      · next breakpoints hread =>
          obtain ⟨members, rfl⟩ : ∃ members, b = .object members := by
            cases b with
            | object members => exact ⟨members, rfl⟩
            | _ => cases hread
          have hhas : HasBreakpoints doc := hasBreakpoints_iff.2 ⟨members, breakpoints, hb, hread⟩
          split at hr
          · next hnone =>
              subst hr
              refine Refuses.noSlots hhas fun items hs => ?_
              rw [bind_items?_eq_some_iff.2 hs] at hnone
              cases hnone
          · next items hitems =>
              have hs := bind_items?_eq_some_iff.1 hitems
              split at hr
              · next e hslots =>
                  subst hr
                  obtain ⟨i, hi, rfl⟩ := slotsFrom_eq_error_iff.1 hslots
                  rw [Nat.zero_add]
                  exact Refuses.badSlot hhas hs hi
              · next slots hslots =>
                  subst hr
                  exact IsReadFrom.mk ⟨members, hb, isLast_iff_of_breakpointsOf hread⟩
                    ⟨items, hs, slotsFrom_eq_ok_iff.1 hslots⟩ (textAt_eq_iff.1 rfl)
                    (textAt_eq_iff.1 rfl) (textAt_eq_iff.1 rfl) rfl rfl

/-- **What is loaded from a document.** -/
theorem ofValue?_eq_ok_iff {l : Layout} : ofValue? doc = .ok l ↔ l.IsReadFrom doc := by
  constructor
  · intro h
    have houtcome := isOutcome_ofValue? doc
    rwa [h] at houtcome
  · intro h
    obtain ⟨members, hb, hbreakpoints⟩ := h.breakpoints
    obtain ⟨items, hitems, hslots⟩ := h.slots
    simp only [ofValue?, hb, breakpointsOf_eq_ok_iff.2 hbreakpoints,
      bind_items?_eq_some_iff.2 hitems, slotsFrom_eq_ok_iff.2 hslots, textAt_eq_iff.2 h.sessionId,
      textAt_eq_iff.2 h.pageInstanceGuid, textAt_eq_iff.2 h.token, ← h.settings, ← h.layout]

/-- **Why a document is not loaded.** -/
theorem ofValue?_eq_error_iff {e : LayoutError} : ofValue? doc = .error e ↔ Refuses doc e := by
  constructor
  · intro h
    have houtcome := isOutcome_ofValue? doc
    rwa [h] at houtcome
  · intro h
    cases h with
    | noBreakpoints hb => simp only [ofValue?, hb]
    | @breakpointsNotObject b hb hnot =>
        have hread : breakpointsOf b = .error .breakpointsNotObject := by
          cases b with
          | object members => exact absurd rfl (hnot members)
          | _ => rfl
        simp only [ofValue?, hb, hread]
    | @notPixels members name v hb hv hbad hbefore =>
        have hread : breakpointsOf (.object members) = .error (.notPixels name) :=
          breakpointsOf_eq_error_iff.2 ⟨name, v, hv, hbad, rfl, fun other w hw hlt =>
            hbefore other w hw (Text.bytes_lt_iff.2 hlt)⟩
        simp only [ofValue?, hb, hread]
    | noSlots hhas hnot =>
        obtain ⟨members, b, hb, hread⟩ := hasBreakpoints_iff.1 hhas
        have hnone : (doc.get? "slots").bind Value.items? = none := by
          rw [Option.eq_none_iff_forall_ne_some]
          exact fun items hitems => hnot items (bind_items?_eq_some_iff.1 hitems)
        simp only [ofValue?, hb, hread, hnone]
    | @badSlot items i hhas hitems hi =>
        obtain ⟨members, b, hb, hread⟩ := hasBreakpoints_iff.1 hhas
        have hslots : slotsFrom 0 items = .error (.badSlot i) :=
          slotsFrom_eq_error_iff.2 ⟨i, hi, by rw [Nat.zero_add]⟩
        simp only [ofValue?, hb, hread, bind_items?_eq_some_iff.2 hitems, hslots]

/-- **The documents that are loaded** have breakpoints and slots, all of which can be read. -/
theorem exists_ofValue?_eq_ok_iff :
    (∃ l, ofValue? doc = .ok l) ↔
      HasBreakpoints doc ∧ ∃ items, doc.get? "slots" = some (.array items) ∧
        ∀ v ∈ items, ∃ slot, Slot.ofValue? v = some slot := by
  constructor
  · rintro ⟨l, h⟩
    obtain ⟨⟨members, hb, hbreakpoints⟩, ⟨items, hitems, hslots⟩, -⟩ := ofValue?_eq_ok_iff.1 h
    refine ⟨⟨members, hb, fun name v hv => ?_⟩, items, hitems, ?_⟩
    · obtain ⟨px, -, hpx⟩ := (hbreakpoints name v).1 hv
      exact isPixels_iff.2 ⟨px, hpx⟩
    · exact forall_left_of_forall₂ hslots fun v slot _ hslot => ⟨slot, hslot⟩
  · rintro ⟨hhas, items, hitems, hread⟩
    cases h : ofValue? doc with
    | ok l => exact ⟨l, rfl⟩
    | error e =>
        -- each of the faults contradicts what the document has
        obtain ⟨members, hb, hpixels⟩ := hhas
        cases ofValue?_eq_error_iff.1 h with
        | noBreakpoints hnone =>
            rw [hnone] at hb
            cases hb
        | breakpointsNotObject hv hnot =>
            rw [hb] at hv
            cases hv
            exact absurd rfl (hnot members)
        | notPixels hb' hv hbad _ =>
            rw [hb] at hb'
            cases hb'
            exact absurd (hpixels _ _ hv) hbad
        | noSlots _ hnot => exact absurd hitems (hnot items)
        | badSlot _ hs hi =>
            rw [hitems] at hs
            cases hs
            obtain ⟨⟨v, hv, hbad⟩, -⟩ := hi
            obtain ⟨slot, hslot⟩ := hread v (List.mem_of_getElem? hv)
            rw [hbad] at hslot
            cases hslot

/-- **Other members do not matter.** -/
theorem ofValue?_congr {doc' : Value} (h : ∀ name ∈ memberNames, doc.get? name = doc'.get? name) :
    ofValue? doc = ofValue? doc' := by
  simp only [memberNames, List.forall_mem_cons] at h
  obtain ⟨hsession, hpage, htoken, hbreakpoints, hsettings, hlayout, hslots, -⟩ := h
  simp only [ofValue?, textAt, hsession, hpage, htoken, hbreakpoints, hsettings, hlayout, hslots]

/-! ### Offers -/

/-- The document of a slot has an offer, and it is not null. -/
def HasOffer (v : Value) : Prop :=
  ∃ f offer, v.fields? Slot.fieldNames = some f ∧ f.value? "offer" = some offer ∧ offer ≠ .null

theorem offer_isSome_iff {v : Value} {slot : Slot} (h : Slot.ofValue? v = some slot) :
    slot.offer.isSome ↔ HasOffer v := by
  simp only [Slot.ofValue?, Option.bind_eq_bind, Option.bind_eq_some_iff, Option.pure_def,
    Option.some.injEq] at h
  obtain ⟨f, hf, guid, -, token, -, offer, hoffer, variant, -, rfl⟩ := h
  rw [Json.Fields.isSome_iff_of_optional? hoffer]
  simp only [HasOffer, hf, Option.some.injEq, exists_and_left, exists_eq_left']

section

variable {l : Layout} {items : List Value}

/-- Each slot is read from the element at its place. -/
theorem slots_getElem?_eq
    (h : List.Forall₂ (fun v slot => Slot.ofValue? v = some slot) items l.slots) (i : Nat) :
    l.slots[i]? = items[i]?.bind Slot.ofValue? := by
  have hplace := getElem?_of_forall₂ h i
  generalize items[i]? = v? at hplace ⊢
  generalize l.slots[i]? = slot? at hplace ⊢
  cases hplace with
  | none => rfl
  | some hslot => rw [Option.bind_some, hslot]

/-- **The offers of a layout** are those of the slots of its document. -/
theorem offer?_isSome_iff
    (h : List.Forall₂ (fun v slot => Slot.ofValue? v = some slot) items l.slots) (i : Nat) :
    (l.offer? i).isSome ↔ ∃ v, items[i]? = some v ∧ HasOffer v := by
  have hplace := getElem?_of_forall₂ h i
  rw [offer?]
  generalize items[i]? = v? at hplace ⊢
  generalize l.slots[i]? = slot? at hplace ⊢
  cases hplace with
  | none => simp
  | some hslot => simp [offer_isSome_iff hslot]

end

/-! ### The whole of it -/

/-- **Loading a layout is all or nothing, and the fault that is reported is fixed.**  A document is
loaded exactly if its breakpoints are an object of widths in pixels and its slots an array of
documents of slots; it is refused for the fault that comes first among those that it may have.
What is loaded has the breakpoints of the document with their widths and as many slots as there are
elements, each read from the element at its place, with an offer where the element has one that is
not null.  The texts are empty where the document has no text, and all else is as it is.  Members
that are not known do not matter. -/
theorem loading_is_all_or_nothing :
    (∀ doc, (∃ l, ofValue? doc = .ok l) ↔
      HasBreakpoints doc ∧ ∃ items, doc.get? "slots" = some (.array items) ∧
        ∀ v ∈ items, ∃ slot, Slot.ofValue? v = some slot) ∧
    (∀ doc l, ofValue? doc = .ok l ↔ l.IsReadFrom doc) ∧
    (∀ doc e, ofValue? doc = .error e ↔ Refuses doc e) ∧
    (∀ doc l items, ofValue? doc = .ok l → doc.get? "slots" = some (.array items) →
      l.slots.length = items.length ∧ ∀ i, l.slots[i]? = items[i]?.bind Slot.ofValue? ∧
        ((l.offer? i).isSome ↔ ∃ v, items[i]? = some v ∧ HasOffer v)) ∧
    ∀ doc doc' : Value, (∀ name ∈ memberNames, doc.get? name = doc'.get? name) →
      ofValue? doc = ofValue? doc' := by
  refine ⟨fun _ => exists_ofValue?_eq_ok_iff, fun _ _ => ofValue?_eq_ok_iff,
    fun _ _ => ofValue?_eq_error_iff, ?_, fun _ _ => ofValue?_congr⟩
  intro doc l items h hitems
  obtain ⟨items', hitems', hslots⟩ := (ofValue?_eq_ok_iff.1 h).slots
  obtain rfl : items = items' := by simpa [hitems] using hitems'
  exact ⟨hslots.length_eq.symm, fun i => ⟨slots_getElem?_eq hslots i, offer?_isSome_iff hslots i⟩⟩

/-- Of the two breakpoints that are no widths, the one that comes first by bytes is reported, and
that there are no slots is not.  With breakpoints up to the greatest width, the second element is
reported for its offer, and the third one is not looked at.  Without these two the layout is loaded,
and the null that the first element has for an offer is none. -/
theorem loading_reports_first_fault :
    let narrow : Value := .object [("é", .ofInt (-1)), ("a", .ofNat 1), ("z", .string "1")]
    let wide : Value := .object [("max", .ofNat 4294967295)]
    let empty : Value := .object [("offer", .null)]
    let broken : Value := .object [("offer", .string "none")]
    ofValue? (.object [("breakpoints", narrow)]) = .error (.notPixels "z") ∧
    ofValue? (.object [("breakpoints", wide), ("slots", .array [empty, broken, .null])]) =
      .error (.badSlot 1) ∧
    ∃ l, ofValue? (.object [("slots", .array [empty]), ("breakpoints", wide), ("note", .null)]) =
        .ok l ∧
      ofValue? (.object [("breakpoints", wide), ("slots", .array [empty])]) = .ok l ∧
      l.breakpoints.get? "max" = some 4294967295 ∧ l.slots.length = 1 ∧
      (l.offer? 0).isSome = false := by
  intro narrow wide empty broken
  obtain ⟨hsome, hok, herror, hplaces, hframe⟩ := loading_is_all_or_nothing
  have hwide : ∀ name v, IsLast [("max", Value.ofNat 4294967295)] name v → IsPixels v := by
    intro name v hv
    cases List.mem_singleton.1 hv.mem
    exact ⟨4294967295, rfl, by decide⟩
  have hempty : Slot.ofValue? empty = some {} := rfl
  refine ⟨?_, ?_, ?_⟩
  · refine (herror _ _).2 (.notPixels rfl ⟨[_, _], [], rfl, by simp⟩ ?_ ?_)
    · rintro ⟨n, hn, -⟩
      cases hn
    · intro other w hw hlt
      rcases hw.mem with _ | ⟨_, _ | ⟨_, _ | ⟨_, hmem⟩⟩⟩
      · exact absurd hlt (by decide +kernel)
      · exact ⟨1, rfl, by decide⟩
      · exact absurd hlt (List.lt_irrefl _)
      · cases hmem
  · refine (herror _ _).2 (.badSlot ⟨_, rfl, hwide⟩ rfl ⟨⟨broken, rfl, rfl⟩, ?_⟩)
    rintro j hj v hv
    obtain rfl : j = 0 := by omega
    cases hv
    rw [hempty]
    exact Option.some_ne_none _
  · obtain ⟨l, hl⟩ := (hsome (.object [("breakpoints", wide), ("slots", .array [empty])])).2
      ⟨⟨_, rfl, hwide⟩, [empty], rfl, by simp [hempty]⟩
    obtain ⟨⟨members, hm, hbreakpoints⟩, -⟩ := (hok _ _).1 hl
    obtain ⟨hlength, hplace⟩ := hplaces _ _ _ hl rfl
    obtain rfl : [("max", Value.ofNat 4294967295)] = members :=
      Value.object.inj (Option.some.inj hm)
    refine ⟨l, ?_, hl, ?_, hlength, ?_⟩
    · rw [← hl]
      refine hframe _ _ ?_
      simp only [memberNames, List.forall_mem_cons]
      exact ⟨rfl, rfl, rfl, rfl, rfl, rfl, rfl, by simp⟩
    · obtain ⟨px, hpx, heq⟩ := (hbreakpoints "max" _).1 ⟨[], [], rfl, by simp⟩
      obtain rfl : 4294967295 = px := ofNat_toNat_inj.1 heq
      exact hpx
    · rw [Bool.eq_false_iff, ne_eq, (hplace 0).2]
      rintro ⟨v, hv, f, offer, hf, hoffer, hne⟩
      cases hv
      cases hf
      cases hoffer
      exact hne rfl

end Layout

end OfferLayout
