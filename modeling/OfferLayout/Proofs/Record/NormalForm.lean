/-
**Records are in normal form when they are written.**

A record can be spelled in many ways: with fields left out, set to null, in another order or without
their names, and with members that are no fields.  What is written of it is one of these spellings,
which has exactly the fields that are there.  It is read as the same record again, and so all that
is read from a document is kept by writing it: the records within it, the numbers of a catalog item
as they are, and the tree of a slot.  Only a tree that is null is read as none.

A record is written either as it stands or in canonical form.  The second way would also rewrite the
tree of a slot, so the document it is read from has to be in canonical form itself.

Main results:

* `CatalogItem.ofValue?_write`, `Creative.ofValue?_write`, `Offer.ofValue?_write` and their
  companions — each record is read back;
* `Slot.ofValue?_write_iff` — when a slot is read back;
* `Slot.normalForm` — **what is read of a slot is in normal form when it is written**;
* `CatalogItem.get?_number`, `Slot.get?_layoutVariant` — numbers and trees are kept;
* `records_normalForm` — the whole of it.
-/

import OfferLayout.Proofs.Json.Record
import OfferLayout.Record.Offer

set_option relaxedAutoImplicit false
set_option autoImplicit false

namespace OfferLayout

open Json (Value Number Fields membersOf membersOf_nil membersOf_some membersOf_map)
open Json.Value (Faithful IsWriting NormalForm)

variable {write : Value → Value}

/-! ### Catalog items -/

namespace CatalogItem

/-- The fields of an item as they are written. -/
def written (i : CatalogItem) : List (String × Option Value) :=
  [("catalogItemId", some (.string i.catalogItemId)),
    ("cartItemId", i.cartItemId.map .string),
    ("title", some (.string i.title)),
    ("description", some (.string i.description)),
    ("price", i.price.map .number),
    ("originalPrice", i.originalPrice.map .number),
    ("currency", i.currency.map .string),
    ("quantity", i.quantity.map .number),
    ("linkedProductId", i.linkedProductId.map .string),
    ("providerData", i.providerData.map .string),
    ("copy", some (.ofDict .string i.copy))]

theorem toValue_eq (i : CatalogItem) : i.toValue = .object (membersOf i.written) := by
  simp only [toValue, written, membersOf_some, membersOf_map, membersOf_nil, List.append_assoc,
    List.cons_append, List.nil_append]

theorem nodup_written (i : CatalogItem) : (i.written.map Prod.fst).Nodup :=
  (by decide : fieldNames.Nodup)

/-- **An item is read back.** -/
theorem ofValue?_write (hw : Faithful write) (i : CatalogItem) :
    ofValue? (write i.toValue) = some i := by
  have hcopy := hw.dict?_ofDict hw.string?_string i.copy
  rw [toValue_eq, ofValue?, hw.fields_membersOf i.nodup_written, Option.bind_eq_bind,
    Option.bind_some]
  simp only [Fields.text?, Fields.optionalText?, Fields.defaulted?_eq, Fields.optional?_eq, written,
    lookup_cons_ite, String.reduceEq, if_true, if_false, Option.join_some, Option.map_some,
    Option.elim_some, hw.string?_string, hw.elim_string, hw.elim_number, hcopy]
  rfl

/-- The names of the fields that hold numbers. -/
def numberNames : List String := ["price", "originalPrice", "quantity"]

/-- **The numbers of an item are kept**: an integer as an integer, any other one as it is. -/
theorem get?_number (hw : IsWriting write) {v : Value} {i : CatalogItem} {f : Fields}
    (h : ofValue? v = some i) (hf : v.fields? fieldNames = some f) {name : String}
    (hname : name ∈ numberNames) (n : Number) :
    (write i.toValue).get? name = some (.number n) ↔ f.value? name = some (.number n) := by
  have hnumber (n? : Option Number) :
      (n?.map Value.number).map write = some (.number n) ↔ n? = some n := by
    cases n? <;> simp [hw.faithful.number]
  rw [toValue_eq, hw.get?_membersOf i.nodup_written]
  simp only [ofValue?, hf, Option.bind_eq_bind, Option.bind_some, Option.bind_eq_some_iff] at h
  obtain ⟨_, -, _, -, _, -, _, -, price, hprice, originalPrice, horiginal, _, -, quantity,
    hquantity, _, -, _, -, _, -, heq⟩ := h
  cases heq
  simp only [numberNames, List.mem_cons, List.not_mem_nil, or_false] at hname
  rcases hname with rfl | rfl | rfl
  · rw [← Fields.eq_some_iff_of_number? hprice]
    exact hnumber price
  · rw [← Fields.eq_some_iff_of_number? horiginal]
    exact hnumber originalPrice
  · rw [← Fields.eq_some_iff_of_number? hquantity]
    exact hnumber quantity

end CatalogItem

/-! ### Responses -/

namespace ResponseOption

/-- The fields of a response as they are written. -/
def written (r : ResponseOption) : List (String × Option Value) :=
  [("id", some (.string r.id)),
    ("action", r.action.map .string),
    ("instanceGuid", some (.string r.instanceGuid)),
    ("token", some (.string r.token)),
    ("signalType", r.signalType.map .string),
    ("shortLabel", r.shortLabel.map .string),
    ("longLabel", r.longLabel.map .string),
    ("shortSuccessLabel", r.shortSuccessLabel.map .string),
    ("isPositive", some (.bool r.isPositive)),
    ("url", r.url.map .string),
    ("responseJWTToken", r.responseJwtToken.map .string)]

theorem toValue_eq (r : ResponseOption) : r.toValue = .object (membersOf r.written) := by
  simp only [toValue, written, membersOf_some, membersOf_map, membersOf_nil, List.append_assoc,
    List.cons_append, List.nil_append, List.append_nil]

theorem nodup_written (r : ResponseOption) : (r.written.map Prod.fst).Nodup :=
  (by decide : fieldNames.Nodup)

/-- **A response is read back.** -/
theorem ofValue?_write (hw : Faithful write) (r : ResponseOption) :
    ofValue? (write r.toValue) = some r := by
  rw [toValue_eq, ofValue?, hw.fields_membersOf r.nodup_written, Option.bind_eq_bind,
    Option.bind_some]
  simp only [Fields.text?, Fields.optionalText?, Fields.defaulted?_eq, Fields.optional?_eq, written,
    lookup_cons_ite, String.reduceEq, if_true, if_false, Option.join_some, Option.map_some,
    Option.elim_some, hw.string?_string, hw.bool?_bool, hw.elim_string]
  rfl

end ResponseOption

namespace ResponseOptions

/-- The fields of the responses as they are written. -/
def written (r : ResponseOptions) : List (String × Option Value) :=
  [("positive", r.positive.map ResponseOption.toValue),
    ("negative", r.negative.map ResponseOption.toValue)]

theorem toValue_eq (r : ResponseOptions) : r.toValue = .object (membersOf r.written) := by
  simp only [toValue, written, membersOf_map, membersOf_nil, List.append_nil]

theorem nodup_written (r : ResponseOptions) : (r.written.map Prod.fst).Nodup :=
  (by decide : fieldNames.Nodup)

/-- **The responses are read back.** -/
theorem ofValue?_write (hw : Faithful write) (r : ResponseOptions) :
    ofValue? (write r.toValue) = some r := by
  have hresponse := Value.elim_nullable? rfl (ResponseOption.ofValue?_write hw)
  rw [toValue_eq, ofValue?, hw.fields_membersOf r.nodup_written, Option.bind_eq_bind,
    Option.bind_some]
  simp only [Fields.optional?_eq, written, lookup_cons_ite, String.reduceEq, if_true, if_false,
    Option.join_some, hresponse]
  rfl

end ResponseOptions

/-! ### Creatives -/

/-- **A link is read back.** -/
theorem CreativeLink.ofValue?_write (hw : Faithful write) (l : CreativeLink) :
    ofValue? (write l.toValue) = some l := by
  rw [toValue, ofValue?, hw.fields (by simp)]
  simp [Fields.text?, Fields.defaulted?_eq, lookup_cons_ite, hw.string?_string]

namespace CreativeImage

/-- The fields of an image as they are written. -/
def written (i : CreativeImage) : List (String × Option Value) :=
  [("light", some (.string i.light)),
    ("dark", i.dark.map .string),
    ("alt", i.alt.map .string),
    ("title", i.title.map .string)]

theorem toValue_eq (i : CreativeImage) : i.toValue = .object (membersOf i.written) := by
  simp only [toValue, written, membersOf_some, membersOf_map, membersOf_nil, List.append_assoc,
    List.cons_append, List.nil_append, List.append_nil]

theorem nodup_written (i : CreativeImage) : (i.written.map Prod.fst).Nodup :=
  (by decide : fieldNames.Nodup)

/-- **An image is read back.** -/
theorem ofValue?_write (hw : Faithful write) (i : CreativeImage) :
    ofValue? (write i.toValue) = some i := by
  rw [toValue_eq, ofValue?, hw.fields_membersOf i.nodup_written, Option.bind_eq_bind,
    Option.bind_some]
  simp only [Fields.text?, Fields.optionalText?, Fields.defaulted?_eq, Fields.optional?_eq, written,
    lookup_cons_ite, String.reduceEq, if_true, if_false, Option.join_some, Option.map_some,
    Option.elim_some, hw.string?_string, hw.elim_string]
  rfl

end CreativeImage

/-- **A creative is read back.** -/
theorem Creative.ofValue?_write (hw : Faithful write) (c : Creative) :
    ofValue? (write c.toValue) = some c := by
  have hcopy := hw.dict?_ofDict hw.string?_string c.copy
  have hlinks := hw.dict?_ofDict (CreativeLink.ofValue?_write hw) c.links
  have himages := hw.dict?_ofDict (CreativeImage.ofValue?_write hw) c.images
  rw [toValue, ofValue?, hw.fields (by simp), Option.bind_eq_bind, Option.bind_some]
  simp only [Fields.text?, Fields.defaulted?_eq, lookup_cons_ite, String.reduceEq, if_true,
    if_false, Option.map_some, Option.elim_some, hw.string?_string,
    ResponseOptions.ofValue?_write hw, hcopy, hlinks, himages]
  rfl

/-! ### Offers and slots -/

namespace Offer

/-- The fields of an offer as they are written. -/
def written (o : Offer) : List (String × Option Value) :=
  [("campaignId", o.campaignId.map .string),
    ("creative", some o.creative.toValue),
    ("catalogItems", some (.ofList CatalogItem.toValue o.catalogItems))]

theorem toValue_eq (o : Offer) : o.toValue = .object (membersOf o.written) := by
  simp only [toValue, written, membersOf_some, membersOf_map, membersOf_nil]

theorem nodup_written (o : Offer) : (o.written.map Prod.fst).Nodup :=
  (by decide : fieldNames.Nodup)

/-- **An offer is read back.** -/
theorem ofValue?_write (hw : Faithful write) (o : Offer) : ofValue? (write o.toValue) = some o := by
  have hitems := hw.list?_ofList (CatalogItem.ofValue?_write hw) o.catalogItems
  rw [toValue_eq, ofValue?, hw.fields_membersOf o.nodup_written, Option.bind_eq_bind,
    Option.bind_some]
  simp only [Fields.optionalText?, Fields.defaulted?_eq, Fields.optional?_eq, written,
    lookup_cons_ite, String.reduceEq, if_true, if_false, Option.join_some, Option.map_some,
    Option.elim_some, hw.elim_string, Creative.ofValue?_write hw, hitems]
  rfl

end Offer

namespace Slot

/-- The fields of a slot as they are written. -/
def written (s : Slot) : List (String × Option Value) :=
  [("instanceGuid", some (.string s.instanceGuid)),
    ("token", some (.string s.token)),
    ("offer", s.offer.map Offer.toValue),
    ("layoutVariant", s.layoutVariant.map id)]

theorem toValue_eq (s : Slot) : s.toValue = .object (membersOf s.written) := by
  simp only [toValue, written, membersOf_some, membersOf_map, membersOf_nil, List.cons_append,
    List.nil_append, List.append_nil]

theorem nodup_written (s : Slot) : (s.written.map Prod.fst).Nodup :=
  (by decide : fieldNames.Nodup)

/-- A slot is read back if its tree is not null and is written as it stands. -/
theorem ofValue?_write (hw : Faithful write) {s : Slot}
    (htree : ∀ v, s.layoutVariant = some v → v ≠ .null ∧ write v = v) :
    ofValue? (write s.toValue) = some s := by
  have hoffer := Value.elim_nullable? rfl (Offer.ofValue?_write hw) s.offer
  -- every tree decodes to itself, so null has to be kept out by the hypothesis
  have hvariant : ((s.layoutVariant.map id).map write).elim (some none) (Value.nullable? some) =
      some s.layoutVariant := by
    cases h : s.layoutVariant with
    | none => rfl
    | some v =>
        obtain ⟨hne, hv⟩ := htree v h
        simp [hv, Json.Value.nullable?_eq hne]
  rw [toValue_eq, ofValue?, hw.fields_membersOf s.nodup_written, Option.bind_eq_bind,
    Option.bind_some]
  simp only [Fields.text?, Fields.defaulted?_eq, Fields.optional?_eq, written, lookup_cons_ite,
    String.reduceEq, if_true, if_false, Option.join_some, Option.map_some, Option.elim_some,
    hw.string?_string, hoffer, hvariant]
  rfl

/-- The tree of a slot is the one that is there, unless that is null. -/
theorem layoutVariant_eq_some_iff {v : Value} {s : Slot} {f : Fields} (h : ofValue? v = some s)
    (hf : v.fields? fieldNames = some f) (tree : Value) :
    s.layoutVariant = some tree ↔ f.value? "layoutVariant" = some tree ∧ tree ≠ .null := by
  simp only [ofValue?, hf, Option.bind_eq_bind, Option.bind_some, Option.bind_eq_some_iff] at h
  obtain ⟨_, -, _, -, _, -, layoutVariant, hvariant, heq⟩ := h
  cases heq
  exact Fields.eq_some_iff_of_optional? hvariant tree

/-- The tree of a slot is not null, and is written as it stands if the document was. -/
theorem tree_of_ofValue? (hw : IsWriting write) {v : Value} {s : Slot} (hv : write v = v)
    (h : ofValue? v = some s) (tree : Value) (htree : s.layoutVariant = some tree) :
    tree ≠ .null ∧ write tree = tree := by
  obtain ⟨f, hf, -⟩ := Option.bind_eq_some_iff.1 h
  obtain ⟨hfield, hne⟩ := (layoutVariant_eq_some_iff h hf tree).1 htree
  exact ⟨hne, hw.of_value? hv hf hfield⟩

/-- **A slot is read back** exactly if its tree is not null and is written as it stands. -/
theorem ofValue?_write_iff (hw : Faithful write) {s : Slot} :
    ofValue? (write s.toValue) = some s ↔
      ∀ tree, s.layoutVariant = some tree → tree ≠ .null ∧ write tree = tree := by
  refine ⟨fun h tree htree => ?_, ofValue?_write hw⟩
  have hfields := hw.fields_membersOf s.nodup_written fieldNames
  rw [← toValue_eq] at hfields
  obtain ⟨hfield, hne⟩ := (layoutVariant_eq_some_iff h hfields tree).1 htree
  have hwritten : (s.written.lookup "layoutVariant").join = some tree := by
    simp [written, lookup_cons_ite, htree]
  simp only [hwritten, Option.map_some, Option.some.injEq] at hfield
  exact ⟨hne, hfield⟩

/-- **What is read of a slot is in normal form when it is written.** -/
theorem normalForm (hw : IsWriting write) : NormalForm write ofValue? toValue :=
  .of_reads fun _ _ hv h => ofValue?_write hw.faithful (tree_of_ofValue? hw hv h)

/-- **The tree of a slot is kept.** -/
theorem get?_layoutVariant (hw : IsWriting write) {v : Value} {s : Slot} (hv : write v = v)
    (h : ofValue? v = some s) : (write s.toValue).get? "layoutVariant" = s.layoutVariant := by
  have htree := tree_of_ofValue? hw hv h
  have hfound : (s.written.lookup "layoutVariant").join = s.layoutVariant := by
    simp [written, lookup_cons_ite]
  rw [toValue_eq, hw.get?_membersOf s.nodup_written, hfound]
  cases hs : s.layoutVariant with
  | none => rfl
  | some tree => rw [Option.map_some, (htree tree hs).2]

end Slot

/-! ### The whole of it -/

/-- **Whatever is read of records is in normal form when it is written**, as it stands or in
canonical form: slots and all records within them, and lists and maps of what is.  Every slot is
read back, if only its tree is not null and would not be rewritten.  The numbers of an item are kept
as they are, and so is the tree of a slot, unless it is null, which is no tree. -/
theorem records_normalForm (hw : IsWriting write) :
    NormalForm write Slot.ofValue? Slot.toValue ∧
    NormalForm write Offer.ofValue? Offer.toValue ∧
    NormalForm write Creative.ofValue? Creative.toValue ∧
    NormalForm write ResponseOptions.ofValue? ResponseOptions.toValue ∧
    NormalForm write ResponseOption.ofValue? ResponseOption.toValue ∧
    NormalForm write CreativeLink.ofValue? CreativeLink.toValue ∧
    NormalForm write CreativeImage.ofValue? CreativeImage.toValue ∧
    NormalForm write CatalogItem.ofValue? CatalogItem.toValue ∧
    (∀ s : Slot, Slot.ofValue? (write s.toValue) = some s ↔
      ∀ tree, s.layoutVariant = some tree → tree ≠ .null ∧ write tree = tree) ∧
    (∀ {α : Type} (decode : Value → Option α) (encode : α → Value), NormalForm write decode encode →
      NormalForm write (Value.list? decode) (.ofList encode) ∧
        NormalForm write (Value.dict? decode) (.ofDict encode)) ∧
    (∀ v i f, CatalogItem.ofValue? v = some i → v.fields? CatalogItem.fieldNames = some f →
      ∀ name ∈ CatalogItem.numberNames, ∀ n,
        (write i.toValue).get? name = some (.number n) ↔ f.value? name = some (.number n)) ∧
    (∀ v s f, write v = v → Slot.ofValue? v = some s → v.fields? Slot.fieldNames = some f →
      (∀ tree, s.layoutVariant = some tree ↔
        f.value? "layoutVariant" = some tree ∧ tree ≠ .null) ∧
      (write s.toValue).get? "layoutVariant" = s.layoutVariant) := by
  have hfaithful := hw.faithful
  refine ⟨Slot.normalForm hw, .of_reads fun _ o _ _ => Offer.ofValue?_write hfaithful o,
    .of_reads fun _ c _ _ => Creative.ofValue?_write hfaithful c,
    .of_reads fun _ r _ _ => ResponseOptions.ofValue?_write hfaithful r,
    .of_reads fun _ r _ _ => ResponseOption.ofValue?_write hfaithful r,
    .of_reads fun _ l _ _ => CreativeLink.ofValue?_write hfaithful l,
    .of_reads fun _ i _ _ => CreativeImage.ofValue?_write hfaithful i,
    .of_reads fun _ i _ _ => CatalogItem.ofValue?_write hfaithful i,
    fun _ => Slot.ofValue?_write_iff hfaithful, ?_, ?_, ?_⟩
  · intro α decode encode h
    exact ⟨.list hw h, .dict hw h⟩
  · intro v i f h hf name hname n
    exact CatalogItem.get?_number hw h hf hname n
  · intro v s f hv h hf
    exact ⟨Slot.layoutVariant_eq_some_iff h hf, Slot.get?_layoutVariant hw hv h⟩

/-- A slot without the names of its fields, with an offer and an item that have none either: there
is an unknown member, fields are missing or null, and the tree is null.  An integer and the number
2.5 are kept, and there is no tree. -/
theorem records_normalForm_of_array :
    let half : Number := .real ⟨false, 5629499534213120, -51⟩
    let first : Value := .object [("price", .number (.integer 3))]
    let second : Value :=
      .array [.string "i", .null, .string "", .string "", .null, .null, .null, .number half]
    let v : Value :=
      .array [.string "s", .string "",
        .array [.null, .object [("unknown", .bool true)], .array [first, second]], .null]
    let i : CatalogItem := { price := some (.integer 3) }
    let j : CatalogItem := { catalogItemId := "i", quantity := some half }
    let s : Slot := { instanceGuid := "s", offer := some { catalogItems := [i, j] } }
    IsWriting Value.canonical ∧ v.canonical = v ∧ Slot.ofValue? v = some s ∧
      Slot.ofValue? s.toValue.canonical = some s ∧
      s.toValue.canonical.get? "layoutVariant" = none ∧
      i.toValue.canonical.get? "price" = some (.number (.integer 3)) ∧
      j.toValue.canonical.get? "quantity" = some (.number half) := by
  intro half first second v i j s
  have hw : IsWriting Value.canonical := Or.inr rfl
  have hv : v.canonical = v := rfl
  have hs : Slot.ofValue? v = some s := rfl
  have hi : CatalogItem.ofValue? first = some i := rfl
  have hj : CatalogItem.ofValue? second = some j := rfl
  obtain ⟨hslot, -, -, -, -, -, -, -, -, -, hnumbers, htree⟩ := records_normalForm hw
  refine ⟨hw, hv, hs, (hslot v s hv hs).1, (htree v s _ hv hs rfl).2, ?_, ?_⟩
  · exact (hnumbers first i _ hi rfl "price" (by decide) _).2 rfl
  · exact (hnumbers second j _ hj rfl "quantity" (by decide) _).2 rfl

end OfferLayout
