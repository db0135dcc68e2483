/-
**Paths into records.**

A path is a text of segments with points between them.  It leads through the fields of nested
records, segment by segment, to a text or to a map.  Keys of maps may hold points themselves, so at
a map the rest of the path is one key; a field whose own name holds a point is out of reach.

Main definitions:

* `Field` — a text, a record of named fields, or a map from keys to texts;
* `Field.walk` — **the text that a path leads to**;
* `CatalogItem.asField`, `ResponseOption.asField` — the fields of an item and of a response.

Main results:

* `Field.walk_map` — in a map, a path that is not empty is the key.
-/

import OfferLayout.Record.CatalogItem
import OfferLayout.Record.Response
import OfferLayout.Text.Cut

set_option relaxedAutoImplicit false
set_option autoImplicit false

namespace OfferLayout

/-- What a path can pass or end at. -/
inductive Field where
  /-- A text. -/
  | text (s : String)
  /-- A record, with its fields by name. -/
  | record (fields : List (String × Field))
  /-- A map from keys to texts. -/
  | map (entries : Dict String)

instance : Inhabited Field := ⟨.text ""⟩

namespace Field

/-- The segments of a path; the empty path has none. -/
def segments (path : String) : List (List Char) :=
  if path.isEmpty then [] else Text.fields '.' path.toList

/-- The text that segments lead to. -/
def follow : Field → List (List Char) → Option String
  | .text s, [] => some s
  | .text _, _ :: _ => none
  | .map _, [] => none
  | .map entries, s :: rest => entries.get? (String.ofList (List.intercalate ['.'] (s :: rest)))
  | .record _, [] => none
  | .record fields, s :: rest =>
      (fields.lookup (String.ofList s)).bind fun field => follow field rest

/-- **The text that a path leads to**, if it ends at a text or at a key of a map. -/
def walk (start : Field) (path : String) : Option String := start.follow (segments path)

@[simp] theorem walk_text_empty (s : String) : (Field.text s).walk "" = some s := rfl

@[simp] theorem walk_map_empty (entries : Dict String) : (Field.map entries).walk "" = none := rfl

@[simp] theorem walk_record_empty (fields : List (String × Field)) :
    (Field.record fields).walk "" = none := rfl

/-- **In a map, a path that is not empty is the key**, points included. -/
theorem walk_map {entries : Dict String} {path : String} (h : path ≠ "") :
    (Field.map entries).walk path = entries.get? path := by
  have hne : path.isEmpty = false := by simpa using h
  obtain ⟨s, rest, hs⟩ := List.exists_cons_of_ne_nil (Text.fields_ne_nil '.' path.toList)
  have hjoin := Text.intercalate_fields '.' path.toList
  rw [hs] at hjoin
  simp [walk, segments, hne, hs, follow, hjoin]

end Field

/-! ### Records of an offer -/

/-- A field that holds a text. -/
def textField (name text : String) : List (String × Field) := [(name, .text text)]

/-- A field that holds a text if it is present. -/
def optionalField (name : String) : Option String → List (String × Field)
  | none => []
  | some text => [(name, .text text)]

theorem lookup_textField (name text other : String) :
    (textField name text).lookup other = if other = name then some (.text text) else none := by
  rw [textField, lookup_cons_ite, List.lookup_nil]

theorem lookup_optionalField (name other : String) (text? : Option String) :
    (optionalField name text?).lookup other = if other = name then text?.map .text else none := by
  cases text? with
  | none => simp [optionalField]
  | some text => exact lookup_textField name text other

/-- The fields of a catalog item; a number is the text by which it is written. -/
def CatalogItem.asField (i : CatalogItem) : Field :=
  .record <|
    textField "catalogItemId" i.catalogItemId ++
    optionalField "cartItemId" i.cartItemId ++
    textField "title" i.title ++
    textField "description" i.description ++
    optionalField "price" (i.price.map Json.Number.text) ++
    optionalField "originalPrice" (i.originalPrice.map Json.Number.text) ++
    optionalField "currency" i.currency ++
    optionalField "quantity" (i.quantity.map Json.Number.text) ++
    optionalField "linkedProductId" i.linkedProductId ++
    optionalField "providerData" i.providerData ++
    [("copy", .map i.copy)]

/-- The fields of a response; whether it accepts the offer is the text of a truth value. -/
def ResponseOption.asField (r : ResponseOption) : Field :=
  .record <|
    textField "id" r.id ++
    optionalField "action" r.action ++
    textField "instanceGuid" r.instanceGuid ++
    textField "token" r.token ++
    optionalField "signalType" r.signalType ++
    optionalField "shortLabel" r.shortLabel ++
    optionalField "longLabel" r.longLabel ++
    optionalField "shortSuccessLabel" r.shortSuccessLabel ++
    textField "isPositive" (if r.isPositive then "true" else "false") ++
    optionalField "url" r.url ++
    optionalField "responseJWTToken" r.responseJwtToken

end OfferLayout
