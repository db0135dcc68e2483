/-
**Catalog items.**

A catalog item is something that can be bought with an offer: its title and description, its price
and quantity, and copy of its own under dotted keys.

Main definitions:

* `CatalogItem` — an item;
* `CatalogItem.ofValue?`, `CatalogItem.toValue` — items and documents.
-/

import OfferLayout.Json.Fields

set_option relaxedAutoImplicit false
set_option autoImplicit false

namespace OfferLayout

open Json (Value Number Fields optionalMember)

/-- An item that can be bought with an offer. -/
structure CatalogItem where
  /-- The identifier of the item. -/
  catalogItemId : String := ""
  /-- The identifier of the item in the cart. -/
  cartItemId : Option String := none
  /-- The title. -/
  title : String := ""
  /-- The description. -/
  description : String := ""
  /-- The price. -/
  price : Option Number := none
  /-- The price before a reduction. -/
  originalPrice : Option Number := none
  /-- The currency of the prices. -/
  currency : Option String := none
  /-- The quantity. -/
  quantity : Option Number := none
  /-- The identifier of a product that belongs to the item. -/
  linkedProductId : Option String := none
  /-- Data of the provider, not interpreted here. -/
  providerData : Option String := none
  /-- The copy of the item, by key. -/
  copy : Dict String := ∅
deriving DecidableEq

namespace CatalogItem

/-- The names of the fields, in order. -/
def fieldNames : List String :=
  ["catalogItemId", "cartItemId", "title", "description", "price", "originalPrice", "currency",
    "quantity", "linkedProductId", "providerData", "copy"]

/-- The item that a document describes. -/
def ofValue? (v : Value) : Option CatalogItem := do
  let f ← v.fields? fieldNames
  let catalogItemId ← f.text? "catalogItemId"
  let cartItemId ← f.optionalText? "cartItemId"
  let title ← f.text? "title"
  let description ← f.text? "description"
  let price ← f.optional? "price" Value.number?
  let originalPrice ← f.optional? "originalPrice" Value.number?
  let currency ← f.optionalText? "currency"
  let quantity ← f.optional? "quantity" Value.number?
  let linkedProductId ← f.optionalText? "linkedProductId"
  let providerData ← f.optionalText? "providerData"
  let copy ← f.defaulted? "copy" (Value.dict? Value.string?) ∅
  return { catalogItemId, cartItemId, title, description, price, originalPrice, currency, quantity,
           linkedProductId, providerData, copy }

/-- The document of an item; absent fields are left out. -/
def toValue (i : CatalogItem) : Value :=
  .object <|
    [("catalogItemId", .string i.catalogItemId)] ++
    optionalMember "cartItemId" .string i.cartItemId ++
    [("title", .string i.title), ("description", .string i.description)] ++
    optionalMember "price" .number i.price ++
    optionalMember "originalPrice" .number i.originalPrice ++
    optionalMember "currency" .string i.currency ++
    optionalMember "quantity" .number i.quantity ++
    optionalMember "linkedProductId" .string i.linkedProductId ++
    optionalMember "providerData" .string i.providerData ++
    [("copy", .ofDict .string i.copy)]

end CatalogItem

end OfferLayout
