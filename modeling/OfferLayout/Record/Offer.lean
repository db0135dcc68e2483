/-
**Offers and slots.**

An offer has one creative and any number of catalog items.  A slot is a place of a layout that may
carry an offer, and a tree for the renderer that is passed through as it is.

Main definitions:

* `Offer`, `Slot` — an offer, and a place for one.
-/

import OfferLayout.Record.CatalogItem
import OfferLayout.Record.Creative

set_option relaxedAutoImplicit false
set_option autoImplicit false

namespace OfferLayout

open Json (Value Fields optionalMember)

/-- A creative with the items that can be bought with it. -/
structure Offer where
  /-- The identifier of the campaign. -/
  campaignId : Option String := none
  /-- What the offer shows. -/
  creative : Creative := {}
  /-- The items that can be bought. -/
  catalogItems : List CatalogItem := []
deriving DecidableEq

namespace Offer

/-- The names of the fields, in order. -/
def fieldNames : List String := ["campaignId", "creative", "catalogItems"]

/-- The offer that a document describes. -/
def ofValue? (v : Value) : Option Offer := do
  let f ← v.fields? fieldNames
  let campaignId ← f.optionalText? "campaignId"
  let creative ← f.defaulted? "creative" Creative.ofValue? {}
  let catalogItems ← f.defaulted? "catalogItems" (Value.list? CatalogItem.ofValue?) []
  return { campaignId, creative, catalogItems }

/-- The document of an offer; an absent campaign is left out. -/
def toValue (o : Offer) : Value :=
  .object <|
    optionalMember "campaignId" .string o.campaignId ++
    [("creative", o.creative.toValue), ("catalogItems", .ofList CatalogItem.toValue o.catalogItems)]

end Offer

/-- A place of a layout. -/
structure Slot where
  /-- The identifier of this appearance of the slot. -/
  instanceGuid : String := ""
  /-- The token of the slot. -/
  token : String := ""
  /-- The offer in the slot. -/
  offer : Option Offer := none
  /-- A tree for the renderer, not interpreted here. -/
  layoutVariant : Option Value := none

namespace Slot

/-- The names of the fields, in order. -/
def fieldNames : List String := ["instanceGuid", "token", "offer", "layoutVariant"]

/-- The slot that a document describes. -/
def ofValue? (v : Value) : Option Slot := do
  let f ← v.fields? fieldNames
  let instanceGuid ← f.text? "instanceGuid"
  let token ← f.text? "token"
  let offer ← f.optional? "offer" Offer.ofValue?
  let layoutVariant ← f.optional? "layoutVariant" some
  return { instanceGuid, token, offer, layoutVariant }

/-- The document of a slot; an absent offer or tree is left out. -/
def toValue (s : Slot) : Value :=
  .object <|
    [("instanceGuid", .string s.instanceGuid), ("token", .string s.token)] ++
    optionalMember "offer" Offer.toValue s.offer ++
    optionalMember "layoutVariant" id s.layoutVariant

end Slot

end OfferLayout
