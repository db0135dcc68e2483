/-
**Creatives.**

A creative is what an offer shows: its copy, its responses, its links and its images.

Main definitions:

* `CreativeLink`, `CreativeImage` — a titled link, and an image for light and dark backgrounds;
* `Creative` — a creative.
-/

import OfferLayout.Record.Response

set_option relaxedAutoImplicit false
set_option autoImplicit false

namespace OfferLayout

open Json (Value Fields optionalMember)

/-! ### Links -/

/-- A link with a title. -/
structure CreativeLink where
  /-- The title. -/
  title : String := ""
  /-- The address. -/
  url : String := ""
deriving DecidableEq, Repr

namespace CreativeLink

/-- The names of the fields, in order. -/
def fieldNames : List String := ["title", "url"]

/-- The link that a document describes. -/
def ofValue? (v : Value) : Option CreativeLink := do
  let f ← v.fields? fieldNames
  let title ← f.text? "title"
  let url ← f.text? "url"
  return { title, url }

/-- The document of a link. -/
def toValue (l : CreativeLink) : Value :=
  .object [("title", .string l.title), ("url", .string l.url)]

end CreativeLink

/-! ### Images -/

/-- An image for light and dark backgrounds. -/
structure CreativeImage where
  /-- The address of the image for light backgrounds. -/
  light : String := ""
  /-- The address of the image for dark backgrounds. -/
  dark : Option String := none
  /-- The text to be shown in place of the image. -/
  alt : Option String := none
  /-- The title. -/
  title : Option String := none
deriving DecidableEq, Repr

namespace CreativeImage

/-- The names of the fields, in order. -/
def fieldNames : List String := ["light", "dark", "alt", "title"]

/-- The image that a document describes. -/
def ofValue? (v : Value) : Option CreativeImage := do
  let f ← v.fields? fieldNames
  let light ← f.text? "light"
  let dark ← f.optionalText? "dark"
  let alt ← f.optionalText? "alt"
  let title ← f.optionalText? "title"
  return { light, dark, alt, title }

/-- The document of an image; absent fields are left out. -/
def toValue (i : CreativeImage) : Value :=
  .object <|
    [("light", .string i.light)] ++
    optionalMember "dark" .string i.dark ++
    optionalMember "alt" .string i.alt ++
    optionalMember "title" .string i.title

end CreativeImage

/-! ### Creatives -/

/-- What an offer shows. -/
structure Creative where
  /-- The identifier of the creative. -/
  referralCreativeId : String := ""
  /-- The identifier of this appearance of the creative. -/
  instanceGuid : String := ""
  /-- The token of the creative. -/
  token : String := ""
  /-- The copy, by key. -/
  copy : Dict String := ∅
  /-- The responses. -/
  responses : ResponseOptions := {}
  /-- The links, by key. -/
  links : Dict CreativeLink := ∅
  /-- The images, by key. -/
  images : Dict CreativeImage := ∅
deriving DecidableEq

namespace Creative

/-- The names of the fields, in order. -/
def fieldNames : List String :=
  ["referralCreativeId", "instanceGuid", "token", "copy", "responseOptionsMap", "links", "images"]

/-- The creative that a document describes. -/
def ofValue? (v : Value) : Option Creative := do
  let f ← v.fields? fieldNames
  let referralCreativeId ← f.text? "referralCreativeId"
  let instanceGuid ← f.text? "instanceGuid"
  let token ← f.text? "token"
  let copy ← f.defaulted? "copy" (Value.dict? Value.string?) ∅
  let responses ← f.defaulted? "responseOptionsMap" ResponseOptions.ofValue? {}
  let links ← f.defaulted? "links" (Value.dict? CreativeLink.ofValue?) ∅
  let images ← f.defaulted? "images" (Value.dict? CreativeImage.ofValue?) ∅
  return { referralCreativeId, instanceGuid, token, copy, responses, links, images }

/-- The document of a creative. -/
def toValue (c : Creative) : Value :=
  .object
    [("referralCreativeId", .string c.referralCreativeId),
      ("instanceGuid", .string c.instanceGuid),
      ("token", .string c.token),
      ("copy", .ofDict .string c.copy),
      ("responseOptionsMap", c.responses.toValue),
      ("links", .ofDict CreativeLink.toValue c.links),
      ("images", .ofDict CreativeImage.toValue c.images)]

end Creative

end OfferLayout
