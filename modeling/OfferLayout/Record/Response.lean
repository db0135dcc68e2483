/-
**Response options.**

A creative offers up to two responses, one that accepts the offer and one that declines it.

Main definitions:

* `ResponseKey` — which of the two;
* `ResponseKey.named?`, `ResponseKey.parse?` — a key by its exact name, and in any case of letters;
* `ResponseOption`, `ResponseOptions` — one response, and the pair.
-/

import OfferLayout.Json.Fields

set_option relaxedAutoImplicit false
set_option autoImplicit false

namespace OfferLayout

open Json (Value Fields optionalMember)

/-! ### Keys -/

/-- Which of the two responses. -/
inductive ResponseKey where
  /-- The response that accepts the offer. -/
  | positive
  /-- The response that declines the offer. -/
  | negative
deriving DecidableEq, Repr

namespace ResponseKey

/-- The name of a key. -/
def name : ResponseKey → String
  | .positive => "positive"
  | .negative => "negative"

/-- The key with the given name. -/
def named? (s : String) : Option ResponseKey :=
  if s = "positive" then some .positive
  else if s = "negative" then some .negative
  else none

@[simp] theorem named?_name (k : ResponseKey) : named? k.name = some k := by
  cases k <;> rfl

/-- The text with its ASCII letters in lower case. -/
def lowered (s : String) : String := String.ofList (s.toList.map Char.toLower)

/-- The key with the given name in any case of ASCII letters. -/
def parse? (s : String) : Option ResponseKey := named? (lowered s)

/-- What is said about a text that names no key. -/
def unknownMessage (s : String) : String := s!"unknown response key '{lowered s}'"

/-- The key that a document names. -/
def ofValue? : Value → Option ResponseKey := Value.variant? named?

end ResponseKey

/-! ### Responses -/

/-- A response that a creative offers. -/
structure ResponseOption where
  /-- The identifier of the response. -/
  id : String := ""
  /-- What the response does. -/
  action : Option String := none
  /-- The identifier of this appearance of the response. -/
  instanceGuid : String := ""
  /-- The token of the response. -/
  token : String := ""
  /-- The kind of signal the response sends. -/
  signalType : Option String := none
  /-- The short label. -/
  shortLabel : Option String := none
  /-- The long label. -/
  longLabel : Option String := none
  /-- The short label after the response succeeded. -/
  shortSuccessLabel : Option String := none
  /-- Whether the response accepts the offer. -/
  isPositive : Bool := false
  /-- The address the response leads to. -/
  url : Option String := none
  /-- The signed token of the response. -/
  responseJwtToken : Option String := none
deriving DecidableEq, Repr

namespace ResponseOption

/-- The names of the fields, in order. -/
def fieldNames : List String :=
  ["id", "action", "instanceGuid", "token", "signalType", "shortLabel", "longLabel",
    "shortSuccessLabel", "isPositive", "url", "responseJWTToken"]

/-- The response that a document describes. -/
def ofValue? (v : Value) : Option ResponseOption := do
  let f ← v.fields? fieldNames
  let id ← f.text? "id"
  let action ← f.optionalText? "action"
  let instanceGuid ← f.text? "instanceGuid"
  let token ← f.text? "token"
  let signalType ← f.optionalText? "signalType"
  let shortLabel ← f.optionalText? "shortLabel"
  let longLabel ← f.optionalText? "longLabel"
  let shortSuccessLabel ← f.optionalText? "shortSuccessLabel"
  let isPositive ← f.defaulted? "isPositive" Value.bool? false
  let url ← f.optionalText? "url"
  let responseJwtToken ← f.optionalText? "responseJWTToken"
  return { id, action, instanceGuid, token, signalType, shortLabel, longLabel, shortSuccessLabel,
           isPositive, url, responseJwtToken }

/-- The document of a response; absent fields are left out. -/
def toValue (r : ResponseOption) : Value :=
  .object <|
    [("id", .string r.id)] ++
    optionalMember "action" .string r.action ++
    [("instanceGuid", .string r.instanceGuid), ("token", .string r.token)] ++
    optionalMember "signalType" .string r.signalType ++
    optionalMember "shortLabel" .string r.shortLabel ++
    optionalMember "longLabel" .string r.longLabel ++
    optionalMember "shortSuccessLabel" .string r.shortSuccessLabel ++
    [("isPositive", .bool r.isPositive)] ++
    optionalMember "url" .string r.url ++
    optionalMember "responseJWTToken" .string r.responseJwtToken

end ResponseOption

/-- The responses of a creative. -/
structure ResponseOptions where
  /-- The response that accepts the offer. -/
  positive : Option ResponseOption := none
  /-- The response that declines the offer. -/
  negative : Option ResponseOption := none
deriving DecidableEq, Repr

namespace ResponseOptions

/-- The response at a key. -/
def get? (r : ResponseOptions) : ResponseKey → Option ResponseOption
  | .positive => r.positive
  | .negative => r.negative

/-- The names of the fields, in order. -/
def fieldNames : List String := ["positive", "negative"]

/-- The responses that a document describes. -/
def ofValue? (v : Value) : Option ResponseOptions := do
  let f ← v.fields? fieldNames
  let positive ← f.optional? "positive" ResponseOption.ofValue?
  let negative ← f.optional? "negative" ResponseOption.ofValue?
  return { positive, negative }

/-- The document of the responses; absent ones are left out. -/
def toValue (r : ResponseOptions) : Value :=
  .object <|
    optionalMember "positive" ResponseOption.toValue r.positive ++
    optionalMember "negative" ResponseOption.toValue r.negative

end ResponseOptions

end OfferLayout
