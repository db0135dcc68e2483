/-
**Integrations.**

An integration is the program that shows the views and the device it runs on.  It is described by
eleven texts, each of which is empty unless it is given, and it accompanies every batch of events.

Main definitions:

* `Integration` — an integration;
* `Integration.ofParts?` — the integration whose texts are found by name;
* `Integration.ofValue?`, `Integration.toValue` — integrations and documents;
* `IntegrationMode` — who reports that a page is being loaded.

Main results:

* `IntegrationMode.named?_name` — a mode is found by its name.
-/

import OfferLayout.Json.Fields

set_option relaxedAutoImplicit false
set_option autoImplicit false

namespace OfferLayout

open Json (Value)

/-! ### Integrations -/

/-- The program that shows the views, and the device it runs on. -/
structure Integration where
  /-- The name of the program. -/
  name : String := ""
  /-- The version of the program. -/
  version : String := ""
  /-- The framework it uses. -/
  framework : String := ""
  /-- The platform it runs on. -/
  platform : String := ""
  /-- The version of the layouts it reads. -/
  layoutSchemaVersion : String := ""
  /-- The kind of device. -/
  deviceType : String := ""
  /-- The operating system. -/
  operatingSystem : String := ""
  /-- The version of the operating system. -/
  operatingSystemVersion : String := ""
  /-- The model of the device. -/
  deviceModel : String := ""
  /-- The name of the package that holds the program. -/
  packageName : String := ""
  /-- The version of that package. -/
  packageVersion : String := ""
deriving DecidableEq, Repr

namespace Integration

/-- The names of the fields, in order. -/
def fieldNames : List String :=
  ["name", "version", "framework", "platform", "layoutSchemaVersion", "deviceType",
    "operatingSystem", "operatingSystemVersion", "deviceModel", "packageName", "packageVersion"]

/-- The integration whose texts are found by name. -/
def ofParts? (part : String → Option String) : Option Integration := do
  let name ← part "name"
  let version ← part "version"
  let framework ← part "framework"
  let platform ← part "platform"
  let layoutSchemaVersion ← part "layoutSchemaVersion"
  let deviceType ← part "deviceType"
  let operatingSystem ← part "operatingSystem"
  let operatingSystemVersion ← part "operatingSystemVersion"
  let deviceModel ← part "deviceModel"
  let packageName ← part "packageName"
  let packageVersion ← part "packageVersion"
  return { name, version, framework, platform, layoutSchemaVersion, deviceType, operatingSystem,
           operatingSystemVersion, deviceModel, packageName, packageVersion }

/-- The integration that a document describes. -/
def ofValue? (v : Value) : Option Integration :=
  (v.fields? fieldNames).bind fun f => ofParts? f.text?

/-- The document of an integration. -/
def toValue (i : Integration) : Value :=
  .object
    [("name", .string i.name), ("version", .string i.version), ("framework", .string i.framework),
      ("platform", .string i.platform), ("layoutSchemaVersion", .string i.layoutSchemaVersion),
      ("deviceType", .string i.deviceType), ("operatingSystem", .string i.operatingSystem),
      ("operatingSystemVersion", .string i.operatingSystemVersion),
      ("deviceModel", .string i.deviceModel), ("packageName", .string i.packageName),
      ("packageVersion", .string i.packageVersion)]

end Integration

/-! ### Modes -/

/-- Who reports that a page is being loaded. -/
inductive IntegrationMode where
  /-- The views report all their signals themselves. -/
  | client
  /-- A partner reports the loading of the page from its server. -/
  | server
deriving DecidableEq, Repr

namespace IntegrationMode

/-- The name of a mode. -/
def name : IntegrationMode → String
  | .client => "sdk"
  | .server => "s2s"

/-- The mode of a name. -/
def named? (s : String) : Option IntegrationMode :=
  if s = "sdk" then some .client else if s = "s2s" then some .server else none

/-- **A mode is found by its name.** -/
@[simp] theorem named?_name (m : IntegrationMode) : named? m.name = some m := by
  cases m <;> decide

end IntegrationMode

end OfferLayout
