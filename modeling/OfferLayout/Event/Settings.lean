/-
**Settings of the pipeline.**

The pipeline is set up by how long a window stays open, who reports that a page is being loaded, and
the integration that accompanies the events.  Settings are read from a settings text; what is
missing in it takes its usual value, and what is unknown is ignored.  An integration that is given
replaces the usual one as a whole.

Main definitions:

* `Settings` — the settings;
* `Settings.delay` — the time after which a window is closed;
* `IntegrationMode.ofToml?`, `Integration.ofToml?` — parts of a settings text;
* `Settings.ofToml?`, `Settings.ofString?` — **the settings that a text gives**.

Main results:

* `Settings.ofString?_empty` — the empty text gives the usual settings.
-/

import OfferLayout.Event.Integration
import OfferLayout.Toml.Document

set_option relaxedAutoImplicit false
set_option autoImplicit false

namespace OfferLayout

/-! ### Settings -/

/-- The settings of the pipeline. -/
structure Settings where
  /-- How long a window stays open, in milliseconds. -/
  debounce : Nat := 25
  /-- Who reports that a page is being loaded. -/
  mode : IntegrationMode := .client
  /-- The integration that accompanies the events. -/
  integration : Integration := { name := "placard-events", version := "0.1.0" }
deriving DecidableEq, Repr

/-- The longest time for which a timer can be set, in milliseconds: thirty years of 365 days. -/
def longestDelay : Nat := 946080000000

/-- The time after which the timer of a window closes it.  A window that is to stay open for longer
than any timer is closed by the longest one. -/
def Settings.delay (s : Settings) : Nat := min s.debounce longestDelay

/-! ### Parts of a settings text -/

/-- The mode that a value names: a text, or a table whose only member bears the name and is empty.
-/
def IntegrationMode.ofToml? : Toml.Value → Option IntegrationMode
  | .text s => named? s
  | .table [(name, .table [])] => named? name
  | .table [(name, .array [])] => named? name
  | _ => none

/-- The text of a part that may be missing, which is the same as empty. -/
def textOrEmpty? : Option Toml.Value → Option String
  | none => some ""
  | some (.text s) => some s
  | some _ => none

/-- The integration that a value describes: a table of texts, or an array of the texts in the order
of the fields.  A date or time is a table without any of them. -/
def Integration.ofToml? : Toml.Value → Option Integration
  | .table members => ofParts? fun name => textOrEmpty? (members.lookup name)
  | .array items => ofParts? fun name => textOrEmpty? ((fieldNames.zip items).lookup name)
  | .dateTime _ => some {}
  | _ => none

/-- The number of milliseconds that a value gives. -/
def millisecondsOfToml? : Toml.Value → Option Nat
  | .integer n => n.toNat?
  | _ => none

namespace Settings

/-- A part of the settings, which has its usual value if it is missing. -/
def part? {α : Type} (members : List (String × Toml.Value)) (name : String)
    (decode : Toml.Value → Option α) (usual : α) : Option α :=
  match members.lookup name with
  | none => some usual
  | some v => decode v

/-- The settings that a table gives. -/
def ofToml? : Toml.Value → Option Settings
  | .table members => do
      let usual : Settings := {}
      let debounce ← part? members "debounce_ms" millisecondsOfToml? usual.debounce
      let mode ← part? members "integration_mode" IntegrationMode.ofToml? usual.mode
      let integration ← part? members "integration" Integration.ofToml? usual.integration
      return { debounce, mode, integration }
  | _ => none

/-- **The settings that a text gives.** -/
def ofString? (s : String) : Option Settings := (Toml.Value.ofString? s).bind ofToml?

/-- The empty text gives the usual settings. -/
theorem ofString?_empty : ofString? "" = some {} := by
  simp [ofString?, Toml.Value.ofString?, Toml.withoutMark, Toml.lines?, Toml.Node.empty,
    Toml.Node.toValue, Toml.Node.toMembers, ofToml?, part?]

end Settings

end OfferLayout
