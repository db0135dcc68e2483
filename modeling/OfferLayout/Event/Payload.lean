/-
**Batches of events as payloads.**

A batch leaves as one document: the integration, and the events in the order in which they were
queued.

Main definitions:

* `Payload` — an integration and its events;
* `Payload.text` — **the text that is sent**.

Main results:

* `Payload.toValue_events` — the events are found in the document.
-/

import OfferLayout.Event.Basic
import OfferLayout.Event.Integration

set_option relaxedAutoImplicit false
set_option autoImplicit false

namespace OfferLayout

open Json (Value)

/-- A batch of events with the integration they come from. -/
structure Payload where
  /-- The integration. -/
  integration : Integration
  /-- The events, in the order in which they were queued. -/
  events : List Event
deriving DecidableEq

namespace Payload

/-- The document of a payload. -/
def toValue (p : Payload) : Value :=
  .object [("integration", p.integration.toValue), ("events", .ofList Event.toValue p.events)]

/-- **The text that is sent.** -/
def text (p : Payload) : String := p.toValue.text

/-- The events are found in the document. -/
theorem toValue_events (p : Payload) :
    p.toValue.get? "events" = some (.array (p.events.map Event.toValue)) := by
  simp [toValue, Value.ofList, List.lookup_cons]

end Payload

end OfferLayout
