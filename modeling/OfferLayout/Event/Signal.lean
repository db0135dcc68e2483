/-
**Signals.**

A view reports what happens to it as signals.  Two of them stand for a repeated act of a person and
are reported every time they occur; two others tell that a page is being loaded, which a partner
that reports from its own server tells by itself.

Main definitions:

* `Signal` — a signal;
* `Signal.name`, `Signal.named?` — its name, and the signal of a name;
* `Signal.isRepeatable`, `Signal.isLoad` — the two special kinds.

Main results:

* `Signal.named?_name` — a signal is found by its name.
-/

import OfferLayout.Json.Fields

set_option relaxedAutoImplicit false
set_option autoImplicit false

namespace OfferLayout

open Json (Value)

/-- What a view reports. -/
inductive Signal where
  /-- The view was set up. -/
  | setUp
  /-- The page began to load. -/
  | loadStart
  /-- The page has been loaded. -/
  | loadComplete
  /-- The view was put on the page. -/
  | impression
  /-- The view was seen. -/
  | viewed
  /-- A response was given. -/
  | response
  /-- A response was given behind a gate. -/
  | gatedResponse
  /-- The view was dismissed. -/
  | dismissal
  /-- The view was activated. -/
  | activation
  /-- The time spent on the page. -/
  | timeOnSite
  /-- Something was done with the view. -/
  | userInteraction
  /-- An instant purchase was begun. -/
  | purchaseInitiated
  /-- An instant purchase was made. -/
  | purchase
  /-- An instant purchase failed. -/
  | purchaseFailure
  /-- An instant purchase was dismissed. -/
  | purchaseDismissal
deriving DecidableEq, Repr

namespace Signal

/-- All signals. -/
def all : List Signal :=
  [.setUp, .loadStart, .loadComplete, .impression, .viewed, .response, .gatedResponse, .dismissal,
    .activation, .timeOnSite, .userInteraction, .purchaseInitiated, .purchase, .purchaseFailure,
    .purchaseDismissal]

/-- The name of a signal. -/
def name : Signal → String
  | .setUp => "SignalInitialize"
  | .loadStart => "SignalLoadStart"
  | .loadComplete => "SignalLoadComplete"
  | .impression => "SignalImpression"
  | .viewed => "SignalViewed"
  | .response => "SignalResponse"
  | .gatedResponse => "SignalGatedResponse"
  | .dismissal => "SignalDismissal"
  | .activation => "SignalActivation"
  | .timeOnSite => "SignalTimeOnSite"
  | .userInteraction => "SignalUserInteraction"
  | .purchaseInitiated => "SignalCartItemInstantPurchaseInitiated"
  | .purchase => "SignalCartItemInstantPurchase"
  | .purchaseFailure => "SignalCartItemInstantPurchaseFailure"
  | .purchaseDismissal => "SignalInstantPurchaseDismissal"

/-- The signal of a name. -/
def named? (s : String) : Option Signal := all.find? fun signal => signal.name = s

/-- **A signal is found by its name.** -/
@[simp] theorem named?_name (signal : Signal) : named? signal.name = some signal := by
  cases signal <;> decide

/-- Whether a signal is reported every time it occurs. -/
def isRepeatable (signal : Signal) : Bool :=
  signal = .userInteraction || signal = .purchaseInitiated

/-- Whether a signal tells that the page is being loaded. -/
def isLoad (signal : Signal) : Bool := signal = .loadStart || signal = .loadComplete

theorem isRepeatable_iff {signal : Signal} :
    signal.isRepeatable = true ↔ signal = .userInteraction ∨ signal = .purchaseInitiated := by
  simp [isRepeatable]

theorem isLoad_iff {signal : Signal} :
    signal.isLoad = true ↔ signal = .loadStart ∨ signal = .loadComplete := by
  simp [isLoad]

/-- The signal that a document names. -/
def ofValue? : Value → Option Signal := Value.variant? named?

end Signal

end OfferLayout
