import OfferLayout.Event.Guid
import OfferLayout.Event.Time
import OfferLayout.Main
import OfferLayout.Proofs.Text.Marker
import OfferLayout.Proofs.Text.Span
import OfferLayout.Proofs.Template.Decomposition
import OfferLayout.Proofs.Expansion.Chain
import OfferLayout.Proofs.Expansion.Filling
import OfferLayout.Proofs.Expansion.Splice
import OfferLayout.Proofs.Event.Conservation
import OfferLayout.Proofs.Expansion.Scope
import OfferLayout.Proofs.Expansion.Visibility
import OfferLayout.Proofs.Event.Window
import OfferLayout.Proofs.Expansion.Agreement
import OfferLayout.Proofs.Event.Batch
import OfferLayout.Proofs.Event.Clock
import OfferLayout.Proofs.Event.Greedy
import OfferLayout.Proofs.Event.Deadline
import OfferLayout.Proofs.Event.History
import OfferLayout.Proofs.Event.Erasure
import OfferLayout.Proofs.Event.Producers
import OfferLayout.Proofs.Event.RoundTrip
import OfferLayout.Proofs.Json.Indented
import OfferLayout.Proofs.Text.Pieces
import OfferLayout.Proofs.Template.Pieces
import OfferLayout.Proofs.Expansion.Fallback
import OfferLayout.Proofs.Template.Concatenation
import OfferLayout.Proofs.Expansion.Segments
import OfferLayout.Proofs.Expansion.Concatenation
import OfferLayout.Proofs.Template.LinkSpelling
import OfferLayout.Proofs.Command.EventLines
import OfferLayout.Proofs.Command.Replay
import OfferLayout.Proofs.Predicate.Conditions
import OfferLayout.Proofs.Predicate.Decoding
import OfferLayout.Proofs.Predicate.Dependence
import OfferLayout.Proofs.Predicate.Copy
import OfferLayout.Proofs.Record.NormalForm
import OfferLayout.Proofs.Text.Numeral
import OfferLayout.Proofs.Predicate.Documents
import OfferLayout.Proofs.Expansion.Mandatory
import OfferLayout.Proofs.Record.Reach
import OfferLayout.Proofs.Number.Value
import OfferLayout.Proofs.Predicate.Numeric
import OfferLayout.Proofs.Number.Integer
import OfferLayout.Proofs.Predicate.Index
import OfferLayout.Proofs.Number.Order
import OfferLayout.Proofs.Predicate.Breakpoint
import OfferLayout.Proofs.Dict
import OfferLayout.Proofs.Text.ByteOrder
import OfferLayout.Proofs.Record.Loading
import OfferLayout.Proofs.Expansion.UniqueForm
import OfferLayout.Proofs.Template.Grammar
import OfferLayout.Proofs.Number.Rounding
import OfferLayout.Proofs.Predicate.Viewport
