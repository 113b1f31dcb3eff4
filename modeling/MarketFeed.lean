import MarketFeed.Amount
import MarketFeed.Backoff
import MarketFeed.Book
import MarketFeed.Books
import MarketFeed.Bytes
import MarketFeed.Calendar
import MarketFeed.Callback
import MarketFeed.Client.Session
import MarketFeed.Client.Socket
import MarketFeed.Client.Stage
import MarketFeed.Client.Status
import MarketFeed.Client.World
import MarketFeed.Continuity
import MarketFeed.Credential
import MarketFeed.Decimal.Basic
import MarketFeed.Decimal.Rounding
import MarketFeed.Decimal.Text
import MarketFeed.Decode.Failure
import MarketFeed.Decode.Record
import MarketFeed.Decode.Scalar
import MarketFeed.FeedFailure
import MarketFeed.Json.Binary
import MarketFeed.Json.Draft
import MarketFeed.Json.Number
import MarketFeed.Json.Value
import MarketFeed.KeyOrder
import MarketFeed.Pipeline.Conveyor
import MarketFeed.Pipeline.Desk
import MarketFeed.Pipeline.Dispatch
import MarketFeed.Pipeline.Envelope
import MarketFeed.Pipeline.Intake
import MarketFeed.Pipeline.Notice
import MarketFeed.Pipeline.Payload
import MarketFeed.Powers
import MarketFeed.Proofs.Client.Feeds
import MarketFeed.Proofs.Client.KeepAlive
import MarketFeed.Proofs.Pipeline.Dropping
import MarketFeed.Proofs.Pipeline.Refinement
import MarketFeed.Proofs.Relay.Fidelity
import MarketFeed.Proofs.Relay.History
import MarketFeed.Proofs.Relay.Holding
import MarketFeed.Proofs.Relay.Layout
import MarketFeed.Proofs.Relay.Reading
import MarketFeed.Proofs.Relay.Soundness
import MarketFeed.Proofs.SortedMap
import MarketFeed.Relay.Dock
import MarketFeed.Relay.Memory
import MarketFeed.Relay.Parcel
import MarketFeed.Relay.Ring
import MarketFeed.Roster
import MarketFeed.Rounding
import MarketFeed.Settings
import MarketFeed.SortedMap
import MarketFeed.Subscriptions
import MarketFeed.Tally
import MarketFeed.Text.Blank
import MarketFeed.Text.Integer
import MarketFeed.Text.Printable
import MarketFeed.Text.Quoted
import MarketFeed.Text.Utf8
import MarketFeed.TrafficLog
import MarketFeed.Wire.Account
import MarketFeed.Wire.Channel
import MarketFeed.Wire.Field
import MarketFeed.Wire.Identity
import MarketFeed.Wire.Market
import MarketFeed.Wire.Vocabulary
import MarketFeed.Proofs.Subscriptions
import MarketFeed.Proofs.Client.Keeping
import MarketFeed.Proofs.Client.Mirror
import MarketFeed.Proofs.Client.Bookkeeping
import MarketFeed.Proofs.Books.Edits
import MarketFeed.Proofs.Pipeline.Events
import MarketFeed.Proofs.Pipeline.Overflow
import MarketFeed.Proofs.Pipeline.Reporting
import MarketFeed.Proofs.Tally
import MarketFeed.Proofs.Interleaving
import MarketFeed.Proofs.Books.Times
import MarketFeed.Proofs.Books.Reach
import MarketFeed.Proofs.Pipeline.Accounts
import MarketFeed.Proofs.Pipeline.Redelivery
import MarketFeed.Proofs.Pipeline.Interleaving
import MarketFeed.Proofs.Client.Factory
import MarketFeed.Proofs.Client.Acts
import MarketFeed.Proofs.Client.Soundness
import MarketFeed.Proofs.Client.Strands
import MarketFeed.Proofs.Client.Isolation
import MarketFeed.Proofs.Client.Shutdown
import MarketFeed.Proofs.Continuity
import MarketFeed.Proofs.Roster
import MarketFeed.Proofs.Pipeline.Retirement
import MarketFeed.Proofs.Pipeline.Forgetting
import MarketFeed.Proofs.Client.Reopening
import MarketFeed.Proofs.Books.Ladders
import MarketFeed.Proofs.Books.Rewinding
import MarketFeed.Proofs.Relay.Packing
import MarketFeed.Proofs.Books.Fates
import MarketFeed.Proofs.Pipeline.Counting
import MarketFeed.Proofs.Decimal.Monotone
import MarketFeed.Proofs.Quantities
import MarketFeed.Proofs.Books.Depletion
import MarketFeed.Proofs.Decimal.Text
import MarketFeed.Proofs.Json.Rendering
import MarketFeed.Proofs.Decode.Records
import MarketFeed.Proofs.Wire.Rereading
import MarketFeed.Proofs.Wire.Instants
import MarketFeed.Proofs.Client.Overtaking
import MarketFeed.Proofs.Books.Snapshots
import MarketFeed.Proofs.Books.Products
import MarketFeed.Proofs.Backoff
import MarketFeed.Proofs.Relay.Admission
import MarketFeed.Proofs.Pipeline.Attribution
import MarketFeed.Proofs.Decimal.Reading
import MarketFeed.Proofs.Wire.Spellings
import MarketFeed.Proofs.Unsubscribing
import MarketFeed.Proofs.Decode.Given
import MarketFeed.Proofs.Wire.Terms
import MarketFeed.Proofs.TrafficLog
import MarketFeed.Proofs.Client.Parting
import MarketFeed.Proofs.Client.Settling
