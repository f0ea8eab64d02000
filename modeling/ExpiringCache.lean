import ExpiringCache.Json.Reader
import ExpiringCache.Session.State
import ExpiringCache.Proofs.Merging
import ExpiringCache.Proofs.Sharding
import ExpiringCache.Proofs.KeySpaces
import ExpiringCache.Proofs.Loading
import ExpiringCache.Proofs.Text.Utf8
import ExpiringCache.Proofs.TimedMap
import ExpiringCache.Proofs.Time.Date
import ExpiringCache.Proofs.Text.Decimal
import ExpiringCache.Proofs.Except
import ExpiringCache.Proofs.Time.Timestamp
import ExpiringCache.Proofs.Time.Deadlines
import ExpiringCache.Proofs.Trees
import ExpiringCache.Proofs.Snapshot.Grammar
import ExpiringCache.Proofs.Snapshot.Parts
import ExpiringCache.Proofs.Snapshot.Values
import ExpiringCache.Proofs.Snapshot.Decoding
import ExpiringCache.Proofs.Snapshot.RoundTrip
import ExpiringCache.Proofs.Snapshot.Truncation
import ExpiringCache.Proofs.Sinks
import ExpiringCache.Proofs.Saving
import ExpiringCache.Proofs.Transfer
import ExpiringCache.Proofs.Accounting
import ExpiringCache.Proofs.Sweeping
import ExpiringCache.Proofs.Snapshot.Handles
import ExpiringCache.Proofs.Delivery
import ExpiringCache.Proofs.Lifecycle
import ExpiringCache.Proofs.Residents
import ExpiringCache.Proofs.Placement
import ExpiringCache.Proofs.Counters
import ExpiringCache.Proofs.Interleaving
import ExpiringCache.Proofs.Number.Stopping
import ExpiringCache.Proofs.Number.Widths
import ExpiringCache.Proofs.Unions
import ExpiringCache.Proofs.Files
import ExpiringCache.Proofs.Footprints
import ExpiringCache.Proofs.Reporting
import ExpiringCache.Proofs.Division
import ExpiringCache.Proofs.Defaults
import ExpiringCache.Proofs.Text.Order
import ExpiringCache.Proofs.Snapshot.NormalForm
import ExpiringCache.Proofs.Equality
import ExpiringCache.Proofs.Documents
import ExpiringCache.Proofs.Environment
import ExpiringCache.Proofs.Hashing
