import StoreQuery.Condition
import StoreQuery.Cql.Datum
import StoreQuery.Cql.Keyspace
import StoreQuery.Cql.Statement
import StoreQuery.Cql.Table
import StoreQuery.Entity
import StoreQuery.Error
import StoreQuery.Json.Basic
import StoreQuery.Json.Reader
import StoreQuery.Log
import StoreQuery.MapStore.Bucket
import StoreQuery.MapStore.MemoryMap
import StoreQuery.MapStore.Predicate
import StoreQuery.MapStore.Record
import StoreQuery.MapStore.Store
import StoreQuery.Number.Decimal
import StoreQuery.Number.Double
import StoreQuery.Number.DoubleText
import StoreQuery.Number.Power
import StoreQuery.Paging.EntityOrder
import StoreQuery.Paging.EntityStream
import StoreQuery.Paging.Page
import StoreQuery.Paging.Pager
import StoreQuery.Paging.Profile
import StoreQuery.Paging.Source
import StoreQuery.Paging.StableSort
import StoreQuery.Proofs.Condition.Compilers
import StoreQuery.Proofs.Condition.Meaning
import StoreQuery.Proofs.Conversion
import StoreQuery.Proofs.Cql.Outline
import StoreQuery.Proofs.Cql.OutlineText
import StoreQuery.Proofs.Cql.Relations
import StoreQuery.Proofs.Cql.RoundTrip
import StoreQuery.Proofs.Cql.StatementText
import StoreQuery.Proofs.Cql.Strategies
import StoreQuery.Proofs.Cql.TimeToLive
import StoreQuery.Proofs.Cql.Tokens
import StoreQuery.Proofs.Entity.Building
import StoreQuery.Proofs.Entity.History
import StoreQuery.Proofs.Failures
import StoreQuery.Proofs.Json.Fields
import StoreQuery.Proofs.Json.Ordered
import StoreQuery.Proofs.Json.Reading
import StoreQuery.Proofs.Log
import StoreQuery.Proofs.MapStore.Compilation
import StoreQuery.Proofs.MapStore.Crossing
import StoreQuery.Proofs.MapStore.Expiry
import StoreQuery.Proofs.MapStore.Identity
import StoreQuery.Proofs.MapStore.KeyText
import StoreQuery.Proofs.MapStore.Ledger
import StoreQuery.Proofs.MapStore.Matching
import StoreQuery.Proofs.MapStore.PageOrder
import StoreQuery.Proofs.MapStore.Reachable
import StoreQuery.Proofs.MapStore.Readable
import StoreQuery.Proofs.MapStore.Reading
import StoreQuery.Proofs.MapStore.Replacement
import StoreQuery.Proofs.MapStore.Requests
import StoreQuery.Proofs.MapStore.RoundTrip
import StoreQuery.Proofs.MapStore.Sharing
import StoreQuery.Proofs.Number.Decimal
import StoreQuery.Proofs.Number.DoubleText
import StoreQuery.Proofs.Number.Nearest
import StoreQuery.Proofs.Number.Numeral
import StoreQuery.Proofs.Number.Reading
import StoreQuery.Proofs.Number.Spacing
import StoreQuery.Proofs.Number.WholePart
import StoreQuery.Proofs.Number.WholeText
import StoreQuery.Proofs.Paging.Accounts
import StoreQuery.Proofs.Paging.Blocks
import StoreQuery.Proofs.Paging.Call
import StoreQuery.Proofs.Paging.Delivery
import StoreQuery.Proofs.Paging.EntityOrder
import StoreQuery.Proofs.Paging.Exhaustion
import StoreQuery.Proofs.Paging.Feed
import StoreQuery.Proofs.Paging.Requests
import StoreQuery.Proofs.Paging.Rows
import StoreQuery.Proofs.Paging.Serving
import StoreQuery.Proofs.Paging.StableSort
import StoreQuery.Proofs.Paging.Windowing
import StoreQuery.Proofs.Query.Construction
import StoreQuery.Proofs.Query.Drafting
import StoreQuery.Proofs.Removal
import StoreQuery.Proofs.Search.Instants
import StoreQuery.Proofs.Search.Numbers
import StoreQuery.Proofs.Search.Places
import StoreQuery.Proofs.Search.Reading
import StoreQuery.Proofs.Search.RoundTrip
import StoreQuery.Proofs.Search.Scope
import StoreQuery.Proofs.Search.Truth
import StoreQuery.Proofs.Search.Wildcard
import StoreQuery.Proofs.Session
import StoreQuery.Proofs.Settings.Layers
import StoreQuery.Proofs.Settings.Sections
import StoreQuery.Proofs.Settings.Sources
import StoreQuery.Proofs.Step
import StoreQuery.Proofs.Text.Base64
import StoreQuery.Proofs.Text.Expression
import StoreQuery.Proofs.Text.LikeMatches
import StoreQuery.Proofs.Text.Lower
import StoreQuery.Proofs.Text.Quoted
import StoreQuery.Proofs.Text.Runs
import StoreQuery.Proofs.Time.Calendar
import StoreQuery.Proofs.Time.Counting
import StoreQuery.Proofs.Time.InstantReading
import StoreQuery.Proofs.Time.InstantText
import StoreQuery.Proofs.Time.Millis
import StoreQuery.Proofs.Time.Timestamp
import StoreQuery.Proofs.Value.Coercion
import StoreQuery.Proofs.Value.Equality
import StoreQuery.Proofs.Value.Integers
import StoreQuery.Proofs.Value.Numbers
import StoreQuery.Proofs.Value.Order
import StoreQuery.Proofs.Value.PartialOrder
import StoreQuery.Proofs.Value.Parts
import StoreQuery.Proofs.Value.Rearrangement
import StoreQuery.Proofs.Value.Sameness
import StoreQuery.Proofs.Value.SortPlace
import StoreQuery.Proofs.Verdict
import StoreQuery.Proofs.Writing.AllOrNothing
import StoreQuery.Proofs.Writing.Encoding
import StoreQuery.Proofs.Writing.Journal
import StoreQuery.Query.Basic
import StoreQuery.Query.Draft
import StoreQuery.Repository
import StoreQuery.Search.Body
import StoreQuery.Search.Documents
import StoreQuery.Search.Hit
import StoreQuery.Session
import StoreQuery.Settings.Layers
import StoreQuery.Settings.Path
import StoreQuery.Settings.Sections
import StoreQuery.Settings.Tree
import StoreQuery.Step
import StoreQuery.Text.Base64
import StoreQuery.Text.Blank
import StoreQuery.Text.Cased
import StoreQuery.Text.Expression
import StoreQuery.Text.Hex
import StoreQuery.Text.Identifier
import StoreQuery.Text.LikePattern
import StoreQuery.Text.Lower
import StoreQuery.Text.Quoted
import StoreQuery.Text.Runs
import StoreQuery.Text.Unprinted
import StoreQuery.Time.Calendar
import StoreQuery.Time.Instant
import StoreQuery.Time.Rfc3339
import StoreQuery.Time.TimeToLive
import StoreQuery.Value.Basic
import StoreQuery.Value.Coerce
import StoreQuery.Value.Kind
import StoreQuery.Value.Order
