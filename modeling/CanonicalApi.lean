import CanonicalApi.Admission
import CanonicalApi.Admission.Capacity
import CanonicalApi.Admission.RetryAfter
import CanonicalApi.Authentication
import CanonicalApi.Cancellation
import CanonicalApi.Circuit
import CanonicalApi.Config
import CanonicalApi.Contract
import CanonicalApi.DataPlane
import CanonicalApi.DataPlane.Frames
import CanonicalApi.DataPlane.Receipts
import CanonicalApi.DataPlane.Requests
import CanonicalApi.Estimate
import CanonicalApi.EventStream
import CanonicalApi.EventStream.Completeness
import CanonicalApi.EventStream.Consistency
import CanonicalApi.EventStream.Delivery
import CanonicalApi.EventStream.Sockets
import CanonicalApi.EventStream.Source
import CanonicalApi.External
import CanonicalApi.Frameworks
import CanonicalApi.Gemini
import CanonicalApi.Gemini.Attempts
import CanonicalApi.Gemini.Boundaries
import CanonicalApi.Gemini.Prompt
import CanonicalApi.Gemini.Schema
import CanonicalApi.Identity
import CanonicalApi.Json
import CanonicalApi.JsonPretty
import CanonicalApi.JsonPretty.Compact
import CanonicalApi.JsonPretty.Reading
import CanonicalApi.JsonPretty.Tags
import CanonicalApi.JsonSchema
import CanonicalApi.Lib.Broadcast
import CanonicalApi.Lib.Calendar
import CanonicalApi.Lib.Chain
import CanonicalApi.Lib.Decimal
import CanonicalApi.Lib.Fields
import CanonicalApi.Lib.Framing
import CanonicalApi.Lib.Interleaving
import CanonicalApi.Lib.Locks
import CanonicalApi.Lib.Noninterference
import CanonicalApi.Lib.Occurrences
import CanonicalApi.Lib.Outcome
import CanonicalApi.Lib.Pagination
import CanonicalApi.Lib.Replay
import CanonicalApi.Lib.Retry
import CanonicalApi.Lib.Search
import CanonicalApi.Lib.Semaphore
import CanonicalApi.Lib.SingleWriter
import CanonicalApi.Lib.Sql
import CanonicalApi.Lib.Statements
import CanonicalApi.Lib.Tasks
import CanonicalApi.Lib.Tickets
import CanonicalApi.Lib.Transaction
import CanonicalApi.Lib.Transition
import CanonicalApi.Lib.Window
import CanonicalApi.Lib.Writers
import CanonicalApi.Listing
import CanonicalApi.Listing.NewestFirst
import CanonicalApi.LockText
import CanonicalApi.Memory.Assessments
import CanonicalApi.Memory.Consistency
import CanonicalApi.Memory.Handlers
import CanonicalApi.Memory.Idempotency
import CanonicalApi.Memory.Isolation
import CanonicalApi.Memory.Lifecycle
import CanonicalApi.Memory.Owners
import CanonicalApi.Memory.Permits
import CanonicalApi.Memory.Publications
import CanonicalApi.Memory.Sequences
import CanonicalApi.Memory.Store
import CanonicalApi.Memory.Workers
import CanonicalApi.Observation.Clock
import CanonicalApi.Observation.Decision
import CanonicalApi.Observation.Digest
import CanonicalApi.Observation.Equivalence
import CanonicalApi.Observation.Event
import CanonicalApi.Observation.Keys
import CanonicalApi.Observation.Ledger
import CanonicalApi.Observation.Memory
import CanonicalApi.Observation.Receipts
import CanonicalApi.Observation.Schema
import CanonicalApi.Observation.Service
import CanonicalApi.Observation.Signature
import CanonicalApi.Observation.Store
import CanonicalApi.Observation.Tamper
import CanonicalApi.PreInterest.DateTimes
import CanonicalApi.PreInterest.Fingerprint
import CanonicalApi.PreInterest.Normalization
import CanonicalApi.PreInterest.Normalizers
import CanonicalApi.PreInterest.Validation
import CanonicalApi.Quote.Agreement
import CanonicalApi.Quote.Alone
import CanonicalApi.Quote.Attempts
import CanonicalApi.Quote.Effects
import CanonicalApi.Quote.EventLog
import CanonicalApi.Quote.Handlers
import CanonicalApi.Quote.Idempotency
import CanonicalApi.Quote.Lifecycle
import CanonicalApi.Quote.Locking
import CanonicalApi.Quote.Persistence
import CanonicalApi.Quote.Schema
import CanonicalApi.Quote.Service
import CanonicalApi.Quote.Tables
import CanonicalApi.Quote.Winners
import CanonicalApi.Readable
import CanonicalApi.Record
import CanonicalApi.Replica
import CanonicalApi.Replica.Charges
import CanonicalApi.Replica.Exclusion
import CanonicalApi.Replica.Ledgers
import CanonicalApi.Schema
import CanonicalApi.Shutdown
import CanonicalApi.Shutdown.Trace
import CanonicalApi.Telemetry
import CanonicalApi.Telemetry.Invariants
import CanonicalApi.Telemetry.Lifecycle
import CanonicalApi.Text
import CanonicalApi.Users
import CanonicalApi.Webhook
import CanonicalApi.Webhook.Delivery
import CanonicalApi.Webhook.Dispatch
import CanonicalApi.Webhook.Feed
import CanonicalApi.Webhook.Forgery
import CanonicalApi.WorkQueue
import CanonicalApi.WorkQueue.Answer
import CanonicalApi.WorkQueue.Isolation
