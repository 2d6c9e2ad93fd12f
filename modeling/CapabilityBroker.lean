import CapabilityBroker.Cache.Basic
import CapabilityBroker.Cache.Budget
import CapabilityBroker.Cache.History
import CapabilityBroker.Cache.Recency
import CapabilityBroker.Capability.Basic
import CapabilityBroker.Capability.Codec
import CapabilityBroker.Capability.Set
import CapabilityBroker.Catalog
import CapabilityBroker.CircuitBreaker
import CapabilityBroker.Decimal.Binary64
import CapabilityBroker.Decimal.Rounding
import CapabilityBroker.Decimal.Shortest
import CapabilityBroker.Error
import CapabilityBroker.Files.Tree
import CapabilityBroker.Json.Basic
import CapabilityBroker.Json.Document
import CapabilityBroker.Json.Numeral
import CapabilityBroker.Json.Printer
import CapabilityBroker.Json.Record
import CapabilityBroker.Lock.Basic
import CapabilityBroker.Lock.Roster
import CapabilityBroker.Lock.Session
import CapabilityBroker.Memory.Meminfo
import CapabilityBroker.Memory.Pressure
import CapabilityBroker.Memory.Usage
import CapabilityBroker.Memory.Watch
import CapabilityBroker.Proofs.Breaker.Trials
import CapabilityBroker.Proofs.Breaker.Verdicts
import CapabilityBroker.Proofs.Bucket.Rate
import CapabilityBroker.Proofs.Bucket.Refill
import CapabilityBroker.Proofs.Cache.Consistency
import CapabilityBroker.Proofs.Cache.Contents
import CapabilityBroker.Proofs.Cache.Recency
import CapabilityBroker.Proofs.Catalog.Flags
import CapabilityBroker.Proofs.Keyed
import CapabilityBroker.Proofs.Lock.History
import CapabilityBroker.Proofs.Lock.Order
import CapabilityBroker.Proofs.Lock.Ownership
import CapabilityBroker.Proofs.Lock.Sessions
import CapabilityBroker.Proofs.Service.Catalog
import CapabilityBroker.Proofs.Service.Disposal
import CapabilityBroker.Proofs.Service.Exclusion
import CapabilityBroker.Proofs.Service.Exits
import CapabilityBroker.Proofs.Service.Provenance
import CapabilityBroker.Proofs.Service.Quiet
import CapabilityBroker.Proofs.Service.Steps
import CapabilityBroker.Proofs.Service.Trials
import CapabilityBroker.Redaction
import CapabilityBroker.Request.Basic
import CapabilityBroker.Request.Codec
import CapabilityBroker.Request.Injection
import CapabilityBroker.Request.Validation
import CapabilityBroker.Resolver
import CapabilityBroker.Retry.Backoff
import CapabilityBroker.Retry.Basic
import CapabilityBroker.Service.Basic
import CapabilityBroker.Service.Call
import CapabilityBroker.Service.Events
import CapabilityBroker.Service.History
import CapabilityBroker.Service.Session
import CapabilityBroker.Service.Settings
import CapabilityBroker.Service.SettingsFile
import CapabilityBroker.Service.Upkeep
import CapabilityBroker.Telemetry.Signal
import CapabilityBroker.Telemetry.Sink
import CapabilityBroker.Text.Blank
import CapabilityBroker.Text.CaseFold
import CapabilityBroker.Text.Quoted
import CapabilityBroker.Text.Visible
import CapabilityBroker.Time.Duration
import CapabilityBroker.Time.Scalar
import CapabilityBroker.Time.Ticker
import CapabilityBroker.Time.Timeline
import CapabilityBroker.TokenBucket
import CapabilityBroker.TokenBucket.History
import CapabilityBroker.Toml.Basic
import CapabilityBroker.Toml.Build
import CapabilityBroker.Toml.Numbers
import CapabilityBroker.Toml.Reader
import CapabilityBroker.Toml.Strings
import CapabilityBroker.Work
import CapabilityBroker.CircuitBreaker.History
import CapabilityBroker.Proofs.Breaker.Counting
import CapabilityBroker.Proofs.Breaker.Cooling
import CapabilityBroker.Proofs.Memory.Handlers
import CapabilityBroker.Proofs.Retry.Scripts
import CapabilityBroker.Proofs.Service.Attempts
import CapabilityBroker.Proofs.Redaction.Values
import CapabilityBroker.Proofs.Redaction.Errors
import CapabilityBroker.Proofs.Service.Twins
import CapabilityBroker.Proofs.Service.FailureLogs
import CapabilityBroker.Proofs.Service.TwinSessions
import CapabilityBroker.Proofs.Service.Telemetry
import CapabilityBroker.Proofs.Cache.Lookups
import CapabilityBroker.Proofs.Service.Accounts
import CapabilityBroker.Proofs.Service.Ledger
import CapabilityBroker.Proofs.Json.Documents
import CapabilityBroker.Proofs.Cache.Evictions
import CapabilityBroker.Proofs.Cache.Invariants
import CapabilityBroker.Proofs.Cache.Lifetimes
import CapabilityBroker.Proofs.Cache.Sweeping
import CapabilityBroker.Proofs.Json.RoundTrip
import CapabilityBroker.Retry.Outcome
import CapabilityBroker.Proofs.Bucket.Levels
import CapabilityBroker.Proofs.Bucket.Hints
import CapabilityBroker.Proofs.Bucket.Reads
import CapabilityBroker.Proofs.Service.Limits
import CapabilityBroker.Proofs.Retry.Runs
import CapabilityBroker.Proofs.Capability.Merging
import CapabilityBroker.Proofs.Capability.Masking
import CapabilityBroker.Proofs.Text.Letters
import CapabilityBroker.Proofs.Catalog.Spelling
import CapabilityBroker.Proofs.Cache.Alignment
import CapabilityBroker.Proofs.Cache.Turnover
import CapabilityBroker.Proofs.Catalog.Precedence
import CapabilityBroker.Proofs.Text.Trimming
import CapabilityBroker.Proofs.Request.ModelIds
import CapabilityBroker.Proofs.Request.Injection
import CapabilityBroker.Proofs.Request.Acceptance
import CapabilityBroker.Proofs.Request.BlankIds
import CapabilityBroker.Memory.History
import CapabilityBroker.Proofs.Memory.Reclaiming
import CapabilityBroker.Cache.Recency.History
import CapabilityBroker.Proofs.Cache.Listing
import CapabilityBroker.Proofs.Retry.Delays
import CapabilityBroker.Proofs.Memory.Readings
