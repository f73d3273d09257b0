import NodeAttestation.Batch.Basic
import NodeAttestation.Batch.Schedule
import NodeAttestation.Batch.Work
import NodeAttestation.Bytes
import NodeAttestation.Cache.Basic
import NodeAttestation.Cache.Report
import NodeAttestation.Client
import NodeAttestation.Double.Basic
import NodeAttestation.Double.Notation
import NodeAttestation.Double.Shortest
import NodeAttestation.Error
import NodeAttestation.Exchange
import NodeAttestation.File
import NodeAttestation.Frame
import NodeAttestation.Host
import NodeAttestation.Identifier
import NodeAttestation.Invocation
import NodeAttestation.Json.Fault
import NodeAttestation.Json.Number
import NodeAttestation.Json.Reader
import NodeAttestation.Json.Record
import NodeAttestation.Json.Text
import NodeAttestation.Json.Value
import NodeAttestation.Outcome
import NodeAttestation.Power
import NodeAttestation.Proofs.Batch.Breakdown
import NodeAttestation.Proofs.Batch.Cap
import NodeAttestation.Proofs.Batch.Change
import NodeAttestation.Proofs.Batch.Convergence
import NodeAttestation.Proofs.Batch.Deduplication
import NodeAttestation.Proofs.Batch.Events
import NodeAttestation.Proofs.Batch.Isolation
import NodeAttestation.Proofs.Batch.Ledger
import NodeAttestation.Proofs.Batch.Log
import NodeAttestation.Proofs.Batch.Run
import NodeAttestation.Proofs.Batch.Sharing
import NodeAttestation.Proofs.Batch.Step
import NodeAttestation.Proofs.Batch.Validity
import NodeAttestation.Proofs.Cache.Locality
import NodeAttestation.Proofs.Cache.Expiry
import NodeAttestation.Proofs.Cache.Operations
import NodeAttestation.Proofs.Cache.Records
import NodeAttestation.Proofs.Cache.Tracking
import NodeAttestation.Proofs.Double.Rounding
import NodeAttestation.Proofs.Frame.Chunking
import NodeAttestation.Proofs.Frame.Reading
import NodeAttestation.Proofs.Frame.RoundTrip
import NodeAttestation.Proofs.Frame.Truncation
import NodeAttestation.Proofs.Invocation.Reporting
import NodeAttestation.Proofs.Invocation.Requests
import NodeAttestation.Proofs.Invocation.Rounds
import NodeAttestation.Proofs.Invocation.Session
import NodeAttestation.Proofs.Invocation.Warmth
import NodeAttestation.Proofs.Keys
import NodeAttestation.Proofs.RateLimit.Lifetime
import NodeAttestation.Proofs.RateLimit.Receiving
import NodeAttestation.Proofs.Time.Adding
import NodeAttestation.Proofs.Time.Elapsing
import NodeAttestation.Proofs.Verification.Alone
import NodeAttestation.Proofs.Verification.Answers
import NodeAttestation.Proofs.Verification.Checks
import NodeAttestation.Proofs.Verification.Effect
import NodeAttestation.Proofs.Verification.Ending
import NodeAttestation.Proofs.Verification.Identification
import NodeAttestation.Proofs.Verification.Transition
import NodeAttestation.Proofs.Wire.Fields
import NodeAttestation.Proofs.Wire.Messages
import NodeAttestation.Proofs.Wire.Reading
import NodeAttestation.RateLimit.Basic
import NodeAttestation.RateLimit.Limiter
import NodeAttestation.RateLimit.Text
import NodeAttestation.Settings.Basic
import NodeAttestation.Settings.Limits
import NodeAttestation.Settings.Text
import NodeAttestation.SortedMap
import NodeAttestation.Telemetry
import NodeAttestation.Text.Blank
import NodeAttestation.Text.Hidden
import NodeAttestation.Text.Quoted
import NodeAttestation.Time.Calendar
import NodeAttestation.Time.Clock
import NodeAttestation.Time.Instant
import NodeAttestation.Time.Stamp
import NodeAttestation.Verification.Basic
import NodeAttestation.Verification.Scripted
import NodeAttestation.Verification.Task
import NodeAttestation.Wire.Decode
import NodeAttestation.Wire.Encode
import NodeAttestation.Wire.Field
import NodeAttestation.Wire.Message
import NodeAttestation.Workload
import NodeAttestation.Proofs.Invocation.Refusal
import NodeAttestation.Proofs.RateLimit.Updates
import NodeAttestation.Proofs.Batch.Limiting
import NodeAttestation.Proofs.Digits
import NodeAttestation.Proofs.Time.Calendar
import NodeAttestation.Proofs.Time.Stamp
import NodeAttestation.Proofs.Double.Spacing
import NodeAttestation.Proofs.Json.Number
import NodeAttestation.Proofs.Json.Text
import NodeAttestation.Proofs.Double.Shortest
import NodeAttestation.Proofs.Double.Rescaling
import NodeAttestation.Proofs.Json.Double
import NodeAttestation.Proofs.Json.Reading
import NodeAttestation.Proofs.Json.Record
import NodeAttestation.Proofs.Json.Members
import NodeAttestation.Proofs.Json.Finite
import NodeAttestation.Proofs.RateLimit.Persistence
import NodeAttestation.Proofs.Verification.Redaction
import NodeAttestation.Proofs.Batch.Redaction
import NodeAttestation.Proofs.Invocation.Redaction
import NodeAttestation.Proofs.Wire.Extension
import NodeAttestation.Proofs.Json.Grammar
import NodeAttestation.Proofs.Json.Object
import NodeAttestation.Proofs.Json.Overlay
import NodeAttestation.Proofs.Settings.Overlay
import NodeAttestation.Proofs.Cache.Callers
import NodeAttestation.Proofs.Cache.Deletion
import NodeAttestation.Proofs.RateLimit.Expiry
import NodeAttestation.Proofs.Frame.Stability
import NodeAttestation.Proofs.Verification.Saving
import NodeAttestation.Proofs.Workload
import NodeAttestation.Proofs.Invocation.Preparation
import NodeAttestation.Proofs.Invocation.Headers
import NodeAttestation.Proofs.Time.Receding
import NodeAttestation.Proofs.Settings.Freshness
