import PaymentLab.Account.Balances
import PaymentLab.Account.History
import PaymentLab.Account.Model
import PaymentLab.Account.Sequence
import PaymentLab.Domain.Payment
import PaymentLab.Library.CanonicalJson
import PaymentLab.Library.Pool
import PaymentLab.Library.Session
import PaymentLab.Library.Table
import PaymentLab.Persistence.Models
import PaymentLab.Runs.Confirmations
import PaymentLab.Runs.Effects
import PaymentLab.Runs.Keyed
import PaymentLab.Runs.Payments
import PaymentLab.Runs.Reachable
import PaymentLab.Runs.Sequential
import PaymentLab.Runs.System
import PaymentLab.Services.Confirmations
import PaymentLab.Services.Coordination
import PaymentLab.Services.Ledger
import PaymentLab.Services.Outbox
import PaymentLab.Services.Payments
import PaymentLab.Services.Runtime
import PaymentLab.Laws.Ledger
import PaymentLab.Laws.Outbox
import PaymentLab.Laws.Optimistic
import PaymentLab.Account.Confirmation
import PaymentLab.Laws.Idempotency
import PaymentLab.Laws.Settlement
import PaymentLab.Laws.Protection
import PaymentLab.Services.Delivery
import PaymentLab.Delivery.Track
import PaymentLab.Runs.Dispatch
import PaymentLab.Runs.Deliveries
import PaymentLab.Laws.Delivery
import PaymentLab.Laws.Lease
import PaymentLab.Laws.Attempts
import PaymentLab.Services.ConfirmationReporting
import PaymentLab.Laws.Release
import PaymentLab.Library.Json
import PaymentLab.Services.Consumer
import PaymentLab.Runs.Consumer
import PaymentLab.Consumer.Snapshot
import PaymentLab.Laws.Consumer
import PaymentLab.Consumer.Wire
import PaymentLab.Account.Snapshot
import PaymentLab.Services.Reconciliation
import PaymentLab.Laws.Convergence
import PaymentLab.Laws.Projection
import PaymentLab.Laws.Reconciliation
import PaymentLab.Checkout.Money
import PaymentLab.Checkout.View
import PaymentLab.Library.Machine
import PaymentLab.Checkout.Page
import PaymentLab.Checkout.Invariant
import PaymentLab.Laws.Checkout
import PaymentLab.Runs.Settlements
import PaymentLab.Laws.Completeness
import PaymentLab.Laws.Signature
import PaymentLab.Laws.Payload
import PaymentLab.Laws.Decoding
import PaymentLab.Library.Worklist
import PaymentLab.Runs.Progress
import PaymentLab.Runs.Sweeps
import PaymentLab.Laws.Expiry
import PaymentLab.Laws.Recovery
import PaymentLab.Migrations.Receipts
import PaymentLab.Laws.Backfill
import PaymentLab.Library.Tally
import PaymentLab.Performance.Profiles
import PaymentLab.Performance.Verifier
import PaymentLab.Laws.Verifier
import PaymentLab.Migrations.Legacy
import PaymentLab.Laws.Legacy
import PaymentLab.Library.Substitution
import PaymentLab.Scripts.SanitizeTrace
import PaymentLab.Laws.Sanitizer
import PaymentLab.Account.Cutoff
import PaymentLab.Laws.Cutoff
import PaymentLab.Laws.Reporting
import PaymentLab.Laws.Resolution
import PaymentLab.Laws.Merchant
import PaymentLab.Laws.References
import PaymentLab.Api.Handlers
import PaymentLab.Api.Routes
import PaymentLab.Laws.Answers
import PaymentLab.Laws.Contract
import PaymentLab.Laws.Retries
import PaymentLab.Laws.Drain
import PaymentLab.Laws.Refusals
import PaymentLab.Laws.Load
