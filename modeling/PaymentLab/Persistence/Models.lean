import PaymentLab.Library.Table
import PaymentLab.Domain.Payment

/-!
# The persisted records

`persistence/models.py`: one record type for each table, its primary key, unique and check
constraints as a `Relational.Schema`, and the database as the tables together. A stored row
satisfies its check constraints because the table carries them.

Stored times are UTC instants in microseconds: SQLite drops the time zone, every writer normalises
to UTC first, and every reader takes a naive value as UTC. JSON columns hold the value the text
renders. Foreign keys are not checked by the tables: rows they point to are never deleted and always
exist when the referring row is written, which is proved for every run (`references_resolve`).
-/

namespace PaymentLab

open Relational

/-- An instant, in microseconds of UTC. -/
abbrev Instant := Int

/-- A Python `datetime` handed to a service: without a time zone, or at a UTC instant. -/
inductive Datetime where
  | naive (wall : Instant)
  | aware (utc : Instant)
  deriving DecidableEq, Repr

/-- `timedelta(seconds=n)`. -/
def seconds (n : Int) : Int := n * 1000000

/-- `timedelta(hours=n)`. -/
def hours (n : Int) : Int := seconds (n * 3600)

/-! ## Payments and ledger -/

/-- `PaymentRecord`: the payment aggregate. `version` is the `version_id_col`. -/
structure PaymentRecord where
  id : String
  merchantReference : String
  amount : Int
  currency : Currency
  status : PaymentStatus
  paymentFlow : PaymentFlow
  paymentReference : Option String
  expiresAt : Option Instant
  declineReason : Option DeclineReason
  authorizedAmount : Int
  capturedAmount : Int
  refundedAmount : Int
  version : Nat
  createdAt : Instant
  updatedAt : Instant
  deriving DecidableEq, Repr

/-- The check constraints of `payments`. -/
def PaymentRecord.satisfiesChecks (p : PaymentRecord) : Bool :=
  decide (0 < p.amount)
    && decide (0 ≤ p.authorizedAmount ∧ p.authorizedAmount ≤ p.amount)
    && decide (0 ≤ p.capturedAmount ∧ p.capturedAmount ≤ p.authorizedAmount)
    && decide (0 ≤ p.refundedAmount ∧ p.refundedAmount ≤ p.capturedAmount)
    && (match p.paymentFlow with
      | .synchronous => p.paymentReference.isNone && p.expiresAt.isNone
      | .asynchronousConfirmation => p.paymentReference.isSome && p.expiresAt.isSome)
    && (decide (p.status = .declined) == p.declineReason.isSome)
    && decide (1 ≤ p.version)

/-- `payments`: `payment_reference` is unique where it is not null. -/
def paymentSchema : Schema PaymentRecord String where
  key := (·.id)
  check := PaymentRecord.satisfiesChecks
  clash a b := a.paymentReference.isSome && decide (a.paymentReference = b.paymentReference)

/-- `LedgerEntryRecord`: one immutable financial effect. -/
structure LedgerEntryRecord where
  id : String
  paymentId : String
  operation : String
  amount : Int
  currency : Currency
  createdAt : Instant
  deriving DecidableEq, Repr

/-- `ledger_entries`. -/
def ledgerSchema : Schema LedgerEntryRecord String where
  key := (·.id)
  check e := decide (0 < e.amount)
  clash _ _ := false

/-! ## Idempotency -/

/-- `PaymentSnapshot`: the immutable representation stored for exact replay. -/
structure PaymentSnapshot where
  id : String
  merchantReference : String
  amount : Int
  currency : Currency
  status : PaymentStatus
  paymentFlow : PaymentFlow
  paymentReference : Option String
  expiresAt : Option Instant
  declineReason : Option DeclineReason
  authorizedAmount : Int
  capturedAmount : Int
  refundedAmount : Int
  version : Nat
  createdAt : Instant
  updatedAt : Instant
  deriving DecidableEq, Repr

/-- `PaymentSnapshot.from_payment`: copy every field of the row. -/
def PaymentSnapshot.fromPayment (payment : PaymentRecord) : PaymentSnapshot where
  id := payment.id
  merchantReference := payment.merchantReference
  amount := payment.amount
  currency := payment.currency
  status := payment.status
  paymentFlow := payment.paymentFlow
  paymentReference := payment.paymentReference
  expiresAt := payment.expiresAt
  declineReason := payment.declineReason
  authorizedAmount := payment.authorizedAmount
  capturedAmount := payment.capturedAmount
  refundedAmount := payment.refundedAmount
  version := payment.version
  createdAt := payment.createdAt
  updatedAt := payment.updatedAt

/-- `IdempotencyRecord`: the original outcome under a key. -/
structure IdempotencyRecord where
  key : String
  requestFingerprint : String
  operation : String
  paymentId : Option String
  responseSnapshot : Option PaymentSnapshot
  createdAt : Instant
  deriving DecidableEq, Repr

/-- `idempotency_records`. -/
def idempotencySchema : Schema IdempotencyRecord String where
  key := (·.key)
  check _ := true
  clash _ _ := false

/-! ## Outbox and delivery -/

/-- `WebhookEventType`. -/
inductive WebhookEventType where
  | authorized
  | confirmationRequested
  | declined
  | captured
  | cancelled
  | refunded
  | expired
  deriving DecidableEq, Repr

/-- The stored value of an event type. -/
def WebhookEventType.value : WebhookEventType → String
  | .authorized => "payment.authorized"
  | .confirmationRequested => "payment.confirmation_requested"
  | .declined => "payment.declined"
  | .captured => "payment.captured"
  | .cancelled => "payment.cancelled"
  | .refunded => "payment.refunded"
  | .expired => "payment.expired"

/-- The members of `WebhookEventType`. -/
def WebhookEventType.all : List WebhookEventType :=
  [.authorized, .confirmationRequested, .declined, .captured, .cancelled, .refunded, .expired]

/-- `WebhookStatus`: the producer's delivery state. -/
inductive WebhookStatus where
  | pending
  | processing
  | delivered
  | exhausted
  deriving DecidableEq, Repr

/-- The stored value of a delivery state. -/
def WebhookStatus.value : WebhookStatus → String
  | .pending => "PENDING"
  | .processing => "PROCESSING"
  | .delivered => "DELIVERED"
  | .exhausted => "EXHAUSTED"

/-- The body of an event: the object `create_outbox_event` renders as canonical JSON. The nested
`payment` object has exactly the fields of a snapshot. -/
structure EventPayload where
  aggregateVersion : Nat
  createdAt : Instant
  id : String
  payment : PaymentSnapshot
  type : WebhookEventType
  deriving DecidableEq, Repr

/-- `WebhookEventRecord`: the outbox event of one accepted payment version. -/
structure WebhookEventRecord where
  id : String
  paymentId : String
  eventType : WebhookEventType
  aggregateVersion : Nat
  payload : EventPayload
  status : WebhookStatus
  attemptCount : Nat
  nextAttemptAt : Instant
  leaseToken : Option String
  leaseExpiresAt : Option Instant
  createdAt : Instant
  deliveredAt : Option Instant
  deriving DecidableEq, Repr

/-- `webhook_events`: one event for each version of a payment. -/
def webhookEventSchema : Schema WebhookEventRecord String where
  key := (·.id)
  check e := decide (1 ≤ e.aggregateVersion)
  clash a b := decide (a.paymentId = b.paymentId ∧ a.aggregateVersion = b.aggregateVersion)

/-- `WebhookDeliveryAttemptRecord`: one observable attempt. Its generated `id` is read by nothing
and left out; the unique pair of event and number is the key. -/
structure WebhookDeliveryAttemptRecord where
  eventId : String
  attemptNumber : Nat
  outcome : String
  responseStatus : Option Int
  errorCode : Option String
  attemptedAt : Instant
  deriving DecidableEq, Repr

/-- `webhook_delivery_attempts`. -/
def deliveryAttemptSchema : Schema WebhookDeliveryAttemptRecord (String × Nat) where
  key a := (a.eventId, a.attemptNumber)
  check a := decide (1 ≤ a.attemptNumber)
  clash _ _ := false

/-! ## Consumer -/

/-- `ConsumerDisposition`. -/
inductive ConsumerDisposition where
  | applied
  | stale
  | redundant
  | duplicate
  deriving DecidableEq, Repr

/-- `ProcessedWebhookRecord`: the consumer inbox. -/
structure ProcessedWebhookRecord where
  eventId : String
  paymentId : String
  eventType : WebhookEventType
  aggregateVersion : Nat
  payloadHash : String
  disposition : ConsumerDisposition
  versionGap : Bool
  processedAt : Instant
  deriving DecidableEq, Repr

/-- `processed_webhooks`. -/
def processedWebhookSchema : Schema ProcessedWebhookRecord String where
  key := (·.eventId)
  check _ := true
  clash _ _ := false

/-- `MerchantPaymentProjectionRecord`: the merchant's view of a payment. It has no version
counter of its own. -/
structure MerchantPaymentProjectionRecord where
  paymentId : String
  merchantReference : String
  amount : Int
  currency : Currency
  status : PaymentStatus
  paymentFlow : PaymentFlow
  paymentReference : Option String
  expiresAt : Option Instant
  declineReason : Option DeclineReason
  authorizedAmount : Int
  capturedAmount : Int
  refundedAmount : Int
  aggregateVersion : Nat
  lastEventId : String
  updatedAt : Instant
  deriving DecidableEq, Repr

/-- `merchant_payment_projections`. -/
def merchantProjectionSchema : Schema MerchantPaymentProjectionRecord String where
  key := (·.paymentId)
  check _ := true
  clash _ _ := false

/-! ## Confirmations -/

/-- `ConfirmationDisposition`. -/
inductive ConfirmationDisposition where
  | applied
  | late
  | amountMismatch
  | currencyMismatch
  | unknownReference
  | alreadyResolved
  deriving DecidableEq, Repr

/-- The stored text of a disposition. -/
def ConfirmationDisposition.value : ConfirmationDisposition → String
  | .applied => "applied"
  | .late => "late"
  | .amountMismatch => "amount_mismatch"
  | .currencyMismatch => "currency_mismatch"
  | .unknownReference => "unknown_reference"
  | .alreadyResolved => "already_resolved"

/-- `ConfirmationReceiptRecord`: accepted input and its processing completion. -/
structure ConfirmationReceiptRecord where
  confirmationId : String
  requestFingerprint : String
  paymentReference : String
  amount : Int
  currency : Currency
  receivedAt : Instant
  completed : Bool
  deriving DecidableEq, Repr

/-- `confirmation_receipts`. -/
def confirmationReceiptSchema : Schema ConfirmationReceiptRecord String where
  key := (·.confirmationId)
  check r := decide (0 < r.amount)
  clash _ _ := false

/-- `PaymentConfirmationRecord`: the durable outcome of one confirmation. -/
structure PaymentConfirmationRecord where
  confirmationId : String
  requestFingerprint : String
  paymentReference : String
  amount : Int
  currency : Currency
  receivedAt : Instant
  disposition : ConfirmationDisposition
  paymentId : Option String
  responseSnapshot : String
  deriving DecidableEq, Repr

/-- `payment_confirmations`. -/
def paymentConfirmationSchema : Schema PaymentConfirmationRecord String where
  key := (·.confirmationId)
  check c := decide (0 < c.amount)
  clash _ _ := false

/-! ## Settlement -/

/-- `SettlementBatchRecord`: one imported settlement file and its financial cutoff. -/
structure SettlementBatchRecord where
  id : String
  cutoff : Instant
  createdAt : Instant
  deriving DecidableEq, Repr

/-- `settlement_batches`. -/
def settlementBatchSchema : Schema SettlementBatchRecord String where
  key := (·.id)
  check _ := true
  clash _ _ := false

/-- `SettlementRecord`: one external row of a batch. -/
structure SettlementRecord where
  id : String
  batchId : String
  paymentId : String
  lineNumber : Nat
  amount : Int
  currency : Currency
  createdAt : Instant
  deriving DecidableEq, Repr

/-- `settlement_records`: one row for each line of a batch. -/
def settlementRecordSchema : Schema SettlementRecord String where
  key := (·.id)
  check r := decide (0 < r.amount) && decide (1 ≤ r.lineNumber)
  clash a b := decide (a.batchId = b.batchId ∧ a.lineNumber = b.lineNumber)

/-- One bucket of `observed_anomalies`: the final records of one currency and one disposition,
counted and summed. -/
structure ObservedAnomaly where
  currency : Currency
  disposition : ConfirmationDisposition
  count : Nat
  observedAmount : Int
  deriving DecidableEq, Repr

/-- `payment_outcomes`: how many delayed payments ended in each way. -/
structure PaymentOutcomes where
  pending : Nat
  confirmedOnTime : Nat
  expiredWithoutOnTimeConfirmation : Nat
  cancelledUnconfirmed : Nat
  deriving DecidableEq, Repr

/-- `dispositions`: how many confirmations were classified in each way. -/
structure DispositionCounts where
  applied : Nat
  late : Nat
  amountMismatch : Nat
  currencyMismatch : Nat
  unknownReference : Nat
  alreadyResolved : Nat
  deriving DecidableEq, Repr

/-- The object of a confirmation section, as it is saved and answered. Two sections are equal when
every field is. -/
structure ConfirmationReport where
  cutoff : Instant
  generatedAt : Instant
  basis : String
  paymentCount : Nat
  paymentOutcomes : PaymentOutcomes
  dispositions : DispositionCounts
  pendingReceiptCount : Nat
  observedAnomalies : List ObservedAnomaly
  amountNotice : String
  deriving DecidableEq, Repr

/-- `ConfirmationReportRecord`: evidence saved once for each batch. -/
structure ConfirmationReportRecord where
  batchId : String
  payload : ConfirmationReport
  deriving DecidableEq, Repr

/-- `confirmation_reports`. -/
def confirmationReportSchema : Schema ConfirmationReportRecord String where
  key := (·.batchId)
  check _ := true
  clash _ _ := false

/-! ## The database -/

/-- The tables of the service, of the simulated merchant and of settlement. -/
@[ext]
structure Database where
  payments : Table paymentSchema
  ledgerEntries : Table ledgerSchema
  idempotencyRecords : Table idempotencySchema
  webhookEvents : Table webhookEventSchema
  deliveryAttempts : Table deliveryAttemptSchema
  processedWebhooks : Table processedWebhookSchema
  confirmationReceipts : Table confirmationReceiptSchema
  paymentConfirmations : Table paymentConfirmationSchema
  merchantProjections : Table merchantProjectionSchema
  settlementBatches : Table settlementBatchSchema
  settlementRecords : Table settlementRecordSchema
  confirmationReports : Table confirmationReportSchema

/-- The store before any request. -/
def Database.empty : Database where
  payments := ∅
  ledgerEntries := ∅
  idempotencyRecords := ∅
  webhookEvents := ∅
  deliveryAttempts := ∅
  processedWebhooks := ∅
  confirmationReceipts := ∅
  paymentConfirmations := ∅
  merchantProjections := ∅
  settlementBatches := ∅
  settlementRecords := ∅
  confirmationReports := ∅

namespace Database

/-- The ledger entries of one payment, in the order they were written. -/
def ledgerOf (db : Database) (paymentId : String) : List LedgerEntryRecord :=
  db.ledgerEntries.select fun e => decide (e.paymentId = paymentId)

/-- The outbox events of one payment, in the order they were written. -/
def eventsOf (db : Database) (paymentId : String) : List WebhookEventRecord :=
  db.webhookEvents.select fun e => decide (e.paymentId = paymentId)

/-- The delivery attempts of one event, in the order they were written. -/
def attemptsOf (db : Database) (eventId : String) : List WebhookDeliveryAttemptRecord :=
  db.deliveryAttempts.select fun a => decide (a.eventId = eventId)

end Database

end PaymentLab
