import PaymentLab.Library.Session
import PaymentLab.Persistence.Models

/-!
# The service runtime

What the service modules share: the errors they raise, the monad they run in, and the statements the
object mapper emits when it flushes. A refused constraint raises `integrityError`. An `UPDATE` of a
payment carries the version the object was loaded with, and raises `staleData` when the stored
version is another.
-/

namespace PaymentLab

open Relational Transactional

/-- `FailurePoint`: the transaction boundaries at which a test may fail a request. -/
inductive FailurePoint where
  | beforeCommit
  | afterCommit
  deriving DecidableEq, Repr

/-- The control text of a failure point. -/
def FailurePoint.value : FailurePoint → String
  | .beforeCommit => "before_commit"
  | .afterCommit => "after_commit"

/-- Every exception a service function raises, with what a handler or a test can see of it. -/
inductive ServiceError where
  | domain (error : DomainError)
  | valueError (message : String)
  | assertionError
  | runtimeError (message : String)
  | integrityError
  | staleData
  | storageFailure
  | paymentNotFound (paymentId : String)
  | idempotencyConflict
  | confirmationPending
  | cancellationUnavailable
  | concurrentPaymentUpdate (paymentId : String)
  | simulatedPaymentTimeout (point : FailurePoint)
  | confirmationIdConflict
  | confirmationNotFound (confirmationId : String)
  | confirmationProcessingUnavailable
  | webhookEventNotFound (eventId : String)
  | webhookDeliveryNotReady (eventId : String)
  | webhookEventCollision (eventId : String)
  | webhookVersionConflict (paymentId : String)
  | concurrentWebhookConsumer (paymentId : String)
  | simulatedConsumerPersistence
  | invalidWebhookSignature (message : String)
  | invalidConfirmationSignature (message : String)
  | invalidWebhookPayload (message : String)
  | settlementBatchNotFound (batchId : String)
  | settlementPaymentNotFound (paymentId : String)
  | settlementPaymentOutsideCutoff (paymentId : String)
  | lookupError (message : String)
  | indexError
  | receiverError
  deriving DecidableEq, Repr

/-- The exceptions that derive from `SQLAlchemyError`. -/
def ServiceError.isSQLAlchemyError : ServiceError → Bool
  | .integrityError | .staleData | .storageFailure => true
  | _ => false

/-- The objects a session has loaded and not expired. A later read of the same row answers with the
object and not with the row. -/
@[ext]
structure IdentityMap where
  payments : List PaymentRecord
  events : List WebhookEventRecord
  deriving DecidableEq, Repr

instance : EmptyCollection IdentityMap := ⟨{ payments := [], events := [] }⟩

/-- The service monad over the database. -/
abbrev Service (α : Type) := Transactional.Service Database IdentityMap ServiceError α

/-- A session of the database. -/
abbrev DatabaseSession := Session Database IdentityMap

/-- Raise a domain error from a service function. -/
def liftDomain {α : Type} : Except DomainError α → Service α
  | .ok a => pure a
  | .error e => throw (.domain e)

@[simp] theorem liftDomain_ok {α : Type} (a : α) : liftDomain (.ok a) = pure a := rfl

@[simp] theorem liftDomain_error {α : Type} (e : DomainError) :
    (liftDomain (.error e) : Service α) = throw (.domain e) := rfl

theorem except_bind_eq_ok {ε α β : Type} {x : Except ε α} {f : α → Except ε β} {b : β}
    (h : (x >>= f) = .ok b) : ∃ a, x = .ok a ∧ f a = .ok b := by
  cases x with
  | error e => cases h
  | ok a => exact ⟨a, rfl, h⟩

/-! ## Flushed statements -/

section Statements

variable {α κ : Type} {S : Schema α κ} [DecidableEq κ]

/-- `INSERT` into one of the tables. -/
def insertInto (table : Database → Table S) (replace : Database → Table S → Database) (row : α)
    (db : Database) : Except ServiceError Database :=
  match (table db).insert row with
  | some t => .ok (replace db t)
  | none => .error .integrityError

/-- `UPDATE` of one row of one of the tables. -/
def updateIn (table : Database → Table S) (replace : Database → Table S → Database) (row : α)
    (db : Database) : Except ServiceError Database :=
  match (table db).update row with
  | some t => .ok (replace db t)
  | none => .error .integrityError

theorem insertInto_eq_ok {table : Database → Table S} {replace : Database → Table S → Database}
    {row : α} {db db' : Database} (h : insertInto table replace row db = .ok db') :
    ∃ t, (table db).insert row = some t ∧ db' = replace db t := by
  unfold insertInto at h
  split at h
  · next t ht => cases h; exact ⟨t, ht, rfl⟩
  · cases h

theorem insertInto_ok {table : Database → Table S} {replace : Database → Table S → Database}
    {row : α} {db : Database} {t : Table S} (h : (table db).insert row = some t) :
    insertInto table replace row db = .ok (replace db t) := by
  unfold insertInto
  rw [h]

/-- A refused insertion raises the integrity error. -/
theorem insertInto_eq_error {table : Database → Table S} {replace : Database → Table S → Database}
    {row : α} {db : Database} {e : ServiceError} (h : insertInto table replace row db = .error e) :
    e = .integrityError := by
  unfold insertInto at h
  split at h <;> cases h
  rfl

theorem updateIn_eq_ok {table : Database → Table S} {replace : Database → Table S → Database}
    {row : α} {db db' : Database} (h : updateIn table replace row db = .ok db') :
    ∃ t, (table db).update row = some t ∧ db' = replace db t := by
  unfold updateIn at h
  split at h
  · next t ht => cases h; exact ⟨t, ht, rfl⟩
  · cases h

theorem updateIn_ok {table : Database → Table S} {replace : Database → Table S → Database}
    {row : α} {db : Database} {t : Table S} (h : (table db).update row = some t) :
    updateIn table replace row db = .ok (replace db t) := by
  unfold updateIn
  rw [h]

/-- A refused update raises the integrity error. -/
theorem updateIn_eq_error {table : Database → Table S} {replace : Database → Table S → Database}
    {row : α} {db : Database} {e : ServiceError} (h : updateIn table replace row db = .error e) :
    e = .integrityError := by
  unfold updateIn at h
  split at h <;> cases h
  rfl

end Statements

/-- `INSERT INTO payments`. The mapper sets version 1. -/
def insertPayment (payment : PaymentRecord) : Database → Except ServiceError Database :=
  insertInto (·.payments) (fun db t => { db with payments := t }) { payment with version := 1 }

/-- `INSERT INTO ledger_entries`. -/
def insertLedgerEntry (entry : LedgerEntryRecord) : Database → Except ServiceError Database :=
  insertInto (·.ledgerEntries) (fun db t => { db with ledgerEntries := t }) entry

/-- `INSERT INTO idempotency_records`. -/
def insertIdempotencyRecord (record : IdempotencyRecord) :
    Database → Except ServiceError Database :=
  insertInto (·.idempotencyRecords) (fun db t => { db with idempotencyRecords := t }) record

/-- `UPDATE idempotency_records`. -/
def updateIdempotencyRecord (record : IdempotencyRecord) :
    Database → Except ServiceError Database :=
  updateIn (·.idempotencyRecords) (fun db t => { db with idempotencyRecords := t }) record

/-- `INSERT INTO webhook_events`. -/
def insertWebhookEvent (event : WebhookEventRecord) : Database → Except ServiceError Database :=
  insertInto (·.webhookEvents) (fun db t => { db with webhookEvents := t }) event

/-- `INSERT INTO webhook_delivery_attempts`. -/
def insertDeliveryAttempt (attempt : WebhookDeliveryAttemptRecord) :
    Database → Except ServiceError Database :=
  insertInto (·.deliveryAttempts) (fun db t => { db with deliveryAttempts := t }) attempt

/-- `INSERT INTO processed_webhooks`. -/
def insertProcessedWebhook (record : ProcessedWebhookRecord) :
    Database → Except ServiceError Database :=
  insertInto (·.processedWebhooks) (fun db t => { db with processedWebhooks := t }) record

/-- `INSERT INTO merchant_payment_projections`. -/
def insertMerchantProjection (projection : MerchantPaymentProjectionRecord) :
    Database → Except ServiceError Database :=
  insertInto (·.merchantProjections) (fun db t => { db with merchantProjections := t }) projection

/-- `INSERT INTO confirmation_receipts`. -/
def insertConfirmationReceipt (receipt : ConfirmationReceiptRecord) :
    Database → Except ServiceError Database :=
  insertInto (·.confirmationReceipts) (fun db t => { db with confirmationReceipts := t }) receipt

/-- `UPDATE confirmation_receipts`. -/
def updateConfirmationReceipt (receipt : ConfirmationReceiptRecord) :
    Database → Except ServiceError Database :=
  updateIn (·.confirmationReceipts) (fun db t => { db with confirmationReceipts := t }) receipt

/-- `INSERT INTO payment_confirmations`. -/
def insertPaymentConfirmation (confirmation : PaymentConfirmationRecord) :
    Database → Except ServiceError Database :=
  insertInto (·.paymentConfirmations) (fun db t => { db with paymentConfirmations := t })
    confirmation

/-- `INSERT INTO settlement_batches`. -/
def insertSettlementBatch (batch : SettlementBatchRecord) : Database → Except ServiceError Database :=
  insertInto (·.settlementBatches) (fun db t => { db with settlementBatches := t }) batch

/-- `INSERT INTO settlement_records`. -/
def insertSettlementRecord (record : SettlementRecord) : Database → Except ServiceError Database :=
  insertInto (·.settlementRecords) (fun db t => { db with settlementRecords := t }) record

/-- `INSERT INTO confirmation_reports`. -/
def insertConfirmationReport (report : ConfirmationReportRecord) :
    Database → Except ServiceError Database :=
  insertInto (·.confirmationReports) (fun db t => { db with confirmationReports := t }) report

/-! ## The versioned payment row -/

/-- The row an `UPDATE` of a changed payment object leaves, version included: only the changed
columns are written. No service changes a column that is not named here. -/
def PaymentRecord.writeChanges (loaded current stored : PaymentRecord) : PaymentRecord :=
  { stored with
    status := writeColumn loaded.status current.status stored.status
    authorizedAmount :=
      writeColumn loaded.authorizedAmount current.authorizedAmount stored.authorizedAmount
    capturedAmount := writeColumn loaded.capturedAmount current.capturedAmount stored.capturedAmount
    refundedAmount := writeColumn loaded.refundedAmount current.refundedAmount stored.refundedAmount
    updatedAt := writeColumn loaded.updatedAt current.updatedAt stored.updatedAt
    version := loaded.version + 1 }

/-- The flush of a payment object: no statement when nothing changed, otherwise an `UPDATE` that
matches only the version the object was loaded with. -/
def flushPayment (loaded current : PaymentRecord) (db : Database) :
    Except ServiceError Database :=
  if current = loaded then .ok db
  else
    match db.payments.get loaded.id with
    | none => .error .staleData
    | some stored =>
      if stored.version ≠ loaded.version then .error .staleData
      else
        updateIn (·.payments) (fun db t => { db with payments := t })
          (loaded.writeChanges current stored) db

/-- The object after the flush: the mapper counts the version up when it emitted an `UPDATE`. -/
def afterFlush (loaded current : PaymentRecord) : PaymentRecord :=
  if current = loaded then current else { current with version := loaded.version + 1 }

@[simp] theorem afterFlush_self (payment : PaymentRecord) : afterFlush payment payment = payment :=
  if_pos rfl

/-- Hold a payment object, before any older state of it. -/
def holdPayment (payment : PaymentRecord) (m : IdentityMap) : IdentityMap :=
  { m with payments := payment :: m.payments }

/-- Hold an event object, before any older state of it. -/
def holdEvent (event : WebhookEventRecord) (m : IdentityMap) : IdentityMap :=
  { m with events := event :: m.events }

/-- `session.get(PaymentRecord, payment_id)`: an object the session still holds is answered as it
is; otherwise the row is read and held. -/
def sessionGetPayment (paymentId : String) : Service (Option PaymentRecord) :=
  Transactional.Service.getThrough
    (fun m => m.payments.find? fun p => decide (p.id = paymentId))
    (fun db => db.payments.get paymentId)
    holdPayment

/-- `session.get(WebhookEventRecord, event_id)`, by the same rule. -/
def sessionGetEvent (eventId : String) : Service (Option WebhookEventRecord) :=
  Transactional.Service.getThrough
    (fun m => m.events.find? fun e => decide (e.id = eventId))
    (fun db => db.webhookEvents.get eventId)
    holdEvent

end PaymentLab
