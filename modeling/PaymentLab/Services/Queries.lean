import PaymentLab.Services.Payments
import PaymentLab.Services.Reconciliation

/-!
# The read-only functions of the services

What the routes ask the services without changing anything: each is one reading of the store.
-/

namespace PaymentLab

open Transactional Transactional.Service

/-- The row of a key, or the exception of a missing one. -/
def found {α : Type} (row : Option α) (missing : ServiceError) : Except ServiceError α :=
  match row with
  | some a => .ok a
  | none => .error missing

/-- `get_payment`, in a session that holds nothing. -/
def readPayment (db : Database) (paymentId : String) : Except ServiceError PaymentRecord :=
  found (db.payments.get paymentId) (.paymentNotFound paymentId)

/-- `get_ledger_entries`. -/
def getLedgerEntries (db : Database) (paymentId : String) :
    Except ServiceError (List LedgerEntryRecord) := do
  let _ ← readPayment db paymentId
  return orderedLedger db paymentId

/-- `session.get(ConfirmationReceiptRecord, confirmation_id)`. -/
def getConfirmationReceipt (db : Database) (confirmationId : String) :
    Except ServiceError ConfirmationReceiptRecord :=
  found (db.confirmationReceipts.get confirmationId) (.confirmationNotFound confirmationId)

/-- `get_confirmation`. -/
def getConfirmation (db : Database) (confirmationId : String) :
    Except ServiceError PaymentConfirmationRecord :=
  found (db.paymentConfirmations.get confirmationId) (.confirmationNotFound confirmationId)

/-- The order of the event query. -/
def creationOrder (a b : WebhookEventRecord) : Prop :=
  a.createdAt < b.createdAt ∨ (a.createdAt = b.createdAt ∧ a.id ≤ b.id)

instance : DecidableRel creationOrder := fun _ _ => inferInstanceAs (Decidable (_ ∨ _))

/-- `get_webhook_events`. -/
def getWebhookEvents (db : Database) : List WebhookEventRecord :=
  db.webhookEvents.rows.insertionSort creationOrder

/-- `get_delivery_attempts`. -/
def getDeliveryAttempts (db : Database) (eventId : String) :
    Except ServiceError (List WebhookDeliveryAttemptRecord) := do
  let _ ← found (db.webhookEvents.get eventId) (.webhookEventNotFound eventId)
  return (db.attemptsOf eventId).insertionSort fun a b => a.attemptNumber ≤ b.attemptNumber

/-- `get_merchant_projection`. -/
def getMerchantProjection (db : Database) (paymentId : String) :
    Option MerchantPaymentProjectionRecord :=
  db.merchantProjections.get paymentId

/-- `get_settlement_records`. -/
def getSettlementRecords (db : Database) (batchId : String) :
    Except ServiceError (List SettlementRecord) := do
  let _ ← found (db.settlementBatches.get batchId) (.settlementBatchNotFound batchId)
  return settlementRecords db batchId

theorem found_eq_ok {α : Type} {row : Option α} {missing : ServiceError} {a : α}
    (h : found row missing = .ok a) : row = some a := by
  unfold found at h
  split at h
  · next b => exact congrArg some (Except.ok.inj h)
  · cases h

end PaymentLab
