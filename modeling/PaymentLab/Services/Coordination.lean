import PaymentLab.Services.Runtime

/-!
# Writer coordination and protecting receipts

`services/coordination.py`: the entry of every delayed-payment transaction, and the one predicate
that expiry and cancellation consult before they end an awaiting payment.
-/

namespace PaymentLab

open Transactional

/-- `begin_coordinated_write`: drop what the session holds, then reserve the writer. The session is
clean and on SQLite, the two things the source checks first. -/
def beginCoordinatedWrite : Service Unit := do
  Service.rollback
  Service.expireAll
  Service.beginImmediate

/-- The condition of `protecting_receipt_exists` on one receipt. A comparison with a null reference
or deadline is not true. -/
def protects (receipt : ConfirmationReceiptRecord) (payment : PaymentRecord) : Bool :=
  decide (some receipt.paymentReference = payment.paymentReference)
    && !receipt.completed
    && decide (receipt.amount = payment.amount)
    && decide (receipt.currency = payment.currency)
    && (match payment.expiresAt with
      | some expiresAt => decide (receipt.receivedAt < expiresAt)
      | none => false)

/-- `protecting_receipt_exists`: the correlated predicate of expiry and cancellation. -/
def protectingReceiptExists (db : Database) (payment : PaymentRecord) : Bool :=
  db.confirmationReceipts.rows.any fun receipt => protects receipt payment

/-- `has_protecting_receipt`: the predicate on the stored row of a payment. -/
def hasProtectingReceipt (payment : PaymentRecord) : Service Bool :=
  Service.query fun db =>
    match db.payments.get payment.id with
    | some stored => protectingReceiptExists db stored
    | none => false

end PaymentLab
