import Mathlib.Data.List.Sort
import PaymentLab.Services.Payments

/-!
# The confirmation service

`services/confirmations.py`: acceptance of an authenticated confirmation, its completion in a second
transaction, recovery of pending receipts, and scheduled expiry. Every transaction reserves the
writer first, so it reads what is committed.

Acceptance and completion are separate transactions in the source, and stay so here: a crash between
them leaves a pending receipt, which recovery finds. The clock is read after the writer is reserved,
and its reading is an argument.
-/

namespace PaymentLab

open Transactional

/-! ## Commands and outcomes -/

/-- `ConfirmationCommand`. -/
structure ConfirmationCommand where
  confirmationId : String
  paymentReference : String
  amount : Int
  currency : Currency
  deriving DecidableEq, Repr

/-- The object a confirmation fingerprint digests. -/
def ConfirmationCommand.payload (command : ConfirmationCommand) : CanonicalJson.Value :=
  .obj [("amount", .int command.amount),
    ("confirmation_id", .str command.confirmationId),
    ("currency", .str command.currency.value),
    ("payment_reference", .str command.paymentReference)]

/-- `ConfirmationOutcome`: the final record, and whether it was there before the call. -/
structure ConfirmationOutcome where
  confirmation : PaymentConfirmationRecord
  replayed : Bool
  deriving DecidableEq, Repr

/-- `SAFE_CONFIRMATION_RESPONSE`. -/
def safeConfirmationResponse : String := "\x7b\"accepted\":true\x7d"

/-- `MAX_EXPIRY_BATCH_SIZE`. -/
def maxExpiryBatchSize : Int := 1000

/-- `_require_aware_utc`: the instant of a time with a zone, in UTC; one without raises a
`ValueError` that names the argument. -/
def requireAwareUtc (value : Datetime) (fieldName : String) : Service Instant :=
  match value with
  | .naive _ => throw (.valueError (fieldName ++ " must be a timezone-aware datetime"))
  | .aware utc => pure utc

/-- `read_confirmation_clock`. -/
def readConfirmationClock (clock : Datetime) : Service Instant :=
  requireAwareUtc clock "Confirmation clock"

section Service

variable (sha256 : String → String)

/-- `ConfirmationCommand.fingerprint`. -/
def ConfirmationCommand.fingerprint (command : ConfirmationCommand) : String :=
  sha256 (CanonicalJson.text command.payload)

/-! ## Acceptance -/

/-- The receipt of a first acceptance: the command with its fingerprint, the time it was received at,
and not completed. -/
def newReceipt (command : ConfirmationCommand) (receivedAt : Instant) :
    ConfirmationReceiptRecord :=
  { confirmationId := command.confirmationId
    requestFingerprint := command.fingerprint sha256
    paymentReference := command.paymentReference
    amount := command.amount
    currency := command.currency
    receivedAt := receivedAt
    completed := false }

/-- `accept_confirmation`: persist the input; answer whether the identity already existed. The clock
is read only when it did not. -/
def acceptConfirmation (command : ConfirmationCommand) (clock : Datetime) : Service Bool := do
  beginCoordinatedWrite
  tryCatch
    (do
      match ← Service.query fun db => db.confirmationReceipts.get command.confirmationId with
      | some receipt =>
        if receipt.requestFingerprint ≠ command.fingerprint sha256 then
          throw .confirmationIdConflict
        else
          Service.commit
          return true
      | none =>
        let receivedAt ← readConfirmationClock clock
        Service.flush (insertConfirmationReceipt (newReceipt sha256 command receivedAt))
        Service.commit
        return false)
    fun error => do
      Service.rollback
      throw error

/-! ## Completion -/

/-- `_existing_outcome`: the final record under an identity as a replay, nothing where there is none,
and a conflict where its fingerprint is another. -/
def existingOutcome (confirmationId fingerprint : String) :
    Service (Option ConfirmationOutcome) := do
  match ← Service.query fun db => db.paymentConfirmations.get confirmationId with
  | none => return none
  | some existing =>
    if existing.requestFingerprint ≠ fingerprint then
      throw .confirmationIdConflict
    else return some { confirmation := existing, replayed := true }

/-- `_payment_by_reference`: the first payment under a reference. References are unique, so there is
no other. -/
def paymentByReference (db : Database) (paymentReference : String) : Option PaymentRecord :=
  db.payments.rows.find? fun p => decide (p.paymentReference = some paymentReference)

/-- `_apply_expiry_transition`: the one expiry transition and its event. -/
def applyExpiryTransition (payment : PaymentRecord) (occurredAt : Instant) (hex : String) :
    Service Unit := do
  let state ← liftDomain (paymentState payment)
  let next ← liftDomain (expire state)
  let changed := payment.withState next occurredAt
  Service.flush (flushPayment payment changed)
  Service.flush (insertWebhookEvent (createOutboxEvent (afterFlush payment changed) .expired hex))

/-- `_classify`. An awaiting payment without a deadline fails the source's assertion. -/
def classify (payment : Option PaymentRecord) (command : ConfirmationCommand)
    (receivedAt : Instant) : Except ServiceError ConfirmationDisposition :=
  match payment with
  | none => .ok .unknownReference
  | some payment =>
    if payment.status = .expired then .ok .late
    else if payment.status ≠ .awaitingPayment then .ok .alreadyResolved
    else
      match payment.expiresAt with
      | none => .error .assertionError
      | some expiresAt =>
        if receivedAt ≥ expiresAt then .ok .late
        else if command.amount ≠ payment.amount then .ok .amountMismatch
        else if command.currency ≠ payment.currency then .ok .currencyMismatch
        else .ok .applied

/-- The ledger row of an applied confirmation. -/
def confirmationEntry (payment : PaymentRecord) (command : ConfirmationCommand)
    (receivedAt : Instant) (hex : String) : LedgerEntryRecord :=
  { id := "led_" ++ hex
    paymentId := payment.id
    operation := "CONFIRMATION_CAPTURE"
    amount := command.amount
    currency := payment.currency
    createdAt := receivedAt }

/-- `_apply_disposition`: the financial effect of a classified confirmation. -/
def applyDisposition (payment : Option PaymentRecord) (command : ConfirmationCommand)
    (disposition : ConfirmationDisposition) (receivedAt : Instant) (draws : Draws) :
    Service Unit :=
  match payment with
  | none => pure ()
  | some payment =>
    if disposition = .applied then do
      let state ← liftDomain (paymentState payment)
      let next ← liftDomain (captureConfirmation state command.amount)
      let changed := payment.withState next receivedAt
      Service.flush (flushPayment payment changed)
      Service.flush (insertLedgerEntry (confirmationEntry payment command receivedAt draws.ledger))
      Service.flush (insertWebhookEvent
        (createOutboxEvent (afterFlush payment changed) .captured draws.event))
    else if disposition = .late ∧ payment.status = .awaitingPayment then do
      -- a matching receipt accepted in time still waits for its completion
      if ← hasProtectingReceipt payment then pure ()
      else applyExpiryTransition payment receivedAt draws.event
    else pure ()

/-- The command a receipt stores. -/
def ConfirmationReceiptRecord.command (receipt : ConfirmationReceiptRecord) :
    ConfirmationCommand :=
  { confirmationId := receipt.confirmationId
    paymentReference := receipt.paymentReference
    amount := receipt.amount
    currency := receipt.currency }

/-- The final record of a completion: what its receipt says, the disposition, and the payment where
one was found. -/
def newConfirmation (command : ConfirmationCommand) (receivedAt : Instant)
    (disposition : ConfirmationDisposition) (payment : Option PaymentRecord) :
    PaymentConfirmationRecord :=
  { confirmationId := command.confirmationId
    requestFingerprint := command.fingerprint sha256
    paymentReference := command.paymentReference
    amount := command.amount
    currency := command.currency
    receivedAt := receivedAt
    disposition := disposition
    paymentId := payment.map (·.id)
    responseSnapshot := safeConfirmationResponse }

/-- The statements of a completion before its commit: the final record, its financial effect, and
the completed receipt. -/
def stageCompletion (receipt : ConfirmationReceiptRecord) (confirmation : PaymentConfirmationRecord)
    (payment : Option PaymentRecord) (draws : Draws) : Service Unit := do
  Service.flush (insertPaymentConfirmation confirmation)
  applyDisposition payment receipt.command confirmation.disposition receipt.receivedAt draws
  Service.flush (updateConfirmationReceipt { receipt with completed := true })

/-- The exceptions of a completion: a lost race is answered by the winner's record, when there is
one. -/
def completionFailed (receipt : ConfirmationReceiptRecord) (payment : Option PaymentRecord)
    (error : ServiceError) : Service ConfirmationOutcome := do
  Service.rollback
  if error = .integrityError then
    match ← existingOutcome receipt.confirmationId (receipt.command.fingerprint sha256) with
    | none => throw error
    | some replay => return replay
  else if error = .staleData then
    throw (.concurrentPaymentUpdate
      (match payment with | some payment => payment.id | none => receipt.paymentReference))
  else throw error

/-- The completion of a classified receipt in one commit. -/
def settleReceipt (receipt : ConfirmationReceiptRecord) (disposition : ConfirmationDisposition)
    (payment : Option PaymentRecord) (draws : Draws) : Service ConfirmationOutcome :=
  let confirmation :=
    newConfirmation sha256 receipt.command receipt.receivedAt disposition payment
  tryCatch
    (do
      stageCompletion receipt confirmation payment draws
      Service.commit
      return { confirmation := confirmation, replayed := false })
    (completionFailed sha256 receipt payment)

/-- `_complete_receipt`: the receipt is replayed where its final record exists, and otherwise
classified against the payment of its reference and settled, with the expiry or the capture that this
asks for. Everything is read after the writer is reserved. -/
def completeReceipt (confirmationId : String) (draws : Draws) : Service ConfirmationOutcome := do
  match ← Service.query fun db => db.confirmationReceipts.get confirmationId with
  | none => throw (.confirmationNotFound confirmationId)
  | some receipt =>
    match ← existingOutcome receipt.confirmationId (receipt.command.fingerprint sha256) with
    | some replay =>
      Service.commit
      return replay
    | none =>
      let payment ← Service.query fun db => paymentByReference db receipt.paymentReference
      match classify payment receipt.command receipt.receivedAt with
      | .error error => throw error
      | .ok disposition => settleReceipt sha256 receipt disposition payment draws

/-- `complete_confirmation`: one receipt in one transaction of its own, rolled back as a whole by
whatever it raises. -/
def completeConfirmation (confirmationId : String) (draws : Draws) :
    Service ConfirmationOutcome := do
  beginCoordinatedWrite
  tryCatch (completeReceipt sha256 confirmationId draws) fun error => do
    Service.rollback
    throw error

/-- The clock of `process_confirmation`: exactly one of the two arguments is given. -/
def processingClock (receivedAt clock : Option Datetime) : Service Datetime :=
  match receivedAt, clock with
  | none, some clock => pure clock
  | some receivedAt, none => do
    let fixed ← requireAwareUtc receivedAt "received_at"
    return .aware fixed
  | _, _ => throw (.valueError "Supply exactly one of clock or received_at")

/-- The acceptance half of `process_confirmation`: an error of the storage becomes the retryable
refusal, any other goes through as it is. -/
def processAcceptance (command : ConfirmationCommand) (clock : Datetime) : Service Bool :=
  tryCatch (acceptConfirmation sha256 command clock) fun error => do
    if error.isSQLAlchemyError then
      Service.rollback
      throw .confirmationProcessingUnavailable
    else throw error

/-- The completion half of `process_confirmation`: any failure leaves the receipt for a retry. -/
def processCompletion (confirmationId : String) (draws : Draws) : Service ConfirmationOutcome :=
  tryCatch (completeConfirmation sha256 confirmationId draws) fun _ =>
    throw .confirmationProcessingUnavailable

/-- `process_confirmation`: acceptance and completion in two transactions. A failure of the second
leaves the receipt accepted, so that a retry or recovery completes it; the answer says whether either
half was a replay. -/
def processConfirmation (command : ConfirmationCommand) (receivedAt clock : Option Datetime)
    (draws : Draws) : Service ConfirmationOutcome := do
  let clock ← processingClock receivedAt clock
  let replayed ← processAcceptance sha256 command clock
  let outcome ← processCompletion sha256 command.confirmationId draws
  return { confirmation := outcome.confirmation, replayed := replayed || outcome.replayed }

/-! ## Recovery -/

/-- The order of recovery: receipt time, then identity. -/
def receiptOrder (a b : ConfirmationReceiptRecord) : Prop :=
  a.receivedAt < b.receivedAt ∨
    (a.receivedAt = b.receivedAt ∧ a.confirmationId ≤ b.confirmationId)

instance : DecidableRel receiptOrder := fun _ _ => inferInstanceAs (Decidable (_ ∨ _))

/-- The pending receipts, oldest first, at most `limit`. -/
def pendingReceipts (db : Database) (limit : Nat) : List ConfirmationReceiptRecord :=
  ((db.confirmationReceipts.select fun r => !r.completed).insertionSort receiptOrder).take limit

/-- The selection transaction of `recover_pending_confirmations`. -/
def selectPending (limit : Int) : Service (List String) := do
  if ¬(1 ≤ limit ∧ limit ≤ 1000) then
    throw (.valueError "limit must be an integer between 1 and 1000")
  else
    beginCoordinatedWrite
    let ids ← Service.query fun db => (pendingReceipts db limit.toNat).map (·.confirmationId)
    Service.commit
    return ids

/-- Complete receipts one after another, each in its own transaction. -/
def completeEach (draws : String → Draws) : List String → Service Unit
  | [] => pure ()
  | confirmationId :: rest => do
    let _ ← completeConfirmation sha256 confirmationId (draws confirmationId)
    completeEach draws rest

/-- `recover_pending_confirmations`: the identities of a block are selected first, then completed one
transaction each, and answered. A completion that raises ends the call, with those before it
committed. -/
def recoverPendingConfirmations (limit : Int) (draws : String → Draws) :
    Service (List String) := do
  let ids ← selectPending limit
  completeEach sha256 draws ids
  return ids

end Service

/-! ## Scheduled expiry -/

/-- The condition of the expiry query: the payment awaits, its deadline has come, and no receipt
protects it. -/
def isDue (db : Database) (current : Instant) (payment : PaymentRecord) : Bool :=
  decide (payment.status = .awaitingPayment)
    && (match payment.expiresAt with
      | some expiresAt => decide (expiresAt ≤ current)
      | none => false)
    && !protectingReceiptExists db payment

/-- The order of expiry: deadline, then identity. -/
def dueOrder (a b : PaymentRecord) : Prop :=
  a.expiresAt.getD 0 < b.expiresAt.getD 0 ∨
    (a.expiresAt.getD 0 = b.expiresAt.getD 0 ∧ a.id ≤ b.id)

instance : DecidableRel dueOrder := fun _ _ => inferInstanceAs (Decidable (_ ∨ _))

/-- The due payments, earliest deadline first, at most `limit`. -/
def duePayments (db : Database) (current : Instant) (limit : Nat) : List PaymentRecord :=
  ((db.payments.select (isDue db current)).insertionSort dueOrder).take limit

/-- Expire payments one after another in the open transaction. -/
def expireEach (current : Instant) (hex : String → String) : List PaymentRecord → Service Unit
  | [] => pure ()
  | payment :: rest => do
    tryCatch (applyExpiryTransition payment current (hex payment.id)) fun error =>
      if error = .staleData then throw (.concurrentPaymentUpdate payment.id) else throw error
    expireEach current hex rest

/-- `expire_due_payments`: one bounded, deterministic batch in a single transaction. -/
def expireDuePayments (now : Datetime) (limit : Int) (hex : String → String) :
    Service (List String) := do
  let current ← requireAwareUtc now "now"
  if ¬(1 ≤ limit ∧ limit ≤ maxExpiryBatchSize) then
    throw (.valueError "limit must be between 1 and 1000")
  else
    beginCoordinatedWrite
    let due ← Service.query fun db => duePayments db current limit.toNat
    tryCatch
      (do
        expireEach current hex due
        Service.commit
        return due.map (·.id))
      fun error => do
        Service.rollback
        throw error

end PaymentLab
