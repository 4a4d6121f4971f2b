import PaymentLab.Library.CanonicalJson
import PaymentLab.Services.Coordination
import PaymentLab.Services.Outbox

/-!
# The payment service

`services/payments.py`: authorization, capture, cancellation and refund. Each request claims its
idempotency key first, then changes the payment, writes the ledger entry, the event and the stored
response in one transaction. SHA-256 is a parameter; values a request draws from `uuid4` and from
the wall clock are arguments.

The functions are written as the source has them, block by block, and the blocks are what the
concurrent model runs as transactions. An injected failure is an exception at the place the source
raises it; whether it leaves something committed depends on that place alone.
-/

namespace PaymentLab

open Transactional

/-- `_read_clock`: one timezone-aware instant. -/
def readClock (clock : Datetime) : Service Instant :=
  match clock with
  | .naive _ => throw (.valueError "Payment clock must return a timezone-aware datetime")
  | .aware utc => pure utc

/-! ## Commands and outcomes -/

/-- `AuthorizationCommand`. -/
structure AuthorizationCommand where
  merchantReference : String
  amount : Int
  currency : Currency
  paymentMethodToken : PaymentMethodDecision
  deriving DecidableEq, Repr

/-- The object an authorization fingerprint digests. -/
def AuthorizationCommand.payload (command : AuthorizationCommand) : CanonicalJson.Value :=
  .obj [("amount", .int command.amount),
    ("currency", .str command.currency.value),
    ("merchant_reference", .str command.merchantReference),
    ("payment_method_token", .str command.paymentMethodToken.value)]

/-- `LifecycleCommand`: what a fingerprint of a lifecycle operation covers. Only a refund has an
amount. -/
structure LifecycleCommand where
  paymentId : String
  operation : PaymentOperation
  amount : Option Int
  deriving DecidableEq, Repr

/-- The command of `capture_payment`. -/
def LifecycleCommand.capture (paymentId : String) : LifecycleCommand :=
  { paymentId := paymentId, operation := .capture, amount := none }

/-- The command of `cancel_payment`. -/
def LifecycleCommand.cancel (paymentId : String) : LifecycleCommand :=
  { paymentId := paymentId, operation := .cancel, amount := none }

/-- The command of `refund_payment`. -/
def LifecycleCommand.refund (paymentId : String) (amount : Int) : LifecycleCommand :=
  { paymentId := paymentId, operation := .refund, amount := some amount }

/-- The object a lifecycle fingerprint digests. -/
def LifecycleCommand.payload (command : LifecycleCommand) : CanonicalJson.Value :=
  .obj [("amount", match command.amount with | some amount => .int amount | none => .null),
    ("operation", .str command.operation.value),
    ("payment_id", .str command.paymentId)]

/-- The payment of an outcome: the committed record, or the stored snapshot of a replay. -/
inductive OutcomePayment where
  | record (payment : PaymentRecord)
  | snapshot (payment : PaymentSnapshot)
  deriving DecidableEq, Repr

/-- `AuthorizationOutcome` and `LifecycleOutcome`: the payment, as its row or as a stored snapshot,
and whether it was replayed. -/
structure PaymentOutcome where
  payment : OutcomePayment
  replayed : Bool
  deriving DecidableEq, Repr

/-- The answer to a repeated request. -/
def PaymentOutcome.replay (snapshot : PaymentSnapshot) : PaymentOutcome :=
  { payment := .snapshot snapshot, replayed := true }

/-- What a request draws from `uuid4`, one text for each place it is used in. They are arbitrary,
equal ones included. -/
structure Draws where
  payment : String
  reference : String
  ledger : String
  event : String
  deriving DecidableEq, Repr

section Service

variable (sha256 : String → String)

/-- `AuthorizationCommand.fingerprint`. -/
def AuthorizationCommand.fingerprint (command : AuthorizationCommand) : String :=
  sha256 (CanonicalJson.text command.payload)

/-- `LifecycleCommand.fingerprint`. -/
def LifecycleCommand.fingerprint (command : LifecycleCommand) : String :=
  sha256 (CanonicalJson.text command.payload)

/-! ## The idempotency claim -/

/-- `_find_idempotent_snapshot`: an immutable prior result, or a rejection of conflicting reuse. -/
def findIdempotentSnapshot (idempotencyKey fingerprint : String) :
    Service (Option PaymentSnapshot) := do
  match ← Service.query fun db => db.idempotencyRecords.get idempotencyKey with
  | none => return none
  | some existing =>
    if existing.requestFingerprint ≠ fingerprint then
      throw .idempotencyConflict
    else
      match existing.responseSnapshot with
      | none => throw (.runtimeError "Idempotency record has no completed response")
      | some snapshot => return some snapshot

/-- The record a claim inserts: the key with the fingerprint and the operation, and neither a payment
nor a response yet. No committed record is left so. -/
def newClaim (idempotencyKey fingerprint operation : String) (createdAt : Instant) :
    IdempotencyRecord :=
  { key := idempotencyKey
    requestFingerprint := fingerprint
    operation := operation
    paymentId := none
    responseSnapshot := none
    createdAt := createdAt }

/-- A key claimed by this transaction, or the prior response under it. -/
inductive ClaimResult where
  | claimed (claim : IdempotencyRecord)
  | replayed (snapshot : PaymentSnapshot)

/-- The flush of a claim; `false` when another request holds the key, the transaction dropped. -/
def insertClaim (claim : IdempotencyRecord) : Service Bool :=
  tryCatch
    (do
      Service.flush (insertIdempotencyRecord claim)
      return true)
    fun error => do
      if error = .integrityError then
        Service.rollback
        return false
      else throw error

/-- After a lost claim: read the winner's response, or raise the refusal of the key again where the
winner has not left one. -/
def replayConcurrentResult (idempotencyKey fingerprint : String) : Service PaymentSnapshot := do
  match ← findIdempotentSnapshot idempotencyKey fingerprint with
  | none => throw .integrityError
  | some snapshot => return snapshot

/-- `_claim_idempotency_key`: claim a key before mutation, or replay a committed result. -/
def claimIdempotencyKey (idempotencyKey fingerprint operation : String) (createdAt : Instant) :
    Service ClaimResult := do
  match ← findIdempotentSnapshot idempotencyKey fingerprint with
  | some snapshot => return .replayed snapshot
  | none =>
    let claim := newClaim idempotencyKey fingerprint operation createdAt
    if ← insertClaim claim then return .claimed claim
    else return .replayed (← replayConcurrentResult idempotencyKey fingerprint)

/-! ## The committed outcome -/

/-- The claim with its response. -/
def completedClaim (claim : IdempotencyRecord) (payment : PaymentRecord) : IdempotencyRecord :=
  { claim with
    paymentId := some payment.id
    responseSnapshot := some (.fromPayment payment) }

/-- The staged ledger row, when there is one. -/
def flushLedgerEntry (entry : Option LedgerEntryRecord) : Service Unit :=
  match entry with
  | some entry => Service.flush (insertLedgerEntry entry)
  | none => pure ()

/-- The statements of `_commit_payment_outcome` before its commit: the changed payment and the
staged ledger row, then the event of the new version and the completed claim. -/
def stageOutcome (claim : IdempotencyRecord) (loaded payment : PaymentRecord)
    (entry : Option LedgerEntryRecord) (eventType : WebhookEventType) (hex : String) :
    Service PaymentRecord := do
  Service.flush (flushPayment loaded payment)
  flushLedgerEntry entry
  let flushed := afterFlush loaded payment
  Service.remember (holdPayment flushed)
  Service.flush (insertWebhookEvent (createOutboxEvent flushed eventType hex))
  Service.flush (updateIdempotencyRecord (completedClaim claim flushed))
  return flushed

/-- `_commit_payment_outcome`: payment state, replay snapshot and event in one commit. `payment` is
the changed object, `loaded` the values it was loaded with, `entry` the staged ledger row. -/
def commitPaymentOutcome (claim : IdempotencyRecord) (loaded payment : PaymentRecord)
    (entry : Option LedgerEntryRecord) (eventType : WebhookEventType)
    (failurePoint : Option FailurePoint) (hex : String) : Service PaymentRecord := do
  let committed ← tryCatch
    (do
      let flushed ← stageOutcome claim loaded payment entry eventType hex
      if failurePoint = some .beforeCommit then
        throw (.simulatedPaymentTimeout .beforeCommit)
      else
        Service.commit
        return flushed)
    fun error => do
      Service.rollback
      if error = .staleData then throw (.concurrentPaymentUpdate payment.id)
      else throw error
  if failurePoint = some .afterCommit then
    throw (.simulatedPaymentTimeout .afterCommit)
  else return committed

/-- `if session.in_transaction(): session.rollback()`. -/
def rollbackIfOpen : Service Unit := do
  if ← Service.inTransaction then Service.rollback else pure ()

/-- The guard around a claimed request: an exception ends an open transaction. -/
def rollbackOnError {α : Type} (body : Service α) : Service α :=
  tryCatch body fun error => do
    rollbackIfOpen
    throw error

/-! ## Authorization -/

/-- What an authorization decides before it creates the payment, from the token, the clock and the
drawn reference. -/
structure AuthorizationTerms where
  status : PaymentStatus
  paymentFlow : PaymentFlow
  paymentReference : Option String
  expiresAt : Option Instant
  declineReason : Option DeclineReason
  authorizedAmount : Int
  eventType : WebhookEventType

/-- The branches of `_execute_claimed_authorization`. -/
def authorizationTerms (command : AuthorizationCommand) (now : Instant) (hex : String) :
    Except DomainError AuthorizationTerms :=
  match command.paymentMethodToken with
  | .awaitConfirmation =>
    .ok
      { status := .awaitingPayment
        paymentFlow := .asynchronousConfirmation
        paymentReference := some ("ref_" ++ hex)
        expiresAt := some (now + hours 72)
        declineReason := none
        authorizedAmount := 0
        eventType := .confirmationRequested }
  | .authorization decision =>
    (authorize command.amount decision).map fun result =>
      { status := result.status
        paymentFlow := .synchronous
        paymentReference := none
        expiresAt := none
        declineReason := result.declineReason
        authorizedAmount := result.authorizedAmount
        eventType := if result.status = .authorized then .authorized else .declined }

/-- The payment row an authorization creates. -/
def newPayment (command : AuthorizationCommand) (terms : AuthorizationTerms) (now : Instant)
    (hex : String) : PaymentRecord :=
  { id := "pay_" ++ hex
    merchantReference := command.merchantReference
    amount := command.amount
    currency := command.currency
    status := terms.status
    paymentFlow := terms.paymentFlow
    paymentReference := terms.paymentReference
    expiresAt := terms.expiresAt
    declineReason := terms.declineReason
    authorizedAmount := terms.authorizedAmount
    capturedAmount := 0
    refundedAmount := 0
    version := 1
    createdAt := now
    updatedAt := now }

/-- The ledger row of an approved authorization; a zero balance writes none. -/
def authorizationEntry (payment : PaymentRecord) (hex : String) : Option LedgerEntryRecord :=
  if payment.authorizedAmount ≠ 0 then
    some
      { id := "led_" ++ hex
        paymentId := payment.id
        operation := "AUTHORIZATION"
        amount := payment.authorizedAmount
        currency := payment.currency
        createdAt := payment.createdAt }
  else none

/-- `_execute_claimed_authorization`: the terms are decided, the payment is inserted, and the outcome
is committed with its ledger row, its event and its response. The domain raises before anything is
written. -/
def executeClaimedAuthorization (command : AuthorizationCommand) (claim : IdempotencyRecord)
    (failurePoint : Option FailurePoint) (now : Instant) (draws : Draws) :
    Service PaymentOutcome := do
  let terms ← liftDomain (authorizationTerms command now draws.reference)
  let payment := newPayment command terms now draws.payment
  Service.flush (insertPayment payment)
  let committed ← commitPaymentOutcome claim payment payment
    (authorizationEntry payment draws.ledger) terms.eventType failurePoint draws.event
  return { payment := .record committed, replayed := false }

/-- `authorize_payment`: the clock is read first, and without a time zone refused; then the key is
claimed or its response replayed. Whatever raises once the key is claimed rolls the claim back with
it. -/
def authorizePayment (command : AuthorizationCommand) (idempotencyKey : String)
    (failurePoint : Option FailurePoint) (clock : Datetime) (draws : Draws) :
    Service PaymentOutcome := do
  let now ← readClock clock
  match ← claimIdempotencyKey idempotencyKey (command.fingerprint sha256) "AUTHORIZE" now with
  | .replayed snapshot => return .replay snapshot
  | .claimed claim =>
    rollbackOnError (executeClaimedAuthorization command claim failurePoint now draws)

/-! ## Lifecycle operations -/

/-- `get_payment`: the object the session holds, or else the row, or the exception that there is
none. -/
def getPayment (paymentId : String) : Service PaymentRecord := do
  match ← sessionGetPayment paymentId with
  | some payment => return payment
  | none => throw (.paymentNotFound paymentId)

/-- `_payment_state`: the persisted aggregate as a domain state. -/
def paymentState (payment : PaymentRecord) : Except DomainError PaymentState :=
  PaymentState.create payment.status payment.authorizedAmount payment.capturedAmount payment.refundedAmount

/-- Copy a domain state into the payment object: status, balances and the time of the update. The
version is counted by the flush. -/
def PaymentRecord.withState (payment : PaymentRecord) (state : PaymentState) (now : Instant) :
    PaymentRecord :=
  { payment with
    status := state.status
    authorizedAmount := state.authorizedAmount
    capturedAmount := state.capturedAmount
    refundedAmount := state.refundedAmount
    updatedAt := now }

/-- Whether a receipt forbids the cancellation: only an awaiting payment is asked about. -/
def cancellationProtected (payment : PaymentRecord) (state : PaymentState) : Service Bool :=
  if state.status = .awaitingPayment then hasProtectingReceipt payment else pure false

/-- The transition an operation decides: the next state and the amount of its ledger entry. -/
def decideOperation (command : LifecycleCommand) (payment : PaymentRecord)
    (state : PaymentState) : Service (PaymentState × Int) :=
  match command.operation, command.amount with
  | .capture, _ => do
    let next ← liftDomain (capture state)
    return (next, next.capturedAmount - state.capturedAmount)
  | .cancel, _ => do
    if ← cancellationProtected payment state then throw .confirmationPending
    else
      let next ← liftDomain (cancel state)
      return (next, state.authorizedAmount)
  | .refund, some amount => do
    let next ← liftDomain (refund state amount)
    return (next, amount)
  | _, _ => throw (.valueError "Unsupported lifecycle operation")

/-- The ledger row of an operation; the cancellation of an unpaid request writes none. -/
def lifecycleEntry (command : LifecycleCommand) (payment : PaymentRecord) (state : PaymentState)
    (amount : Int) (now : Instant) (hex : String) : Option LedgerEntryRecord :=
  if command.operation = .cancel ∧ state.status = .awaitingPayment then none
  else
    some
      { id := "led_" ++ hex
        paymentId := payment.id
        operation := command.operation.value
        amount := amount
        currency := payment.currency
        createdAt := now }

/-- The event type of an operation. -/
def lifecycleEventType : PaymentOperation → Option WebhookEventType
  | .capture => some .captured
  | .cancel => some .cancelled
  | .refund => some .refunded
  | _ => none

/-- `_execute_claimed_lifecycle_operation`. `now` is the wall clock. -/
def executeClaimedLifecycleOperation (command : LifecycleCommand) (claim : IdempotencyRecord)
    (failurePoint : Option FailurePoint) (now : Instant) (draws : Draws) :
    Service PaymentOutcome := do
  let payment ← getPayment command.paymentId
  let state ← liftDomain (paymentState payment)
  let (next, amount) ← decideOperation command payment state
  match lifecycleEventType command.operation with
  | none => throw (.domain .keyError)
  | some eventType =>
    let committed ← commitPaymentOutcome claim payment (payment.withState next now)
      (lifecycleEntry command payment state amount now draws.ledger) eventType failurePoint
      draws.event
    return { payment := .record committed, replayed := false }

/-- `_apply_lifecycle_operation`. `claimedAt` is the wall clock when the key is claimed. -/
def applyLifecycleOperation (command : LifecycleCommand) (idempotencyKey : String)
    (failurePoint : Option FailurePoint) (claimedAt now : Instant) (draws : Draws) :
    Service PaymentOutcome := do
  match ← claimIdempotencyKey idempotencyKey (command.fingerprint sha256)
      command.operation.value claimedAt with
  | .replayed snapshot => return .replay snapshot
  | .claimed claim =>
    rollbackOnError (executeClaimedLifecycleOperation command claim failurePoint now draws)

/-- `capture_payment`: the lifecycle operation on whatever version the session has; the flush decides
whether it still is the stored one. -/
def capturePayment (paymentId idempotencyKey : String) (failurePoint : Option FailurePoint)
    (claimedAt now : Instant) (draws : Draws) : Service PaymentOutcome :=
  applyLifecycleOperation sha256 (.capture paymentId) idempotencyKey failurePoint claimedAt now draws

/-- `cancel_payment`: cancellation under the writer reservation. -/
def cancelPayment (paymentId idempotencyKey : String) (failurePoint : Option FailurePoint)
    (claimedAt now : Instant) (draws : Draws) : Service PaymentOutcome :=
  tryCatch
    (do
      beginCoordinatedWrite
      applyLifecycleOperation sha256 (.cancel paymentId) idempotencyKey failurePoint claimedAt now
        draws)
    fun error => do
      if error.isSQLAlchemyError then
        Service.rollback
        throw .cancellationUnavailable
      else throw error

/-- `refund_payment`: the lifecycle operation with the amount asked for, whose bounds are the
domain's to check. -/
def refundPayment (paymentId : String) (amount : Int) (idempotencyKey : String)
    (failurePoint : Option FailurePoint) (claimedAt now : Instant) (draws : Draws) :
    Service PaymentOutcome :=
  applyLifecycleOperation sha256 (.refund paymentId amount) idempotencyKey failurePoint claimedAt now
    draws

end Service

end PaymentLab
