import PaymentLab.Library.Json
import PaymentLab.Services.Delivery

/-!
# The webhook consumer

The merchant half of `services/webhooks.py`: the signature of a received body, its validation, and
the transaction that records it in the inbox and updates the projection. The decoder of JSON bodies
and of ISO 8601 times, `int()` and the two digests are parameters. The objects a call loads are its
own, so it reads the store.

The faults of a call stand for what the code cannot rule out by itself: the driver may refuse its
statements, and a failure may be asked for after the inbox was flushed. Each is an argument, and a
result holds for all of them unless it says otherwise.
-/

namespace PaymentLab

open Relational Transactional

/-- A received body. -/
abbrev Bytes := List UInt8

/-- `SIGNATURE_TOLERANCE_SECONDS`. -/
def signatureToleranceSeconds : Int := 300

/-- `WebhookPaymentSnapshot`: the validated snapshot, as the producer's has it. -/
abbrev WebhookPaymentSnapshot := PaymentSnapshot

/-- `WebhookEnvelope`. -/
structure WebhookEnvelope where
  id : String
  eventType : WebhookEventType
  aggregateVersion : Nat
  createdAt : Instant
  payment : WebhookPaymentSnapshot
  deriving DecidableEq, Repr

/-- `ConsumerOutcome`: what became of the event, whether it had been consumed before, and whether
versions were skipped when it was. -/
structure ConsumerOutcome where
  eventId : String
  disposition : ConsumerDisposition
  duplicate : Bool
  versionGap : Bool
  deriving DecidableEq, Repr

/-! ## Signature -/

section Signature

variable (hmacSha256 : String → Int → Bytes → String) (readInt : String → Option Int)

/-- An item of the header at its first `=`; without one it has no second half. -/
def headerPair (item : List Char) : Option (String × String) :=
  match item.span (· ≠ '=') with
  | (_, []) => none
  | (key, _ :: value) => some (String.ofList key, String.ofList value)

/-- The pairs of a signature header: the text between commas, cut at its first equals sign; none
where a piece has no such sign. -/
def headerParts (header : String) : Option (List (String × String)) :=
  (header.toList.splitOn ',').mapM headerPair

example : headerParts "t=0,v1=a=b" = some [("t", "0"), ("v1", "a=b")] := by decide +kernel

/-- A part of the header; the last of several under one name is kept. -/
def headerPart (parts : List (String × String)) (name : String) : Option String :=
  (parts.reverse.find? fun part => decide (part.1 = name)).map (·.2)

/-- The timestamp and the digest of a header; none where a part is missing or the timestamp is no
integer. -/
def readSignature (header : String) : Option (Int × String) := do
  let parts ← headerParts header
  let timestamp ← readInt (← headerPart parts "t")
  return (timestamp, ← headerPart parts "v1")

/-- `verify_webhook_signature`: the checks in the order the code makes them, which decides the
exception. The digest is compared last, and `compare_digest` raises a `TypeError` of its own on text
outside ASCII. -/
def verifyWebhookSignature (payload : Bytes) (signatureHeader secret : String) (now : Datetime)
    (toleranceSeconds : Int := signatureToleranceSeconds) : Except ServiceError Unit :=
  match readSignature readInt signatureHeader with
  | none => .error (.invalidWebhookSignature "Malformed webhook signature")
  | some (timestamp, supplied) =>
    if supplied.length ≠ 64 then
      .error (.invalidWebhookSignature "Malformed webhook signature")
    else if |wholeSeconds now - timestamp| > toleranceSeconds then
      .error (.invalidWebhookSignature "Webhook signature timestamp is outside tolerance")
    else if secret = "" then
      .error (.valueError "Webhook signing secret must not be empty")
    else if supplied.toList.any fun c => decide (127 < c.toNat) then
      .error (.runtimeError "comparing strings with non-ASCII characters is not supported")
    else if hmacSha256 secret timestamp payload ≠ supplied then
      .error (.invalidWebhookSignature "Webhook signature does not match")
    else .ok ()

/-- `verify_confirmation_signature`: the shared format at another boundary. -/
def verifyConfirmationSignature (payload : Bytes) (signatureHeader : Option String)
    (secret : String) (receivedAt : Datetime) : Except ServiceError Unit :=
  match signatureHeader with
  | none | some "" => .error (.invalidConfirmationSignature "Missing confirmation signature")
  | some header =>
    match verifyWebhookSignature hmacSha256 readInt payload header secret receivedAt with
    | .error (.invalidWebhookSignature _) =>
      .error (.invalidConfirmationSignature "Confirmation signature could not be verified")
    | result => result

end Signature

/-! ## Fields of a body -/

/-- Why `json.loads` raises: no JSON text, or a limit of the decoder. -/
inductive LoadsFault where
  | invalid
  | limit
  deriving DecidableEq, Repr

/-- Why an ISO 8601 text gives no instant: no time, or none in the calendar after conversion. -/
inductive IsoFault where
  | invalid
  | overflow
  deriving DecidableEq, Repr

/-- `InvalidWebhookPayloadError`. -/
def invalidPayload {α : Type} (message : String) : Except ServiceError α :=
  .error (.invalidWebhookPayload message)

/-- `_required_mapping`. -/
def requiredMapping (value : Option Json) (name : String) :
    Except ServiceError (List (String × Json)) :=
  match value with
  | some (.obj fields) => .ok fields
  | _ => invalidPayload (name ++ " must be an object")

/-- `_required_string`: a field that is a text and not empty. -/
def requiredString (values : List (String × Json)) (name : String) : Except ServiceError String :=
  match Json.get values name with
  | some (.str value) =>
    if value = "" then invalidPayload (name ++ " must be a non-empty string") else .ok value
  | _ => invalidPayload (name ++ " must be a non-empty string")

/-- `_required_integer`: a field that is an integer, and no truth value, which Python would count as
one. -/
def requiredInteger (values : List (String × Json)) (name : String) : Except ServiceError Int :=
  match Json.get values name with
  | some (.int value) => .ok value
  | _ => invalidPayload (name ++ " must be an integer")

/-- `_optional_string`. -/
def optionalString (values : List (String × Json)) (name : String) :
    Except ServiceError (Option String) :=
  match Json.get values name with
  | none | some .null => .ok none
  | some (.str value) =>
    if value = "" then invalidPayload (name ++ " must be a non-empty string or null")
    else .ok (some value)
  | _ => invalidPayload (name ++ " must be a non-empty string or null")

/-- `_decline_reason`. -/
def declineReason (values : List (String × Json)) : Except ServiceError (Option DeclineReason) :=
  match Json.get values "decline_reason" with
  | none => invalidPayload "decline_reason is required"
  | some .null => .ok none
  | some (.str value) =>
    match Json.memberOf DeclineReason.all DeclineReason.value value with
    | some reason => .ok (some reason)
    | none => invalidPayload "decline_reason is unsupported"
  | some _ => invalidPayload "decline_reason must be a string or null"

/-- `payment_values.get("payment_flow", "SYNCHRONOUS")`. -/
def paymentFlowText (values : List (String × Json)) : Except ServiceError String :=
  match Json.get values "payment_flow" with
  | none => .ok PaymentFlow.synchronous.value
  | some (.str value) => .ok value
  | some _ => invalidPayload "payment_flow must be a string"

section Parsing

variable (loads : Bytes → Except LoadsFault Json)
  (fromIsoformat : String → Except IsoFault Datetime)

/-- `value.replace("Z", "+00:00")`. -/
def replaceZ (value : String) : String :=
  String.ofList (value.toList.flatMap fun c => if c = 'Z' then "+00:00".toList else [c])

/-- `_as_utc(datetime.fromisoformat(...))`, with the message of the field. -/
def readDatetime (value message : String) : Except ServiceError Instant :=
  match fromIsoformat (replaceZ value) with
  | .ok time => .ok (asUtc time)
  | .error .invalid => invalidPayload message
  | .error .overflow => .error (.runtimeError "date value out of range")

/-- `_required_datetime`. -/
def requiredDatetime (values : List (String × Json)) (name : String) :
    Except ServiceError Instant := do
  let value ← requiredString values name
  readDatetime fromIsoformat value (name ++ " must be an ISO 8601 time")

/-- `_optional_datetime`. -/
def optionalDatetime (values : List (String × Json)) (name : String) :
    Except ServiceError (Option Instant) :=
  let message := name ++ " must be an ISO 8601 time or null"
  match Json.get values name with
  | none | some .null => .ok none
  | some (.str value) =>
    if value = "" then invalidPayload message
    else (readDatetime fromIsoformat value message).map some
  | _ => invalidPayload message

/-- The `payment` fields that are read before the snapshot is checked. -/
structure SnapshotFields where
  id : String
  amount : Int
  authorizedAmount : Int
  capturedAmount : Int
  refundedAmount : Int
  version : Int
  currency : String
  status : String
  paymentFlow : String
  paymentReference : Option String
  expiresAt : Option Instant
  declineReason : Option DeclineReason

/-- The reads of those fields, in the order of the source. -/
def readSnapshotFields (values : List (String × Json)) : Except ServiceError SnapshotFields := do
  let id ← requiredString values "id"
  let amount ← requiredInteger values "amount"
  let authorizedAmount ← requiredInteger values "authorized_amount"
  let capturedAmount ← requiredInteger values "captured_amount"
  let refundedAmount ← requiredInteger values "refunded_amount"
  let version ← requiredInteger values "version"
  let currency ← requiredString values "currency"
  let status ← requiredString values "status"
  let paymentFlow ← paymentFlowText values
  let paymentReference ← optionalString values "payment_reference"
  let expiresAt ← optionalDatetime fromIsoformat values "expires_at"
  let reason ← declineReason values
  .ok
    { id := id, amount := amount, authorizedAmount := authorizedAmount
      capturedAmount := capturedAmount, refundedAmount := refundedAmount, version := version
      currency := currency, status := status, paymentFlow := paymentFlow
      paymentReference := paymentReference, expiresAt := expiresAt, declineReason := reason }

/-- The three enumerations of a snapshot, read before the payment itself is validated. -/
structure SnapshotKinds where
  currency : Currency
  status : PaymentStatus
  paymentFlow : PaymentFlow

/-- The metadata of the two flows. -/
def flowAgrees (flow : PaymentFlow) (paymentReference : Option String)
    (expiresAt : Option Instant) : Bool :=
  match flow with
  | .synchronous => paymentReference.isNone && expiresAt.isNone
  | .asynchronousConfirmation => paymentReference.isSome && expiresAt.isSome

/-- The checks that share one message: the decline reason, the metadata of the flow, an awaiting
payment, a confirmation request, and the balances. -/
def snapshotAgrees (eventType : WebhookEventType) (kinds : SnapshotKinds) (fields : SnapshotFields) :
    Bool :=
  (decide (kinds.status = .declined) == fields.declineReason.isSome)
    && flowAgrees kinds.paymentFlow fields.paymentReference fields.expiresAt
    && !(decide (kinds.status = .awaitingPayment)
      && (decide (kinds.paymentFlow ≠ .asynchronousConfirmation)
        || decide (fields.authorizedAmount ≠ 0) || decide (fields.capturedAmount ≠ 0)
        || decide (fields.refundedAmount ≠ 0)))
    && !(decide (eventType = .confirmationRequested) && decide (kinds.status ≠ .awaitingPayment))
    && (PaymentState.create kinds.status fields.authorizedAmount fields.capturedAmount
      fields.refundedAmount).toOption.isSome

/-- The checks of the amounts, the version and the snapshot. -/
def checkSnapshot (eventType : WebhookEventType) (aggregateVersion : Int) (fields : SnapshotFields) :
    Except ServiceError SnapshotKinds :=
  if fields.amount ≤ 0 ∨ fields.authorizedAmount > fields.amount then
    invalidPayload "Payment amounts are inconsistent"
  else if aggregateVersion < 1 ∨ fields.version ≠ aggregateVersion then
    invalidPayload "Payment version does not match the event"
  else
    match Json.memberOf Currency.all Currency.value fields.currency,
      Json.memberOf PaymentStatus.all PaymentStatus.value fields.status,
      Json.memberOf PaymentFlow.all PaymentFlow.value fields.paymentFlow with
    | some currency, some status, some paymentFlow =>
      let kinds : SnapshotKinds :=
        { currency := currency, status := status, paymentFlow := paymentFlow }
      if snapshotAgrees eventType kinds fields then .ok kinds
      else invalidPayload "Payment snapshot is invalid"
    | _, _, _ => invalidPayload "Payment snapshot is invalid"

/-- The snapshot of a checked event; three fields are read only here. -/
def readSnapshot (values : List (String × Json)) (fields : SnapshotFields) (kinds : SnapshotKinds) :
    Except ServiceError WebhookPaymentSnapshot := do
  let merchantReference ← requiredString values "merchant_reference"
  let createdAt ← requiredDatetime fromIsoformat values "created_at"
  let updatedAt ← requiredDatetime fromIsoformat values "updated_at"
  .ok
    { id := fields.id
      merchantReference := merchantReference
      amount := fields.amount
      currency := kinds.currency
      status := kinds.status
      paymentFlow := kinds.paymentFlow
      paymentReference := fields.paymentReference
      expiresAt := fields.expiresAt
      declineReason := fields.declineReason
      authorizedAmount := fields.authorizedAmount
      capturedAmount := fields.capturedAmount
      refundedAmount := fields.refundedAmount
      version := fields.version.toNat
      createdAt := createdAt
      updatedAt := updatedAt }

/-- The body as an object. -/
def readBody (payload : Bytes) : Except ServiceError (List (String × Json)) :=
  match loads payload with
  | .ok body => requiredMapping (some body) "webhook"
  | .error .invalid => invalidPayload "Webhook body must be valid JSON"
  | .error .limit => .error (.runtimeError "json.loads")

/-- The type of an event. -/
def requiredEventType (values : List (String × Json)) : Except ServiceError WebhookEventType := do
  let value ← requiredString values "type"
  match Json.memberOf WebhookEventType.all WebhookEventType.value value with
  | some eventType => .ok eventType
  | none => invalidPayload "Webhook event type is unsupported"

/-- `parse_webhook_payload`: the checks in the order of the source. -/
def parseWebhookPayload (payload : Bytes) : Except ServiceError WebhookEnvelope := do
  let values ← readBody loads payload
  let eventId ← requiredString values "id"
  let eventType ← requiredEventType values
  let aggregateVersion ← requiredInteger values "aggregate_version"
  let createdAt ← requiredDatetime fromIsoformat values "created_at"
  let paymentValues ← requiredMapping (Json.get values "payment") "payment"
  let fields ← readSnapshotFields fromIsoformat paymentValues
  let kinds ← checkSnapshot eventType aggregateVersion fields
  let payment ← readSnapshot fromIsoformat paymentValues fields kinds
  .ok
    { id := eventId
      eventType := eventType
      aggregateVersion := aggregateVersion.toNat
      createdAt := createdAt
      payment := payment }

end Parsing

/-! ## Projection -/

/-- `_projection_matches`: every column of the payment is compared, the version included; the event
it was taken from and the time of the update are not. -/
def projectionMatches (projection : MerchantPaymentProjectionRecord)
    (payment : WebhookPaymentSnapshot) : Bool :=
  decide (projection.merchantReference = payment.merchantReference
    ∧ projection.amount = payment.amount
    ∧ projection.currency = payment.currency
    ∧ projection.status = payment.status
    ∧ projection.paymentFlow = payment.paymentFlow
    ∧ projection.paymentReference = payment.paymentReference
    ∧ projection.expiresAt = payment.expiresAt
    ∧ projection.declineReason = payment.declineReason
    ∧ projection.authorizedAmount = payment.authorizedAmount
    ∧ projection.capturedAmount = payment.capturedAmount
    ∧ projection.refundedAmount = payment.refundedAmount
    ∧ projection.aggregateVersion = payment.version)

/-- `_apply_projection`: every column but the key. -/
def applyProjection (projection : MerchantPaymentProjectionRecord) (eventId : String)
    (payment : WebhookPaymentSnapshot) : MerchantPaymentProjectionRecord :=
  { projection with
    merchantReference := payment.merchantReference
    amount := payment.amount
    currency := payment.currency
    status := payment.status
    paymentFlow := payment.paymentFlow
    paymentReference := payment.paymentReference
    expiresAt := payment.expiresAt
    declineReason := payment.declineReason
    authorizedAmount := payment.authorizedAmount
    capturedAmount := payment.capturedAmount
    refundedAmount := payment.refundedAmount
    aggregateVersion := payment.version
    lastEventId := eventId
    updatedAt := payment.updatedAt }

/-- The projection of a payment's first event: the columns of its snapshot, and the event as the one
it was taken from. -/
def newProjection (envelope : WebhookEnvelope) : MerchantPaymentProjectionRecord :=
  { paymentId := envelope.payment.id
    merchantReference := envelope.payment.merchantReference
    amount := envelope.payment.amount
    currency := envelope.payment.currency
    status := envelope.payment.status
    paymentFlow := envelope.payment.paymentFlow
    paymentReference := envelope.payment.paymentReference
    expiresAt := envelope.payment.expiresAt
    declineReason := envelope.payment.declineReason
    authorizedAmount := envelope.payment.authorizedAmount
    capturedAmount := envelope.payment.capturedAmount
    refundedAmount := envelope.payment.refundedAmount
    aggregateVersion := envelope.payment.version
    lastEventId := envelope.id
    updatedAt := envelope.payment.updatedAt }

/-- The statement a call stages for the projection. An update keeps both the object as it was loaded
and as it was changed, because only the columns in which they differ are written. -/
inductive ProjectionWrite where
  | insert (row : MerchantPaymentProjectionRecord)
  | update (loaded current : MerchantPaymentProjectionRecord)
  | keep
  deriving DecidableEq, Repr

/-- What a call decides from the projection it read: the disposition, whether versions were skipped,
and the write. Nothing of it is decided again when the write takes place. -/
structure ConsumerDecision where
  disposition : ConsumerDisposition
  versionGap : Bool
  write : ProjectionWrite
  deriving DecidableEq, Repr

/-- The outcome of a call that was committed. -/
def ConsumerDecision.outcome (decision : ConsumerDecision) (eventId : String) : ConsumerOutcome :=
  { eventId := eventId, disposition := decision.disposition, duplicate := false
    versionGap := decision.versionGap }

/-- The comparison of versions in `consume_webhook`. -/
def decideProjection (projection : Option MerchantPaymentProjectionRecord)
    (envelope : WebhookEnvelope) : Except ServiceError ConsumerDecision :=
  match projection with
  | none =>
    .ok
      { disposition := .applied
        versionGap := decide (envelope.aggregateVersion > 1)
        write := .insert (newProjection envelope) }
  | some projection =>
    if envelope.aggregateVersion > projection.aggregateVersion then
      .ok
        { disposition := .applied
          versionGap := decide (envelope.aggregateVersion > projection.aggregateVersion + 1)
          write := .update projection (applyProjection projection envelope.id envelope.payment) }
    else if envelope.aggregateVersion < projection.aggregateVersion then
      .ok { disposition := .stale, versionGap := false, write := .keep }
    else if projectionMatches projection envelope.payment then
      .ok { disposition := .redundant, versionGap := false, write := .keep }
    else .error (.webhookVersionConflict envelope.payment.id)

/-- A time column: a stored time reads back without its zone and compares unlike any other time, so
it is written unless both values are null. -/
def writeTime (loaded current stored : Option Instant) : Option Instant :=
  if loaded = none ∧ current = none then stored else current

/-- The row an `UPDATE` of a projection leaves. It is keyed by the payment alone. -/
def MerchantPaymentProjectionRecord.writeChanges
    (loaded current stored : MerchantPaymentProjectionRecord) : MerchantPaymentProjectionRecord :=
  { stored with
    merchantReference :=
      writeColumn loaded.merchantReference current.merchantReference stored.merchantReference
    amount := writeColumn loaded.amount current.amount stored.amount
    currency := writeColumn loaded.currency current.currency stored.currency
    status := writeColumn loaded.status current.status stored.status
    paymentFlow := writeColumn loaded.paymentFlow current.paymentFlow stored.paymentFlow
    paymentReference :=
      writeColumn loaded.paymentReference current.paymentReference stored.paymentReference
    expiresAt := writeTime loaded.expiresAt current.expiresAt stored.expiresAt
    declineReason := writeColumn loaded.declineReason current.declineReason stored.declineReason
    authorizedAmount :=
      writeColumn loaded.authorizedAmount current.authorizedAmount stored.authorizedAmount
    capturedAmount := writeColumn loaded.capturedAmount current.capturedAmount stored.capturedAmount
    refundedAmount := writeColumn loaded.refundedAmount current.refundedAmount stored.refundedAmount
    aggregateVersion :=
      writeColumn loaded.aggregateVersion current.aggregateVersion stored.aggregateVersion
    lastEventId := writeColumn loaded.lastEventId current.lastEventId stored.lastEventId
    updatedAt := current.updatedAt }

/-- The flush of the projection: an `INSERT`, an `UPDATE` of the columns in which the loaded and the
changed object differ, or nothing. The `UPDATE` is by the key alone, so it writes them over whatever
is stored by now. -/
def flushProjection (write : ProjectionWrite) (db : Database) : Except ServiceError Database :=
  match write with
  | .insert row => insertMerchantProjection row db
  | .update loaded current =>
    match db.merchantProjections.get loaded.paymentId with
    | none => .error .staleData
    | some stored =>
      updateIn (·.merchantProjections) (fun db t => { db with merchantProjections := t })
        (loaded.writeChanges current stored) db
  | .keep => .ok db

/-! ## The transaction -/

/-- The inbox row of a call: the event, the digest of its body, and the disposition that was decided. -/
def newInbox (envelope : WebhookEnvelope) (payloadHash : String) (decision : ConsumerDecision)
    (now : Datetime) : ProcessedWebhookRecord :=
  { eventId := envelope.id
    paymentId := envelope.payment.id
    eventType := envelope.eventType
    aggregateVersion := envelope.aggregateVersion
    payloadHash := payloadHash
    disposition := decision.disposition
    versionGap := decision.versionGap
    processedAt := asUtc now }

/-- How the write of a call may be made to fail. -/
structure ConsumerFaults where
  /-- `fail_after_inbox` -/
  afterInbox : Bool
  /-- the driver refuses the statements: a locked database, or an integer beyond 64 bits -/
  storage : Bool
  deriving DecidableEq, Repr

/-- The answer to an event that is in the inbox: a duplicate under the same digest, and otherwise a
conflict. Nothing is written for either. -/
def answerRepeated (existing : ProcessedWebhookRecord) (eventId payloadHash : String) :
    Service ConsumerOutcome :=
  if existing.payloadHash ≠ payloadHash then throw (.webhookEventCollision eventId)
  else
    pure
      { eventId := eventId, disposition := .duplicate, duplicate := true
        versionGap := existing.versionGap }

/-- The statements of a call up to its commit: inbox row, projection, the injected failure, and the
commit, in this order. Whatever fails leaves none of it. -/
def commitConsumption (inbox : ProcessedWebhookRecord) (write : ProjectionWrite)
    (faults : ConsumerFaults) : Service Unit := do
  if faults.storage then throw .storageFailure
  else
    Service.flush (insertProcessedWebhook inbox)
    Service.flush (flushProjection write)
    if faults.afterInbox then throw .simulatedConsumerPersistence
    else Service.commit

/-- The exceptions of the write: a lost race is answered from the inbox, where the event is there. -/
def consumptionFailed (envelope : WebhookEnvelope) (payloadHash : String) (error : ServiceError) :
    Service ConsumerOutcome := do
  Service.rollback
  if error = .integrityError then
    match ← Service.query fun db => db.processedWebhooks.get envelope.id with
    | none => throw (.concurrentWebhookConsumer envelope.payment.id)
    | some existing => answerRepeated existing envelope.id payloadHash
  else throw error

/-- The write phase of a call, with the handler of what it raises. -/
def writeConsumption (envelope : WebhookEnvelope) (payloadHash : String)
    (decision : ConsumerDecision) (now : Datetime) (faults : ConsumerFaults) :
    Service ConsumerOutcome :=
  tryCatch
    (do
      commitConsumption (newInbox envelope payloadHash decision now) decision.write faults
      return decision.outcome envelope.id)
    (consumptionFailed envelope payloadHash)

/-- The first read of a call: the inbox row of the event, if it was consumed before. -/
def readInbox (eventId : String) : Service (Option ProcessedWebhookRecord) :=
  Service.query fun db => db.processedWebhooks.get eventId

/-- The second read of a call: the projection of the payment, on which the decision is made. -/
def readProjection (paymentId : String) : Service (Option MerchantPaymentProjectionRecord) :=
  Service.query fun db => db.merchantProjections.get paymentId

/-- `consume_webhook` after verification and validation. -/
def consumeEnvelope (envelope : WebhookEnvelope) (payloadHash : String) (now : Datetime)
    (faults : ConsumerFaults) : Service ConsumerOutcome := do
  match ← readInbox envelope.id with
  | some existing => answerRepeated existing envelope.id payloadHash
  | none =>
    match decideProjection (← readProjection envelope.payment.id) envelope with
    | .error error => throw error
    | .ok decision => writeConsumption envelope payloadHash decision now faults

/-- Raise from a service function. -/
def liftService {α : Type} : Except ServiceError α → Service α
  | .ok a => pure a
  | .error e => throw e

section Consumption

variable (hmacSha256 : String → Int → Bytes → String) (readInt : String → Option Int)
  (loads : Bytes → Except LoadsFault Json) (fromIsoformat : String → Except IsoFault Datetime)
  (sha256 : Bytes → String)

/-- `consume_webhook`: signature, body, and then the transaction. The first two are of the bytes as
they were received, and nothing of the store is read before both have accepted. -/
def consumeWebhook (payload : Bytes) (signatureHeader secret : String) (now : Datetime)
    (faults : ConsumerFaults) : Service ConsumerOutcome := do
  liftService (verifyWebhookSignature hmacSha256 readInt payload signatureHeader secret now)
  let envelope ← liftService (parseWebhookPayload loads fromIsoformat payload)
  consumeEnvelope envelope (sha256 payload) now faults

end Consumption

end PaymentLab
