import PaymentLab.Services.Runtime

/-!
# Webhook delivery

The producer half of `services/webhooks.py`, from the lease of an event to the record of an attempt.
The receiver is a function of the caller, with an exception where it may raise one. The hexadecimal
HMAC-SHA256 of a timestamped body under a secret is a parameter; the generated part of a lease token
is an argument. `dispatchWebhook` is made of the blocks a concurrent dispatcher runs one at a time.
-/

namespace PaymentLab

open Relational Transactional

/-- `MAX_DELIVERY_ATTEMPTS`. -/
def maxDeliveryAttempts : Nat := 3

/-- `RETRY_DELAYS_SECONDS`. -/
def retryDelaysSeconds : List Int := [1, 5]

/-- `DELIVERY_LEASE_SECONDS`. -/
def deliveryLeaseSeconds : Int := 30

/-- `DeliveryFault`. -/
inductive DeliveryFault where
  | beforeDelivery
  | ackLostAfterConsumer
  deriving DecidableEq, Repr

/-- `DeliveryResult`: the attempt, the status it left the event in, and when the next one may follow. -/
structure DeliveryResult where
  eventId : String
  attemptNumber : Nat
  outcome : String
  status : WebhookStatus
  responseStatus : Option Int
  nextAttemptAt : Option Instant
  deriving DecidableEq, Repr

/-- How a call of the receiver ends: a status code, or an exception. -/
inductive Reply where
  | status (code : Int)
  | timeoutError
  | connectionError
  /-- any other exception -/
  | raised
  deriving DecidableEq, Repr

/-- `WebhookReceiver`: the body, its signature and the time of receipt. -/
abbrev WebhookReceiver := EventPayload → String → Instant → Reply

/-- `_as_utc`. -/
def asUtc : Datetime → Instant
  | .naive wall => wall
  | .aware utc => utc

/-- `int(_as_utc(now).timestamp())`: the whole seconds of a clock, towards the epoch. Python takes them
of a `float`, which rounds a clock of the year 2514 or later to a few microseconds: there the last
microseconds of a second may count as the next one. That rounding is not modelled. -/
def wholeSeconds (now : Datetime) : Int := (asUtc now).tdiv 1000000

/-! ## Signature -/

section Signature

variable {Payload : Type} (hmacSha256 : String → Int → Payload → String)

/-- `sign_webhook`: the header for a body at a time, under a secret that must not be empty. -/
def signWebhook (payload : Payload) (secret : String) (timestamp : Int) : Service String :=
  if secret = "" then throw (.valueError "Webhook signing secret must not be empty")
  else pure ("t=" ++ toString timestamp ++ ",v1=" ++ hmacSha256 secret timestamp payload)

end Signature

/-! ## Claim -/

/-- The `WHERE` of a claim: the event waits and is due, or its lease has run out. -/
def WebhookEventRecord.claimable (event : WebhookEventRecord) (current : Instant) : Bool :=
  (decide (event.status = .pending) && decide (event.nextAttemptAt ≤ current))
    || (decide (event.status = .processing)
      && event.leaseExpiresAt.any fun expiry => decide (expiry ≤ current))

/-- The row a claim leaves: under processing, with the token and a deadline of the lease. The count
of attempts is not touched by a claim. -/
def WebhookEventRecord.leased (event : WebhookEventRecord) (leaseToken : String)
    (current : Instant) : WebhookEventRecord :=
  { event with
    status := .processing
    leaseToken := some leaseToken
    leaseExpiresAt := some (current + seconds deliveryLeaseSeconds) }

/-- The conditional `UPDATE` of a claim. The objects of the session are not synchronised with it. -/
def updateClaimed (eventId leaseToken : String) (current : Instant) (db : Database) :
    Except ServiceError Database :=
  match db.webhookEvents.get eventId with
  | none => .ok db
  | some event =>
    if event.claimable current then
      updateIn (·.webhookEvents) (fun db t => { db with webhookEvents := t })
        (event.leased leaseToken current) db
    else .ok db

/-- The rows that `UPDATE` matches: one where the event is there and may be claimed at the time, and
otherwise none. The claim is this one statement, so two dispatchers cannot both match it. -/
def claimedRows (eventId : String) (current : Instant) (db : Database) : Nat :=
  if (db.webhookEvents.get eventId).any fun event => event.claimable current then 1 else 0

/-- `_claim_delivery`. `hex` is the generated part of the lease token. -/
def claimDelivery (eventId : String) (now : Datetime) (hex : String) : Service String := do
  match ← sessionGetEvent eventId with
  | none => throw (.webhookEventNotFound eventId)
  | some _ =>
    let leaseToken := "lease_" ++ hex
    let current := asUtc now
    let rowcount ← Service.query (claimedRows eventId current)
    Service.flush (updateClaimed eventId leaseToken current)
    Service.commit
    if rowcount ≠ 1 then throw (.webhookDeliveryNotReady eventId)
    else
      Service.expireAll
      return leaseToken

/-! ## Attempt -/

/-- What an attempt records: `outcome`, `response_status` and `error_code`. -/
structure Delivery where
  outcome : String
  responseStatus : Option Int
  errorCode : Option String
  deriving DecidableEq, Repr

/-- A status code that acknowledges the event. -/
def acknowledges (responseStatus : Int) : Bool :=
  decide (200 ≤ responseStatus ∧ responseStatus < 300)

/-- `except TimeoutError`. -/
def timedOut : Delivery :=
  { outcome := "TIMEOUT", responseStatus := none, errorCode := some "delivery_timeout" }

/-- `except ConnectionError`. -/
def disconnected : Delivery :=
  { outcome := "CONNECTION_ERROR", responseStatus := none, errorCode := some "connection_error" }

/-- The loaded event and its signature: what the receiver is handed. -/
def prepareDelivery (hmacSha256 : String → Int → EventPayload → String) (eventId secret : String)
    (now : Datetime) : Service (EventPayload × String) := do
  match ← sessionGetEvent eventId with
  | none => throw (.webhookEventNotFound eventId)
  | some event =>
    -- `int()` truncates the seconds towards zero
    let timestamp := wholeSeconds now
    let signature ← signWebhook hmacSha256 event.payload secret timestamp
    return (event.payload, signature)

/-- The fault that keeps the receiver from being called. -/
def invokesReceiver (fault : Option DeliveryFault) : Bool :=
  decide (fault ≠ some .beforeDelivery)

/-- What becomes of the receiver's reply: the `try` block of `dispatch_webhook` after the call. -/
def observeReply (fault : Option DeliveryFault) : Reply → Except ServiceError Delivery
  | .status code =>
    if fault = some .ackLostAfterConsumer then .ok timedOut
    else if acknowledges code then
      .ok { outcome := "SUCCESS", responseStatus := some code, errorCode := none }
    else
      .ok
        { outcome := "HTTP_ERROR"
          responseStatus := some code
          errorCode := some ("http_" ++ toString code) }
  | .timeoutError => .ok timedOut
  | .connectionError => .ok disconnected
  | .raised => .error .receiverError

/-- The `try` block of `dispatch_webhook`: other exceptions of the receiver leave it. -/
def callReceiver (receiver : WebhookReceiver) (fault : Option DeliveryFault) (payload : EventPayload)
    (signature : String) (now : Datetime) : Service Delivery :=
  if invokesReceiver fault then
    match observeReply fault (receiver payload signature (asUtc now)) with
    | .ok delivery => pure delivery
    | .error e => throw e
  else pure timedOut

/-! ## Finalize -/

/-- Whether an attempt was acknowledged. -/
def Delivery.succeeded (delivery : Delivery) : Bool :=
  delivery.responseStatus.any acknowledges

/-- The event object once its attempt is counted and its lease given up. -/
def WebhookEventRecord.released (event : WebhookEventRecord) : WebhookEventRecord :=
  { event with
    attemptCount := event.attemptCount + 1
    leaseToken := none
    leaseExpiresAt := none }

/-- The event object after an attempt, and the time of the next one. -/
def WebhookEventRecord.finalized (event : WebhookEventRecord) (current : Instant)
    (delivery : Delivery) : Except ServiceError (WebhookEventRecord × Option Instant) :=
  if delivery.succeeded then
    .ok
      ({ event.released with
        status := .delivered, deliveredAt := some current, nextAttemptAt := current }, none)
  else if maxDeliveryAttempts ≤ event.attemptCount + 1 then
    .ok ({ event.released with status := .exhausted, nextAttemptAt := current }, none)
  else
    match retryDelaysSeconds[event.attemptCount + 1 - 1]? with
    | none => .error .indexError
    | some delay =>
      .ok
        ({ event.released with status := .pending, nextAttemptAt := current + seconds delay },
          some (current + seconds delay))

/-- The row the `UPDATE` of a finalized event leaves: only the changed columns are written. A loaded
time has no time zone and an assigned one has, so an assigned time is always a change; `delivered_at`
is assigned with the status. -/
def WebhookEventRecord.writeChanges (loaded current stored : WebhookEventRecord) :
    WebhookEventRecord :=
  { stored with
    status := writeColumn loaded.status current.status stored.status
    attemptCount := writeColumn loaded.attemptCount current.attemptCount stored.attemptCount
    nextAttemptAt := current.nextAttemptAt
    leaseToken := writeColumn loaded.leaseToken current.leaseToken stored.leaseToken
    leaseExpiresAt :=
      writeColumn loaded.leaseExpiresAt current.leaseExpiresAt stored.leaseExpiresAt
    deliveredAt := if current.status = .delivered then current.deliveredAt else stored.deliveredAt }

/-- The flush of an event object, by its id alone: the columns in which the object has changed since
it was loaded are written over the row, whatever has become of it. -/
def updateEvent (loaded current : WebhookEventRecord) (db : Database) :
    Except ServiceError Database :=
  match db.webhookEvents.get loaded.id with
  | none => .error .staleData
  | some stored =>
    updateIn (·.webhookEvents) (fun db t => { db with webhookEvents := t })
      (loaded.writeChanges current stored) db

/-- The row of an attempt: numbered after the attempts that the loaded object counts, with the status
or the error of its delivery. -/
def newAttempt (event : WebhookEventRecord) (current : Instant) (delivery : Delivery) :
    WebhookDeliveryAttemptRecord :=
  { eventId := event.id
    attemptNumber := event.attemptCount + 1
    outcome := delivery.outcome
    responseStatus := delivery.responseStatus
    errorCode := delivery.errorCode
    attemptedAt := current }

/-- The rows of one finalized attempt, flushed by its commit. -/
def recordAttempt (loaded current : WebhookEventRecord) (attempt : WebhookDeliveryAttemptRecord)
    (db : Database) : Except ServiceError Database := do
  insertDeliveryAttempt attempt (← updateEvent loaded current db)

/-- `_finalize_delivery`. A refused flush has rolled the transaction back. -/
def finalizeDelivery (eventId leaseToken : String) (now : Datetime) (delivery : Delivery) :
    Service DeliveryResult := do
  match ← sessionGetEvent eventId with
  | none => throw (.webhookEventNotFound eventId)
  | some event =>
    if event.leaseToken ≠ some leaseToken then throw (.webhookDeliveryNotReady eventId)
    else
      let current := asUtc now
      match event.finalized current delivery with
      | .error e => throw e
      | .ok (finalized, nextAttemptAt) =>
        tryCatch (Service.flush (recordAttempt event finalized (newAttempt event current delivery)))
          fun e => do
            Service.rollback
            throw e
        Service.commit
        Service.remember (holdEvent finalized)
        return {
          eventId := event.id
          attemptNumber := event.attemptCount + 1
          outcome := delivery.outcome
          status := finalized.status
          responseStatus := delivery.responseStatus
          nextAttemptAt := nextAttemptAt }

/-! ## Dispatch -/

/-- `dispatch_webhook`: claim, load and sign, call the receiver, finalize. The first, the second and
the last are transactions; the receiver is called between them, with no transaction open. -/
def dispatchWebhook (hmacSha256 : String → Int → EventPayload → String) (eventId secret : String)
    (receiver : WebhookReceiver) (now : Datetime) (fault : Option DeliveryFault) (hex : String) :
    Service DeliveryResult := do
  let leaseToken ← claimDelivery eventId now hex
  let (payload, signature) ← prepareDelivery hmacSha256 eventId secret now
  let delivery ← callReceiver receiver fault payload signature now
  finalizeDelivery eventId leaseToken now delivery

end PaymentLab
