import PaymentLab.Library.Json
import PaymentLab.Services.Confirmations
import PaymentLab.Services.Consumer
import PaymentLab.Services.Delivery
import PaymentLab.Services.Reconciliation

/-!
# Request and response schemas

`api/schemas.py`. A validated request carries what its `Field`s demand, so no handler sees a value
outside of it. Pydantic is not part of the repository: its lax readings of an integer and of an aware
time, and its JSON parser, are parameters; what the schemas themselves say (the fields, their bounds,
patterns and enumerations, `extra="forbid"`) is here.

Stored times carry no time zone in SQLite and are instants in this model, so `_as_utc` is the identity
on them.
-/

namespace PaymentLab.Api

/-- What the schemas use of Pydantic: its lax readings and its JSON parser. Nothing is assumed of
them; what an accepted field satisfies is a check of this model, made after the reading. -/
structure Pydantic where
  /-- an `int` field of a decoded body -/
  readInt : Json → Option Int
  /-- an `int` field of a body that Pydantic parses itself -/
  readJsonInt : Json → Option Int
  /-- an `AwareDatetime` field of a decoded body -/
  readAware : Json → Option Instant
  /-- a `bool` field of a body that Pydantic parses itself -/
  readJsonBool : Json → Option Bool
  /-- the parser of `model_validate_json` -/
  parseJson : Bytes → Option Json

/-! ## Fields -/

/-- `Field(min_length=min, max_length=max)`. -/
abbrev Text (min max : Nat) := { s : String // min ≤ s.length ∧ s.length ≤ max }

/-- `Field(gt=0, le=999_999_999)`. -/
abbrev Amount := { n : Int // 0 < n ∧ n ≤ 999999999 }

/-- A text of bounded length. -/
def readLength (min max : Nat) (s : String) : Option (Text min max) :=
  if h : min ≤ s.length ∧ s.length ≤ max then some ⟨s, h⟩ else none

/-- A bounded `str` field. -/
def readText (min max : Nat) : Json → Option (Text min max)
  | .str s => readLength min max s
  | _ => none

/-- A bounded `int` field. -/
def readAmount (readInt : Json → Option Int) (value : Json) : Option Amount :=
  match readInt value with
  | some n => if h : 0 < n ∧ n ≤ 999999999 then some ⟨n, h⟩ else none
  | none => none

/-- A `str` field with a pattern. -/
def readPattern (matched : String → Bool) : Json → Option { s : String // matched s = true }
  | .str s => if h : matched s = true then some ⟨s, h⟩ else none
  | _ => none

/-- A `StrEnum` field. -/
def readMember {α : Type} (members : List α) (value : α → String) : Json → Option α
  | .str s => Json.memberOf members value s
  | _ => none

/-- `ConfigDict(extra="forbid")`: the fields of an object that has no others. -/
def readObject (names : List String) : Json → Option (List (String × Json))
  | .obj fields => if fields.all fun f => decide (f.1 ∈ names) then some fields else none
  | _ => none

/-- A required field. -/
def required {α : Type} (fields : List (String × Json)) (name : String) (read : Json → Option α) :
    Option α :=
  (Json.get fields name).bind read

/-- The tokens of `AuthorizationDecision | DelayedPaymentDecision`. -/
def paymentMethodDecisions : List PaymentMethodDecision :=
  [.authorization .approve, .authorization .decline, .authorization .declineInsufficientFunds,
    .authorization .declineLimitExceeded, .authorization .declineExpired,
    .authorization .declineVerification, .authorization .declineInvalid,
    .authorization .declineUnknown, .awaitConfirmation]

/-- A character of `[0-9A-Za-z_-]`. -/
def isWordCharacter (c : Char) : Bool := c.isAlphanum || c == '_' || c == '-'

/-- A character of `[0-9a-f]`. -/
def isHexCharacter (c : Char) : Bool :=
  c.isDigit || (decide ('a' ≤ c) && decide (c ≤ 'f'))

/-- The pattern of a confirmation id: `cnf_` and up to 36 word characters. -/
def matchesConfirmationId (s : String) : Bool :=
  match s.toList with
  | 'c' :: 'n' :: 'f' :: '_' :: rest =>
    decide (1 ≤ rest.length) && decide (rest.length ≤ 36) && rest.all isWordCharacter
  | _ => false

/-- The pattern of a payment reference: `ref_` and 32 hexadecimal digits. -/
def matchesPaymentReference (s : String) : Bool :=
  match s.toList with
  | 'r' :: 'e' :: 'f' :: '_' :: rest => decide (rest.length = 32) && rest.all isHexCharacter
  | _ => false

/-! ## Requests -/

/-- `AuthorizePaymentRequest`, validated: each field carries its bounds, and the token is one of the
simulator's. -/
structure AuthorizePaymentRequest where
  merchantReference : Text 1 64
  amount : Amount
  currency : Currency
  paymentMethodToken : PaymentMethodDecision

/-- `RefundPaymentRequest`, validated. That the amount can be refunded is for the domain to check. -/
structure RefundPaymentRequest where
  amount : Amount

/-- `PaymentConfirmationRequest`, validated: both identities match their patterns. -/
structure PaymentConfirmationRequest where
  confirmationId : { s : String // matchesConfirmationId s = true }
  paymentReference : { s : String // matchesPaymentReference s = true }
  amount : Amount
  currency : Currency

/-- `SettlementEntryRequest`, validated. That the payment exists is checked by the import. -/
structure SettlementEntryRequest where
  paymentId : Text 1 40
  amount : Amount
  currency : Currency

/-- `SettlementBatchCreateRequest`, validated: at most a thousand entries, and possibly none. -/
structure SettlementBatchCreateRequest where
  cutoff : Instant
  entries : { rows : List SettlementEntryRequest // rows.length ≤ 1000 }

/-- `ReconciliationRequest`, validated: the identity of a batch, stored or not. -/
structure ReconciliationRequest where
  settlementBatchId : Text 1 40

section Validation

variable (pydantic : Pydantic)

/-- The body of `POST /payments`. -/
def AuthorizePaymentRequest.validate (body : Json) : Option AuthorizePaymentRequest := do
  let fields ← readObject ["merchant_reference", "amount", "currency", "payment_method_token"] body
  let merchantReference ← required fields "merchant_reference" (readText 1 64)
  let amount ← required fields "amount" (readAmount pydantic.readInt)
  let currency ← required fields "currency" (readMember Currency.all Currency.value)
  let paymentMethodToken ← required fields "payment_method_token"
    (readMember paymentMethodDecisions PaymentMethodDecision.value)
  return {
    merchantReference := merchantReference
    amount := amount
    currency := currency
    paymentMethodToken := paymentMethodToken }

/-- The body of a refund. -/
def RefundPaymentRequest.validate (body : Json) : Option RefundPaymentRequest := do
  let fields ← readObject ["amount"] body
  let amount ← required fields "amount" (readAmount pydantic.readInt)
  return { amount := amount }

/-- `PaymentConfirmationRequest.model_validate_json`. -/
def PaymentConfirmationRequest.validateJson (body : Bytes) : Option PaymentConfirmationRequest := do
  let fields ← readObject ["confirmation_id", "payment_reference", "amount", "currency"]
    (← pydantic.parseJson body)
  let confirmationId ← required fields "confirmation_id" (readPattern matchesConfirmationId)
  let paymentReference ← required fields "payment_reference" (readPattern matchesPaymentReference)
  let amount ← required fields "amount" (readAmount pydantic.readJsonInt)
  let currency ← required fields "currency" (readMember Currency.all Currency.value)
  return {
    confirmationId := confirmationId
    paymentReference := paymentReference
    amount := amount
    currency := currency }

/-- One row of a batch. -/
def SettlementEntryRequest.validate (body : Json) : Option SettlementEntryRequest := do
  let fields ← readObject ["payment_id", "amount", "currency"] body
  let paymentId ← required fields "payment_id" (readText 1 40)
  let amount ← required fields "amount" (readAmount pydantic.readInt)
  let currency ← required fields "currency" (readMember Currency.all Currency.value)
  return { paymentId := paymentId, amount := amount, currency := currency }

/-- The rows of a batch. -/
def readEntries : Json → Option { rows : List SettlementEntryRequest // rows.length ≤ 1000 }
  | .arr items =>
    match items.mapM (SettlementEntryRequest.validate pydantic) with
    | some rows => if h : rows.length ≤ 1000 then some ⟨rows, h⟩ else none
    | none => none
  | _ => none

/-- The body of `POST /settlement-batches`. -/
def SettlementBatchCreateRequest.validate (body : Json) : Option SettlementBatchCreateRequest := do
  let fields ← readObject ["cutoff", "entries"] body
  let cutoff ← required fields "cutoff" pydantic.readAware
  let entries ← required fields "entries" (readEntries pydantic)
  return { cutoff := cutoff, entries := entries }

/-- The body of `POST /reconciliation-reports`. -/
def ReconciliationRequest.validate (body : Json) : Option ReconciliationRequest := do
  let fields ← readObject ["settlement_batch_id"] body
  let settlementBatchId ← required fields "settlement_batch_id" (readText 1 40)
  return { settlementBatchId := settlementBatchId }

end Validation

/-- The command of a validated authorization. -/
def AuthorizePaymentRequest.command (request : AuthorizePaymentRequest) : AuthorizationCommand where
  merchantReference := request.merchantReference.val
  amount := request.amount.val
  currency := request.currency
  paymentMethodToken := request.paymentMethodToken

/-- The command of a validated confirmation. -/
def PaymentConfirmationRequest.command (request : PaymentConfirmationRequest) :
    ConfirmationCommand where
  confirmationId := request.confirmationId.val
  paymentReference := request.paymentReference.val
  amount := request.amount.val
  currency := request.currency

/-- The row of a validated settlement entry. -/
def SettlementEntryRequest.input (entry : SettlementEntryRequest) : SettlementInput where
  paymentId := entry.paymentId.val
  amount := entry.amount.val
  currency := entry.currency

/-! ## Responses -/

/-- `PaymentResponse`: the fields of a payment in an answer, from its row, from a stored snapshot, or
read back by a client. -/
structure PaymentResponse where
  id : String
  merchantReference : String
  amount : Int
  currency : Currency
  status : PaymentStatus
  paymentFlow : PaymentFlow
  paymentReference : Option String
  expiresAt : Option Instant
  declineReason : Option DeclineReason
  authorizedAmount : Int
  capturedAmount : Int
  refundedAmount : Int
  version : Nat
  createdAt : Instant
  updatedAt : Instant
  deriving DecidableEq, Repr

/-- `PaymentResponse.from_record`, of a stored payment. -/
def PaymentResponse.fromRecord (payment : PaymentRecord) : PaymentResponse where
  id := payment.id
  merchantReference := payment.merchantReference
  amount := payment.amount
  currency := payment.currency
  status := payment.status
  paymentFlow := payment.paymentFlow
  paymentReference := payment.paymentReference
  expiresAt := payment.expiresAt
  declineReason := payment.declineReason
  authorizedAmount := payment.authorizedAmount
  capturedAmount := payment.capturedAmount
  refundedAmount := payment.refundedAmount
  version := payment.version
  createdAt := payment.createdAt
  updatedAt := payment.updatedAt

/-- `PaymentResponse.from_record`, of a stored response. -/
def PaymentResponse.fromSnapshot (payment : PaymentSnapshot) : PaymentResponse where
  id := payment.id
  merchantReference := payment.merchantReference
  amount := payment.amount
  currency := payment.currency
  status := payment.status
  paymentFlow := payment.paymentFlow
  paymentReference := payment.paymentReference
  expiresAt := payment.expiresAt
  declineReason := payment.declineReason
  authorizedAmount := payment.authorizedAmount
  capturedAmount := payment.capturedAmount
  refundedAmount := payment.refundedAmount
  version := payment.version
  createdAt := payment.createdAt
  updatedAt := payment.updatedAt

/-- A snapshot of a payment is rendered as the payment is. -/
@[simp] theorem PaymentResponse.fromSnapshot_fromPayment (payment : PaymentRecord) :
    fromSnapshot (.fromPayment payment) = fromRecord payment := rfl

/-- `PaymentResponse.from_record`, of an outcome. -/
def PaymentResponse.ofOutcome : OutcomePayment → PaymentResponse
  | .record payment => fromRecord payment
  | .snapshot payment => fromSnapshot payment

/-- `WebhookEventResponse`: an event without its lease. -/
structure WebhookEventResponse where
  id : String
  paymentId : String
  type : WebhookEventType
  aggregateVersion : Nat
  payload : EventPayload
  status : WebhookStatus
  attemptCount : Nat
  nextAttemptAt : Instant
  createdAt : Instant
  deliveredAt : Option Instant
  deriving DecidableEq, Repr

/-- `WebhookEventResponse.from_record`. -/
def WebhookEventResponse.fromRecord (event : WebhookEventRecord) : WebhookEventResponse where
  id := event.id
  paymentId := event.paymentId
  type := event.eventType
  aggregateVersion := event.aggregateVersion
  payload := event.payload
  status := event.status
  attemptCount := event.attemptCount
  nextAttemptAt := event.nextAttemptAt
  createdAt := event.createdAt
  deliveredAt := event.deliveredAt

/-- `WebhookDeliveryAttemptResponse`: an attempt, without the event it was of. -/
structure WebhookDeliveryAttemptResponse where
  attemptNumber : Nat
  outcome : String
  responseStatus : Option Int
  errorCode : Option String
  attemptedAt : Instant
  deriving DecidableEq, Repr

/-- `WebhookDeliveryAttemptResponse.from_record`. -/
def WebhookDeliveryAttemptResponse.fromRecord (attempt : WebhookDeliveryAttemptRecord) :
    WebhookDeliveryAttemptResponse where
  attemptNumber := attempt.attemptNumber
  outcome := attempt.outcome
  responseStatus := attempt.responseStatus
  errorCode := attempt.errorCode
  attemptedAt := attempt.attemptedAt

/-- `ConfirmationReceiptResponse`: whether and when a confirmation was received, and nothing of its
content. -/
structure ConfirmationReceiptResponse where
  confirmationId : String
  receivedAt : Instant
  completed : Bool
  deriving DecidableEq, Repr

/-- `ConfirmationReceiptResponse.from_record`. -/
def ConfirmationReceiptResponse.fromRecord (receipt : ConfirmationReceiptRecord) :
    ConfirmationReceiptResponse where
  confirmationId := receipt.confirmationId
  receivedAt := receipt.receivedAt
  completed := receipt.completed

/-- `PaymentConfirmationDiagnosticResponse`. -/
structure PaymentConfirmationDiagnosticResponse where
  confirmationId : String
  paymentReference : String
  amount : Int
  currency : Currency
  receivedAt : Instant
  disposition : ConfirmationDisposition
  paymentId : Option String
  deriving DecidableEq, Repr

/-- `PaymentConfirmationDiagnosticResponse.from_record`. -/
def PaymentConfirmationDiagnosticResponse.fromRecord (confirmation : PaymentConfirmationRecord) :
    PaymentConfirmationDiagnosticResponse where
  confirmationId := confirmation.confirmationId
  paymentReference := confirmation.paymentReference
  amount := confirmation.amount
  currency := confirmation.currency
  receivedAt := confirmation.receivedAt
  disposition := confirmation.disposition
  paymentId := confirmation.paymentId

/-- `SettlementRecordResponse`. -/
structure SettlementRecordResponse where
  id : String
  paymentId : String
  lineNumber : Nat
  amount : Int
  currency : Currency
  createdAt : Instant
  deriving DecidableEq, Repr

/-- `SettlementRecordResponse.from_record`. -/
def SettlementRecordResponse.fromRecord (record : SettlementRecord) : SettlementRecordResponse where
  id := record.id
  paymentId := record.paymentId
  lineNumber := record.lineNumber
  amount := record.amount
  currency := record.currency
  createdAt := record.createdAt

/-- `SettlementBatchResponse`: the batch with its rows, in the order of their lines. -/
structure SettlementBatchResponse where
  id : String
  cutoff : Instant
  createdAt : Instant
  entries : List SettlementRecordResponse
  deriving DecidableEq, Repr

/-- `SettlementBatchResponse.from_records`. -/
def SettlementBatchResponse.fromRecords (batch : SettlementBatchRecord)
    (records : List SettlementRecord) : SettlementBatchResponse where
  id := batch.id
  cutoff := batch.cutoff
  createdAt := batch.createdAt
  entries := records.map .fromRecord

/-- `PaymentConfirmationResponse.model_validate_json`: the stored acknowledgement, `true` where it
has no `accepted`. -/
def readAcknowledgement (pydantic : Pydantic) (snapshot : String) : Option Bool :=
  match pydantic.parseJson (snapshot.toList.flatMap String.utf8EncodeChar) with
  | some (.obj fields) =>
    match Json.get fields "accepted" with
    | none => some true
    | some value => pydantic.readJsonBool value
  | _ => none

end PaymentLab.Api
