import PaymentLab.Services.Snapshots

/-!
# Revisions 0002 and 0003: the legacy schema

`migrations/versions/0002_upgrade_legacy_schema.py` and `0003_async_payment_creation.py`. A raw table
has its columns, the names of its checks, its unique constraints and its rows; a row holds null in a
column its table does not have. Times are the texts SQLite stores. Every step of the two revisions
looks at the columns and constraints first, so that it leaves an upgraded table alone.

The texts of times are carried along unread; what the mapper makes of them when a row is loaded is a
parameter. A revision that raises leaves the database at the earlier one, so that only its success
is described.
-/

namespace PaymentLab

open Relational

/-! ## Raw tables -/

/-- A table as the schema inspector and raw SQL see it. -/
structure RawTable (α : Type) where
  columns : List String
  checks : List String
  uniques : List (List String)
  rows : List α

/-- A row of `payments`. A column the table may lack is an option, null where it is missing. -/
structure RawPayment where
  id : String
  merchantReference : String
  amount : Int
  currency : Currency
  status : PaymentStatus
  paymentFlow : Option PaymentFlow
  paymentReference : Option String
  expiresAt : Option String
  declineReason : Option DeclineReason
  authorizedAmount : Int
  capturedAmount : Int
  refundedAmount : Int
  version : Nat
  createdAt : String
  updatedAt : String
  deriving DecidableEq

/-- A row of `merchant_payment_projections`. -/
structure RawProjection where
  paymentId : String
  merchantReference : String
  amount : Int
  currency : Currency
  status : PaymentStatus
  paymentFlow : Option PaymentFlow
  paymentReference : Option String
  expiresAt : Option String
  declineReason : Option DeclineReason
  authorizedAmount : Int
  capturedAmount : Int
  refundedAmount : Int
  aggregateVersion : Nat
  lastEventId : String
  updatedAt : String
  deriving DecidableEq

/-- A row of `idempotency_records`. -/
structure RawIdempotency where
  key : String
  requestFingerprint : String
  operation : Option String
  paymentId : Option String
  responseSnapshot : Option String
  createdAt : String
  deriving DecidableEq

/-- A database under the two revisions. `others` holds the tables they leave alone; of its own
payments, projections and claims nothing is read. -/
structure RawDatabase where
  payments : RawTable RawPayment
  projections : RawTable RawProjection
  idempotencyRecords : RawTable RawIdempotency
  others : Database

namespace RawTable

variable {α : Type}

/-- `name in _column_names(table)`. -/
def hasColumn (t : RawTable α) (name : String) : Bool := t.columns.contains name

/-- `op.add_column`, with what the statement leaves in each row. -/
def addColumn (t : RawTable α) (name : String) (fill : α → α) : RawTable α :=
  { t with columns := t.columns ++ [name], rows := t.rows.map fill }

/-- `batch_op.create_check_constraint`: the rebuilt table takes the rows back under the check. -/
def createCheck (t : RawTable α) (name : String) (condition : α → Bool) :
    Except ServiceError (RawTable α) :=
  if t.rows.all condition then .ok { t with checks := t.checks ++ [name] }
  else .error .integrityError

/-- `batch_op.create_unique_constraint` on one nullable column. -/
def createUnique (t : RawTable α) (column : String) (value : α → Option String) :
    Except ServiceError (RawTable α) :=
  if (t.rows.filterMap value).Nodup then .ok { t with uniques := t.uniques ++ [[column]] }
  else .error .integrityError

end RawTable

/-! ## Revision 0002 -/

namespace Revision0002

/-- `UPDATE … SET decline_reason = 'unknown' WHERE status = 'DECLINED'`. -/
def declinedReason (status : PaymentStatus) (reason : Option DeclineReason) :
    Option DeclineReason := if status = .declined then some .unknown else reason

/-- The checks the rebuilt payments table takes, by name. -/
def paymentChecks : List (String × (RawPayment → Bool)) :=
  [("ck_payment_amount_positive", fun p => decide (0 < p.amount)),
    ("ck_payment_authorized_within_amount",
      fun p => decide (0 ≤ p.authorizedAmount ∧ p.authorizedAmount ≤ p.amount)),
    ("ck_payment_captured_within_authorized",
      fun p => decide (0 ≤ p.capturedAmount ∧ p.capturedAmount ≤ p.authorizedAmount)),
    ("ck_payment_refunded_within_captured",
      fun p => decide (0 ≤ p.refundedAmount ∧ p.refundedAmount ≤ p.capturedAmount)),
    ("ck_payment_decline_reason_matches_status",
      fun p => decide (p.status = .declined) == p.declineReason.isSome),
    ("ck_payment_version_positive", fun p => decide (1 ≤ p.version))]

/-- The checks of a batch, one after another. -/
def createChecks (t : RawTable RawPayment) :
    List (String × (RawPayment → Bool)) → Except ServiceError (RawTable RawPayment)
  | [] => .ok t
  | (name, condition) :: rest => do createChecks (← t.createCheck name condition) rest

/-- `_upgrade_payment_decline_reason`. -/
def upgradePaymentDeclineReason (t : RawTable RawPayment) :
    Except ServiceError (RawTable RawPayment) :=
  if t.hasColumn "decline_reason" then .ok t
  else
    createChecks
      (t.addColumn "decline_reason" fun p =>
        { p with declineReason := declinedReason p.status none })
      paymentChecks

/-- `_upgrade_projection_decline_reason`. -/
def upgradeProjectionDeclineReason (t : RawTable RawProjection) : RawTable RawProjection :=
  if t.hasColumn "decline_reason" then t
  else t.addColumn "decline_reason" fun p =>
    { p with declineReason := declinedReason p.status none }

/-- The fields `_serialize_snapshot` renders: a raw row has its times as text. -/
def snapshotFields (p : RawPayment) : List (String × CanonicalJson.Value) :=
  [("amount", .int p.amount),
    ("authorized_amount", .int p.authorizedAmount),
    ("captured_amount", .int p.capturedAmount),
    ("created_at", .str p.createdAt),
    ("currency", .str p.currency.value),
    ("decline_reason", optionalText (p.declineReason.map DeclineReason.value)),
    ("id", .str p.id),
    ("merchant_reference", .str p.merchantReference),
    ("refunded_amount", .int p.refundedAmount),
    ("status", .str p.status.value),
    ("updated_at", .str p.updatedAt),
    ("version", .int p.version)]

/-- `_serialize_snapshot`. -/
def serializeSnapshot (p : RawPayment) : String :=
  CanonicalJson.text (.obj (snapshotFields p))

/-- `idempotency_records AS i JOIN payments AS p ON p.id = i.payment_id`. -/
def claimedPayments (payments : List RawPayment) (records : List RawIdempotency) :
    List (RawIdempotency × RawPayment) :=
  records.flatMap fun i =>
    (payments.filter fun p => decide (i.paymentId = some p.id)).map fun p => (i, p)

/-- The record inserted for a joined row. -/
def upgradedRecord (i : RawIdempotency) (p : RawPayment) : RawIdempotency :=
  { key := i.key
    requestFingerprint := i.requestFingerprint
    operation := some "AUTHORIZE"
    paymentId := i.paymentId
    responseSnapshot := some (serializeSnapshot p)
    createdAt := i.createdAt }

/-- The columns of the new `idempotency_records`. -/
def idempotencyColumns : List String :=
  ["key", "request_fingerprint", "operation", "payment_id", "response_snapshot", "created_at"]

/-- `_upgrade_idempotency_records`: the join is read, the table recreated under its primary key, and
the joined rows inserted. -/
def upgradeIdempotencyRecords (payments : List RawPayment) (t : RawTable RawIdempotency) :
    Except ServiceError (RawTable RawIdempotency) :=
  if t.hasColumn "operation" && t.hasColumn "response_snapshot" then .ok t
  else
    let rows := (claimedPayments payments t.rows).map fun (i, p) => upgradedRecord i p
    if (rows.map (·.key)).Nodup then
      .ok { columns := idempotencyColumns, checks := [], uniques := [], rows := rows }
    else .error .integrityError

/-- `upgrade`. -/
def upgrade (db : RawDatabase) : Except ServiceError RawDatabase := do
  let payments ← upgradePaymentDeclineReason db.payments
  let projections := upgradeProjectionDeclineReason db.projections
  let idempotencyRecords ← upgradeIdempotencyRecords payments.rows db.idempotencyRecords
  return { db with
    payments := payments
    projections := projections
    idempotencyRecords := idempotencyRecords }

end Revision0002

/-! ## Revision 0003 -/

namespace Revision0003

/-- A column is added where it is missing. -/
def ensureColumn {α : Type} (t : RawTable α) (name : String) (fill : α → α) : RawTable α :=
  if t.hasColumn name then t else t.addColumn name fill

/-- A check is created where its name is missing. -/
def ensureCheck {α : Type} (t : RawTable α) (name : String) (condition : α → Bool) :
    Except ServiceError (RawTable α) :=
  if t.checks.contains name then .ok t else t.createCheck name condition

/-- `_has_unique_payment_reference`. -/
def hasUniquePaymentReference {α : Type} (t : RawTable α) : Bool :=
  t.uniques.contains ["payment_reference"]

/-- `ck_payment_flow_supported`. -/
def flowSupported (p : RawPayment) : Bool := p.paymentFlow.isSome

/-- `ck_payment_flow_metadata`. -/
def flowMetadata (p : RawPayment) : Bool :=
  match p.paymentFlow with
  | some .synchronous => p.paymentReference.isNone && p.expiresAt.isNone
  | some .asynchronousConfirmation => p.paymentReference.isSome && p.expiresAt.isSome
  | none => true

/-- The columns `_upgrade_payments` adds: the flow with its server default, the others null. -/
def withFlowColumns (t : RawTable RawPayment) : RawTable RawPayment :=
  let t := ensureColumn t "payment_flow" fun p => { p with paymentFlow := some .synchronous }
  let t := ensureColumn t "payment_reference" fun p => { p with paymentReference := none }
  ensureColumn t "expires_at" fun p => { p with expiresAt := none }

/-- `_upgrade_payments`. -/
def upgradePayments (t : RawTable RawPayment) : Except ServiceError (RawTable RawPayment) :=
  let t := withFlowColumns t
  if t.checks.contains "ck_payment_flow_supported" && t.checks.contains "ck_payment_flow_metadata"
      && hasUniquePaymentReference t then .ok t
  else do
    let t ← ensureCheck t "ck_payment_flow_supported" flowSupported
    let t ← ensureCheck t "ck_payment_flow_metadata" flowMetadata
    if hasUniquePaymentReference t then return t
    else t.createUnique "payment_reference" (·.paymentReference)

/-- `_upgrade_merchant_projections`. -/
def upgradeMerchantProjections (t : RawTable RawProjection) : RawTable RawProjection :=
  let t := ensureColumn t "payment_flow" fun p => { p with paymentFlow := some .synchronous }
  let t := ensureColumn t "payment_reference" fun p => { p with paymentReference := none }
  ensureColumn t "expires_at" fun p => { p with expiresAt := none }

/-- `upgrade`. -/
def upgrade (db : RawDatabase) : Except ServiceError RawDatabase := do
  let payments ← upgradePayments db.payments
  return { db with
    payments := payments
    projections := upgradeMerchantProjections db.projections }

end Revision0003

/-! ## The application's view -/

section View

variable (loads : String → Option CanonicalJson.Value)
  (fromIsoformat : String → Except IsoFault Datetime)

/-- The time in a nullable column. -/
def readOptionalIso : Option String → Option (Option Instant)
  | none => some none
  | some text => (readIso fromIsoformat text).map some

/-- A payment row as the mapper loads it. -/
def RawPayment.load (p : RawPayment) : Option PaymentRecord := do
  let paymentFlow ← p.paymentFlow
  let expiresAt ← readOptionalIso fromIsoformat p.expiresAt
  let createdAt ← readIso fromIsoformat p.createdAt
  let updatedAt ← readIso fromIsoformat p.updatedAt
  return {
    id := p.id
    merchantReference := p.merchantReference
    amount := p.amount
    currency := p.currency
    status := p.status
    paymentFlow := paymentFlow
    paymentReference := p.paymentReference
    expiresAt := expiresAt
    declineReason := p.declineReason
    authorizedAmount := p.authorizedAmount
    capturedAmount := p.capturedAmount
    refundedAmount := p.refundedAmount
    version := p.version
    createdAt := createdAt
    updatedAt := updatedAt }

/-- A projection row as the mapper loads it. -/
def RawProjection.load (p : RawProjection) : Option MerchantPaymentProjectionRecord := do
  let paymentFlow ← p.paymentFlow
  let expiresAt ← readOptionalIso fromIsoformat p.expiresAt
  let updatedAt ← readIso fromIsoformat p.updatedAt
  return {
    paymentId := p.paymentId
    merchantReference := p.merchantReference
    amount := p.amount
    currency := p.currency
    status := p.status
    paymentFlow := paymentFlow
    paymentReference := p.paymentReference
    expiresAt := expiresAt
    declineReason := p.declineReason
    authorizedAmount := p.authorizedAmount
    capturedAmount := p.capturedAmount
    refundedAmount := p.refundedAmount
    aggregateVersion := p.aggregateVersion
    lastEventId := p.lastEventId
    updatedAt := updatedAt }

/-- The snapshot a replay of a record answers. -/
def RawIdempotency.snapshot (r : RawIdempotency) : Option (Option PaymentSnapshot) :=
  match r.responseSnapshot with
  | none => some none
  | some payload => (PaymentSnapshot.deserialize loads fromIsoformat payload).map some

/-- A record as the mapper loads it, its snapshot as a replay reads it. -/
def RawIdempotency.load (r : RawIdempotency) : Option IdempotencyRecord := do
  let operation ← r.operation
  let responseSnapshot ← r.snapshot loads fromIsoformat
  let createdAt ← readIso fromIsoformat r.createdAt
  return {
    key := r.key
    requestFingerprint := r.requestFingerprint
    operation := operation
    paymentId := r.paymentId
    responseSnapshot := responseSnapshot
    createdAt := createdAt }

/-- The rows of a table, loaded under its constraints. -/
def loadTable {α β κ : Type} [DecidableEq κ] (S : Schema β κ) (load : α → Option β)
    (rows : List α) : Option (Table S) := do
  let records ← rows.mapM load
  (∅ : Table S).insertAll records

/-- The database the application works on. -/
def RawDatabase.load (db : RawDatabase) : Option Database := do
  let payments ← loadTable paymentSchema (RawPayment.load fromIsoformat) db.payments.rows
  let projections ← loadTable merchantProjectionSchema (RawProjection.load fromIsoformat)
    db.projections.rows
  let idempotencyRecords ← loadTable idempotencySchema
    (RawIdempotency.load loads fromIsoformat) db.idempotencyRecords.rows
  return { db.others with
    payments := payments
    merchantProjections := projections
    idempotencyRecords := idempotencyRecords }

end View

end PaymentLab
