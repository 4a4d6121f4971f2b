import PaymentLab.Services.Consumer

/-!
# Stored snapshots

`PaymentSnapshot.serialize` and `PaymentSnapshot.deserialize` of `services/payments.py`: the JSON text
in `idempotency_records.response_snapshot`, and its tolerant reading, which supplies a default for
each field an earlier writer did not store. `json.loads` and `datetime.fromisoformat` are parameters.
-/

namespace PaymentLab

/-- A text or JSON null. -/
def optionalText : Option String → CanonicalJson.Value
  | some text => .str text
  | none => .null

/-- The `isoformat` texts of the datetimes of a snapshot: with an offset where the process created the
object, without where it was loaded. -/
structure SnapshotTimes where
  createdAt : String
  updatedAt : String
  expiresAt : Option String
  deriving DecidableEq, Repr

/-- The fields `serialize` renders, in sorted order. -/
def PaymentSnapshot.documentFields (snapshot : PaymentSnapshot) (times : SnapshotTimes) :
    List (String × CanonicalJson.Value) :=
  [("amount", .int snapshot.amount),
    ("authorized_amount", .int snapshot.authorizedAmount),
    ("captured_amount", .int snapshot.capturedAmount),
    ("created_at", .str times.createdAt),
    ("currency", .str snapshot.currency.value),
    ("decline_reason", optionalText (snapshot.declineReason.map DeclineReason.value)),
    ("expires_at", optionalText times.expiresAt),
    ("id", .str snapshot.id),
    ("merchant_reference", .str snapshot.merchantReference),
    ("payment_flow", .str snapshot.paymentFlow.value),
    ("payment_reference", optionalText snapshot.paymentReference),
    ("refunded_amount", .int snapshot.refundedAmount),
    ("status", .str snapshot.status.value),
    ("updated_at", .str times.updatedAt),
    ("version", .int snapshot.version)]

/-- `PaymentSnapshot.serialize`. -/
def PaymentSnapshot.serialize (snapshot : PaymentSnapshot) (times : SnapshotTimes) : String :=
  CanonicalJson.text (.obj (snapshot.documentFields times))

/-! ## Reading -/

namespace StoredSnapshot

/-- `values[name]`; no value where it raises `KeyError`. -/
def field (values : List (String × CanonicalJson.Value)) (name : String) :
    Option CanonicalJson.Value :=
  (values.find? fun item => decide (item.1 = name)).map (·.2)

/-- `values.get(name)`, `None` taken as absent. -/
def optionalField (values : List (String × CanonicalJson.Value)) (name : String) :
    Option CanonicalJson.Value :=
  match field values name with
  | some .null => none
  | value => value

/-- `str(...)` of a scalar. No writer stores an object in a field. -/
def str : CanonicalJson.Value → Option String
  | .null => some "None"
  | .bool true => some "True"
  | .bool false => some "False"
  | .int i => some (String.ofList (CanonicalJson.intText i))
  | .str s => some s
  | .obj _ => none

/-- `int(...)` of a number. No writer stores a number as a text. -/
def int : CanonicalJson.Value → Option Int
  | .int i => some i
  | .bool b => some (if b then 1 else 0)
  | _ => none

/-- A text field. -/
def text (values : List (String × CanonicalJson.Value)) (name : String) : Option String :=
  (field values name).bind str

/-- A field that is handed on as the text it must be. -/
def plainText (values : List (String × CanonicalJson.Value)) (name : String) : Option String :=
  match field values name with
  | some (.str s) => some s
  | _ => none

/-- A number field. -/
def number (values : List (String × CanonicalJson.Value)) (name : String) : Option Int :=
  (field values name).bind int

/-- A text field that may be absent or null. -/
def optionalTextField (values : List (String × CanonicalJson.Value)) (name : String) :
    Option (Option String) :=
  match optionalField values name with
  | none => some none
  | some value => (str value).map some

end StoredSnapshot

section Reading

variable (loads : String → Option CanonicalJson.Value)
  (fromIsoformat : String → Except IsoFault Datetime)

/-- `datetime.fromisoformat`, a naive value taken as UTC by every reader. -/
def readIso (text : String) : Option Instant :=
  match fromIsoformat text with
  | .ok time => some (asUtc time)
  | .error _ => none

open StoredSnapshot in
/-- The flow of a snapshot: `SYNCHRONOUS` where no flow was stored. -/
def snapshotFlow (values : List (String × CanonicalJson.Value)) : Option PaymentFlow :=
  match field values "payment_flow" with
  | none => some .synchronous
  | some value => (str value).bind (Json.memberOf PaymentFlow.all PaymentFlow.value)

open StoredSnapshot in
/-- The decline reason of a snapshot. -/
def snapshotDeclineReason (values : List (String × CanonicalJson.Value)) :
    Option (Option DeclineReason) :=
  match optionalField values "decline_reason" with
  | none => some none
  | some value =>
    (str value).bind fun text => (Json.memberOf DeclineReason.all DeclineReason.value text).map some

open StoredSnapshot in
/-- The deadline of a snapshot. -/
def snapshotExpiresAt (values : List (String × CanonicalJson.Value)) : Option (Option Instant) :=
  match optionalField values "expires_at" with
  | none => some none
  | some value => (str value).bind fun text => (readIso fromIsoformat text).map some

open StoredSnapshot in
/-- The fields of a decoded snapshot. Currency and status are the members the source's texts name. -/
def readSnapshotValues (values : List (String × CanonicalJson.Value)) : Option PaymentSnapshot := do
  let id ← text values "id"
  let merchantReference ← text values "merchant_reference"
  let amount ← number values "amount"
  let currency ← (text values "currency").bind (Json.memberOf Currency.all Currency.value)
  let status ← (text values "status").bind (Json.memberOf PaymentStatus.all PaymentStatus.value)
  let paymentFlow ← snapshotFlow values
  let paymentReference ← optionalTextField values "payment_reference"
  let expiresAt ← snapshotExpiresAt fromIsoformat values
  let declineReason ← snapshotDeclineReason values
  let authorizedAmount ← number values "authorized_amount"
  let capturedAmount ← number values "captured_amount"
  let refundedAmount ← number values "refunded_amount"
  let version ← number values "version"
  let createdAt ← (plainText values "created_at").bind (readIso fromIsoformat)
  let updatedAt ← (plainText values "updated_at").bind (readIso fromIsoformat)
  return {
    id := id
    merchantReference := merchantReference
    amount := amount
    currency := currency
    status := status
    paymentFlow := paymentFlow
    paymentReference := paymentReference
    expiresAt := expiresAt
    declineReason := declineReason
    authorizedAmount := authorizedAmount
    capturedAmount := capturedAmount
    refundedAmount := refundedAmount
    version := version.toNat
    createdAt := createdAt
    updatedAt := updatedAt }

/-- `PaymentSnapshot.deserialize`; no snapshot where it raises. -/
def PaymentSnapshot.deserialize (payload : String) : Option PaymentSnapshot :=
  match loads payload with
  | some (.obj values) => readSnapshotValues fromIsoformat values
  | _ => none

end Reading

end PaymentLab
