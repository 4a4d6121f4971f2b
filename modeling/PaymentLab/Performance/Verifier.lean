import PaymentLab.Library.Tally
import PaymentLab.Performance.Profiles

/-!
# The verifier of a performance run

`performance/verifier.py`: after the load, the rows of the run are read from the database and
compared with what the profile expects, as counts, sets and totals per currency.

The two `LIKE` patterns are read as SQLite does, a letter of either case and an underscore for any
character, so that rows of another run may be selected whose name fits. The evidence of a private
check is a count, because the report is published and the rows are not.
-/

namespace PaymentLab

open Relational Tally

/-! ## Pattern matching of the database -/

/-- `LIKE` on characters: `%` is any text, `_` is any one character, letters match in either case. -/
def likeChars : List Char → List Char → Bool
  | [], text => text.isEmpty
  | '%' :: pattern, text => text.tails.any (likeChars pattern)
  | '_' :: _, [] => false
  | '_' :: pattern, _ :: text => likeChars pattern text
  | _ :: _, [] => false
  | c :: pattern, d :: text => c.toLower == d.toLower && likeChars pattern text

/-- `LIKE`. -/
def like (pattern text : String) : Bool := likeChars pattern.toList text.toList

/-! ## Checks -/

/-- The totals of one currency: how many payments and ledger rows, and the sums of their amounts in
minor units. -/
@[ext]
structure CurrencyTotals where
  paymentCount : Nat
  paymentMinorUnits : Int
  authorizedMinorUnits : Int
  ledgerCount : Nat
  ledgerMinorUnits : Int
  deriving DecidableEq, Repr

/-- What a check reports as expected or observed: a number, counts by name, or totals by currency. No
row and no key is among it. -/
inductive Evidence where
  | count (n : Nat)
  | counts (items : List (String × Nat))
  | totals (items : List (String × CurrencyTotals))
  deriving DecidableEq, Repr

/-- The comparison of two reported values: dictionaries are equal when they have the same items. -/
def Evidence.same : Evidence → Evidence → Bool
  | .count m, .count n => m == n
  | .counts a, .counts b => a.isPerm b
  | .totals a, .totals b => a.isPerm b
  | _, _ => false

/-- `VerificationCheck`. -/
structure VerificationCheck where
  name : String
  passed : Bool
  expected : Evidence
  observed : Evidence
  deriving DecidableEq, Repr

/-- `VerificationReport`: passed exactly when every check did. -/
structure VerificationReport where
  schemaVersion : Nat
  runId : String
  profile : String
  passed : Bool
  checks : List VerificationCheck
  currencySummary : List (String × CurrencyTotals)
  deriving DecidableEq, Repr

/-- `_check`. -/
def check (name : String) (expected observed : Evidence) : VerificationCheck :=
  { name := name, passed := expected.same observed, expected := expected, observed := observed }

/-- `_private_check`: cardinalities, while the compared values stay private. -/
def privateCheck (name : String) (passed : Bool) (expectedCount observedCount : Nat) :
    VerificationCheck :=
  { name := name
    passed := passed
    expected := .count expectedCount
    observed := .count observedCount }

/-! ## Currency totals -/

namespace CurrencyTotals

instance : Add CurrencyTotals where
  add a b :=
    { paymentCount := a.paymentCount + b.paymentCount
      paymentMinorUnits := a.paymentMinorUnits + b.paymentMinorUnits
      authorizedMinorUnits := a.authorizedMinorUnits + b.authorizedMinorUnits
      ledgerCount := a.ledgerCount + b.ledgerCount
      ledgerMinorUnits := a.ledgerMinorUnits + b.ledgerMinorUnits }

instance : Zero CurrencyTotals where
  zero :=
    { paymentCount := 0
      paymentMinorUnits := 0
      authorizedMinorUnits := 0
      ledgerCount := 0
      ledgerMinorUnits := 0 }

@[simp] theorem paymentCount_add (a b : CurrencyTotals) :
    (a + b).paymentCount = a.paymentCount + b.paymentCount := rfl

@[simp] theorem paymentMinorUnits_add (a b : CurrencyTotals) :
    (a + b).paymentMinorUnits = a.paymentMinorUnits + b.paymentMinorUnits := rfl

@[simp] theorem authorizedMinorUnits_add (a b : CurrencyTotals) :
    (a + b).authorizedMinorUnits = a.authorizedMinorUnits + b.authorizedMinorUnits := rfl

@[simp] theorem ledgerCount_add (a b : CurrencyTotals) :
    (a + b).ledgerCount = a.ledgerCount + b.ledgerCount := rfl

@[simp] theorem ledgerMinorUnits_add (a b : CurrencyTotals) :
    (a + b).ledgerMinorUnits = a.ledgerMinorUnits + b.ledgerMinorUnits := rfl

@[simp] theorem paymentCount_zero : (0 : CurrencyTotals).paymentCount = 0 := rfl

@[simp] theorem paymentMinorUnits_zero : (0 : CurrencyTotals).paymentMinorUnits = 0 := rfl

@[simp] theorem authorizedMinorUnits_zero : (0 : CurrencyTotals).authorizedMinorUnits = 0 := rfl

@[simp] theorem ledgerCount_zero : (0 : CurrencyTotals).ledgerCount = 0 := rfl

@[simp] theorem ledgerMinorUnits_zero : (0 : CurrencyTotals).ledgerMinorUnits = 0 := rfl

instance : AddCommMonoid CurrencyTotals where
  add_assoc a b c := by ext <;> simp [Nat.add_assoc, Int.add_assoc]
  zero_add a := by ext <;> simp
  add_zero a := by ext <;> simp
  add_comm a b := by ext <;> simp [Nat.add_comm, Int.add_comm]
  nsmul := nsmulRec

end CurrencyTotals

/-- What a payment adds to its currency. -/
def PaymentRecord.totals (payment : PaymentRecord) : String × CurrencyTotals :=
  (payment.currency.value,
    { paymentCount := 1
      paymentMinorUnits := payment.amount
      authorizedMinorUnits := payment.authorizedAmount
      ledgerCount := 0
      ledgerMinorUnits := 0 })

/-- What a ledger entry adds to its currency. -/
def LedgerEntryRecord.totals (ledger : LedgerEntryRecord) : String × CurrencyTotals :=
  (ledger.currency.value,
    { paymentCount := 0
      paymentMinorUnits := 0
      authorizedMinorUnits := 0
      ledgerCount := 1
      ledgerMinorUnits := ledger.amount })

/-- What an expected payment adds to its currency. -/
def ExpectedPayment.totals (payment : ExpectedPayment) : String × CurrencyTotals :=
  (payment.currency.value,
    { paymentCount := 1
      paymentMinorUnits := payment.amount
      authorizedMinorUnits := if payment.approved then payment.amount else 0
      ledgerCount := if payment.approved then 1 else 0
      ledgerMinorUnits := if payment.approved then payment.amount else 0 })

/-- `dict(sorted(…))`. -/
def sortItems {ν : Type} (items : List (String × ν)) : List (String × ν) :=
  items.insertionSort fun a b => a.1 ≤ b.1

/-- `_currency_summary`: the payments first, then the ledger entries. -/
def currencySummary (payments : List PaymentRecord) (ledgers : List LedgerEntryRecord) :
    List (String × CurrencyTotals) :=
  sortItems (tally (payments.map PaymentRecord.totals ++ ledgers.map LedgerEntryRecord.totals))

/-- `_expected_currency_summary`. -/
def expectedCurrencySummary (expected : List ExpectedPayment) : List (String × CurrencyTotals) :=
  sortItems (tally (expected.map ExpectedPayment.totals))

/-! ## The rows of a run -/

/-- What the queries of the verifier return. References and keys are selected by a `LIKE` pattern of
the run and the profile, ledger entries and events by the payments so found. -/
structure RunRows where
  payments : List PaymentRecord
  ledgers : List LedgerEntryRecord
  idempotencyRecords : List IdempotencyRecord
  webhooks : List WebhookEventRecord
  deriving DecidableEq

/-- The identities of the payments of a run. -/
def RunRows.paymentIds (rows : RunRows) : List String := rows.payments.map (·.id)

/-- The queries. -/
def readRun (db : Database) (runId profile : String) : RunRows :=
  let pattern := runPrefix runId profile ++ "%"
  let payments := db.payments.select fun p => like pattern p.merchantReference
  let paymentIds := payments.map (·.id)
  { payments := payments
    ledgers :=
      if paymentIds.isEmpty then []
      else db.ledgerEntries.select fun e => paymentIds.contains e.paymentId
    idempotencyRecords := db.idempotencyRecords.select fun r => like pattern r.key
    webhooks :=
      if paymentIds.isEmpty then []
      else db.webhookEvents.select fun e => paymentIds.contains e.paymentId }

section Checks

variable (expected : List ExpectedPayment) (rows : RunRows)

/-- `approved_count`. -/
def approvedCount : Nat := expected.countP (·.approved)

/-- The status an expected payment reaches. -/
def ExpectedPayment.status (payment : ExpectedPayment) : PaymentStatus :=
  if payment.approved then .authorized else .declined

/-- The event an expected payment writes. -/
def ExpectedPayment.eventType (payment : ExpectedPayment) : WebhookEventType :=
  if payment.approved then .authorized else .declined

/-- `sorted`. -/
def sortCounts (counts : List Nat) : List Nat := counts.insertionSort (· ≤ ·)

/-- `expected_ledger_shape`. -/
def expectedLedgerShape : List Nat :=
  sortCounts (List.replicate (approvedCount expected) 1 ++
    List.replicate (expected.length - approvedCount expected) 0)

/-- `observed_ledger_shape`. -/
def observedLedgerShape : List Nat :=
  let ledgerPaymentIds := counter (rows.ledgers.map (·.paymentId))
  sortCounts (rows.payments.map fun payment => (ledgerPaymentIds.lookup payment.id).getD 0)

/-- The condition `valid_initial_payments` counts. -/
def isInitial (payment : PaymentRecord) : Bool :=
  decide (payment.version = 1) && decide (payment.capturedAmount = 0)
    && decide (payment.refundedAmount = 0)
    && ((decide (payment.status = .authorized)
          && decide (payment.authorizedAmount = payment.amount))
        || (decide (payment.status = .declined) && decide (payment.authorizedAmount = 0)))

/-- The condition `matching_ledgers` counts. -/
def matchesPayment (entry : LedgerEntryRecord) : Bool :=
  decide (entry.operation = "AUTHORIZATION")
    && (match rows.payments.find? fun payment => decide (payment.id = entry.paymentId) with
      | none => false
      | some payment => decide (entry.amount = payment.authorizedAmount)
          && decide (entry.currency = payment.currency))

/-- The condition `completed_idempotency_records` counts. -/
def isCompletedRecord (record : IdempotencyRecord) : Bool :=
  decide (record.operation = "AUTHORIZE")
    && (match record.paymentId with
      | none => false
      | some paymentId => rows.paymentIds.contains paymentId)
    && record.responseSnapshot.isSome

/-- The payments the idempotency records name. -/
def recordedIds : List String := rows.idempotencyRecords.filterMap (·.paymentId)

/-- The versions of the events, each with its payment. -/
def eventVersions : List (String × Nat) :=
  rows.webhooks.map fun event => (event.paymentId, event.aggregateVersion)

/-- The checks of a run. -/
def verificationChecks (runId profile : String) : List VerificationCheck :=
  let approved := approvedCount expected
  let references := expected.map (reference runId profile)
  let keys := expected.map (idempotencyKey runId profile)
  let observedReferences := rows.payments.map (·.merchantReference)
  let observedKeys := rows.idempotencyRecords.map (·.key)
  [check "payment count" (.count expected.length) (.count rows.payments.length),
    privateCheck "merchant references" (sameSet references observedReferences)
      references.eraseDups.length observedReferences.eraseDups.length,
    check "payment statuses" (.counts (counter (expected.map (·.status.value))))
      (.counts (counter (rows.payments.map (·.status.value)))),
    privateCheck "initial payment values" (rows.payments.countP isInitial == expected.length)
      expected.length (rows.payments.countP isInitial),
    check "ledger count" (.count approved) (.count rows.ledgers.length),
    privateCheck "one ledger effect per approval"
      (expectedLedgerShape expected == observedLedgerShape rows)
      (expectedLedgerShape expected).length (observedLedgerShape rows).length,
    check "ledger operations" (.counts [("AUTHORIZATION", approved)])
      (.counts (counter (rows.ledgers.map (·.operation)))),
    privateCheck "ledger values match authorized payments"
      (rows.ledgers.countP (matchesPayment rows) == approved)
      approved (rows.ledgers.countP (matchesPayment rows)),
    check "idempotency count" (.count expected.length) (.count rows.idempotencyRecords.length),
    privateCheck "completed authorization idempotency records"
      (rows.idempotencyRecords.countP (isCompletedRecord rows) == expected.length)
      expected.length (rows.idempotencyRecords.countP (isCompletedRecord rows)),
    privateCheck "idempotency keys" (sameSet keys observedKeys)
      keys.eraseDups.length observedKeys.eraseDups.length,
    privateCheck "idempotency payments" (sameSet rows.paymentIds (recordedIds rows))
      rows.paymentIds.eraseDups.length (recordedIds rows).eraseDups.length,
    check "webhook count" (.count expected.length) (.count rows.webhooks.length),
    check "webhook statuses" (.counts [("PENDING", expected.length)])
      (.counts (counter (rows.webhooks.map (·.status.value)))),
    check "webhook event types" (.counts (counter (expected.map (·.eventType.value))))
      (.counts (counter (rows.webhooks.map (·.eventType.value)))),
    privateCheck "one version-one webhook per payment"
      (sameSet (rows.paymentIds.map fun paymentId => (paymentId, 1)) (eventVersions rows))
      rows.paymentIds.eraseDups.length (eventVersions rows).eraseDups.length,
    check "currency totals" (.totals (expectedCurrencySummary expected))
      (.totals (currencySummary rows.payments rows.ledgers))]

end Checks

/-- `verify_database`. -/
def verifyDatabase (db : Database) (runId profile : String) :
    Except ServiceError VerificationReport :=
  if ¬availableProfiles.contains profile then
    .error (.valueError ("Unknown performance profile: " ++ profile))
  else
    match expectedPayments profile with
    | .error e => .error e
    | .ok expected =>
      let rows := readRun db runId profile
      let checks := verificationChecks expected rows runId profile
      .ok
        { schemaVersion := 1
          runId := runId
          profile := profile
          passed := checks.all (·.passed)
          checks := checks
          currencySummary := currencySummary rows.payments rows.ledgers }

end PaymentLab
