import Mathlib.Data.List.Sort
import Mathlib.Data.List.Dedup
import PaymentLab.Services.Ledger
import PaymentLab.Services.Runtime

/-!
# Settlement and reconciliation

`services/reconciliation.py`: the import of a settlement batch and the report that compares it with
the ledger, the payments and the merchant view. Reconciliation reads only.

The order of the queries is kept where the report shows it, and the totals are folded in that order.
An entry of a batch may name any payment created by the cutoff, also one that nothing is due for; it
is the report that finds it.
-/

namespace PaymentLab

open Relational Transactional

/-! ## Vocabulary -/

/-- `SettlementClassification`. -/
inductive SettlementClassification where
  | matched
  | missing
  | duplicated
  | amountMismatched
  deriving DecidableEq, Repr

/-- `SourceCheckStatus`. -/
inductive SourceCheckStatus where
  | matched
  | missing
  | stale
  | mismatched
  deriving DecidableEq, Repr

/-- `ReconciliationStatus`. -/
inductive ReconciliationStatus where
  | matched
  | mismatched
  deriving DecidableEq, Repr

/-- `SettlementInput`. -/
structure SettlementInput where
  paymentId : String
  amount : Int
  currency : Currency
  deriving DecidableEq, Repr

/-- `SettlementComparison`: the class of a line, with the rows it was found from, in the order of
their lines. -/
structure SettlementComparison where
  classification : SettlementClassification
  observedAmounts : List Int
  observedCurrencies : List Currency
  canonicalObservedAmount : Int
  deriving DecidableEq, Repr

/-- `ReconciliationItem`. -/
structure ReconciliationItem where
  paymentId : String
  merchantReference : String
  currency : Currency
  expectedSettlementAmount : Int
  settlementClassification : SettlementClassification
  settlementRecordCount : Nat
  observedSettlementAmounts : List Int
  observedSettlementCurrencies : List Currency
  ledgerStatus : SourceCheckStatus
  paymentAuthorizedAmount : Int
  ledgerAuthorizedAmount : Int
  paymentCapturedAmount : Int
  ledgerCapturedAmount : Int
  paymentRefundedAmount : Int
  ledgerRefundedAmount : Int
  projectionStatus : SourceCheckStatus
  expectedProjectionVersion : Nat
  observedProjectionVersion : Option Nat
  latestEventProcessed : Bool
  deriving DecidableEq, Repr

/-- `CurrencyReconciliationTotal`. -/
structure CurrencyReconciliationTotal where
  currency : Currency
  expectedSettlementTotal : Int
  observedSettlementTotal : Int
  netDiscrepancy : Int
  deriving DecidableEq, Repr

/-- `ReconciliationSummary`. -/
structure ReconciliationSummary where
  status : ReconciliationStatus
  paymentCount : Nat
  currencyTotals : List CurrencyReconciliationTotal
  matchedCount : Nat
  missingCount : Nat
  duplicatedCount : Nat
  amountMismatchedCount : Nat
  ledgerMismatchCount : Nat
  projectionMismatchCount : Nat
  deriving DecidableEq, Repr

/-- `ReconciliationReport`. -/
structure ReconciliationReport where
  batchId : String
  cutoff : Instant
  items : List ReconciliationItem
  summary : ReconciliationSummary
  deriving DecidableEq, Repr

/-! ## Classifiers -/

/-- The order of the rows of a batch. -/
def lineOrder (a b : SettlementRecord) : Prop := a.lineNumber ≤ b.lineNumber

instance : DecidableRel lineOrder := fun _ _ => inferInstanceAs (Decidable (_ ≤ _))

/-- `classify_settlement`: more than one row is a duplication whatever the rows say, no row is
missing unless nothing is due, and a single row is compared in amount and currency. -/
def classifySettlement (expectedAmount : Int) (expectedCurrency : Currency)
    (records : List SettlementRecord) : SettlementComparison :=
  let ordered := records.insertionSort lineOrder
  let amounts := ordered.map (·.amount)
  let currencies := ordered.map (·.currency)
  let canonical := amounts.headD 0
  let classification : SettlementClassification :=
    if ordered.length > 1 then .duplicated
    else if ordered.isEmpty then
      if expectedAmount = 0 then .matched else .missing
    else if canonical = expectedAmount ∧ currencies.head? = some expectedCurrency then .matched
    else .amountMismatched
  { classification := classification
    observedAmounts := amounts
    observedCurrencies := currencies
    canonicalObservedAmount := canonical }

/-- `_ledger_status`: the balances of the row against the totals of its whole ledger, without a
cutoff. -/
def ledgerStatus (payment : PaymentRecord) (totals : LedgerTotals) : SourceCheckStatus :=
  if payment.authorizedAmount = totals.authorized ∧ payment.capturedAmount = totals.captured ∧
      payment.refundedAmount = totals.refunded then .matched
  else .mismatched

/-- The columns `_projection_status` compares agree. The flow, the reference and the deadline of a
payment are not among them. -/
def comparedFieldsAgree (payment : PaymentRecord) (projection : MerchantPaymentProjectionRecord) :
    Prop :=
  projection.merchantReference = payment.merchantReference
    ∧ projection.amount = payment.amount
    ∧ projection.currency = payment.currency
    ∧ projection.status = payment.status
    ∧ projection.declineReason = payment.declineReason
    ∧ projection.authorizedAmount = payment.authorizedAmount
    ∧ projection.capturedAmount = payment.capturedAmount
    ∧ projection.refundedAmount = payment.refundedAmount

instance (payment : PaymentRecord) (projection : MerchantPaymentProjectionRecord) :
    Decidable (comparedFieldsAgree payment projection) := inferInstanceAs (Decidable (_ ∧ _))

/-- `_projection_status`: missing, behind the latest event, or its event not processed; only then the
version of the payment and the compared fields. A projection ahead of the latest event is none of the
former. -/
def projectionStatus (payment : PaymentRecord)
    (projection : Option MerchantPaymentProjectionRecord) (latestEvent : WebhookEventRecord)
    (latestEventProcessed : Bool) : SourceCheckStatus :=
  match projection with
  | none => .missing
  | some projection =>
    if projection.aggregateVersion < latestEvent.aggregateVersion then .stale
    else if !latestEventProcessed then .missing
    else if projection.aggregateVersion ≠ payment.version ∨ ¬comparedFieldsAgree payment projection then
      .mismatched
    else .matched

/-! ## Import -/

/-- The first of the identities in sorted order. -/
def firstSorted (ids : List String) : Option String := (ids.insertionSort (· ≤ ·)).head?

/-- The rows of an import, numbered from one. `draws` gives the generated part of each row's id. -/
def settlementRows (batchId : String) (now : Instant) (draws : Nat → String) :
    List SettlementInput → Nat → List SettlementRecord
  | [], _ => []
  | entry :: rest, lineNumber =>
    { id := "set_" ++ draws lineNumber
      batchId := batchId
      paymentId := entry.paymentId
      lineNumber := lineNumber
      amount := entry.amount
      currency := entry.currency
      createdAt := now } :: settlementRows batchId now draws rest (lineNumber + 1)

/-- Insert rows one after another. -/
def insertSettlementRows : List SettlementRecord → Database → Except ServiceError Database
  | [], db => .ok db
  | row :: rest, db => do insertSettlementRows rest (← insertSettlementRecord row db)

/-- The entries of an import against the stored payments: the first unknown identity, then the first
one created after the cutoff. -/
def checkSettlementEntries (db : Database) (cutoff : Instant) (entries : List SettlementInput) :
    Except ServiceError Unit :=
  let ids := (entries.map (·.paymentId)).dedup
  match firstSorted (ids.filter fun id => (db.payments.get id).isNone) with
  | some missing => .error (.settlementPaymentNotFound missing)
  | none =>
    match firstSorted (ids.filter fun id =>
        (db.payments.get id).any fun p => decide (p.createdAt > cutoff)) with
    | some outside => .error (.settlementPaymentOutsideCutoff outside)
    | none => .ok ()

/-- The check of the entries inside the session. -/
def requireSettlementEntries (cutoff : Instant) (entries : List SettlementInput) : Service Unit := do
  match ← Service.query fun db => checkSettlementEntries db cutoff entries with
  | .ok _ => return ()
  | .error error => throw error

/-- `create_settlement_batch`. `now` is the wall clock. -/
def createSettlementBatch (cutoff : Instant) (entries : List SettlementInput) (now : Instant)
    (batchHex : String) (draws : Nat → String) : Service SettlementBatchRecord := do
  requireSettlementEntries cutoff entries
  let batch : SettlementBatchRecord := { id := "setb_" ++ batchHex, cutoff := cutoff, createdAt := now }
  tryCatch
    (do
      Service.flush (insertSettlementBatch batch)
      Service.flush (insertSettlementRows (settlementRows batch.id now draws entries 1))
      Service.commit
      return batch)
    fun error => do
      Service.rollback
      throw error

/-! ## Reconciliation -/

/-- `get_settlement_records`, for a batch that exists. -/
def settlementRecords (db : Database) (batchId : String) : List SettlementRecord :=
  (db.settlementRecords.select fun r => decide (r.batchId = batchId)).insertionSort lineOrder

/-- `settlements_by_payment.get(payment_id, [])`. -/
def settlementsOf (records : List SettlementRecord) (paymentId : String) : List SettlementRecord :=
  records.filter fun r => decide (r.paymentId = paymentId)

/-- The payments created through a cutoff, by identity. -/
def paymentsThrough (db : Database) (cutoff : Instant) : List PaymentRecord :=
  (db.payments.select fun p => decide (p.createdAt ≤ cutoff)).insertionSort fun a b => a.id ≤ b.id

/-- The order of the ledger query. -/
def ledgerOrder (a b : LedgerEntryRecord) : Prop :=
  a.createdAt < b.createdAt ∨ (a.createdAt = b.createdAt ∧ a.id ≤ b.id)

instance : DecidableRel ledgerOrder := fun _ _ => inferInstanceAs (Decidable (_ ∨ _))

/-- The ledger entries of a payment in the order of the query. -/
def orderedLedger (db : Database) (paymentId : String) : List LedgerEntryRecord :=
  (db.ledgerOf paymentId).insertionSort ledgerOrder

/-- The event of the highest version; none where nothing was published. -/
def latestEvent (db : Database) (paymentId : String) : Option WebhookEventRecord :=
  ((db.eventsOf paymentId).insertionSort fun a b => b.aggregateVersion ≤ a.aggregateVersion).head?

/-- The amount a batch should settle: what the ledger holds through the cutoff, never negative. -/
def expectedAmount (db : Database) (cutoff : Instant) (payment : PaymentRecord) : Int :=
  max 0 (calculateLedgerTotals (orderedLedger db payment.id) (some cutoff)).netCaptured

/-- The totals of one currency while the lines are gone through: expected, then observed. -/
structure RunningTotal where
  currency : Currency
  expected : Int
  observed : Int
  deriving DecidableEq, Repr

/-- `totals_by_currency.setdefault(currency, [0, 0])`, with both amounts added. -/
def addTotals (currency : Currency) (expected observed : Int) : List RunningTotal → List RunningTotal
  | [] => [{ currency := currency, expected := expected, observed := observed }]
  | total :: rest =>
    if total.currency = currency then
      { total with expected := total.expected + expected, observed := total.observed + observed } ::
        rest
    else total :: addTotals currency expected observed rest

/-- The report line of one payment: what is due by the cutoff against the rows of the batch, its
ledger as it stands, and the merchant's projection against its latest event. -/
def reconcilePayment (db : Database) (cutoff : Instant) (records : List SettlementRecord)
    (payment : PaymentRecord) (latest : WebhookEventRecord) : ReconciliationItem :=
  let current := calculateLedgerTotals (orderedLedger db payment.id) none
  let expected := expectedAmount db cutoff payment
  let settlement := classifySettlement expected payment.currency (settlementsOf records payment.id)
  let processed := (db.processedWebhooks.get latest.id).isSome
  let projection := db.merchantProjections.get payment.id
  { paymentId := payment.id
    merchantReference := payment.merchantReference
    currency := payment.currency
    expectedSettlementAmount := expected
    settlementClassification := settlement.classification
    settlementRecordCount := settlement.observedAmounts.length
    observedSettlementAmounts := settlement.observedAmounts
    observedSettlementCurrencies := settlement.observedCurrencies
    ledgerStatus := ledgerStatus payment current
    paymentAuthorizedAmount := payment.authorizedAmount
    ledgerAuthorizedAmount := current.authorized
    paymentCapturedAmount := payment.capturedAmount
    ledgerCapturedAmount := current.captured
    paymentRefundedAmount := payment.refundedAmount
    ledgerRefundedAmount := current.refunded
    projectionStatus := projectionStatus payment projection latest processed
    expectedProjectionVersion := latest.aggregateVersion
    observedProjectionVersion := projection.map (·.aggregateVersion)
    latestEventProcessed := processed }

/-- The additions of one payment to the totals: the expected amount under its own currency, the
canonical observed amount under the currency of the first row. -/
def addPayment (totals : List RunningTotal) (currency : Currency) (expected : Int)
    (settlement : SettlementComparison) : List RunningTotal :=
  let totals := addTotals currency expected 0 totals
  match settlement.observedCurrencies.head? with
  | some observed => addTotals observed 0 settlement.canonicalObservedAmount totals
  | none => totals

/-- The loop of `reconcile_settlement_batch`: the lines, and the totals by currency. -/
def reconcileEach (db : Database) (cutoff : Instant) (records : List SettlementRecord) :
    List PaymentRecord → List RunningTotal →
      Except ServiceError (List ReconciliationItem × List RunningTotal)
  | [], totals => .ok ([], totals)
  | payment :: rest, totals =>
    match latestEvent db payment.id with
    | none => .error (.runtimeError ("Payment " ++ payment.id ++ " has no webhook event"))
    | some latest => do
      let expected := expectedAmount db cutoff payment
      let settlement :=
        classifySettlement expected payment.currency (settlementsOf records payment.id)
      let (items, totals) ← reconcileEach db cutoff records rest
        (addPayment totals payment.currency expected settlement)
      .ok (reconcilePayment db cutoff records payment latest :: items, totals)

/-- Every source of every line agrees. -/
def allMatched (items : List ReconciliationItem) : Bool :=
  (items.all fun item => decide (item.settlementClassification = .matched))
    && decide ((items.filter fun item => decide (item.ledgerStatus ≠ .matched)).length = 0)
    && decide ((items.filter fun item => decide (item.projectionStatus ≠ .matched)).length = 0)

/-- How many lines are classified in one way. -/
def classifiedCount (items : List ReconciliationItem) (c : SettlementClassification) : Nat :=
  (items.map (·.settlementClassification)).count c

/-- The order of the sorted totals. -/
def currencyOrder (a b : RunningTotal) : Prop := a.currency.value ≤ b.currency.value

instance : DecidableRel currencyOrder := fun _ _ => inferInstanceAs (Decidable (_ ≤ _))

/-- The total of one currency as it is reported. -/
def RunningTotal.reported (total : RunningTotal) : CurrencyReconciliationTotal :=
  { currency := total.currency
    expectedSettlementTotal := total.expected
    observedSettlementTotal := total.observed
    netDiscrepancy := total.observed - total.expected }

/-- The summary of a report. -/
def summarize (items : List ReconciliationItem) (totals : List RunningTotal) :
    ReconciliationSummary :=
  { status := if allMatched items then .matched else .mismatched
    paymentCount := items.length
    currencyTotals := (totals.insertionSort currencyOrder).map RunningTotal.reported
    matchedCount := classifiedCount items .matched
    missingCount := classifiedCount items .missing
    duplicatedCount := classifiedCount items .duplicated
    amountMismatchedCount := classifiedCount items .amountMismatched
    ledgerMismatchCount := (items.filter fun item => decide (item.ledgerStatus ≠ .matched)).length
    projectionMismatchCount :=
      (items.filter fun item => decide (item.projectionStatus ≠ .matched)).length }

/-- The report of a stored batch: a line for every payment created by the cutoff, in the order of
their identities, and the totals of the lines and the rows by currency. -/
def reconcileBatch (db : Database) (batch : SettlementBatchRecord) :
    Except ServiceError ReconciliationReport := do
  let (items, totals) ← reconcileEach db batch.cutoff (settlementRecords db batch.id)
    (paymentsThrough db batch.cutoff) []
  .ok
    { batchId := batch.id
      cutoff := batch.cutoff
      items := items
      summary := summarize items totals }

/-- `reconcile_settlement_batch`, as a reading of one store. -/
def reconcileSettlementBatch (db : Database) (batchId : String) :
    Except ServiceError ReconciliationReport :=
  match db.settlementBatches.get batchId with
  | none => .error (.settlementBatchNotFound batchId)
  | some batch => reconcileBatch db batch

end PaymentLab
