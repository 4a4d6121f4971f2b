import Mathlib.Data.List.Sort
import PaymentLab.Services.Coordination

/-!
# The confirmation section

`services/confirmation_reporting.py`: the confirmation evidence of a settlement batch, generated once
and then answered as it was saved. Payments are counted from the snapshots of their events,
confirmations from their final records, both through the cutoff of the batch.
-/

namespace PaymentLab

open Transactional

/-! ## Payment outcomes -/

/-- The four names of `payment_outcomes`. -/
inductive PaymentOutcomeName where
  | pending
  | confirmedOnTime
  | expiredWithoutOnTimeConfirmation
  | cancelledUnconfirmed
  deriving DecidableEq, Repr

/-- The outcome of a delayed payment, from the statuses of its events. -/
def outcomeOf (statuses : List PaymentStatus) : PaymentOutcomeName :=
  if statuses.any fun status =>
      decide (status = .captured ∨ status = .partiallyRefunded ∨ status = .refunded) then
    .confirmedOnTime
  else if .cancelled ∈ statuses then .cancelledUnconfirmed
  else if .expired ∈ statuses then .expiredWithoutOnTimeConfirmation
  else .pending

/-- `outcomes[outcome] += 1`. -/
def PaymentOutcomes.count (outcomes : PaymentOutcomes) : PaymentOutcomeName → PaymentOutcomes
  | .pending => { outcomes with pending := outcomes.pending + 1 }
  | .confirmedOnTime => { outcomes with confirmedOnTime := outcomes.confirmedOnTime + 1 }
  | .expiredWithoutOnTimeConfirmation =>
    { outcomes with
      expiredWithoutOnTimeConfirmation := outcomes.expiredWithoutOnTimeConfirmation + 1 }
  | .cancelledUnconfirmed =>
    { outcomes with cancelledUnconfirmed := outcomes.cancelledUnconfirmed + 1 }

/-- `outcomes` before the loop. -/
def PaymentOutcomes.zero : PaymentOutcomes :=
  { pending := 0, confirmedOnTime := 0, expiredWithoutOnTimeConfirmation := 0
    cancelledUnconfirmed := 0 }

/-- `sum(outcomes.values())`. -/
def PaymentOutcomes.sum (outcomes : PaymentOutcomes) : Nat :=
  outcomes.pending + outcomes.confirmedOnTime + outcomes.expiredWithoutOnTimeConfirmation
    + outcomes.cancelledUnconfirmed

/-- The delayed payments created through a cutoff, whatever has become of them since. -/
def delayedPayments (db : Database) (cutoff : Instant) : List PaymentRecord :=
  db.payments.select fun p =>
    decide (p.paymentFlow = .asynchronousConfirmation) && decide (p.createdAt ≤ cutoff)

/-- The order of the event query. -/
def versionOrder (a b : WebhookEventRecord) : Prop := a.aggregateVersion ≤ b.aggregateVersion

instance : DecidableRel versionOrder := fun _ _ => inferInstanceAs (Decidable (_ ≤ _))

/-- The events of a payment through a cutoff, in version order. -/
def eventsThrough (db : Database) (cutoff : Instant) (paymentId : String) :
    List WebhookEventRecord :=
  (db.webhookEvents.select fun e =>
    decide (e.paymentId = paymentId) && decide (e.createdAt ≤ cutoff)).insertionSort versionOrder

/-- The statuses in the snapshots of those events, in the order of their versions. -/
def statusesThrough (db : Database) (cutoff : Instant) (paymentId : String) :
    List PaymentStatus :=
  (eventsThrough db cutoff paymentId).map (·.payload.payment.status)

/-- The first loop of `confirmation_section`: each delayed payment is counted under the outcome that
its statuses through the cutoff show. -/
def countOutcomes (db : Database) (cutoff : Instant) : PaymentOutcomes :=
  (delayedPayments db cutoff).foldl
    (fun outcomes payment => outcomes.count (outcomeOf (statusesThrough db cutoff payment.id)))
    .zero

/-! ## Dispositions and anomalies -/

/-- `dispositions[record.disposition] += 1`. -/
def DispositionCounts.count (counts : DispositionCounts) :
    ConfirmationDisposition → DispositionCounts
  | .applied => { counts with applied := counts.applied + 1 }
  | .late => { counts with late := counts.late + 1 }
  | .amountMismatch => { counts with amountMismatch := counts.amountMismatch + 1 }
  | .currencyMismatch => { counts with currencyMismatch := counts.currencyMismatch + 1 }
  | .unknownReference => { counts with unknownReference := counts.unknownReference + 1 }
  | .alreadyResolved => { counts with alreadyResolved := counts.alreadyResolved + 1 }

/-- `dispositions` before the loop. -/
def DispositionCounts.zero : DispositionCounts :=
  { applied := 0, late := 0, amountMismatch := 0, currencyMismatch := 0, unknownReference := 0
    alreadyResolved := 0 }

/-- The final records received through a cutoff. -/
def confirmationsThrough (db : Database) (cutoff : Instant) : List PaymentConfirmationRecord :=
  db.paymentConfirmations.select fun c => decide (c.receivedAt ≤ cutoff)

/-- The disposition half of the second loop. -/
def countDispositions (records : List PaymentConfirmationRecord) : DispositionCounts :=
  records.foldl (fun counts record => counts.count record.disposition) .zero

/-- Count one record into the bucket of its currency and disposition. -/
def tally (record : PaymentConfirmationRecord) : List ObservedAnomaly → List ObservedAnomaly
  | [] =>
    [{ currency := record.currency, disposition := record.disposition, count := 1
       observedAmount := record.amount }]
  | bucket :: rest =>
    if bucket.currency = record.currency ∧ bucket.disposition = record.disposition then
      { bucket with
        count := bucket.count + 1, observedAmount := bucket.observedAmount + record.amount } :: rest
    else bucket :: tally record rest

/-- The order of the sorted buckets: currency, then disposition, as texts. -/
def anomalyOrder (a b : ObservedAnomaly) : Prop :=
  a.currency.value < b.currency.value ∨
    (a.currency = b.currency ∧ a.disposition.value ≤ b.disposition.value)

instance : DecidableRel anomalyOrder := fun _ _ => inferInstanceAs (Decidable (_ ∨ _))

/-- The anomaly half of the second loop: the final records that were not applied, one item for each
kind and currency, sorted. -/
def observeAnomalies (records : List PaymentConfirmationRecord) : List ObservedAnomaly :=
  (records.foldl
    (fun anomalies record =>
      if record.disposition ≠ .applied then tally record anomalies else anomalies)
    []).insertionSort anomalyOrder

/-- The receipts through a cutoff that still wait for their completion. -/
def pendingReceiptCount (db : Database) (cutoff : Instant) : Nat :=
  (db.confirmationReceipts.select fun r =>
    decide (r.receivedAt ≤ cutoff) && !r.completed).length

/-! ## The section -/

/-- `"basis"`. -/
def reportBasis : String := "effective_through_cutoff_known_at_generation"

/-- `"amount_notice"`. -/
def amountNotice : String :=
  "Observed anomaly amounts are not money received and are excluded from settlement totals."

/-- The section a store gives through a cutoff: payments from the snapshots of their events,
confirmations from their final records, and the receipts still pending as a number. It reads no
ledger. -/
def generateReport (db : Database) (cutoff generated : Instant) : ConfirmationReport :=
  let outcomes := countOutcomes db cutoff
  let records := confirmationsThrough db cutoff
  { cutoff := cutoff
    generatedAt := generated
    basis := reportBasis
    paymentCount := outcomes.sum
    paymentOutcomes := outcomes
    dispositions := countDispositions records
    pendingReceiptCount := pendingReceiptCount db cutoff
    observedAnomalies := observeAnomalies records
    amountNotice := amountNotice }

/-- The clock of a report. -/
def readReportClock (clock : Datetime) : Service Instant :=
  match clock with
  | .naive _ => throw (.valueError "Report clock must be timezone-aware")
  | .aware utc => pure utc

/-- The first generation of a section: read, then save. -/
def firstGeneration (batchId : String) (clock : Datetime) : Service ConfirmationReport := do
  match ← Service.query fun db => db.settlementBatches.get batchId with
  | none => throw (.lookupError "Settlement batch does not exist")
  | some batch =>
    let generated ← readReportClock clock
    let result ← Service.query fun db => generateReport db batch.cutoff generated
    Service.flush (insertConfirmationReport { batchId := batchId, payload := result })
    Service.commit
    return result

/-- `confirmation_section`: the saved section where there is one, whatever the clock reads, and
otherwise a first generation, which is saved. Both hold the writer, so that no two calls generate. -/
def confirmationSection (batchId : String) (clock : Datetime) : Service ConfirmationReport := do
  beginCoordinatedWrite
  tryCatch
    (do
      match ← Service.query fun db => db.confirmationReports.get batchId with
      | some saved =>
        Service.commit
        return saved.payload
      | none => firstGeneration batchId clock)
    fun error => do
      Service.rollback
      throw error

end PaymentLab
