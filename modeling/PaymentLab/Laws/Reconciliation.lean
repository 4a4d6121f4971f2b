import PaymentLab.Account.Balances
import PaymentLab.Consumer.Producer
import PaymentLab.Library.Lists
import PaymentLab.Runs.Settlements

/-!
# A clean reconciliation

What the status of a reconciliation says of the tables, whatever they hold. A batch that was imported
names payments created by its cutoff (`Imported`), and then a report is matched exactly when every
such payment is clean (`Clean`), which leaves nothing to cancel out in the totals by currency.

That the store is the outcome of a run is not needed. Of the import it is used that it committed, of
what followed that it left the batch alone, and of the outbox that every payment has an event;
projections, ledgers and later payments may hold anything a table allows. In particular a projection
may be ahead of the events of its payment, which the classification does not report as such; it is
the one respect in which a matched payment may differ from an exact one.
-/

namespace PaymentLab

open Relational Transactional Transactional.Service

/-! ## Totals of a ledger -/

/-- An entry adds amounts of its own to the totals, whatever they are. -/
theorem LedgerTotals.add_amounts (entry : LedgerEntryRecord) : ∃ a c r : Int,
    ∀ totals : LedgerTotals, totals.add entry =
      { authorized := totals.authorized + a, captured := totals.captured + c,
        refunded := totals.refunded + r } := by
  unfold LedgerTotals.add
  by_cases hauthorization : entry.operation = "AUTHORIZATION"
  · exact ⟨entry.amount, 0, 0, fun totals => by simp [hauthorization]⟩
  by_cases hcapture : entry.operation = "CAPTURE"
  · exact ⟨0, entry.amount, 0, fun totals => by simp [hcapture]⟩
  by_cases hconfirmation : entry.operation = "CONFIRMATION_CAPTURE"
  · exact ⟨entry.amount, entry.amount, 0, fun totals => by simp [hconfirmation]⟩
  by_cases hrefund : entry.operation = "REFUND"
  · exact ⟨0, 0, entry.amount, fun totals => by simp [hrefund]⟩
  · refine ⟨0, 0, 0, fun totals => ?_⟩
    simp only [if_neg hauthorization, if_neg hcapture, if_neg hconfirmation, if_neg hrefund,
      add_zero]

/-- The totals of a ledger do not depend on the order of its entries. -/
theorem calculateLedgerTotals_perm {entries entries' : List LedgerEntryRecord}
    (h : entries.Perm entries') (cutoff : Option Instant) :
    calculateLedgerTotals entries cutoff = calculateLedgerTotals entries' cutoff := by
  unfold calculateLedgerTotals
  apply h.foldl_eq'
  intro x _ y _ totals
  have comm : (totals.add x).add y = (totals.add y).add x := by
    obtain ⟨_, _, _, hx⟩ := LedgerTotals.add_amounts x
    obtain ⟨_, _, _, hy⟩ := LedgerTotals.add_amounts y
    simp only [hx, hy, add_right_comm]
  cases cutoff with
  | none => exact comm
  | some cutoff =>
    dsimp only
    split_ifs <;> first | rfl | exact comm

/-! ## One payment -/

/-- The amount a batch should settle for a payment. -/
def amountDue (db : Database) (cutoff : Instant) (p : PaymentRecord) : Int :=
  let totals := calculateLedgerTotals (db.ledgerOf p.id) (some cutoff)
  max 0 (totals.captured - totals.refunded)

/-- The rows of a batch for one payment: amount and currency. -/
def settledRows (db : Database) (batchId paymentId : String) : List (Int × Currency) :=
  (db.settlementRecords.rows.filter fun r =>
    decide (r.batchId = batchId ∧ r.paymentId = paymentId)).map fun r => (r.amount, r.currency)

/-- An event of the highest version of a payment. There may be none, where nothing was published. -/
def IsLatest (db : Database) (paymentId : String) (event : WebhookEventRecord) : Prop :=
  event ∈ db.eventsOf paymentId ∧
    ∀ other ∈ db.eventsOf paymentId, other.aggregateVersion ≤ event.aggregateVersion

/-- A payment that nothing is wrong with: it is settled as it should be, its ledger agrees with its
balances, and the merchant sees it. The view may be ahead of the latest event of the outbox; `Exact`
rules that out. -/
structure Clean (db : Database) (batch : SettlementBatchRecord) (p : PaymentRecord) : Prop where
  /-- one row of the amount due, or none where nothing is due -/
  settled : settledRows db batch.id p.id =
    if 0 < amountDue db batch.cutoff p then [(amountDue db batch.cutoff p, p.currency)] else []
  ledger : p.balances = calculateLedgerTotals (db.ledgerOf p.id) none
  /-- the view is at the version of the payment, not below its latest event, which is processed -/
  view : ∃ projection latest, db.merchantProjections.get p.id = some projection ∧
    IsLatest db p.id latest ∧ latest.aggregateVersion ≤ projection.aggregateVersion ∧
    projection.aggregateVersion = p.version ∧
    (∃ row, db.processedWebhooks.get latest.id = some row) ∧ comparedFieldsAgree p projection

/-- A clean payment whose view is at the version of its latest event. -/
def Exact (db : Database) (batch : SettlementBatchRecord) (p : PaymentRecord) : Prop :=
  Clean db batch p ∧ ∃ projection latest, db.merchantProjections.get p.id = some projection ∧
    IsLatest db p.id latest ∧ projection.aggregateVersion = latest.aggregateVersion

/-- Where the latest event is that of the payment's version, a clean payment is exact. -/
theorem Clean.exact {db : Database} {batch : SettlementBatchRecord} {p : PaymentRecord}
    (clean : Clean db batch p) {latest : WebhookEventRecord} (highest : IsLatest db p.id latest)
    (version : latest.aggregateVersion = p.version) : Exact db batch p := by
  obtain ⟨projection, _, hview, _, _, hversion, _, _⟩ := clean.view
  exact ⟨clean, projection, latest, hview, highest, hversion.trans version.symm⟩

theorem amountDue_nonneg (db : Database) (cutoff : Instant) (p : PaymentRecord) :
    0 ≤ amountDue db cutoff p := le_max_left _ _

theorem orderedLedger_perm (db : Database) (paymentId : String) :
    (orderedLedger db paymentId).Perm (db.ledgerOf paymentId) := List.perm_insertionSort _ _

theorem expectedAmount_eq (db : Database) (cutoff : Instant) (p : PaymentRecord) :
    expectedAmount db cutoff p = amountDue db cutoff p := by
  unfold expectedAmount amountDue LedgerTotals.netCaptured
  rw [calculateLedgerTotals_perm (orderedLedger_perm db p.id)]

/-- The rows a payment is classified by are its rows in the batch. -/
theorem settlementsOf_perm (db : Database) (batchId paymentId : String) :
    (settlementsOf (settlementRecords db batchId) paymentId).Perm
      (db.settlementRecords.rows.filter fun r =>
        decide (r.batchId = batchId ∧ r.paymentId = paymentId)) := by
  unfold settlementsOf settlementRecords Table.select
  refine ((List.perm_insertionSort _ _).filter _).trans ?_
  rw [List.filter_filter]
  apply List.Perm.of_eq
  congr 1
  funext r
  rw [Bool.decide_and]
  exact Bool.and_comm _ _

theorem classify_many (expected : Int) (currency : Currency) (a b : SettlementRecord)
    (rest : List SettlementRecord) :
    (classifySettlement expected currency (a :: b :: rest)).classification = .duplicated := by
  have hlong : 1 < ((a :: b :: rest).insertionSort lineOrder).length := by
    rw [List.length_insertionSort]
    simp
  exact if_pos hlong

/-- **Classification**: matched is exactly one row of the amount due, or none where nothing is. -/
theorem classify_matched {expected : Int} {currency : Currency} {records : List SettlementRecord}
    (nonneg : 0 ≤ expected) (positive : ∀ r ∈ records, 0 < r.amount) :
    (classifySettlement expected currency records).classification = .matched ↔
      records.map (fun r => (r.amount, r.currency)) =
        if 0 < expected then [(expected, currency)] else [] := by
  match records with
  | [] =>
    by_cases hzero : expected = 0
    · simp [classifySettlement, hzero]
    · have hpos : 0 < expected := by omega
      simp [classifySettlement, hzero, hpos]
  | [r] =>
    have hr : 0 < r.amount := positive r List.mem_cons_self
    by_cases hpos : 0 < expected
    · simp [classifySettlement, hpos]
    · have hne : r.amount ≠ expected := by omega
      simp [classifySettlement, hpos, hne]
  | a :: b :: rest =>
    rw [classify_many]
    split <;> simp

theorem ledgerStatus_matched {p : PaymentRecord} {totals : LedgerTotals} :
    ledgerStatus p totals = .matched ↔ p.balances = totals := by
  unfold ledgerStatus
  rw [show totals = ⟨totals.authorized, totals.captured, totals.refunded⟩ from rfl,
    PaymentRecord.balances_eq_iff]
  split <;> simp_all

theorem projectionStatus_matched {p : PaymentRecord}
    {projection : Option MerchantPaymentProjectionRecord} {latest : WebhookEventRecord}
    {processed : Bool} : projectionStatus p projection latest processed = .matched ↔
      ∃ view, projection = some view ∧ latest.aggregateVersion ≤ view.aggregateVersion ∧
        processed = true ∧ view.aggregateVersion = p.version ∧ comparedFieldsAgree p view := by
  cases projection with
  | none => simp [projectionStatus]
  | some view =>
    unfold projectionStatus
    dsimp only
    by_cases hstale : view.aggregateVersion < latest.aggregateVersion
    · simp [hstale]
    · have hfresh : latest.aggregateVersion ≤ view.aggregateVersion := by omega
      by_cases hprocessed : processed = true
      · by_cases hagree : view.aggregateVersion = p.version ∧ comparedFieldsAgree p view
        · simp [hprocessed, hagree.1 ▸ hfresh, hagree]
        · rw [if_neg hstale, if_neg (by simp [hprocessed]), if_pos (by tauto)]
          simp [hagree]
      · simp [hstale, hprocessed]

/-! ## Totals by currency -/

/-- The expected sum of the totals under a currency. -/
def expectedIn (c : Currency) (totals : List RunningTotal) : Int :=
  ((totals.filter fun t => decide (t.currency = c)).map (·.expected)).sum

/-- The observed sum of the totals under a currency. -/
def observedIn (c : Currency) (totals : List RunningTotal) : Int :=
  ((totals.filter fun t => decide (t.currency = c)).map (·.observed)).sum

/-- An addition reaches the sums of its own currency. -/
theorem sums_addTotals (currency c : Currency) (expected observed : Int)
    (totals : List RunningTotal) :
    expectedIn c (addTotals currency expected observed totals) =
        expectedIn c totals + (if currency = c then expected else 0) ∧
      observedIn c (addTotals currency expected observed totals) =
        observedIn c totals + (if currency = c then observed else 0) := by
  induction totals with
  | nil =>
    by_cases h : currency = c <;> simp [addTotals, expectedIn, observedIn, h]
  | cons total rest ih =>
    unfold expectedIn observedIn at ih ⊢
    unfold addTotals
    by_cases hsame : total.currency = currency
    · rw [if_pos hsame]
      by_cases h : currency = c
      · constructor <;> simp [hsame, h] <;> omega
      · simp [hsame, h]
    · rw [if_neg hsame]
      by_cases h : total.currency = c
      · simp only [List.filter_cons, h, decide_true, if_true, List.map_cons, List.sum_cons, ih.1, ih.2]
        constructor <;> omega
      · simp only [List.filter_cons, h, decide_false, Bool.false_eq_true, if_false, ih.1, ih.2]
        simp

/-- The currencies of the totals after an addition. -/
theorem mem_addTotals (currency c : Currency) (expected observed : Int)
    (totals : List RunningTotal) :
    c ∈ (addTotals currency expected observed totals).map (·.currency) ↔
      c = currency ∨ c ∈ totals.map (·.currency) := by
  induction totals with
  | nil => simp [addTotals]
  | cons total rest ih =>
    unfold addTotals
    by_cases hsame : total.currency = currency
    · simp [hsame]
    · rw [if_neg hsame, List.map_cons, List.mem_cons, ih, List.map_cons, List.mem_cons]
      tauto

/-- Each currency has one total. -/
theorem addTotals_nodup {totals : List RunningTotal} (currency : Currency) (expected observed : Int)
    (h : (totals.map (·.currency)).Nodup) :
    ((addTotals currency expected observed totals).map (·.currency)).Nodup := by
  induction totals with
  | nil => simp [addTotals]
  | cons total rest ih =>
    rw [List.map_cons, List.nodup_cons] at h
    unfold addTotals
    by_cases hsame : total.currency = currency
    · rw [if_pos hsame]
      exact List.nodup_cons.mpr h
    · rw [if_neg hsame]
      refine List.nodup_cons.mpr ⟨fun mem => ?_, ih h.2⟩
      rcases (mem_addTotals ..).mp mem with heq | hin
      · exact hsame heq
      · exact h.1 hin

/-- The single total of a currency has its sums. -/
theorem sums_of_mem {totals : List RunningTotal} (h : (totals.map (·.currency)).Nodup)
    {total : RunningTotal} (mem : total ∈ totals) :
    expectedIn total.currency totals = total.expected ∧
      observedIn total.currency totals = total.observed := by
  have hsingle : totals.filter (fun t => decide (t.currency = total.currency)) = [total] := by
    induction totals with
    | nil => cases mem
    | cons head rest ih =>
      rw [List.map_cons, List.nodup_cons] at h
      rcases List.mem_cons.mp mem with rfl | mem
      · rw [List.filter_cons, if_pos (by simp)]
        congr 1
        apply List.filter_eq_nil_iff.mpr
        intro t ht heq
        exact h.1 (of_decide_eq_true heq ▸ List.mem_map_of_mem ht)
      · rw [List.filter_cons, if_neg, ih h.2 mem]
        intro heq
        exact h.1 (of_decide_eq_true heq ▸ List.mem_map_of_mem mem)
  unfold expectedIn observedIn
  rw [hsingle]
  simp

section Report

variable (db : Database) (cutoff : Instant) (records : List SettlementRecord)

/-- The comparison of one payment. -/
def comparison (p : PaymentRecord) : SettlementComparison :=
  classifySettlement (expectedAmount db cutoff p) p.currency (settlementsOf records p.id)

/-- What one payment adds to the observed sum of a currency. -/
def observedOf (c : Currency) (p : PaymentRecord) : Int :=
  match (comparison db cutoff records p).observedCurrencies.head? with
  | some currency =>
    if currency = c then (comparison db cutoff records p).canonicalObservedAmount else 0
  | none => 0

/-- The totals of a list of payments. -/
def totalsOf (payments : List PaymentRecord) (totals : List RunningTotal) : List RunningTotal :=
  payments.foldl (fun totals p =>
    addPayment totals p.currency (expectedAmount db cutoff p) (comparison db cutoff records p)) totals

theorem sums_addPayment (c : Currency) (totals : List RunningTotal) (p : PaymentRecord) :
    let totals' := addPayment totals p.currency (expectedAmount db cutoff p)
      (comparison db cutoff records p)
    expectedIn c totals' =
        expectedIn c totals + (if p.currency = c then expectedAmount db cutoff p else 0) ∧
      observedIn c totals' = observedIn c totals + observedOf db cutoff records c p ∧
      ((totals.map (·.currency)).Nodup → (totals'.map (·.currency)).Nodup) := by
  obtain ⟨hexpected, hobserved⟩ := sums_addTotals p.currency c (expectedAmount db cutoff p) 0 totals
  unfold addPayment observedOf
  dsimp only
  cases (comparison db cutoff records p).observedCurrencies.head? with
  | none =>
    refine ⟨hexpected, ?_, addTotals_nodup _ _ _⟩
    rw [hobserved]
    simp
  | some currency =>
    obtain ⟨hexpected', hobserved'⟩ := sums_addTotals currency c 0
      (comparison db cutoff records p).canonicalObservedAmount
      (addTotals p.currency (expectedAmount db cutoff p) 0 totals)
    dsimp only
    refine ⟨?_, ?_, fun h => addTotals_nodup _ _ _ (addTotals_nodup _ _ _ h)⟩
    · rw [hexpected', hexpected]
      simp
    · rw [hobserved', hobserved]
      simp

/-- **The loop**: each sum is the sum over the payments. -/
theorem sums_totalsOf (c : Currency) : ∀ (payments : List PaymentRecord) (totals : List RunningTotal),
    expectedIn c (totalsOf db cutoff records payments totals) = expectedIn c totals +
        (payments.map fun p => if p.currency = c then expectedAmount db cutoff p else 0).sum ∧
      observedIn c (totalsOf db cutoff records payments totals) = observedIn c totals +
        (payments.map (observedOf db cutoff records c)).sum ∧
      ((totals.map (·.currency)).Nodup →
        ((totalsOf db cutoff records payments totals).map (·.currency)).Nodup) := by
  intro payments
  induction payments with
  | nil =>
    intro totals
    simp [totalsOf]
  | cons p rest ih =>
    intro totals
    obtain ⟨hexpected, hobserved, hnodup⟩ := sums_addPayment db cutoff records c totals p
    obtain ⟨hexpected', hobserved', hnodup'⟩ := ih (addPayment totals p.currency
      (expectedAmount db cutoff p) (comparison db cutoff records p))
    refine ⟨?_, ?_, fun h => hnodup' (hnodup h)⟩
    · show expectedIn c (totalsOf db cutoff records rest _) = _
      rw [hexpected', hexpected, List.map_cons, List.sum_cons]
      omega
    · show observedIn c (totalsOf db cutoff records rest _) = _
      rw [hobserved', hobserved, List.map_cons, List.sum_cons]
      omega

variable {db cutoff records}

theorem allMatched_cons (item : ReconciliationItem) (items : List ReconciliationItem) :
    allMatched (item :: items) = true ↔
      (item.settlementClassification = .matched ∧ item.ledgerStatus = .matched ∧
        item.projectionStatus = .matched) ∧ allMatched items = true := by
  unfold allMatched
  simp only [List.all_cons, List.filter_cons, Bool.and_eq_true, decide_eq_true_eq,
    List.length_eq_zero_iff]
  by_cases hledger : item.ledgerStatus = .matched
  · by_cases hview : item.projectionStatus = .matched
    · simp [hledger, hview, and_assoc]
    · simp [hview]
  · simp [hledger]

variable (db cutoff records) in
/-- A line of the report is that of a payment with its latest event. -/
def IsLine (p : PaymentRecord) (item : ReconciliationItem) : Prop :=
  ∃ latest, latestEvent db p.id = some latest ∧ item = reconcilePayment db cutoff records p latest

variable (cutoff records) in
/-- **The report of a list of payments** that all have events: a line for each, and the totals. -/
theorem reconcileEach_eq : ∀ (payments : List PaymentRecord) (totals : List RunningTotal),
    (∀ p ∈ payments, ∃ latest, latestEvent db p.id = some latest) →
    ∃ items, reconcileEach db cutoff records payments totals =
        .ok (items, totalsOf db cutoff records payments totals) ∧
      List.Forall₂ (IsLine db cutoff records) payments items := by
  intro payments
  induction payments with
  | nil =>
    intro totals _
    exact ⟨[], rfl, .nil⟩
  | cons p rest ih =>
    intro totals hlatest
    obtain ⟨latest, hp⟩ := hlatest p List.mem_cons_self
    obtain ⟨items, hitems, lines⟩ := ih (addPayment totals p.currency
      (expectedAmount db cutoff p) (comparison db cutoff records p))
      fun q mem => hlatest q (List.mem_cons_of_mem _ mem)
    refine ⟨reconcilePayment db cutoff records p latest :: items, ?_, .cons ⟨latest, hp, rfl⟩ lines⟩
    unfold reconcileEach
    rw [hp]
    show (reconcileEach db cutoff records rest _ >>= _) = _
    unfold comparison at hitems
    rw [hitems]
    rfl

/-- Every source of every line agrees when it agrees for every payment. -/
theorem allMatched_lines {payments : List PaymentRecord} {items : List ReconciliationItem}
    (lines : List.Forall₂ (IsLine db cutoff records) payments items) :
    allMatched items = true ↔ ∀ p ∈ payments, ∀ latest, latestEvent db p.id = some latest →
      (comparison db cutoff records p).classification = .matched ∧
        ledgerStatus p (calculateLedgerTotals (orderedLedger db p.id) none) = .matched ∧
        projectionStatus p (db.merchantProjections.get p.id) latest
          (db.processedWebhooks.get latest.id).isSome = .matched := by
  induction lines with
  | nil => simp [allMatched]
  | @cons p item rest items line _ ih =>
    obtain ⟨latest, hp, rfl⟩ := line
    rw [allMatched_cons, ih, List.forall_mem_cons]
    apply and_congr_left'
    constructor
    · intro hline other hother
      rw [hp] at hother
      cases hother
      exact hline
    · intro hline
      exact hline latest hp

/-- The rows of one payment in one currency. -/
def rowsIn (records : List SettlementRecord) (c : Currency) (paymentId : String) : Int :=
  (((records.filter fun r => decide (r.currency = c)).filter fun r =>
    decide (r.paymentId = paymentId)).map (·.amount)).sum

/-- Where a payment is matched, what is observed is what is expected, and is all its rows. -/
theorem observedOf_matched {p : PaymentRecord} (c : Currency)
    (matched : (comparison db cutoff records p).classification = .matched) :
    observedOf db cutoff records c p = (if p.currency = c then expectedAmount db cutoff p else 0) ∧
      observedOf db cutoff records c p = rowsIn records c p.id := by
  have hrows : rowsIn records c p.id =
      (((settlementsOf records p.id).filter fun r => decide (r.currency = c)).map (·.amount)).sum := by
    unfold rowsIn settlementsOf
    rw [List.filter_filter, List.filter_filter]
    simp only [Bool.and_comm]
  rw [hrows]
  unfold observedOf
  unfold comparison at matched ⊢
  generalize settlementsOf records p.id = rows at matched ⊢
  match rows with
  | [] =>
    have hzero : expectedAmount db cutoff p = 0 := by
      by_contra hne
      simp [classifySettlement, hne] at matched
    simp [classifySettlement, hzero]
  | [r] =>
    have hrow : r.amount = expectedAmount db cutoff p ∧ r.currency = p.currency := by
      by_contra hne
      simp [classifySettlement] at matched
      exact hne matched
    by_cases h : p.currency = c <;> simp [classifySettlement, hrow, h]
  | a :: b :: rest =>
    rw [classify_many] at matched
    cases matched

end Report

/-! ## The report -/

section Exact

variable {db : Database} {batch : SettlementBatchRecord}

theorem mem_paymentsThrough {cutoff : Instant} {p : PaymentRecord} :
    p ∈ paymentsThrough db cutoff ↔ p ∈ db.payments.rows ∧ p.createdAt ≤ cutoff := by
  unfold paymentsThrough
  rw [List.mem_insertionSort, Table.mem_select, decide_eq_true_eq]

theorem mem_settlementRecords {batchId : String} {row : SettlementRecord} :
    row ∈ settlementRecords db batchId ↔ row ∈ db.settlementRecords.rows ∧ row.batchId = batchId := by
  unfold settlementRecords
  rw [List.mem_insertionSort, Table.mem_select, decide_eq_true_eq]

/-- Every stored row of a settlement has a positive amount. -/
theorem settlement_positive {row : SettlementRecord} (mem : row ∈ db.settlementRecords.rows) :
    0 < row.amount := by
  have checked := db.settlementRecords.checked row mem
  simp only [settlementRecordSchema, Bool.and_eq_true, decide_eq_true_eq] at checked
  exact checked.1

/-- The payments of a report are listed once each. -/
theorem paymentsThrough_nodup (db : Database) (cutoff : Instant) :
    ((paymentsThrough db cutoff).map (·.id)).Nodup := by
  have hrows : (db.payments.rows.map (·.id)).Nodup := by
    apply List.pairwise_map.mpr
    exact db.payments.distinct.imp fun apart => apart.1
  unfold paymentsThrough
  rw [((List.perm_insertionSort _ _).map _).nodup_iff]
  unfold Table.select
  exact hrows.sublist (List.filter_sublist.map _)

/-- **A line is matched** exactly when nothing is wrong with its payment. -/
theorem line_matched {p : PaymentRecord} {latest : WebhookEventRecord}
    (hlatest : latestEvent db p.id = some latest) :
    ((comparison db batch.cutoff (settlementRecords db batch.id) p).classification = .matched ∧
        ledgerStatus p (calculateLedgerTotals (orderedLedger db p.id) none) = .matched ∧
        projectionStatus p (db.merchantProjections.get p.id) latest
          (db.processedWebhooks.get latest.id).isSome = .matched) ↔ Clean db batch p := by
  have hperm := settlementsOf_perm db batch.id p.id
  have positive : ∀ r ∈ settlementsOf (settlementRecords db batch.id) p.id, 0 < r.amount := by
    intro r mem
    exact settlement_positive (mem_settlementRecords.mp (List.mem_filter.mp mem).1).1
  have hsettled : (comparison db batch.cutoff (settlementRecords db batch.id) p).classification =
      .matched ↔ settledRows db batch.id p.id =
        if 0 < amountDue db batch.cutoff p then [(amountDue db batch.cutoff p, p.currency)]
        else [] := by
    unfold comparison settledRows
    rw [expectedAmount_eq, classify_matched (amountDue_nonneg db batch.cutoff p) positive]
    have hmapped := hperm.map fun r => (r.amount, r.currency)
    -- a list of at most one row is its only rearrangement
    constructor
    · intro h
      rw [h] at hmapped
      split at hmapped
      · rw [if_pos ‹_›]
        exact (List.perm_singleton.mp hmapped.symm)
      · rw [if_neg ‹_›]
        exact List.perm_nil.mp hmapped.symm
    · intro h
      rw [h] at hmapped
      split at hmapped
      · rw [if_pos ‹_›]
        exact (List.perm_singleton.mp hmapped)
      · rw [if_neg ‹_›]
        exact List.perm_nil.mp hmapped
  obtain ⟨hevent, hhighest⟩ := latestEvent_spec hlatest
  rw [hsettled, ledgerStatus_matched, projectionStatus_matched,
    calculateLedgerTotals_perm (orderedLedger_perm db p.id)]
  constructor
  · rintro ⟨hrows, hledger, view, hview, hfresh, hprocessed, hversion, hagree⟩
    exact ⟨hrows, hledger, view, latest, hview, ⟨hevent, hhighest⟩, hfresh, hversion,
      Option.isSome_iff_exists.mp hprocessed, hagree⟩
  · rintro ⟨hrows, hledger, view, other, hview, ⟨hother, hmax⟩, hfresh, hversion, hprocessed, hagree⟩
    -- two latest events are one
    have hsame : other = latest := by
      apply event_unique (mem_eventsOf.mp hother).1 (mem_eventsOf.mp hevent).1
      · rw [(mem_eventsOf.mp hother).2, (mem_eventsOf.mp hevent).2]
      · exact le_antisymm (hhighest _ hother) (hmax _ hevent)
    subst hsame
    exact ⟨hrows, hledger, view, hview, hfresh, Option.isSome_iff_exists.mpr hprocessed, hversion,
      hagree⟩

/-- What the rows of a batch in one currency amount to. -/
def batchTotal (db : Database) (batchId : String) (c : Currency) : Int :=
  ((db.settlementRecords.rows.filter fun r =>
    decide (r.batchId = batchId ∧ r.currency = c)).map (·.amount)).sum

/-- The rows of a currency amount to the rows of each payment in it. -/
theorem batchTotal_eq (imported : Imported batch db) (c : Currency) :
    batchTotal db batch.id c = ((paymentsThrough db batch.cutoff).map fun p =>
      rowsIn (settlementRecords db batch.id) c p.id).sum := by
  have cover : ∀ r ∈ (settlementRecords db batch.id).filter (fun r => decide (r.currency = c)),
      r.paymentId ∈ (paymentsThrough db batch.cutoff).map (·.id) := by
    intro r mem
    obtain ⟨hrow, hid⟩ := mem_settlementRecords.mp (List.mem_filter.mp mem).1
    obtain ⟨p, hp, hcutoff⟩ := imported.rows r hrow hid
    obtain ⟨hmem, hkey⟩ := Table.get_eq_some hp
    exact List.mem_map.mpr ⟨p, mem_paymentsThrough.mpr ⟨hmem, hcutoff⟩, hkey⟩
  have hsum := Lists.sum_by_key SettlementRecord.paymentId SettlementRecord.amount
    (paymentsThrough_nodup db batch.cutoff) cover
  rw [List.map_map] at hsum
  rw [show (fun p : PaymentRecord => rowsIn (settlementRecords db batch.id) c p.id) =
    (fun k => rowsIn (settlementRecords db batch.id) c k) ∘ (·.id) from rfl]
  refine Eq.trans ?_ hsum
  unfold batchTotal settlementRecords Table.select
  rw [(((List.perm_insertionSort _ _).filter _).map _).sum_eq, List.filter_filter]
  simp only [Bool.decide_and, Bool.and_comm]

/-- **Totals of a matched report**: what is observed is what is expected, and is every row. -/
theorem totals_matched (imported : Imported batch db)
    (matched : ∀ p ∈ paymentsThrough db batch.cutoff,
      (comparison db batch.cutoff (settlementRecords db batch.id) p).classification = .matched) :
    ∀ total ∈ totalsOf db batch.cutoff (settlementRecords db batch.id)
        (paymentsThrough db batch.cutoff) [],
      total.observed = total.expected ∧ total.observed = batchTotal db batch.id total.currency := by
  intro total mem
  obtain ⟨hexpected, hobserved, hnodup⟩ := sums_totalsOf db batch.cutoff
    (settlementRecords db batch.id) total.currency (paymentsThrough db batch.cutoff) []
  obtain ⟨hE, hO⟩ := sums_of_mem (hnodup List.nodup_nil) mem
  rw [hexpected] at hE
  rw [hobserved] at hO
  have heach : ∀ p ∈ paymentsThrough db batch.cutoff, _ := fun p hp =>
    observedOf_matched total.currency (matched p hp)
  constructor
  · rw [← hO, ← hE, List.map_congr_left fun p hp => (heach p hp).1]
    rfl
  · rw [← hO, batchTotal_eq imported, List.map_congr_left fun p hp => (heach p hp).2]
    simp [observedIn]

/-- **The report of a batch**, where every payment has an event. -/
theorem reconcileBatch_lines (batch : SettlementBatchRecord)
    (events : ∀ p ∈ db.payments.rows, db.eventsOf p.id ≠ []) :
    ∃ items, reconcileBatch db batch = .ok
        { batchId := batch.id
          cutoff := batch.cutoff
          items := items
          summary := summarize items (totalsOf db batch.cutoff (settlementRecords db batch.id)
            (paymentsThrough db batch.cutoff) []) } ∧
      List.Forall₂ (IsLine db batch.cutoff (settlementRecords db batch.id))
        (paymentsThrough db batch.cutoff) items := by
  have hlatest : ∀ p ∈ paymentsThrough db batch.cutoff, ∃ latest,
      latestEvent db p.id = some latest := by
    intro p mem
    obtain ⟨event, hevent⟩ :=
      List.exists_mem_of_ne_nil _ (events p (mem_paymentsThrough.mp mem).1)
    exact latestEvent_of_mem hevent
  obtain ⟨items, hitems, lines⟩ := reconcileEach_eq batch.cutoff
    (settlementRecords db batch.id) (paymentsThrough db batch.cutoff) [] hlatest
  refine ⟨items, ?_, lines⟩
  unfold reconcileBatch
  rw [hitems]
  rfl

/-- **The report of an imported batch.** -/
theorem reconcileBatch_eq (imported : Imported batch db)
    (events : ∀ p ∈ db.payments.rows, db.eventsOf p.id ≠ []) :
    ∃ report, reconcileBatch db batch = .ok report ∧
      (report.summary.status = .matched ↔
        ∀ p ∈ db.payments.rows, p.createdAt ≤ batch.cutoff → Clean db batch p) ∧
      (report.summary.status = .matched → ∀ total ∈ report.summary.currencyTotals,
        total.netDiscrepancy = 0 ∧
          total.observedSettlementTotal = batchTotal db batch.id total.currency) := by
  obtain ⟨items, hreport, lines⟩ := reconcileBatch_lines batch events
  have hlatest : ∀ p ∈ paymentsThrough db batch.cutoff, ∃ latest,
      latestEvent db p.id = some latest := by
    intro p mem
    obtain ⟨_, _, latest, hlatest, _⟩ := Lists.forall₂_left lines mem
    exact ⟨latest, hlatest⟩
  have hstatus : ∀ totals, (summarize items totals).status = .matched ↔ allMatched items = true := by
    intro totals
    unfold summarize
    dsimp only
    split <;> simp_all
  refine ⟨_, hreport, ?_, ?_⟩
  · rw [hstatus, allMatched_lines lines]
    constructor
    · intro h p hp hcutoff
      have hmem := mem_paymentsThrough.mpr ⟨hp, hcutoff⟩
      obtain ⟨latest, hl⟩ := hlatest p hmem
      exact (line_matched hl).mp (h p hmem latest hl)
    · intro h p hmem latest hl
      obtain ⟨hp, hcutoff⟩ := mem_paymentsThrough.mp hmem
      exact (line_matched hl).mpr (h p hp hcutoff)
  · intro h total mem
    rw [hstatus, allMatched_lines lines] at h
    obtain ⟨running, hrunning, rfl⟩ := List.mem_map.mp mem
    have hin := (List.mem_insertionSort currencyOrder).mp hrunning
    obtain ⟨hequal, hall⟩ := totals_matched imported (fun p hp => by
      obtain ⟨latest, hl⟩ := hlatest p hp
      exact (h p hp latest hl).1) running hin
    refine ⟨?_, hall⟩
    show running.observed - running.expected = 0
    omega

end Exact

/-- **A clean reconciliation is exact.** In every store that keeps an imported batch and has an event
for each payment, the report is matched exactly when every payment created by the cutoff is clean;
and then the totals of each currency agree and leave out no row of the batch. -/
theorem reconciliation_exact {db₀ db : Database} (grounded : SettlementsGrounded db₀)
    {cutoff now : Instant} {entries : List SettlementInput} {batchHex : String}
    {draws : Nat → String} {batch : SettlementBatchRecord} {s : DatabaseSession}
    (imported : createSettlementBatch cutoff entries now batchHex draws (Session.start db₀ ∅) =
      (.ok batch, s))
    (kept : KeepsBatch batch s.committed db)
    (events : ∀ p ∈ db.payments.rows, db.eventsOf p.id ≠ []) :
    ∃ report, reconcileSettlementBatch db batch.id = .ok report ∧
      (report.summary.status = .matched ↔
        ∀ p ∈ db.payments.rows, p.createdAt ≤ cutoff → Clean db batch p) ∧
      (report.summary.status = .matched → ∀ total ∈ report.summary.currencyTotals,
        total.netDiscrepancy = 0 ∧
          total.observedSettlementTotal = batchTotal db batch.id total.currency) := by
  obtain ⟨hcutoff, himported⟩ := createSettlementBatch_eq_ok grounded imported
  have hlater := kept.imported himported
  unfold reconcileSettlementBatch
  rw [hlater.stored, ← hcutoff]
  exact reconcileBatch_eq hlater events

/-- **In a store that an execution reached**, the view of a clean payment is at the version of its
latest event. -/
theorem Execution.clean_iff_exact {ι : Type} [DecidableEq ι] {sha256 : String → String}
    {ts : List (Pool.Transition Database ι (Option Client))}
    {v : Pool.World Database ι (Option Client)} (h : Execution sha256 ts v)
    {batch : SettlementBatchRecord} {p : PaymentRecord}
    (stored : v.shared.payments.get p.id = some p) :
    Clean v.shared batch p ↔ Exact v.shared batch p := by
  constructor
  · intro clean
    obtain ⟨latest, _, hlatest, _, hversion, _⟩ := h.producerStore.latest p stored
    exact clean.exact (latestEvent_spec hlatest) hversion
  · intro exact
    exact exact.1

/-! ## A view ahead of its events -/

/-- A payment after its capture. -/
def soldPayment : PaymentRecord :=
  { id := "pay_1", merchantReference := "order-1", amount := 1000, currency := .usd
    status := .captured, paymentFlow := .synchronous, paymentReference := none
    expiresAt := none, declineReason := none, authorizedAmount := 1000, capturedAmount := 1000
    refundedAmount := 0, version := 2, createdAt := 0, updatedAt := 1 }

/-- An event of it. -/
def soldEvent (version : Nat) : WebhookEventRecord :=
  { createOutboxEvent soldPayment .captured "1" with aggregateVersion := version }

/-- A store whose only event of the payment has a version, processed, under a view of version 2. -/
def soldStore (version : Nat) : Database :=
  { Database.empty with
    payments := ((Table.empty paymentSchema).insert soldPayment).getD ∅
    ledgerEntries := ((((Table.empty ledgerSchema).insert
      { id := "led_1", paymentId := "pay_1", operation := "AUTHORIZATION", amount := 1000
        currency := .usd, createdAt := 0 }).getD ∅).insert
      { id := "led_2", paymentId := "pay_1", operation := "CAPTURE", amount := 1000
        currency := .usd, createdAt := 1 }).getD ∅
    webhookEvents := ((Table.empty webhookEventSchema).insert (soldEvent version)).getD ∅
    processedWebhooks := ((Table.empty processedWebhookSchema).insert
      { eventId := (soldEvent version).id, paymentId := "pay_1", eventType := .captured
        aggregateVersion := version, payloadHash := "", disposition := .applied
        versionGap := false, processedAt := 1 }).getD ∅
    merchantProjections := ((Table.empty merchantProjectionSchema).insert
      { paymentId := "pay_1", merchantReference := "order-1", amount := 1000, currency := .usd
        status := .captured, paymentFlow := .synchronous, paymentReference := none
        expiresAt := none, declineReason := none, authorizedAmount := 1000, capturedAmount := 1000
        refundedAmount := 0, aggregateVersion := 2, lastEventId := (soldEvent version).id
        updatedAt := 1 }).getD ∅ }

/-- The import of one row for it, and the batch it creates. -/
def soldImport (version : Nat) : Except ServiceError SettlementBatchRecord × DatabaseSession :=
  createSettlementBatch 1 [{ paymentId := "pay_1", amount := 1000, currency := .usd }] 1 "1"
    (fun _ => "1") (Session.start (soldStore version) ∅)

def soldBatch : SettlementBatchRecord := { id := "setb_1", cutoff := 1, createdAt := 1 }

theorem soldImport_eq (version : Nat) (h : version = 1 ∨ version = 2) :
    soldImport version = (.ok soldBatch, (soldImport version).2) := by
  rcases h with rfl | rfl <;> rfl

/-- The store after the import. -/
def soldAfter (version : Nat) : Database := (soldImport version).2.committed

theorem soldAfter_kept (version : Nat) :
    KeepsBatch soldBatch (soldAfter version) (soldAfter version) where
  stored := rfl
  rows := fun _ _ => Iff.rfl
  payments := fun _ p h => ⟨p, h, rfl⟩

/-- The status of the report on it. -/
def soldStatus (version : Nat) : Option ReconciliationStatus :=
  (reconcileSettlementBatch (soldAfter version) soldBatch.id).toOption.map fun r => r.summary.status

/-- With its event at version 2, the batch is matched, every payment is clean and no total is off. -/
theorem soldBatch_exact : ∃ report,
    reconcileSettlementBatch (soldAfter 2) soldBatch.id = .ok report ∧
      report.summary.status = .matched ∧
      (∀ p ∈ (soldAfter 2).payments.rows, p.createdAt ≤ 1 → Clean (soldAfter 2) soldBatch p) ∧
      ∀ total ∈ report.summary.currencyTotals, total.netDiscrepancy = 0 := by
  have hstatus : soldStatus 2 = some .matched := by decide +kernel
  have hrows : (soldAfter 2).payments.rows = [soldPayment] := by decide +kernel
  obtain ⟨report, hreport, hiff, htotals⟩ := reconciliation_exact
    (by simp [SettlementsGrounded, soldStore, Database.empty]) (soldImport_eq 2 (.inr rfl))
    (soldAfter_kept 2) (by
      rw [hrows]
      simp only [List.forall_mem_singleton]
      decide +kernel)
  have hmatched : report.summary.status = .matched := by
    unfold soldStatus at hstatus
    rw [hreport] at hstatus
    simpa [Except.toOption] using hstatus
  exact ⟨report, hreport, hmatched, hiff.mp hmatched, fun total mem => (htotals hmatched total mem).1⟩

/-- With its only event at version 1, the batch is matched too: the view is not at the version of
the latest event. -/
theorem soldBatch_ahead : soldImport 1 = (.ok soldBatch, (soldImport 1).2) ∧
    (∀ p ∈ (soldAfter 1).payments.rows, (soldAfter 1).eventsOf p.id ≠ []) ∧
    soldStatus 1 = some .matched ∧
    ¬∀ p ∈ (soldAfter 1).payments.rows, p.createdAt ≤ 1 → Exact (soldAfter 1) soldBatch p := by
  have hrows : (soldAfter 1).payments.rows = [soldPayment] := by decide +kernel
  refine ⟨soldImport_eq 1 (.inl rfl), ?_, by decide +kernel, fun exact => ?_⟩
  · rw [hrows]
    simp only [List.forall_mem_singleton]
    decide +kernel
  · rw [hrows] at exact
    obtain ⟨_, projection, latest, hview, ⟨hevent, _⟩, hversion⟩ :=
      exact soldPayment List.mem_cons_self (by decide)
    have hprojection : ((soldAfter 1).merchantProjections.get soldPayment.id).map
        (·.aggregateVersion) = some 2 := by decide +kernel
    have hevents : ∀ event ∈ (soldAfter 1).webhookEvents.rows, event.aggregateVersion = 1 := by
      decide +kernel
    rw [hview, Option.map_some, Option.some.injEq] at hprojection
    have hlatest := hevents latest (mem_eventsOf.mp hevent).1
    omega

end PaymentLab
