import PaymentLab.Laws.Ledger
import PaymentLab.Laws.Reconciliation

/-!
# Nothing lost, nothing invented

What the report of an imported batch accounts for, in every later store: one line for each payment
created by the cutoff, every row of the batch in the line of its payment and in no other, every line
in one class, and totals by currency that are sums over the lines (`Complete`).

The report is made of one store, whatever has happened since the import: the batch and its rows are
the ones that were imported (`KeepsBatch`), the payments and their views are those of the store it
is made of. A later report of the same batch may class a payment differently; that no line is lost
holds of each of them.
-/

namespace PaymentLab

open Relational Transactional Transactional.Service

/-! ## Orders -/

theorem string_lt_of_le_of_ne {a b : String} (h : a ≤ b) (hne : a ≠ b) : a < b := by
  by_contra hlt
  exact hne (String.le_antisymm h (String.not_lt.mp hlt))

instance : Std.Total lineOrder := ⟨fun a b => Nat.le_total a.lineNumber b.lineNumber⟩

instance : IsTrans SettlementRecord lineOrder := ⟨fun _ _ _ hab hbc => Nat.le_trans hab hbc⟩

instance : Std.Total fun a b : PaymentRecord => a.id ≤ b.id := ⟨fun a b => String.le_total a.id b.id⟩

instance : IsTrans PaymentRecord fun a b => a.id ≤ b.id := ⟨fun _ _ _ hab hbc => String.le_trans hab hbc⟩

/-! ## What a report accounts for -/

/-- The rows of a batch for one payment, in the order of their lines. -/
def linesOf (db : Database) (batchId paymentId : String) : List SettlementRecord :=
  settlementsOf (settlementRecords db batchId) paymentId

/-- What the lines of a payment add to the observed total of a currency: the amount of the first one,
where that has the currency. -/
def firstAmount (c : Currency) (lines : List SettlementRecord) : Int :=
  match lines.head? with
  | some row => if row.currency = c then row.amount else 0
  | none => 0

/-- A report that loses nothing of a batch and invents nothing, against the store it is made of. It
says where every payment and every row of the batch stands and what the totals sum over; whether a
line is rightly classified is not its concern but that of the classification. -/
structure Complete (db : Database) (batch : SettlementBatchRecord) (report : ReconciliationReport) :
    Prop where
  /-- one line for each payment created by the cutoff, by identity -/
  payments : (report.items.map (·.paymentId)).Pairwise (· < ·) ∧
    ∀ id, id ∈ report.items.map (·.paymentId) ↔
      ∃ p, db.payments.get id = some p ∧ p.createdAt ≤ batch.cutoff
  /-- each line shows the rows of its payment, in the order of their lines -/
  shown : ∀ item ∈ report.items,
    item.observedSettlementAmounts = (linesOf db batch.id item.paymentId).map (·.amount) ∧
      item.observedSettlementCurrencies = (linesOf db batch.id item.paymentId).map (·.currency) ∧
      item.settlementRecordCount = (linesOf db batch.id item.paymentId).length
  inOrder : ∀ id, (linesOf db batch.id id).Pairwise fun a b => a.lineNumber < b.lineNumber
  /-- each row of the batch is shown, and by one line only -/
  placed : ∀ row ∈ rowsOf db batch.id, ∃! item, item ∈ report.items ∧
    row ∈ linesOf db batch.id item.paymentId
  counted : (report.items.map (·.settlementRecordCount)).sum = (rowsOf db batch.id).length
  classified : report.summary.matchedCount + report.summary.missingCount +
      report.summary.duplicatedCount + report.summary.amountMismatchedCount =
    report.summary.paymentCount ∧ report.summary.paymentCount = report.items.length
  /-- one total for each currency of a payment or of a first row, and for no currency twice -/
  currencies : (report.summary.currencyTotals.map (·.currency)).Nodup ∧
    ∀ item ∈ report.items, item.currency ∈ report.summary.currencyTotals.map (·.currency) ∧
      ∀ row, (linesOf db batch.id item.paymentId).head? = some row →
        row.currency ∈ report.summary.currencyTotals.map (·.currency)
  totals : ∀ total ∈ report.summary.currencyTotals,
    total.expectedSettlementTotal = (report.items.map fun item =>
        if item.currency = total.currency then item.expectedSettlementAmount else 0).sum ∧
      total.observedSettlementTotal = (report.items.map fun item =>
        firstAmount total.currency (linesOf db batch.id item.paymentId)).sum ∧
      total.netDiscrepancy = total.observedSettlementTotal - total.expectedSettlementTotal

section Complete

variable {db : Database} {batch : SettlementBatchRecord}

theorem mem_linesOf {batchId paymentId : String} {row : SettlementRecord} :
    row ∈ linesOf db batchId paymentId ↔ row ∈ rowsOf db batchId ∧ row.paymentId = paymentId := by
  unfold linesOf settlementsOf rowsOf
  simp [mem_settlementRecords]

/-- The lines of a payment are in the order of their numbers, which no two rows of a batch share. -/
theorem linesOf_pairwise (db : Database) (batchId paymentId : String) :
    (linesOf db batchId paymentId).Pairwise fun a b => a.lineNumber < b.lineNumber := by
  unfold linesOf settlementsOf
  refine List.Pairwise.sublist List.filter_sublist
    (Lists.pairwise_strict (fun _ _ => Nat.lt_of_le_of_ne) ?_ ?_)
  · exact List.pairwise_insertionSort lineOrder _
  · unfold settlementRecords Table.select
    rw [((List.perm_insertionSort _ _).map _).nodup_iff]
    apply List.pairwise_map.mpr
    refine List.Pairwise.imp_of_mem ?_ (db.settlementRecords.distinct.sublist List.filter_sublist)
    intro a b ha hb apart hline
    have hbatch : a.batchId = b.batchId :=
      (of_decide_eq_true (List.mem_filter.mp ha).2).trans
        (of_decide_eq_true (List.mem_filter.mp hb).2).symm
    have hclash : settlementRecordSchema.clash a b = true := decide_eq_true ⟨hbatch, hline⟩
    rw [apart.2] at hclash
    cases hclash

/-- A comparison shows the lines it is given in their order. -/
theorem comparison_lines (db : Database) (cutoff : Instant) (batchId : String) (p : PaymentRecord) :
    (comparison db cutoff (settlementRecords db batchId) p).observedAmounts =
        (linesOf db batchId p.id).map (·.amount) ∧
      (comparison db cutoff (settlementRecords db batchId) p).observedCurrencies =
        (linesOf db batchId p.id).map (·.currency) := by
  have sorted : (linesOf db batchId p.id).insertionSort lineOrder = linesOf db batchId p.id :=
    ((linesOf_pairwise db batchId p.id).imp fun h => Nat.le_of_lt h).insertionSort_eq
  unfold linesOf at sorted ⊢
  unfold comparison classifySettlement
  simp [sorted]

theorem observedOf_eq (cutoff : Instant) (batchId : String) (c : Currency) (p : PaymentRecord) :
    observedOf db cutoff (settlementRecords db batchId) c p =
      firstAmount c (linesOf db batchId p.id) := by
  obtain ⟨hamounts, hcurrencies⟩ := comparison_lines db cutoff batchId p
  have hcanonical : (comparison db cutoff (settlementRecords db batchId) p).canonicalObservedAmount =
      (comparison db cutoff (settlementRecords db batchId) p).observedAmounts.headD 0 := rfl
  unfold observedOf firstAmount
  rw [hcanonical, hamounts, hcurrencies]
  cases linesOf db batchId p.id with
  | nil => rfl
  | cons row rest => rfl

/-- Every currency that the loop meets has a total. -/
theorem mem_totalsOf (cutoff : Instant) (records : List SettlementRecord) (c : Currency) :
    ∀ (payments : List PaymentRecord) (totals : List RunningTotal),
      (c ∈ totals.map (·.currency) ∨ ∃ p ∈ payments, p.currency = c ∨
        (comparison db cutoff records p).observedCurrencies.head? = some c) →
      c ∈ (totalsOf db cutoff records payments totals).map (·.currency) := by
  intro payments
  induction payments with
  | nil =>
    intro totals h
    simpa [totalsOf] using h
  | cons p rest ih =>
    intro totals h
    apply ih
    have added : (c ∈ totals.map (·.currency) ∨ p.currency = c ∨
        (comparison db cutoff records p).observedCurrencies.head? = some c) →
        c ∈ (addPayment totals p.currency (expectedAmount db cutoff p)
          (comparison db cutoff records p)).map (·.currency) := by
      intro h
      unfold addPayment
      dsimp only
      cases hhead : (comparison db cutoff records p).observedCurrencies.head? with
      | none =>
        rw [hhead] at h
        rw [mem_addTotals]
        rcases h with h | rfl | h
        · exact .inr h
        · exact .inl rfl
        · cases h
      | some first =>
        rw [hhead] at h
        rw [mem_addTotals, mem_addTotals]
        rcases h with h | rfl | h
        · exact .inr (.inr h)
        · exact .inr (.inl rfl)
        · cases h
          exact .inl rfl
    rcases h with h | ⟨q, mem, h⟩
    · exact .inl (added (.inl h))
    · rcases List.mem_cons.mp mem with rfl | mem
      · exact .inl (added (.inr h))
      · exact .inr ⟨q, mem, h⟩

/-- Every line is in one of the four classes. -/
theorem classifiedCount_sum (items : List ReconciliationItem) :
    classifiedCount items .matched + classifiedCount items .missing +
      classifiedCount items .duplicated + classifiedCount items .amountMismatched =
        items.length := by
  unfold classifiedCount
  induction items with
  | nil => rfl
  | cons item rest ih =>
    simp only [List.map_cons, List.count_cons, List.length_cons]
    cases item.settlementClassification <;> simp <;> omega

/-- **The rows of an imported batch are those of the payments created by its cutoff.** -/
theorem rowsOf_length (imported : Imported batch db) :
    (((paymentsThrough db batch.cutoff).map fun p => (linesOf db batch.id p.id).length).sum) =
      (rowsOf db batch.id).length := by
  have cover : ∀ row ∈ settlementRecords db batch.id,
      row.paymentId ∈ (paymentsThrough db batch.cutoff).map (·.id) := by
    intro row mem
    obtain ⟨hrow, hid⟩ := mem_settlementRecords.mp mem
    obtain ⟨p, hp, hcutoff⟩ := imported.rows row hrow hid
    obtain ⟨hmem, hkey⟩ := Table.get_eq_some hp
    exact List.mem_map.mpr ⟨p, mem_paymentsThrough.mpr ⟨hmem, hcutoff⟩, hkey⟩
  have hsum := Lists.sum_by_key SettlementRecord.paymentId (fun _ => 1)
    (paymentsThrough_nodup db batch.cutoff) cover
  have hrows : (settlementRecords db batch.id).length = (rowsOf db batch.id).length :=
    (List.perm_insertionSort _ _).length_eq
  rw [List.map_map] at hsum
  simpa [linesOf, settlementsOf, Function.comp_def, hrows] using hsum.symm

/-- A row of the batch is shown by the line of its payment, and by no other. -/
theorem line_unique {items : List ReconciliationItem} (imported : Imported batch db)
    (hids : items.map (·.paymentId) = (paymentsThrough db batch.cutoff).map (·.id))
    {row : SettlementRecord} (mem : row ∈ rowsOf db batch.id) :
    ∃! item, item ∈ items ∧ row ∈ linesOf db batch.id item.paymentId := by
  obtain ⟨hrow, hbatch⟩ := List.mem_filter.mp mem
  obtain ⟨p, hp, hcutoff⟩ := imported.rows row hrow (of_decide_eq_true hbatch)
  obtain ⟨hmem, hkey⟩ := Table.get_eq_some hp
  have hid : row.paymentId ∈ items.map (·.paymentId) := by
    rw [hids]
    exact List.mem_map.mpr ⟨p, mem_paymentsThrough.mpr ⟨hmem, hcutoff⟩, hkey⟩
  obtain ⟨item, hitem, heq⟩ := List.mem_map.mp hid
  refine ⟨item, ⟨hitem, mem_linesOf.mpr ⟨mem, heq.symm⟩⟩, ?_⟩
  rintro other ⟨hother, hline⟩
  have nodup : (items.map (·.paymentId)).Nodup := hids ▸ paymentsThrough_nodup db batch.cutoff
  exact List.inj_on_of_nodup_map nodup hother hitem ((mem_linesOf.mp hline).2.symm.trans heq.symm)

/-- **The report of an imported batch is complete.** -/
theorem reconcileBatch_complete (imported : Imported batch db)
    (events : ∀ p ∈ db.payments.rows, db.eventsOf p.id ≠ []) :
    ∃ report, reconcileBatch db batch = .ok report ∧ Complete db batch report := by
  obtain ⟨items, hreport, lines⟩ := reconcileBatch_lines batch events
  have hids : items.map (·.paymentId) = (paymentsThrough db batch.cutoff).map (·.id) := by
    refine (Lists.forall₂_map_eq lines ?_).symm
    rintro p _ ⟨_, _, rfl⟩
    rfl
  have hshown : ∀ p item, IsLine db batch.cutoff (settlementRecords db batch.id) p item →
      item.observedSettlementAmounts = (linesOf db batch.id item.paymentId).map (·.amount) ∧
        item.observedSettlementCurrencies = (linesOf db batch.id item.paymentId).map (·.currency) ∧
        item.settlementRecordCount = (linesOf db batch.id item.paymentId).length := by
    rintro p _ ⟨latest, _, rfl⟩
    obtain ⟨hamounts, hcurrencies⟩ := comparison_lines db batch.cutoff batch.id p
    refine ⟨hamounts, hcurrencies, ?_⟩
    have hcount := congrArg List.length hamounts
    rwa [List.length_map] at hcount
  have hlines : ∀ item ∈ items, ∃ p, p ∈ paymentsThrough db batch.cutoff ∧
      IsLine db batch.cutoff (settlementRecords db batch.id) p item := by
    intro item mem
    obtain ⟨p, hp, line⟩ := Lists.forall₂_right lines mem
    exact ⟨p, hp, line⟩
  have hnodup : ((totalsOf db batch.cutoff (settlementRecords db batch.id)
      (paymentsThrough db batch.cutoff) []).map (·.currency)).Nodup :=
    (sums_totalsOf db batch.cutoff (settlementRecords db batch.id) .usd
      (paymentsThrough db batch.cutoff) []).2.2 List.nodup_nil
  have hcurrencies : ((summarize items (totalsOf db batch.cutoff (settlementRecords db batch.id)
      (paymentsThrough db batch.cutoff) [])).currencyTotals.map (·.currency)).Perm
        ((totalsOf db batch.cutoff (settlementRecords db batch.id)
          (paymentsThrough db batch.cutoff) []).map (·.currency)) := by
    unfold summarize
    rw [List.map_map]
    exact (List.perm_insertionSort _ _).map _
  refine ⟨_, hreport, ⟨?_, ?_⟩, ?_, linesOf_pairwise db batch.id, ?_, ?_,
    ⟨classifiedCount_sum items, rfl⟩, ⟨hcurrencies.nodup_iff.mpr hnodup, ?_⟩, ?_⟩
  · rw [hids]
    apply List.pairwise_map.mpr
    exact Lists.pairwise_strict (fun _ _ => string_lt_of_le_of_ne)
      (List.pairwise_insertionSort (fun a b : PaymentRecord => a.id ≤ b.id) _)
      (paymentsThrough_nodup db batch.cutoff)
  · intro id
    rw [hids]
    constructor
    · intro mem
      obtain ⟨p, hp, rfl⟩ := List.mem_map.mp mem
      obtain ⟨hrow, hcutoff⟩ := mem_paymentsThrough.mp hp
      exact ⟨p, Table.get_of_mem hrow, hcutoff⟩
    · rintro ⟨p, hp, hcutoff⟩
      obtain ⟨hrow, hkey⟩ := Table.get_eq_some hp
      exact List.mem_map.mpr ⟨p, mem_paymentsThrough.mpr ⟨hrow, hcutoff⟩, hkey⟩
  · intro item mem
    obtain ⟨p, _, line⟩ := hlines item mem
    exact hshown p item line
  · intro row mem
    exact line_unique imported hids mem
  · have hcounts := Lists.forall₂_map_eq lines (f := fun p => (linesOf db batch.id p.id).length)
      (g := (·.settlementRecordCount)) (by
        rintro p item line
        rw [(hshown p item line).2.2]
        obtain ⟨_, _, rfl⟩ := line
        rfl)
    rw [← hcounts]
    exact rowsOf_length imported
  · intro item mem
    obtain ⟨p, hp, _, _, rfl⟩ := hlines item mem
    simp only [hcurrencies.mem_iff]
    constructor
    · exact mem_totalsOf _ _ _ _ _ (.inr ⟨p, hp, .inl rfl⟩)
    · intro row hrow
      apply mem_totalsOf
      refine .inr ⟨p, hp, .inr ?_⟩
      rw [(comparison_lines db batch.cutoff batch.id p).2, List.head?_map]
      exact congrArg (Option.map (·.currency)) hrow
  · intro total mem
    obtain ⟨running, hrunning, rfl⟩ := List.mem_map.mp mem
    have hin := (List.mem_insertionSort currencyOrder).mp hrunning
    obtain ⟨hexpected, hobserved, _⟩ := sums_totalsOf db batch.cutoff
      (settlementRecords db batch.id) running.currency (paymentsThrough db batch.cutoff) []
    obtain ⟨hE, hO⟩ := sums_of_mem hnodup hin
    rw [hexpected] at hE
    rw [hobserved] at hO
    refine ⟨?_, ?_, rfl⟩
    · refine hE.symm.trans ?_
      rw [Lists.forall₂_map_eq lines (g := fun item =>
        if item.currency = running.currency then item.expectedSettlementAmount else 0)
          (by rintro p _ ⟨_, _, rfl⟩; rfl)]
      exact zero_add _
    · refine hO.symm.trans ?_
      rw [Lists.forall₂_map_eq lines (g := fun item =>
        firstAmount running.currency (linesOf db batch.id item.paymentId))
          (by rintro p _ ⟨_, _, rfl⟩; exact observedOf_eq batch.cutoff batch.id running.currency p)]
      exact zero_add _

end Complete

/-- **Reconciliation loses and invents nothing.** Along every execution, an import of which anything
is refused raises and changes nothing; one that answers stores every row, and in every later store
the report of its batch is complete. -/
theorem nothing_lost {ι : Type} [DecidableEq ι] {sha256 : String → String}
    {ts : List (Pool.Transition Database ι (Option Client))}
    {u : Pool.World Database ι (Option Client)} (h : Accounted sha256 ts u)
    {t : Pool.Transition Database ι (Option Client)} (mem : t ∈ ts)
    {cutoff now : Instant} {entries : List SettlementInput} {batchHex : String}
    {draws : Nat → String} {r : Except ServiceError SettlementBatchRecord} {s : DatabaseSession}
    (call : createSettlementBatch cutoff entries now batchHex draws (Session.start t.pre ∅) = (r, s))
    (post : t.post = s.committed) :
    (Refused cutoff now entries batchHex draws t.pre → ∃ e, r = .error e) ∧
      (∀ e, r = .error e → t.post = t.pre) ∧
      ∀ batch, r = .ok batch → batch.cutoff = cutoff ∧
        rowsOf u.shared batch.id = settlementRows batch.id now draws entries 1 ∧
        ∃ report, reconcileSettlementBatch u.shared batch.id = .ok report ∧
          Complete u.shared batch report := by
  rcases createSettlementBatch_cases call with ⟨e, rfl, same⟩ | ⟨batch, rfl, result⟩
  · exact ⟨fun _ => ⟨e, rfl⟩, fun _ _ => post.trans same, fun _ hok => by cases hok⟩
  · refine ⟨fun refused => absurd refused result.not_refused, ?_, ?_⟩
    · intro e herror
      cases herror
    intro _ hok
    cases hok
    obtain ⟨w, initial, run⟩ := h
    obtain ⟨before, after, v, rfl, first, enabled, later⟩ := run.split mem
    have imported : Accounted sha256 (before ++ [t]) (v.apply t) := ⟨w, initial, first.snoc enabled⟩
    have reached : Accounted sha256 (before ++ t :: after) u := ⟨w, initial, run⟩
    have grounded : SettlementsGrounded t.pre := by
      rw [enabled.1]
      exact Accounted.grounded ⟨w, initial, first⟩
    rw [← post] at result
    have himported := result.imported grounded
    obtain ⟨hstored, hrows, hkept⟩ := imported.keepsBatch later himported.stored
    have hlater : Imported batch u.shared := by
      refine ⟨hstored, fun row hrow hbatch => ?_⟩
      have hmem : row ∈ rowsOf u.shared batch.id :=
        List.mem_filter.mpr ⟨hrow, decide_eq_true hbatch⟩
      rw [hrows] at hmem
      obtain ⟨p, hp, hcutoff⟩ := himported.rows row (List.mem_filter.mp hmem).1 hbatch
      obtain ⟨q, hq, hidentity⟩ := hkept row.paymentId p hp
      exact ⟨q, hq, by rw [hidentity.createdAt]; exact hcutoff⟩
    have events : ∀ p ∈ u.shared.payments.rows, u.shared.eventsOf p.id ≠ [] := by
      intro p hp hnone
      obtain ⟨latest, _, hlatest, _⟩ :=
        reached.execution.producerStore.latest p (Table.get_of_mem hp)
      have hevent := (latestEvent_spec hlatest).1
      rw [hnone] at hevent
      cases hevent
    refine ⟨by rw [result.header], hrows.trans (result.rowsOf grounded), ?_⟩
    unfold reconcileSettlementBatch
    rw [hstored]
    exact reconcileBatch_complete hlater events

/-! ## An order and its batch -/

/-- The store an authorization leaves. -/
def orderedStore : Database :=
  (order.call (fun _ => "") (Session.start .empty ∅)).2.committed

/-- The import of one row for it. -/
def orderImport : Except ServiceError SettlementBatchRecord × DatabaseSession :=
  createSettlementBatch 0 [{ paymentId := "pay_1", amount := 400, currency := .jpy }] 1 "1"
    (fun _ => "1") (Session.start orderedStore ∅)

/-- A client and an environment on an empty store. -/
def orderWorld : Pool.World Database Bool (Option Client) :=
  { shared := .empty
    threads := fun client => if client then some ⟨order, ∅, .ready⟩ else none }

/-- The step of the environment that imports the row. -/
def importStep : Pool.Transition Database Bool (Option Client) :=
  { thread := false, pre := orderedStore, before := none, post := orderImport.2.committed
    after := none }

/-- The order, then the import of its row. -/
theorem importStep_accounted : ∃ ts v, Accounted (fun _ => "") (ts ++ [importStep]) v ∧
    v.shared = orderImport.2.committed := by
  have acts : Relation.ReflTransGen (Acts fun _ => "") (orderWorld.shared, ⟨order, ∅, .ready⟩) _ :=
    Client.runs_call rfl
  obtain ⟨ts, v, run, hshared, _, hother⟩ := runs_acts (i := true)
    (R := fun db db' => (Background db db' ∧ SameSettlements db db') ∨ Imports db db') rfl acts
  refine ⟨ts, v.apply importStep, ⟨orderWorld, ⟨rfl, ?_⟩, run.snoc ⟨hshared.symm, ?_, ?_⟩⟩, rfl⟩
  · intro i client hclient
    cases i with
    | true =>
      cases hclient
      exact ⟨rfl, rfl⟩
    | false => cases hclient
  · exact (hother false (by decide)).symm
  · exact .environment (.inr (.call rfl))

/-- The row of another currency is in the report of its payment. -/
theorem orderImport_complete : ∃ batch report u,
    reconcileSettlementBatch u batch.id = .ok report ∧ Complete u batch report ∧
      rowsOf u batch.id ≠ [] := by
  obtain ⟨ts, v, accounted, hshared⟩ := importStep_accounted
  obtain ⟨_, _, complete⟩ := nothing_lost accounted
    (List.mem_append_right _ (List.mem_singleton.mpr rfl)) (show orderImport = _ from rfl) rfl
  have hok : orderImport.1 = .ok { id := "setb_1", cutoff := 0, createdAt := 1 } := by decide +kernel
  obtain ⟨_, hrows, report, hreport, hcomplete⟩ := complete _ hok
  exact ⟨_, report, _, hreport, hcomplete, by rw [hrows]; simp [settlementRows]⟩

end PaymentLab
