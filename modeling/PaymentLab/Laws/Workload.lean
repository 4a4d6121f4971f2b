import PaymentLab.Laws.Retries
import PaymentLab.Laws.Verifier
import PaymentLab.Performance.Workload

/-!
# The rows of a load

The rows a load leaves are those of its creations (`CreatedBy`), in the order they were committed. Where
these are the expected payments of a profile, one for each, every comparison of the verifier is one of
two lists up to order, and passes (`checks_passed`).

Up to order is all that is needed, and all that can be had: the payments of a load are committed in
whatever order the requests are handled, and each check compares counts, sets or totals. The queries
of the verifier select by a pattern of the run, so that it matters that the rows are those of one
load and of nothing else.
-/

namespace PaymentLab

open Relational Tally Api

/-! ## The rows of a creation -/

/-- An expected payment that was created: its row, and what its other rows hold beside it. -/
structure Creation (runId profile : String) where
  expected : ExpectedPayment
  payment : PaymentRecord
  ledgerHex : String
  eventHex : String
  fingerprint : String
  claimedAt : Instant
  reference : payment.merchantReference = reference runId profile expected
  amount : payment.amount = expected.amount
  currency : payment.currency = expected.currency
  status : payment.status = expected.status
  authorized : payment.authorizedAmount = if expected.approved then expected.amount else 0
  captured : payment.capturedAmount = 0
  refunded : payment.refundedAmount = 0
  version : payment.version = 1

namespace Creation

variable {runId profile : String} (c : Creation runId profile)

/-- Its ledger entry. -/
def entry : Option LedgerEntryRecord := authorizationEntry c.payment c.ledgerHex

/-- Its event. -/
def event : WebhookEventRecord := createOutboxEvent c.payment c.expected.eventType c.eventHex

/-- Its idempotency record. -/
def record : IdempotencyRecord :=
  completedClaim (newClaim (idempotencyKey runId profile c.expected) c.fingerprint "AUTHORIZE"
    c.claimedAt) c.payment

end Creation

theorem ExpectedPayment.amount_pos (e : ExpectedPayment) : 0 < e.amount := by
  unfold amount
  split <;> decide

namespace Creation

variable {runId profile : String} (c : Creation runId profile)

/-- An approval has an entry, of its payment. -/
theorem entry_approved (approved : c.expected.approved = true) :
    ∃ entry, c.entry = some entry ∧ entry.paymentId = c.payment.id ∧
      entry.operation = "AUTHORIZATION" ∧ entry.amount = c.payment.authorizedAmount ∧
      entry.currency = c.payment.currency := by
  have hamount : c.payment.authorizedAmount ≠ 0 := by
    rw [c.authorized, if_pos approved]
    exact ne_of_gt c.expected.amount_pos
  exact ⟨_, if_pos hamount, rfl, rfl, rfl, rfl⟩

theorem entry_declined (declined : c.expected.approved = false) : c.entry = none := by
  have hamount : c.payment.authorizedAmount = 0 := by
    rw [c.authorized, declined]
    rfl
  exact if_neg (not_not.mpr hamount)

theorem entry_isSome : c.entry.isSome = c.expected.approved := by
  cases happroved : c.expected.approved with
  | true =>
    obtain ⟨entry, hentry, _⟩ := c.entry_approved happroved
    rw [hentry]
    rfl
  | false =>
    rw [c.entry_declined happroved]
    rfl

/-- An entry is of its payment, with its amount. -/
theorem of_entry {entry : LedgerEntryRecord} (h : c.entry = some entry) :
    entry.paymentId = c.payment.id ∧ entry.operation = "AUTHORIZATION" ∧
      entry.amount = c.payment.authorizedAmount ∧ entry.currency = c.payment.currency := by
  cases happroved : c.expected.approved with
  | true =>
    obtain ⟨found, hfound, fields⟩ := c.entry_approved happroved
    cases h.symm.trans hfound
    exact fields
  | false =>
    rw [c.entry_declined happroved] at h
    cases h

theorem isInitial_payment : isInitial c.payment = true := by
  refine isInitial_iff.mpr ⟨⟨c.version, c.captured⟩, c.refunded, ?_⟩
  rw [c.status, c.authorized, c.amount]
  unfold ExpectedPayment.status
  cases c.expected.approved with
  | true => exact .inl ⟨rfl, rfl⟩
  | false => exact .inr ⟨rfl, rfl⟩

/-- What is expected of a payment in its currency is what its row and its entry add to it. -/
theorem total_expected (j : String) : total j [c.expected.totals] =
    total j [c.payment.totals] + total j (c.entry.toList.map LedgerEntryRecord.totals) := by
  have hcurrency : c.payment.totals.1 = c.expected.totals.1 := congrArg Currency.value c.currency
  cases happroved : c.expected.approved with
  | true =>
    obtain ⟨entry, hentry, _, _, hamount, hcurrency'⟩ := c.entry_approved happroved
    have hkey : entry.totals.1 = c.expected.totals.1 :=
      congrArg Currency.value (hcurrency'.trans c.currency)
    rw [hentry, Option.toList_some, List.map_singleton, total_cons, total_cons, total_cons, hcurrency,
      hkey]
    by_cases hj : c.expected.totals.1 = j
    · simp only [if_pos hj]
      unfold ExpectedPayment.totals PaymentRecord.totals LedgerEntryRecord.totals
      ext <;> simp [happroved, c.amount, c.authorized, hamount, total]
    · simp only [if_neg hj]
      rfl
  | false =>
    rw [c.entry_declined happroved, total_cons, total_cons, hcurrency]
    by_cases hj : c.expected.totals.1 = j
    · simp only [if_pos hj]
      unfold ExpectedPayment.totals PaymentRecord.totals
      ext <;> simp [happroved, c.amount, c.authorized, total]
    · simp only [if_neg hj]
      rfl

end Creation

/-! ## The rows of a load -/

/-- The rows of a store are those of some creations. -/
structure CreatedBy {runId profile : String} (cs : List (Creation runId profile)) (db : Database) :
    Prop where
  payments : db.payments.rows = cs.map (·.payment)
  ledgers : db.ledgerEntries.rows = cs.filterMap (·.entry)
  records : db.idempotencyRecords.rows = cs.map (·.record)
  events : db.webhookEvents.rows = cs.map (·.event)

section Rows

variable {runId profile : String} {cs : List (Creation runId profile)} {db : Database}

/-- The rows the verifier reads of some creations. -/
def creationRows (cs : List (Creation runId profile)) : RunRows where
  payments := cs.map (·.payment)
  ledgers := cs.filterMap (·.entry)
  idempotencyRecords := cs.map (·.record)
  webhooks := cs.map (·.event)

theorem mem_entries {entry : LedgerEntryRecord} (h : entry ∈ cs.filterMap (·.entry)) :
    ∃ c ∈ cs, c.entry = some entry := List.mem_filterMap.mp h

/-- The verifier reads the rows of the creations, and no others. -/
theorem CreatedBy.readRun_eq (h : CreatedBy cs db) : readRun db runId profile = creationRows cs := by
  have hpayments : (db.payments.select fun p =>
      like (runPrefix runId profile ++ "%") p.merchantReference) = cs.map (·.payment) := by
    rw [← h.payments]
    refine List.filter_eq_self.mpr fun p mem => ?_
    rw [h.payments] at mem
    obtain ⟨c, _, rfl⟩ := List.mem_map.mp mem
    rw [c.reference]
    exact reference_like runId profile c.expected
  have hids : ∀ c ∈ cs, ((cs.map (·.payment)).map (·.id)).contains c.payment.id = true := by
    intro c mem
    rw [List.contains_iff_mem]
    exact List.mem_map_of_mem (List.mem_map_of_mem mem)
  unfold readRun creationRows
  dsimp only
  rw [hpayments]
  congr 1
  · refine (restricted LedgerEntryRecord.paymentId _ db.ledgerEntries.rows).trans ?_
    rw [h.ledgers]
    refine List.filter_eq_self.mpr fun entry mem => ?_
    obtain ⟨c, mem, hentry⟩ := mem_entries mem
    rw [(c.of_entry hentry).1]
    exact hids c mem
  · rw [← h.records]
    refine List.filter_eq_self.mpr fun record mem => ?_
    rw [h.records] at mem
    obtain ⟨c, _, rfl⟩ := List.mem_map.mp mem
    exact idempotencyKey_like runId profile c.expected
  · refine (restricted WebhookEventRecord.paymentId _ db.webhookEvents.rows).trans ?_
    rw [h.events]
    refine List.filter_eq_self.mpr fun event mem => ?_
    obtain ⟨c, hc, rfl⟩ := List.mem_map.mp mem
    exact hids c hc

/-- Each creation has a payment of its own. -/
theorem CreatedBy.ids_nodup (h : CreatedBy cs db) : (cs.map (·.payment.id)).Nodup := by
  have hrows : (db.payments.rows.map (·.id)).Nodup :=
    List.pairwise_map.mpr (db.payments.distinct.imp fun hab => hab.1)
  rw [h.payments, List.map_map] at hrows
  exact hrows

/-- Each creation has an expected payment of its own. -/
theorem CreatedBy.expected_nodup (h : CreatedBy cs db) : (cs.map (·.expected)).Nodup := by
  have hrows : (db.idempotencyRecords.rows.map (·.key)).Nodup :=
    List.pairwise_map.mpr (db.idempotencyRecords.distinct.imp fun hab => hab.1)
  rw [h.records, List.map_map] at hrows
  refine List.Nodup.of_map (idempotencyKey runId profile) ?_
  rw [List.map_map]
  exact hrows

end Rows

/-! ## The checks of the verifier -/

/-- A list of ones and zeros, up to order. -/
theorem perm_indicator {α : Type} (p : α → Bool) (xs : List α) :
    (xs.map fun x => if p x = true then 1 else 0).Perm
      (List.replicate (xs.countP p) 1 ++ List.replicate (xs.length - xs.countP p) 0) := by
  induction xs with
  | nil => exact .refl _
  | cons x xs ih =>
    have hle : xs.countP p ≤ xs.length := List.countP_le_length
    rw [List.map_cons, List.countP_cons, List.length_cons]
    by_cases hx : p x = true
    · rw [if_pos hx, List.replicate_succ, Nat.add_sub_add_right]
      exact ih.cons 1
    · rw [if_neg hx, Nat.add_zero, Nat.succ_sub hle, List.replicate_succ]
      exact (ih.cons 0).trans List.perm_middle.symm

/-- Counts that are the same up to order are sorted to the same list. -/
theorem sortCounts_eq {a b : List Nat} (h : a.Perm b) : sortCounts a = sortCounts b :=
  List.Perm.eq_of_pairwise (fun _ _ _ _ => le_antisymm) (List.pairwise_insertionSort _ a)
    (List.pairwise_insertionSort _ b)
    (((sortCounts_perm a).trans h).trans (sortCounts_perm b).symm)

/-- A check of one value among rows that all have it. -/
theorem counter_of_all {α κ : Type} [DecidableEq κ] {value : α → κ} {k : κ} {rows : List α}
    (all : ∀ r ∈ rows, value r = k) (positive : 0 < rows.length) :
    counter (rows.map value) = [(k, rows.length)] := by
  rw [List.map_congr_left all, List.map_const']
  exact counter_replicate positive k

section Checks

variable {runId profile : String} {cs : List (Creation runId profile)} {db : Database}

/-- The entries are those of the approvals. -/
theorem entries_payments (cs : List (Creation runId profile)) :
    (cs.filterMap (·.entry)).map (·.paymentId) =
      (cs.filter (·.expected.approved)).map (·.payment.id) := by
  induction cs with
  | nil => rfl
  | cons c cs ih =>
    cases happroved : c.expected.approved with
    | true =>
      obtain ⟨entry, hentry, hid, _⟩ := c.entry_approved happroved
      rw [List.filterMap_cons_some hentry, List.filter_cons, if_pos happroved, List.map_cons,
        List.map_cons, ih, hid]
    | false =>
      rw [List.filterMap_cons_none (c.entry_declined happroved), List.filter_cons, if_neg, ih]
      rw [happroved]
      exact Bool.false_ne_true

/-- Every entry matches the payment it is of. -/
theorem matching_of_creations (nodup : (cs.map (·.payment.id)).Nodup) {entry : LedgerEntryRecord}
    (mem : entry ∈ cs.filterMap (·.entry)) : matchesPayment (creationRows cs) entry = true := by
  obtain ⟨c, hc, hentry⟩ := mem_entries mem
  obtain ⟨hid, hoperation, hamount, hcurrency⟩ := c.of_entry hentry
  have hfind : (creationRows cs).payments.find?
      (fun payment => decide (payment.id = entry.paymentId)) = some c.payment := by
    have hsome : ((cs.map (·.payment)).find?
        fun payment => decide (payment.id = entry.paymentId)).isSome = true :=
      List.find?_isSome.mpr ⟨c.payment, List.mem_map_of_mem hc, decide_eq_true hid.symm⟩
    obtain ⟨p, hp⟩ := Option.isSome_iff_exists.mp hsome
    obtain ⟨other, hother, rfl⟩ := List.mem_map.mp (List.mem_of_find?_eq_some hp)
    have hfound := List.find?_some hp
    have hsame : other.payment.id = entry.paymentId := of_decide_eq_true hfound
    have heq : other = c := List.inj_on_of_nodup_map nodup hother hc (hsame.trans hid)
    rw [heq] at hp
    exact hp
  unfold matchesPayment
  rw [hfind, hoperation]
  simp only [hamount, hcurrency, decide_true, Bool.and_self]

/-- Every payment has its initial values. -/
theorem initial_of_creations (cs : List (Creation runId profile)) :
    (creationRows cs).payments.countP isInitial = cs.length := by
  unfold creationRows
  rw [List.countP_eq_length.mpr, List.length_map]
  intro p mem
  obtain ⟨c, _, rfl⟩ := List.mem_map.mp mem
  exact c.isInitial_payment

theorem paymentIds_of_creations (cs : List (Creation runId profile)) :
    (creationRows cs).paymentIds = cs.map (·.payment.id) := by
  unfold RunRows.paymentIds creationRows
  rw [List.map_map]
  rfl

/-- Every record is the completed one of a payment. -/
theorem completed_of_creations (cs : List (Creation runId profile)) :
    (creationRows cs).idempotencyRecords.countP (isCompletedRecord (creationRows cs)) =
      cs.length := by
  have completed : ∀ record ∈ (creationRows cs).idempotencyRecords,
      isCompletedRecord (creationRows cs) record = true := by
    intro record mem
    obtain ⟨c, hc, rfl⟩ := List.mem_map.mp mem
    unfold isCompletedRecord
    simp only [Bool.and_eq_true]
    refine ⟨⟨rfl, ?_⟩, rfl⟩
    show (creationRows cs).paymentIds.contains c.payment.id = true
    rw [paymentIds_of_creations, List.contains_iff_mem]
    exact List.mem_map_of_mem hc
  rw [List.countP_eq_length.mpr completed]
  exact List.length_map _

theorem recordedIds_of_creations (cs : List (Creation runId profile)) :
    recordedIds (creationRows cs) = cs.map (·.payment.id) := by
  unfold recordedIds creationRows
  rw [List.filterMap_map]
  exact congrFun List.filterMap_eq_map cs

/-- Every event is of the first version of its payment. -/
theorem eventVersions_of_creations (cs : List (Creation runId profile)) :
    eventVersions (creationRows cs) = cs.map fun c => (c.payment.id, 1) := by
  unfold eventVersions creationRows
  rw [List.map_map]
  exact List.map_congr_left fun c _ => congrArg (Prod.mk c.payment.id) c.version

theorem pending_of_creations {event : WebhookEventRecord}
    (mem : event ∈ (creationRows cs).webhooks) : event.status.value = "PENDING" := by
  obtain ⟨c, _, rfl⟩ := List.mem_map.mp mem
  rfl

theorem operation_of_creations {entry : LedgerEntryRecord}
    (mem : entry ∈ (creationRows cs).ledgers) : entry.operation = "AUTHORIZATION" := by
  obtain ⟨c, _, hentry⟩ := mem_entries mem
  exact (c.of_entry hentry).2.1

variable {expected : List ExpectedPayment} (perm : (cs.map (·.expected)).Perm expected)

include perm

theorem length_of_perm : cs.length = expected.length := by
  rw [← perm.length_eq, List.length_map]

theorem approved_of_perm : cs.countP (·.expected.approved) = approvedCount expected := by
  unfold approvedCount
  rw [← perm.countP_eq, List.countP_map]
  rfl

/-- What every creation has as its expected payment does, the rows have as the profile does. -/
theorem map_perm {α : Type} {observed : Creation runId profile → α}
    {value : ExpectedPayment → α} (same : ∀ c, observed c = value c.expected) :
    (expected.map value).Perm (cs.map observed) := by
  rw [funext same]
  refine ((perm.map value).symm).trans ?_
  rw [List.map_map]
  exact .refl _

theorem entries_length : (cs.filterMap (·.entry)).length = approvedCount expected := by
  rw [List.length_filterMap_eq_countP, ← approved_of_perm perm]
  exact List.countP_congr fun c _ => by rw [c.entry_isSome]

/-- An approval has one entry, and a declined payment none. -/
theorem shape_of_perm (nodup : (cs.map (·.payment.id)).Nodup) :
    expectedLedgerShape expected = observedLedgerShape (creationRows cs) := by
  have hcounts : (cs.map (·.payment)).map (fun payment =>
      ((cs.filterMap (·.entry)).map (·.paymentId)).count payment.id) =
        cs.map fun c => if c.expected.approved = true then 1 else 0 := by
    rw [List.map_map, entries_payments]
    refine List.map_congr_left fun c mem => ?_
    have distinct : ((cs.filter (·.expected.approved)).map (·.payment.id)).Nodup :=
      nodup.sublist (List.filter_sublist.map _)
    show List.count c.payment.id _ = _
    by_cases happroved : c.expected.approved = true
    · rw [if_pos happroved]
      refine List.count_eq_one_of_mem distinct ?_
      exact List.mem_map.mpr ⟨c, List.mem_filter.mpr ⟨mem, happroved⟩, rfl⟩
    · rw [if_neg happroved]
      refine List.count_eq_zero.mpr fun hmem => happroved ?_
      obtain ⟨other, hother, hid⟩ := List.mem_map.mp hmem
      obtain ⟨hother, approved⟩ := List.mem_filter.mp hother
      rw [← List.inj_on_of_nodup_map nodup hother mem hid]
      exact approved
  unfold expectedLedgerShape observedLedgerShape
  simp only [lookup_counter]
  refine sortCounts_eq ?_
  have hshape := perm_indicator (fun c : Creation runId profile => c.expected.approved) cs
  rw [approved_of_perm perm, length_of_perm perm] at hshape
  refine hshape.symm.trans ?_
  rw [← hcounts]
  exact .refl _

/-- The totals of the rows are those the profile expects. -/
theorem totals_of_perm (j : String) : total j (expected.map ExpectedPayment.totals) =
    total j ((cs.map (·.payment)).map PaymentRecord.totals ++
      (cs.filterMap (·.entry)).map LedgerEntryRecord.totals) := by
  rw [← total_perm (perm.map ExpectedPayment.totals) j, total_append]
  clear perm
  induction cs with
  | nil => rfl
  | cons c cs ih =>
    have hentries : ((c :: cs).filterMap (·.entry)).map LedgerEntryRecord.totals =
        c.entry.toList.map LedgerEntryRecord.totals ++
          (cs.filterMap (·.entry)).map LedgerEntryRecord.totals := by
      cases hentry : c.entry with
      | none => rw [List.filterMap_cons_none hentry]; rfl
      | some entry => rw [List.filterMap_cons_some hentry]; rfl
    show total j ([c.expected.totals] ++ _) = total j ([c.payment.totals] ++ _) + _
    rw [hentries, total_append, total_append, total_append, ih, c.total_expected]
    exact add_add_add_comm _ _ _ _

/-- So the totals are of the same currencies. -/
theorem currencies_of_perm (j : String) : j ∈ (expected.map ExpectedPayment.totals).map (·.1) ↔
    j ∈ ((cs.map (·.payment)).map PaymentRecord.totals ++
      (cs.filterMap (·.entry)).map LedgerEntryRecord.totals).map (·.1) := by
  have hmem : j ∈ expected.map (fun e => e.totals.1) ↔ j ∈ cs.map fun c => c.payment.totals.1 :=
    (map_perm perm fun c => congrArg Currency.value c.currency).mem_iff
  rw [List.map_map, List.map_append, List.map_map, List.map_map, List.map_map, List.mem_append]
  refine ⟨fun h => .inl (hmem.mp h), ?_⟩
  rintro (h | h)
  · exact hmem.mpr h
  · obtain ⟨entry, mem, rfl⟩ := List.mem_map.mp h
    obtain ⟨c, hc, hentry⟩ := mem_entries mem
    obtain ⟨_, _, _, hcurrency⟩ := c.of_entry hentry
    refine hmem.mpr (List.mem_map.mpr ⟨c, hc, ?_⟩)
    exact congrArg Currency.value hcurrency.symm

/-- **Creations of all a profile expects pass every check.** -/
theorem checks_passed (nodup : (cs.map (·.payment.id)).Nodup) (approvals : 0 < approvedCount expected) :
    (verificationChecks expected (creationRows cs) runId profile).all (·.passed) = true := by
  have hlength := length_of_perm perm
  have hentries : (creationRows cs).ledgers.length = approvedCount expected := entries_length perm
  have hwebhooks : (creationRows cs).webhooks.length = expected.length :=
    (List.length_map _).trans hlength
  have hids := paymentIds_of_creations cs
  simp only [verificationChecks, check, privateCheck, Evidence.same, List.all_cons, List.all_nil,
    Bool.and_true, Bool.and_eq_true, beq_iff_eq, List.isPerm_iff, sameSet_iff]
  refine ⟨?_, ?_, ?_, ?_, ?_, ?_, ?_, ?_, ?_, ?_, ?_, ?_, ?_, ?_, ?_, ?_, ?_⟩
  · rw [← hlength]
    exact (List.length_map _).symm
  · intro x
    unfold creationRows
    rw [List.map_map]
    exact (map_perm perm fun c => c.reference).mem_iff
  · unfold creationRows
    rw [List.map_map]
    refine counter_of_perm (map_perm perm fun c => ?_)
    exact congrArg PaymentStatus.value c.status
  · rw [initial_of_creations, hlength]
  · exact hentries.symm
  · exact shape_of_perm perm nodup
  · rw [counter_of_all (fun entry => operation_of_creations) (hentries ▸ approvals), hentries]
  · rw [← hentries]
    exact List.countP_eq_length.mpr fun entry mem => matching_of_creations nodup mem
  · rw [← hlength]
    exact (List.length_map _).symm
  · rw [completed_of_creations, hlength]
  · intro x
    unfold creationRows
    rw [List.map_map]
    exact (map_perm perm fun c => rfl).mem_iff
  · intro x
    rw [hids, recordedIds_of_creations]
  · exact hwebhooks.symm
  · have some_webhooks : 0 < (creationRows cs).webhooks.length := by
      rw [hwebhooks]
      exact approvals.trans_le List.countP_le_length
    rw [counter_of_all (fun event => pending_of_creations) some_webhooks, hwebhooks]
  · unfold creationRows
    rw [List.map_map]
    exact counter_of_perm (map_perm perm fun c => rfl)
  · intro x
    rw [hids, eventVersions_of_creations, List.map_map]
    rfl
  · refine (sortItems_perm _).trans (.trans ?_ (sortItems_perm _).symm)
    exact tally_perm (currencies_of_perm perm) (totals_of_perm perm)

end Checks

end PaymentLab
