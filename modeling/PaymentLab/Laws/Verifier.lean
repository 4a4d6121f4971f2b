import Mathlib.Algebra.Group.Prod
import Mathlib.Data.List.Infix
import PaymentLab.Laws.Idempotency
import PaymentLab.Performance.Verifier
import PaymentLab.Services.Outbox

/-!
# What a passed verification says

The checks compare counts, sets and totals. Together they settle, for every expected reference, one
payment with its own ledger effect, event and idempotency record; which of the profile's amounts,
outcomes and keys a payment has, they settle in total. `verified` is the whole; a profile of one
payment leaves nothing open.

The rows are those that the queries return, from any store; that they come from a load is not
assumed. So a passed verification says this much whatever produced the rows, and no more:
`exchanged_verified` is a store in which two payments of a profile have exchanged their values, and
the verification passes.
-/

namespace PaymentLab

open Relational Tally

/-! ## Patterns and prefixes -/

/-- A text matches the pattern of its own prefix. -/
theorem likeChars_prefix (front rest : List Char) :
    likeChars (front ++ ['%']) (front ++ rest) = true := by
  induction front with
  | nil => exact List.any_eq_true.mpr ⟨[], (List.mem_tails [] rest).mpr List.nil_suffix, rfl⟩
  | cons c front ih =>
    by_cases hpercent : c = '%'
    · subst hpercent
      exact List.any_eq_true.mpr
        ⟨front ++ rest, (List.mem_tails _ _).mpr (List.suffix_cons '%' _), ih⟩
    · by_cases hunderscore : c = '_'
      · subst hunderscore
        exact ih
      · simp [likeChars, ih]

theorem like_prefix (front rest : String) : like (front ++ "%") (front ++ rest) = true := by
  unfold like
  rw [String.toList_append, String.toList_append]
  exact likeChars_prefix front.toList rest.toList

theorem reference_like (runId profile : String) (e : ExpectedPayment) :
    like (runPrefix runId profile ++ "%") (reference runId profile e) = true := by
  unfold reference
  rw [String.append_assoc, String.append_assoc]
  exact like_prefix _ _

theorem idempotencyKey_like (runId profile : String) (e : ExpectedPayment) :
    like (runPrefix runId profile ++ "%") (idempotencyKey runId profile e) = true := by
  unfold idempotencyKey
  rw [String.append_assoc, String.append_assoc, String.append_assoc]
  exact like_prefix _ _

/-! ## The checks as facts -/

theorem PaymentStatus.value_injective : Function.Injective PaymentStatus.value := by
  intro a b h
  cases a <;> cases b <;> first | rfl | exact absurd h (by decide)

theorem WebhookEventType.value_injective : Function.Injective WebhookEventType.value := by
  intro a b h
  cases a <;> cases b <;> first | rfl | exact absurd h (by decide)

/-- What the checks say of the rows when all of them pass. -/
structure Agreement (expected : List ExpectedPayment) (rows : RunRows) (runId profile : String) :
    Prop where
  payments : rows.payments.length = expected.length
  references : ∀ x, x ∈ expected.map (reference runId profile) ↔
    x ∈ rows.payments.map (·.merchantReference)
  statuses : (expected.map (·.status)).Perm (rows.payments.map (·.status))
  initial : ∀ p ∈ rows.payments, isInitial p = true
  ledgers : rows.ledgers.length = approvedCount expected
  shape : (rows.payments.map fun p => (rows.ledgers.map (·.paymentId)).count p.id).Perm
    (List.replicate (approvedCount expected) 1 ++
      List.replicate (expected.length - approvedCount expected) 0)
  matching : ∀ entry ∈ rows.ledgers, matchesPayment rows entry = true
  records : rows.idempotencyRecords.length = expected.length
  completed : ∀ r ∈ rows.idempotencyRecords, isCompletedRecord rows r = true
  keys : ∀ x, x ∈ expected.map (idempotencyKey runId profile) ↔
    x ∈ rows.idempotencyRecords.map (·.key)
  recorded : ∀ x, x ∈ rows.paymentIds ↔ x ∈ recordedIds rows
  webhooks : rows.webhooks.length = expected.length
  eventTypes : (expected.map (·.eventType)).Perm (rows.webhooks.map (·.eventType))
  versions : ∀ x, x ∈ rows.paymentIds.map (fun id => (id, 1)) ↔ x ∈ eventVersions rows
  totals : ∀ j, total j (expected.map ExpectedPayment.totals) =
    total j (rows.payments.map PaymentRecord.totals ++ rows.ledgers.map LedgerEntryRecord.totals)

theorem sortItems_perm {ν : Type} (items : List (String × ν)) : (sortItems items).Perm items :=
  List.perm_insertionSort _ _

theorem sortCounts_perm (counts : List Nat) : (sortCounts counts).Perm counts :=
  List.perm_insertionSort _ _

/-- **The checks, read as facts.** -/
theorem agreement_of_passed {expected : List ExpectedPayment} {rows : RunRows}
    {runId profile : String}
    (h : (verificationChecks expected rows runId profile).all (·.passed) = true) :
    Agreement expected rows runId profile := by
  simp only [verificationChecks, check, privateCheck, Evidence.same, List.all_cons, List.all_nil,
    Bool.and_true, Bool.and_eq_true, beq_iff_eq, List.isPerm_iff, sameSet_iff] at h
  obtain ⟨hpayments, hreferences, hstatuses, hinitial, hledgers, hshape, _, hmatching, hrecords,
    hcompleted, hkeys, hrecorded, hwebhooks, _, heventTypes, hversions, htotals⟩ := h
  have hvalues := perm_of_same_counter hstatuses
  have htypes := perm_of_same_counter heventTypes
  refine
    { payments := hpayments.symm
      references := hreferences
      statuses := ?_
      initial := forall_of_countP_eq (hinitial.trans hpayments)
      ledgers := hledgers.symm
      shape := ?_
      matching := forall_of_countP_eq (hmatching.trans hledgers)
      records := hrecords.symm
      completed := forall_of_countP_eq (hcompleted.trans hrecords)
      keys := hkeys
      recorded := hrecorded
      webhooks := hwebhooks.symm
      eventTypes := ?_
      versions := hversions
      totals := ?_ }
  · refine (List.map_perm_map_iff PaymentStatus.value_injective).mp ?_
    rw [List.map_map, List.map_map]
    exact hvalues
  · have hsorted : (observedLedgerShape rows).Perm (expectedLedgerShape expected) :=
      hshape ▸ List.Perm.refl _
    have hobserved : (rows.payments.map fun p => (rows.ledgers.map (·.paymentId)).count p.id).Perm
        (observedLedgerShape rows) := by
      simp only [observedLedgerShape, lookup_counter]
      exact (sortCounts_perm _).symm
    exact (hobserved.trans hsorted).trans (sortCounts_perm _)
  · refine (List.map_perm_map_iff WebhookEventType.value_injective).mp ?_
    rw [List.map_map, List.map_map]
    exact htypes
  · intro j
    exact total_eq_of_same
      ((sortItems_perm _).symm.trans (htotals.trans (sortItems_perm _))) j

/-! ## The rows of one payment -/

section Rows

variable {db : Database} {runId profile : String}

theorem mem_readRun_payments {p : PaymentRecord} :
    p ∈ (readRun db runId profile).payments ↔
      p ∈ db.payments.rows ∧ like (runPrefix runId profile ++ "%") p.merchantReference = true :=
  Table.mem_select

theorem readRun_ids_nodup : (readRun db runId profile).paymentIds.Nodup :=
  List.pairwise_map.mpr ((db.payments.distinct.filter _).imp fun hab => hab.1)

/-- The identity determines the payment of the run. -/
theorem eq_of_readRun_id {p q : PaymentRecord} (hp : p ∈ (readRun db runId profile).payments)
    (hq : q ∈ (readRun db runId profile).payments) (h : p.id = q.id) : p = q :=
  Table.eq_of_key_eq (mem_readRun_payments.mp hp).1 (mem_readRun_payments.mp hq).1 h

/-- The rows a query restricts to the payments of a run, with no query when there is none. -/
theorem restricted {α : Type} (paymentId : α → String) (ids : List String) (rows : List α) :
    (if ids.isEmpty then [] else rows.filter fun r => ids.contains (paymentId r)) =
      rows.filter fun r => ids.contains (paymentId r) := by
  cases ids with
  | nil => simp
  | cons id rest => rfl

/-- Among the restricted rows, those of one of the payments are all it has. -/
theorem filter_restricted {α : Type} {paymentId : α → String} {ids : List String} {id : String}
    (h : id ∈ ids) (rows : List α) :
    (rows.filter fun r => ids.contains (paymentId r)).filter (fun r => decide (paymentId r = id)) =
      rows.filter fun r => decide (paymentId r = id) := by
  rw [List.filter_filter]
  refine List.filter_congr fun r _ => ?_
  by_cases hr : paymentId r = id
  · simp [hr, h]
  · simp [hr]

theorem readRun_ledgerOf {p : PaymentRecord} (hp : p ∈ (readRun db runId profile).payments) :
    (readRun db runId profile).ledgers.filter (fun e => decide (e.paymentId = p.id)) =
      db.ledgerOf p.id := by
  have hrows : (readRun db runId profile).ledgers = db.ledgerEntries.rows.filter fun e =>
      (readRun db runId profile).paymentIds.contains e.paymentId :=
    restricted LedgerEntryRecord.paymentId _ _
  rw [hrows]
  exact filter_restricted (List.mem_map_of_mem hp) _

theorem readRun_eventsOf {p : PaymentRecord} (hp : p ∈ (readRun db runId profile).payments) :
    (readRun db runId profile).webhooks.filter (fun e => decide (e.paymentId = p.id)) =
      db.eventsOf p.id := by
  have hrows : (readRun db runId profile).webhooks = db.webhookEvents.rows.filter fun e =>
      (readRun db runId profile).paymentIds.contains e.paymentId :=
    restricted WebhookEventRecord.paymentId _ _
  rw [hrows]
  exact filter_restricted (List.mem_map_of_mem hp) _

/-- The ledger entries of a run are of its payments. -/
theorem mem_readRun_ledgers {entry : LedgerEntryRecord}
    (h : entry ∈ (readRun db runId profile).ledgers) :
    entry ∈ db.ledgerEntries.rows := by
  have hrows : (readRun db runId profile).ledgers = db.ledgerEntries.rows.filter fun e =>
      (readRun db runId profile).paymentIds.contains e.paymentId :=
    restricted LedgerEntryRecord.paymentId _ _
  rw [hrows] at h
  exact (List.mem_filter.mp h).1

end Rows

/-! ## One payment of a passed run -/

/-- The record under a key is a completed authorization of a payment: it is of the `AUTHORIZE`
operation, names the payment and holds the answer that a replay gives. What the held answer says,
and which request the fingerprint is of, the verifier does not read. -/
def CompletedUnder (db : Database) (key paymentId : String) : Prop :=
  ∃ r, db.idempotencyRecords.get key = some r ∧ r.operation = "AUTHORIZE" ∧
    r.paymentId = some paymentId ∧ r.responseSnapshot.isSome = true

/-- **What a passed verification settles of one payment** of the run, given the keys of the profile:
it is as its authorization left it, its ledger entry and event are its own and nothing else, and
exactly one of the keys is of its completed record.

What it does not establish is which expected payment it is. The outcome is one of the two an
authorization has, the amount and currency are the payment's own; that they are those of the
reference it carries is settled in total only, by `VerifiedRun`. -/
structure AccountedFor (db : Database) (keys : List String) (p : PaymentRecord) : Prop where
  version : p.version = 1
  captured : p.capturedAmount = 0
  refunded : p.refundedAmount = 0
  outcome : (p.status = .authorized ∧ p.authorizedAmount = p.amount) ∨
    (p.status = .declined ∧ p.authorizedAmount = 0)
  ledger : (db.ledgerOf p.id).map (fun e => (e.operation, e.amount, e.currency)) =
    if p.status = .authorized then [("AUTHORIZATION", p.amount, p.currency)] else []
  event : (db.eventsOf p.id).map (·.aggregateVersion) = [1]
  recorded : ∃ key ∈ keys, ∀ key' ∈ keys, CompletedUnder db key' p.id ↔ key' = key

section Passed

variable {db : Database} {expected : List ExpectedPayment} {runId profile : String}

/-- The outcome of an initial payment. -/
theorem isInitial_iff {p : PaymentRecord} :
    isInitial p = true ↔ (p.version = 1 ∧ p.capturedAmount = 0) ∧ p.refundedAmount = 0 ∧
      ((p.status = .authorized ∧ p.authorizedAmount = p.amount) ∨
        (p.status = .declined ∧ p.authorizedAmount = 0)) := by
  simp only [isInitial, Bool.and_eq_true, Bool.or_eq_true, decide_eq_true_eq, and_assoc]

/-- An entry that matches, beside the payment it is of. -/
theorem matchesPayment_of {entry : LedgerEntryRecord} {p : PaymentRecord}
    (h : matchesPayment (readRun db runId profile) entry = true)
    (hp : p ∈ (readRun db runId profile).payments) (hid : entry.paymentId = p.id) :
    entry.operation = "AUTHORIZATION" ∧ entry.amount = p.authorizedAmount ∧
      entry.currency = p.currency := by
  unfold matchesPayment at h
  obtain ⟨hoperation, hvalues⟩ := Bool.and_eq_true_iff.mp h
  cases hfind : (readRun db runId profile).payments.find? fun payment =>
      decide (payment.id = entry.paymentId) with
  | none =>
    rw [hfind] at hvalues
    cases hvalues
  | some q =>
    have hqid := List.find?_some hfind
    simp only [decide_eq_true_eq] at hqid
    have hq : q = p :=
      eq_of_readRun_id (List.mem_of_find?_eq_some hfind) hp (hqid.trans hid)
    rw [hfind] at hvalues
    simp only [Bool.and_eq_true, decide_eq_true_eq] at hoperation hvalues
    exact ⟨hoperation, hq ▸ hvalues.1, hq ▸ hvalues.2⟩

section Agreed

variable (h : Agreement expected (readRun db runId profile) runId profile)

include h

/-- The number of entries a payment of the run has. -/
theorem Agreement.ledger_count {p : PaymentRecord} (hp : p ∈ (readRun db runId profile).payments) :
    (db.ledgerOf p.id).length = if p.status = .authorized then 1 else 0 := by
  let rows := readRun db runId profile
  let entries : PaymentRecord → Nat := fun p => (rows.ledgers.map (·.paymentId)).count p.id
  have hentries : ∀ q ∈ rows.payments, (db.ledgerOf q.id).length = entries q := by
    intro q hq
    rw [← readRun_ledgerOf hq, ← List.countP_eq_length_filter]
    show _ = (rows.ledgers.map (·.paymentId)).count q.id
    rw [List.count_eq_countP, List.countP_map]
    exact List.countP_congr fun e _ => by simp
  -- an entry is of an authorized payment, because its amount is positive
  have hauthorized : ∀ q ∈ rows.payments, decide (entries q = 1) = true →
      decide (q.status = .authorized) = true := by
    intro q hq hone
    have hlength : (db.ledgerOf q.id).length = 1 := (hentries q hq).trans (of_decide_eq_true hone)
    obtain ⟨entry, hentry⟩ := List.length_eq_one_iff.mp hlength
    have hmem : entry ∈ rows.ledgers.filter fun e => decide (e.paymentId = q.id) := by
      rw [readRun_ledgerOf hq, hentry]
      exact List.mem_singleton.mpr rfl
    obtain ⟨hledger, hid⟩ := List.mem_filter.mp hmem
    obtain ⟨_, hamount, _⟩ := matchesPayment_of (h.matching entry hledger) hq (of_decide_eq_true hid)
    have hpositive : 0 < entry.amount :=
      of_decide_eq_true (db.ledgerEntries.checked entry (mem_readRun_ledgers hledger))
    obtain ⟨_, _, ⟨hstatus, _⟩ | ⟨_, hzero⟩⟩ := isInitial_iff.mp (h.initial q hq)
    · exact decide_eq_true hstatus
    · omega
  have hones : rows.payments.countP (fun q => decide (entries q = 1)) = approvedCount expected := by
    have hcount := h.shape.count_eq 1
    rw [List.count_append, List.count_replicate_self, List.count_replicate, if_neg (by decide),
      Nat.add_zero, List.count_eq_countP, List.countP_map] at hcount
    rw [← hcount]
    exact List.countP_congr fun q _ => by simp [entries, rows]
  have hstatuses : rows.payments.countP (fun q => decide (q.status = .authorized)) =
      approvedCount expected := by
    have hcount := h.statuses.count_eq PaymentStatus.authorized
    rw [List.count_eq_countP, List.count_eq_countP, List.countP_map, List.countP_map] at hcount
    refine Eq.trans ?_ (hcount.symm.trans ?_)
    · exact List.countP_congr fun q _ => by simp
    · exact List.countP_congr fun e _ => by cases ha : e.approved <;> simp [ExpectedPayment.status, ha]
  have honly := iff_of_countP_eq (hones.trans hstatuses.symm) hauthorized p hp
  rw [hentries p hp]
  by_cases hstatus : p.status = .authorized
  · rw [if_pos hstatus]
    exact of_decide_eq_true (honly (decide_eq_true hstatus))
  · rw [if_neg hstatus]
    have hmem : entries p ∈ List.replicate (approvedCount expected) 1 ++
        List.replicate (expected.length - approvedCount expected) 0 :=
      h.shape.mem_iff.mp (List.mem_map_of_mem hp)
    rcases List.mem_append.mp hmem with hone | hzero
    · exact absurd (of_decide_eq_true
        (hauthorized p hp (decide_eq_true (List.eq_of_mem_replicate hone)))) hstatus
    · exact List.eq_of_mem_replicate hzero

/-- The ledger of a payment of the run. -/
theorem Agreement.ledger {p : PaymentRecord} (hp : p ∈ (readRun db runId profile).payments) :
    (db.ledgerOf p.id).map (fun e => (e.operation, e.amount, e.currency)) =
      if p.status = .authorized then [("AUTHORIZATION", p.amount, p.currency)] else [] := by
  have hcount := h.ledger_count hp
  by_cases hstatus : p.status = .authorized
  · rw [if_pos hstatus] at hcount ⊢
    obtain ⟨entry, hentry⟩ := List.length_eq_one_iff.mp hcount
    have hmem : entry ∈ (readRun db runId profile).ledgers.filter fun e =>
        decide (e.paymentId = p.id) := by
      rw [readRun_ledgerOf hp, hentry]
      exact List.mem_singleton.mpr rfl
    obtain ⟨hledger, hid⟩ := List.mem_filter.mp hmem
    obtain ⟨hoperation, hamount, hcurrency⟩ :=
      matchesPayment_of (h.matching entry hledger) hp (of_decide_eq_true hid)
    obtain ⟨_, _, ⟨_, hauthorized⟩ | ⟨hdeclined, _⟩⟩ := isInitial_iff.mp (h.initial p hp)
    · simp only [hentry, List.map_singleton, hoperation, hamount, hauthorized, hcurrency]
    · rw [hstatus] at hdeclined
      cases hdeclined
  · rw [if_neg hstatus] at hcount ⊢
    rw [List.length_eq_zero_iff.mp hcount, List.map_nil]

/-- The events of the run are one for each payment, of version one. -/
theorem Agreement.versions_perm :
    (eventVersions (readRun db runId profile)).Perm
      ((readRun db runId profile).paymentIds.map fun id => (id, 1)) := by
  refine perm_of_same_set ?_ ?_ h.versions
  · exact readRun_ids_nodup.map fun _ _ heq => (Prod.mk.inj heq).1
  · simp only [eventVersions, RunRows.paymentIds, List.length_map, h.webhooks, h.payments]

theorem Agreement.event {p : PaymentRecord} (hp : p ∈ (readRun db runId profile).payments) :
    (db.eventsOf p.id).map (·.aggregateVersion) = [1] := by
  have hids : ((readRun db runId profile).webhooks.map (·.paymentId)).Perm
      (readRun db runId profile).paymentIds := by
    have hfirst := h.versions_perm.map Prod.fst
    rw [eventVersions, List.map_map, List.map_map] at hfirst
    simpa [Function.comp_def] using hfirst
  have honce : ((readRun db runId profile).webhooks.map (·.paymentId)).count p.id = 1 := by
    rw [hids.count_eq]
    exact List.count_eq_one_of_mem readRun_ids_nodup (List.mem_map_of_mem hp)
  obtain ⟨event, hmem, hid, hfilter⟩ := filter_eq_singleton honce
  have hversion : (event.paymentId, event.aggregateVersion) ∈
      (readRun db runId profile).paymentIds.map fun id => (id, 1) :=
    (h.versions _).mpr (List.mem_map_of_mem (f := fun event : WebhookEventRecord =>
      (event.paymentId, event.aggregateVersion)) hmem)
  obtain ⟨id, _, heq⟩ := List.mem_map.mp hversion
  rw [← readRun_eventsOf hp, hfilter, List.map_singleton, ← (Prod.mk.inj heq).2]

/-! ### Keys -/

/-- A record of the run is completed and names a payment of the run. -/
theorem Agreement.record_of {r : IdempotencyRecord}
    (hr : r ∈ (readRun db runId profile).idempotencyRecords) :
    r.operation = "AUTHORIZE" ∧ r.responseSnapshot.isSome = true ∧
      ∃ p ∈ (readRun db runId profile).payments, r.paymentId = some p.id := by
  have hcompleted := h.completed r hr
  simp only [isCompletedRecord, Bool.and_eq_true, decide_eq_true_eq] at hcompleted
  obtain ⟨⟨hoperation, hid⟩, hsnapshot⟩ := hcompleted
  cases hpayment : r.paymentId with
  | none =>
    rw [hpayment] at hid
    cases hid
  | some id =>
    rw [hpayment] at hid
    obtain ⟨p, hp, hpid⟩ := List.mem_map.mp (List.contains_iff_mem.mp hid)
    exact ⟨hoperation, hsnapshot, p, hp, by rw [← hpid]⟩

/-- The payments the records name are the payments of the run, each once. -/
theorem Agreement.named_perm :
    ((readRun db runId profile).idempotencyRecords.map (·.paymentId)).Perm
      ((readRun db runId profile).paymentIds.map some) := by
  refine perm_of_same_set (readRun_ids_nodup.map fun _ _ => Option.some.inj) ?_ fun x => ?_
  · simp only [RunRows.paymentIds, List.length_map, h.records, h.payments]
  · constructor
    · intro hx
      obtain ⟨id, hid, rfl⟩ := List.mem_map.mp hx
      obtain ⟨r, hr, hname⟩ := List.mem_filterMap.mp ((h.recorded id).mp hid)
      exact hname ▸ List.mem_map_of_mem hr
    · intro hx
      obtain ⟨r, hr, rfl⟩ := List.mem_map.mp hx
      obtain ⟨_, _, p, hp, hname⟩ := h.record_of hr
      rw [hname]
      exact List.mem_map_of_mem (List.mem_map_of_mem hp)

/-- A key of the profile is the key of a record of the run. -/
theorem Agreement.record_under {key : String} (hkey : key ∈ expected.map (idempotencyKey runId profile)) :
    ∃ r ∈ (readRun db runId profile).idempotencyRecords,
      db.idempotencyRecords.get key = some r := by
  obtain ⟨r, hr, hrkey⟩ := List.mem_map.mp ((h.keys key).mp hkey)
  exact ⟨r, hr, hrkey ▸ Table.get_of_mem (Table.mem_select.mp hr).1⟩

/-- A payment of the run is recorded under exactly one key of the profile. -/
theorem Agreement.recorded_once {p : PaymentRecord}
    (hp : p ∈ (readRun db runId profile).payments) :
    ∃ key ∈ expected.map (idempotencyKey runId profile),
      ∀ key' ∈ expected.map (idempotencyKey runId profile),
        CompletedUnder db key' p.id ↔ key' = key := by
  have honce : ((readRun db runId profile).idempotencyRecords.map (·.paymentId)).count
      (some p.id) = 1 := by
    rw [h.named_perm.count_eq]
    exact List.count_eq_one_of_mem (readRun_ids_nodup.map fun _ _ => Option.some.inj)
      (List.mem_map_of_mem (List.mem_map_of_mem hp))
  obtain ⟨r, hr, hname, hfilter⟩ := filter_eq_singleton honce
  have hkey : r.key ∈ expected.map (idempotencyKey runId profile) :=
    (h.keys r.key).mpr (List.mem_map_of_mem hr)
  refine ⟨r.key, hkey, fun key' hkey' => ⟨?_, ?_⟩⟩
  · rintro ⟨r', hget, _, hname', _⟩
    obtain ⟨r'', hmem, hget'⟩ := h.record_under hkey'
    cases hget.symm.trans hget'
    have hfiltered : r' ∈ (readRun db runId profile).idempotencyRecords.filter fun x =>
        decide (x.paymentId = some p.id) := List.mem_filter.mpr ⟨hmem, decide_eq_true hname'⟩
    rw [hfilter, List.mem_singleton] at hfiltered
    rw [← hfiltered]
    exact (Table.get_eq_some hget).2.symm
  · rintro rfl
    obtain ⟨hoperation, hsnapshot, _⟩ := h.record_of hr
    exact ⟨r, Table.get_of_mem (Table.mem_select.mp hr).1, hoperation, hname, hsnapshot⟩

/-! ### References -/

/-- A reference of the profile is of exactly one payment. -/
theorem Agreement.payment (numbered : WellNumbered expected) {e : ExpectedPayment}
    (he : e ∈ expected) :
    ∃ p ∈ (readRun db runId profile).payments,
      (db.payments.select fun p => decide (p.merchantReference = reference runId profile e)) = [p] := by
  have hperm : ((readRun db runId profile).payments.map (·.merchantReference)).Perm
      (expected.map (reference runId profile)) := by
    refine perm_of_same_set (numbered.references_nodup runId profile) ?_ h.references
    rw [List.length_map, List.length_map, h.payments]
  have honce : ((readRun db runId profile).payments.map (·.merchantReference)).count
      (reference runId profile e) = 1 := by
    rw [hperm.count_eq]
    exact List.count_eq_one_of_mem (numbered.references_nodup runId profile) (List.mem_map_of_mem he)
  obtain ⟨p, hp, _, hfilter⟩ := filter_eq_singleton honce
  refine ⟨p, hp, ?_⟩
  rw [← hfilter]
  show db.payments.rows.filter _ = (db.payments.rows.filter _).filter _
  rw [List.filter_filter]
  refine List.filter_congr fun q _ => ?_
  by_cases hq : q.merchantReference = reference runId profile e
  · simp [hq, reference_like]
  · simp [hq]

/-- **Every payment of a passed run is accounted for.** -/
theorem Agreement.accounted {p : PaymentRecord} (hp : p ∈ (readRun db runId profile).payments) :
    AccountedFor db (expected.map (idempotencyKey runId profile)) p := by
  obtain ⟨⟨hversion, hcaptured⟩, hrefunded, houtcome⟩ := isInitial_iff.mp (h.initial p hp)
  exact
    { version := hversion
      captured := hcaptured
      refunded := hrefunded
      outcome := houtcome
      ledger := h.ledger hp
      event := h.event hp
      recorded := h.recorded_once hp }

end Agreed

end Passed

/-! ## Totals -/

/-- The payments of one currency: how many, of what amount, of what authorized amount. -/
def currencyShare {α : Type} (currency : α → Currency) (amount authorized : α → Int) (c : Currency)
    (rows : List α) : Nat × Int × Int :=
  let own := rows.filter fun r => decide (currency r = c)
  (own.length, (own.map amount).sum, (own.map authorized).sum)

/-- The payment columns of the totals of a currency. -/
def CurrencyTotals.share (t : CurrencyTotals) : Nat × Int × Int :=
  (t.paymentCount, t.paymentMinorUnits, t.authorizedMinorUnits)

theorem share_add (a b : CurrencyTotals) : (a + b).share = a.share + b.share := rfl

/-- The totals a list of rows contributes to a currency. -/
theorem share_total {α : Type} {currency : α → Currency} {amount authorized : α → Int}
    {totals : α → String × CurrencyTotals}
    (key : ∀ r, (totals r).1 = (currency r).value)
    (share : ∀ r, (totals r).2.share = (1, amount r, authorized r)) (c : Currency) (rows : List α) :
    (total c.value (rows.map totals)).share = currencyShare currency amount authorized c rows := by
  induction rows with
  | nil => rfl
  | cons r rest ih =>
    rw [List.map_cons, total_cons, share_add, ih, key]
    by_cases hc : currency r = c
    · rw [if_pos (congrArg Currency.value hc), share]
      simp only [currencyShare, List.filter_cons, hc, decide_true, if_true, List.length_cons,
        List.map_cons, List.sum_cons, Prod.mk_add_mk, Nat.add_comm]
    · rw [if_neg fun heq => hc (Currency.value_injective heq)]
      simp only [currencyShare, List.filter_cons, hc, decide_false, Bool.false_eq_true, if_false]
      exact zero_add _

/-- Ledger entries add nothing to the payment columns. -/
theorem share_ledgers (j : String) (ledgers : List LedgerEntryRecord) :
    (total j (ledgers.map LedgerEntryRecord.totals)).share = 0 := by
  induction ledgers with
  | nil => rfl
  | cons e rest ih =>
    rw [List.map_cons, total_cons, share_add, ih, add_zero]
    split <;> rfl

/-- The authorized amount an expected payment reaches. -/
def ExpectedPayment.authorizedAmount (e : ExpectedPayment) : Int := if e.approved then e.amount else 0

theorem share_payments (c : Currency) (payments : List PaymentRecord) :
    (total c.value (payments.map PaymentRecord.totals)).share =
      currencyShare (·.currency) (·.amount) (·.authorizedAmount) c payments :=
  share_total (fun _ => rfl) (fun _ => rfl) c payments

theorem share_expected (c : Currency) (expected : List ExpectedPayment) :
    (total c.value (expected.map ExpectedPayment.totals)).share =
      currencyShare (·.currency) (·.amount) (·.authorizedAmount) c expected :=
  share_total (fun _ => rfl) (fun _ => rfl) c expected

/-- The payments of a run have the profile's number and amounts in each currency. -/
theorem Agreement.shares {expected : List ExpectedPayment} {rows : RunRows}
    {runId profile : String} (h : Agreement expected rows runId profile) (c : Currency) :
    currencyShare (·.currency) (·.amount) (·.authorizedAmount) c rows.payments =
      currencyShare (·.currency) (·.amount) (·.authorizedAmount) c expected := by
  have htotals := congrArg CurrencyTotals.share (h.totals c.value)
  rw [total_append, share_add, share_ledgers, add_zero, share_payments, share_expected] at htotals
  exact htotals.symm

/-! ## Verified runs -/

/-- The payments under the references of a profile. -/
def runPayments (db : Database) (runId profile : String) (expected : List ExpectedPayment) :
    List PaymentRecord :=
  db.payments.select fun p => (expected.map (reference runId profile)).contains p.merchantReference

/-- The events of some payments. -/
def eventsAmong (db : Database) (payments : List PaymentRecord) : List WebhookEventRecord :=
  db.webhookEvents.select fun e => (payments.map (·.id)).contains e.paymentId

/-- **What a passed verification says** of the payments under the profile's references: one payment
for each reference, each accounted for by its own rows, one completed record for each key, and the
profile's outcomes, event types and amounts over all of them.

It does not say which payment has which of these values: two payments of a run may have exchanged
theirs (`exchanged_verified`), since the checks compare counts, sets and totals. -/
structure VerifiedRun (db : Database) (runId profile : String) (expected : List ExpectedPayment) :
    Prop where
  /-- each expected reference is of one payment, accounted for by its own rows -/
  payment : ∀ e ∈ expected, ∃ p ∈ runPayments db runId profile expected,
    (db.payments.select fun p => decide (p.merchantReference = reference runId profile e)) = [p] ∧
      AccountedFor db (expected.map (idempotencyKey runId profile)) p
  /-- each expected key is of a completed record of one of these payments -/
  key : ∀ e ∈ expected, ∃ p ∈ runPayments db runId profile expected,
    CompletedUnder db (idempotencyKey runId profile e) p.id
  /-- outcomes and events are those of the profile, up to which payment has which -/
  statuses : ((runPayments db runId profile expected).map (·.status)).Perm (expected.map (·.status))
  eventTypes : ((eventsAmong db (runPayments db runId profile expected)).map (·.eventType)).Perm
    (expected.map (·.eventType))
  /-- and so are the number and the amounts of each currency -/
  shares : ∀ c,
    currencyShare (·.currency) (·.amount) (·.authorizedAmount) c
        (runPayments db runId profile expected) =
      currencyShare (·.currency) (·.amount) (·.authorizedAmount) c expected

/-- A payment that is exactly what was expected, with its own effects: the profile's currency, amount
and outcome, the ledger entry and the event these call for, and the completed record under the
expected key. This is what a verification is run to find out, and more than a passed one establishes. -/
structure ExactlyExpected (db : Database) (runId profile : String) (e : ExpectedPayment)
    (p : PaymentRecord) : Prop where
  currency : p.currency = e.currency
  amount : p.amount = e.amount
  status : p.status = e.status
  authorized : p.authorizedAmount = e.authorizedAmount
  ledger : (db.ledgerOf p.id).map (fun l => (l.operation, l.amount, l.currency)) =
    if e.approved then [("AUTHORIZATION", e.amount, e.currency)] else []
  event : (db.eventsOf p.id).map (fun w => (w.aggregateVersion, w.eventType)) = [(1, e.eventType)]
  recorded : CompletedUnder db (idempotencyKey runId profile e) p.id

section Verified

variable {db : Database} {expected : List ExpectedPayment} {runId profile : String}

/-- The payments the pattern selects are those under the references. -/
theorem Agreement.runPayments_eq (h : Agreement expected (readRun db runId profile) runId profile) :
    runPayments db runId profile expected = (readRun db runId profile).payments := by
  refine List.filter_congr fun p hp => Bool.eq_iff_iff.mpr ?_
  rw [List.contains_iff_mem]
  constructor
  · intro hreference
    obtain ⟨e, _, he⟩ := List.mem_map.mp hreference
    rw [← he]
    exact reference_like runId profile e
  · intro hlike
    exact (h.references _).mpr (List.mem_map_of_mem (mem_readRun_payments.mpr ⟨hp, hlike⟩))

theorem Agreement.verifiedRun (numbered : WellNumbered expected)
    (h : Agreement expected (readRun db runId profile) runId profile) :
    VerifiedRun db runId profile expected := by
  have hpayments := h.runPayments_eq
  refine
    { payment := fun e he => ?_
      key := fun e he => ?_
      statuses := hpayments ▸ h.statuses.symm
      eventTypes := ?_
      shares := hpayments ▸ h.shares }
  · obtain ⟨p, hp, hselect⟩ := h.payment numbered he
    exact ⟨p, hpayments ▸ hp, hselect, h.accounted hp⟩
  · obtain ⟨r, hr, hget⟩ := h.record_under (List.mem_map_of_mem he)
    obtain ⟨hoperation, hsnapshot, p, hp, hname⟩ := h.record_of hr
    exact ⟨p, hpayments ▸ hp, r, hget, hoperation, hname, hsnapshot⟩
  · have hevents : eventsAmong db (runPayments db runId profile expected) =
        (readRun db runId profile).webhooks := by
      rw [hpayments]
      exact (restricted WebhookEventRecord.paymentId _ _).symm
    rw [hevents]
    exact h.eventTypes.symm

/-- A profile of approvals only leaves no outcome open. -/
theorem VerifiedRun.approved (h : VerifiedRun db runId profile expected)
    (hall : ∀ e ∈ expected, e.approved = true) :
    (∀ p ∈ runPayments db runId profile expected, p.status = .authorized) ∧
      ∀ w ∈ eventsAmong db (runPayments db runId profile expected), w.eventType = .authorized := by
  constructor
  · intro p hp
    obtain ⟨e, he, hstatus⟩ := List.mem_map.mp (h.statuses.mem_iff.mp (List.mem_map_of_mem hp))
    rw [← hstatus, ExpectedPayment.status, if_pos (hall e he)]
  · intro w hw
    obtain ⟨e, he, htype⟩ := List.mem_map.mp (h.eventTypes.mem_iff.mp (List.mem_map_of_mem hw))
    rw [← htype, ExpectedPayment.eventType, if_pos (hall e he)]

theorem ExpectedPayment.status_eq_authorized {e : ExpectedPayment} :
    e.status = .authorized ↔ e.approved = true := by
  cases h : e.approved <;> simp [ExpectedPayment.status, h]

/-- The share of its own currency that a single row has. -/
theorem currencyShare_singleton {α : Type} {currency : α → Currency} {amount authorized : α → Int}
    {c : Currency} {r : α} :
    currencyShare currency amount authorized c [r] =
      if currency r = c then (1, amount r, authorized r) else (0, 0, 0) := by
  unfold currencyShare
  by_cases h : currency r = c
  · simp [h]
  · simp [h]

/-- A profile of one payment leaves nothing open. -/
theorem VerifiedRun.single {e : ExpectedPayment} (h : VerifiedRun db runId profile [e]) :
    ∃ p, (db.payments.select fun p => decide (p.merchantReference = reference runId profile e)) = [p] ∧
      ExactlyExpected db runId profile e p := by
  obtain ⟨p, _, hselect, accounted⟩ := h.payment e List.mem_cons_self
  have hpayments : runPayments db runId profile [e] = [p] := by
    rw [← hselect]
    refine List.filter_congr fun q _ => Bool.eq_iff_iff.mpr ?_
    rw [List.contains_iff_mem, List.map_singleton, List.mem_singleton, decide_eq_true_eq]
  have hstatuses := h.statuses
  have hshare := h.shares e.currency
  have heventTypes := h.eventTypes
  rw [hpayments, List.map_singleton, List.map_singleton, List.singleton_perm_singleton] at hstatuses
  rw [hpayments, currencyShare_singleton, currencyShare_singleton, if_pos rfl] at hshare
  have hcurrency : p.currency = e.currency := by
    by_contra hne
    rw [if_neg hne] at hshare
    exact absurd (Prod.mk.inj hshare).1 (by decide)
  rw [if_pos hcurrency, Prod.mk.injEq, Prod.mk.injEq] at hshare
  obtain ⟨_, hamount, hauthorized⟩ := hshare
  have hevents : eventsAmong db [p] = db.eventsOf p.id := by
    refine List.filter_congr fun w _ => Bool.eq_iff_iff.mpr ?_
    rw [List.contains_iff_mem, List.map_singleton, List.mem_singleton, decide_eq_true_eq]
  obtain ⟨w, hw⟩ : ∃ w, db.eventsOf p.id = [w] := by
    have hlength := congrArg List.length accounted.event
    rw [List.length_map] at hlength
    exact List.length_eq_one_iff.mp hlength
  rw [hpayments, hevents, hw, List.map_singleton, List.map_singleton,
    List.singleton_perm_singleton] at heventTypes
  have hversion := accounted.event
  rw [hw, List.map_singleton, List.cons.injEq] at hversion
  obtain ⟨q, hq, recorded⟩ := h.key e List.mem_cons_self
  rw [hpayments, List.mem_singleton] at hq
  refine ⟨p, hselect, ?_⟩
  exact
    { currency := hcurrency
      amount := hamount
      status := hstatuses
      authorized := hauthorized
      ledger := by
        rw [accounted.ledger, hstatuses, hamount, hcurrency]
        simp only [ExpectedPayment.status_eq_authorized]
      event := by rw [hw, List.map_singleton, hversion.1, heventTypes]
      recorded := hq ▸ recorded }

/-- **A passed verification.** Each expected reference is of one payment that is accounted for by its
own ledger effect, event and idempotency record; the profile's outcomes, event types and amounts in
each currency are those of these payments as a whole. So a profile of approvals has authorized
payments only, and a profile of one payment has exactly that payment. -/
theorem verified {report : VerificationReport} (h : verifyDatabase db runId profile = .ok report)
    (passed : report.passed = true) :
    ∃ expected, expectedPayments profile = .ok expected ∧
      VerifiedRun db runId profile expected ∧
      ((∀ e ∈ expected, e.approved = true) →
        (∀ p ∈ runPayments db runId profile expected, p.status = .authorized) ∧
          ∀ w ∈ eventsAmong db (runPayments db runId profile expected),
            w.eventType = .authorized) ∧
      ∀ e, expected = [e] → ∃ p,
        (db.payments.select fun p => decide (p.merchantReference = reference runId profile e)) = [p] ∧
          ExactlyExpected db runId profile e p := by
  unfold verifyDatabase at h
  split at h
  · cases h
  · split at h
    · cases h
    · next expected hexpected =>
      cases h
      have verified := (agreement_of_passed passed).verifiedRun
        (expectedPayments_wellNumbered hexpected)
      refine ⟨expected, hexpected, verified, verified.approved, fun e he => ?_⟩
      subst he
      exact verified.single

end Verified

/-! ## Loaded stores -/

/-- The payment under the reference of one expected payment, with the values of another. -/
def loadedPayment (runId profile : String) (e values : ExpectedPayment) : PaymentRecord :=
  { id := "pay_" ++ e.phase ++ e.index.repr
    merchantReference := reference runId profile e
    amount := values.amount
    currency := values.currency
    status := values.status
    paymentFlow := .synchronous
    paymentReference := none
    expiresAt := none
    declineReason := if values.approved then none else some .unknown
    authorizedAmount := values.authorizedAmount
    capturedAmount := 0
    refundedAmount := 0
    version := 1
    createdAt := 0
    updatedAt := 0 }

/-- The rows of a load: each expected payment beside the one whose values it was given. -/
def loadedStore (runId profile : String) (load : List (ExpectedPayment × ExpectedPayment)) :
    Database :=
  let payments := load.map fun (e, values) => loadedPayment runId profile e values
  { Database.empty with
    payments := ((∅ : Table paymentSchema).insertAll payments).getD ∅
    ledgerEntries := ((∅ : Table ledgerSchema).insertAll
      ((payments.filter fun p => decide (p.status = .authorized)).map fun p =>
        { id := "led_" ++ p.id, paymentId := p.id, operation := "AUTHORIZATION"
          amount := p.amount, currency := p.currency, createdAt := 0 })).getD ∅
    idempotencyRecords := ((∅ : Table idempotencySchema).insertAll
      (load.map fun (e, values) =>
        let p := loadedPayment runId profile e values
        { key := idempotencyKey runId profile e, requestFingerprint := "", operation := "AUTHORIZE"
          paymentId := some p.id, responseSnapshot := some (.fromPayment p)
          createdAt := 0 })).getD ∅
    webhookEvents := ((∅ : Table webhookEventSchema).insertAll
      (load.map fun (e, values) =>
        createOutboxEvent (loadedPayment runId profile e values) values.eventType
          (e.phase ++ e.index.repr))).getD ∅ }

theorem verifyDatabase_passed {db : Database} {runId profile : String}
    (h : (verifyDatabase db runId profile).toOption.map (·.passed) = some true) :
    ∃ report, verifyDatabase db runId profile = .ok report ∧ report.passed = true := by
  cases hreport : verifyDatabase db runId profile with
  | error e =>
    rw [hreport] at h
    cases h
  | ok report =>
    rw [hreport] at h
    exact ⟨report, rfl, Option.some.inj h⟩

/-- The payment of the burst profile. -/
def burstPayment : ExpectedPayment := { phase := "setup", index := 0, approved := true }

/-- The store after the burst profile. -/
def burstStore : Database := loadedStore "a1" "idempotent-burst" [(burstPayment, burstPayment)]

/-- A payment of the smoke profile. -/
def smokePayment (index : Nat) : ExpectedPayment :=
  { phase := "load", index := index, approved := decide (index < 4) }

/-- The payments of the smoke profile: four approvals, then a decline. -/
def smokePayments : List ExpectedPayment := (List.range 5).map smokePayment

/-- The store after the smoke profile. -/
def smokeStore : Database := loadedStore "a1" "smoke" (smokePayments.map fun e => (e, e))

/-- The checks pass on the rows of a load of five payments and on those of a load of one. -/
theorem loads_verified :
    VerifiedRun smokeStore "a1" "smoke" smokePayments ∧
      ∃ p, (burstStore.payments.select fun p =>
          decide (p.merchantReference = reference "a1" "idempotent-burst" burstPayment)) = [p] ∧
        ExactlyExpected burstStore "a1" "idempotent-burst" burstPayment p := by
  constructor
  · obtain ⟨report, hreport, hpassed⟩ :=
      verifyDatabase_passed (show (verifyDatabase smokeStore "a1" "smoke").toOption.map
        (·.passed) = some true by decide +kernel)
    obtain ⟨expected, hexpected, hverified, _⟩ := verified hreport hpassed
    have hsmoke : expectedPayments "smoke" = .ok smokePayments := rfl
    cases hexpected.symm.trans hsmoke
    exact hverified
  · obtain ⟨report, hreport, hpassed⟩ :=
      verifyDatabase_passed (show (verifyDatabase burstStore "a1" "idempotent-burst").toOption.map
        (·.passed) = some true by decide +kernel)
    obtain ⟨expected, hexpected, _, _, hsingle⟩ := verified hreport hpassed
    have hburst : expectedPayments "idempotent-burst" = .ok [burstPayment] := rfl
    cases hexpected.symm.trans hburst
    exact hsingle burstPayment rfl

/-- The smoke profile, with the values of its first two payments exchanged. -/
def exchangedStore : Database :=
  loadedStore "a1" "smoke" [(smokePayment 0, smokePayment 1), (smokePayment 1, smokePayment 0),
    (smokePayment 2, smokePayment 2), (smokePayment 3, smokePayment 3),
    (smokePayment 4, smokePayment 4)]

/-- Totals do not tell which payment has which values. -/
theorem exchanged_verified :
    (∃ report, verifyDatabase exchangedStore "a1" "smoke" = .ok report ∧ report.passed = true) ∧
      ∃ expected, expectedPayments "smoke" = .ok expected ∧ ∃ e ∈ expected,
        ¬∃ p, (exchangedStore.payments.select fun p =>
            decide (p.merchantReference = reference "a1" "smoke" e)) = [p] ∧
          ExactlyExpected exchangedStore "a1" "smoke" e p := by
  refine ⟨verifyDatabase_passed (by decide +kernel), _, rfl, smokePayment 0, by decide, ?_⟩
  rintro ⟨p, hselect, exact_⟩
  have hpayment : (exchangedStore.payments.select fun p =>
      decide (p.merchantReference = reference "a1" "smoke" (smokePayment 0))) =
        [loadedPayment "a1" "smoke" (smokePayment 0) (smokePayment 1)] := by decide +kernel
  cases hselect.symm.trans hpayment
  exact absurd exact_.currency (by decide)

end PaymentLab
