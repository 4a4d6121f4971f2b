import PaymentLab.Account.Snapshot
import PaymentLab.Runs.Reachable

/-!
# What the tables accept

When a service function does not raise. Every stored row carries a state, and what an execution knows
of an awaiting payment (`Awaits`) makes each constraint hold that its next version must satisfy: the
`UPDATE` of a decided row and the `INSERT` of its event and its ledger entry go through, as long as
the generated ids are new.

Ids are the one thing that has to be assumed: a `uuid4` that was drawn before violates a primary
key, and the call then raises. The assumption is stated for the ids of the call at hand and the
store it runs on.
-/

namespace PaymentLab

open Relational Transactional Transactional.Service

/-! ## Stored rows -/

theorem paymentSchema_clash_comm (a b : PaymentRecord) :
    paymentSchema.clash a b = paymentSchema.clash b a := by
  show (a.paymentReference.isSome && decide (a.paymentReference = b.paymentReference)) =
    (b.paymentReference.isSome && decide (b.paymentReference = a.paymentReference))
  by_cases h : a.paymentReference = b.paymentReference
  · simp [h]
  · simp [h, Ne.symm h]

/-- The balances of a stored row. -/
structure PaymentRecord.Bounded (p : PaymentRecord) : Prop where
  amount : 0 < p.amount
  authorized : p.authorizedAmount ≤ p.amount
  captured : p.capturedAmount ≤ p.authorizedAmount
  refunded : 0 ≤ p.refundedAmount ∧ p.refundedAmount ≤ p.capturedAmount

theorem bounded_of_stored {t : Table paymentSchema} {p : PaymentRecord} (hp : p ∈ t.rows) :
    p.Bounded := by
  have checked : p.satisfiesChecks = true := t.checked p hp
  unfold PaymentRecord.satisfiesChecks at checked
  simp only [Bool.and_eq_true, decide_eq_true_eq] at checked
  obtain ⟨⟨⟨⟨⟨⟨hamount, hauthorized⟩, hcaptured⟩, hrefunded⟩, _⟩, _⟩, _⟩ := checked
  exact ⟨hamount, hauthorized.2, hcaptured.2, hrefunded⟩

/-- A stored row carries a state. -/
theorem paymentState_of_stored {t : Table paymentSchema} {p : PaymentRecord} (hp : p ∈ t.rows) :
    ∃ state, paymentState p = .ok state := by
  have h := bounded_of_stored hp
  exact PaymentState.create_of_valid p.status h.refunded.1 h.refunded.2 h.captured

/-- A decided row is accepted when its status and balances pass their checks. -/
theorem update_decided {t : Table paymentSchema} {step : LifecycleStep} {before after : PaymentRecord}
    (stored : t.get before.id = some before) (decided : Decides step before after)
    (checks : after.satisfiesChecks = true) : ∃ t', t.update after = some t' := by
  have hid : after.id = before.id := decided.sameIdentity.id
  refine Table.update_isSome_of_stored (x := before) ?_ ?_ ?_ paymentSchema_clash_comm
  · show t.get after.id = some before
    rw [hid]
    exact stored
  · show after.satisfiesChecks = before.satisfiesChecks
    rw [checks]
    exact (t.checked before (Table.get_eq_some stored).1).symm
  · intro y
    show (y.paymentReference.isSome && decide (y.paymentReference = after.paymentReference)) = _
    rw [decided.sameIdentity.paymentReference]
    rfl

/-- A flush of a decided state goes through when the row it writes is accepted. -/
theorem flushPayment_accepted {db : Database} {p : PaymentRecord} {state next : PaymentState}
    {step : LifecycleStep} {now : Instant} {t : Table paymentSchema}
    (stored : db.payments.get p.id = some p) (hstate : paymentState p = .ok state)
    (happly : step.apply state = .ok next)
    (haccepted : db.payments.update (afterFlush p (p.withState next now)) = some t) :
    flushPayment p (p.withState next now) db = .ok { db with payments := t } := by
  have hne := withState_ne hstate happly now
  have hafter : afterFlush p (p.withState next now) =
      { p.withState next now with version := p.version + 1 } := if_neg hne
  unfold flushPayment
  rw [if_neg hne, stored]
  simp only [ne_eq, not_true_eq_false, if_false, writeChanges_withState]
  rw [hafter] at haccepted
  exact updateIn_ok haccepted

/-! ## Events and ledger entries -/

/-- The events of a stored payment are of its version or an earlier one. -/
theorem Consistent.version_le {db : Database} (h : Consistent db) {p : PaymentRecord}
    (stored : db.payments.get p.id = some p) {event : WebhookEventRecord}
    (mem : event ∈ db.webhookEvents.rows) (hpayment : event.paymentId = p.id) :
    event.aggregateVersion ≤ p.version := by
  obtain ⟨first, steps, lived⟩ := h.lived p.id _ (Database.account_of_get stored)
  have published : event.published ∈ db.publishedOf p.id := by
    refine List.mem_map_of_mem (Table.mem_select.mpr ⟨mem, ?_⟩)
    simpa using hpayment
  have version : event.aggregateVersion ∈ List.range' 1 p.version := by
    have versions := lived.published.versions
    rw [← show (db.publishedOf p.id).map (·.aggregateVersion) = _ from versions]
    exact List.mem_map.mpr ⟨_, published, rfl⟩
  have := List.mem_range'_1.mp version
  omega

/-- The event of the next version is accepted under a new id. -/
theorem Consistent.insert_event {db : Database} (h : Consistent db) {before after : PaymentRecord}
    {step : LifecycleStep} (stored : db.payments.get before.id = some before)
    (decided : Decides step before after) (eventType : WebhookEventType) {hex : String}
    (fresh : db.webhookEvents.get ("evt_" ++ hex) = none) :
    ∃ t, db.webhookEvents.insert (createOutboxEvent after eventType hex) = some t := by
  refine Table.insert_isSome ?_ fresh fun event mem => ?_
  · show decide (1 ≤ after.version) = true
    rw [decided.version]
    simp
  · show decide (event.paymentId = after.id ∧ event.aggregateVersion = after.version) = false
    rw [decided.version, decided.sameIdentity.id]
    refine decide_eq_false fun hclash => ?_
    have := h.version_le stored mem hclash.1
    omega

/-! ## Awaiting payments -/

/-- A stored payment that waits for its confirmation. -/
structure Awaits (db : Database) (p : PaymentRecord) : Prop where
  stored : db.payments.get p.id = some p
  status : p.status = .awaitingPayment

/-- What an execution knows of an awaiting payment. -/
theorem Awaits.balances {db : Database} {p : PaymentRecord} (h : Awaits db p)
    (consistent : Consistent db) :
    p.authorizedAmount = 0 ∧ p.capturedAmount = 0 ∧ p.refundedAmount = 0 ∧
      p.declineReason = none ∧ ∃ expiresAt, p.expiresAt = some expiresAt := by
  obtain ⟨first, steps, lived⟩ := consistent.lived p.id _ (Database.account_of_get h.stored)
  have fits : p.FitsStatus := lived.balanced.fits
  have regular : p.Regular := lived.regular
  unfold PaymentRecord.FitsStatus at fits
  rw [h.status] at fits
  obtain ⟨hauthorized, hcaptured, hrefunded⟩ := PaymentRecord.balances_eq_iff.mp fits.2
  refine ⟨hauthorized, hcaptured, hrefunded, ?_, ?_⟩
  · refine Option.not_isSome_iff_eq_none.mp fun hsome => ?_
    have hdeclined := regular.declined.mp hsome
    rw [h.status] at hdeclined
    cases hdeclined
  · exact Option.isSome_iff_exists.mp (regular.expiry.mpr fits.1)

/-- The row of an awaiting payment once it has ended with some balance. -/
theorem Awaits.checks {db : Database} {p after : PaymentRecord} {step : LifecycleStep}
    (h : Awaits db p) (consistent : Consistent db) (decided : Decides step p after) {balance : Int}
    (bounded : 0 ≤ balance ∧ balance ≤ p.amount) (status : after.status ≠ .declined)
    (authorized : after.authorizedAmount = balance) (captured : after.capturedAmount = balance)
    (refunded : after.refundedAmount = 0) : after.satisfiesChecks = true := by
  obtain ⟨_, _, _, hdecline, _⟩ := h.balances consistent
  have checked : p.satisfiesChecks = true := db.payments.checked p (Table.get_eq_some h.stored).1
  have same := decided.sameIdentity
  unfold PaymentRecord.satisfiesChecks at checked ⊢
  simp only [Bool.and_eq_true] at checked
  obtain ⟨⟨⟨⟨⟨⟨hamount, _⟩, _⟩, _⟩, hflow⟩, _⟩, _⟩ := checked
  rw [same.amount, same.paymentFlow, same.paymentReference, same.expiresAt, same.declineReason,
    decided.version, authorized, captured, refunded, hdecline, hamount, hflow]
  simp [bounded.1, bounded.2, status]

/-- **The flush of an awaiting payment that ends** with some balance goes through. -/
theorem Awaits.flush {db : Database} {p : PaymentRecord} {step : LifecycleStep}
    {state next : PaymentState} {balance : Int} (h : Awaits db p) (now : Instant)
    (consistent : Consistent db) (hstate : paymentState p = .ok state)
    (happly : step.apply state = .ok next) (bounded : 0 ≤ balance ∧ balance ≤ p.amount)
    (status : next.status ≠ .declined) (authorized : next.authorizedAmount = balance)
    (captured : next.capturedAmount = balance) (refunded : next.refundedAmount = 0) :
    ∃ t, Decides step p (afterFlush p (p.withState next now)) ∧
      db.payments.update (afterFlush p (p.withState next now)) = some t ∧
      flushPayment p (p.withState next now) db = .ok { db with payments := t } := by
  have hafter : afterFlush p (p.withState next now) =
      { p.withState next now with version := p.version + 1 } := if_neg (withState_ne hstate happly now)
  have decided : Decides step p (afterFlush p (p.withState next now)) :=
    ⟨state, next, now, hstate, happly, hafter⟩
  have checks : (afterFlush p (p.withState next now)).satisfiesChecks = true := by
    refine h.checks consistent decided bounded ?_ ?_ ?_ ?_ <;> rw [hafter]
    · exact status
    · exact authorized
    · exact captured
    · exact refunded
  obtain ⟨t, ht⟩ := update_decided h.stored decided checks
  exact ⟨t, decided, ht, flushPayment_accepted h.stored hstate happly ht⟩

end PaymentLab
