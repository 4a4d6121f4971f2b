import PaymentLab.Library.Worklist
import PaymentLab.Runs.Progress

/-!
# Expiry batches

What a batch of expiries leaves, row by row (`Swept`), and that it goes through when the event ids it
draws are new (`expireEach_accepted`). The due payments are a worklist: what a batch worked off is not
due any more, and the rest is in the order it had (`Swept.allDue`).

The events of a batch are compared up to their ids, which are drawn. The batch writes in the order
of its selection, and `Swept` says so for the payments and for the events: the order of the events
matters to whoever reads the outbox by its rows.
-/

namespace PaymentLab

open Relational Transactional Transactional.Service

/-! ## The rows of a batch -/

/-- A payment that expired at some time. -/
def expiredRow (current : Instant) (p : PaymentRecord) : PaymentRecord :=
  { p with status := .expired, updatedAt := current, version := p.version + 1 }

/-- The event of an expiry. -/
def expiryEvent (current : Instant) (p : PaymentRecord) (hex : String) : WebhookEventRecord :=
  createOutboxEvent (expiredRow current p) .expired hex

/-- A payment, expired if it is one of those. -/
def expireAmong (current : Instant) (due : List PaymentRecord) (p : PaymentRecord) : PaymentRecord :=
  if p ∈ due then expiredRow current p else p

theorem expireAmong_nil (current : Instant) : expireAmong current [] = id := by
  funext p
  exact if_neg List.not_mem_nil

theorem expireAmong_of_mem {due : List PaymentRecord} {p : PaymentRecord} (h : p ∈ due)
    (current : Instant) : expireAmong current due p = expiredRow current p := if_pos h

theorem expireAmong_of_not_mem {due : List PaymentRecord} {p : PaymentRecord} (h : p ∉ due)
    (current : Instant) : expireAmong current due p = p := if_neg h

/-- **What a batch leaves**: the payments of the batch have expired and one event each was appended in
their order; every other row of every table is what it was. -/
structure Swept (current : Instant) (due : List PaymentRecord) (drawn : List String)
    (db db' : Database) : Prop where
  counted : drawn.length = due.length
  payments : db'.payments.rows = db.payments.rows.map (expireAmong current due)
  events : db'.webhookEvents.rows =
    db.webhookEvents.rows ++ List.zipWith (expiryEvent current) due drawn
  rest : { db' with payments := db.payments, webhookEvents := db.webhookEvents } = db

variable {current : Instant}

theorem Swept.refl (current : Instant) (db : Database) : Swept current [] [] db db :=
  ⟨rfl, by simp [expireAmong_nil], by simp, rfl⟩

/-- Two batches, the second of payments that still await. -/
theorem Swept.append {due due' : List PaymentRecord} {drawn drawn' : List String}
    {db₁ db₂ db₃ : Database} (h : Swept current due drawn db₁ db₂)
    (k : Swept current due' drawn' db₂ db₃) (awaiting : ∀ p ∈ due', p.status = .awaitingPayment) :
    Swept current (due ++ due') (drawn ++ drawn') db₁ db₃ := by
  refine ⟨by simp [h.counted, k.counted], ?_, ?_, ?_⟩
  · rw [k.payments, h.payments, List.map_map]
    refine List.map_congr_left fun p _ => ?_
    show expireAmong current due' (expireAmong current due p) = _
    by_cases hp : p ∈ due
    · -- an expired row is in no later batch
      have hout : expiredRow current p ∉ due' := fun hin => by cases awaiting _ hin
      rw [expireAmong_of_mem hp, expireAmong_of_not_mem hout,
        expireAmong_of_mem (List.mem_append_left _ hp)]
    · rw [expireAmong_of_not_mem hp]
      simp [expireAmong, hp]
  · rw [k.events, h.events, List.append_assoc, List.zipWith_append h.counted.symm]
  · have hrest := k.rest
    rw [Database.ext_iff] at hrest ⊢
    have hrest' := Database.ext_iff.mp h.rest
    simp only at hrest hrest' ⊢
    obtain ⟨_, a, b, _, c, d, e, f, g, i, j, l⟩ := hrest
    obtain ⟨_, a', b', _, c', d', e', f', g', i', j', l'⟩ := hrest'
    exact ⟨trivial, a.trans a', b.trans b', trivial, c.trans c', d.trans d', e.trans e', f.trans f',
      g.trans g', i.trans i', j.trans j', l.trans l'⟩

/-! ## One expiry -/

/-- What the pure function decides for an awaiting payment. -/
theorem Awaits.expires {db : Database} {p : PaymentRecord} (h : Awaits db p) :
    ∃ state next, paymentState p = .ok state ∧ expire state = .ok next ∧
      next.status = .expired ∧ next.authorizedAmount = p.authorizedAmount ∧
      next.capturedAmount = p.capturedAmount ∧ next.refundedAmount = p.refundedAmount := by
  obtain ⟨state, hstate⟩ := paymentState_of_stored (Table.get_eq_some h.stored).1
  obtain ⟨hstatus, hauthorized, hcaptured, hrefunded⟩ := paymentState_eq_ok hstate
  obtain ⟨next, hnext⟩ := PaymentState.create_of_valid .expired state.nonnegative.2.2
    state.refunded_le_captured state.captured_le_authorized
  obtain ⟨hs, ha, hc, hr⟩ := PaymentState.create_eq_ok hnext
  refine ⟨state, next, hstate, ?_, hs, ha.trans hauthorized, hc.trans hcaptured, hr.trans hrefunded⟩
  unfold expire
  rw [if_neg (by rw [hstatus, h.status]; simp)]
  exact hnext

/-- The rows of a table after the `UPDATE` of one of them. -/
theorem update_expired_rows {db : Database} {p : PaymentRecord} {t : Table paymentSchema}
    (stored : db.payments.get p.id = some p)
    (h : db.payments.update (expiredRow current p) = some t) :
    t.rows = db.payments.rows.map (expireAmong current [p]) := by
  rw [Table.update_rows h]
  refine List.map_congr_left fun q hq => ?_
  by_cases hqp : q = p
  · subst hqp
    rw [expireAmong_of_mem (List.mem_singleton.mpr rfl)]
    exact Table.overwrite_of_eq rfl
  · have hid : q.id ≠ p.id := fun hid =>
      hqp (Table.eq_of_key_eq hq (Table.get_eq_some stored).1 hid)
    rw [expireAmong_of_not_mem (by simpa using hqp)]
    exact Table.overwrite_of_ne hid

/-- **An expiry goes through** under a new event id. -/
theorem applyExpiryTransition_accepted (current : Instant) {s : DatabaseSession}
    {p : PaymentRecord} {hex : String} (consistent : Consistent s.working) (h : Awaits s.working p)
    (fresh : s.working.webhookEvents.get ("evt_" ++ hex) = none) :
    ∃ s', applyExpiryTransition p current hex s = (.ok (), s') ∧
      Swept current [p] [hex] s.working s'.working := by
  obtain ⟨state, next, hstate, hnext, hstatus, hauthorized, hcaptured, hrefunded⟩ := h.expires
  obtain ⟨hzero, hzero', hzero'', _⟩ := h.balances consistent
  have hamount := (bounded_of_stored (Table.get_eq_some h.stored).1).amount
  obtain ⟨t, decided, ht, hflush⟩ := h.flush current consistent hstate
    (show LifecycleStep.expire.apply state = .ok next from hnext) ⟨le_refl 0, by omega⟩
    (by simp [hstatus]) (hauthorized.trans hzero) (hcaptured.trans hzero') (hrefunded.trans hzero'')
  have hafter : afterFlush p (p.withState next current) = expiredRow current p := by
    have hne := withState_ne hstate
      (show LifecycleStep.expire.apply state = .ok next from hnext) current
    unfold afterFlush
    rw [if_neg hne]
    unfold expiredRow PaymentRecord.withState
    rw [hstatus, hauthorized, hcaptured, hrefunded]
  rw [hafter] at ht decided
  obtain ⟨e, he⟩ := consistent.insert_event h.stored decided .expired fresh
  refine ⟨{ s with working := { s.working with payments := t, webhookEvents := e }, begun := true },
    ?_, rfl, update_expired_rows h.stored ht, Table.insert_rows he, rfl⟩
  have hread : liftDomain (paymentState p) s = (.ok state, s) := by
    rw [hstate]
    rfl
  have hdecide : liftDomain (expire state) s = (.ok next, s) := by
    rw [hnext]
    rfl
  unfold applyExpiryTransition
  rw [bind_ok hread, bind_ok hdecide, bind_ok (flush_ok hflush), hafter]
  exact flush_ok (insertInto_ok he)

/-! ## A whole batch -/

section Batch

variable {due : List PaymentRecord} {drawn : List String} {db db' : Database} {p : PaymentRecord}

theorem Swept.stored_of_not_mem (h : Swept current due drawn db db')
    (stored : db.payments.get p.id = some p) (hp : p ∉ due) : db'.payments.get p.id = some p := by
  refine Table.get_of_mem (r := p) ?_
  rw [h.payments, ← expireAmong_of_not_mem hp current]
  exact List.mem_map_of_mem (Table.get_eq_some stored).1

theorem Swept.receipts (h : Swept current due drawn db db') :
    db'.confirmationReceipts = db.confirmationReceipts := by
  rw [← h.rest]

theorem Swept.confirmations (h : Swept current due drawn db db') :
    db'.paymentConfirmations = db.paymentConfirmations := by
  rw [← h.rest]

theorem Swept.ledger (h : Swept current due drawn db db') : db'.ledgerEntries = db.ledgerEntries := by
  rw [← h.rest]

/-- The ids of the events of a batch are the drawn ones. -/
theorem Swept.event_id (h : Swept current due drawn db db') {event : WebhookEventRecord}
    (mem : event ∈ db'.webhookEvents.rows) :
    event ∈ db.webhookEvents.rows ∨ ∃ hex ∈ drawn, event.id = "evt_" ++ hex := by
  rw [h.events] at mem
  rcases List.mem_append.mp mem with hold | hnew
  · exact .inl hold
  · obtain ⟨i, hi, rfl⟩ := List.mem_iff_getElem.mp hnew
    rw [List.getElem_zipWith]
    exact .inr ⟨_, List.getElem_mem _, rfl⟩

/-- A generated part that no batch drew is as new as before. -/
theorem Swept.fresh (h : Swept current due drawn db db') {hex : String}
    (fresh : db.webhookEvents.get ("evt_" ++ hex) = none) (hne : hex ∉ drawn) :
    db'.webhookEvents.get ("evt_" ++ hex) = none := by
  refine Table.get_eq_none.mpr fun event mem hid => ?_
  have hid : event.id = "evt_" ++ hex := hid
  rcases h.event_id mem with hold | ⟨other, hother, heq⟩
  · exact Table.get_eq_none.mp fresh event hold hid
  · refine hne ?_
    rw [← String.append_right_inj _ |>.mp (heq.symm.trans hid)]
    exact hother

/-- **A batch goes through** under new event ids: one expiry after another. -/
theorem expireEach_accepted (current : Instant) (hex : String → String) :
    ∀ (due : List PaymentRecord) {s : DatabaseSession}, Consistent s.working →
      (∀ p ∈ due, Awaits s.working p ∧ protectingReceiptExists s.working p = false) →
      (∀ p ∈ due, s.working.webhookEvents.get ("evt_" ++ hex p.id) = none) →
      (due.map fun p => hex p.id).Nodup →
      ∃ s', expireEach current hex due s = (.ok (), s') ∧
        Swept current due (due.map fun p => hex p.id) s.working s'.working := by
  intro due
  induction due with
  | nil => exact fun _ _ _ _ => ⟨_, rfl, .refl _ _⟩
  | cons p rest ih =>
    intro s consistent hdue fresh nodup
    obtain ⟨awaits, unprotected⟩ := hdue p List.mem_cons_self
    obtain ⟨hnotin, nodup⟩ := List.nodup_cons.mp nodup
    obtain ⟨s₁, hone, swept⟩ := applyExpiryTransition_accepted current consistent awaits
      (fresh p List.mem_cons_self)
    have hne : ∀ q ∈ rest, hex q.id ≠ hex p.id := fun q hq heq =>
      hnotin (List.mem_map.mpr ⟨q, hq, heq⟩)
    have hother : ∀ q ∈ rest, q ∉ [p] := fun q hq hqp =>
      hne q hq (by rw [List.mem_singleton.mp hqp])
    have expired : ExpiresOne s.working s₁.working := by
      obtain ⟨staged, _⟩ := applyExpiryTransition_eq_ok (held_of_stored awaits.stored) hone
      obtain ⟨after, hadvances⟩ := staged.advances
      exact ⟨p, after, unprotected, hadvances, staged.claims, staged.confirmations⟩
    have consistent₁ : Consistent s₁.working := by
      obtain ⟨_, _, hexpired⟩ := expired
      have effect : Effect id s.working s₁.working := .expired hexpired
      exact effect.consistent consistent
    obtain ⟨s₂, hrest, swept'⟩ := ih consistent₁ (fun q hq => by
        obtain ⟨hawaits, hfree⟩ := hdue q (List.mem_cons_of_mem _ hq)
        refine ⟨⟨swept.stored_of_not_mem hawaits.stored (hother q hq), hawaits.status⟩, ?_⟩
        rw [protectingReceiptExists_congr swept.receipts]
        exact hfree)
      (fun q hq => swept.fresh (fresh q (List.mem_cons_of_mem _ hq)) (by simpa using hne q hq)) nodup
    refine ⟨s₂, ?_, swept.append swept' fun q hq => (hdue q (List.mem_cons_of_mem _ hq)).1.status⟩
    exact (bind_ok (tryCatch_ok hone)).trans hrest

end Batch

/-! ## The due payments as a worklist -/

/-- Every due payment, earliest deadline first. -/
def allDue (db : Database) (current : Instant) : List PaymentRecord :=
  (db.payments.select (isDue db current)).insertionSort dueOrder

theorem duePayments_eq (db : Database) (current : Instant) (limit : Nat) :
    duePayments db current limit = (allDue db current).take limit := rfl

theorem dueOrder_eq :
    dueOrder = Worklist.firstBy (fun p : PaymentRecord => p.expiresAt.getD 0) PaymentRecord.id := rfl

instance : Std.Total dueOrder := by
  rw [dueOrder_eq]
  exact ⟨Worklist.firstBy_total String.le_total⟩

instance : IsTrans PaymentRecord dueOrder := by
  rw [dueOrder_eq]
  exact ⟨fun _ _ _ => Worklist.firstBy_trans fun _ _ _ => String.le_trans⟩

section Due

variable {db db' : Database} {p : PaymentRecord}

theorem mem_allDue : p ∈ allDue db current ↔
    p ∈ db.payments.rows ∧ p.status = .awaitingPayment ∧
      (∃ expiresAt, p.expiresAt = some expiresAt ∧ expiresAt ≤ current) ∧
      protectingReceiptExists db p = false := by
  unfold allDue
  rw [List.mem_insertionSort, Table.mem_select]
  unfold isDue
  cases hexpires : p.expiresAt <;> simp [and_assoc]

theorem allDue_awaits (h : p ∈ allDue db current) :
    Awaits db p ∧ protectingReceiptExists db p = false := by
  obtain ⟨hmem, hstatus, _, hfree⟩ := mem_allDue.mp h
  exact ⟨⟨Table.get_of_mem hmem, hstatus⟩, hfree⟩

theorem payments_nodup (db : Database) : db.payments.rows.Nodup :=
  db.payments.distinct.imp fun hab heq => hab.1 (congrArg _ heq)

theorem allDue_nodup (db : Database) (current : Instant) : (allDue db current).Nodup := by
  unfold allDue
  rw [(List.perm_insertionSort _ _).nodup_iff]
  exact (payments_nodup db).filter _

/-- The order determines a row. -/
theorem dueOrder_antisymm {a b : PaymentRecord} (ha : a ∈ db.payments.rows)
    (hb : b ∈ db.payments.rows) (hab : dueOrder a b) (hba : dueOrder b a) : a = b := by
  rw [dueOrder_eq] at hab hba
  exact Table.eq_of_key_eq ha hb (Worklist.firstBy_antisymm (fun _ _ => String.le_antisymm) hab hba)

/-- **What a batch worked off is not due any more**, and the rest stays in its order. -/
theorem Swept.allDue {drawn : List String} {n : Nat}
    (h : Swept current ((allDue db current).take n) drawn db db') :
    PaymentLab.allDue db' current = (PaymentLab.allDue db current).drop n := by
  unfold PaymentLab.allDue Table.select at h ⊢
  rw [h.payments]
  refine Worklist.insertionSort_worked_off (payments_nodup db)
    (fun a ha b hb => dueOrder_antisymm ha hb) (fun p _ hp => expireAmong_of_not_mem hp current)
    fun p _ => ?_
  by_cases hp : p ∈ ((db.payments.rows.filter (isDue db current)).insertionSort dueOrder).take n
  · rw [expireAmong_of_mem hp]
    simp [isDue, expiredRow, hp]
  · rw [expireAmong_of_not_mem hp]
    simp [isDue, hp, protectingReceiptExists_congr h.receipts]

end Due

end PaymentLab
