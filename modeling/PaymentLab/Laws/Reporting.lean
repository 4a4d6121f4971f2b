import PaymentLab.Laws.Cutoff
import PaymentLab.Laws.Protection
import PaymentLab.Library.Tally
import PaymentLab.Services.ConfirmationReporting

/-!
# The confirmation section agrees with the money

The section of a batch derives what was confirmed by a cutoff twice, from the snapshots of events and
from the final records of confirmations, and the ledger holds it a third time. On one clock, where no
receipt carries the reference of a payment that is committed later, the three agree
(`section_agrees`). Two invariants carry it: no receipt is older than its payment (`Follows`), and
the applied confirmations and the captures of the ledger are the same times in the same order
(`Agreed`).

The three derivations look at different rows. The outcomes come from the snapshots of events created
by the cutoff, the dispositions from the final records of receipts received by it, and the captures
from ledger entries of the confirmation; that they are of the same payments is proved, not only that
they are equally many.
-/

namespace PaymentLab

open Relational Transactional Transactional.Service

/-! ## Receipts follow their payments -/

/-- A receipt for a payment was accepted no earlier than the payment was created. -/
def Follows (db : Database) : Prop :=
  ∀ receipt ∈ db.confirmationReceipts.rows, ∀ p ∈ db.payments.rows,
    p.paymentReference = some receipt.paymentReference → p.createdAt ≤ receipt.receivedAt

/-- No receipt carries the reference of a payment that is committed later: a reference is told to
nobody before the payment that it refers to exists. The code does not check it, since a reference is
sixteen random characters. -/
def Announced {ι : Type} (ts : List (Pool.Transition Database ι (Option Client))) : Prop :=
  ∀ t ∈ ts, ∀ p, t.pre.payments.get p.id = none → t.post.payments.get p.id = some p →
    ∀ receipt ∈ t.pre.confirmationReceipts.rows, p.paymentReference ≠ some receipt.paymentReference

section Receipts

variable {sha256 : String → String} {db db' : Database}

/-- A receipt after a transaction was there before, pending or completed, or was just accepted under
a free identity. -/
theorem Commits.receipt_cases {request : Request} (h : Commits sha256 request db db')
    {receipt : ConfirmationReceiptRecord} (mem : receipt ∈ db'.confirmationReceipts.rows) :
    (∃ old ∈ db.confirmationReceipts.rows, old.paymentReference = receipt.paymentReference ∧
        old.receivedAt = receipt.receivedAt) ∨
      ∃ command, request.Accepts command ∧ receipt.confirmationId = command.confirmationId ∧
        db.confirmationReceipts.get command.confirmationId = none := by
  have same : db'.confirmationReceipts = db.confirmationReceipts →
      ∃ old ∈ db.confirmationReceipts.rows, old.paymentReference = receipt.paymentReference ∧
        old.receivedAt = receipt.receivedAt := fun heq => ⟨receipt, heq ▸ mem, rfl, rfl⟩
  cases h with
  | nothing h => exact .inl (same (by rw [h]))
  | keyed _ h =>
    cases h with
    | created h => exact .inl (same h.confirmations.receipts)
    | operated h => exact .inl (same h.confirmations.receipts)
  | received accepts h =>
    obtain ⟨receivedAt, hinsert⟩ := h.receipt
    obtain ⟨hrows, hfree, _⟩ := Table.insert_eq_some hinsert
    rw [hrows] at mem
    rcases List.mem_append.mp mem with mem | mem
    · exact .inl ⟨receipt, mem, rfl, rfl⟩
    · rw [List.mem_singleton.mp mem]
      exact .inr ⟨_, accepts, rfl, hfree⟩
  | settled _ h =>
    rw [Table.update_rows h.completed] at mem
    obtain ⟨old, hold, rfl⟩ := List.mem_map.mp mem
    unfold Table.overwrite
    split
    · exact .inl ⟨_, (Table.get_eq_some h.stored).1, rfl, rfl⟩
    · exact .inl ⟨old, hold, rfl, rfl⟩
  | swept _ h => exact .inl (same (sweep_confirmations h).receipts)

/-- A call that accepts a confirmation writes at the time the clock reads, or completes a receipt
that is there. -/
theorem Request.Stamps.accepting {request : Request} {phase : Phase} {time now : Instant}
    {command : ConfirmationCommand} (h : request.Stamps db.ReceivedAt phase time)
    (reads : request.Reads now phase) (accepts : request.Accepts command) :
    time = now ∨ db.ReceivedAt command.confirmationId time := by
  cases request with
  | accept => cases phase <;> first | exact absurd h id | exact .inl (reads time h)
  | process accepted receivedAt clock draws =>
    cases accepts
    cases phase with
    | ready => exact .inl (reads _ h time rfl)
    | completing => exact .inr h
    | _ => exact absurd h id
  | _ => exact absurd accepts id

end Receipts

section Run

variable {ι : Type} [DecidableEq ι] {sha256 : String → String}
  {ts : List (Pool.Transition Database ι (Option Client))}
  {v : Pool.World Database ι (Option Client)} {now : Instant}

/-- A stored payment was created by the time the clock reads. -/
theorem Clocked.created_past (h : Clocked sha256 ts v now) {p : PaymentRecord}
    (hp : p ∈ v.shared.payments.rows) : p.createdAt ≤ now := by
  have hget := Table.get_of_mem hp
  obtain ⟨first, steps, lived⟩ := h.execution.lived hget
  exact lived.created_past (h.punctual.1.past (Database.account_of_get hget))

/-- **No receipt is older than its payment.** -/
theorem Clocked.follows (h : Clocked sha256 ts v now) (announced : Announced ts) :
    Follows v.shared := by
  induction h with
  | start now initial =>
    intro receipt mem
    rw [initial.empty] at mem
    cases mem
  | @step ts v now later t h enabled hle reads ih =>
    have next := h.step enabled hle reads
    have earlier := ih fun t mem => announced t (List.mem_append_left _ mem)
    intro receipt mem p hp href
    have hpost : p ∈ t.post.payments.rows := hp
    cases h.ticks enabled reads with
    | background hbackground _ =>
      rw [Pool.World.apply_shared, hbackground.confirmations.receipts] at mem
      rw [hbackground.payments] at hpost
      exact earlier receipt mem p hpost href
    | aside _ _ _ _ hsame _ =>
      rw [Pool.World.apply_shared, hsame] at mem
      rw [hsame] at hpost
      exact earlier receipt mem p hpost href
    | acted client _ coherent unfinished readsNow hact _ =>
      have commits := (Client.act_commits sha256 coherent.admits unfinished coherent.sound).commits
      have stamped := Client.act_stamped sha256 client v.shared
      rw [← hact] at commits stamped
      rcases commits.receipt_cases mem with ⟨old, hold, hreference, htime⟩ |
        ⟨command, accepts, hid, hfree⟩
      · rw [← hreference] at href
        rw [← htime]
        cases hget : v.shared.payments.get p.id with
        | some q =>
          -- the payment was there, with the same reference and creation
          obtain ⟨p', hp', same⟩ := (next.execution.moves (t := t)
            (List.mem_append_right _ (List.mem_singleton.mpr rfl))).keepsIdentities p.id q
              (by rw [enabled.1]; exact hget)
          have hsame : p = p' := Option.some.inj ((Table.get_of_mem hpost).symm.trans hp')
          rw [hsame, same.paymentReference] at href
          rw [hsame, same.createdAt]
          exact earlier old hold q (Table.get_eq_some hget).1 href
        | none =>
          refine absurd href (announced t (List.mem_append_right _ (List.mem_singleton.mpr rfl)) p ?_
            (Table.get_of_mem hpost) old ?_)
          · rw [enabled.1]
            exact hget
          · rw [enabled.1]
            exact hold
      · -- a receipt that was just accepted has the time the clock reads
        have hfresh : ¬∃ time, v.shared.ReceivedAt command.confirmationId time := by
          rintro ⟨_, old, hget, _⟩
          rw [hfree] at hget
          cases hget
        have hnow : receipt.receivedAt = later := by
          rcases stamped.receipts receipt mem with hold | htime
          · exact absurd ⟨_, hid ▸ hold⟩ hfresh
          · exact (htime.accepting readsNow accepts).resolve_right fun hold => hfresh ⟨_, hold⟩
        rw [hnow]
        exact next.created_past hp

end Run

/-! ## Applied confirmations and captures -/

/-- The final records that were applied. -/
def appliedConfirmations (records : List PaymentConfirmationRecord) :
    List PaymentConfirmationRecord := records.filter fun c => decide (c.disposition = .applied)

/-- The applied confirmations and the captures of the ledger have the same times, in one order, and
no capture is older than its payment. -/
structure Agreed (db : Database) : Prop where
  times : (appliedConfirmations db.paymentConfirmations.rows).map (·.receivedAt) =
    (confirmationCaptures db.ledgerEntries.rows).map (·.createdAt)
  follows : ∀ entry ∈ confirmationCaptures db.ledgerEntries.rows, ∀ p,
    db.payments.get entry.paymentId = some p → p.createdAt ≤ entry.createdAt

section Captures

variable {sha256 : String → String} {db db' : Database}

/-- Only a confirmation adds a capture. -/
theorem Advances.captures {step : LifecycleStep} {before after : PaymentRecord}
    (h : Advances step before after db db') (other : ∀ amount, step ≠ .captureConfirmation amount) :
    confirmationCaptures db'.ledgerEntries.rows = confirmationCaptures db.ledgerEntries.rows := by
  obtain ⟨id, time, hposts⟩ := h.ledger
  rw [hposts.rows, confirmationCaptures_append, confirmationCaptures_entry]
  cases step with
  | captureConfirmation amount => exact absurd rfl (other amount)
  | capture | expire | cancel | refund amount => exact List.append_nil _

theorem sweep_captures (h : Relation.ReflTransGen ExpiresOne db db') :
    confirmationCaptures db'.ledgerEntries.rows = confirmationCaptures db.ledgerEntries.rows := by
  induction h with
  | refl => rfl
  | tail _ hstep ih =>
    obtain ⟨_, _, hexpired⟩ := hstep
    exact (hexpired.advances.captures fun _ => nofun).trans ih

theorem Commits.keepsIdentities {request : Request} (h : Commits sha256 request db db') :
    KeepsIdentities db db' := by
  have effects := h.effects
  clear h
  induction effects with
  | refl => exact .refl _
  | tail _ h ih => exact ih.trans h.keepsIdentities

/-- The captures that were there stay no older than their payments. -/
theorem Agreed.kept (h : Agreed db) (grounded : db.Grounded) (kept : KeepsIdentities db db')
    {entry : LedgerEntryRecord} (mem : entry ∈ confirmationCaptures db.ledgerEntries.rows)
    {p : PaymentRecord} (hp : db'.payments.get entry.paymentId = some p) :
    p.createdAt ≤ entry.createdAt := by
  obtain ⟨q, hq⟩ := grounded.ledger entry (List.mem_of_mem_filter mem)
  obtain ⟨q', hq', same⟩ := kept _ q hq
  cases hq'.symm.trans hp
  rw [same.createdAt]
  exact h.follows entry mem q hq

/-- What adds neither an applied confirmation nor a capture keeps the agreement. -/
theorem Agreed.frame (h : Agreed db) (grounded : db.Grounded) (kept : KeepsIdentities db db')
    (applied : appliedConfirmations db'.paymentConfirmations.rows =
      appliedConfirmations db.paymentConfirmations.rows)
    (captures : confirmationCaptures db'.ledgerEntries.rows =
      confirmationCaptures db.ledgerEntries.rows) : Agreed db' := by
  refine ⟨by rw [applied, captures, h.times], fun entry mem p hp => ?_⟩
  rw [captures] at mem
  exact h.kept grounded kept mem hp

/-- **A transaction keeps the agreement**: it adds an applied confirmation and a capture of one time,
or neither. -/
theorem Agreed.commits {request : Request} {T : Instant → Prop} (h : Agreed db)
    (follows : Follows db) (grounded : db.Grounded) (commits : Commits sha256 request db db')
    (stamped : Stamped T db db') (unique : ∀ {time time'}, T time → T time' → time = time') :
    Agreed db' := by
  have kept := commits.keepsIdentities
  cases commits with
  | nothing same =>
    rw [same]
    exact h
  | keyed _ e =>
    cases e with
    | created e =>
      refine h.frame grounded kept (by rw [e.confirmations.confirmations]) ?_
      obtain ⟨hex, hposts⟩ := e.ledger
      rw [hposts.rows, confirmationCaptures_append, confirmationCaptures_authorization,
        List.append_nil]
    | operated e =>
      obtain ⟨step, hstep, hadvances⟩ := e.advances
      exact h.frame grounded kept (by rw [e.confirmations.confirmations])
        (hadvances.captures fun _ => LifecycleCommand.step_ne_confirmation hstep _)
  | received _ e =>
    exact h.frame grounded kept (by rw [e.confirmations]) (by rw [e.accounts.ledgerEntries])
  | swept _ e =>
    exact h.frame grounded kept (by rw [(sweep_confirmations e).confirmations]) (sweep_captures e)
  | @settled receipt disposition _ e =>
    have hrows := Table.insert_rows e.confirmation
    have unapplied : disposition ≠ .applied → appliedConfirmations db'.paymentConfirmations.rows =
        appliedConfirmations db.paymentConfirmations.rows := by
      intro hne
      have hrecord : ¬(newConfirmation sha256 receipt.command receipt.receivedAt disposition
          (paymentByReference db receipt.paymentReference)).disposition = .applied := hne
      unfold appliedConfirmations
      rw [hrows, List.filter_append, List.filter_singleton, decide_eq_false hrecord]
      exact List.append_nil _
    cases e.effect with
    | none hne same _ =>
      exact h.frame grounded kept (unapplied hne) (by rw [same.ledgerEntries])
    | expired before after hlate _ _ hadvances =>
      exact h.frame grounded kept (unapplied (by rw [hlate]; exact nofun))
        (hadvances.captures fun _ => nofun)
    | captured before after happlied hpayment hadvances =>
      obtain ⟨id, time, hposts⟩ := hadvances.ledger
      have hledger := hposts.rows
      have hcaptures := congrArg confirmationCaptures hledger
      rw [confirmationCaptures_append, confirmationCaptures_entry] at hcaptures
      -- one transaction writes the record and the capture at one time
      have htime : time = receipt.receivedAt := by
        have hentry := stamped.ledger
        have hrecord := stamped.confirmations
        rw [hledger] at hentry
        rw [hrows] at hrecord
        exact unique (hentry.added (List.mem_singleton.mpr rfl))
          (hrecord.added (List.mem_singleton.mpr rfl))
      refine ⟨?_, fun entry mem p hp => ?_⟩
      · unfold appliedConfirmations
        rw [hcaptures, hrows, List.filter_append, List.filter_singleton, List.map_append,
          List.map_append, ← h.times]
        congr 1
        rw [happlied, htime]
        rfl
      · rw [hcaptures] at mem
        rcases List.mem_append.mp mem with mem | mem
        · exact h.kept grounded kept mem hp
        · obtain rfl := List.mem_singleton.mp mem
          have hafter : p = after :=
            Option.some.inj (hp.symm.trans hadvances.stored_after)
          obtain ⟨hbefore, hreference⟩ := paymentByReference_eq_some hpayment
          rw [hafter, hadvances.decided.sameIdentity.createdAt]
          exact (follows receipt (Table.get_eq_some e.stored).1 before
            (Table.get_eq_some hbefore).1 hreference).trans htime.ge

end Captures

section Run

variable {ι : Type} [DecidableEq ι] {sha256 : String → String}
  {ts : List (Pool.Transition Database ι (Option Client))}
  {v : Pool.World Database ι (Option Client)} {now : Instant}

/-- **Applied confirmations and captures agree** along every clocked run. -/
theorem Clocked.agreed (h : Clocked sha256 ts v now) (announced : Announced ts) :
    Agreed v.shared := by
  induction h with
  | start now initial =>
    rw [initial.empty]
    exact ⟨rfl, fun _ mem => absurd mem List.not_mem_nil⟩
  | @step ts v now later t h enabled hle reads ih =>
    have announced' : Announced ts := fun t mem => announced t (List.mem_append_left _ mem)
    have earlier := ih announced'
    have grounded := h.execution.consistent.grounded
    rw [Pool.World.apply_shared]
    cases h.ticks enabled reads with
    | background hbackground _ =>
      refine earlier.frame grounded (fun id p hp => ⟨p, ?_, .refl p⟩) ?_ ?_
      · rw [hbackground.payments]
        exact hp
      · rw [hbackground.confirmations.confirmations]
      · rw [hbackground.ledgerEntries]
    | aside _ _ _ _ hsame _ =>
      rw [hsame]
      exact earlier
    | acted client _ coherent unfinished readsNow hact _ =>
      rw [hact]
      exact earlier.commits (h.follows announced') grounded
        (Client.act_commits sha256 coherent.admits unfinished coherent.sound).commits
        (Client.act_stamped sha256 client v.shared) Request.Stamps.unique

end Run

/-! ## Counts -/

/-- The count of one outcome. -/
def PaymentOutcomes.under (outcomes : PaymentOutcomes) : PaymentOutcomeName → Nat
  | .pending => outcomes.pending
  | .confirmedOnTime => outcomes.confirmedOnTime
  | .expiredWithoutOnTimeConfirmation => outcomes.expiredWithoutOnTimeConfirmation
  | .cancelledUnconfirmed => outcomes.cancelledUnconfirmed

section Counts

variable (db : Database) (cutoff : Instant)

/-- Every outcome counts the delayed payments that have it. -/
theorem countOutcomes_under (name : PaymentOutcomeName) :
    (countOutcomes db cutoff).under name = (delayedPayments db cutoff).countP fun p =>
      decide (outcomeOf (statusesThrough db cutoff p.id) = name) := by
  have grows : ∀ (outcomes : PaymentOutcomes) (p : PaymentRecord),
      (outcomes.count (outcomeOf (statusesThrough db cutoff p.id))).under name =
        outcomes.under name +
          if decide (outcomeOf (statusesThrough db cutoff p.id) = name) = true then 1 else 0 := by
    intro outcomes p
    generalize outcomeOf (statusesThrough db cutoff p.id) = found
    cases found <;> cases name <;> rfl
  have hzero : PaymentOutcomes.zero.under name = 0 := by cases name <;> rfl
  unfold countOutcomes
  rw [Tally.foldl_countP (PaymentOutcomes.under · name) grows, hzero, Nat.zero_add]

/-- The outcomes together count every delayed payment. -/
theorem countOutcomes_sum :
    (countOutcomes db cutoff).sum = (delayedPayments db cutoff).length := by
  have grows : ∀ (outcomes : PaymentOutcomes) (p : PaymentRecord),
      (outcomes.count (outcomeOf (statusesThrough db cutoff p.id))).sum =
        outcomes.sum + if true = true then 1 else 0 := by
    intro outcomes p
    unfold PaymentOutcomes.sum
    rw [if_pos rfl]
    cases outcomeOf (statusesThrough db cutoff p.id) <;> simp only [PaymentOutcomes.count] <;> omega
  unfold countOutcomes
  rw [Tally.foldl_countP PaymentOutcomes.sum (q := fun _ => true) grows, List.countP_true]
  exact Nat.zero_add _

/-- The applied dispositions count the applied confirmations. -/
theorem countDispositions_applied (records : List PaymentConfirmationRecord) :
    (countDispositions records).applied = (appliedConfirmations records).length := by
  have grows : ∀ (counts : DispositionCounts) (record : PaymentConfirmationRecord),
      (counts.count record.disposition).applied =
        counts.applied + if decide (record.disposition = .applied) = true then 1 else 0 := by
    intro counts record
    cases record.disposition <;> rfl
  unfold countDispositions appliedConfirmations
  rw [Tally.foldl_countP DispositionCounts.applied grows, List.countP_eq_length_filter]
  exact Nat.zero_add _

variable {db}

/-- As many confirmations were applied through a cutoff as captures were made. -/
theorem Agreed.applied (h : Agreed db) :
    (countDispositions (confirmationsThrough db cutoff)).applied =
      (confirmationCaptures db.ledgerEntries.rows).countP fun e => decide (e.createdAt ≤ cutoff) := by
  have through := congrArg (List.countP fun time => decide (time ≤ cutoff)) h.times
  rw [List.countP_map, List.countP_map] at through
  rw [countDispositions_applied]
  refine Eq.trans ?_ through
  unfold appliedConfirmations confirmationsThrough Table.select
  rw [List.filter_filter, List.countP_filter, List.countP_eq_length_filter]
  congr 2
  funext c
  exact Bool.and_comm _ _

end Counts

/-! ## Confirmed by the cutoff -/

/-- A payment is confirmed on time when one of its statuses is a paid one. -/
theorem outcomeOf_eq_confirmed {statuses : List PaymentStatus} :
    outcomeOf statuses = .confirmedOnTime ↔
      ∃ status ∈ statuses, status = .captured ∨ status = .partiallyRefunded ∨ status = .refunded := by
  have hany : (statuses.any fun status =>
      decide (status = .captured ∨ status = .partiallyRefunded ∨ status = .refunded)) = true ↔
      ∃ status ∈ statuses, status = .captured ∨ status = .partiallyRefunded ∨
        status = .refunded := by
    simp only [List.any_eq_true, decide_eq_true_eq]
  rw [← hany]
  unfold outcomeOf
  constructor
  · intro h
    by_contra hnone
    rw [if_neg hnone] at h
    split at h
    · cases h
    · split at h <;> cases h
  · exact fun h => if_pos h

/-- The events of a section are those of the account. -/
theorem mem_statusesThrough {db : Database} {id : String} {a : Account} (ha : db.account id = some a)
    {cutoff : Instant} {status : PaymentStatus} :
    status ∈ statusesThrough db cutoff id ↔
      ∃ event ∈ a.eventsThrough cutoff, event.payload.payment.status = status := by
  obtain ⟨_, _, hevents⟩ := Database.account_eq_some ha
  unfold statusesThrough eventsThrough Account.eventsThrough
  rw [hevents, Database.publishedOf_eq, List.filter_filter, List.filter_map, List.mem_map]
  constructor
  · rintro ⟨event, mem, rfl⟩
    obtain ⟨mem, hthrough⟩ := Table.mem_select.mp ((List.mem_insertionSort _).mp mem)
    refine ⟨event.published, List.mem_map_of_mem (List.mem_filter.mpr ⟨mem, ?_⟩), rfl⟩
    rw [Bool.and_comm] at hthrough
    exact hthrough
  · rintro ⟨_, mem, rfl⟩
    obtain ⟨event, hevent, rfl⟩ := List.mem_map.mp mem
    obtain ⟨hrow, hthrough⟩ := List.mem_filter.mp hevent
    refine ⟨event, (List.mem_insertionSort _).mpr (Table.mem_select.mpr ⟨hrow, ?_⟩), rfl⟩
    rw [Bool.and_comm]
    exact hthrough

section Run

variable {ι : Type} [DecidableEq ι] {sha256 : String → String}
  {ts : List (Pool.Transition Database ι (Option Client))}
  {v : Pool.World Database ι (Option Client)} {now : Instant}

/-- **A payment is reported confirmed exactly when its cutoff ledger has captured something.** -/
theorem Clocked.confirmed_iff (h : Clocked sha256 ts v now) {p : PaymentRecord}
    (hp : v.shared.payments.get p.id = some p) {cutoff : Instant} (hcutoff : p.createdAt ≤ cutoff) :
    outcomeOf (statusesThrough v.shared cutoff p.id) = .confirmedOnTime ↔
      0 < (calculateLedgerTotals (v.shared.ledgerOf p.id) (some cutoff)).captured := by
  have ha := Database.account_of_get hp
  obtain ⟨first, steps, lived⟩ := h.execution.lived hp
  have positive := (bounded_of_stored (Table.get_eq_some hp).1).amount
  rw [outcomeOf_eq_confirmed, ← lived.paid_through_iff (h.chronicled _ _ ha) positive hcutoff]
  constructor
  · rintro ⟨status, mem, hpaid⟩
    obtain ⟨event, hevent, rfl⟩ := (mem_statusesThrough ha).mp mem
    exact ⟨event, hevent, hpaid⟩
  · rintro ⟨event, hevent, hpaid⟩
    exact ⟨_, (mem_statusesThrough ha).mpr ⟨event, hevent, rfl⟩, hpaid⟩

/-- The delayed payments that are confirmed by a cutoff. -/
def confirmedPayments (db : Database) (cutoff : Instant) : List PaymentRecord :=
  (delayedPayments db cutoff).filter fun p =>
    decide (outcomeOf (statusesThrough db cutoff p.id) = .confirmedOnTime)

/-- The captures of the ledger through a cutoff. -/
def capturesThrough (db : Database) (cutoff : Instant) : List LedgerEntryRecord :=
  (confirmationCaptures db.ledgerEntries.rows).filter fun e => decide (e.createdAt ≤ cutoff)

theorem confirmedPayments_nodup (db : Database) (cutoff : Instant) :
    ((confirmedPayments db cutoff).map (·.id)).Nodup := by
  have hsub : (confirmedPayments db cutoff).Sublist db.payments.rows :=
    List.filter_sublist.trans List.filter_sublist
  exact db.payments.nodup_keys.sublist (hsub.map _)

/-- A payment has at most one capture. -/
theorem Clocked.captures_nodup (h : Clocked sha256 ts v now) (cutoff : Instant) :
    ((capturesThrough v.shared cutoff).map (·.paymentId)).Nodup := by
  refine List.nodup_iff_count_le_one.mpr fun id => ?_
  have hcount : ((capturesThrough v.shared cutoff).map (·.paymentId)).count id ≤
      (v.shared.capturesOf id).length := by
    unfold capturesThrough Database.capturesOf Database.ledgerOf confirmationCaptures Table.select
    rw [List.count_eq_countP, List.countP_map, List.countP_filter, List.countP_filter,
      List.filter_filter, ← List.countP_eq_length_filter]
    refine List.countP_mono_left fun entry _ hentry => ?_
    simp only [Function.comp_apply, Bool.and_eq_true, beq_iff_eq, decide_eq_true_eq] at hentry ⊢
    exact ⟨hentry.2, hentry.1.1⟩
  refine hcount.trans ?_
  cases hget : v.shared.payments.get id with
  | none =>
    have hnone := (h.execution.consistent.grounded.nothing hget).1
    unfold Database.capturesOf
    rw [hnone]
    exact Nat.zero_le _
  | some p =>
    obtain rfl := (Table.get_eq_some hget).2
    obtain ⟨first, steps, lived⟩ := h.execution.lived hget
    exact lived.capturedOnce.once

/-- The payments confirmed by a cutoff are those captured by it. -/
theorem Clocked.confirmed_captured (h : Clocked sha256 ts v now) (announced : Announced ts)
    (cutoff : Instant) (id : String) :
    id ∈ (confirmedPayments v.shared cutoff).map (·.id) ↔
      id ∈ (capturesThrough v.shared cutoff).map (·.paymentId) := by
  -- what a stored payment has captured by a confirmation
  have captured : ∀ p, v.shared.payments.get p.id = some p →
      p.paymentFlow = .asynchronousConfirmation →
      (0 < (calculateLedgerTotals (v.shared.ledgerOf p.id) (some cutoff)).captured ↔
        ∃ entry ∈ confirmationCaptures (v.shared.ledgerOf p.id), entry.createdAt ≤ cutoff) := by
    intro p hp hflow
    obtain ⟨first, steps, lived⟩ := h.execution.lived hp
    exact Account.captured_through_iff lived.keepsToFlow lived.capturedOnce hflow
      (bounded_of_stored (Table.get_eq_some hp).1).amount
  constructor
  · intro mem
    obtain ⟨p, hp, rfl⟩ := List.mem_map.mp mem
    obtain ⟨hdelayed, hconfirmed⟩ := List.mem_filter.mp hp
    obtain ⟨hrow, hselected⟩ := Table.mem_select.mp hdelayed
    obtain ⟨hflow, hcutoff⟩ := Bool.and_eq_true_iff.mp hselected
    have hget := Table.get_of_mem hrow
    have hpositive := (h.confirmed_iff hget (decide_eq_true_eq.mp hcutoff)).mp
      (decide_eq_true_eq.mp hconfirmed)
    obtain ⟨entry, hentry, hle⟩ := (captured p hget (decide_eq_true_eq.mp hflow)).mp hpositive
    obtain ⟨hledger, hop⟩ := List.mem_filter.mp hentry
    obtain ⟨hstored, hid⟩ := Table.mem_select.mp hledger
    refine List.mem_map.mpr ⟨entry, List.mem_filter.mpr ⟨List.mem_filter.mpr ⟨hstored, hop⟩,
      decide_eq_true hle⟩, decide_eq_true_eq.mp hid⟩
  · intro mem
    obtain ⟨entry, hentry, rfl⟩ := List.mem_map.mp mem
    obtain ⟨hcapture, hle⟩ := List.mem_filter.mp hentry
    obtain ⟨hstored, hop⟩ := List.mem_filter.mp hcapture
    obtain ⟨p, hget⟩ := h.execution.consistent.grounded.ledger entry hstored
    have hid : p.id = entry.paymentId := (Table.get_eq_some hget).2
    have hget' : v.shared.payments.get p.id = some p := by rw [hid]; exact hget
    have hledger : entry ∈ v.shared.ledgerOf p.id :=
      Table.mem_select.mpr ⟨hstored, decide_eq_true hid.symm⟩
    obtain ⟨first, steps, lived⟩ := h.execution.lived hget'
    have hflow := lived.keepsToFlow.confirmations entry hledger (decide_eq_true_eq.mp hop)
    have hcutoff := ((h.agreed announced).follows entry hcapture p hget).trans
      (decide_eq_true_eq.mp hle)
    have hpositive := (captured p hget' hflow).mpr
      ⟨entry, List.mem_filter.mpr ⟨hledger, hop⟩, decide_eq_true_eq.mp hle⟩
    refine List.mem_map.mpr ⟨p, List.mem_filter.mpr ⟨Table.mem_select.mpr
      ⟨(Table.get_eq_some hget).1, ?_⟩,
      decide_eq_true ((h.confirmed_iff hget' hcutoff).mpr hpositive)⟩, hid⟩
    exact Bool.and_eq_true_iff.mpr ⟨decide_eq_true hflow, decide_eq_true hcutoff⟩

/-- **As many payments are confirmed by a cutoff as captures were made.** -/
theorem Clocked.confirmed_length (h : Clocked sha256 ts v now) (announced : Announced ts)
    (cutoff : Instant) :
    (confirmedPayments v.shared cutoff).length = (capturesThrough v.shared cutoff).length := by
  have hperm := (List.perm_ext_iff_of_nodup (confirmedPayments_nodup v.shared cutoff)
    (h.captures_nodup cutoff)).mpr (h.confirmed_captured announced cutoff)
  simpa only [List.length_map] using hperm.length_eq

end Run

/-! ## The section -/

/-- A section that was not saved before is generated from the committed store. -/
theorem confirmationSection_first {batchId : String} {clock : Datetime} {s s' : DatabaseSession}
    {report : ConfirmationReport} {batch : SettlementBatchRecord}
    (stored : s.committed.settlementBatches.get batchId = some batch)
    (first : s.committed.confirmationReports.get batchId = none)
    (h : confirmationSection batchId clock s = (.ok report, s')) :
    ∃ generated, report = generateReport s.committed batch.cutoff generated := by
  unfold confirmationSection at h
  rw [bind_ok (beginCoordinatedWrite_apply s)] at h
  have h := tryCatch_eq_ok (fun e t => ⟨e, _, rfl⟩) h
  rw [bind_ok (query_apply _ _)] at h
  have hfirst : (coordinated s).working.confirmationReports.get batchId = none := first
  have hstored : (coordinated s).working.settlementBatches.get batchId = some batch := stored
  rw [hfirst] at h
  have h : firstGeneration batchId clock (coordinated s) = (.ok report, s') := h
  unfold firstGeneration at h
  rw [bind_ok (query_apply _ _), hstored] at h
  obtain ⟨generated, s₁, hclock, h⟩ := bind_eq_ok h
  obtain rfl : s₁ = coordinated s := by
    cases clock with
    | naive wall => cases hclock
    | aware utc =>
      cases hclock
      rfl
  rw [bind_ok (query_apply _ _)] at h
  obtain ⟨_, _, _, h⟩ := bind_eq_ok h
  rw [bind_ok (commit_apply _)] at h
  exact ⟨generated, (pure_eq_ok h).1.symm⟩

/-- A section agrees with the payments and the ledger of a store through a cutoff. The counts are of
payments, of final records and of captures; that each is made of the same payments is the last field,
not just that the numbers are equal. -/
structure SectionAgrees (db : Database) (cutoff : Instant) (report : ConfirmationReport) : Prop where
  paymentCount : report.paymentCount = (delayedPayments db cutoff).length
  /-- each delayed payment is counted in its one outcome -/
  outcomes : ∀ name, report.paymentOutcomes.under name = (delayedPayments db cutoff).countP fun p =>
    decide (outcomeOf (statusesThrough db cutoff p.id) = name)
  /-- the events, the final records and the ledger give one count -/
  applied : report.paymentOutcomes.confirmedOnTime = report.dispositions.applied
  captures : report.dispositions.applied = (capturesThrough db cutoff).length
  confirmed : ∀ p ∈ delayedPayments db cutoff,
    outcomeOf (statusesThrough db cutoff p.id) = .confirmedOnTime ↔
      0 < (calculateLedgerTotals (db.ledgerOf p.id) (some cutoff)).captured

section Run

variable {ι : Type} [DecidableEq ι] {sha256 : String → String}
  {ts : List (Pool.Transition Database ι (Option Client))}
  {v : Pool.World Database ι (Option Client)} {now : Instant}

/-- **The confirmation section agrees with the money**: the payments it counts as confirmed, the
confirmations it counts as applied and the captures of the ledger are of the same payments, and each
delayed payment is counted once. It is said of a section that is generated; one that was saved
earlier is answered as it was. The two invariants it rests on are `Follows` and `Agreed`. -/
theorem section_agrees (h : Clocked sha256 ts v now) (announced : Announced ts) {batchId : String}
    {batch : SettlementBatchRecord} (stored : v.shared.settlementBatches.get batchId = some batch)
    (first : v.shared.confirmationReports.get batchId = none) {s s' : DatabaseSession}
    (hs : s.committed = v.shared) {clock : Datetime} {report : ConfirmationReport}
    (hrun : confirmationSection batchId clock s = (.ok report, s')) :
    SectionAgrees v.shared batch.cutoff report := by
  rw [← hs] at stored first
  obtain ⟨generated, rfl⟩ := confirmationSection_first stored first hrun
  rw [hs]
  have captures : (countDispositions (confirmationsThrough v.shared batch.cutoff)).applied =
      (capturesThrough v.shared batch.cutoff).length := by
    rw [(h.agreed announced).applied, List.countP_eq_length_filter]
    rfl
  refine ⟨countOutcomes_sum _ _, countOutcomes_under _ _, ?_, captures, fun p mem => ?_⟩
  · calc (countOutcomes v.shared batch.cutoff).confirmedOnTime
        = (confirmedPayments v.shared batch.cutoff).length := by
          rw [confirmedPayments, ← List.countP_eq_length_filter]
          exact countOutcomes_under _ _ .confirmedOnTime
      _ = (capturesThrough v.shared batch.cutoff).length := h.confirmed_length announced _
      _ = (countDispositions (confirmationsThrough v.shared batch.cutoff)).applied := captures.symm
  · obtain ⟨hrow, hselected⟩ := Table.mem_select.mp mem
    exact h.confirmed_iff (Table.get_of_mem hrow)
      (decide_eq_true_eq.mp (Bool.and_eq_true_iff.mp hselected).2)

end Run

/-! ## The section of a refunded invoice -/

/-- A batch that closes at 7. -/
def closedBatch : SettlementBatchRecord := { id := "setb_1", cutoff := 7, createdAt := 10 }

/-- The store after the batch was imported. -/
def batchedStore : Database :=
  { returnedDesk.1 with
    settlementBatches := (returnedDesk.1.settlementBatches.insert closedBatch).getD ∅ }

/-- A step that has no receipt before it, or adds no payment. -/
def announcesPayments (t : Pool.Transition Database Bool (Option Client)) : Bool :=
  t.pre.confirmationReceipts.rows.isEmpty ||
    t.post.payments.rows.all fun p => (t.pre.payments.get p.id).isSome

theorem announced_of_all {ts : List (Pool.Transition Database Bool (Option Client))}
    (h : ts.all announcesPayments = true) : Announced ts := by
  intro t mem p hbefore hafter receipt hreceipt
  rcases Bool.or_eq_true_iff.mp (List.all_eq_true.mp h t mem) with hnone | hsome
  · rw [List.isEmpty_iff.mp hnone] at hreceipt
    cases hreceipt
  · have hget := List.all_eq_true.mp hsome p (Table.get_eq_some hafter).1
    rw [hbefore] at hget
    cases hget

/-- A section through 7 counts the invoice as confirmed, whatever was returned at 9. -/
theorem batched_section_agrees :
    ∃ report s', confirmationSection "setb_1" (.aware 10) (Session.start batchedStore ∅) =
        (.ok report, s') ∧
      report.paymentCount = 1 ∧ report.paymentOutcomes.confirmedOnTime = 1 ∧
      SectionAgrees batchedStore 7 report := by
  have imported : Background returnedDesk.1 batchedStore := ⟨rfl, rfl, rfl, ⟨rfl, rfl⟩, rfl⟩
  have h := returned_clocked.background imported
  have announced : Announced (returnedSteps ++
      [⟨false, returnedDesk.1, none, batchedStore, none⟩]) :=
    announced_of_all (by decide +kernel)
  have generated : ((confirmationSection "setb_1" (.aware 10)
        (Session.start batchedStore ∅)).1.toOption.map fun report =>
          (report.paymentCount, report.paymentOutcomes.confirmedOnTime)) = some (1, 1) ∧
      batchedStore.settlementBatches.get "setb_1" = some closedBatch ∧
      batchedStore.confirmationReports.get "setb_1" = none := by
    decide +kernel
  obtain ⟨hgenerated, stored, first⟩ := generated
  obtain ⟨r, s', hrun⟩ : ∃ r s', confirmationSection "setb_1" (.aware 10)
    (Session.start batchedStore ∅) = (r, s') := ⟨_, _, rfl⟩
  rw [hrun] at hgenerated
  cases r with
  | error e => cases hgenerated
  | ok report =>
    obtain ⟨hcount, hconfirmed⟩ := Prod.mk.inj (Option.some.inj hgenerated)
    exact ⟨report, s', hrun, hcount, hconfirmed, section_agrees h announced stored first rfl hrun⟩

end PaymentLab
