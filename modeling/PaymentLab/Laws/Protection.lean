import PaymentLab.Laws.Idempotency
import PaymentLab.Laws.Settlement

/-!
# An accepted confirmation wins

A payment that awaits its confirmation is protected by every receipt accepted in time for it. While
it is protected, scheduled expiry skips it, a late confirmation leaves it, and a cancellation is
refused; the first protecting receipt that completes is applied and captures it. The predicate of
`services/coordination.py` and the classification of a completion agree on every receipt
(`classify_of_protects`), which is what the whole argument rests on.

The protection is against what follows the acceptance. A confirmation that arrives at the deadline
or after it protects nothing, nor does one of another amount or currency, and neither does one of a
reference that belongs to no payment. Several receipts may protect one payment; the first that
completes captures it, and the rest find it captured.
-/

namespace PaymentLab

open Relational Transactional Transactional.Service

/-- The payment awaits its confirmation, and an accepted receipt protects it: one that matches its
reference, amount and currency, came before the deadline, and is not completed yet. -/
structure Protected (db : Database) (p : PaymentRecord) : Prop where
  stored : db.payments.get p.id = some p
  awaiting : p.status = .awaitingPayment
  receipt : protectingReceiptExists db p = true

/-- What it takes to protect a payment. -/
theorem protects_iff {r : ConfirmationReceiptRecord} {p : PaymentRecord} :
    protects r p = true ↔ some r.paymentReference = p.paymentReference ∧ r.completed = false ∧
      r.amount = p.amount ∧ r.currency = p.currency ∧
      ∃ expiresAt, p.expiresAt = some expiresAt ∧ r.receivedAt < expiresAt := by
  unfold protects
  cases hexpires : p.expiresAt with
  | none =>
    simp only [Bool.and_false, Bool.false_eq_true, reduceCtorEq, false_and, exists_false, and_false]
  | some expiresAt =>
    simp only [Bool.and_eq_true, decide_eq_true_eq, Bool.not_eq_true', Option.some.injEq,
      exists_eq_left', and_assoc]

theorem protectingReceiptExists_iff {db : Database} {p : PaymentRecord} :
    protectingReceiptExists db p = true ↔
      ∃ r ∈ db.confirmationReceipts.rows, protects r p = true := List.any_eq_true

/-- A payment is found by its reference. -/
theorem paymentByReference_of_stored {db : Database} {p : PaymentRecord} {reference : String}
    (stored : db.payments.get p.id = some p) (href : p.paymentReference = some reference) :
    paymentByReference db reference = some p := by
  have hmem : p ∈ db.payments.rows := Table.mem_iff_get.mpr stored
  cases hfound : paymentByReference db reference with
  | none =>
    have := List.find?_eq_none.mp hfound p hmem
    simp only [href, decide_true, not_true_eq_false] at this
  | some q =>
    obtain ⟨hq, hqref⟩ := paymentByReference_eq_some hfound
    by_cases hne : q = p
    · rw [hne]
    · -- two payments never share a reference
      have hclash := Table.clash_eq_false (Table.mem_iff_get.mpr hq) hmem hne
      simp only [paymentSchema, hqref, href, Option.isSome_some, decide_true, Bool.and_self,
        Bool.true_eq_false, or_self] at hclash

/-- **The two rules agree**: a receipt that protects an awaiting payment is classified as applied to
it. -/
theorem classify_of_protects {db : Database} {p : PaymentRecord} {r : ConfirmationReceiptRecord}
    (stored : db.payments.get p.id = some p) (awaiting : p.status = .awaitingPayment)
    (h : protects r p = true) :
    paymentByReference db r.paymentReference = some p ∧
      classify (some p) r.command r.receivedAt = .ok .applied := by
  obtain ⟨href, _, hamount, hcurrency, expiresAt, hexpires, hbefore⟩ := protects_iff.mp h
  refine ⟨paymentByReference_of_stored stored href.symm, ?_⟩
  have hdeadline : ¬r.receivedAt ≥ expiresAt := not_le.mpr hbefore
  have hamount' : ¬r.command.amount ≠ p.amount := not_not.mpr hamount
  have hcurrency' : ¬r.command.currency ≠ p.currency := not_not.mpr hcurrency
  unfold classify
  simp only [awaiting, reduceCtorEq, if_false, ne_eq, not_true_eq_false, hexpires]
  rw [if_neg hdeadline, if_neg hamount', if_neg hcurrency']

/-! ## One effect -/

/-- Every receipt that protects the payment is still there, and still pending. Of a receipt that did
not protect it nothing is said. -/
def StillPending (db db' : Database) (p : PaymentRecord) : Prop :=
  ∀ r ∈ db.confirmationReceipts.rows, protects r p = true → r ∈ db'.confirmationReceipts.rows

/-- A protecting receipt completes: it is applied, the payment is captured, and the one row of its
ledger is the confirmation capture of its amount. Where several receipts protect the payment it does
not say which of them; the others are left pending, or completed by a later step. -/
structure Wins (db db' : Database) (p : PaymentRecord) : Prop where
  receipt : ∃ r ∈ db.confirmationReceipts.rows, protects r p = true ∧
    db'.confirmationReceipts.get r.confirmationId = some { r with completed := true } ∧
    ∃ c, db'.paymentConfirmations.get r.confirmationId = some c ∧ c.disposition = .applied ∧
      c.paymentId = some p.id
  captured : ∃ q, db'.payments.get p.id = some q ∧ q.status = .captured ∧ SameIdentity p q
  ledger : ∃ entry, db'.ledgerOf p.id = [entry] ∧ entry.operation = "CONFIRMATION_CAPTURE" ∧
    entry.amount = p.amount

section Effects

variable {sha256 : String → String} {db db' : Database} {p : PaymentRecord}

theorem StillPending.of_same (same : db'.confirmationReceipts = db.confirmationReceipts) :
    StillPending db db' p := by
  intro r mem _
  rw [same]
  exact mem

theorem StillPending.protected (h : Protected db p) (pending : StillPending db db' p)
    (stored : db'.payments.get p.id = some p) : Protected db' p := by
  obtain ⟨r, mem, hprotects⟩ := protectingReceiptExists_iff.mp h.receipt
  exact ⟨stored, h.awaiting, protectingReceiptExists_iff.mpr ⟨r, pending r mem hprotects, hprotects⟩⟩

/-- A step of an unprotected payment is of another one. -/
theorem Protected.other {before : PaymentRecord} (h : Protected db p)
    (stored : db.payments.get before.id = some before)
    (unprotected : protectingReceiptExists db before = false) : p.id ≠ before.id := by
  intro heq
  rw [← heq, h.stored] at stored
  cases stored
  rw [h.receipt] at unprotected
  cases unprotected

/-- The operations of the API on a protected payment: none goes through. -/
theorem Operated.other {command : LifecycleCommand} {key : String} {before after : PaymentRecord}
    (h : Protected db p) (e : Operated sha256 command key before after db db') :
    p.id ≠ before.id := by
  intro heq
  obtain ⟨step, hstep, hadvances⟩ := e.advances
  have hsame : p = before := by
    have := hadvances.stored
    rw [← heq, h.stored] at this
    exact Option.some.inj this
  subst hsame
  obtain ⟨state, next, hstate, _, happly⟩ := hadvances.decided.states
  have hstatus := (paymentState_eq_ok hstate).1.trans h.awaiting
  cases step with
  | capture =>
    rw [(capture_eq_ok happly).1] at hstatus
    cases hstatus
  | refund amount =>
    rcases (refund_eq_ok happly).1 with hs | hs <;> rw [hs] at hstatus <;> cases hstatus
  | captureConfirmation amount => exact LifecycleCommand.step_ne_confirmation hstep amount rfl
  | cancel =>
    have hoperation : command.operation = .cancel := by
      unfold LifecycleCommand.step at hstep
      split at hstep <;> cases hstep
      assumption
    exact (h.other hadvances.stored (e.unprotected hoperation h.awaiting)) rfl
  | expire =>
    unfold LifecycleCommand.step at hstep
    split at hstep <;> cases hstep

/-- A completion that is not applied to the payment leaves its protecting receipts pending. -/
theorem Settled.stillPending {receipt : ConfirmationReceiptRecord}
    {disposition : ConfirmationDisposition} (h : Protected db p)
    (e : Settled sha256 receipt disposition db db')
    (elsewhere : disposition = .applied → paymentByReference db receipt.paymentReference ≠ some p) :
    StillPending db db' p := by
  intro r mem hprotects
  by_cases hid : r.confirmationId = receipt.confirmationId
  · -- the completed receipt itself would have been applied
    have hsame : r = receipt := by
      have := Table.get_of_mem mem
      rw [show confirmationReceiptSchema.key r = receipt.confirmationId from hid, e.stored] at this
      exact (Option.some.inj this).symm
    subst hsame
    obtain ⟨hfound, happlied⟩ := classify_of_protects h.stored h.awaiting hprotects
    have hclassified := e.classified
    rw [hfound, happlied] at hclassified
    exact absurd hfound (elsewhere (Except.ok.inj hclassified).symm)
  · exact Table.mem_iff_get.mpr
      ((Table.get_update_of_ne e.completed (Ne.symm hid)).trans (Table.get_of_mem mem))

/-- **One effect on a protected payment**: it stays protected by every receipt that protected it, or
one of them wins. -/
theorem Effect.protected (h : Protected db p) (settlement : Settlement sha256 db)
    (untouched : db.ledgerOf p.id = []) (e : Effect sha256 db db') :
    (StillPending db db' p ∧ db'.payments.get p.id = some p) ∨ Wins db db' p := by
  cases e with
  | @created command key payment e =>
    have hne : p.id ≠ payment.id := by
      intro heq
      have := e.fresh
      rw [← heq, h.stored] at this
      cases this
    exact .inl ⟨.of_same e.confirmations.receipts, (e.get_of_ne hne).trans h.stored⟩
  | operated e =>
    obtain ⟨step, _, hadvances⟩ := e.advances
    exact .inl ⟨.of_same e.confirmations.receipts,
      (hadvances.get_of_ne (e.other h)).trans h.stored⟩
  | received e =>
    obtain ⟨_, hinsert⟩ := e.receipt
    refine .inl ⟨fun r mem _ => ?_, by rw [e.accounts.payments]; exact h.stored⟩
    rw [Table.insert_rows hinsert]
    exact List.mem_append_left _ mem
  | @settled receipt disposition e =>
    cases e.effect with
    | none hne same _ =>
      exact .inl ⟨e.stillPending h fun happlied => absurd happlied hne,
        by rw [same.payments]; exact h.stored⟩
    | captured before after happlied hpayment hadvances =>
      by_cases hid : p.id = before.id
      · -- the completed receipt is one that protects the payment
        have hsame : p = before := by
          have := hadvances.stored
          rw [← hid, h.stored] at this
          exact Option.some.inj this
        subst hsame
        have hclassified := e.classified
        rw [hpayment, happlied] at hclassified
        obtain ⟨q, expiresAt, hq, _, hexpires, hbefore, hamount, hcurrency⟩ :=
          classify_eq_applied hclassified
        cases hq
        have hpending : receipt.completed = false := by
          cases hcompleted : receipt.completed with
          | false => rfl
          | true =>
            obtain ⟨c, hc⟩ := (settlement.completed _ receipt e.stored).mp hcompleted
            rw [e.fresh] at hc
            cases hc
        have href := (paymentByReference_eq_some hpayment).2
        have hprotects : protects receipt p = true :=
          protects_iff.mpr ⟨href.symm, hpending, hamount, hcurrency, expiresAt, hexpires, hbefore⟩
        obtain ⟨_, next, _, hnext, happly⟩ := hadvances.decided.states
        obtain ⟨_, _, hcaptured, _⟩ := captureConfirmation_eq_ok happly
        obtain ⟨entryId, now, hledger⟩ := hadvances.ledgerOf
        refine .inr ⟨⟨receipt, (Table.get_eq_some e.stored).1, hprotects, ?_, _,
          Table.get_insert_self e.confirmation, happlied, ?_⟩, ⟨after, hadvances.stored_after, ?_,
          hadvances.decided.sameIdentity⟩, ?_⟩
        · exact Table.get_update_self (r := { receipt with completed := true }) e.completed e.stored
        · show (paymentByReference db receipt.paymentReference).map (·.id) = some p.id
          rw [hpayment]
          rfl
        · rw [← (paymentState_eq_ok hnext).1]
          exact hcaptured
        · rw [hledger, untouched]
          exact ⟨_, rfl, rfl, hamount⟩
      · refine .inl ⟨e.stillPending h fun _ hfound => hid ?_,
          (hadvances.get_of_ne hid).trans h.stored⟩
        rw [hpayment] at hfound
        exact congrArg PaymentRecord.id (Option.some.inj hfound).symm
    | expired before after hlate hpayment unprotected hadvances =>
      have hne := h.other hadvances.stored unprotected
      have elsewhere : disposition = .applied → paymentByReference db receipt.paymentReference ≠ some p :=
        fun happlied => nomatch hlate.symm.trans happlied
      exact .inl ⟨e.stillPending h elsewhere, (hadvances.get_of_ne hne).trans h.stored⟩
  | expired e =>
    exact .inl ⟨.of_same e.confirmations.receipts,
      (e.advances.get_of_ne (h.other e.advances.stored e.unprotected)).trans h.stored⟩
  | background e =>
    exact .inl ⟨.of_same e.confirmations.receipts, by rw [e.payments]; exact h.stored⟩

end Effects

/-! ## A refused cancellation -/

section Cancellation

variable {sha256 : String → String} {p : PaymentRecord} {failurePoint : Option FailurePoint}
  {claimedAt now : Instant} {draws : Draws}

/-- With nothing loaded, a stored payment is read from its row. -/
theorem getPayment_stored {s : DatabaseSession} (hempty : s.identity = ∅)
    (stored : s.working.payments.get p.id = some p) :
    ∃ s', getPayment p.id s = (.ok p, s') ∧ s'.working = s.working := by
  have hread : sessionGetPayment p.id s =
      (.ok (some p), { s with begun := true, identity := holdPayment p s.identity }) := by
    unfold sessionGetPayment
    rw [getThrough_apply, hempty]
    simp only [stored]
    rfl
  exact ⟨_, bind_ok hread, rfl⟩

variable (failurePoint now draws) in
/-- The guarded body of a cancellation, on a protected payment. -/
theorem executeCancel_protected {s : DatabaseSession} (claim : IdempotencyRecord)
    (hempty : s.identity = ∅) (h : Protected s.working p) :
    ∃ s', executeClaimedLifecycleOperation (.cancel p.id) claim failurePoint now draws s =
      (.error .confirmationPending, s') := by
  obtain ⟨s₁, hget, hworking⟩ := getPayment_stored hempty h.stored
  obtain ⟨nonnegative, refunded_le, captured_le, _⟩ := balances_ordered h.stored
  obtain ⟨state, hstate⟩ := PaymentState.create_of_valid p.status nonnegative refunded_le captured_le
  have hawaiting : state.status = .awaitingPayment :=
    (paymentState_eq_ok hstate).1.trans h.awaiting
  have hprotected : cancellationProtected p state s₁ = (.ok true, { s₁ with begun := true }) := by
    unfold cancellationProtected hasProtectingReceipt
    rw [if_pos hawaiting, query_apply, hworking]
    simp only [h.stored, h.receipt]
  have hdecide : decideOperation (.cancel p.id) p state s₁ =
      (.error .confirmationPending, { s₁ with begun := true }) := bind_ok hprotected
  refine ⟨{ s₁ with begun := true }, ?_⟩
  unfold executeClaimedLifecycleOperation
  rw [show (LifecycleCommand.cancel p.id).paymentId = p.id from rfl, bind_ok hget,
    show paymentState p = .ok state from hstate, liftDomain_ok, bind_ok (pure_apply state s₁)]
  exact bind_error hdecide

/-- **A cancellation of a protected payment under a free key is refused**, and nothing changes. -/
theorem cancelPayment_protected {key : String} {s s' : DatabaseSession}
    {r : Except ServiceError PaymentOutcome} (h : Protected s.committed p)
    (hfree : s.committed.idempotencyRecords.get key = none)
    (hrun : cancelPayment sha256 p.id key failurePoint claimedAt now draws s = (r, s')) :
    r = .error .confirmationPending := by
  obtain ⟨r₁, s₁, hbody, _, _, hr⟩ := cancelPayment_guard hrun
  rw [bind_ok (beginCoordinatedWrite_apply s)] at hbody
  rcases claimedCall_cases (s := coordinated s) rfl hbody with
    ⟨record, hget, _⟩ | ⟨_, s₂, s₃, ⟨t, _, hworking⟩, hcommitted, hloaded, hexecute, _⟩
  · have hget : s.committed.idempotencyRecords.get key = some record := hget
    rw [hfree] at hget
    cases hget
  · have hprotected : Protected s₂.working p := by
      rw [hworking, hcommitted]
      exact ⟨h.stored, h.awaiting, h.receipt⟩
    obtain ⟨s₄, hrefused⟩ := executeCancel_protected failurePoint now draws
      (newClaim key ((LifecycleCommand.cancel p.id).fingerprint sha256)
        (LifecycleCommand.cancel p.id).operation.value claimedAt) hloaded hprotected
    cases hexecute.symm.trans hrefused
    rcases hr with rfl | ⟨e, he, hsql, _⟩
    · rfl
    · cases he
      cases hsql

end Cancellation

/-! ## Along an execution -/

section Execution

variable {ι : Type} {sha256 : String → String} {p : PaymentRecord}

/-- A batch of expiries leaves a protected payment and its receipts. -/
theorem expiries_protected {db db' : Database} (h : Protected db p)
    (batch : Relation.ReflTransGen ExpiresOne db db') :
    db'.confirmationReceipts = db.confirmationReceipts ∧ db'.payments.get p.id = some p := by
  induction batch with
  | refl => exact ⟨rfl, h.stored⟩
  | tail _ one ih =>
    obtain ⟨before, after, hexpired⟩ := one
    have held := StillPending.protected h (.of_same ih.1) ih.2
    exact ⟨hexpired.confirmations.receipts.trans ih.1,
      (hexpired.advances.get_of_ne
        (held.other hexpired.advances.stored hexpired.unprotected)).trans ih.2⟩

/-- One move on a protected payment. -/
theorem Moves.protected {t : Pool.Transition Database ι (Option Client)} (moves : Moves sha256 t)
    (h : Protected t.pre p) (settlement : Settlement sha256 t.pre)
    (untouched : t.pre.ledgerOf p.id = []) :
    (StillPending t.pre t.post p ∧ t.post.payments.get p.id = some p) ∨ Wins t.pre t.post p := by
  cases moves with
  | background _ e => exact Effect.protected h settlement untouched (.background e : Effect sha256 t.pre t.post)
  | aside _ _ _ _ same _ =>
    rw [same]
    exact .inl ⟨.of_same rfl, h.stored⟩
  | acted client _ coherent unfinished hpost _ =>
    have commits := (Client.act_commits sha256 coherent.admits unfinished
      coherent.sound).commits
    rw [← hpost] at commits
    cases commits with
    | nothing same =>
      rw [same]
      exact .inl ⟨.of_same rfl, h.stored⟩
    | keyed _ e => exact Effect.protected h settlement untouched e.effect
    | received _ e => exact Effect.protected h settlement untouched (.received e)
    | settled _ e => exact Effect.protected h settlement untouched (.settled e)
    | swept _ batch =>
      obtain ⟨same, stored⟩ := expiries_protected h batch
      exact .inl ⟨.of_same same, stored⟩

/-- A captured payment, refunded or not. -/
def PaymentStatus.Paid (status : PaymentStatus) : Prop :=
  status = .captured ∨ status = .partiallyRefunded ∨ status = .refunded

theorem PaymentStatus.Documented.paid {a b : PaymentStatus} (h : a.Documented b) (paid : a.Paid) :
    b.Paid := by
  unfold Paid at paid ⊢
  rcases paid with rfl | rfl | rfl <;> cases b <;> first
    | exact h.elim
    | exact .inr (.inl rfl)
    | exact .inr (.inr rfl)

/-- The payment is still protected, or has been paid. -/
def Secured (p : PaymentRecord) (db : Database) : Prop :=
  Protected db p ∨ ∃ q, db.payments.get p.id = some q ∧ SameIdentity p q ∧ q.status.Paid

theorem effect_keeps_paid {db db' : Database} (e : Effect sha256 db db') (g : db.Grounded)
    (h : ∃ q, db.payments.get p.id = some q ∧ SameIdentity p q ∧ q.status.Paid) :
    ∃ q, db'.payments.get p.id = some q ∧ SameIdentity p q ∧ q.status.Paid := by
  obtain ⟨q, hq, hsame, hpaid⟩ := h
  rcases e.account_cases g p.id with same | ⟨hnone, _⟩ | ⟨step, a, b, ha, hb, _, ext⟩
  · rw [Database.account_of_get hq] at same
    exact ⟨q, (Database.account_eq_some same).1, hsame, hpaid⟩
  · rw [Database.account_of_get hq] at hnone
    cases hnone
  · have hrow : a.row = q := by
      have := (Database.account_eq_some ha).1
      rw [hq] at this
      exact (Option.some.inj this).symm
    refine ⟨b.row, (Database.account_eq_some hb).1, ?_, ?_⟩
    · exact hsame.trans (hrow ▸ ext.decided.sameIdentity)
    · exact ext.decided.documented.1.paid (hrow ▸ hpaid)

theorem effects_keep_paid {db db' : Database} (h : Relation.ReflTransGen (Effect sha256) db db')
    (g : db.Grounded)
    (paid : ∃ q, db.payments.get p.id = some q ∧ SameIdentity p q ∧ q.status.Paid) :
    ∃ q, db'.payments.get p.id = some q ∧ SameIdentity p q ∧ q.status.Paid :=
  (effects_keep (I := fun db => db.Grounded ∧
      ∃ q, db.payments.get p.id = some q ∧ SameIdentity p q ∧ q.status.Paid)
    (fun h e => ⟨e.grounded h.1, effect_keeps_paid e h.1 h.2⟩) h ⟨g, paid⟩).2

/-- A cancellation of a protected payment, as a move. -/
theorem Moves.cancellation_refused {t : Pool.Transition Database ι (Option Client)}
    (moves : Moves sha256 t) (h : Protected t.pre p) {client : Client} {key : String}
    {failurePoint : Option FailurePoint} {claimedAt now : Instant} {draws : Draws}
    (hbefore : t.before = some client)
    (hrequest : client.request = .cancel p.id key failurePoint claimedAt now draws)
    (hfree : t.pre.idempotencyRecords.get key = none) :
    t.post = t.pre ∧ ∀ result, EndsWith client result t → result = .error .confirmationPending := by
  rcases moves.acts hbefore with ⟨same, noEnd⟩ | ⟨coherent, unfinished, hpost, hafter⟩
  · exact ⟨same, fun result ends => absurd ends (noEnd result)⟩
  · obtain ⟨request, identity, phase⟩ := client
    cases hrequest
    rcases coherent.admits.resolve_left unfinished with rfl | hfalse
    · obtain ⟨r, s', hrun⟩ : ∃ r s', (Request.cancel p.id key failurePoint claimedAt now draws).step
        sha256 .ready (Session.start t.pre identity) = (r, s') := ⟨_, _, rfl⟩
      have result := Client.act_commits sha256 coherent.admits unfinished coherent.sound
      rw [Client.act_eq hrun] at result hpost hafter
      obtain ⟨outcome, hcancel, rfl⟩ := bind_pure_cases hrun
      cases cancelPayment_protected h hfree hcancel
      refine ⟨hpost.trans (result.failed _ rfl (.inr nofun)), fun answer ⟨_, last, hlast, hphase⟩ => ?_⟩
      cases hafter.symm.trans hlast
      cases hphase
      rfl
    · exact hfalse.elim

variable [DecidableEq ι] {ts us : List (Pool.Transition Database ι (Option Client))}
  {v u : Pool.World Database ι (Option Client)}

/-- An awaiting payment has no ledger row yet. -/
theorem Execution.awaiting_ledger (h : Execution sha256 ts v) (hp : Protected v.shared p) :
    v.shared.ledgerOf p.id = [] := by
  obtain ⟨first, steps, lived⟩ := h.lived hp.stored
  exact lived.capturedOnce.awaiting hp.awaiting

/-- A protected payment stays secured, whatever follows. -/
theorem Execution.secured (h : Execution sha256 ts v) (hp : Protected v.shared p)
    (run : Pool.Run (System sha256) v us u) : Secured p u.shared := by
  refine h.continues (P := fun _ => Secured p) run (.inl hp) ?_
  intro us t u reached hpre moves secured
  rw [← hpre] at secured
  rcases secured with held | paid
  · have untouched := reached.awaiting_ledger (hpre ▸ held)
    rw [← hpre] at untouched
    rcases moves.protected held (hpre ▸ reached.settlement) untouched with ⟨pending, stored⟩ | wins
    · exact .inl (pending.protected held stored)
    · obtain ⟨q, hq, hcaptured, hsame⟩ := wins.captured
      exact .inr ⟨q, hq, hsame, .inl hcaptured⟩
  · exact .inr (effects_keep_paid moves.effects (hpre ▸ reached.consistent.grounded) paid)

/-- An accepted confirmation wins over whatever follows it, expiry sweeps and cancellations included.
It says what cannot happen, and what the step is that ends the wait; that the wait ever ends is not
said, since no one may run the completion. -/
structure ConfirmationWins (p : PaymentRecord)
    (us : List (Pool.Transition Database ι (Option Client))) (db : Database) : Prop where
  /-- the payment is never expired or cancelled, and while it awaits it is protected -/
  outcome : ∃ q, db.payments.get p.id = some q ∧ SameIdentity p q ∧ q.status ≠ .expired ∧
    q.status ≠ .cancelled ∧
    (q.status = .awaitingPayment → q = p ∧ protectingReceiptExists db p = true)
  /-- while it awaits, every protecting receipt stays pending until the first one completes, is
  applied and captures it -/
  first : ∀ t ∈ us, (∃ q, t.pre.payments.get p.id = some q ∧ q.status = .awaitingPayment) →
    Protected t.pre p ∧
      ((StillPending t.pre t.post p ∧ t.post.payments.get p.id = some p) ∨ Wins t.pre t.post p)
  /-- while it awaits, a cancellation under a fresh key is refused as pending and changes nothing -/
  refused : ∀ t ∈ us, (∃ q, t.pre.payments.get p.id = some q ∧ q.status = .awaitingPayment) →
    ∀ client key failurePoint claimedAt now draws, t.before = some client →
      client.request = .cancel p.id key failurePoint claimedAt now draws →
      t.pre.idempotencyRecords.get key = none →
      t.post = t.pre ∧ ∀ result, EndsWith client result t → result = .error .confirmationPending

/-- A secured payment that awaits is protected. -/
theorem Secured.protected {db : Database} (h : Secured p db)
    (awaiting : ∃ q, db.payments.get p.id = some q ∧ q.status = .awaitingPayment) :
    Protected db p := by
  rcases h with held | ⟨q, hq, _, hpaid⟩
  · exact held
  · obtain ⟨q', hq', hawaiting⟩ := awaiting
    cases hq.symm.trans hq'
    rw [hawaiting] at hpaid
    rcases hpaid with h | h | h <;> cases h

theorem Secured.outcome {db : Database} (h : Secured p db) :
    ∃ q, db.payments.get p.id = some q ∧ SameIdentity p q ∧ q.status ≠ .expired ∧
      q.status ≠ .cancelled ∧
      (q.status = .awaitingPayment → q = p ∧ protectingReceiptExists db p = true) := by
  rcases h with held | ⟨q, hq, hsame, hpaid⟩
  · refine ⟨p, held.stored, .refl p, ?_, ?_, fun _ => ⟨rfl, held.receipt⟩⟩ <;>
      rw [held.awaiting] <;> decide
  · refine ⟨q, hq, hsame, ?_, ?_, fun hawaiting => ?_⟩
    · rcases hpaid with h | h | h <;> rw [h] <;> decide
    · rcases hpaid with h | h | h <;> rw [h] <;> decide
    · rw [hawaiting] at hpaid
      rcases hpaid with h | h | h <;> cases h

/-- **An accepted on-time confirmation always wins**, along every continuation of the run that
accepted it. The induction carries that the payment is protected or paid: a step that does not
complete a protecting receipt leaves it protected, and one that does captures it. It is not said that
one ever does. -/
theorem confirmation_wins (h : Execution sha256 ts v) (hp : Protected v.shared p)
    (run : Pool.Run (System sha256) v us u) : ConfirmationWins p us u.shared := by
  -- each transition starts in a state in which the payment is secured
  have secured : ∀ t ∈ us, Moves sha256 t ∧ Settlement sha256 t.pre ∧ Secured p t.pre ∧
      (Protected t.pre p → t.pre.ledgerOf p.id = []) := by
    intro t mem
    obtain ⟨before, after, w, _, first, enabled, _⟩ := run.split mem
    have reached := h.append first
    rw [enabled.1]
    exact ⟨(h.append run).moves (List.mem_append_right _ mem), reached.settlement,
      h.secured hp first, reached.awaiting_ledger⟩
  refine ⟨(h.secured hp run).outcome, fun t mem awaiting => ?_, fun t mem awaiting => ?_⟩
  · obtain ⟨moves, settlement, held, untouched⟩ := secured t mem
    have held := held.protected awaiting
    exact ⟨held, moves.protected held settlement (untouched held)⟩
  · intro client key failurePoint claimedAt now draws hbefore hrequest hfree
    obtain ⟨moves, _, held, _⟩ := secured t mem
    exact moves.cancellation_refused (held.protected awaiting) hbefore hrequest hfree

end Execution

/-! ## A protected invoice -/

/-- The invoice with the acceptance of its confirmation. -/
def acceptedStore : Database :=
  (Request.calls id [invoice, .accept ⟨"conf-1", "ref_1", 500, .usd⟩ (.aware 10)] (.empty, ∅)).1

/-- The payment of the invoice. -/
def invoiced : PaymentRecord where
  id := "pay_1"
  merchantReference := "order-2"
  amount := 500
  currency := .usd
  status := .awaitingPayment
  paymentFlow := .asynchronousConfirmation
  paymentReference := some "ref_1"
  expiresAt := some (hours 72)
  declineReason := none
  authorizedAmount := 0
  capturedAmount := 0
  refundedAmount := 0
  version := 1
  createdAt := 0
  updatedAt := 0

/-- Whatever follows the acceptance, the confirmation of the invoice wins. -/
theorem invoice_confirmation_wins :
    Protected acceptedStore invoiced ∧
      ∃ last, ∀ (us : List (Pool.Transition Database Unit (Option Client)))
        (u : Pool.World Database Unit (Option Client)),
        Pool.Run (System id) (alone acceptedStore last) us u →
        ConfirmationWins invoiced us u.shared := by
  obtain ⟨ts, last, h⟩ := Execution.of_calls id invoice
    [.accept ⟨"conf-1", "ref_1", 500, .usd⟩ (.aware 10)]
  have held : Protected acceptedStore invoiced :=
    ⟨by decide +kernel, rfl, by decide +kernel⟩
  exact ⟨held, last, fun us u run => confirmation_wins h held run⟩

end PaymentLab
