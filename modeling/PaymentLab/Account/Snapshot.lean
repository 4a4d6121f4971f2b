import PaymentLab.Account.Balances
import PaymentLab.Account.History
import PaymentLab.Consumer.Wire

/-!
# The snapshots of an account

Every event of an account carries the row of one of its versions (`Lived.event_row`), and each of
these rows is financially sound, so every snapshot a producer publishes passes the consumer's checks
(`Lived.event_sound`).
-/

namespace PaymentLab

/-- The columns an authorization fixes agree with each other and with the status. -/
structure PaymentRecord.Regular (payment : PaymentRecord) : Prop where
  declined : payment.declineReason.isSome ↔ payment.status = .declined
  reference : payment.paymentReference.isSome ↔ payment.paymentFlow = .asynchronousConfirmation
  expiry : payment.expiresAt.isSome ↔ payment.paymentFlow = .asynchronousConfirmation
  id_ne : payment.id ≠ ""
  reference_ne : payment.paymentReference ≠ some ""
  version_pos : 1 ≤ payment.version

theorem prefixed_ne_empty {pre : String} (h : pre ≠ "") (rest : String) : pre ++ rest ≠ "" := by
  intro heq
  apply h
  simpa using (String.append_eq_empty_iff.mp heq).1

namespace Account

variable {first a b : Account} {steps : List LifecycleStep} {step : LifecycleStep}

theorem Opened.regular (h : a.Opened) : a.row.Regular := by
  obtain ⟨command, terms, now, hex, reference, _, _, hterms, hrow, _, _⟩ := h
  have hid : ("pay_" ++ hex : String) ≠ "" := prefixed_ne_empty (by simp) hex
  have hreference : ("ref_" ++ reference : String) ≠ "" := prefixed_ne_empty (by simp) reference
  rw [hrow]
  unfold authorizationTerms at hterms
  split at hterms
  · cases hterms
    constructor <;> simp [newPayment, hid, hreference]
  · cases hres : authorize command.amount _ with
    | error e =>
      rw [hres] at hterms
      cases hterms
    | ok result =>
      rw [hres] at hterms
      cases hterms
      obtain ⟨_, hcases⟩ := authorize_eq_ok hres
      rcases hcases with ⟨hstatus, _, hreason⟩ | ⟨hstatus, _, reason, hreason⟩
      · constructor <;> simp [newPayment, hid, hstatus, hreason]
      · constructor <;> simp [newPayment, hid, hstatus, hreason]

/-- No step enters or leaves the declined status. -/
theorem Extends.regular (e : Extends step a b) (h : a.row.Regular) : b.row.Regular := by
  have same := e.decided.sameIdentity
  have hversion := e.decided.version
  have hdoc := e.decided.documented.1
  refine ⟨?_, ?_, ?_, ?_, ?_, ?_⟩
  · rw [same.declineReason, h.declined]
    constructor
    · intro hstatus
      rw [hstatus] at hdoc
      exact hdoc.elim
    · intro hstatus
      rw [hstatus] at hdoc
      cases ha : a.row.status <;> rw [ha] at hdoc <;> exact hdoc.elim
  · rw [same.paymentReference, same.paymentFlow]
    exact h.reference
  · rw [same.expiresAt, same.paymentFlow]
    exact h.expiry
  · rw [same.id]
    exact h.id_ne
  · rw [same.paymentReference]
    exact h.reference_ne
  · omega

theorem Lived.regular (h : Lived first a steps) : a.row.Regular := by
  induction h with
  | opened h => exact h.regular
  | extended _ e ih => exact e.regular ih

/-- **Every event carries the row of one version.** -/
theorem Lived.event_row (h : Lived first a steps) {event : PublishedEvent} (mem : event ∈ a.events) :
    ∃ b steps' eventType hex, Lived first b steps' ∧ SameIdentity b.row a.row ∧
      event = publishedEvent b.row eventType hex := by
  induction h with
  | opened h =>
    obtain ⟨_, hex, hevents⟩ := h.start
    rw [hevents] at mem
    exact ⟨_, [], _, hex, .opened h, .refl _, List.mem_singleton.mp mem⟩
  | @extended a b steps step lived e ih =>
    obtain ⟨hex, hevents⟩ := e.events
    rw [hevents] at mem
    rcases List.mem_append.mp mem with mem | mem
    · obtain ⟨c, steps', eventType, hex', lived', same, hevent⟩ := ih mem
      exact ⟨c, steps', eventType, hex', lived', same.trans e.decided.sameIdentity, hevent⟩
    · exact ⟨b, _, _, hex, lived.extended e, .refl _, List.mem_singleton.mp mem⟩

/-- A row that fits its status is financially sound. -/
theorem sound_of_row {payment : PaymentRecord} (fits : payment.FitsStatus)
    (regular : payment.Regular) (positive : 0 < payment.amount) :
    (PaymentSnapshot.fromPayment payment).Sound := by
  have bounds : 0 ≤ payment.refundedAmount ∧ payment.refundedAmount ≤ payment.capturedAmount ∧
      payment.capturedAmount ≤ payment.authorizedAmount ∧ payment.authorizedAmount ≤ payment.amount := by
    unfold PaymentRecord.FitsStatus at fits
    cases hs : payment.status <;> rw [hs] at fits
    case authorized =>
      obtain ⟨_, h⟩ := fits
      obtain ⟨ha, hc, hr⟩ := PaymentRecord.balances_eq_iff.mp h
      omega
    case awaitingPayment =>
      obtain ⟨_, h⟩ := fits
      obtain ⟨ha, hc, hr⟩ := PaymentRecord.balances_eq_iff.mp h
      omega
    case partiallyRefunded => omega
    case cancelled =>
      obtain ⟨ha, hc, hr⟩ := PaymentRecord.balances_eq_iff.mp fits
      split at ha <;> omega
    all_goals
      obtain ⟨ha, hc, hr⟩ := PaymentRecord.balances_eq_iff.mp fits
      omega
  obtain ⟨hnonneg, hrefunded, hcaptured, hauthorized⟩ := bounds
  refine ⟨positive, hnonneg, hrefunded, hcaptured, hauthorized, regular.version_pos, regular.declined,
    regular.reference, regular.expiry, ?_⟩
  intro hstatus
  have hawaiting : payment.status = .awaitingPayment := hstatus
  unfold PaymentRecord.FitsStatus at fits
  rw [hawaiting] at fits
  exact ⟨fits.1, PaymentRecord.balances_eq_iff.mp fits.2⟩

/-- **Every published snapshot is sound** and says what it is. -/
theorem Lived.event_sound (h : Lived first a steps) (positive : 0 < a.row.amount)
    {event : PublishedEvent} (mem : event ∈ a.events) :
    event.payload.payment.Sound ∧ event.payload.payment.id ≠ "" ∧
      event.payload.payment.paymentReference ≠ some "" ∧ event.id ≠ "" := by
  obtain ⟨b, _, eventType, hex, lived, same, rfl⟩ := h.event_row mem
  have regular := lived.regular
  have positive' : 0 < b.row.amount := by
    rw [← same.amount]
    exact positive
  refine ⟨sound_of_row lived.balanced.fits regular positive', regular.id_ne, regular.reference_ne, ?_⟩
  exact prefixed_ne_empty (by simp) hex

end Account

/-! ## Snapshots in order -/

/-- How far a status is on its way. -/
def PaymentStatus.rank : PaymentStatus → Nat
  | .awaitingPayment | .authorized | .declined => 0
  | .captured => 1
  | .partiallyRefunded => 2
  | .refunded | .cancelled | .expired => 3

/-- What a later snapshot of a payment has of an earlier one: the columns an authorization fixes,
balances that never shrink, and a status that never comes back once it was left. -/
structure PaymentSnapshot.Precedes (a b : PaymentSnapshot) : Prop where
  id : b.id = a.id
  merchantReference : b.merchantReference = a.merchantReference
  amount : b.amount = a.amount
  currency : b.currency = a.currency
  paymentFlow : b.paymentFlow = a.paymentFlow
  paymentReference : b.paymentReference = a.paymentReference
  expiresAt : b.expiresAt = a.expiresAt
  declineReason : b.declineReason = a.declineReason
  authorized : a.authorizedAmount ≤ b.authorizedAmount
  captured : a.capturedAmount ≤ b.capturedAmount
  refunded : a.refundedAmount ≤ b.refundedAmount
  rank : a.status.rank ≤ b.status.rank
  status : a.status.rank = b.status.rank → a.status = b.status

namespace PaymentSnapshot.Precedes

variable {a b c : PaymentSnapshot}

theorem refl (a : PaymentSnapshot) : a.Precedes a :=
  ⟨rfl, rfl, rfl, rfl, rfl, rfl, rfl, rfl, le_refl _, le_refl _, le_refl _, le_refl _, fun _ => rfl⟩

theorem trans (h : a.Precedes b) (k : b.Precedes c) : a.Precedes c := by
  refine ⟨k.id.trans h.id, k.merchantReference.trans h.merchantReference, k.amount.trans h.amount,
    k.currency.trans h.currency, k.paymentFlow.trans h.paymentFlow,
    k.paymentReference.trans h.paymentReference, k.expiresAt.trans h.expiresAt,
    k.declineReason.trans h.declineReason, h.authorized.trans k.authorized,
    h.captured.trans k.captured, h.refunded.trans k.refunded, h.rank.trans k.rank, fun hrank => ?_⟩
  have hfirst := h.rank
  have hsecond := k.rank
  rw [h.status (by omega), k.status (by omega)]

/-- A status both ends of a stretch have, every snapshot between has. -/
theorem status_between (h : a.Precedes b) (k : b.Precedes c) (hends : a.status = c.status) :
    b.status = c.status := by
  have hfirst := h.rank
  have hsecond := k.rank
  rw [hends] at hfirst
  exact k.status (by omega)

end PaymentSnapshot.Precedes

/-- The documented transitions climb, and a partial refund repeats. -/
theorem PaymentStatus.Documented.rank {a b : PaymentStatus} (h : a.Documented b) :
    a.rank ≤ b.rank ∧ (a.rank = b.rank → a = b) := by
  cases a <;> cases b <;> first | exact absurd h id | simp [PaymentStatus.rank]

namespace Account

variable {first a b : Account} {steps : List LifecycleStep} {step : LifecycleStep}

/-- The row a step decides comes after the row it decides from. -/
theorem decides_precedes {before after : PaymentRecord} (fits : before.FitsStatus)
    (h : Decides step before after) :
    (PaymentSnapshot.fromPayment before).Precedes (.fromPayment after) := by
  have same := h.sameIdentity
  obtain ⟨hrank, hstatus⟩ := h.documented.1.rank
  obtain ⟨state, next, hbefore, hafter, happly⟩ := h.states
  obtain ⟨hs, ha, hc, hr⟩ := paymentState_eq_ok hbefore
  obtain ⟨hs', ha', hc', hr'⟩ := paymentState_eq_ok hafter
  have nonnegative := next.nonnegative
  -- nothing is captured or refunded where a step captures or ends a payment
  have clear : before.status = .authorized ∨ before.status = .awaitingPayment →
      before.capturedAmount = 0 ∧ before.refundedAmount = 0 ∧
        (before.status = .awaitingPayment → before.authorizedAmount = 0) := by
    intro hearly
    unfold PaymentRecord.FitsStatus at fits
    rcases hearly with hearly | hearly <;> rw [hearly] at fits ⊢ <;>
      obtain ⟨_, hbalances⟩ := fits <;>
      obtain ⟨hauthorized, hcaptured, hrefunded⟩ := PaymentRecord.balances_eq_iff.mp hbalances
    · exact ⟨hcaptured, hrefunded, by simp⟩
    · exact ⟨hcaptured, hrefunded, fun _ => hauthorized⟩
  have bounds : before.authorizedAmount ≤ after.authorizedAmount ∧
      before.capturedAmount ≤ after.capturedAmount ∧ before.refundedAmount ≤ after.refundedAmount := by
    cases step with
    | capture =>
      obtain ⟨hfrom, _, hauthorized, hcaptured, hrefunded⟩ := capture_eq_ok happly
      obtain ⟨_, _, _⟩ := clear (.inl (hs ▸ hfrom))
      omega
    | captureConfirmation amount =>
      obtain ⟨hfrom, _, _, hauthorized, hcaptured, hrefunded⟩ := captureConfirmation_eq_ok happly
      obtain ⟨_, _, hzero⟩ := clear (.inr (hs ▸ hfrom))
      have := hzero (hs ▸ hfrom)
      omega
    | expire =>
      obtain ⟨_, _, hauthorized, hcaptured, hrefunded⟩ := expire_eq_ok happly
      omega
    | cancel =>
      obtain ⟨hfrom, _, hauthorized, hcaptured, hrefunded⟩ := cancel_eq_ok happly
      obtain ⟨_, _, _⟩ := clear (hs ▸ hfrom)
      omega
    | refund amount =>
      obtain ⟨_, hpositive, _, _, hauthorized, hcaptured, hrefunded⟩ := refund_eq_ok happly
      omega
  exact ⟨same.id, same.merchantReference, same.amount, same.currency, same.paymentFlow,
    same.paymentReference, same.expiresAt, same.declineReason, bounds.1, bounds.2.1, bounds.2.2,
    hrank, hstatus⟩

/-- Every event comes before the row as it stands. -/
theorem Lived.event_precedes (h : Lived first a steps) {event : PublishedEvent}
    (mem : event ∈ a.events) : event.payload.payment.Precedes (.fromPayment a.row) := by
  induction h with
  | opened h =>
    obtain ⟨_, hex, hevents⟩ := h.start
    rw [hevents] at mem
    rw [List.mem_singleton.mp mem]
    exact .refl _
  | @extended a b steps step lived e ih =>
    obtain ⟨hex, hevents⟩ := e.events
    rw [hevents] at mem
    rcases List.mem_append.mp mem with mem | mem
    · exact (ih mem).trans (decides_precedes lived.balanced.fits e.decided)
    · rw [List.mem_singleton.mp mem]
      exact .refl _

/-- **The events of an account are in order**: by version, and each snapshot after those before. -/
theorem Lived.events_ordered (h : Lived first a steps) :
    a.events.Pairwise fun x y => x.aggregateVersion < y.aggregateVersion ∧
      x.payload.payment.Precedes y.payload.payment := by
  induction h with
  | opened h =>
    obtain ⟨_, hex, hevents⟩ := h.start
    rw [hevents]
    exact List.pairwise_singleton _ _
  | @extended a b steps step lived e ih =>
    obtain ⟨hex, hevents⟩ := e.events
    rw [hevents]
    refine List.pairwise_append.mpr ⟨ih, List.pairwise_singleton _ _, fun x hx y hy => ?_⟩
    rw [List.mem_singleton.mp hy]
    refine ⟨?_, (lived.event_precedes hx).trans (decides_precedes lived.balanced.fits e.decided)⟩
    have hversion : x.aggregateVersion ∈ List.range' 1 a.row.version := by
      rw [← lived.published.versions]
      exact List.mem_map_of_mem hx
    have hbound := List.mem_range'_1.mp hversion
    have hnext := e.decided.version
    show x.aggregateVersion < b.row.version
    omega

end Account

end PaymentLab
