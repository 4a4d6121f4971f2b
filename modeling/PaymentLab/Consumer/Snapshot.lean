import PaymentLab.Services.Consumer

/-!
# Validated snapshots

What `parse_webhook_payload` guarantees of the snapshot it returns, whatever the body was
(`parse_sound`): the financial invariants of a payment, collected from the field helpers, the checks
of the snapshot and the constructor of the domain state.

No assumption is made about the body or its sender: the checks of the validation are enough for the
invariants. That the snapshot is that of an existing payment is not among them, and cannot be, since
the consumer has no access to the payments.
-/

namespace PaymentLab

/-- The invariants of a payment snapshot. -/
structure PaymentSnapshot.Sound (payment : PaymentSnapshot) : Prop where
  amount_pos : 0 < payment.amount
  refunded_nonneg : 0 ≤ payment.refundedAmount
  refunded_le : payment.refundedAmount ≤ payment.capturedAmount
  captured_le : payment.capturedAmount ≤ payment.authorizedAmount
  authorized_le : payment.authorizedAmount ≤ payment.amount
  version_pos : 1 ≤ payment.version
  declined : payment.declineReason.isSome ↔ payment.status = .declined
  reference : payment.paymentReference.isSome ↔ payment.paymentFlow = .asynchronousConfirmation
  expiry : payment.expiresAt.isSome ↔ payment.paymentFlow = .asynchronousConfirmation
  awaiting : payment.status = .awaitingPayment →
    payment.paymentFlow = .asynchronousConfirmation ∧ payment.authorizedAmount = 0 ∧
      payment.capturedAmount = 0 ∧ payment.refundedAmount = 0

theorem except_ok_bind {ε α β : Type} (a : α) (f : α → Except ε β) :
    ((.ok a : Except ε α) >>= f) = f a := rfl

section Checks

variable {eventType : WebhookEventType} {kinds : SnapshotKinds} {fields : SnapshotFields}

theorem flowAgrees_iff {flow : PaymentFlow} {paymentReference : Option String}
    {expiresAt : Option Instant} : flowAgrees flow paymentReference expiresAt = true ↔
      (paymentReference.isSome ↔ flow = .asynchronousConfirmation) ∧
        (expiresAt.isSome ↔ flow = .asynchronousConfirmation) := by
  cases flow <;> cases paymentReference <;> cases expiresAt <;> simp [flowAgrees]

/-- The balances that the domain state accepts. -/
theorem create_isSome {status : PaymentStatus} {authorized captured refunded : Int} :
    (PaymentState.create status authorized captured refunded).toOption.isSome = true ↔
      0 ≤ refunded ∧ refunded ≤ captured ∧ captured ≤ authorized := by
  constructor
  · intro h
    cases hcreate : PaymentState.create status authorized captured refunded with
    | error e =>
      rw [hcreate] at h
      cases h
    | ok state =>
      obtain ⟨_, rfl, rfl, rfl⟩ := PaymentState.create_eq_ok hcreate
      exact ⟨state.nonnegative.2.2, state.refunded_le_captured, state.captured_le_authorized⟩
  · rintro ⟨hnonneg, hrefunded, hcaptured⟩
    obtain ⟨state, hcreate⟩ := PaymentState.create_of_valid status hnonneg hrefunded hcaptured
    rw [hcreate]
    rfl

/-- What the checks of a snapshot say. -/
theorem checkSnapshot_eq_ok {aggregateVersion : Int}
    (h : checkSnapshot eventType aggregateVersion fields = .ok kinds) :
    0 < fields.amount ∧ fields.authorizedAmount ≤ fields.amount ∧ 1 ≤ aggregateVersion ∧
      fields.version = aggregateVersion ∧ snapshotAgrees eventType kinds fields = true := by
  unfold checkSnapshot at h
  split at h
  · cases h
  · next hamounts =>
    split at h
    · cases h
    · next hversion =>
      split at h
      · dsimp only at h
        split at h
        · next hagrees =>
          cases h
          refine ⟨by omega, by omega, by omega, by omega, hagrees⟩
        · cases h
      · cases h

/-- **A checked snapshot is sound.** -/
theorem readSnapshot_sound {fromIsoformat : String → Except IsoFault Datetime}
    {values : List (String × Json)} {aggregateVersion : Int} {payment : PaymentSnapshot}
    (hcheck : checkSnapshot eventType aggregateVersion fields = .ok kinds)
    (h : readSnapshot fromIsoformat values fields kinds = .ok payment) :
    payment.Sound ∧ payment.version = aggregateVersion.toNat := by
  obtain ⟨hamount, hauthorized, hversion, hsame, hagrees⟩ := checkSnapshot_eq_ok hcheck
  obtain ⟨merchantReference, _, h⟩ := except_bind_eq_ok h
  obtain ⟨createdAt, _, h⟩ := except_bind_eq_ok h
  obtain ⟨updatedAt, _, h⟩ := except_bind_eq_ok h
  cases h
  simp only [snapshotAgrees, Bool.and_eq_true, create_isSome, flowAgrees_iff, beq_iff_eq] at hagrees
  obtain ⟨⟨⟨⟨hdeclined, hreference, hexpiry⟩, hawaiting⟩, _⟩, hrefunded, hcaptured, hbound⟩ := hagrees
  refine ⟨⟨hamount, hrefunded, hcaptured, hbound, hauthorized, ?_, ?_, hreference, hexpiry, ?_⟩, ?_⟩
  · show 1 ≤ fields.version.toNat
    omega
  · show fields.declineReason.isSome = true ↔ kinds.status = .declined
    rw [← hdeclined, decide_eq_true_eq]
  · intro hstatus
    have hkinds : kinds.status = .awaitingPayment := hstatus
    simpa [hkinds, and_assoc] using hawaiting
  · rw [hsame]

end Checks

/-- **Validation**: a body that is accepted carries a sound snapshot of the event's version. -/
theorem parse_sound {loads : Bytes → Except LoadsFault Json}
    {fromIsoformat : String → Except IsoFault Datetime} {payload : Bytes}
    {envelope : WebhookEnvelope}
    (h : parseWebhookPayload loads fromIsoformat payload = .ok envelope) :
    envelope.payment.Sound ∧ envelope.payment.version = envelope.aggregateVersion := by
  obtain ⟨values, _, h⟩ := except_bind_eq_ok h
  obtain ⟨eventId, _, h⟩ := except_bind_eq_ok h
  obtain ⟨eventType, _, h⟩ := except_bind_eq_ok h
  obtain ⟨aggregateVersion, _, h⟩ := except_bind_eq_ok h
  obtain ⟨createdAt, _, h⟩ := except_bind_eq_ok h
  obtain ⟨paymentValues, _, h⟩ := except_bind_eq_ok h
  obtain ⟨fields, _, h⟩ := except_bind_eq_ok h
  obtain ⟨kinds, hcheck, h⟩ := except_bind_eq_ok h
  obtain ⟨payment, hread, h⟩ := except_bind_eq_ok h
  cases h
  exact readSnapshot_sound hcheck hread

end PaymentLab
