import PaymentLab.Account.Model

/-!
# Balances

The ledger of an account adds up to the balances of its row, and the balances fit the status. Both
are one invariant of lifecycle steps (`Balanced`), because the direction in which a ledger row
counts depends on the status it was written under.

A capture moves an authorized amount, and one by confirmation moves an amount that was never
authorized before. With the status of the row in the invariant the induction over the steps goes
through, one case for each step.
-/

namespace PaymentLab

/-- The totals of a ledger, added on at the end. -/
theorem calculateLedgerTotals_append (entries : List LedgerEntryRecord) (entry : LedgerEntryRecord) :
    calculateLedgerTotals (entries ++ [entry]) none =
      (calculateLedgerTotals entries none).add entry := by
  unfold calculateLedgerTotals
  rw [List.foldl_append]
  rfl

/-- The balances of a row as ledger totals. -/
def PaymentRecord.balances (payment : PaymentRecord) : LedgerTotals :=
  { authorized := payment.authorizedAmount
    captured := payment.capturedAmount
    refunded := payment.refundedAmount }

/-- The balances a status allows. An awaiting payment is a delayed one, an authorized payment is not;
from a capture on both kinds look alike. Where a status leaves a balance open, as the partial refund
does, only its bounds are given. -/
def PaymentRecord.FitsStatus (payment : PaymentRecord) : Prop :=
  match payment.status with
  | .awaitingPayment =>
    payment.paymentFlow = .asynchronousConfirmation ∧ payment.balances = ⟨0, 0, 0⟩
  | .declined | .expired => payment.balances = ⟨0, 0, 0⟩
  | .authorized =>
    payment.paymentFlow = .synchronous ∧ payment.balances = ⟨payment.amount, 0, 0⟩
  | .captured => payment.balances = ⟨payment.amount, payment.amount, 0⟩
  | .partiallyRefunded =>
    payment.authorizedAmount = payment.amount ∧ payment.capturedAmount = payment.amount ∧
      0 < payment.refundedAmount ∧ payment.refundedAmount < payment.capturedAmount
  | .refunded => payment.balances = ⟨payment.amount, payment.amount, payment.amount⟩
  | .cancelled =>
    payment.balances =
      ⟨if payment.paymentFlow = .asynchronousConfirmation then 0 else payment.amount, 0, 0⟩

theorem PaymentRecord.balances_eq_iff {payment : PaymentRecord} {authorized captured refunded : Int} :
    payment.balances = ⟨authorized, captured, refunded⟩ ↔
      payment.authorizedAmount = authorized ∧ payment.capturedAmount = captured ∧
        payment.refundedAmount = refunded := by
  unfold balances
  simp only [LedgerTotals.mk.injEq]

namespace Account

/-- The ledger adds up to the balances, in the payment's currency, and the balances fit the
status. -/
structure Balanced (account : Account) : Prop where
  totals : calculateLedgerTotals account.ledger none = account.row.balances
  currency : ∀ entry ∈ account.ledger, entry.currency = account.row.currency
  fits : account.row.FitsStatus

variable {first a b : Account} {steps : List LifecycleStep} {step : LifecycleStep}

theorem Opened.balanced (h : a.Opened) : a.Balanced := by
  obtain ⟨_, hcaptured, hrefunded, _, hcases⟩ := h.cases
  obtain ⟨hex, hledger⟩ := h.ledger
  refine ⟨?_, ?_, ?_⟩
  · -- an authorized balance is one entry of that amount, a zero balance writes none
    rw [hledger]
    unfold authorizationEntry
    split
    · next hne =>
      rw [Option.toList_some, ← List.nil_append [_], calculateLedgerTotals_append]
      show LedgerTotals.mk (0 + a.row.authorizedAmount) 0 0 = _
      rw [zero_add, ← hcaptured]
      nth_rewrite 2 [hcaptured]
      rw [← hrefunded]
      rfl
    · next hzero =>
      have hzero := not_not.mp hzero
      show LedgerTotals.mk 0 0 0 = _
      exact (PaymentRecord.balances_eq_iff.mpr ⟨hzero, hcaptured, hrefunded⟩).symm
  · intro entry hentry
    rw [hledger] at hentry
    unfold authorizationEntry at hentry
    split at hentry
    · rw [Option.toList_some, List.mem_singleton] at hentry
      rw [hentry]
    · cases hentry
  · unfold PaymentRecord.FitsStatus
    rcases hcases with ⟨hs, hf, ha, _⟩ | ⟨hs, hf, ha, _, _⟩ | ⟨hs, _, ha, _⟩ <;> rw [hs]
    · exact ⟨hf, PaymentRecord.balances_eq_iff.mpr ⟨ha, hcaptured, hrefunded⟩⟩
    · exact ⟨hf, PaymentRecord.balances_eq_iff.mpr ⟨ha, hcaptured, hrefunded⟩⟩
    · exact PaymentRecord.balances_eq_iff.mpr ⟨ha, hcaptured, hrefunded⟩

/-! ## One step -/

/-- What a step adds to the ledger totals is what it adds to the balances, and the new balances fit
the new status. One case for each pure function. -/
theorem Balanced.step_row {before after : PaymentRecord} (fits : before.FitsStatus)
    (decided : Decides step before after)
    (confirmed : ∀ amount, step = .captureConfirmation amount → amount = before.amount)
    (id : String) (now : Instant) :
    after.FitsStatus ∧
      (match step.entry before after id now with
        | some entry => before.balances.add entry = after.balances
        | none => before.balances = after.balances) := by
  obtain ⟨state, next, hbefore, hafter, happly⟩ := decided.states
  have same := decided.sameIdentity
  obtain ⟨bs, ba, bc, br⟩ := paymentState_eq_ok hbefore
  obtain ⟨as, aa, ac, ar⟩ := paymentState_eq_ok hafter
  cases step with
  | capture =>
    obtain ⟨hs, hs', ha, hc, hr⟩ := capture_eq_ok happly
    have hfits := fits
    unfold PaymentRecord.FitsStatus at hfits ⊢
    rw [← bs, hs] at hfits
    rw [← as, hs']
    obtain ⟨_, hbalances⟩ := hfits
    obtain ⟨e1, e2, e3⟩ := PaymentRecord.balances_eq_iff.mp hbalances
    refine ⟨PaymentRecord.balances_eq_iff.mpr ⟨?_, ?_, ?_⟩, ?_⟩
    · rw [same.amount]; omega
    · rw [same.amount]; omega
    · omega
    · show LedgerTotals.mk before.authorizedAmount
        (before.capturedAmount + (after.capturedAmount - before.capturedAmount))
        before.refundedAmount = _
      exact (PaymentRecord.balances_eq_iff.mpr ⟨by omega, by omega, by omega⟩).symm
  | captureConfirmation amount =>
    obtain ⟨hs, _, hs', ha, hc, hr⟩ := captureConfirmation_eq_ok happly
    have hamount := confirmed amount rfl
    have hfits := fits
    unfold PaymentRecord.FitsStatus at hfits ⊢
    rw [← bs, hs] at hfits
    rw [← as, hs']
    obtain ⟨_, hbalances⟩ := hfits
    obtain ⟨e1, e2, e3⟩ := PaymentRecord.balances_eq_iff.mp hbalances
    refine ⟨PaymentRecord.balances_eq_iff.mpr ⟨?_, ?_, ?_⟩, ?_⟩
    · rw [same.amount]; omega
    · rw [same.amount]; omega
    · omega
    · show LedgerTotals.mk (before.authorizedAmount + amount) (before.capturedAmount + amount)
        before.refundedAmount = _
      exact (PaymentRecord.balances_eq_iff.mpr ⟨by omega, by omega, by omega⟩).symm
  | expire =>
    obtain ⟨hs, hs', ha, hc, hr⟩ := expire_eq_ok happly
    have hfits := fits
    unfold PaymentRecord.FitsStatus at hfits ⊢
    rw [← bs, hs] at hfits
    rw [← as, hs']
    obtain ⟨e1, e2, e3⟩ := PaymentRecord.balances_eq_iff.mp hfits.2
    have heq : after.balances = ⟨0, 0, 0⟩ :=
      PaymentRecord.balances_eq_iff.mpr ⟨by omega, by omega, by omega⟩
    exact ⟨heq, hfits.2.trans heq.symm⟩
  | cancel =>
    obtain ⟨hs, hs', ha, hc, hr⟩ := cancel_eq_ok happly
    have hfits := fits
    unfold PaymentRecord.FitsStatus at hfits ⊢
    rw [← as, hs']
    rcases hs with hs | hs
    · -- a cancelled authorization keeps its authorized balance and writes an entry that counts for nothing
      rw [← bs, hs] at hfits
      obtain ⟨hflow, hbalances⟩ := hfits
      obtain ⟨e1, e2, e3⟩ := PaymentRecord.balances_eq_iff.mp hbalances
      refine ⟨PaymentRecord.balances_eq_iff.mpr ⟨?_, by omega, by omega⟩, ?_⟩
      · rw [same.paymentFlow, hflow, same.amount]
        simp only [reduceCtorEq, if_false]
        omega
      · have hne : before.status ≠ .awaitingPayment := by rw [← bs, hs]; decide
        simp only [LifecycleStep.entry, LifecycleStep.posting, if_neg hne, Option.map_some]
        show before.balances = _
        exact (PaymentRecord.balances_eq_iff.mpr ⟨by omega, by omega, by omega⟩ :
          before.balances = ⟨after.authorizedAmount, after.capturedAmount, after.refundedAmount⟩)
    · rw [← bs, hs] at hfits
      obtain ⟨hflow, hbalances⟩ := hfits
      obtain ⟨e1, e2, e3⟩ := PaymentRecord.balances_eq_iff.mp hbalances
      refine ⟨PaymentRecord.balances_eq_iff.mpr ⟨?_, by omega, by omega⟩, ?_⟩
      · rw [same.paymentFlow, hflow, if_pos rfl]
        omega
      · have hawaiting : before.status = .awaitingPayment := by rw [← bs, hs]
        simp only [LifecycleStep.entry, LifecycleStep.posting, if_pos hawaiting, Option.map_none]
        exact (PaymentRecord.balances_eq_iff.mpr ⟨by omega, by omega, by omega⟩ :
          before.balances = ⟨after.authorizedAmount, after.capturedAmount, after.refundedAmount⟩)
  | refund amount =>
    obtain ⟨hs, hpos, hle, hs', ha, hc, hr⟩ := refund_eq_ok happly
    unfold PaymentState.refundableAmount at hle
    have before_captured : before.authorizedAmount = before.amount ∧
        before.capturedAmount = before.amount ∧ 0 ≤ before.refundedAmount := by
      have hfits := fits
      unfold PaymentRecord.FitsStatus at hfits
      rcases hs with hs | hs <;> rw [← bs, hs] at hfits
      · obtain ⟨e1, e2, e3⟩ := PaymentRecord.balances_eq_iff.mp hfits
        exact ⟨e1, e2, by omega⟩
      · exact ⟨hfits.1, hfits.2.1, by omega⟩
    obtain ⟨e1, e2, e3⟩ := before_captured
    refine ⟨?_, ?_⟩
    · unfold PaymentRecord.FitsStatus
      rw [← as, hs']
      by_cases hfull : state.refundedAmount + amount = state.capturedAmount
      · rw [if_pos hfull]
        refine PaymentRecord.balances_eq_iff.mpr ⟨?_, ?_, ?_⟩ <;> rw [same.amount] <;> omega
      · rw [if_neg hfull]
        refine ⟨?_, ?_, by omega, by omega⟩ <;> rw [same.amount] <;> omega
    · show LedgerTotals.mk before.authorizedAmount before.capturedAmount
        (before.refundedAmount + amount) = _
      exact (PaymentRecord.balances_eq_iff.mpr ⟨by omega, by omega, by omega⟩).symm

theorem Extends.balanced (e : Extends step a b) (h : a.Balanced) : b.Balanced := by
  obtain ⟨id, now, hledger⟩ := e.ledger
  obtain ⟨hfits, hadds⟩ := Balanced.step_row h.fits e.decided e.confirmed id now
  have hcurrency := e.decided.sameIdentity.currency
  cases hentry : step.entry a.row b.row id now with
  | none =>
    rw [hentry] at hledger hadds
    rw [Option.toList_none, List.append_nil] at hledger
    refine ⟨?_, ?_, hfits⟩
    · rw [hledger, h.totals]
      exact hadds
    · intro entry mem
      rw [hledger] at mem
      rw [hcurrency]
      exact h.currency entry mem
  | some posted =>
    rw [hentry] at hledger hadds
    rw [Option.toList_some] at hledger
    refine ⟨?_, ?_, hfits⟩
    · rw [hledger, calculateLedgerTotals_append, h.totals]
      exact hadds
    · intro entry mem
      rw [hledger] at mem
      rw [hcurrency]
      rcases List.mem_append.mp mem with mem | mem
      · exact h.currency entry mem
      · rw [List.mem_singleton.mp mem]
        obtain ⟨posting, _, rfl⟩ := Option.map_eq_some_iff.mp hentry
        rfl

/-- **The ledger conserves money**: whatever steps an account went through, its ledger adds up to
its balances and the balances fit its status. -/
theorem Lived.balanced (h : Lived first a steps) : a.Balanced := by
  induction h with
  | opened h => exact h.balanced
  | extended _ e ih => exact e.balanced ih

end Account

end PaymentLab
