import PaymentLab.Account.Balances

/-!
# The sequential run

The row of an account is what the pure functions give when they are run one after the other from
the state it was opened in. What no sequential run can do, no account shows: refunds beyond the
captured amount, or a capture next to a cancellation.

Competing requests do not appear: by the time an account is extended it is decided which of them
committed. The sequential run is therefore a statement about the order of commits, and the pure
functions in it are the ones of the domain, run without a store.
-/

namespace PaymentLab

/-- The amount a step refunds. -/
def LifecycleStep.refunded : LifecycleStep → Int
  | .refund amount => amount
  | _ => 0

/-- The sum of the refunds among steps. -/
def refundTotal (steps : List LifecycleStep) : Int := (steps.map LifecycleStep.refunded).sum

/-- A step that captures, on request or by a confirmation. -/
def LifecycleStep.IsCapture : LifecycleStep → Prop
  | .capture | .captureConfirmation _ => True
  | _ => False

/-- One more step of a run. -/
theorem runLifecycle_snoc {state middle : PaymentState} {steps : List LifecycleStep}
    (h : runLifecycle state steps = .ok middle) (step : LifecycleStep) :
    runLifecycle state (steps ++ [step]) = step.apply middle := by
  unfold runLifecycle at h ⊢
  rw [List.foldlM_append, h]
  show (List.foldlM _ middle [step] : Except DomainError PaymentState) = _
  rw [List.foldlM_cons]
  cases step.apply middle <;> rfl

namespace Account

variable {first a b : Account} {steps : List LifecycleStep} {step : LifecycleStep}

/-- The row as a run of the pure functions: running them one after the other from the opening row
ends in the stored one. The functions are those of the domain, which know neither sessions nor
transactions. -/
structure Sequential (first a : Account) (steps : List LifecycleStep) : Prop where
  run : ∃ initial final, paymentState first.row = .ok initial ∧ paymentState a.row = .ok final ∧
    runLifecycle initial steps = .ok final
  version : a.row.version = first.row.version + steps.length
  refunds : refundTotal steps = a.row.refundedAmount
  captured : (∃ step ∈ steps, step.IsCapture) →
    a.row.status = .captured ∨ a.row.status = .partiallyRefunded ∨ a.row.status = .refunded
  cancelled : .cancel ∈ steps → a.row.status = .cancelled

theorem Opened.sequential (h : a.Opened) : Sequential a a [] := by
  obtain ⟨hauthorized, hcaptured, hrefunded, _, _⟩ := h.cases
  obtain ⟨state, hstate⟩ := @PaymentState.create_of_valid a.row.status a.row.authorizedAmount
    a.row.capturedAmount a.row.refundedAmount (by omega) (by omega) (by omega)
  refine ⟨⟨state, state, hstate, hstate, rfl⟩, rfl, hrefunded.symm, ?_, ?_⟩
  · rintro ⟨step, mem, _⟩
    cases mem
  · intro mem
    cases mem

/-- A status with no refund yet, before or after a step that refunds nothing. -/
theorem refundedAmount_eq_zero {payment : PaymentRecord} (fits : payment.FitsStatus)
    (h : payment.status ≠ .partiallyRefunded ∧ payment.status ≠ .refunded) :
    payment.refundedAmount = 0 := by
  unfold PaymentRecord.FitsStatus at fits
  cases hs : payment.status <;> rw [hs] at fits h
  case authorized => exact (PaymentRecord.balances_eq_iff.mp fits.2).2.2
  case awaitingPayment => exact (PaymentRecord.balances_eq_iff.mp fits.2).2.2
  case declined => exact (PaymentRecord.balances_eq_iff.mp fits).2.2
  case captured => exact (PaymentRecord.balances_eq_iff.mp fits).2.2
  case partiallyRefunded => exact absurd rfl h.1
  case refunded => exact absurd rfl h.2
  case cancelled => exact (PaymentRecord.balances_eq_iff.mp fits).2.2
  case expired => exact (PaymentRecord.balances_eq_iff.mp fits).2.2

/-- The three things one step does to the quantities the run counts. -/
theorem decides_counts {before after : PaymentRecord}
    (h : Decides step before after) (fits : before.FitsStatus) (fits' : after.FitsStatus) :
    after.refundedAmount = before.refundedAmount + step.refunded ∧
      (step.IsCapture → after.status = .captured) ∧ (step = .cancel → after.status = .cancelled) ∧
      before.status ≠ .cancelled ∧
      (before.status = .captured ∨ before.status = .partiallyRefunded ∨ before.status = .refunded →
        after.status = .partiallyRefunded ∨ after.status = .refunded) := by
  obtain ⟨state, next, hbefore, hafter, happly⟩ := h.states
  obtain ⟨bs, ba, bc, br⟩ := paymentState_eq_ok hbefore
  obtain ⟨as, aa, ac, ar⟩ := paymentState_eq_ok hafter
  cases step with
  | capture =>
    obtain ⟨hs, hs', _⟩ := capture_eq_ok happly
    rw [bs] at hs
    rw [as] at hs'
    have h0 := refundedAmount_eq_zero fits (by rw [hs]; decide)
    have h1 := refundedAmount_eq_zero fits' (by rw [hs']; decide)
    refine ⟨by rw [h0, h1]; rfl, fun _ => hs', nofun, by rw [hs]; decide, ?_⟩
    rw [hs]
    intro h
    simp only [reduceCtorEq, or_self] at h
  | captureConfirmation amount =>
    obtain ⟨hs, _, hs', _⟩ := captureConfirmation_eq_ok happly
    rw [bs] at hs
    rw [as] at hs'
    have h0 := refundedAmount_eq_zero fits (by rw [hs]; decide)
    have h1 := refundedAmount_eq_zero fits' (by rw [hs']; decide)
    refine ⟨by rw [h0, h1]; rfl, fun _ => hs', nofun, by rw [hs]; decide, ?_⟩
    rw [hs]
    intro h
    simp only [reduceCtorEq, or_self] at h
  | expire =>
    obtain ⟨hs, hs', _⟩ := expire_eq_ok happly
    rw [bs] at hs
    rw [as] at hs'
    have h0 := refundedAmount_eq_zero fits (by rw [hs]; decide)
    have h1 := refundedAmount_eq_zero fits' (by rw [hs']; decide)
    refine ⟨by rw [h0, h1]; rfl, fun h => h.elim, nofun, by rw [hs]; decide, ?_⟩
    rw [hs]
    intro h
    simp only [reduceCtorEq, or_self] at h
  | cancel =>
    obtain ⟨hs, hs', _⟩ := cancel_eq_ok happly
    rw [bs] at hs
    rw [as] at hs'
    have h0 := refundedAmount_eq_zero fits (by rcases hs with hs | hs <;> rw [hs] <;> decide)
    have h1 := refundedAmount_eq_zero fits' (by rw [hs']; decide)
    refine ⟨by rw [h0, h1]; rfl, fun h => h.elim, fun _ => hs',
      (by rcases hs with hs | hs <;> rw [hs] <;> decide), ?_⟩
    rcases hs with hs | hs <;> rw [hs] <;> intro h <;> simp only [reduceCtorEq, or_self] at h
  | refund amount =>
    obtain ⟨hs, _, _, hs', _, _, hr⟩ := refund_eq_ok happly
    rw [bs] at hs
    rw [as] at hs'
    refine ⟨by rw [← ar, hr, br]; rfl, fun h => h.elim, nofun,
      (by rcases hs with hs | hs <;> rw [hs] <;> decide), fun _ => ?_⟩
    rw [hs']
    split
    · exact .inr rfl
    · exact .inl rfl

theorem Extends.sequential (e : Extends step a b) (balanced : a.Balanced)
    (h : Sequential first a steps) : Sequential first b (steps ++ [step]) := by
  obtain ⟨state, next, hbefore, hafter, happly⟩ := e.decided.states
  obtain ⟨hrefunded, hcapture, hcancel, hlive, hstay⟩ :=
    decides_counts e.decided balanced.fits (e.balanced balanced).fits
  obtain ⟨initial, final, hinitial, hfinal, hrun⟩ := h.run
  have hsame : final = state := Except.ok.inj (hfinal.symm.trans hbefore)
  refine ⟨⟨initial, next, hinitial, hafter, ?_⟩, ?_, ?_, ?_, ?_⟩
  · rw [runLifecycle_snoc hrun, hsame]
    exact happly
  · rw [e.decided.version, h.version, List.length_append]
    rfl
  · have htotal : refundTotal (steps ++ [step]) = refundTotal steps + step.refunded := by
      unfold refundTotal
      rw [List.map_append, List.sum_append, List.map_singleton, List.sum_singleton]
    rw [htotal, h.refunds, hrefunded]
  · rintro ⟨captured, mem, hcaptured⟩
    rcases List.mem_append.mp mem with mem | mem
    · exact .inr (hstay (h.captured ⟨captured, mem, hcaptured⟩))
    · rw [List.mem_singleton.mp mem] at hcaptured
      exact .inl (hcapture hcaptured)
  · intro mem
    rcases List.mem_append.mp mem with mem | mem
    · exact absurd (h.cancelled mem) hlive
    · exact hcancel (List.mem_singleton.mp mem).symm

/-- **The row is the sequential run of its steps.** -/
theorem Lived.sequential (h : Lived first a steps) : Sequential first a steps := by
  induction h with
  | opened h => exact h.sequential
  | extended lived e ih => exact e.sequential lived.balanced ih

/-- No run refunds more than it captured. -/
theorem Lived.refunds_le_captured (h : Lived first a steps) :
    refundTotal steps ≤ a.row.capturedAmount := by
  obtain ⟨⟨_, final, _, hfinal, _⟩, _, hrefunds, _⟩ := h.sequential
  obtain ⟨_, _, hc, hr⟩ := paymentState_eq_ok hfinal
  rw [hrefunds, ← hc, ← hr]
  exact final.refunded_le_captured

/-- No run both captures and cancels. -/
theorem Lived.capture_not_cancel (h : Lived first a steps)
    (captured : ∃ step ∈ steps, step.IsCapture) : .cancel ∉ steps := by
  intro mem
  have hcancelled := h.sequential.cancelled mem
  have hcaptured := h.sequential.captured captured
  rw [hcancelled] at hcaptured
  simp only [reduceCtorEq, or_self] at hcaptured

end Account

end PaymentLab
