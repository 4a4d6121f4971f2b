import PaymentLab.Account.Balances
import PaymentLab.Account.History

/-!
# Confirmation captures

An account is captured by a confirmation at most once, and for the amount that was asked for: the
step needs an awaiting payment, and no step leads back to one. An awaiting payment has no ledger row,
and every captured one was captured in the way of its flow (`KeepsToFlow`).
-/

namespace PaymentLab

/-- The ledger rows of confirmations. -/
def confirmationCaptures (ledger : List LedgerEntryRecord) : List LedgerEntryRecord :=
  ledger.filter fun entry => decide (entry.operation = "CONFIRMATION_CAPTURE")

theorem confirmationCaptures_append (ledger rest : List LedgerEntryRecord) :
    confirmationCaptures (ledger ++ rest) =
      confirmationCaptures ledger ++ confirmationCaptures rest := List.filter_append ..

/-- The row of a confirmation step is the only one that counts as a confirmation capture. -/
theorem confirmationCaptures_entry (step : LifecycleStep) (before after : PaymentRecord)
    (id : String) (now : Instant) :
    confirmationCaptures (step.entry before after id now).toList =
      match step with
      | .captureConfirmation _ => (step.entry before after id now).toList
      | _ => [] := by
  cases step with
  | captureConfirmation amount => rfl
  | capture => rfl
  | expire => rfl
  | refund amount => rfl
  | cancel =>
    unfold LifecycleStep.entry LifecycleStep.posting
    by_cases hawaiting : before.status = .awaitingPayment
    · rw [if_pos hawaiting]
      rfl
    · rw [if_neg hawaiting]
      rfl

theorem confirmationCaptures_authorization (payment : PaymentRecord) (hex : String) :
    confirmationCaptures (authorizationEntry payment hex).toList = [] := by
  unfold authorizationEntry
  split <;> rfl

namespace Account

variable {first a b : Account} {steps : List LifecycleStep} {step : LifecycleStep}

/-- At most one confirmation captured the account, for its amount; an awaiting one has no ledger. -/
structure CapturedOnce (account : Account) : Prop where
  awaiting : account.row.status = .awaitingPayment → account.ledger = []
  once : (confirmationCaptures account.ledger).length ≤ 1
  amount : ∀ entry ∈ confirmationCaptures account.ledger, entry.amount = account.row.amount

theorem Opened.capturedOnce (h : a.Opened) : a.CapturedOnce := by
  obtain ⟨hex, hledger⟩ := h.ledger
  have hnone : confirmationCaptures a.ledger = [] := by
    rw [hledger]
    exact confirmationCaptures_authorization a.row hex
  refine ⟨fun hawaiting => ?_, by rw [hnone]; exact Nat.zero_le _, fun entry mem => ?_⟩
  · obtain ⟨_, _, _, _, ⟨_, _, hzero, _⟩ | ⟨hs, _⟩ | ⟨hs, _⟩⟩ := h.cases
    · rw [hledger]
      unfold authorizationEntry
      rw [if_neg (not_not.mpr hzero)]
      rfl
    · rw [hawaiting] at hs
      cases hs
    · rw [hawaiting] at hs
      cases hs
  · rw [hnone] at mem
    cases mem

/-- No documented transition leads to an awaiting payment. -/
theorem not_documented_awaiting (status : PaymentStatus) :
    ¬status.Documented .awaitingPayment := by
  cases status <;> exact id

theorem Extends.capturedOnce (e : Extends step a b) (h : a.CapturedOnce) : b.CapturedOnce := by
  obtain ⟨id, now, hledger⟩ := e.ledger
  have hdocumented := e.decided.documented.1
  have left : b.row.status ≠ .awaitingPayment :=
    fun heq => not_documented_awaiting a.row.status (heq ▸ hdocumented)
  have hcaptures : confirmationCaptures b.ledger = confirmationCaptures a.ledger ++
      confirmationCaptures (step.entry a.row b.row id now).toList := by
    rw [hledger, confirmationCaptures_append]
  rw [confirmationCaptures_entry] at hcaptures
  have hamount := e.decided.sameIdentity.amount
  cases step with
  | captureConfirmation amount =>
    -- the payment was awaiting, so this is the first capture
    obtain ⟨state, next, hbefore, _, happly⟩ := e.decided.states
    obtain ⟨hs, _⟩ := captureConfirmation_eq_ok happly
    rw [(paymentState_eq_ok hbefore).1] at hs
    rw [h.awaiting hs] at hcaptures
    refine ⟨fun hawaiting => absurd hawaiting left, by rw [hcaptures]; exact le_refl 1, ?_⟩
    intro entry mem
    rw [hcaptures] at mem
    rw [List.mem_singleton.mp mem, hamount]
    exact e.confirmed amount rfl
  | capture | expire | cancel | refund amount =>
    rw [List.append_nil] at hcaptures
    refine ⟨fun hawaiting => absurd hawaiting left, by rw [hcaptures]; exact h.once, ?_⟩
    intro entry mem
    rw [hcaptures] at mem
    rw [hamount]
    exact h.amount entry mem

/-- **A confirmation captures an account at most once**, whatever steps it went through. -/
theorem Lived.capturedOnce (h : Lived first a steps) : a.CapturedOnce := by
  induction h with
  | opened h => exact h.capturedOnce
  | extended _ e ih => exact e.capturedOnce ih

/-- A capture on request is of a synchronous payment, one by a confirmation of a delayed payment. -/
structure KeepsToFlow (account : Account) : Prop where
  captures : ∀ entry ∈ account.ledger, entry.operation = "CAPTURE" →
    account.row.paymentFlow = .synchronous
  confirmations : ∀ entry ∈ account.ledger, entry.operation = "CONFIRMATION_CAPTURE" →
    account.row.paymentFlow = .asynchronousConfirmation

theorem Opened.keepsToFlow (h : a.Opened) : a.KeepsToFlow := by
  obtain ⟨hex, hledger⟩ := h.ledger
  have authorization : ∀ entry ∈ a.ledger, entry.operation = "AUTHORIZATION" := by
    intro entry mem
    rw [hledger] at mem
    unfold authorizationEntry at mem
    split at mem
    · rw [List.mem_singleton.mp mem]
    · cases mem
  refine ⟨fun entry mem hop => ?_, fun entry mem hop => ?_⟩
  · rw [authorization entry mem] at hop
    exact absurd hop (by decide)
  · rw [authorization entry mem] at hop
    exact absurd hop (by decide)

/-- The flow of a step that captures, from the balances the status before it allows. -/
theorem posting_flow {before after : PaymentRecord} (fits : before.FitsStatus)
    (decided : Decides step before after) {operation : String} {amount : Int}
    (h : step.posting before after = some (operation, amount)) :
    (operation = "CAPTURE" → before.paymentFlow = .synchronous) ∧
      (operation = "CONFIRMATION_CAPTURE" → before.paymentFlow = .asynchronousConfirmation) := by
  obtain ⟨state, next, hbefore, _, happly⟩ := decided.states
  have hstatus := (paymentState_eq_ok hbefore).1
  unfold PaymentRecord.FitsStatus at fits
  cases step with
  | capture =>
    cases h
    rw [← hstatus, (capture_eq_ok happly).1] at fits
    exact ⟨fun _ => fits.1, fun hop => absurd hop (by decide)⟩
  | captureConfirmation captured =>
    cases h
    rw [← hstatus, (captureConfirmation_eq_ok happly).1] at fits
    exact ⟨fun hop => absurd hop (by decide), fun _ => fits.1⟩
  | expire => cases h
  | cancel =>
    have h : (if before.status = .awaitingPayment then none
        else some ("CANCEL", before.authorizedAmount)) = some (operation, amount) := h
    by_cases hawaiting : before.status = .awaitingPayment
    · rw [if_pos hawaiting] at h
      cases h
    · rw [if_neg hawaiting] at h
      cases h
      exact ⟨fun hop => absurd hop (by decide), fun hop => absurd hop (by decide)⟩
  | refund amount =>
    cases h
    exact ⟨fun hop => absurd hop (by decide), fun hop => absurd hop (by decide)⟩

theorem Extends.keepsToFlow (e : Extends step a b) (balanced : a.Balanced) (h : a.KeepsToFlow) :
    b.KeepsToFlow := by
  obtain ⟨id, now, hledger⟩ := e.ledger
  have hflow := e.decided.sameIdentity.paymentFlow
  have cases : ∀ entry ∈ b.ledger, entry ∈ a.ledger ∨
      (entry.operation = "CAPTURE" → a.row.paymentFlow = .synchronous) ∧
        (entry.operation = "CONFIRMATION_CAPTURE" →
          a.row.paymentFlow = .asynchronousConfirmation) := by
    intro entry mem
    rw [hledger] at mem
    rcases List.mem_append.mp mem with mem | mem
    · exact .inl mem
    · obtain ⟨posting, hposting, rfl⟩ := Option.map_eq_some_iff.mp (Option.mem_toList.mp mem)
      exact .inr (posting_flow balanced.fits e.decided hposting)
  refine ⟨fun entry mem hop => ?_, fun entry mem hop => ?_⟩
  · rw [hflow]
    exact (cases entry mem).elim (fun mem => h.captures entry mem hop) (fun both => both.1 hop)
  · rw [hflow]
    exact (cases entry mem).elim (fun mem => h.confirmations entry mem hop) (fun both => both.2 hop)

/-- **Every capture keeps to the flow of its payment.** -/
theorem Lived.keepsToFlow (h : Lived first a steps) : a.KeepsToFlow := by
  induction h with
  | opened h => exact h.keepsToFlow
  | extended lived e ih => exact e.keepsToFlow lived.balanced ih

end Account

end PaymentLab
