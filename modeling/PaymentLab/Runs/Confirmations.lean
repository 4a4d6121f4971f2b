import Mathlib.Logic.Relation
import PaymentLab.Runs.Payments

/-!
# Confirmation transactions

What acceptance, completion and scheduled expiry do to a session, and what each commits. They begin
with a writer reservation, so whatever the session held before is gone and every row read is the
committed one (`beginCoordinatedWrite_apply`).

The lemmas follow the blocks of the source in their order, acceptance, completion, recovery and
expiry, and give for each its result and the committed store together. Whatever raises has rolled
back before it leaves the call.
-/

namespace PaymentLab

open Relational Transactional Transactional.Service

/-- A session under a writer reservation, with nothing loaded and nothing staged. -/
def coordinated (s : DatabaseSession) : DatabaseSession :=
  { committed := s.committed, working := s.committed, begun := true, reserved := true, identity := ∅ }

@[simp] theorem coordinated_committed (s : DatabaseSession) :
    (coordinated s).committed = s.committed := rfl

@[simp] theorem coordinated_working (s : DatabaseSession) :
    (coordinated s).working = s.committed := rfl

@[simp] theorem coordinated_identity (s : DatabaseSession) : (coordinated s).identity = ∅ := rfl

theorem beginCoordinatedWrite_apply (s : DatabaseSession) :
    beginCoordinatedWrite s = (.ok (), coordinated s) := rfl

/-! ## Acceptance -/

section Acceptance

variable {sha256 : String → String} {command : ConfirmationCommand} {clock : Datetime}
  {s s' : DatabaseSession} {r : Except ServiceError Bool}

/-- **Acceptance**: an identity that exists answers or conflicts by its fingerprint and nothing is
written; a fresh one is received, or refused with nothing written. -/
theorem acceptConfirmation_cases (h : acceptConfirmation sha256 command clock s = (r, s')) :
    s'.identity = ∅ ∧
      ((∃ receipt, s.committed.confirmationReceipts.get command.confirmationId = some receipt ∧
          s'.committed = s.committed ∧
          ((receipt.requestFingerprint = command.fingerprint sha256 ∧ r = .ok true) ∨
            (receipt.requestFingerprint ≠ command.fingerprint sha256 ∧
              r = .error .confirmationIdConflict))) ∨
        (s.committed.confirmationReceipts.get command.confirmationId = none ∧
          ((r = .ok false ∧ Received sha256 command s.committed s'.committed) ∨
            ((∃ e, r = .error e ∧ e ≠ .confirmationIdConflict) ∧ s'.committed = s.committed)))) := by
  unfold acceptConfirmation at h
  rw [bind_ok (beginCoordinatedWrite_apply s)] at h
  obtain ⟨s₁, hbody, hcommitted, hidentity⟩ := discard_cases h
  rw [hcommitted]
  rw [bind_ok (query_apply _ _)] at hbody
  -- nothing is loaded on the way, so the session ends with nothing loaded
  have hloaded : s₁.identity = ∅ → s'.identity = ∅ := by
    intro hempty
    rcases hidentity with ⟨_, rfl⟩ | h
    · exact hempty
    · exact h
  cases hget : s.committed.confirmationReceipts.get command.confirmationId with
  | some receipt =>
    simp only [coordinated_working, hget] at hbody
    by_cases hf : receipt.requestFingerprint = command.fingerprint sha256
    · rw [if_neg (not_not.mpr hf)] at hbody
      cases hbody
      exact ⟨hloaded rfl, .inl ⟨receipt, rfl, rfl, .inl ⟨hf, rfl⟩⟩⟩
    · rw [if_pos hf] at hbody
      cases hbody
      exact ⟨hloaded rfl, .inl ⟨receipt, rfl, rfl, .inr ⟨hf, rfl⟩⟩⟩
  | none =>
    simp only [coordinated_working, hget] at hbody
    cases clock with
    | naive wall =>
      cases hbody
      exact ⟨hloaded rfl, .inr ⟨rfl, .inr ⟨⟨_, rfl, by simp⟩, rfl⟩⟩⟩
    | aware receivedAt =>
      rw [bind_ok (show readConfirmationClock (.aware receivedAt) _ = (.ok receivedAt, _) from rfl)]
        at hbody
      rcases bind_cases hbody with ⟨e, hflush, rfl⟩ | ⟨_, s₂, hflush, hrest⟩
      · obtain ⟨hrefused, rfl⟩ := flush_eq_error hflush
        have he : e = .integrityError := insertInto_eq_error hrefused
        exact ⟨hloaded rfl, .inr ⟨rfl, .inr ⟨⟨e, rfl, by simp [he]⟩, rfl⟩⟩⟩
      · obtain ⟨d, hd, rfl⟩ := flush_eq_ok hflush
        obtain ⟨t, ht, rfl⟩ := insertInto_eq_ok hd
        cases hrest
        exact ⟨hloaded rfl, .inr ⟨rfl, .inl ⟨rfl, ⟨receivedAt, ht⟩, rfl, rfl, ⟨rfl, rfl, rfl⟩,
          ⟨rfl, rfl, rfl⟩⟩⟩⟩

end Acceptance

/-! ## Effects on the payment -/

section Completion

variable {sha256 : String → String} {s s' : DatabaseSession}

/-- A payment found by its reference is stored. -/
theorem paymentByReference_eq_some {db : Database} {reference : String} {payment : PaymentRecord}
    (h : paymentByReference db reference = some payment) :
    db.payments.get payment.id = some payment ∧ payment.paymentReference = some reference :=
  ⟨Table.get_of_mem (List.mem_of_find?_eq_some h),
    by simpa only [decide_eq_true_eq] using List.find?_some h⟩

/-- One staged lifecycle step, and the tables it leaves alone. -/
structure StagedStep (step : LifecycleStep) (before : PaymentRecord) (db db' : Database) : Prop where
  advances : ∃ after, Advances step before after db db'
  claims : db'.idempotencyRecords = db.idempotencyRecords
  confirmations : SameConfirmations db db'

theorem applyExpiryTransition_eq_ok {payment : PaymentRecord} {occurredAt : Instant} {hex : String}
    {u : Unit} (held : Held s.working payment)
    (h : applyExpiryTransition payment occurredAt hex s = (.ok u, s')) :
    StagedStep .expire payment s.working s'.working ∧ s'.identity = s.identity := by
  obtain ⟨state, s₁, hread, h₁⟩ := bind_eq_ok h
  obtain ⟨hstate, rfl⟩ := liftDomain_eq_ok hread
  obtain ⟨next, s₂, hdecide, h₂⟩ := bind_eq_ok h₁
  obtain ⟨hnext, rfl⟩ := liftDomain_eq_ok hdecide
  obtain ⟨_, s₃, hflush, h₃⟩ := bind_eq_ok h₂
  obtain ⟨d, hd, rfl⟩ := flush_eq_ok hflush
  obtain ⟨hstored, hdecided, payments, hupdate, rfl⟩ :=
    flushPayment_decided held hstate (show LifecycleStep.expire.apply state = .ok next from hnext) hd
  obtain ⟨d', hd', rfl⟩ := flush_eq_ok h₃
  obtain ⟨events, hevents, rfl⟩ := insertInto_eq_ok hd'
  exact ⟨⟨⟨_, hstored, hdecided, nofun, hupdate, ⟨"", occurredAt, rfl⟩, ⟨hex, hevents⟩,
    ⟨rfl, rfl, rfl⟩⟩, rfl, rfl, rfl⟩, rfl⟩

/-- What a disposition did to the payment it was classified for. -/
inductive Disposed (receipt : ConfirmationReceiptRecord) (disposition : ConfirmationDisposition)
    (payment : Option PaymentRecord) (db db' : Database) : Prop
  | none : (disposition = .applied → payment = .none) → db' = db →
      Disposed receipt disposition payment db db'
  | captured (before : PaymentRecord) : disposition = .applied → payment = some before →
      StagedStep (.captureConfirmation receipt.amount) before db db' →
      Disposed receipt disposition payment db db'
  | expired (before : PaymentRecord) : disposition = .late → payment = some before →
      protectingReceiptExists db before = false → StagedStep .expire before db db' →
      Disposed receipt disposition payment db db'

theorem applyDisposition_eq_ok {receipt : ConfirmationReceiptRecord}
    {disposition : ConfirmationDisposition} {payment : Option PaymentRecord} {draws : Draws}
    {u : Unit} (stored : ∀ p, payment = some p → s.working.payments.get p.id = some p)
    (amount : ∀ p, payment = some p → disposition = .applied → receipt.amount = p.amount)
    (h : applyDisposition payment receipt.command disposition receipt.receivedAt draws s =
      (.ok u, s')) :
    Disposed receipt disposition payment s.working s'.working ∧ s'.identity = s.identity := by
  cases payment with
  | none =>
    cases h
    exact ⟨.none (fun _ => rfl) rfl, rfl⟩
  | some payment =>
    have hstored := stored payment rfl
    unfold applyDisposition at h
    by_cases happlied : disposition = .applied
    · simp only [if_pos happlied] at h
      obtain ⟨state, s₁, hread, h₁⟩ := bind_eq_ok h
      obtain ⟨hstate, rfl⟩ := liftDomain_eq_ok hread
      obtain ⟨next, s₂, hdecide, h₂⟩ := bind_eq_ok h₁
      obtain ⟨hnext, rfl⟩ := liftDomain_eq_ok hdecide
      obtain ⟨_, s₃, hflush, h₃⟩ := bind_eq_ok h₂
      obtain ⟨d, hd, rfl⟩ := flush_eq_ok hflush
      obtain ⟨_, hdecided, payments, hupdate, rfl⟩ :=
        flushPayment_decided (held_of_stored hstored) hstate
          (show (LifecycleStep.captureConfirmation receipt.amount).apply state = .ok next from hnext)
          hd
      obtain ⟨_, s₄, hposting, h₄⟩ := bind_eq_ok h₃
      obtain ⟨d', hd', rfl⟩ := flush_eq_ok hposting
      obtain ⟨ledger, hledger, rfl⟩ := insertInto_eq_ok hd'
      obtain ⟨d'', hd'', rfl⟩ := flush_eq_ok h₄
      obtain ⟨events, hevents, rfl⟩ := insertInto_eq_ok hd''
      refine ⟨.captured payment happlied rfl ⟨⟨_, hstored, hdecided, ?_, hupdate,
        ⟨"led_" ++ draws.ledger, receipt.receivedAt, hledger⟩, ⟨draws.event, hevents⟩,
        ⟨rfl, rfl, rfl⟩⟩, rfl, rfl, rfl⟩, rfl⟩
      intro a ha
      cases ha
      exact amount payment rfl happlied
    · simp only [if_neg happlied] at h
      by_cases hlate : disposition = .late ∧ payment.status = .awaitingPayment
      · rw [if_pos hlate] at h
        obtain ⟨isProtected, s₁, hquery, h₁⟩ := bind_eq_ok h
        obtain ⟨hvalue, rfl⟩ := query_eq_ok hquery
        cases isProtected with
        | true =>
          cases h₁
          exact ⟨.none (fun h => absurd h happlied) rfl, rfl⟩
        | false =>
          have hunprotected : protectingReceiptExists s.working payment = false := by
            simp only [hstored] at hvalue
            exact hvalue.symm
          simp only [Bool.false_eq_true, if_false] at h₁
          obtain ⟨hstep, hidentity⟩ := applyExpiryTransition_eq_ok (by exact held_of_stored hstored) h₁
          exact ⟨.expired payment hlate.1 rfl hunprotected hstep, hidentity⟩
      · rw [if_neg hlate] at h
        cases h
        exact ⟨.none (fun h => absurd h happlied) rfl, rfl⟩

/-! ## Completion -/

/-- An applied classification is of a stored payment that awaits exactly this confirmation. -/
theorem classify_eq_applied {payment : Option PaymentRecord} {command : ConfirmationCommand}
    {receivedAt : Instant} (h : classify payment command receivedAt = .ok .applied) :
    ∃ p expiresAt, payment = some p ∧ p.status = .awaitingPayment ∧ p.expiresAt = some expiresAt ∧
      receivedAt < expiresAt ∧ command.amount = p.amount ∧ command.currency = p.currency := by
  unfold classify at h
  split at h
  · cases h
  · next p =>
    split at h
    · cases h
    · split at h
      · cases h
      · next hstatus =>
        split at h
        · cases h
        · next expiresAt hexpires =>
          split at h
          · cases h
          · next hbefore =>
            split at h
            · cases h
            · next hamount =>
              split at h
              · cases h
              · next hcurrency =>
                exact ⟨p, expiresAt, rfl, not_not.mp hstatus, hexpires, not_le.mp hbefore,
                  not_not.mp hamount, not_not.mp hcurrency⟩

/-- The lookup of a final record, as a function of the stored one. -/
theorem existingOutcome_apply (confirmationId fingerprint : String) (s : DatabaseSession) :
    existingOutcome confirmationId fingerprint s =
      (match s.working.paymentConfirmations.get confirmationId with
        | none => .ok none
        | some existing =>
          if existing.requestFingerprint ≠ fingerprint then .error .confirmationIdConflict
          else .ok (some { confirmation := existing, replayed := true }),
        { s with begun := true }) := by
  unfold existingOutcome
  rw [bind_ok (query_apply _ s)]
  cases s.working.paymentConfirmations.get confirmationId with
  | none => rfl
  | some existing =>
    by_cases hf : existing.requestFingerprint ≠ fingerprint
    · simp only [if_pos hf]
      rfl
    · simp only [if_neg hf]
      rfl

theorem silent_applyExpiryTransition (payment : PaymentRecord) (occurredAt : Instant)
    (hex : String) : Silent (applyExpiryTransition payment occurredAt hex) :=
  (silent_liftDomain _).bind fun _ => (silent_liftDomain _).bind fun _ =>
    (silent_flush _).bind fun _ => silent_flush _

theorem silent_applyDisposition (payment : Option PaymentRecord) (command : ConfirmationCommand)
    (disposition : ConfirmationDisposition) (receivedAt : Instant) (draws : Draws) :
    Silent (applyDisposition payment command disposition receivedAt draws) := by
  unfold applyDisposition
  split
  · exact silent_pure _
  · split
    · exact (silent_liftDomain _).bind fun _ => (silent_liftDomain _).bind fun _ =>
        (silent_flush _).bind fun _ => (silent_flush _).bind fun _ => silent_flush _
    · split
      · refine Silent.bind (silent_query _) fun isProtected => ?_
        split
        · exact silent_pure _
        · exact silent_applyExpiryTransition _ _ _
      · exact silent_pure _

theorem silent_stageCompletion (receipt : ConfirmationReceiptRecord)
    (confirmation : PaymentConfirmationRecord) (payment : Option PaymentRecord) (draws : Draws) :
    Silent (stageCompletion receipt confirmation payment draws) :=
  (silent_flush _).bind fun _ => (silent_applyDisposition _ _ _ _ _).bind fun _ => silent_flush _

/-- The staged statements of a completion are its effect. -/
theorem stageCompletion_eq_ok {receipt : ConfirmationReceiptRecord}
    {disposition : ConfirmationDisposition} {draws : Draws} {u : Unit} {db : Database}
    (hdb : s.working = db)
    (stored : db.confirmationReceipts.get receipt.confirmationId = some receipt)
    (fresh : db.paymentConfirmations.get receipt.confirmationId = none)
    (classified : classify (paymentByReference db receipt.paymentReference) receipt.command
      receipt.receivedAt = .ok disposition)
    (h : stageCompletion receipt
      (newConfirmation sha256 receipt.command receipt.receivedAt disposition
        (paymentByReference db receipt.paymentReference))
      (paymentByReference db receipt.paymentReference) draws s = (.ok u, s')) :
    Settled sha256 receipt disposition db s'.working ∧ s'.identity = s.identity := by
  subst hdb
  obtain ⟨_, s₁, hinsert, h₁⟩ := bind_eq_ok h
  obtain ⟨d₁, hd₁, rfl⟩ := flush_eq_ok hinsert
  obtain ⟨confirmations, hconfirmation, rfl⟩ := insertInto_eq_ok hd₁
  obtain ⟨_, s₂, hdispose, h₂⟩ := bind_eq_ok h₁
  have hpayment : ∀ p, paymentByReference s.working receipt.paymentReference = some p →
      s.working.payments.get p.id = some p := fun p hp => (paymentByReference_eq_some hp).1
  have hamount : ∀ p, paymentByReference s.working receipt.paymentReference = some p →
      disposition = .applied → receipt.amount = p.amount := by
    intro p hp happlied
    rw [happlied] at classified
    obtain ⟨q, _, hq, _, _, _, hamount, _⟩ := classify_eq_applied classified
    rw [hp] at hq
    cases hq
    exact hamount
  obtain ⟨hdisposed, hidentity⟩ := applyDisposition_eq_ok (by exact hpayment) hamount hdispose
  obtain ⟨d₃, hd₃, rfl⟩ := flush_eq_ok h₂
  obtain ⟨receipts, hupdate, rfl⟩ := updateIn_eq_ok hd₃
  refine ⟨?_, hidentity⟩
  cases hdisposed with
  | none hnone hsame =>
    rw [hsame] at hupdate ⊢
    refine ⟨stored, fresh, classified, hconfirmation, hupdate, rfl,
      .none (fun happlied => ?_) ⟨rfl, rfl, rfl⟩ ⟨rfl, rfl, rfl⟩⟩
    rw [happlied] at classified
    obtain ⟨q, _, hq, _⟩ := classify_eq_applied classified
    rw [hnone happlied] at hq
    cases hq
  | captured before happlied hpayment hstep =>
    obtain ⟨after, hadvances⟩ := hstep.advances
    rw [hstep.confirmations.receipts] at hupdate
    refine ⟨stored, fresh, classified, ?_, hupdate, hstep.claims, .captured before after happlied
      hpayment (hadvances.transport ⟨rfl, rfl, rfl⟩ ⟨rfl, rfl, rfl⟩ ?_)⟩
    · rw [hconfirmation]
      exact congrArg some hstep.confirmations.confirmations.symm
    · exact ⟨hadvances.merchant.1, hadvances.merchant.2, hadvances.merchant.3⟩
  | expired before hlate hpayment hunprotected hstep =>
    obtain ⟨after, hadvances⟩ := hstep.advances
    rw [hstep.confirmations.receipts] at hupdate
    refine ⟨stored, fresh, classified, ?_, hupdate, hstep.claims, .expired before after hlate
      hpayment hunprotected (hadvances.transport ⟨rfl, rfl, rfl⟩ ⟨rfl, rfl, rfl⟩ ?_)⟩
    · rw [hconfirmation]
      exact congrArg some hstep.confirmations.confirmations.symm
    · exact ⟨hadvances.merchant.1, hadvances.merchant.2, hadvances.merchant.3⟩

/-- A classified receipt is settled, or an exception leaves everything as it was: with no final
record committed, the lookup of a winner finds none. -/
theorem settleReceipt_cases {receipt : ConfirmationReceiptRecord}
    {disposition : ConfirmationDisposition} {draws : Draws}
    {r : Except ServiceError ConfirmationOutcome} (hworking : s.working = s.committed)
    (hidentity : s.identity = ∅)
    (stored : s.committed.confirmationReceipts.get receipt.confirmationId = some receipt)
    (fresh : s.committed.paymentConfirmations.get receipt.confirmationId = none)
    (classified : classify (paymentByReference s.committed receipt.paymentReference) receipt.command
      receipt.receivedAt = .ok disposition)
    (h : settleReceipt sha256 receipt disposition
      (paymentByReference s.committed receipt.paymentReference) draws s = (r, s')) :
    s'.identity = ∅ ∧
      (((∃ e, r = .error e) ∧ s'.committed = s.committed) ∨
        (Settled sha256 receipt disposition s.committed s'.committed ∧
          r = .ok
            { confirmation := newConfirmation sha256 receipt.command receipt.receivedAt disposition
                (paymentByReference s.committed receipt.paymentReference)
              replayed := false })) := by
  unfold settleReceipt at h
  rcases tryCatch_cases h with ⟨outcome, hbody, rfl⟩ | ⟨e, s₁, hbody, hhandler⟩
  · obtain ⟨_, s₁, hstage, hrest⟩ := bind_eq_ok hbody
    obtain ⟨hsettled, hsame⟩ := stageCompletion_eq_ok hworking stored fresh classified hstage
    cases hrest
    exact ⟨hsame.trans hidentity, .inr ⟨hsettled, rfl⟩⟩
  · have hcommitted : s₁.committed = s.committed := by
      rcases bind_cases hbody with ⟨_, hstage, _⟩ | ⟨_, s₂, _, hrest⟩
      · exact (silent_stageCompletion _ _ _ _).committed hstage
      · cases hrest
    unfold completionFailed at hhandler
    rw [bind_ok (rollback_apply s₁)] at hhandler
    by_cases hintegrity : e = .integrityError
    · simp only [if_pos hintegrity] at hhandler
      rw [bind_apply, existingOutcome_apply] at hhandler
      simp only [hcommitted, fresh] at hhandler
      cases hhandler
      exact ⟨rfl, .inl ⟨⟨_, rfl⟩, rfl⟩⟩
    · simp only [if_neg hintegrity] at hhandler
      by_cases hstale : e = .staleData
      · rw [if_pos hstale] at hhandler
        cases hhandler
        exact ⟨rfl, .inl ⟨⟨_, rfl⟩, hcommitted⟩⟩
      · rw [if_neg hstale] at hhandler
        cases hhandler
        exact ⟨rfl, .inl ⟨⟨_, rfl⟩, hcommitted⟩⟩

/-- **Completion**: a final record that exists is answered and nothing is written; a pending receipt
is settled; an exception leaves everything as it was. -/
theorem completeConfirmation_cases {confirmationId : String} {draws : Draws}
    {r : Except ServiceError ConfirmationOutcome}
    (h : completeConfirmation sha256 confirmationId draws s = (r, s')) :
    s'.identity = ∅ ∧
      (((∃ e, r = .error e) ∧ s'.committed = s.committed) ∨
        (∃ existing, s.committed.paymentConfirmations.get confirmationId = some existing ∧
          s'.committed = s.committed ∧ r = .ok { confirmation := existing, replayed := true }) ∨
        ∃ receipt disposition, receipt.confirmationId = confirmationId ∧
          Settled sha256 receipt disposition s.committed s'.committed ∧
          r = .ok
            { confirmation := newConfirmation sha256 receipt.command receipt.receivedAt disposition
                (paymentByReference s.committed receipt.paymentReference)
              replayed := false }) := by
  unfold completeConfirmation at h
  rw [bind_ok (beginCoordinatedWrite_apply s)] at h
  obtain ⟨s₁, hbody, hcommitted, hidentity⟩ := discard_cases h
  rw [hcommitted]
  have hloaded : s₁.identity = ∅ → s'.identity = ∅ := by
    intro hempty
    rcases hidentity with ⟨_, rfl⟩ | h
    · exact hempty
    · exact h
  unfold completeReceipt at hbody
  rw [bind_ok (query_apply _ _)] at hbody
  cases hget : s.committed.confirmationReceipts.get confirmationId with
  | none =>
    simp only [coordinated_working, hget] at hbody
    cases hbody
    exact ⟨hloaded rfl, .inl ⟨⟨_, rfl⟩, rfl⟩⟩
  | some receipt =>
    simp only [coordinated_working, hget] at hbody
    have hid : receipt.confirmationId = confirmationId := (Table.get_eq_some hget).2
    subst hid
    rw [bind_apply, existingOutcome_apply] at hbody
    cases hexisting : s.committed.paymentConfirmations.get receipt.confirmationId with
    | some existing =>
      simp only [hexisting] at hbody
      by_cases hf : existing.requestFingerprint ≠ receipt.command.fingerprint sha256
      · simp only [if_pos hf] at hbody
        cases hbody
        exact ⟨hloaded rfl, .inl ⟨⟨_, rfl⟩, rfl⟩⟩
      · simp only [if_neg hf] at hbody
        cases hbody
        exact ⟨hloaded rfl, .inr (.inl ⟨existing, rfl, rfl, rfl⟩)⟩
    | none =>
      simp only [hexisting] at hbody
      rw [bind_ok (query_apply _ _)] at hbody
      cases hclassify : classify (paymentByReference s.committed receipt.paymentReference)
          receipt.command receipt.receivedAt with
      | error e =>
        simp only [hclassify] at hbody
        cases hbody
        exact ⟨hloaded rfl, .inl ⟨⟨_, rfl⟩, rfl⟩⟩
      | ok disposition =>
        simp only [hclassify] at hbody
        obtain ⟨hempty, ⟨he, hsame⟩ | ⟨hsettled, hr⟩⟩ :=
          settleReceipt_cases (s := coordinated s) rfl rfl hget hexisting hclassify hbody
        · exact ⟨hloaded hempty, .inl ⟨he, hsame⟩⟩
        · exact ⟨hloaded hempty, .inr (.inr ⟨receipt, disposition, rfl, hsettled, hr⟩)⟩

end Completion

/-! ## The two halves of processing, and the selection of recovery -/

section Processing

variable {sha256 : String → String} {s s' : DatabaseSession}

/-- The completion half answers what the completion answers; any failure is reported as a retry. -/
theorem processCompletion_cases {confirmationId : String} {draws : Draws}
    {r : Except ServiceError ConfirmationOutcome}
    (h : processCompletion sha256 confirmationId draws s = (r, s')) :
    ∃ r₁, completeConfirmation sha256 confirmationId draws s = (r₁, s') ∧
      (r = r₁ ∨ (∃ e, r₁ = .error e) ∧ r = .error .confirmationProcessingUnavailable) := by
  unfold processCompletion at h
  rcases tryCatch_cases h with ⟨outcome, hbody, rfl⟩ | ⟨e, s₁, hbody, hhandler⟩
  · exact ⟨_, hbody, .inl rfl⟩
  · cases hhandler
    exact ⟨_, hbody, .inr ⟨⟨e, rfl⟩, rfl⟩⟩

/-- The acceptance half answers what the acceptance answers; a storage failure is reported as a
retry, a conflict as a conflict. -/
theorem processAcceptance_cases {command : ConfirmationCommand} {clock : Datetime}
    {r : Except ServiceError Bool}
    (h : processAcceptance sha256 command clock s = (r, s')) :
    ∃ r₁ s₁, acceptConfirmation sha256 command clock s = (r₁, s₁) ∧
      s'.committed = s₁.committed ∧ (s' = s₁ ∨ s'.identity = ∅) ∧
      (r = r₁ ∨ ∃ e, r₁ = .error e ∧ e.isSQLAlchemyError = true ∧
        r = .error .confirmationProcessingUnavailable) := by
  unfold processAcceptance at h
  rcases tryCatch_cases h with ⟨replayed, hbody, rfl⟩ | ⟨e, s₁, hbody, hhandler⟩
  · exact ⟨_, s', hbody, rfl, .inl rfl, .inl rfl⟩
  · by_cases hsql : e.isSQLAlchemyError = true
    · rw [if_pos hsql] at hhandler
      cases hhandler
      exact ⟨_, s₁, hbody, rfl, .inr rfl, .inr ⟨e, rfl, hsql, rfl⟩⟩
    · rw [if_neg hsql] at hhandler
      cases hhandler
      exact ⟨_, s', hbody, rfl, .inl rfl, .inl rfl⟩

/-- The selection of recovery writes nothing. -/
theorem selectPending_cases {limit : Int} {r : Except ServiceError (List String)}
    (h : selectPending limit s = (r, s')) :
    s'.committed = s.committed ∧ (s'.identity = s.identity ∨ s'.identity = ∅) := by
  unfold selectPending at h
  split at h
  · cases h
    exact ⟨rfl, .inl rfl⟩
  · cases h
    exact ⟨rfl, .inr rfl⟩

end Processing

/-! ## Scheduled expiry -/

section Expiry

variable {s s' : DatabaseSession}

/-- One payment of an expiry batch. -/
def ExpiresOne (db db' : Database) : Prop := ∃ before after, Expired before after db db'

theorem protectingReceiptExists_congr {db db' : Database}
    (h : db'.confirmationReceipts = db.confirmationReceipts) (payment : PaymentRecord) :
    protectingReceiptExists db' payment = protectingReceiptExists db payment := by
  unfold protectingReceiptExists
  rw [h]

/-- A batch is one expiry after another, each of an unprotected payment. -/
theorem expireEach_eq_ok {current : Instant} {hex : String → String} :
    ∀ {due : List PaymentRecord} {s : DatabaseSession} {u : Unit},
      (∀ p ∈ due, Held s.working p ∧ protectingReceiptExists s.working p = false) →
      expireEach current hex due s = (.ok u, s') →
      Relation.ReflTransGen ExpiresOne s.working s'.working ∧ s'.identity = s.identity := by
  intro due
  induction due with
  | nil =>
    intro s u _ h
    cases h
    exact ⟨.refl, rfl⟩
  | cons payment rest ih =>
    intro s u hdue h
    obtain ⟨held, unprotected⟩ := hdue payment List.mem_cons_self
    obtain ⟨_, s₁, hone, hrest⟩ := bind_eq_ok h
    have hone := tryCatch_eq_ok (fun e t => by split <;> exact ⟨_, _, rfl⟩) hone
    obtain ⟨hstep, hidentity⟩ := applyExpiryTransition_eq_ok held hone
    obtain ⟨after, hadvances⟩ := hstep.advances
    have hfirst : ExpiresOne s.working s₁.working :=
      ⟨payment, after, unprotected, hadvances, hstep.claims, hstep.confirmations⟩
    obtain ⟨hsteps, hsame⟩ := ih (fun p mem => by
      obtain ⟨hheld, hfree⟩ := hdue p (List.mem_cons_of_mem _ mem)
      refine ⟨hheld.grows hadvances.grows, ?_⟩
      rw [protectingReceiptExists_congr hstep.confirmations.receipts]
      exact hfree) hrest
    exact ⟨.head hfirst hsteps, hsame.trans hidentity⟩

theorem silent_expireEach (current : Instant) (hex : String → String) :
    ∀ due : List PaymentRecord, Silent (expireEach current hex due)
  | [] => silent_pure _
  | payment :: rest =>
    Silent.bind
      (Silent.tryCatch (silent_applyExpiryTransition _ _ _) fun e => by
        split <;> exact silent_throw _)
      fun _ => silent_expireEach current hex rest

/-- A due payment is stored and unprotected. -/
theorem mem_duePayments {db : Database} {current : Instant} {limit : Nat} {p : PaymentRecord}
    (h : p ∈ duePayments db current limit) :
    db.payments.get p.id = some p ∧ protectingReceiptExists db p = false := by
  have hsorted := List.mem_of_mem_take h
  have hselected := (List.perm_insertionSort dueOrder _).mem_iff.mp hsorted
  obtain ⟨hmem, hdue⟩ := Table.mem_select.mp hselected
  refine ⟨Table.get_of_mem hmem, ?_⟩
  simp only [isDue, Bool.and_eq_true, Bool.not_eq_true'] at hdue
  exact hdue.2

/-- **Expiry**: the batch is committed as a whole, or an exception leaves everything as it was. -/
theorem expireDuePayments_cases {now : Datetime} {limit : Int} {hex : String → String}
    {r : Except ServiceError (List String)} (h : expireDuePayments now limit hex s = (r, s')) :
    (s'.identity = s.identity ∨ s'.identity = ∅) ∧
      (((∃ e, r = .error e) ∧ s'.committed = s.committed) ∨
        ((∃ ids, r = .ok ids) ∧
          Relation.ReflTransGen ExpiresOne s.committed s'.committed)) := by
  unfold expireDuePayments at h
  cases now with
  | naive wall =>
    cases h
    exact ⟨.inl rfl, .inl ⟨⟨_, rfl⟩, rfl⟩⟩
  | aware current =>
    rw [bind_ok (show requireAwareUtc (.aware current) _ s = (.ok current, s) from rfl)] at h
    by_cases hlimit : ¬(1 ≤ limit ∧ limit ≤ maxExpiryBatchSize)
    · simp only [if_pos hlimit] at h
      cases h
      exact ⟨.inl rfl, .inl ⟨⟨_, rfl⟩, rfl⟩⟩
    · simp only [if_neg hlimit] at h
      rw [bind_ok (beginCoordinatedWrite_apply s), bind_ok (query_apply _ _)] at h
      obtain ⟨s₁, hbody, hcommitted, hidentity⟩ := discard_cases h
      rw [hcommitted]
      rcases bind_cases hbody with ⟨e, heach, rfl⟩ | ⟨_, s₂, heach, hrest⟩
      · have hsilent := (silent_expireEach _ _ _).committed heach
        refine ⟨.inr ?_, .inl ⟨⟨e, rfl⟩, hsilent⟩⟩
        rcases hidentity with ⟨⟨_, he⟩, _⟩ | hempty
        · cases he
        · exact hempty
      · obtain ⟨hsteps, hsame⟩ := expireEach_eq_ok (fun p mem => by
          obtain ⟨hstored, hfree⟩ := mem_duePayments mem
          exact ⟨held_of_stored hstored, hfree⟩) heach
        cases hrest
        refine ⟨.inr ?_, .inr ⟨⟨_, rfl⟩, hsteps⟩⟩
        rcases hidentity with ⟨_, rfl⟩ | hempty
        · exact hsame
        · exact hempty

end Expiry

end PaymentLab
