import PaymentLab.Runs.Confirmations
import PaymentLab.Services.ConfirmationReporting

/-!
# Giving the writer back

Which coordinated calls leave their session holding the writer. Every one of them ends by a commit or
a rollback, with one exception: a cancellation whose key is already stored answers or refuses before
its guard begins, and the reservation stays. `writer_released` is the exact condition;
`writer_kept` is a replay after which no other session could begin.

The statement is about the session as the call leaves it, on a return or an exception, from a
session that held nothing. What becomes of a reservation that stays is not part of the call: it ends
when the session is closed, or with the next transaction on it.
-/

namespace PaymentLab

open Relational Transactional Transactional.Service

/-! ## Services that always release -/

theorem releases_coordinated {α : Type} {body : Service α} (h : Releases body) :
    Releases (beginCoordinatedWrite >>= fun _ => body) := by
  apply Releases.after
  · intro s
    exact ⟨(), _, rfl⟩
  · intro _
    exact h

theorem quiet_requireAwareUtc (value : Datetime) (fieldName : String) :
    Quiet (requireAwareUtc value fieldName) := by
  cases value with
  | naive wall => exact quiet_throw _
  | aware utc => exact quiet_pure _

section Confirmations

variable (sha256 : String → String)

theorem releases_acceptConfirmation (command : ConfirmationCommand) (clock : Datetime) :
    Releases (acceptConfirmation sha256 command clock) := by
  apply releases_coordinated
  apply Settles.discard
  apply Settles.bind
  intro found
  cases found with
  | none => exact Settles.bind fun _ => Settles.bind fun _ => settles_commit _
  | some receipt =>
    dsimp only
    split
    · exact settles_throw _
    · exact settles_commit _

theorem quiet_existingOutcome (confirmationId fingerprint : String) :
    Quiet (existingOutcome confirmationId fingerprint) := by
  apply (quiet_query _).bind
  intro found
  cases found with
  | none => exact quiet_pure _
  | some existing =>
    dsimp only
    split
    · exact quiet_throw _
    · exact quiet_pure _

theorem releases_completionFailed (receipt : ConfirmationReceiptRecord)
    (payment : Option PaymentRecord) (error : ServiceError) :
    Releases (completionFailed sha256 receipt payment error) := by
  apply releases_rollback.bind_keeps
  intro _
  split
  · apply (quiet_existingOutcome _ _).keeps.bind
    intro replay
    cases replay with
    | none => exact keeps_throw _
    | some replay => exact keeps_pure _
  · split
    · exact keeps_throw _
    · exact keeps_throw _

theorem releases_settleReceipt (receipt : ConfirmationReceiptRecord)
    (disposition : ConfirmationDisposition) (payment : Option PaymentRecord) (draws : Draws) :
    Releases (settleReceipt sha256 receipt disposition payment draws) := by
  apply Settles.tryCatch
  · exact Settles.bind fun _ => settles_commit _
  · exact releases_completionFailed sha256 receipt payment

theorem settles_completeReceipt (confirmationId : String) (draws : Draws) :
    Settles (completeReceipt sha256 confirmationId draws) := by
  apply Settles.bind
  intro found
  cases found with
  | none => exact settles_throw _
  | some receipt =>
    apply Settles.bind
    intro replay
    cases replay with
    | some replay => exact settles_commit _
    | none =>
      apply Settles.bind
      intro payment
      cases classify payment receipt.command receipt.receivedAt with
      | error e => exact settles_throw _
      | ok disposition => exact (releases_settleReceipt sha256 receipt disposition payment draws).settles

theorem releases_completeConfirmation (confirmationId : String) (draws : Draws) :
    Releases (completeConfirmation sha256 confirmationId draws) :=
  releases_coordinated (settles_completeReceipt sha256 confirmationId draws).discard

theorem releases_processAcceptance (command : ConfirmationCommand) (clock : Datetime) :
    Releases (processAcceptance sha256 command clock) := by
  apply (releases_acceptConfirmation sha256 command clock).tryCatch
  intro e
  split
  · exact releases_rollback.keeps.bind fun _ => keeps_throw _
  · exact keeps_throw _

theorem quiet_processingClock (receivedAt clock : Option Datetime) :
    Quiet (processingClock receivedAt clock) := by
  cases receivedAt with
  | none =>
    cases clock with
    | none => exact quiet_throw _
    | some clock => exact quiet_pure _
  | some receivedAt =>
    cases clock with
    | none => exact (quiet_requireAwareUtc receivedAt _).bind fun _ => quiet_pure _
    | some clock => exact quiet_throw _

theorem keeps_processConfirmation (command : ConfirmationCommand)
    (receivedAt clock : Option Datetime) (draws : Draws) :
    Keeps (processConfirmation sha256 command receivedAt clock draws) := by
  apply (quiet_processingClock receivedAt clock).keeps.bind
  intro clock
  apply (releases_processAcceptance sha256 command clock).keeps.bind
  intro replayed
  have completion : Releases (processCompletion sha256 command.confirmationId draws) :=
    (releases_completeConfirmation sha256 command.confirmationId draws).tryCatch
      fun _ => keeps_throw _
  exact completion.keeps.bind fun _ => keeps_pure _

theorem keeps_completeEach (draws : String → Draws) (ids : List String) :
    Keeps (completeEach sha256 draws ids) := by
  induction ids with
  | nil => exact keeps_pure _
  | cons id rest ih =>
    apply (releases_completeConfirmation sha256 id (draws id)).keeps.bind
    intro _
    exact ih

theorem keeps_selectPending (limit : Int) : Keeps (selectPending limit) := by
  unfold selectPending
  split
  · exact keeps_throw _
  · apply Releases.keeps
    apply releases_coordinated
    apply Releases.after
    · intro s
      exact ⟨_, _, rfl⟩
    · intro ids
      exact releases_commit.bind_keeps fun _ => keeps_pure _

theorem keeps_recoverPendingConfirmations (limit : Int) (draws : String → Draws) :
    Keeps (recoverPendingConfirmations sha256 limit draws) := by
  apply (keeps_selectPending limit).bind
  intro ids
  exact (keeps_completeEach sha256 draws ids).bind fun _ => keeps_pure _

end Confirmations

theorem keeps_expireDuePayments (now : Datetime) (limit : Int) (hex : String → String) :
    Keeps (expireDuePayments now limit hex) := by
  apply (quiet_requireAwareUtc now _).keeps.bind
  intro current
  split
  · exact keeps_throw _
  · apply Releases.keeps
    apply releases_coordinated
    apply Releases.after
    · intro s
      exact ⟨_, _, rfl⟩
    · intro due
      exact Settles.discard (Settles.bind fun _ => settles_commit _)

theorem releases_confirmationSection (batchId : String) (clock : Datetime) :
    Releases (confirmationSection batchId clock) := by
  apply releases_coordinated
  apply Settles.discard
  apply Settles.bind
  intro found
  cases found with
  | some saved => exact settles_commit _
  | none =>
    apply Settles.bind
    intro batch
    cases batch with
    | none => exact settles_throw _
    | some batch =>
      exact Settles.bind fun _ => Settles.bind fun _ => Settles.bind fun _ => settles_commit _

/-! ## Cancellation -/

section Cancellation

variable (sha256 : String → String)

/-- The guard of a claimed operation releases what settles its session. -/
theorem rollbackOnError_released {α : Type} {body : Service α} (settles : Settles body)
    (guards : Guards body) {s : DatabaseSession} (h : s.Guarded) :
    (rollbackOnError body s).2.Released := by
  unfold rollbackOnError
  rw [tryCatch_apply]
  split
  · next a s' hbody => exact settles s a s' hbody
  · next e s' hbody =>
    have held := guards s h
    rw [hbody] at held
    unfold rollbackIfOpen
    rw [bind_apply, bind_ok (inTransaction_apply s')]
    cases hbegun : s'.begun with
    | false => exact held hbegun
    | true => exact ⟨rfl, rfl⟩

theorem guards_liftDomain {α : Type} (x : Except DomainError α) : Guards (liftDomain x) := by
  cases x with
  | ok a => exact guards_pure a
  | error e => exact guards_throw _

theorem guards_cancellationProtected (payment : PaymentRecord) (state : PaymentState) :
    Guards (cancellationProtected payment state) := by
  unfold cancellationProtected
  split
  · exact guards_query _
  · exact guards_pure _

theorem guards_decideOperation (command : LifecycleCommand) (payment : PaymentRecord)
    (state : PaymentState) : Guards (decideOperation command payment state) := by
  unfold decideOperation
  split
  · exact (guards_liftDomain _).bind fun _ => guards_pure _
  · apply (guards_cancellationProtected payment state).bind
    intro isProtected
    cases isProtected with
    | true => exact guards_throw _
    | false => exact (guards_liftDomain _).bind fun _ => guards_pure _
  · exact (guards_liftDomain _).bind fun _ => guards_pure _
  · exact guards_throw _

theorem guards_getPayment (paymentId : String) : Guards (getPayment paymentId) := by
  apply (guards_getThrough _ _ _).bind
  intro found
  cases found with
  | some payment => exact guards_pure _
  | none => exact guards_throw _

section Outcome

variable (claim : IdempotencyRecord) (loaded payment : PaymentRecord)
  (entry : Option LedgerEntryRecord) (eventType : WebhookEventType)
  (failurePoint : Option FailurePoint) (hex : String)

/-- The commit of an outcome ends its transaction, whichever way it goes. -/
theorem releases_commitPaymentOutcome :
    Releases (commitPaymentOutcome claim loaded payment entry eventType failurePoint hex) := by
  apply Releases.bind_keeps
  · apply Settles.tryCatch
    · apply Settles.bind
      intro flushed
      split
      · exact settles_throw _
      · exact settles_commit _
    · intro e
      apply releases_rollback.bind_keeps
      intro _
      split
      · exact keeps_throw _
      · exact keeps_throw _
  · intro committed
    split
    · exact keeps_throw _
    · exact keeps_pure _

end Outcome

variable (command : LifecycleCommand) (claim : IdempotencyRecord)
  (failurePoint : Option FailurePoint) (now : Instant) (draws : Draws)

theorem guards_executeClaimedLifecycleOperation :
    Guards (executeClaimedLifecycleOperation command claim failurePoint now draws) := by
  apply (guards_getPayment _).bind
  intro payment
  apply (guards_liftDomain _).bind
  intro state
  apply (guards_decideOperation command payment state).bind
  intro decided
  obtain ⟨next, amount⟩ := decided
  cases lifecycleEventType command.operation with
  | none => exact guards_throw _
  | some eventType =>
    apply (releases_commitPaymentOutcome _ _ _ _ _ _ _).guards.bind
    intro committed
    exact guards_pure _

theorem settles_executeClaimedLifecycleOperation :
    Settles (executeClaimedLifecycleOperation command claim failurePoint now draws) := by
  apply Settles.bind
  intro payment
  apply Settles.bind
  intro state
  apply Settles.bind
  intro decided
  obtain ⟨next, amount⟩ := decided
  cases lifecycleEventType command.operation with
  | none => exact settles_throw _
  | some eventType =>
    exact (releases_commitPaymentOutcome _ _ _ _ _ _ _).settles.bind_keeps fun _ => keeps_pure _

variable {key fingerprint : String} {s : DatabaseSession}

/-- A stored key is answered or refused at once, by no storage error. -/
theorem findIdempotentSnapshot_stored {existing : IdempotencyRecord}
    (h : s.working.idempotencyRecords.get key = some existing) :
    (∃ snapshot, findIdempotentSnapshot key fingerprint s =
        (.ok (some snapshot), { s with begun := true })) ∨
      ∃ e, e.isSQLAlchemyError = false ∧
        findIdempotentSnapshot key fingerprint s = (.error e, { s with begun := true }) := by
  unfold findIdempotentSnapshot
  rw [bind_ok (query_apply _ s), h]
  dsimp only
  split
  · exact .inr ⟨.idempotencyConflict, rfl, rfl⟩
  · cases existing.responseSnapshot with
    | none => exact .inr ⟨.runtimeError _, rfl, rfl⟩
    | some snapshot => exact .inl ⟨snapshot, rfl⟩

theorem findIdempotentSnapshot_free (h : s.working.idempotencyRecords.get key = none) :
    findIdempotentSnapshot key fingerprint s = (.ok none, { s with begun := true }) := by
  unfold findIdempotentSnapshot
  rw [bind_ok (query_apply _ s), h]
  rfl

theorem quiet_findIdempotentSnapshot (key fingerprint : String) :
    Quiet (findIdempotentSnapshot key fingerprint) := by
  apply (quiet_query _).bind
  intro found
  cases found with
  | none => exact quiet_pure _
  | some existing =>
    dsimp only
    split
    · exact quiet_throw _
    · cases existing.responseSnapshot with
      | none => exact quiet_throw _
      | some snapshot => exact quiet_pure _

/-- A claim of a free key that is refused has dropped its transaction. -/
theorem insertClaim_cases (claim : IdempotencyRecord) (s : DatabaseSession) :
    (∃ s', insertClaim claim s = (.ok true, s') ∧ s'.begun = true) ∨
      ∃ s', insertClaim claim s = (.ok false, s') ∧ s'.Released := by
  unfold insertClaim
  rw [tryCatch_apply]
  cases h : insertIdempotencyRecord claim s.working with
  | ok d =>
    rw [bind_ok (flush_ok h)]
    exact .inl ⟨_, rfl, rfl⟩
  | error e =>
    rw [bind_error (flush_error h), insertInto_eq_error h]
    exact .inr ⟨_, rfl, rfl, rfl⟩

theorem quiet_replayConcurrentResult (key fingerprint : String) :
    Quiet (replayConcurrentResult key fingerprint) := by
  apply (quiet_findIdempotentSnapshot key fingerprint).bind
  intro found
  cases found with
  | none => exact quiet_throw _
  | some snapshot => exact quiet_pure _

/-- A free key is claimed inside the transaction, or the transaction is dropped. -/
theorem claimIdempotencyKey_free {operation : String} {createdAt : Instant}
    (h : s.working.idempotencyRecords.get key = none) :
    (∃ claim s', claimIdempotencyKey key fingerprint operation createdAt s =
        (.ok (.claimed claim), s') ∧ s'.begun = true) ∨
      ∃ r s', claimIdempotencyKey key fingerprint operation createdAt s = (r, s') ∧
        (∀ claim, r ≠ .ok (.claimed claim)) ∧ s'.Released := by
  unfold claimIdempotencyKey
  rw [bind_ok (findIdempotentSnapshot_free h)]
  dsimp only
  rcases insertClaim_cases (newClaim key fingerprint operation createdAt) { s with begun := true }
    with ⟨s', hclaim, hbegun⟩ | ⟨s', hclaim, hreleased⟩
  · rw [bind_ok hclaim]
    exact .inl ⟨_, s', rfl, hbegun⟩
  · rw [bind_ok hclaim, if_neg Bool.false_ne_true]
    have replays : Quiet (do
        return ClaimResult.replayed (← replayConcurrentResult key fingerprint)) :=
      (quiet_replayConcurrentResult key fingerprint).bind fun _ => quiet_pure _
    refine .inr ⟨_, _, rfl, fun claim heq => ?_, replays.keeps s' hreleased⟩
    obtain ⟨snapshot, _, _, hrest⟩ := bind_eq_ok (Prod.ext heq rfl)
    cases hrest

/-- A stored key ends the claim with a reading transaction still open. -/
theorem claimIdempotencyKey_stored {operation : String} {createdAt : Instant}
    {existing : IdempotencyRecord} (h : s.working.idempotencyRecords.get key = some existing) :
    (∃ snapshot, claimIdempotencyKey key fingerprint operation createdAt s =
        (.ok (.replayed snapshot), { s with begun := true })) ∨
      ∃ e, e.isSQLAlchemyError = false ∧
        claimIdempotencyKey key fingerprint operation createdAt s =
          (.error e, { s with begun := true }) := by
  unfold claimIdempotencyKey
  rcases findIdempotentSnapshot_stored h with ⟨snapshot, hfind⟩ | ⟨e, he, hfind⟩
  · rw [bind_ok hfind]
    exact .inl ⟨snapshot, rfl⟩
  · rw [bind_error hfind]
    exact .inr ⟨e, he, rfl⟩

theorem applyLifecycleOperation_released {claimedAt : Instant}
    (h : s.working.idempotencyRecords.get key = none) :
    (applyLifecycleOperation sha256 command key failurePoint claimedAt now draws s).2.Released := by
  unfold applyLifecycleOperation
  rcases claimIdempotencyKey_free h with ⟨claim, s', hclaim, hbegun⟩ | ⟨r, s', hclaim, hreplay, hs⟩
  · rw [bind_ok hclaim]
    apply rollbackOnError_released
      (settles_executeClaimedLifecycleOperation command claim failurePoint now draws)
      (guards_executeClaimedLifecycleOperation command claim failurePoint now draws)
    intro hidle
    rw [hbegun] at hidle
    cases hidle
  · rw [bind_apply, hclaim]
    cases r with
    | error e => exact hs
    | ok result =>
      cases result with
      | claimed claim => exact absurd rfl (hreplay claim)
      | replayed snapshot => exact hs

/-- **A cancellation releases the writer exactly when its key is free.** -/
theorem cancelPayment_released {paymentId : String} {claimedAt : Instant} {db : Database}
    {identity : IdentityMap} :
    (cancelPayment sha256 paymentId key failurePoint claimedAt now draws
      (Session.start db identity)).2.Released ↔ db.idempotencyRecords.get key = none := by
  let command := LifecycleCommand.cancel paymentId
  let start := coordinated (Session.start db identity)
  unfold cancelPayment
  rw [tryCatch_apply, bind_ok (beginCoordinatedWrite_apply (Session.start db identity))]
  cases hstored : db.idempotencyRecords.get key with
  | none =>
    have released : (applyLifecycleOperation sha256 command key failurePoint claimedAt now draws
        start).2.Released :=
      applyLifecycleOperation_released sha256 command failurePoint now draws hstored
    refine iff_of_true ?_ rfl
    split
    · next a s' hrun =>
      rw [hrun] at released
      exact released
    · next e s' hrun =>
      rw [hrun] at released
      split
      · exact ⟨rfl, rfl⟩
      · exact released
  | some existing =>
    -- the reservation of `start` is still there
    refine iff_of_false ?_ (by simp)
    intro hreleased
    rcases claimIdempotencyKey_stored (s := start) hstored
      with ⟨snapshot, hclaim⟩ | ⟨e, he, hclaim⟩
    · unfold applyLifecycleOperation at hreleased
      rw [bind_ok hclaim] at hreleased
      cases hreleased.1
    · unfold applyLifecycleOperation at hreleased
      rw [bind_error hclaim] at hreleased
      simp only [he] at hreleased
      cases hreleased.1

end Cancellation

/-! ## Every coordinated call -/

/-- A call of one of the operations that reserve the writer, with the arguments it takes. The reads
and the operations that commit optimistically are none of them. -/
inductive CoordinatedCall where
  | cancelPayment (paymentId idempotencyKey : String) (failurePoint : Option FailurePoint)
      (claimedAt now : Instant) (draws : Draws)
  | acceptConfirmation (command : ConfirmationCommand) (clock : Datetime)
  | processConfirmation (command : ConfirmationCommand) (receivedAt clock : Option Datetime)
      (draws : Draws)
  | completeConfirmation (confirmationId : String) (draws : Draws)
  | recoverPendingConfirmations (limit : Int) (draws : String → Draws)
  | expireDuePayments (now : Datetime) (limit : Int) (hex : String → String)
  | confirmationSection (batchId : String) (clock : Datetime)

section Calls

variable (sha256 : String → String)

/-- The session a call leaves, by a return or by an exception. -/
def CoordinatedCall.session (s : DatabaseSession) : CoordinatedCall → DatabaseSession
  | .cancelPayment paymentId idempotencyKey failurePoint claimedAt now draws =>
    (PaymentLab.cancelPayment sha256 paymentId idempotencyKey failurePoint claimedAt now draws s).2
  | .acceptConfirmation command clock => (PaymentLab.acceptConfirmation sha256 command clock s).2
  | .processConfirmation command receivedAt clock draws =>
    (PaymentLab.processConfirmation sha256 command receivedAt clock draws s).2
  | .completeConfirmation confirmationId draws =>
    (PaymentLab.completeConfirmation sha256 confirmationId draws s).2
  | .recoverPendingConfirmations limit draws =>
    (PaymentLab.recoverPendingConfirmations sha256 limit draws s).2
  | .expireDuePayments now limit hex => (PaymentLab.expireDuePayments now limit hex s).2
  | .confirmationSection batchId clock => (PaymentLab.confirmationSection batchId clock s).2

/-- The key of a cancellation is not stored yet. Only a cancellation has a key; the replay of an
earlier one is decided after the writer is reserved, and returns with it. -/
def CoordinatedCall.KeyFree (db : Database) : CoordinatedCall → Prop
  | .cancelPayment _ idempotencyKey _ _ _ _ => db.idempotencyRecords.get idempotencyKey = none
  | _ => True

/-- **The writer is given back** by every coordinated call from every store, unless the call cancels
under a key that is already stored; then it never is. -/
theorem writer_released (call : CoordinatedCall) (db : Database) (identity : IdentityMap) :
    (call.session sha256 (Session.start db identity)).Released ↔ call.KeyFree db := by
  have start : (Session.start db identity).Released := ⟨rfl, rfl⟩
  cases call with
  | cancelPayment paymentId idempotencyKey failurePoint claimedAt now draws =>
    exact cancelPayment_released sha256 failurePoint now draws
  | acceptConfirmation command clock =>
    exact iff_of_true (releases_acceptConfirmation sha256 command clock _) trivial
  | processConfirmation command receivedAt clock draws =>
    exact iff_of_true (keeps_processConfirmation sha256 command receivedAt clock draws _ start)
      trivial
  | completeConfirmation confirmationId draws =>
    exact iff_of_true (releases_completeConfirmation sha256 confirmationId draws _) trivial
  | recoverPendingConfirmations limit draws =>
    exact iff_of_true (keeps_recoverPendingConfirmations sha256 limit draws _ start) trivial
  | expireDuePayments now limit hex =>
    exact iff_of_true (keeps_expireDuePayments now limit hex _ start) trivial
  | confirmationSection batchId clock =>
    exact iff_of_true (releases_confirmationSection batchId clock _) trivial

end Calls

/-! ## A replayed cancellation -/

/-- The cancellation of one payment under one key. -/
def cancellation : CoordinatedCall :=
  .cancelPayment "pay_1" "cancel" none 1 1
    { payment := "", reference := "", ledger := "2", event := "2" }

/-- The store after the payment was authorized and the cancellation committed once. -/
def cancelledStore : Database :=
  let authorized := authorizePayment id
    { merchantReference := "order", amount := 100, currency := .usd
      paymentMethodToken := .authorization .approve }
    "authorize" none (.aware 0) { payment := "1", reference := "", ledger := "1", event := "1" }
    (Session.start .empty ∅)
  (cancellation.session id (Session.start authorized.2.committed ∅)).committed

/-- **A replayed cancellation keeps the writer.** -/
theorem writer_kept : ¬(cancellation.session id (Session.start cancelledStore ∅)).Released := by
  intro h
  have hreserved : (cancellation.session id (Session.start cancelledStore ∅)).reserved = true := by
    decide +kernel
  rw [h.1] at hreserved
  cases hreserved

end PaymentLab
