import PaymentLab.Runs.Reachable

/-!
# What a client leaves alone

A client inserts ledger rows, events, receipts and final records, each with a time in it, and the
times it may write in its next transaction are known beforehand (`Request.Stamps`). A property of the
store that no write of a row with such a time can change (`Withstands`) survives the transaction
(`preserves_step`). A property that does not look at the tables a client writes (`Apart`) survives
every transaction of every call (`Client.act_preserves`).

This is the part of the argument that does not depend on what the requests do. It is used for
properties of rows that only time could change, and for tables of other modules, which no call of a
client comes near.
-/

namespace PaymentLab

open Relational Transactional Transactional.Service

/-! ## The tables a client writes -/

/-- A property of the store that no write of a client can change. -/
structure Apart (I : Database → Prop) : Prop where
  payments : ∀ {db : Database} t, I db → I { db with payments := t }
  ledgerEntries : ∀ {db : Database} t, I db → I { db with ledgerEntries := t }
  idempotencyRecords : ∀ {db : Database} t, I db → I { db with idempotencyRecords := t }
  webhookEvents : ∀ {db : Database} t, I db → I { db with webhookEvents := t }
  confirmationReceipts : ∀ {db : Database} t, I db → I { db with confirmationReceipts := t }
  paymentConfirmations : ∀ {db : Database} t, I db → I { db with paymentConfirmations := t }

/-- A property of the store that survives every write of a client whose new rows have a time in `T`.
`R` says which receipts, by identity and time, the store holds. -/
structure Withstands (T : Instant → Prop) (R : String → Instant → Prop) (I : Database → Prop) :
    Prop where
  payments : ∀ {db : Database} t, I db → I { db with payments := t }
  idempotencyRecords : ∀ {db : Database} t, I db → I { db with idempotencyRecords := t }
  ledgerEntries : ∀ {db : Database} {entry : LedgerEntryRecord} {t}, T entry.createdAt →
    db.ledgerEntries.insert entry = some t → I db → I { db with ledgerEntries := t }
  webhookEvents : ∀ {db : Database} {event : WebhookEventRecord} {t}, T event.createdAt →
    db.webhookEvents.insert event = some t → I db → I { db with webhookEvents := t }
  received : ∀ {db : Database} {receipt : ConfirmationReceiptRecord} {t}, T receipt.receivedAt →
    db.confirmationReceipts.insert receipt = some t → I db → I { db with confirmationReceipts := t }
  completed : ∀ {db : Database} {receipt : ConfirmationReceiptRecord} {t},
    R receipt.confirmationId receipt.receivedAt →
    db.confirmationReceipts.update receipt = some t → I db → I { db with confirmationReceipts := t }
  paymentConfirmations : ∀ {db : Database} {confirmation : PaymentConfirmationRecord} {t},
    T confirmation.receivedAt → db.paymentConfirmations.insert confirmation = some t → I db →
    I { db with paymentConfirmations := t }
  found : ∀ {db : Database} {id : String} {receipt : ConfirmationReceiptRecord}, I db →
    db.confirmationReceipts.get id = some receipt → R id receipt.receivedAt

/-- No time matters to a property that writes cannot change. -/
theorem Apart.withstands {I : Database → Prop} (apart : Apart I) :
    Withstands (fun _ => True) (fun _ _ => True) I where
  payments := apart.payments
  idempotencyRecords := apart.idempotencyRecords
  ledgerEntries := fun _ _ => apart.ledgerEntries _
  webhookEvents := fun _ _ => apart.webhookEvents _
  received := fun _ _ => apart.confirmationReceipts _
  completed := fun _ _ => apart.confirmationReceipts _
  paymentConfirmations := fun _ _ => apart.paymentConfirmations _
  found := fun _ _ => trivial

section Statements

variable {I : Database → Prop} {α κ : Type} {S : Schema α κ} [DecidableEq κ]
  {table : Database → Table S} {replace : Database → Table S → Database} {row : α}

theorem preserves_insertInto
    (h : ∀ {db : Database} {t}, (table db).insert row = some t → I db → I (replace db t)) :
    Preserves I (Service.flush (insertInto table replace row) : Service Unit) := by
  apply preserves_flush
  intro db db' hinsert hdb
  obtain ⟨t, ht, rfl⟩ := insertInto_eq_ok hinsert
  exact h ht hdb

theorem preserves_updateIn
    (h : ∀ {db : Database} {t}, (table db).update row = some t → I db → I (replace db t)) :
    Preserves I (Service.flush (updateIn table replace row) : Service Unit) := by
  apply preserves_flush
  intro db db' hupdate hdb
  obtain ⟨t, ht, rfl⟩ := updateIn_eq_ok hupdate
  exact h ht hdb

end Statements

/-! ## The times a client writes -/

/-- The times the next transaction of a call may write into new rows. `R` names the receipts by
identity and time. -/
def Request.Stamps (R : String → Instant → Prop) : Request → Phase → Instant → Prop
  | .authorize .., .claiming now, time => time = now
  | .capture _ _ _ _ now _, .claiming _, time => time = now
  | .refund _ _ _ _ _ now _, .claiming _, time => time = now
  | .cancel _ _ _ _ now _, .ready, time => time = now
  | .accept _ clock, .ready, time => clock = .aware time
  | .process _ receivedAt clock _, .ready, time => clock.or receivedAt = some (.aware time)
  | .complete confirmationId _, .ready, time => R confirmationId time
  | .process command _ _ _, .completing _, time => R command.confirmationId time
  | .recover _ _, .recovering _ (confirmationId :: _), time => R confirmationId time
  | .expire now _ _, .ready, time => now = .aware time
  | _, _, _ => False

section Walk

variable {T : Instant → Prop} {R : String → Instant → Prop} {I : Database → Prop}
  (withstands : Withstands T R I)

include withstands in
theorem preserves_flushPayment (loaded current : PaymentRecord) :
    Preserves I (Service.flush (flushPayment loaded current) : Service Unit) := by
  apply preserves_flush
  intro db db' h hdb
  unfold flushPayment at h
  split at h
  · cases h
    exact hdb
  · split at h
    · cases h
    · split at h
      · cases h
      · obtain ⟨t, _, rfl⟩ := updateIn_eq_ok h
        exact withstands.payments t hdb

/-- A flush counts the version up and leaves the time of the update. -/
theorem afterFlush_updatedAt (loaded current : PaymentRecord) :
    (afterFlush loaded current).updatedAt = current.updatedAt := by
  unfold afterFlush
  split <;> rfl

theorem preserves_liftDomain {α : Type} (x : Except DomainError α) :
    Preserves I (liftDomain x) := by
  cases x with
  | ok a => exact preserves_pure a
  | error e => exact preserves_throw _

theorem preserves_readClock (clock : Datetime) : Preserves I (readClock clock) := by
  cases clock with
  | naive wall => exact preserves_throw _
  | aware utc => exact preserves_pure _

theorem preserves_requireAwareUtc (value : Datetime) (fieldName : String) :
    Preserves I (requireAwareUtc value fieldName) := by
  cases value with
  | naive wall => exact preserves_throw _
  | aware utc => exact preserves_pure _

theorem requireAwareUtc_eq_ok {value : Datetime} {fieldName : String} {utc : Instant}
    {s s' : DatabaseSession} (h : requireAwareUtc value fieldName s = (.ok utc, s')) :
    value = .aware utc := by
  cases value with
  | naive wall => cases h
  | aware reading =>
    cases h
    rfl

theorem preserves_beginCoordinatedWrite : Preserves I beginCoordinatedWrite :=
  preserves_rollback.bind fun _ => preserves_expireAll.bind fun _ => preserves_beginImmediate

theorem preserves_hasProtectingReceipt (payment : PaymentRecord) :
    Preserves I (hasProtectingReceipt payment) := preserves_query _

/-! ### Requests under a key -/

theorem preserves_findIdempotentSnapshot (key fingerprint : String) :
    Preserves I (findIdempotentSnapshot key fingerprint) := by
  apply (preserves_query _).bind
  intro found
  cases found with
  | none => exact preserves_pure _
  | some existing =>
    dsimp only
    split
    · exact preserves_throw _
    · cases existing.responseSnapshot with
      | none => exact preserves_throw _
      | some snapshot => exact preserves_pure _

include withstands in
theorem preserves_insertClaim (claim : IdempotencyRecord) : Preserves I (insertClaim claim) := by
  apply Preserves.tryCatch
  · exact (preserves_insertInto fun _ => withstands.idempotencyRecords _).bind fun _ => preserves_pure _
  · intro e
    split
    · exact preserves_rollback.bind fun _ => preserves_pure _
    · exact preserves_throw _

theorem preserves_replayConcurrentResult (key fingerprint : String) :
    Preserves I (replayConcurrentResult key fingerprint) := by
  apply (preserves_findIdempotentSnapshot key fingerprint).bind
  intro found
  cases found with
  | none => exact preserves_throw _
  | some snapshot => exact preserves_pure _

include withstands in
theorem preserves_claimIdempotencyKey (key fingerprint operation : String) (createdAt : Instant) :
    Preserves I (claimIdempotencyKey key fingerprint operation createdAt) := by
  apply (preserves_findIdempotentSnapshot key fingerprint).bind
  intro found
  cases found with
  | some snapshot => exact preserves_pure _
  | none =>
    apply (preserves_insertClaim withstands _).bind
    intro claimed
    cases claimed with
    | true => exact preserves_pure _
    | false => exact (preserves_replayConcurrentResult key fingerprint).bind fun _ => preserves_pure _

theorem preserves_rollbackOnError {α : Type} {body : Service α} (h : Preserves I body) :
    Preserves I (rollbackOnError body) := by
  apply h.tryCatch
  intro e
  refine Preserves.bind ?_ fun _ => preserves_throw e
  apply preserves_inTransaction.bind
  intro begun
  cases begun with
  | true => exact preserves_rollback
  | false => exact preserves_pure _

section Outcome

variable (claim : IdempotencyRecord) (loaded payment : PaymentRecord)
  (entry : Option LedgerEntryRecord) (eventType : WebhookEventType)
  (failurePoint : Option FailurePoint) (hex : String)

include withstands in
theorem preserves_stageOutcome (updated : T payment.updatedAt)
    (posted : ∀ row, entry = some row → T row.createdAt) :
    Preserves I (stageOutcome claim loaded payment entry eventType hex) := by
  apply (preserves_flushPayment withstands loaded payment).bind
  intro _
  have staged : Preserves I (flushLedgerEntry entry) := by
    cases entry with
    | none => exact preserves_pure _
    | some entry => exact preserves_insertInto (withstands.ledgerEntries (posted entry rfl))
  apply staged.bind
  intro _
  apply (preserves_remember _).bind
  intro _
  have dated : T (afterFlush loaded payment).updatedAt := by
    rw [afterFlush_updatedAt]
    exact updated
  apply (preserves_insertInto (withstands.webhookEvents dated)).bind
  intro _
  exact (preserves_updateIn fun _ => withstands.idempotencyRecords _).bind fun _ => preserves_pure _

include withstands in
theorem preserves_commitPaymentOutcome (updated : T payment.updatedAt)
    (posted : ∀ row, entry = some row → T row.createdAt) :
    Preserves I (commitPaymentOutcome claim loaded payment entry eventType failurePoint hex) := by
  apply Preserves.bind
  · apply Preserves.tryCatch
    · apply (preserves_stageOutcome withstands claim loaded payment entry eventType hex updated
        posted).bind
      intro flushed
      split
      · exact preserves_throw _
      · exact preserves_commit.bind fun _ => preserves_pure _
    · intro e
      apply preserves_rollback.bind
      intro _
      split
      · exact preserves_throw _
      · exact preserves_throw _
  · intro committed
    split
    · exact preserves_throw _
    · exact preserves_pure _

end Outcome

theorem authorizationEntry_createdAt {payment : PaymentRecord} {hex : String}
    {entry : LedgerEntryRecord} (h : authorizationEntry payment hex = some entry) :
    entry.createdAt = payment.createdAt := by
  unfold authorizationEntry at h
  split at h
  · cases h
    rfl
  · cases h

theorem lifecycleEntry_createdAt {command : LifecycleCommand} {payment : PaymentRecord}
    {state : PaymentState} {amount : Int} {now : Instant} {hex : String} {entry : LedgerEntryRecord}
    (h : lifecycleEntry command payment state amount now hex = some entry) :
    entry.createdAt = now := by
  unfold lifecycleEntry at h
  split at h
  · cases h
  · cases h
    rfl

include withstands in
theorem preserves_executeClaimedAuthorization (command : AuthorizationCommand)
    (claim : IdempotencyRecord) (failurePoint : Option FailurePoint) (now : Instant)
    (draws : Draws) (stamped : T now) :
    Preserves I (executeClaimedAuthorization command claim failurePoint now draws) := by
  apply (preserves_liftDomain _).bind
  intro terms
  apply (preserves_insertInto fun _ => withstands.payments _).bind
  intro _
  refine (preserves_commitPaymentOutcome withstands _ _ _ _ _ _ _ stamped fun row hrow => ?_).bind
    fun _ => preserves_pure _
  rw [authorizationEntry_createdAt hrow]
  exact stamped

theorem preserves_getPayment (paymentId : String) : Preserves I (getPayment paymentId) := by
  apply (preserves_getThrough _ _ _).bind
  intro found
  cases found with
  | some payment => exact preserves_pure _
  | none => exact preserves_throw _

theorem preserves_cancellationProtected (payment : PaymentRecord) (state : PaymentState) :
    Preserves I (cancellationProtected payment state) := by
  unfold cancellationProtected
  split
  · exact preserves_hasProtectingReceipt payment
  · exact preserves_pure _

theorem preserves_decideOperation (command : LifecycleCommand) (payment : PaymentRecord)
    (state : PaymentState) : Preserves I (decideOperation command payment state) := by
  unfold decideOperation
  split
  · exact (preserves_liftDomain _).bind fun _ => preserves_pure _
  · apply (preserves_cancellationProtected payment state).bind
    intro isProtected
    cases isProtected with
    | true => exact preserves_throw _
    | false => exact (preserves_liftDomain _).bind fun _ => preserves_pure _
  · exact (preserves_liftDomain _).bind fun _ => preserves_pure _
  · exact preserves_throw _

include withstands in
theorem preserves_executeClaimedLifecycleOperation (command : LifecycleCommand)
    (claim : IdempotencyRecord) (failurePoint : Option FailurePoint) (now : Instant)
    (draws : Draws) (stamped : T now) :
    Preserves I (executeClaimedLifecycleOperation command claim failurePoint now draws) := by
  apply (preserves_getPayment _).bind
  intro payment
  apply (preserves_liftDomain _).bind
  intro state
  apply (preserves_decideOperation command payment state).bind
  intro decided
  cases lifecycleEventType command.operation with
  | none => exact preserves_throw _
  | some eventType =>
    refine (preserves_commitPaymentOutcome withstands _ _ _ _ _ _ _ stamped fun row hrow => ?_).bind
      fun _ => preserves_pure _
    rw [lifecycleEntry_createdAt hrow]
    exact stamped

include withstands in
theorem preserves_cancelPayment (sha256 : String → String) (paymentId key : String)
    (failurePoint : Option FailurePoint) (claimedAt now : Instant) (draws : Draws)
    (stamped : T now) :
    Preserves I (cancelPayment sha256 paymentId key failurePoint claimedAt now draws) := by
  apply Preserves.tryCatch
  · apply preserves_beginCoordinatedWrite.bind
    intro _
    apply (preserves_claimIdempotencyKey withstands _ _ _ _).bind
    intro result
    cases result with
    | replayed snapshot => exact preserves_pure _
    | claimed claim =>
      exact preserves_rollbackOnError
        (preserves_executeClaimedLifecycleOperation withstands _ claim failurePoint now draws stamped)
  · intro e
    split
    · exact preserves_rollback.bind fun _ => preserves_throw _
    · exact preserves_throw _

/-! ### Confirmations and expiry -/

section Confirmations

variable (sha256 : String → String)

include withstands in
theorem preserves_acceptConfirmation (command : ConfirmationCommand) (clock : Datetime)
    (stamped : ∀ receivedAt, clock = .aware receivedAt → T receivedAt) :
    Preserves I (acceptConfirmation sha256 command clock) := by
  apply preserves_beginCoordinatedWrite.bind
  intro _
  apply Preserves.discard
  apply (preserves_query _).bind
  intro found
  cases found with
  | some receipt =>
    dsimp only
    split
    · exact preserves_throw _
    · exact preserves_commit.bind fun _ => preserves_pure _
  | none =>
    apply (preserves_requireAwareUtc clock _).bind_of
    intro s receivedAt s' _ hclock
    have received : T receivedAt := stamped receivedAt (requireAwareUtc_eq_ok hclock)
    apply (preserves_insertInto (withstands.received received)).bind
    intro _
    exact preserves_commit.bind fun _ => preserves_pure _

theorem preserves_existingOutcome (confirmationId fingerprint : String) :
    Preserves I (existingOutcome confirmationId fingerprint) := by
  apply (preserves_query _).bind
  intro found
  cases found with
  | none => exact preserves_pure _
  | some existing =>
    dsimp only
    split
    · exact preserves_throw _
    · exact preserves_pure _

include withstands in
theorem preserves_applyExpiryTransition (payment : PaymentRecord) (occurredAt : Instant)
    (hex : String) (stamped : T occurredAt) :
    Preserves I (applyExpiryTransition payment occurredAt hex) := by
  apply (preserves_liftDomain _).bind
  intro state
  apply (preserves_liftDomain _).bind
  intro next
  apply (preserves_flushPayment withstands _ _).bind
  intro _
  have dated : T (afterFlush payment (payment.withState next occurredAt)).updatedAt := by
    rw [afterFlush_updatedAt]
    exact stamped
  exact preserves_insertInto (withstands.webhookEvents dated)

include withstands in
theorem preserves_applyDisposition (payment : Option PaymentRecord) (command : ConfirmationCommand)
    (disposition : ConfirmationDisposition) (receivedAt : Instant) (draws : Draws)
    (stamped : T receivedAt) :
    Preserves I (applyDisposition payment command disposition receivedAt draws) := by
  cases payment with
  | none => exact preserves_pure _
  | some payment =>
    unfold applyDisposition
    dsimp only
    split
    · apply (preserves_liftDomain _).bind
      intro state
      apply (preserves_liftDomain _).bind
      intro next
      apply (preserves_flushPayment withstands _ _).bind
      intro _
      apply (preserves_insertInto (withstands.ledgerEntries stamped)).bind
      intro _
      have dated : T (afterFlush payment (payment.withState next receivedAt)).updatedAt := by
        rw [afterFlush_updatedAt]
        exact stamped
      exact preserves_insertInto (withstands.webhookEvents dated)
    · split
      · apply (preserves_hasProtectingReceipt payment).bind
        intro isProtected
        cases isProtected with
        | true => exact preserves_pure _
        | false =>
          exact preserves_applyExpiryTransition withstands payment receivedAt draws.event stamped
      · exact preserves_pure _

include withstands in
theorem preserves_settleReceipt (receipt : ConfirmationReceiptRecord)
    (disposition : ConfirmationDisposition) (payment : Option PaymentRecord) (draws : Draws)
    (held : R receipt.confirmationId receipt.receivedAt) (stamped : T receipt.receivedAt) :
    Preserves I (settleReceipt sha256 receipt disposition payment draws) := by
  apply Preserves.tryCatch
  · refine Preserves.bind ?_ fun _ => preserves_commit.bind fun _ => preserves_pure _
    apply (preserves_insertInto (withstands.paymentConfirmations stamped)).bind
    intro _
    apply (preserves_applyDisposition withstands payment _ _ _ draws stamped).bind
    intro _
    exact preserves_updateIn (withstands.completed held)
  · intro e
    apply preserves_rollback.bind
    intro _
    split
    · apply (preserves_existingOutcome _ _).bind
      intro replay
      cases replay with
      | none => exact preserves_throw _
      | some replay => exact preserves_pure _
    · split
      · exact preserves_throw _
      · exact preserves_throw _

include withstands in
theorem preserves_completeConfirmation (confirmationId : String) (draws : Draws)
    (stamped : ∀ receivedAt, R confirmationId receivedAt → T receivedAt) :
    Preserves I (completeConfirmation sha256 confirmationId draws) := by
  apply preserves_beginCoordinatedWrite.bind
  intro _
  apply Preserves.discard
  apply (preserves_query _).bind_of
  intro s found s' hdb hquery
  cases found with
  | none => exact preserves_throw _
  | some receipt =>
    have hget := (query_eq_ok hquery).1.symm
    have hid : receipt.confirmationId = confirmationId := (Table.get_eq_some hget).2
    have held := withstands.found hdb hget
    apply (preserves_existingOutcome _ _).bind
    intro replay
    cases replay with
    | some replay => exact preserves_commit.bind fun _ => preserves_pure _
    | none =>
      apply (preserves_query _).bind
      intro payment
      cases classify payment receipt.command receipt.receivedAt with
      | error e => exact preserves_throw _
      | ok disposition =>
        exact preserves_settleReceipt withstands sha256 receipt disposition payment draws
          (hid ▸ held) (stamped _ held)

include withstands in
theorem preserves_processAcceptance (command : ConfirmationCommand) (clock : Datetime)
    (stamped : ∀ receivedAt, clock = .aware receivedAt → T receivedAt) :
    Preserves I (processAcceptance sha256 command clock) := by
  apply (preserves_acceptConfirmation withstands sha256 command clock stamped).tryCatch
  intro e
  split
  · exact preserves_rollback.bind fun _ => preserves_throw _
  · exact preserves_throw _

theorem preserves_processingClock (receivedAt clock : Option Datetime) :
    Preserves I (processingClock receivedAt clock) := by
  cases receivedAt with
  | none =>
    cases clock with
    | none => exact preserves_throw _
    | some clock => exact preserves_pure _
  | some receivedAt =>
    cases clock with
    | none => exact (preserves_requireAwareUtc receivedAt _).bind fun _ => preserves_pure _
    | some clock => exact preserves_throw _

theorem preserves_selectPending (limit : Int) : Preserves I (selectPending limit) := by
  unfold selectPending
  split
  · exact preserves_throw _
  · apply preserves_beginCoordinatedWrite.bind
    intro _
    apply (preserves_query _).bind
    intro ids
    exact preserves_commit.bind fun _ => preserves_pure _

include withstands in
theorem preserves_expireEach (current : Instant) (hex : String → String)
    (payments : List PaymentRecord) (stamped : T current) :
    Preserves I (expireEach current hex payments) := by
  induction payments with
  | nil => exact preserves_pure _
  | cons payment rest ih =>
    refine Preserves.bind ?_ fun _ => ih
    apply (preserves_applyExpiryTransition withstands payment current _ stamped).tryCatch
    intro e
    split
    · exact preserves_throw _
    · exact preserves_throw _

include withstands in
theorem preserves_expireDuePayments (now : Datetime) (limit : Int) (hex : String → String)
    (stamped : ∀ current, now = .aware current → T current) :
    Preserves I (expireDuePayments now limit hex) := by
  apply (preserves_requireAwareUtc now _).bind_of
  intro s current s' _ hnow
  split
  · exact preserves_throw _
  · apply preserves_beginCoordinatedWrite.bind
    intro _
    apply (preserves_query _).bind
    intro due
    apply Preserves.discard
    apply (preserves_expireEach withstands current hex due
      (stamped current (requireAwareUtc_eq_ok hnow))).bind
    intro _
    exact preserves_commit.bind fun _ => preserves_pure _

end Confirmations

/-! ### Transactions of a call -/

variable (sha256 : String → String)

theorem preserves_lookUp (key fingerprint : String) (claimedAt : Instant) :
    Preserves I (lookUp key fingerprint claimedAt) := by
  apply (preserves_findIdempotentSnapshot key fingerprint).bind
  intro found
  cases found with
  | some snapshot => exact preserves_pure _
  | none => exact preserves_pure _

include withstands in
theorem preserves_attempt (claim : IdempotencyRecord)
    {body : IdempotencyRecord → Service PaymentOutcome} (h : Preserves I (body claim)) :
    Preserves I (attempt claim body) := by
  apply (preserves_insertClaim withstands claim).bind
  intro claimed
  cases claimed with
  | true => exact (preserves_rollbackOnError h).bind fun _ => preserves_pure _
  | false => exact preserves_pure _

theorem preserves_reread (key fingerprint : String) : Preserves I (reread key fingerprint) :=
  (preserves_replayConcurrentResult key fingerprint).bind fun _ => preserves_pure _

include withstands in
theorem preserves_lifecycleStep (command : LifecycleCommand) (key : String)
    (failurePoint : Option FailurePoint) (claimedAt now : Instant) (draws : Draws) (phase : Phase)
    (stamped : ∀ claimedAt, phase = .claiming claimedAt → T now) :
    Preserves I (lifecycleStep sha256 command key failurePoint claimedAt now draws phase) := by
  cases phase with
  | ready => exact preserves_lookUp _ _ _
  | claiming claimedAt =>
    exact preserves_attempt withstands _
      (preserves_executeClaimedLifecycleOperation withstands command _ failurePoint now draws
        (stamped claimedAt rfl))
  | rereading => exact preserves_reread _ _
  | completing => exact preserves_pure _
  | recovering => exact preserves_pure _
  | finished => exact preserves_pure _
  | interrupted => exact preserves_pure _

/-- The clock of a processed confirmation is the one it was given. -/
theorem processingClock_eq_ok {receivedAt clock : Option Datetime} {chosen : Datetime}
    {s s' : DatabaseSession} (h : processingClock receivedAt clock s = (.ok chosen, s')) :
    clock.or receivedAt = some chosen := by
  unfold processingClock at h
  split at h
  · cases h
    rfl
  · obtain ⟨fixed, s₁, hfixed, hrest⟩ := bind_eq_ok h
    cases hrest
    rw [requireAwareUtc_eq_ok hfixed]
    rfl
  · cases h

include withstands in
/-- **A transaction of a call** keeps what withstands writes at the times it may write. -/
theorem preserves_step (request : Request) (phase : Phase)
    (stamped : ∀ time, request.Stamps R phase time → T time) :
    Preserves I (request.step sha256 phase) := by
  cases request with
  | authorize command key failurePoint clock draws =>
    cases phase with
    | ready => exact (preserves_readClock clock).bind fun _ => preserves_lookUp _ _ _
    | claiming now =>
      exact preserves_attempt withstands _
        (preserves_executeClaimedAuthorization withstands command _ failurePoint now draws
          (stamped now rfl))
    | rereading => exact preserves_reread _ _
    | _ => exact preserves_pure _
  | capture paymentId key failurePoint claimedAt now draws =>
    exact preserves_lifecycleStep withstands sha256 _ _ _ _ _ _ phase
      fun _ hphase => stamped now (hphase ▸ rfl)
  | refund paymentId amount key failurePoint claimedAt now draws =>
    exact preserves_lifecycleStep withstands sha256 _ _ _ _ _ _ phase
      fun _ hphase => stamped now (hphase ▸ rfl)
  | cancel paymentId key failurePoint claimedAt now draws =>
    cases phase with
    | ready =>
      exact (preserves_cancelPayment withstands sha256 _ _ _ _ _ _ (stamped now rfl)).bind
        fun _ => preserves_pure _
    | _ => exact preserves_pure _
  | accept command clock =>
    cases phase with
    | ready =>
      exact (preserves_acceptConfirmation withstands sha256 command clock stamped).bind fun _ =>
        preserves_pure _
    | _ => exact preserves_pure _
  | complete confirmationId draws =>
    cases phase with
    | ready =>
      exact (preserves_completeConfirmation withstands sha256 confirmationId draws stamped).bind
        fun _ => preserves_pure _
    | _ => exact preserves_pure _
  | process command receivedAt clock draws =>
    cases phase with
    | ready =>
      apply (preserves_processingClock receivedAt clock).bind_of
      intro s chosen s' _ hchosen
      refine (preserves_processAcceptance withstands sha256 command chosen fun time htime =>
        stamped time ?_).bind fun _ => preserves_pure _
      rw [htime] at hchosen
      exact processingClock_eq_ok hchosen
    | completing replayed =>
      refine Preserves.bind ?_ fun _ => preserves_pure _
      exact (preserves_completeConfirmation withstands sha256 _ draws stamped).tryCatch fun _ =>
        preserves_throw _
    | _ => exact preserves_pure _
  | recover limit draws =>
    cases phase with
    | ready => exact (preserves_selectPending limit).bind fun _ => preserves_pure _
    | recovering ids todo =>
      cases todo with
      | nil => exact preserves_pure _
      | cons confirmationId todo =>
        exact (preserves_completeConfirmation withstands sha256 confirmationId _ stamped).bind
          fun _ => preserves_pure _
    | _ => exact preserves_pure _
  | expire now limit hex =>
    cases phase with
    | ready =>
      exact (preserves_expireDuePayments withstands now limit hex stamped).bind fun _ =>
        preserves_pure _
    | _ => exact preserves_pure _

end Walk

theorem Client.act_preserves {I : Database → Prop} (apart : Apart I) (sha256 : String → String)
    (client : Client) {db : Database} (h : I db) : I (client.act sha256 db).1 :=
  (preserves_step apart.withstands sha256 client.request client.phase (fun _ _ => trivial)
    (client.session db) h h).1

end PaymentLab
