import PaymentLab.Runs.Effects

/-!
# Payment transactions

What each block of the payment service does to its session, one lemma for each block, and from them
what a claimed request commits: nothing, or exactly the effect of its command
(`executeAuthorization_commits`, `executeLifecycle_commits`). A session may hold a payment it loaded
earlier; that object is some version the row had (`Held`), and the version check of the flush makes
it the stored one.

The blocks are looked at from any session that holds versions of stored rows, not only from a fresh
one, since a client may have loaded payments in an earlier call. A capture or a refund decides on
such an object, and its `UPDATE` names the object's version; a cancellation reads the row again once
it has the writer.
-/

namespace PaymentLab

open Relational Transactional Transactional.Service

/-! ## Loaded payments -/

/-- A loaded payment: a version the stored row has or had. At the version of the row it is the row;
at a lower one nothing is said of its fields, since no commit made from it can succeed. -/
def Held (db : Database) (payment : PaymentRecord) : Prop :=
  ∃ stored, db.payments.get payment.id = some stored ∧ payment.version ≤ stored.version ∧
    (payment.version = stored.version → payment = stored)

/-- Every payment a session holds is a version of its row. -/
def Sound (db : Database) (m : IdentityMap) : Prop := ∀ payment ∈ m.payments, Held db payment

theorem held_of_stored {db : Database} {payment : PaymentRecord}
    (h : db.payments.get payment.id = some payment) : Held db payment :=
  ⟨payment, h, le_refl _, fun _ => rfl⟩

theorem sound_empty (db : Database) : Sound db ∅ := fun _ h => nomatch h

theorem Sound.hold {db : Database} {m : IdentityMap} (h : Sound db m) {payment : PaymentRecord}
    (held : Held db payment) : Sound db (holdPayment payment m) := by
  intro p mem
  rcases List.mem_cons.mp mem with rfl | mem
  · exact held
  · exact h p mem

theorem Held.congr {db db' : Database} {payment : PaymentRecord} (h : Held db payment)
    (same : db'.payments = db.payments) : Held db' payment := by
  unfold Held
  rw [same]
  exact h

theorem Sound.congr {db db' : Database} {m : IdentityMap} (h : Sound db m)
    (same : db'.payments = db.payments) : Sound db' m := fun p mem => (h p mem).congr same

/-! ## Versions only grow -/

/-- Every stored payment stays, as it is or in a later version. -/
def Grows (db db' : Database) : Prop :=
  ∀ id p, db.payments.get id = some p →
    ∃ q, db'.payments.get id = some q ∧ (q = p ∨ p.version < q.version)

theorem Grows.refl (db : Database) : Grows db db := fun _ p h => ⟨p, h, .inl rfl⟩

theorem Grows.trans {a b c : Database} (h : Grows a b) (k : Grows b c) : Grows a c := by
  intro id p hp
  obtain ⟨q, hq, hpq⟩ := h id p hp
  obtain ⟨r, hr, hqr⟩ := k id q hq
  refine ⟨r, hr, ?_⟩
  rcases hpq with rfl | hlt
  · exact hqr
  · rcases hqr with rfl | hlt'
    · exact .inr hlt
    · exact .inr (hlt.trans hlt')

theorem grows_of_same {db db' : Database} (h : db'.payments = db.payments) : Grows db db' := by
  intro id p hp
  exact ⟨p, h ▸ hp, .inl rfl⟩

theorem Advances.grows {step : LifecycleStep} {before after : PaymentRecord} {db db' : Database}
    (h : Advances step before after db db') : Grows db db' := by
  intro id p hp
  by_cases hid : id = before.id
  · subst hid
    have hp : p = before := Option.some.inj (hp.symm.trans h.stored)
    refine ⟨after, h.stored_after, .inr ?_⟩
    rw [hp, h.decided.version]
    exact Nat.lt_succ_self _
  · exact ⟨p, (h.get_of_ne hid).trans hp, .inl rfl⟩

theorem Effect.grows {sha256 : String → String} {db db' : Database} (h : Effect sha256 db db') :
    Grows db db' := by
  rcases h.advances_or_same with ⟨_, _, _, h⟩ | ⟨_, _, _, h⟩ | h | h
  · intro id p hp
    exact ⟨p, Table.get_insert_of_some h.payments hp, .inl rfl⟩
  · exact h.grows
  · exact grows_of_same h.payments
  · exact grows_of_same h.payments

/-- **A loaded payment stays a version of its row**, whatever is committed meanwhile. -/
theorem Held.grows {db db' : Database} {payment : PaymentRecord} (h : Held db payment)
    (g : Grows db db') : Held db' payment := by
  obtain ⟨stored, hstored, hle, heq⟩ := h
  obtain ⟨q, hq, hcases⟩ := g _ _ hstored
  rcases hcases with rfl | hlt
  · exact ⟨q, hq, hle, heq⟩
  · exact ⟨q, hq, by omega, fun h => by omega⟩

theorem Sound.grows {db db' : Database} {m : IdentityMap} (h : Sound db m) (g : Grows db db') :
    Sound db' m := fun p mem => (h p mem).grows g

/-! ## The versioned flush -/

theorem writeChanges_withState (loaded : PaymentRecord) (next : PaymentState) (now : Instant) :
    loaded.writeChanges (loaded.withState next now) loaded =
      { loaded.withState next now with version := loaded.version + 1 } := by
  simp only [PaymentRecord.writeChanges, PaymentRecord.withState, writeColumn_stored]

/-- A decided state changes the row. -/
theorem withState_ne {loaded : PaymentRecord} {state next : PaymentState} {step : LifecycleStep}
    (hstate : paymentState loaded = .ok state) (happly : step.apply state = .ok next)
    (now : Instant) : loaded.withState next now ≠ loaded := by
  obtain ⟨hs, _, _, hr⟩ := paymentState_eq_ok hstate
  intro heq
  have hstatus : next.status = state.status := (congrArg PaymentRecord.status heq).trans hs.symm
  have hrefunded : next.refundedAmount = state.refundedAmount :=
    (congrArg PaymentRecord.refundedAmount heq).trans hr.symm
  cases step with
  | capture =>
    obtain ⟨h, h', _⟩ := capture_eq_ok happly
    rw [h, h'] at hstatus
    cases hstatus
  | captureConfirmation amount =>
    obtain ⟨h, _, h', _⟩ := captureConfirmation_eq_ok happly
    rw [h, h'] at hstatus
    cases hstatus
  | expire =>
    obtain ⟨h, h', _⟩ := expire_eq_ok happly
    rw [h, h'] at hstatus
    cases hstatus
  | cancel =>
    obtain ⟨h, h', _⟩ := cancel_eq_ok happly
    rcases h with h | h <;> rw [h, h'] at hstatus <;> cases hstatus
  | refund amount =>
    obtain ⟨_, hpos, _, _, _, _, h⟩ := refund_eq_ok happly
    omega

/-- **The optimistic lock**: a flush of a decided state goes through only when the loaded payment is
the stored one, and then it writes exactly the decided row. -/
theorem flushPayment_decided {db d : Database} {loaded : PaymentRecord} {state next : PaymentState}
    {step : LifecycleStep} {now : Instant} (held : Held db loaded)
    (hstate : paymentState loaded = .ok state) (happly : step.apply state = .ok next)
    (h : flushPayment loaded (loaded.withState next now) db = .ok d) :
    db.payments.get loaded.id = some loaded ∧
      Decides step loaded (afterFlush loaded (loaded.withState next now)) ∧
      ∃ t, db.payments.update (afterFlush loaded (loaded.withState next now)) = some t ∧
        d = { db with payments := t } := by
  have hne := withState_ne hstate happly now
  have hafter : afterFlush loaded (loaded.withState next now) =
      { loaded.withState next now with version := loaded.version + 1 } := if_neg hne
  unfold flushPayment at h
  rw [if_neg hne] at h
  obtain ⟨stored, hstored, _, heq⟩ := held
  rw [hstored] at h
  by_cases hversion : stored.version = loaded.version
  · obtain rfl := heq hversion.symm
    simp only [ne_eq, not_true_eq_false, if_false, writeChanges_withState] at h
    obtain ⟨t, ht, rfl⟩ := updateIn_eq_ok h
    rw [hafter]
    exact ⟨hstored, ⟨state, next, now, hstate, happly, rfl⟩, t, ht, rfl⟩
  · simp only [ne_eq, hversion, not_false_eq_true, if_true, reduceCtorEq] at h

/-! ## Reading -/

/-- The lookup of a key, as a function of the stored record. -/
theorem findIdempotentSnapshot_apply (key fingerprint : String) (s : DatabaseSession) :
    findIdempotentSnapshot key fingerprint s =
      (match s.working.idempotencyRecords.get key with
        | none => .ok none
        | some existing =>
          if existing.requestFingerprint ≠ fingerprint then .error .idempotencyConflict
          else
            match existing.responseSnapshot with
            | none => .error (.runtimeError "Idempotency record has no completed response")
            | some snapshot => .ok (some snapshot),
        { s with begun := true }) := by
  unfold findIdempotentSnapshot
  rw [bind_ok (query_apply _ s)]
  cases s.working.idempotencyRecords.get key with
  | none => rfl
  | some existing =>
    by_cases hf : existing.requestFingerprint ≠ fingerprint
    · simp only [if_pos hf]
      rfl
    · simp only [if_neg hf]
      cases existing.responseSnapshot <;> rfl

/-- The flush of a claim, as a function of the table. -/
theorem insertClaim_apply (claim : IdempotencyRecord) (s : DatabaseSession) :
    insertClaim claim s =
      match s.working.idempotencyRecords.insert claim with
      | some t =>
        (.ok true, { s with working := { s.working with idempotencyRecords := t }, begun := true })
      | none =>
        (.ok false, { s with
          working := s.committed, begun := false, reserved := false, identity := ∅ }) := by
  unfold insertClaim
  cases ht : s.working.idempotencyRecords.insert claim with
  | some t =>
    have hf : insertIdempotencyRecord claim s.working =
        .ok { s.working with idempotencyRecords := t } := by
      unfold insertIdempotencyRecord insertInto
      rw [ht]
    exact tryCatch_ok (bind_ok (flush_ok hf))
  | none =>
    have hf : insertIdempotencyRecord claim s.working = .error .integrityError := by
      unfold insertIdempotencyRecord insertInto
      rw [ht]
    exact tryCatch_error (bind_error (flush_error hf))

theorem liftDomain_cases {α : Type} {x : Except DomainError α} {r : Except ServiceError α}
    {s s' : DatabaseSession} (h : liftDomain x s = (r, s')) :
    s' = s ∧ ((∃ a, x = .ok a ∧ r = .ok a) ∨ ∃ e, x = .error e ∧ r = .error (.domain e)) := by
  cases x with
  | ok a => cases h; exact ⟨rfl, .inl ⟨a, rfl, rfl⟩⟩
  | error e => cases h; exact ⟨rfl, .inr ⟨e, rfl, rfl⟩⟩

theorem liftDomain_eq_ok {α : Type} {x : Except DomainError α} {a : α} {s s' : DatabaseSession}
    (h : liftDomain x s = (.ok a, s')) : x = .ok a ∧ s' = s := by
  obtain ⟨rfl, ⟨_, hx, heq⟩ | ⟨_, _, heq⟩⟩ := liftDomain_cases h <;> cases heq
  exact ⟨hx, rfl⟩

/-- A payment read through the session: a version of the row, and nothing written. -/
theorem sessionGetPayment_cases {paymentId : String} {s s' : DatabaseSession}
    {r : Except ServiceError (Option PaymentRecord)} (sound : Sound s.working s.identity)
    (h : sessionGetPayment paymentId s = (r, s')) :
    s'.working = s.working ∧ s'.committed = s.committed ∧ Sound s.working s'.identity ∧
      (r = .ok none ∨ ∃ p, r = .ok (some p) ∧ p.id = paymentId ∧ Held s.working p) := by
  unfold sessionGetPayment at h
  rw [getThrough_apply] at h
  split at h
  · next p hf =>
    cases h
    have hid : p.id = paymentId := by simpa only [decide_eq_true_eq] using List.find?_some hf
    exact ⟨rfl, rfl, sound, .inr ⟨p, rfl, hid, sound p (List.mem_of_find?_eq_some hf)⟩⟩
  · split at h
    · next p hg =>
      cases h
      obtain ⟨_, hid⟩ := Table.get_eq_some hg
      have hheld : Held s.working p := held_of_stored (by rw [show p.id = paymentId from hid, hg])
      exact ⟨rfl, rfl, sound.hold hheld, .inr ⟨p, rfl, hid, hheld⟩⟩
    · cases h
      exact ⟨rfl, rfl, sound, .inl rfl⟩

/-- `get_payment`: the same, or not found. -/
theorem getPayment_cases {paymentId : String} {s s' : DatabaseSession}
    {r : Except ServiceError PaymentRecord} (sound : Sound s.working s.identity)
    (h : getPayment paymentId s = (r, s')) :
    s'.working = s.working ∧ s'.committed = s.committed ∧ Sound s.working s'.identity ∧
      ((∃ e, r = .error e) ∨ ∃ p, r = .ok p ∧ p.id = paymentId ∧ Held s.working p) := by
  unfold getPayment at h
  rcases bind_cases h with ⟨e, hx, rfl⟩ | ⟨found, s₁, hx, hrest⟩
  · obtain ⟨hw, hc, hs, _⟩ := sessionGetPayment_cases sound hx
    exact ⟨hw, hc, hs, .inl ⟨e, rfl⟩⟩
  · obtain ⟨hw, hc, hs, hr⟩ := sessionGetPayment_cases sound hx
    rcases hr with hr | ⟨p, hr, hid, hheld⟩
    · cases hr
      cases hrest
      exact ⟨hw, hc, hs, .inl ⟨_, rfl⟩⟩
    · cases hr
      cases hrest
      exact ⟨hw, hc, hs, .inr ⟨p, rfl, hid, hheld⟩⟩

/-! ## Deciding -/

theorem quiet_liftDomain {α : Type} (x : Except DomainError α) : Quiet (liftDomain x) := by
  cases x
  · exact quiet_throw _
  · exact quiet_pure _

theorem quiet_hasProtectingReceipt (payment : PaymentRecord) : Quiet (hasProtectingReceipt payment) :=
  quiet_query _

theorem quiet_cancellationProtected (payment : PaymentRecord) (state : PaymentState) :
    Quiet (cancellationProtected payment state) := by
  unfold cancellationProtected
  split
  · exact quiet_hasProtectingReceipt payment
  · exact quiet_pure _

theorem quiet_decideOperation (command : LifecycleCommand) (payment : PaymentRecord)
    (state : PaymentState) : Quiet (decideOperation command payment state) := by
  unfold decideOperation
  split
  · exact (quiet_liftDomain _).bind fun _ => quiet_pure _
  · refine (quiet_cancellationProtected payment state).bind fun isProtected => ?_
    split
    · exact quiet_throw _
    · exact (quiet_liftDomain _).bind fun _ => quiet_pure _
  · exact (quiet_liftDomain _).bind fun _ => quiet_pure _
  · exact quiet_throw _

/-- The cancellation check that passed. -/
theorem cancellationProtected_eq_false {payment : PaymentRecord} {state : PaymentState}
    {s s' : DatabaseSession} (h : cancellationProtected payment state s = (.ok false, s'))
    (awaiting : state.status = .awaitingPayment)
    (stored : s.working.payments.get payment.id = some payment) :
    protectingReceiptExists s.working payment = false := by
  unfold cancellationProtected at h
  rw [if_pos awaiting] at h
  have hvalue := (query_eq_ok h).1
  rw [stored] at hvalue
  exact hvalue.symm

/-- **The decision of an operation**: the pure function of its step, its event type, its ledger row,
and for an awaiting payment no receipt that protects it. -/
theorem decideOperation_eq_ok {command : LifecycleCommand} {payment : PaymentRecord}
    {state next : PaymentState} {amount : Int} {s s' : DatabaseSession}
    (hstate : paymentState payment = .ok state)
    (h : decideOperation command payment state s = (.ok (next, amount), s')) :
    ∃ step, command.step = some step ∧ step.apply state = .ok next ∧
      lifecycleEventType command.operation = some step.eventType ∧
      (∀ after hex now, after.capturedAmount = next.capturedAmount →
        lifecycleEntry command payment state amount now hex =
          step.entry payment after ("led_" ++ hex) now) ∧
      (command.operation = .cancel → payment.status = .awaitingPayment →
        s.working.payments.get payment.id = some payment →
        protectingReceiptExists s.working payment = false) := by
  obtain ⟨hstatus, hauthorized, hcaptured, _⟩ := paymentState_eq_ok hstate
  generalize hprogram : decideOperation command payment state = program at h
  unfold decideOperation at hprogram
  split at hprogram <;> subst hprogram
  · next hop =>
    obtain ⟨decided, _, happly, hrest⟩ := bind_eq_ok h
    obtain ⟨hok, _⟩ := liftDomain_eq_ok happly
    cases hrest
    refine ⟨.capture, by rw [LifecycleCommand.step, hop], hok, by rw [hop]; rfl,
      fun after hex now hafter => ?_, fun hcancel => by rw [hop] at hcancel; cases hcancel⟩
    unfold lifecycleEntry LifecycleStep.entry LifecycleStep.posting
    rw [hop, if_neg (by simp only [reduceCtorEq, false_and, not_false_eq_true]), hafter, hcaptured]
    rfl
  · next hop =>
    obtain ⟨isProtected, s₁, hprotected, hrest⟩ := bind_eq_ok h
    cases isProtected with
    | true => cases hrest
    | false =>
      obtain ⟨decided, _, happly, hrest⟩ := bind_eq_ok hrest
      obtain ⟨hok, _⟩ := liftDomain_eq_ok happly
      cases hrest
      refine ⟨.cancel, by rw [LifecycleCommand.step, hop], hok, by rw [hop]; rfl,
        fun after hex now hafter => ?_, fun _ hawaiting hstored =>
          cancellationProtected_eq_false hprotected (hstatus.trans hawaiting) hstored⟩
      unfold lifecycleEntry LifecycleStep.entry LifecycleStep.posting
      rw [hop, hstatus, hauthorized]
      by_cases hawaiting : payment.status = .awaitingPayment
      · rw [if_pos ⟨rfl, hawaiting⟩, if_pos hawaiting]
        rfl
      · rw [if_neg (fun h => hawaiting h.2), if_neg hawaiting]
        rfl
  · next _ hop hamount =>
    obtain ⟨decided, _, happly, hrest⟩ := bind_eq_ok h
    obtain ⟨hok, _⟩ := liftDomain_eq_ok happly
    cases hrest
    refine ⟨.refund _, by rw [LifecycleCommand.step, hop, hamount], hok,
      by rw [hop]; rfl, fun after hex now hafter => ?_,
      fun hcancel => by rw [hop] at hcancel; cases hcancel⟩
    unfold lifecycleEntry LifecycleStep.entry LifecycleStep.posting
    rw [hop, if_neg (by simp only [reduceCtorEq, false_and, not_false_eq_true])]
    rfl
  · cases h

/-! ## Committing -/

theorem flushLedgerEntry_eq_ok {entry : Option LedgerEntryRecord} {s s' : DatabaseSession} {u : Unit}
    (h : flushLedgerEntry entry s = (.ok u, s')) :
    ∃ t, Posts entry s.working.ledgerEntries t ∧ s'.working = { s.working with ledgerEntries := t } ∧
      s'.committed = s.committed ∧ s'.identity = s.identity := by
  cases entry with
  | none =>
    cases h
    exact ⟨_, rfl, rfl, rfl, rfl⟩
  | some entry =>
    obtain ⟨d, hd, rfl⟩ := flush_eq_ok h
    obtain ⟨t, ht, rfl⟩ := insertInto_eq_ok hd
    exact ⟨t, ht, rfl, rfl, rfl⟩

/-- The statements before the commit, when all of them went through. -/
structure Staged (claim : IdempotencyRecord) (loaded payment : PaymentRecord)
    (entry : Option LedgerEntryRecord) (eventType : WebhookEventType) (hex : String)
    (db db' : Database) : Prop where
  row : ∃ d, flushPayment loaded payment db = .ok d ∧ db'.payments = d.payments
  ledger : Posts entry db.ledgerEntries db'.ledgerEntries
  event : db.webhookEvents.insert
    (createOutboxEvent (afterFlush loaded payment) eventType hex) = some db'.webhookEvents
  claim : db.idempotencyRecords.update (completedClaim claim (afterFlush loaded payment)) =
    some db'.idempotencyRecords
  confirmations : SameConfirmations db db'
  merchant : SameMerchant db db'

/-- A payment flush writes the payments and nothing else. -/
theorem flushPayment_eq_ok {loaded current : PaymentRecord} {db d : Database}
    (h : flushPayment loaded current db = .ok d) : ∃ t, d = { db with payments := t } := by
  unfold flushPayment at h
  split at h
  · cases h; exact ⟨db.payments, rfl⟩
  · split at h
    · cases h
    · split at h
      · cases h
      · obtain ⟨t, _, rfl⟩ := updateIn_eq_ok h
        exact ⟨t, rfl⟩

theorem stageOutcome_eq_ok {claim : IdempotencyRecord} {loaded payment flushed : PaymentRecord}
    {entry : Option LedgerEntryRecord} {eventType : WebhookEventType} {hex : String}
    {s s' : DatabaseSession}
    (h : stageOutcome claim loaded payment entry eventType hex s = (.ok flushed, s')) :
    flushed = afterFlush loaded payment ∧
      Staged claim loaded payment entry eventType hex s.working s'.working ∧
      s'.committed = s.committed ∧ s'.identity = holdPayment flushed s.identity := by
  obtain ⟨_, s₁, hpayment, h⟩ := bind_eq_ok h
  obtain ⟨_, s₂, hledger, h⟩ := bind_eq_ok h
  obtain ⟨_, s₃, hremember, h⟩ := bind_eq_ok h
  obtain ⟨_, s₄, hevent, h⟩ := bind_eq_ok h
  obtain ⟨_, s₅, hclaim, h⟩ := bind_eq_ok h
  obtain ⟨rfl, rfl⟩ := pure_eq_ok h
  obtain ⟨d, hd, rfl⟩ := flush_eq_ok hpayment
  obtain ⟨payments, rfl⟩ := flushPayment_eq_ok hd
  obtain ⟨ledger, hposts, hworking, hcommitted, hidentity⟩ := flushLedgerEntry_eq_ok hledger
  cases hremember
  obtain ⟨d₄, hd₄, rfl⟩ := flush_eq_ok hevent
  obtain ⟨events, hevents, rfl⟩ := insertInto_eq_ok hd₄
  obtain ⟨d₅, hd₅, rfl⟩ := flush_eq_ok hclaim
  obtain ⟨claims, hclaims, rfl⟩ := updateIn_eq_ok hd₅
  simp only [hworking, hcommitted, hidentity] at hevents hclaims ⊢
  exact ⟨trivial, ⟨⟨_, hd, rfl⟩, hposts, hevents, hclaims, ⟨rfl, rfl⟩, ⟨rfl, rfl, rfl⟩⟩, trivial, trivial⟩

theorem silent_liftDomain {α : Type} (x : Except DomainError α) : Silent (liftDomain x) := by
  cases x
  · exact silent_throw _
  · exact silent_pure _

theorem silent_flushLedgerEntry (entry : Option LedgerEntryRecord) :
    Silent (flushLedgerEntry entry) := by
  cases entry with
  | none => exact silent_pure _
  | some entry => exact silent_flush _

theorem silent_stageOutcome (claim : IdempotencyRecord) (loaded payment : PaymentRecord)
    (entry : Option LedgerEntryRecord) (eventType : WebhookEventType) (hex : String) :
    Silent (stageOutcome claim loaded payment entry eventType hex) :=
  (silent_flush _).bind fun _ => (silent_flushLedgerEntry entry).bind fun _ =>
    (silent_remember _).bind fun _ => (silent_flush _).bind fun _ => (silent_flush _).bind fun _ =>
      silent_pure _

/-- **One commit or none**: the staged statements are committed together, or an exception discards
them all. Only the failure after the commit leaves them committed under an exception. -/
theorem commitPaymentOutcome_cases {claim : IdempotencyRecord} {loaded payment : PaymentRecord}
    {entry : Option LedgerEntryRecord} {eventType : WebhookEventType}
    {failurePoint : Option FailurePoint} {hex : String} {s s' : DatabaseSession}
    {r : Except ServiceError PaymentRecord}
    (h : commitPaymentOutcome claim loaded payment entry eventType failurePoint hex s = (r, s')) :
    (∃ e, r = .error e ∧ s'.committed = s.committed ∧ s'.identity = ∅) ∨
      (Staged claim loaded payment entry eventType hex s.working s'.committed ∧
        s'.identity = holdPayment (afterFlush loaded payment) s.identity ∧
        (r = .ok (afterFlush loaded payment) ∨ (failurePoint = some .afterCommit ∧
          r = .error (.simulatedPaymentTimeout .afterCommit)))) := by
  unfold commitPaymentOutcome at h
  rcases bind_cases h with ⟨e, hguarded, rfl⟩ | ⟨committed, s₁, hguarded, h⟩
  · -- an exception was raised before the commit, and the handler discards the transaction
    rcases tryCatch_cases hguarded with ⟨_, _, hok⟩ | ⟨e', s₁, hbody, hhandler⟩
    · cases hok
    · have hcommitted : s₁.committed = s.committed := by
        rcases bind_cases hbody with ⟨_, hstage, _⟩ | ⟨flushed, s₂, hstage, hrest⟩
        · exact (silent_stageOutcome _ _ _ _ _ _).committed hstage
        · obtain ⟨_, _, hsame, _⟩ := stageOutcome_eq_ok hstage
          by_cases hbefore : failurePoint = some .beforeCommit
          · rw [if_pos hbefore] at hrest
            cases hrest
            exact hsame
          · rw [if_neg hbefore] at hrest
            cases hrest
      rw [bind_ok (rollback_apply s₁)] at hhandler
      by_cases hstale : e' = .staleData
      · rw [if_pos hstale] at hhandler
        cases hhandler
        exact .inl ⟨_, rfl, hcommitted, rfl⟩
      · rw [if_neg hstale] at hhandler
        cases hhandler
        exact .inl ⟨_, rfl, hcommitted, rfl⟩
  · rcases tryCatch_cases hguarded with ⟨flushed, hbody, hok⟩ | ⟨e', s₂, _, hhandler⟩
    · cases hok
      obtain ⟨_, s₂, hstage, hrest⟩ := bind_eq_ok hbody
      obtain ⟨rfl, hstaged, _, hidentity⟩ := stageOutcome_eq_ok hstage
      by_cases hbefore : failurePoint = some .beforeCommit
      · rw [if_pos hbefore] at hrest
        cases hrest
      · rw [if_neg hbefore] at hrest
        cases hrest
        refine .inr ?_
        by_cases hafter : failurePoint = some .afterCommit
        · rw [if_pos hafter] at h
          cases h
          exact ⟨hstaged, hidentity, .inr ⟨hafter, rfl⟩⟩
        · rw [if_neg hafter] at h
          cases h
          exact ⟨hstaged, hidentity, .inl rfl⟩
    · rw [bind_ok (rollback_apply s₂)] at hhandler
      by_cases hstale : e' = .staleData
      · rw [if_pos hstale] at hhandler
        cases hhandler
      · rw [if_neg hstale] at hhandler
        cases hhandler

/-- The guard gives the result of what it guards; an exception in an open transaction discards it. -/
theorem rollbackOnError_cases {α : Type} {body : Service α} {s s' : DatabaseSession}
    {r : Except ServiceError α} (h : rollbackOnError body s = (r, s')) :
    ∃ s₁, body s = (r, s₁) ∧ s'.committed = s₁.committed ∧ (s' = s₁ ∨ s'.identity = ∅) := by
  unfold rollbackOnError at h
  rcases tryCatch_cases h with ⟨a, hbody, rfl⟩ | ⟨e, s₁, hbody, hhandler⟩
  · exact ⟨s', hbody, rfl, .inl rfl⟩
  · cases hbegun : s₁.begun with
    | true =>
      have hopen : rollbackIfOpen s₁ = rollback s₁ := by
        unfold rollbackIfOpen
        rw [bind_ok (inTransaction_apply s₁), hbegun]
        rfl
      rw [bind_ok (hopen.trans (rollback_apply s₁))] at hhandler
      cases hhandler
      exact ⟨s₁, hbody, rfl, .inr rfl⟩
    | false =>
      have hclosed : rollbackIfOpen s₁ = (.ok (), s₁) := by
        unfold rollbackIfOpen
        rw [bind_ok (inTransaction_apply s₁), hbegun]
        rfl
      rw [bind_ok hclosed] at hhandler
      cases hhandler
      exact ⟨s', hbody, rfl, .inl rfl⟩

/-! ## Claimed requests -/

/-- The session has claimed a key and changed nothing else. -/
def Claimed (claim : IdempotencyRecord) (s : DatabaseSession) : Prop :=
  ∃ t, s.committed.idempotencyRecords.insert claim = some t ∧
    s.working = { s.committed with idempotencyRecords := t }

/-- A step a command asks for is no confirmation. -/
theorem LifecycleCommand.step_ne_confirmation {command : LifecycleCommand} {step : LifecycleStep}
    (h : command.step = some step) (amount : Int) : step ≠ .captureConfirmation amount := by
  unfold LifecycleCommand.step at h
  rintro rfl
  split at h <;> cases h

/-- What the staged statements of a claimed request did to the committed database. -/
theorem Staged.claim_inserted {claim : IdempotencyRecord} {loaded payment : PaymentRecord}
    {entry : Option LedgerEntryRecord} {eventType : WebhookEventType} {hex : String}
    {db d db' : Database} {t : Table idempotencySchema}
    (h : Staged claim loaded payment entry eventType hex d db')
    (hinsert : db.idempotencyRecords.insert claim = some t) (hclaimed : d.idempotencyRecords = t) :
    db.idempotencyRecords.insert (completedClaim claim (afterFlush loaded payment)) =
      some db'.idempotencyRecords :=
  Table.insert_update
    (show idempotencySchema.key (completedClaim claim (afterFlush loaded payment)) =
      idempotencySchema.key claim from rfl) hinsert (hclaimed ▸ h.claim)

section Requests

variable {sha256 : String → String} {key : String} {failurePoint : Option FailurePoint}
  {claimedAt now : Instant} {draws : Draws} {s s' : DatabaseSession}
  {r : Except ServiceError PaymentOutcome}

/-- What a request left when it committed nothing: an exception, and loaded versions. -/
def Failed (r : Except ServiceError PaymentOutcome) (s s' : DatabaseSession) : Prop :=
  (∃ e, r = .error e) ∧ s'.committed = s.committed ∧ Sound s'.committed s'.identity

/-- How a request that committed a payment answers: with the payment, or with the timeout that was
asked for after the commit. -/
def Answers (failurePoint : Option FailurePoint) (r : Except ServiceError PaymentOutcome)
    (payment : PaymentRecord) : Prop :=
  r = .ok { payment := .record payment, replayed := false } ∨
    (failurePoint = some .afterCommit ∧ r = .error (.simulatedPaymentTimeout .afterCommit))

/-- The staged statements of a decided operation are its effect. -/
theorem Staged.operated {command : LifecycleCommand} {payment : PaymentRecord}
    {state next : PaymentState} {step : LifecycleStep} {amount : Int} {db d db' : Database}
    {t : Table idempotencySchema} {hex event : String}
    (hinsert : db.idempotencyRecords.insert
      (newClaim key (command.fingerprint sha256) command.operation.value claimedAt) = some t)
    (hd : d = { db with idempotencyRecords := t }) (htarget : payment.id = command.paymentId)
    (held : Held d payment) (hstate : paymentState payment = .ok state)
    (hstep : command.step = some step) (happly : step.apply state = .ok next)
    (hentry : ∀ after hex now, after.capturedAmount = next.capturedAmount →
      lifecycleEntry command payment state amount now hex =
        step.entry payment after ("led_" ++ hex) now)
    (hprotected : command.operation = .cancel → payment.status = .awaitingPayment →
      d.payments.get payment.id = some payment → protectingReceiptExists d payment = false)
    (h : Staged (newClaim key (command.fingerprint sha256) command.operation.value claimedAt)
      payment (payment.withState next now)
      (lifecycleEntry command payment state amount now hex) step.eventType event d db') :
    Operated sha256 command key payment (afterFlush payment (payment.withState next now)) db db' := by
  obtain ⟨_, hflush, hrow⟩ := h.row
  obtain ⟨hstored, hdecided, t', hupdate, rfl⟩ := flushPayment_decided held hstate happly hflush
  have hcaptured : (afterFlush payment (payment.withState next now)).capturedAmount =
      next.capturedAmount := by
    unfold afterFlush
    split <;> rfl
  have hledger := h.ledger
  have hclaim := h.claim_inserted hinsert (by rw [hd])
  rw [hentry _ hex now hcaptured] at hledger
  subst hd
  refine ⟨htarget, ⟨step, hstep, ?_⟩, fun hcancel hawaiting => hprotected hcancel hawaiting hstored,
    ⟨claimedAt, hclaim⟩, ⟨h.confirmations.1, h.confirmations.2⟩⟩
  refine ⟨hstored, hdecided, fun a ha => absurd ha (command.step_ne_confirmation hstep a), ?_,
    ⟨_, now, hledger⟩, ⟨_, h.event⟩, ⟨h.merchant.1, h.merchant.2, h.merchant.3⟩⟩
  rw [hrow]
  exact hupdate

/-- **A claimed lifecycle request commits its operation or nothing.** -/
theorem executeLifecycle_commits {command : LifecycleCommand}
    (claimed : Claimed (newClaim key (command.fingerprint sha256) command.operation.value claimedAt) s)
    (sound : Sound s.committed s.identity)
    (h : executeClaimedLifecycleOperation command
      (newClaim key (command.fingerprint sha256) command.operation.value claimedAt) failurePoint now
      draws s = (r, s')) :
    Failed r s s' ∨
      ∃ before after, Operated sha256 command key before after s.committed s'.committed ∧
        Sound s'.committed s'.identity ∧ Answers failurePoint r after := by
  obtain ⟨t, hinsert, hworking⟩ := claimed
  have hpayments : s.working.payments = s.committed.payments := by rw [hworking]
  have sound' : Sound s.working s.identity := sound.congr hpayments
  have nothing : ∀ {e : ServiceError} {s₁ : DatabaseSession}, s₁.committed = s.committed →
      Sound s.working s₁.identity → Failed (.error e) s s₁ := by
    intro e s₁ hcommitted hsound
    refine ⟨⟨e, rfl⟩, hcommitted, ?_⟩
    rw [hcommitted]
    exact hsound.congr hpayments.symm
  unfold executeClaimedLifecycleOperation at h
  rcases bind_cases h with ⟨e, hget, rfl⟩ | ⟨payment, s₁, hget, h₁⟩
  · obtain ⟨_, hcommitted, hsound, _⟩ := getPayment_cases sound' hget
    exact .inl (nothing hcommitted hsound)
  obtain ⟨hworking₁, hcommitted₁, hsound₁, ⟨_, he⟩ | ⟨p, hp, hid, hheld⟩⟩ :=
    getPayment_cases sound' hget
  · cases he
  cases hp
  rcases bind_cases h₁ with ⟨e, hread, rfl⟩ | ⟨state, s₂, hread, h₂⟩
  · obtain ⟨rfl, _⟩ := liftDomain_cases hread
    exact .inl (nothing hcommitted₁ hsound₁)
  obtain ⟨hstate, rfl⟩ := liftDomain_eq_ok hread
  rcases bind_cases h₂ with ⟨e, hdecide, rfl⟩ | ⟨⟨next, amount⟩, s₃, hdecide, h₃⟩
  · obtain ⟨begun, rfl⟩ := (quiet_decideOperation command payment state).session hdecide
    exact .inl (nothing hcommitted₁ hsound₁)
  obtain ⟨begun, rfl⟩ := (quiet_decideOperation command payment state).session hdecide
  obtain ⟨step, hstep, happly, htype, hentry, hprotected⟩ := decideOperation_eq_ok hstate hdecide
  simp only [htype] at h₃
  -- the commit is the last statement that can fail
  obtain ⟨rc, hcommit, rfl⟩ := bind_pure_cases h₃
  rcases commitPaymentOutcome_cases hcommit with
    ⟨e, rfl, hcommitted, hidentity⟩ | ⟨hstaged, hidentity, hanswer⟩
  · refine .inl (nothing (hcommitted.trans hcommitted₁) ?_)
    rw [hidentity]
    exact sound_empty _
  · have hoperated := hstaged.operated hinsert (hworking₁.trans hworking) hid
      (hheld.congr (by rw [hworking₁])) hstate hstep happly hentry hprotected
    obtain ⟨_, _, hadvances⟩ := hoperated.advances
    refine .inr ⟨payment, _, hoperated, ?_, ?_⟩
    · rw [hidentity]
      refine Sound.hold ((hsound₁.congr hpayments.symm).grows hadvances.grows) ?_
      exact held_of_stored (by rw [hadvances.after_id, hadvances.stored_after])
    · rcases hanswer with rfl | ⟨hafter, rfl⟩
      · exact .inl rfl
      · exact .inr ⟨hafter, rfl⟩

/-- The staged statements of an authorization are its effect. A payment that was just inserted is
not updated by its own commit. -/
theorem Staged.created {command : AuthorizationCommand} {terms : AuthorizationTerms}
    {db d db' : Database} {t : Table idempotencySchema} {payments : Table paymentSchema}
    (hinsert : db.idempotencyRecords.insert
      (newClaim key (command.fingerprint sha256) "AUTHORIZE" claimedAt) = some t)
    (hd : d = { db with idempotencyRecords := t })
    (hterms : authorizationTerms command now draws.reference = .ok terms)
    (hpayments : d.payments.insert (newPayment command terms now draws.payment) = some payments)
    (h : Staged (newClaim key (command.fingerprint sha256) "AUTHORIZE" claimedAt)
      (newPayment command terms now draws.payment) (newPayment command terms now draws.payment)
      (authorizationEntry (newPayment command terms now draws.payment) draws.ledger)
      terms.eventType draws.event { d with payments := payments } db') :
    Created sha256 command key (newPayment command terms now draws.payment) db db' := by
  obtain ⟨_, hflush, hrow⟩ := h.row
  have hclaim := h.claim_inserted hinsert (by rw [hd])
  have hevent := h.event
  unfold flushPayment at hflush
  rw [if_pos rfl] at hflush
  cases hflush
  rw [afterFlush_self] at hclaim hevent
  subst hd
  refine ⟨⟨now, draws.reference, draws.payment, terms, draws.event, hterms, rfl, hevent⟩, ?_,
    ⟨_, h.ledger⟩, ⟨claimedAt, hclaim⟩, ⟨h.confirmations.1, h.confirmations.2⟩,
    ⟨h.merchant.1, h.merchant.2, h.merchant.3⟩⟩
  rw [hrow]
  exact hpayments

/-- **A claimed authorization commits its payment or nothing.** -/
theorem executeAuthorization_commits {command : AuthorizationCommand}
    (claimed : Claimed (newClaim key (command.fingerprint sha256) "AUTHORIZE" claimedAt) s)
    (sound : Sound s.committed s.identity)
    (h : executeClaimedAuthorization command
      (newClaim key (command.fingerprint sha256) "AUTHORIZE" claimedAt) failurePoint now
      draws s = (r, s')) :
    Failed r s s' ∨
      ∃ payment, Created sha256 command key payment s.committed s'.committed ∧
        Sound s'.committed s'.identity ∧ Answers failurePoint r payment := by
  obtain ⟨t, hinsert, hworking⟩ := claimed
  have nothing : ∀ {e : ServiceError} {s₁ : DatabaseSession}, s₁.committed = s.committed →
      (s₁.identity = s.identity ∨ s₁.identity = ∅) → Failed (.error e) s s₁ := by
    intro e s₁ hcommitted hidentity
    refine ⟨⟨e, rfl⟩, hcommitted, ?_⟩
    rw [hcommitted]
    rcases hidentity with hidentity | hidentity <;> rw [hidentity]
    · exact sound
    · exact sound_empty _
  unfold executeClaimedAuthorization at h
  rcases bind_cases h with ⟨e, hdecide, rfl⟩ | ⟨terms, s₁, hdecide, h₁⟩
  · obtain ⟨rfl, _⟩ := liftDomain_cases hdecide
    exact .inl (nothing rfl (.inl rfl))
  obtain ⟨hterms, rfl⟩ := liftDomain_eq_ok hdecide
  rcases bind_cases h₁ with ⟨e, hflush, rfl⟩ | ⟨_, s₂, hflush, h₂⟩
  · have hsession := (flush_eq_error hflush).2
    exact .inl (nothing (by rw [hsession]) (.inl (by rw [hsession])))
  obtain ⟨d, hd, rfl⟩ := flush_eq_ok hflush
  obtain ⟨payments, hpayments, rfl⟩ := insertInto_eq_ok hd
  obtain ⟨rc, hcommit, rfl⟩ := bind_pure_cases h₂
  rcases commitPaymentOutcome_cases hcommit with
    ⟨e, rfl, hcommitted, hidentity⟩ | ⟨hstaged, hidentity, hanswer⟩
  · exact .inl (nothing hcommitted (.inr hidentity))
  · have hcreated := hstaged.created hinsert hworking hterms hpayments
    rw [afterFlush_self] at hidentity hanswer
    refine .inr ⟨_, hcreated, ?_, ?_⟩
    · rw [hidentity]
      have hgrows : Grows s₁.committed s'.committed := (Effect.created hcreated).grows
      exact (sound.grows hgrows).hold (held_of_stored (Table.get_insert_self hcreated.payments))
    · rcases hanswer with rfl | ⟨hafter, rfl⟩
      · exact .inl rfl
      · exact .inr ⟨hafter, rfl⟩

end Requests

/-! ## A claimed request raises no conflict -/

/-- Not the rejection of a reused key. -/
def NoConflict (e : ServiceError) : Prop := e ≠ .idempotencyConflict

theorem raises_liftDomain {α : Type} (x : Except DomainError α) :
    Raises NoConflict (liftDomain x) := by
  cases x
  · exact raises_throw nofun
  · exact raises_pure _

theorem raises_flushPayment (loaded current : PaymentRecord) :
    Raises NoConflict (flush (flushPayment loaded current) : Service Unit) := by
  refine raises_flush fun d e h => ?_
  unfold flushPayment at h
  split at h
  · cases h
  · split at h
    · cases h; simp [NoConflict]
    · split at h
      · cases h; simp [NoConflict]
      · rw [updateIn_eq_error h]
        simp [NoConflict]

theorem raises_insertInto {α κ : Type} {S : Schema α κ} [DecidableEq κ]
    (table : Database → Table S) (replace : Database → Table S → Database) (row : α) :
    Raises NoConflict (flush (insertInto table replace row) : Service Unit) :=
  raises_flush fun _ _ h => by rw [insertInto_eq_error h]; nofun

theorem raises_updateIn {α κ : Type} {S : Schema α κ} [DecidableEq κ]
    (table : Database → Table S) (replace : Database → Table S → Database) (row : α) :
    Raises NoConflict (flush (updateIn table replace row) : Service Unit) :=
  raises_flush fun _ _ h => by rw [updateIn_eq_error h]; nofun

theorem raises_stageOutcome (claim : IdempotencyRecord) (loaded payment : PaymentRecord)
    (entry : Option LedgerEntryRecord) (eventType : WebhookEventType) (hex : String) :
    Raises NoConflict (stageOutcome claim loaded payment entry eventType hex) := by
  refine (raises_flushPayment _ _).bind fun _ => Raises.bind ?_ fun _ =>
    (raises_remember _).bind fun _ => (raises_insertInto _ _ _).bind fun _ =>
      (raises_updateIn _ _ _).bind fun _ => raises_pure _
  cases entry with
  | none => exact raises_pure _
  | some entry => exact raises_insertInto _ _ _

theorem raises_commitPaymentOutcome (claim : IdempotencyRecord) (loaded payment : PaymentRecord)
    (entry : Option LedgerEntryRecord) (eventType : WebhookEventType)
    (failurePoint : Option FailurePoint) (hex : String) :
    Raises NoConflict
      (commitPaymentOutcome claim loaded payment entry eventType failurePoint hex) := by
  refine Raises.bind (Raises.tryCatch (Q := NoConflict) ?_ fun e he => ?_) fun _ => ?_
  · refine (raises_stageOutcome _ _ _ _ _ _).bind fun _ => ?_
    split
    · exact raises_throw nofun
    · exact raises_commit.bind fun _ => raises_pure _
  · refine raises_rollback.bind fun _ => ?_
    split
    · exact raises_throw nofun
    · exact raises_throw he
  · split
    · exact raises_throw nofun
    · exact raises_pure _

theorem raises_executeAuthorization (command : AuthorizationCommand) (claim : IdempotencyRecord)
    (failurePoint : Option FailurePoint) (now : Instant) (draws : Draws) :
    Raises NoConflict (executeClaimedAuthorization command claim failurePoint now draws) :=
  (raises_liftDomain _).bind fun _ => (raises_insertInto _ _ _).bind fun _ =>
    (raises_commitPaymentOutcome _ _ _ _ _ _ _).bind fun _ => raises_pure _

theorem raises_decideOperation (command : LifecycleCommand) (payment : PaymentRecord)
    (state : PaymentState) : Raises NoConflict (decideOperation command payment state) := by
  unfold decideOperation
  split
  · exact (raises_liftDomain _).bind fun _ => raises_pure _
  · refine Raises.bind ?_ fun isProtected => ?_
    · unfold cancellationProtected
      split
      · exact raises_query _
      · exact raises_pure _
    · split
      · exact raises_throw nofun
      · exact (raises_liftDomain _).bind fun _ => raises_pure _
  · exact (raises_liftDomain _).bind fun _ => raises_pure _
  · exact raises_throw nofun

theorem raises_executeLifecycle (command : LifecycleCommand) (claim : IdempotencyRecord)
    (failurePoint : Option FailurePoint) (now : Instant) (draws : Draws) :
    Raises NoConflict
      (executeClaimedLifecycleOperation command claim failurePoint now draws) := by
  refine Raises.bind ?_ fun payment => (raises_liftDomain _).bind fun state =>
    (raises_decideOperation _ _ _).bind fun decided => ?_
  · refine (raises_getThrough _ _ _).bind fun found => ?_
    cases found with
    | some payment => exact raises_pure _
    | none => exact raises_throw nofun
  · obtain ⟨next, amount⟩ := decided
    dsimp only
    split
    · exact raises_throw nofun
    · exact (raises_commitPaymentOutcome _ _ _ _ _ _ _).bind fun _ => raises_pure _

end PaymentLab
