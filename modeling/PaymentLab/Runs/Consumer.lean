import PaymentLab.Consumer.Snapshot
import PaymentLab.Runs.Effects

/-!
# Consumer transactions

What one call of the consumer commits. A call either inserts its inbox row together with the
statement it decided for the projection (`Consumes`), or it commits nothing: the event was there, or
the call raised. The reads of a call and its write are separate, so the write is stated for a
decision taken from any earlier store.
-/

namespace PaymentLab

open Relational Transactional Transactional.Service

/-! ## Effects -/

/-- A staged statement on the projections. -/
inductive Projects : ProjectionWrite → Table merchantProjectionSchema →
    Table merchantProjectionSchema → Prop
  | insert {row : MerchantPaymentProjectionRecord} {t t' : Table merchantProjectionSchema} :
      t.insert row = some t' → Projects (.insert row) t t'
  | update {loaded current stored : MerchantPaymentProjectionRecord}
      {t t' : Table merchantProjectionSchema} : t.get loaded.paymentId = some stored →
      t.update (loaded.writeChanges current stored) = some t' → Projects (.update loaded current) t t'
  | keep {t : Table merchantProjectionSchema} : Projects .keep t t

theorem Projects.same {t t' : Table merchantProjectionSchema} (h : Projects .keep t t') : t' = t := by
  cases h
  rfl

/-- A call records its event and projects it in one commit. -/
structure Consumes (envelope : WebhookEnvelope) (payloadHash : String) (decision : ConsumerDecision)
    (now : Datetime) (db db' : Database) : Prop where
  inbox : db.processedWebhooks.insert (newInbox envelope payloadHash decision now) =
    some db'.processedWebhooks
  projections : Projects decision.write db.merchantProjections db'.merchantProjections
  rest : db' =
    { db with
      processedWebhooks := db'.processedWebhooks, merchantProjections := db'.merchantProjections }

/-- The answer to an event that is in the inbox, as a value. -/
def repeatedAnswer (existing : ProcessedWebhookRecord) (eventId payloadHash : String) :
    Except ServiceError ConsumerOutcome :=
  if existing.payloadHash ≠ payloadHash then .error (.webhookEventCollision eventId)
  else
    .ok
      { eventId := eventId, disposition := .duplicate, duplicate := true
        versionGap := existing.versionGap }

/-- How a call ends that commits nothing: answered from the inbox, or with an exception. -/
inductive Unapplied (envelope : WebhookEnvelope) (payloadHash : String) (db : Database) :
    Except ServiceError ConsumerOutcome → Prop
  | repeated {existing : ProcessedWebhookRecord} :
      db.processedWebhooks.get envelope.id = some existing →
      Unapplied envelope payloadHash db (repeatedAnswer existing envelope.id payloadHash)
  | raised {e : ServiceError} : Unapplied envelope payloadHash db (.error e)

/-! ## Blocks -/

section Blocks

variable {envelope : WebhookEnvelope} {payloadHash : String} {decision : ConsumerDecision}
  {now : Datetime} {faults : ConsumerFaults} {s s' : DatabaseSession}
  {r : Except ServiceError ConsumerOutcome}

theorem answerRepeated_apply (existing : ProcessedWebhookRecord) (eventId payloadHash : String)
    (s : DatabaseSession) :
    answerRepeated existing eventId payloadHash s =
      (repeatedAnswer existing eventId payloadHash, s) := by
  unfold answerRepeated repeatedAnswer
  split <;> rfl

theorem flushProjection_eq_ok {write : ProjectionWrite} {db db' : Database}
    (h : flushProjection write db = .ok db') :
    Projects write db.merchantProjections db'.merchantProjections ∧
      db' = { db with merchantProjections := db'.merchantProjections } := by
  cases write with
  | insert row =>
    obtain ⟨t, ht, rfl⟩ := insertInto_eq_ok (show insertMerchantProjection row db = .ok db' from h)
    exact ⟨.insert ht, rfl⟩
  | update loaded current =>
    unfold flushProjection at h
    cases hget : db.merchantProjections.get loaded.paymentId with
    | none =>
      simp only [hget] at h
      cases h
    | some stored =>
      simp only [hget] at h
      obtain ⟨t, ht, rfl⟩ := updateIn_eq_ok h
      exact ⟨.update hget ht, rfl⟩
  | keep =>
    cases h
    exact ⟨.keep, rfl⟩

/-- The statements of a call that returned. -/
theorem commitConsumption_eq_ok {inbox : ProcessedWebhookRecord} {write : ProjectionWrite} {u : Unit}
    (h : commitConsumption inbox write faults s = (.ok u, s')) :
    s.working.processedWebhooks.insert inbox = some s'.committed.processedWebhooks ∧
      Projects write s.working.merchantProjections s'.committed.merchantProjections ∧
      s'.committed =
        { s.working with
          processedWebhooks := s'.committed.processedWebhooks
          merchantProjections := s'.committed.merchantProjections } := by
  unfold commitConsumption at h
  split at h
  · cases h
  · obtain ⟨_, s₁, hinbox, h₁⟩ := bind_eq_ok h
    obtain ⟨d₁, hd₁, rfl⟩ := flush_eq_ok hinbox
    obtain ⟨t, ht, rfl⟩ := insertInto_eq_ok hd₁
    obtain ⟨_, s₂, hprojection, h₂⟩ := bind_eq_ok h₁
    obtain ⟨d₂, hd₂, rfl⟩ := flush_eq_ok hprojection
    obtain ⟨projects, hrest⟩ := flushProjection_eq_ok hd₂
    split at h₂
    · cases h₂
    · cases h₂
      have hprocessed : d₂.processedWebhooks = t := by rw [hrest]
      refine ⟨ht.trans (congrArg some hprocessed.symm), projects, ?_⟩
      show d₂ = _
      rw [hprocessed]
      exact hrest

/-- A write that was committed was not made to fail. -/
theorem commitConsumption_faultless {inbox : ProcessedWebhookRecord} {write : ProjectionWrite}
    {u : Unit} (h : commitConsumption inbox write faults s = (.ok u, s')) :
    faults.storage = false ∧ faults.afterInbox = false := by
  unfold commitConsumption at h
  split at h
  · cases h
  · next hstorage =>
    obtain ⟨_, _, _, h₁⟩ := bind_eq_ok h
    obtain ⟨_, _, _, h₂⟩ := bind_eq_ok h₁
    split at h₂
    · cases h₂
    · next hafter => exact ⟨by simpa using hstorage, by simpa using hafter⟩

/-- A call that raised before its commit published nothing. -/
theorem commitConsumption_eq_error {inbox : ProcessedWebhookRecord} {write : ProjectionWrite}
    {e : ServiceError} (h : commitConsumption inbox write faults s = (.error e, s')) :
    s'.committed = s.committed := by
  unfold commitConsumption at h
  split at h
  · cases h
    rfl
  · rcases bind_cases h with ⟨_, hinbox, _⟩ | ⟨_, s₁, hinbox, h₁⟩
    · exact (silent_flush _).committed hinbox
    · rw [← (silent_flush _).committed hinbox]
      rcases bind_cases h₁ with ⟨_, hprojection, _⟩ | ⟨_, s₂, hprojection, h₂⟩
      · exact (silent_flush _).committed hprojection
      · rw [← (silent_flush _).committed hprojection]
        split at h₂
        · cases h₂
          rfl
        · cases h₂

theorem consumptionFailed_cases {e : ServiceError}
    (h : consumptionFailed envelope payloadHash e s = (r, s')) :
    s'.committed = s.committed ∧ Unapplied envelope payloadHash s.committed r := by
  unfold consumptionFailed at h
  rw [bind_ok (rollback_apply s)] at h
  split at h
  · rw [bind_ok (query_apply _ _)] at h
    dsimp only at h
    cases hget : s.committed.processedWebhooks.get envelope.id with
    | none =>
      rw [hget] at h
      cases h
      exact ⟨rfl, .raised⟩
    | some existing =>
      rw [hget] at h
      dsimp only at h
      rw [answerRepeated_apply] at h
      cases h
      exact ⟨rfl, .repeated hget⟩
  · cases h
    exact ⟨rfl, .raised⟩

/-- **The write phase**: everything the call decided, or nothing. -/
theorem writeConsumption_cases (hs : s.working = s.committed)
    (h : writeConsumption envelope payloadHash decision now faults s = (r, s')) :
    (r = .ok (decision.outcome envelope.id) ∧
        Consumes envelope payloadHash decision now s.committed s'.committed ∧
        faults.storage = false ∧ faults.afterInbox = false) ∨
      (s'.committed = s.committed ∧ Unapplied envelope payloadHash s.committed r) := by
  unfold writeConsumption at h
  rcases tryCatch_cases h with ⟨outcome, hbody, rfl⟩ | ⟨e, s₁, hbody, hfailed⟩
  · obtain ⟨_, s₁, hcommit, hreturn⟩ := bind_eq_ok hbody
    cases hreturn
    obtain ⟨hinbox, projects, hrest⟩ := commitConsumption_eq_ok hcommit
    rw [hs] at hinbox projects hrest
    exact .inl ⟨rfl, ⟨hinbox, projects, hrest⟩, commitConsumption_faultless hcommit⟩
  · rcases bind_cases hbody with ⟨_, hcommit, _⟩ | ⟨_, _, _, hreturn⟩
    · obtain ⟨hcommitted, unapplied⟩ := consumptionFailed_cases hfailed
      have hsame := commitConsumption_eq_error hcommit
      rw [hsame] at hcommitted unapplied
      exact .inr ⟨hcommitted, unapplied⟩
    · cases hreturn

end Blocks

/-! ## One call after another -/

/-- How a verified and validated call ends when no other call runs beside it. -/
inductive Consumption (envelope : WebhookEnvelope) (payloadHash : String) (now : Datetime)
    (db db' : Database) : Except ServiceError ConsumerOutcome → Prop
  /-- the event is in the inbox -/
  | repeated {existing : ProcessedWebhookRecord} :
      db.processedWebhooks.get envelope.id = some existing → db' = db →
      Consumption envelope payloadHash now db db' (repeatedAnswer existing envelope.id payloadHash)
  /-- the event is recorded, and the projection written as decided -/
  | consumed {decision : ConsumerDecision} : db.processedWebhooks.get envelope.id = none →
      decideProjection (db.merchantProjections.get envelope.payment.id) envelope = .ok decision →
      Consumes envelope payloadHash decision now db db' →
      Consumption envelope payloadHash now db db' (.ok (decision.outcome envelope.id))
  /-- a conflict of versions, or a failed write -/
  | raised {e : ServiceError} : db.processedWebhooks.get envelope.id = none → db' = db →
      Consumption envelope payloadHash now db db' (.error e)

theorem consumeEnvelope_cases {envelope : WebhookEnvelope} {payloadHash : String} {now : Datetime}
    {faults : ConsumerFaults} {s s' : DatabaseSession} {r : Except ServiceError ConsumerOutcome}
    (hs : s.working = s.committed)
    (h : consumeEnvelope envelope payloadHash now faults s = (r, s')) :
    Consumption envelope payloadHash now s.committed s'.committed r := by
  unfold consumeEnvelope readInbox readProjection at h
  rw [bind_ok (query_apply _ _), hs] at h
  cases hinbox : s.committed.processedWebhooks.get envelope.id with
  | some existing =>
    rw [hinbox] at h
    dsimp only at h
    rw [answerRepeated_apply] at h
    cases h
    exact .repeated hinbox rfl
  | none =>
    rw [hinbox] at h
    dsimp only at h
    rw [bind_ok (query_apply _ _)] at h
    dsimp only at h
    cases hdecide : decideProjection (s.committed.merchantProjections.get envelope.payment.id) envelope with
    | error e =>
      rw [hdecide] at h
      cases h
      exact .raised hinbox rfl
    | ok decision =>
      rw [hdecide] at h
      dsimp only at h
      rcases writeConsumption_cases rfl h with ⟨rfl, consumes, _⟩ | ⟨hsame, unapplied⟩
      · exact .consumed hinbox hdecide consumes
      · cases unapplied with
        | repeated hget =>
          have hnone : s.committed.processedWebhooks.get envelope.id = some _ := hget
          rw [hinbox] at hnone
          cases hnone
        | raised => exact .raised hinbox hsame

/-! ## The decision and its effect -/

/-- The four ways the versions compare. -/
inductive Compared (envelope : WebhookEnvelope) :
    Option MerchantPaymentProjectionRecord → ConsumerDecision → Prop
  | created : Compared envelope none
      { disposition := .applied, versionGap := decide (envelope.aggregateVersion > 1)
        write := .insert (newProjection envelope) }
  | advanced {p : MerchantPaymentProjectionRecord} :
      p.aggregateVersion < envelope.aggregateVersion →
      Compared envelope (some p)
        { disposition := .applied
          versionGap := decide (envelope.aggregateVersion > p.aggregateVersion + 1)
          write := .update p (applyProjection p envelope.id envelope.payment) }
  | stale {p : MerchantPaymentProjectionRecord} :
      envelope.aggregateVersion < p.aggregateVersion →
      Compared envelope (some p) { disposition := .stale, versionGap := false, write := .keep }
  | redundant {p : MerchantPaymentProjectionRecord} :
      envelope.aggregateVersion = p.aggregateVersion →
      projectionMatches p envelope.payment = true →
      Compared envelope (some p) { disposition := .redundant, versionGap := false, write := .keep }

theorem decideProjection_eq_ok {envelope : WebhookEnvelope}
    {projection : Option MerchantPaymentProjectionRecord} {decision : ConsumerDecision}
    (h : decideProjection projection envelope = .ok decision) :
    Compared envelope projection decision := by
  cases projection with
  | none =>
    cases h
    exact .created
  | some p =>
    unfold decideProjection at h
    dsimp only at h
    split at h
    · next hnewer =>
      cases h
      exact .advanced hnewer
    · split at h
      · next holder =>
        cases h
        exact .stale holder
      · split at h
        · next hmatches =>
          cases h
          exact .redundant (by omega) hmatches
        · cases h

/-- An event that is not applied writes no projection. -/
theorem Compared.kept {envelope : WebhookEnvelope} {decision : ConsumerDecision}
    {read : Option MerchantPaymentProjectionRecord} (h : Compared envelope read decision)
    (kept : decision.disposition ≠ .applied) : decision.write = .keep := by
  cases h with
  | created => exact absurd rfl kept
  | advanced => exact absurd rfl kept
  | stale => rfl
  | redundant => rfl

/-- An `UPDATE` is decided from an older projection. -/
theorem Compared.update {envelope : WebhookEnvelope} {decision : ConsumerDecision}
    {read : Option MerchantPaymentProjectionRecord} {loaded current : MerchantPaymentProjectionRecord}
    (h : Compared envelope read decision) (hwrite : decision.write = .update loaded current) :
    read = some loaded ∧ current = applyProjection loaded envelope.id envelope.payment ∧
      loaded.aggregateVersion < envelope.aggregateVersion := by
  cases h with
  | advanced hnewer =>
    cases hwrite
    exact ⟨rfl, rfl, hnewer⟩
  | created => cases hwrite
  | stale => cases hwrite
  | redundant => cases hwrite

/-- The gap flag: the event is applied, and beyond the version after the one the view has. -/
theorem Compared.gap {envelope : WebhookEnvelope} {decision : ConsumerDecision}
    {read : Option MerchantPaymentProjectionRecord} (h : Compared envelope read decision) :
    decision.versionGap = true ↔ decision.disposition = .applied ∧
      (read.map (·.aggregateVersion)).getD 0 + 1 < envelope.aggregateVersion := by
  cases h <;> simp

/-- An `UPDATE` of a row that is as it was loaded writes the object. -/
theorem writeChanges_loaded (loaded current : MerchantPaymentProjectionRecord) :
    loaded.writeChanges current loaded = { current with paymentId := loaded.paymentId } := by
  have hexpiry : writeTime loaded.expiresAt current.expiresAt loaded.expiresAt = current.expiresAt := by
    unfold writeTime
    split
    · next h => rw [h.1, h.2]
    · rfl
  unfold MerchantPaymentProjectionRecord.writeChanges
  simp only [writeColumn_stored, hexpiry]

/-- The columns an event writes are those of a new row. -/
theorem applyProjection_eq {envelope : WebhookEnvelope} {p : MerchantPaymentProjectionRecord}
    (h : p.paymentId = envelope.payment.id) :
    applyProjection p envelope.id envelope.payment = newProjection envelope := by
  unfold applyProjection newProjection
  rw [h]

theorem projection_key {t : Table merchantProjectionSchema} {id : String}
    {p : MerchantPaymentProjectionRecord} (h : t.get id = some p) : p.paymentId = id :=
  (Table.get_eq_some h).2

/-- What a call did to the projections. -/
inductive Projected (envelope : WebhookEnvelope) (decision : ConsumerDecision)
    (t t' : Table merchantProjectionSchema) : Prop
  /-- the snapshot of the event is the projection now -/
  | applied : decision.disposition = .applied →
      (∀ p, t.get envelope.payment.id = some p → p.aggregateVersion < envelope.aggregateVersion) →
      (∀ id, t'.get id =
        if envelope.payment.id = id then some (newProjection envelope) else t.get id) →
      Projected envelope decision t t'
  /-- the projection is at the event's version or above -/
  | kept {p : MerchantPaymentProjectionRecord} : decision.disposition ≠ .applied →
      decision.versionGap = false → t.get envelope.payment.id = some p →
      envelope.aggregateVersion ≤ p.aggregateVersion →
      (envelope.aggregateVersion = p.aggregateVersion →
        projectionMatches p envelope.payment = true) →
      t' = t → Projected envelope decision t t'

/-- **A decision taken from the store it is written to.** -/
theorem Compared.projected {envelope : WebhookEnvelope} {decision : ConsumerDecision}
    {t t' : Table merchantProjectionSchema}
    (compared : Compared envelope (t.get envelope.payment.id) decision)
    (projects : Projects decision.write t t') : Projected envelope decision t t' := by
  generalize hread : t.get envelope.payment.id = read at compared
  cases compared with
  | created =>
    cases projects with
    | insert hinsert =>
      refine .applied rfl (fun p hp => ?_) fun id => Table.get_insert hinsert id
      rw [hread] at hp
      cases hp
  | @advanced p hnewer =>
    cases projects with
    | @update _ _ stored _ _ hstored hupdate =>
      have hkey : p.paymentId = envelope.payment.id := projection_key hread
      rw [hkey, hread] at hstored
      cases hstored
      rw [writeChanges_loaded, applyProjection_eq hkey, hkey] at hupdate
      refine .applied rfl (fun p' hp' => ?_) fun id => ?_
      · rw [hread] at hp'
        cases hp'
        exact hnewer
      · rw [Table.get_update hupdate]
        show (if envelope.payment.id = id then (t.get id).map fun _ => newProjection envelope
          else t.get id) = _
        split
        · next hid => rw [← hid, hread]; rfl
        · rfl
  | stale holder =>
    cases projects
    exact .kept (by simp) rfl hread (by omega) (fun heq => by omega) rfl
  | redundant heq hmatches =>
    cases projects
    exact .kept (by simp) rfl hread (by omega) (fun _ => hmatches) rfl

/-- An `UPDATE` of a projection that is stored is accepted. -/
theorem flushProjection_update {loaded stored : MerchantPaymentProjectionRecord} {db : Database}
    (current : MerchantPaymentProjectionRecord)
    (h : db.merchantProjections.get loaded.paymentId = some stored) :
    ∃ db', flushProjection (.update loaded current) db = .ok db' := by
  obtain ⟨t, ht⟩ := Table.update_isSome (t := db.merchantProjections)
    (r := loaded.writeChanges current stored) rfl fun _ _ _ => ⟨rfl, rfl⟩
  refine ⟨{ db with merchantProjections := t }, ?_⟩
  simp only [flushProjection, h]
  exact updateIn_ok ht

/-- A statement decided from the store is accepted by it. -/
theorem Compared.flushes {envelope : WebhookEnvelope} {decision : ConsumerDecision} {db : Database}
    (compared : Compared envelope (db.merchantProjections.get envelope.payment.id) decision) :
    ∃ db', flushProjection decision.write db = .ok db' := by
  generalize hread : db.merchantProjections.get envelope.payment.id = read at compared
  cases compared with
  | created =>
    obtain ⟨t, ht⟩ := Table.insert_isSome (t := db.merchantProjections) (r := newProjection envelope)
      rfl hread fun _ _ => rfl
    refine ⟨{ db with merchantProjections := t }, ?_⟩
    show insertMerchantProjection (newProjection envelope) db = _
    exact insertInto_ok ht
  | @advanced p hnewer =>
    have hkey : p.paymentId = envelope.payment.id := projection_key hread
    exact flushProjection_update _ (by rw [hkey, hread])
  | stale => exact ⟨db, rfl⟩
  | redundant => exact ⟨db, rfl⟩

/-- A write that nothing disturbs is committed. -/
theorem writeConsumption_succeeds {envelope : WebhookEnvelope} {payloadHash : String}
    {decision : ConsumerDecision} {now : Datetime} {faults : ConsumerFaults} {s : DatabaseSession}
    (free : s.working.processedWebhooks.get envelope.id = none)
    (flushes : ∀ t, ∃ db',
      flushProjection decision.write { s.working with processedWebhooks := t } = .ok db')
    (storage : faults.storage = false) (afterInbox : faults.afterInbox = false) :
    (writeConsumption envelope payloadHash decision now faults s).1 =
      .ok (decision.outcome envelope.id) := by
  obtain ⟨t, ht⟩ := Table.insert_isSome (t := s.working.processedWebhooks)
    (r := newInbox envelope payloadHash decision now) rfl free fun _ _ => rfl
  have hinbox : insertProcessedWebhook (newInbox envelope payloadHash decision now) s.working =
      .ok { s.working with processedWebhooks := t } := insertInto_ok ht
  obtain ⟨db', hflush⟩ := flushes t
  have hcommit : ∃ s', commitConsumption (newInbox envelope payloadHash decision now)
      decision.write faults s = (.ok (), s') := by
    unfold commitConsumption
    rw [storage, if_neg Bool.false_ne_true, bind_ok (flush_ok hinbox), bind_ok (flush_ok hflush),
      afterInbox]
    exact ⟨_, rfl⟩
  obtain ⟨s', hcommit⟩ := hcommit
  have hbody : (do
      commitConsumption (newInbox envelope payloadHash decision now) decision.write faults
      return decision.outcome envelope.id : Service ConsumerOutcome) s =
      (.ok (decision.outcome envelope.id), s') := bind_ok hcommit
  unfold writeConsumption
  exact congrArg Prod.fst (tryCatch_ok hbody)

/-- An `UPDATE` of a projection that is stored is committed, whatever was loaded. -/
theorem writeConsumption_updates {envelope : WebhookEnvelope} {payloadHash : String}
    {decision : ConsumerDecision} {now : Datetime} {faults : ConsumerFaults} {s : DatabaseSession}
    {loaded current stored : MerchantPaymentProjectionRecord} (hs : s.working = s.committed)
    (hwrite : decision.write = .update loaded current)
    (free : s.working.processedWebhooks.get envelope.id = none)
    (hstored : s.working.merchantProjections.get loaded.paymentId = some stored)
    (storage : faults.storage = false) (afterInbox : faults.afterInbox = false) :
    Consumes envelope payloadHash decision now s.committed
      (writeConsumption envelope payloadHash decision now faults s).2.committed := by
  have hok : (writeConsumption envelope payloadHash decision now faults s).1 =
      .ok (decision.outcome envelope.id) := by
    refine writeConsumption_succeeds free (fun t => ?_) storage afterInbox
    rw [hwrite]
    exact flushProjection_update current hstored
  obtain ⟨r, s', hwritten⟩ : ∃ r s', writeConsumption envelope payloadHash decision now faults s =
      (r, s') := ⟨_, _, rfl⟩
  rw [hwritten] at hok ⊢
  rcases writeConsumption_cases hs hwritten with ⟨_, consumes, _⟩ | ⟨_, unapplied⟩
  · exact consumes
  · have hanswer : r = .ok (decision.outcome envelope.id) := hok
    cases unapplied with
    | repeated hget =>
      rw [← hs, free] at hget
      cases hget
    | raised => cases hanswer

/-- The row an `UPDATE` leaves. -/
theorem Projects.get_update {loaded current stored : MerchantPaymentProjectionRecord}
    {t t' : Table merchantProjectionSchema} (h : Projects (.update loaded current) t t')
    (hstored : t.get loaded.paymentId = some stored) :
    t'.get loaded.paymentId = some (loaded.writeChanges current stored) := by
  cases h with
  | update hfound hupdate =>
    rw [hstored] at hfound
    cases hfound
    have hkey : stored.paymentId = loaded.paymentId := (Table.get_eq_some hstored).2
    rw [Table.get_update hupdate]
    show (if stored.paymentId = loaded.paymentId then _ else _) = _
    rw [if_pos hkey, hstored]
    rfl

/-- **A call that nothing disturbs consumes its event.** -/
theorem consumeEnvelope_succeeds {envelope : WebhookEnvelope} {payloadHash : String}
    {now : Datetime} {faults : ConsumerFaults} {db : Database} {decision : ConsumerDecision}
    (free : db.processedWebhooks.get envelope.id = none)
    (hdecide : decideProjection (db.merchantProjections.get envelope.payment.id) envelope =
      .ok decision)
    (storage : faults.storage = false) (afterInbox : faults.afterInbox = false) :
    (consumeEnvelope envelope payloadHash now faults (Session.start db ∅)).1 =
      .ok (decision.outcome envelope.id) := by
  unfold consumeEnvelope readInbox readProjection
  rw [bind_ok (query_apply _ _), show (Session.start db ∅ :
    DatabaseSession).working.processedWebhooks.get envelope.id = none from free]
  dsimp only
  rw [bind_ok (query_apply _ _), show decideProjection ((Session.start db ∅ :
    DatabaseSession).working.merchantProjections.get envelope.payment.id) envelope = .ok decision
    from hdecide]
  have compared := decideProjection_eq_ok hdecide
  refine writeConsumption_succeeds free (fun t => ?_) storage afterInbox
  exact Compared.flushes compared

/-! ## Sequences of calls -/

/-- What the consumer uses of the standard library: the hexadecimal HMAC-SHA256 of a timestamped
body, `int()`, `json.loads`, `datetime.fromisoformat` and the hexadecimal SHA-256 of a body. They are
parameters; what a result relies on of them is a hypothesis of it, and most rely on nothing. -/
structure StandardLibrary where
  hmacSha256 : String → Int → Bytes → String
  readInt : String → Option Int
  loads : Bytes → Except LoadsFault Json
  fromIsoformat : String → Except IsoFault Datetime
  sha256 : Bytes → String

/-- A call of the consumer: the bytes and the header as they arrived, the secret and the clock it is
checked against, and the faults asked for. -/
structure ConsumerCall where
  payload : Bytes
  signatureHeader : String
  secret : String
  now : Datetime
  faults : ConsumerFaults

section Calls

variable (lib : StandardLibrary)

/-- Verification and validation of a call. -/
def ConsumerCall.accepted (call : ConsumerCall) : Except ServiceError WebhookEnvelope := do
  verifyWebhookSignature lib.hmacSha256 lib.readInt call.payload call.signatureHeader call.secret
    call.now
  parseWebhookPayload lib.loads lib.fromIsoformat call.payload

/-- A call in a session of its own: the result, and the store afterwards. -/
def ConsumerCall.run (call : ConsumerCall) (db : Database) :
    Except ServiceError ConsumerOutcome × Database :=
  let (result, session) := consumeWebhook lib.hmacSha256 lib.readInt lib.loads lib.fromIsoformat
    lib.sha256 call.payload call.signatureHeader call.secret call.now call.faults
    (Session.start db ∅)
  (result, session.committed)

theorem liftService_ok {α : Type} (a : α) (s : DatabaseSession) :
    liftService (.ok a) s = (.ok a, s) := rfl

variable {lib} in
theorem ConsumerCall.accepted_parse {call : ConsumerCall} {envelope : WebhookEnvelope}
    (h : call.accepted lib = .ok envelope) :
    parseWebhookPayload lib.loads lib.fromIsoformat call.payload = .ok envelope := by
  obtain ⟨_, _, hparse⟩ := except_bind_eq_ok h
  exact hparse

/-- A refused call reads no table. -/
theorem ConsumerCall.run_refused {call : ConsumerCall} {e : ServiceError}
    (h : call.accepted lib = .error e) (db : Database) : call.run lib db = (.error e, db) := by
  unfold accepted at h
  unfold run consumeWebhook
  cases hverify : verifyWebhookSignature lib.hmacSha256 lib.readInt call.payload
      call.signatureHeader call.secret call.now with
  | error e' =>
    rw [hverify] at h
    cases h
    rfl
  | ok u =>
    rw [hverify, except_ok_bind] at h
    rw [h]
    rfl

/-- An accepted call is the transaction of its event. -/
theorem ConsumerCall.run_accepted {call : ConsumerCall} {envelope : WebhookEnvelope}
    (h : call.accepted lib = .ok envelope) (db : Database) :
    call.run lib db =
      ((consumeEnvelope envelope (lib.sha256 call.payload) call.now call.faults
          (Session.start db ∅)).1,
        (consumeEnvelope envelope (lib.sha256 call.payload) call.now call.faults
          (Session.start db ∅)).2.committed) := by
  obtain ⟨u, hverify, hparse⟩ := except_bind_eq_ok h
  unfold run consumeWebhook
  rw [hverify, hparse, bind_ok (liftService_ok u _), bind_ok (liftService_ok envelope _)]

/-- **One call**: refused before its transaction, or a consumption of the event it carries. -/
theorem ConsumerCall.run_cases (call : ConsumerCall) (db : Database) :
    (∃ e, call.accepted lib = .error e ∧ call.run lib db = (.error e, db)) ∨
      ∃ envelope, call.accepted lib = .ok envelope ∧
        Consumption envelope (lib.sha256 call.payload) call.now db (call.run lib db).2
          (call.run lib db).1 := by
  cases haccepted : call.accepted lib with
  | error e => exact .inl ⟨e, rfl, call.run_refused lib haccepted db⟩
  | ok envelope =>
    refine .inr ⟨envelope, rfl, ?_⟩
    rw [call.run_accepted lib haccepted db]
    exact consumeEnvelope_cases (s := Session.start db ∅) rfl rfl

/-- A call with the store before it, its result and the store after it. Both the calls that answer
and the ones that raise are steps. -/
structure ConsumerStep where
  call : ConsumerCall
  before : Database
  result : Except ServiceError ConsumerOutcome
  after : Database

/-- A call as a step from a store. -/
def ConsumerCall.step (call : ConsumerCall) (db : Database) : ConsumerStep :=
  { call := call, before := db, result := (call.run lib db).1, after := (call.run lib db).2 }

/-- The steps of calls made one after another. -/
def consumerSteps : List ConsumerCall → Database → List ConsumerStep
  | [], _ => []
  | call :: rest, db => call.step lib db :: consumerSteps rest (call.run lib db).2

/-- The store after the calls. -/
def consumeAll : List ConsumerCall → Database → Database
  | [], db => db
  | call :: rest, db => consumeAll rest (call.run lib db).2

/-- What every call preserves holds along a sequence of calls. -/
theorem consumerSteps_invariant {P : Database → Prop}
    (preserved : ∀ (call : ConsumerCall) db, P db → P (call.run lib db).2) :
    ∀ {calls : List ConsumerCall} {db : Database}, P db →
      (∀ step ∈ consumerSteps lib calls db, step = step.call.step lib step.before ∧ P step.before) ∧
        P (consumeAll lib calls db) := by
  intro calls
  induction calls with
  | nil =>
    intro db h
    exact ⟨fun step mem => absurd mem List.not_mem_nil, h⟩
  | cons call rest ih =>
    intro db h
    obtain ⟨hsteps, hlast⟩ := ih (preserved call db h)
    refine ⟨fun step mem => ?_, hlast⟩
    rcases List.mem_cons.mp mem with rfl | mem
    · exact ⟨rfl, h⟩
    · exact hsteps step mem

end Calls

end PaymentLab
