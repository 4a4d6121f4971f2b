import PaymentLab.Runs.Confirmations
import PaymentLab.Runs.System

/-!
# Keyed requests, transaction by transaction

An authorization, capture, cancellation or refund carries an idempotency key. Each of its
transactions either finds the key taken, and then only the stored record speaks, or finds it free,
and then the request commits the effect of its command under that key, or nothing
(`Client.keyed_act`).

The four operations differ in what they do under a free key and not in how they treat a taken one,
so the case of a taken key is one lemma with the command as its parameter. A call that found the key
free and then loses it to another does not write: it goes back and reads.
-/

namespace PaymentLab

open Relational Transactional Transactional.Service

/-! ## Commands under keys -/

/-- The command a keyed request carries. Two commands of different kinds are different, whatever
their fingerprints are. -/
inductive KeyedCommand where
  | authorize (command : AuthorizationCommand)
  | lifecycle (command : LifecycleCommand)
  deriving DecidableEq

/-- The fingerprint of a keyed command. -/
def KeyedCommand.fingerprint (sha256 : String → String) : KeyedCommand → String
  | .authorize command => command.fingerprint sha256
  | .lifecycle command => command.fingerprint sha256

/-- The key and the command of a request that carries one. -/
def Request.keyed : Request → Option (String × KeyedCommand)
  | .authorize command key _ _ _ => some (key, .authorize command)
  | .capture paymentId key _ _ _ _ => some (key, .lifecycle (.capture paymentId))
  | .cancel paymentId key _ _ _ _ => some (key, .lifecycle (.cancel paymentId))
  | .refund paymentId amount key _ _ _ _ => some (key, .lifecycle (.refund paymentId amount))
  | _ => none

/-- What a keyed command commits: one payment creation, or one lifecycle change. The payment is the
row as it was committed, which is also what a replay answers with. -/
inductive KeyedEffect (sha256 : String → String) (key : String) :
    KeyedCommand → PaymentRecord → Database → Database → Prop
  | created {command : AuthorizationCommand} {payment : PaymentRecord} {db db' : Database} :
      Created sha256 command key payment db db' →
      KeyedEffect sha256 key (.authorize command) payment db db'
  | operated {command : LifecycleCommand} {before after : PaymentRecord} {db db' : Database} :
      Operated sha256 command key before after db db' →
      KeyedEffect sha256 key (.lifecycle command) after db db'

section Keyed

variable {sha256 : String → String} {key : String}

theorem KeyedEffect.effect {command : KeyedCommand} {payment : PaymentRecord} {db db' : Database}
    (h : KeyedEffect sha256 key command payment db db') : Effect sha256 db db' := by
  cases h with
  | created h => exact .created h
  | operated h => exact .operated h

/-- The record a keyed effect leaves under its key: the fingerprint of the command and the committed
payment. -/
theorem KeyedEffect.claim {command : KeyedCommand} {payment : PaymentRecord} {db db' : Database}
    (h : KeyedEffect sha256 key command payment db db') :
    ∃ record, db.idempotencyRecords.insert record = some db'.idempotencyRecords ∧
      record.key = key ∧ record.requestFingerprint = command.fingerprint sha256 ∧
      record.paymentId = some payment.id ∧
      record.responseSnapshot = some (.fromPayment payment) := by
  cases h with
  | created h =>
    obtain ⟨now, hclaim⟩ := h.claim
    exact ⟨_, hclaim, rfl, rfl, rfl, rfl⟩
  | operated h =>
    obtain ⟨now, hclaim⟩ := h.claim
    exact ⟨_, hclaim, rfl, rfl, rfl, rfl⟩

/-- The answer a stored record gives to a repeated key. -/
def IdempotencyRecord.answer (record : IdempotencyRecord) (fingerprint : String) :
    Except ServiceError PaymentOutcome :=
  if record.requestFingerprint ≠ fingerprint then .error .idempotencyConflict
  else
    match record.responseSnapshot with
    | none => .error (.runtimeError "Idempotency record has no completed response")
    | some snapshot => .ok (.replay snapshot)

theorem IdempotencyRecord.answer_not_sql {record : IdempotencyRecord} {fingerprint : String}
    {e : ServiceError} (h : record.answer fingerprint = .error e) : e.isSQLAlchemyError = false := by
  unfold answer at h
  split at h
  · cases h; rfl
  · split at h <;> cases h
    rfl

/-- A claim is refused exactly when its key is taken. -/
theorem claim_refused_iff {t : Table idempotencySchema} {record : IdempotencyRecord} :
    t.insert record = none ↔ ∃ existing, t.get record.key = some existing := by
  constructor
  · intro hnone
    cases hget : t.get record.key with
    | some existing => exact ⟨existing, rfl⟩
    | none =>
      obtain ⟨t', ht'⟩ := Table.insert_isSome (S := idempotencySchema) (r := record) rfl hget
        (fun _ _ => rfl)
      rw [hnone] at ht'
      cases ht'
  · rintro ⟨existing, hget⟩
    exact Table.insert_eq_none (S := idempotencySchema) (r := record) hget

/-! ## The three transactions -/

variable {s s' : DatabaseSession}

/-- The lookup of a key reads the answer of the stored record. -/
theorem find_cases {fingerprint : String} {r : Except ServiceError (Option PaymentSnapshot)}
    (h : findIdempotentSnapshot key fingerprint s = (r, s')) :
    s' = { s with begun := true } ∧
      ((s.working.idempotencyRecords.get key = none ∧ r = .ok none) ∨
        ∃ record, s.working.idempotencyRecords.get key = some record ∧
          ((∃ e, r = .error e ∧ record.answer fingerprint = .error e) ∨
            ∃ snapshot, r = .ok (some snapshot) ∧
              record.answer fingerprint = .ok (.replay snapshot))) := by
  rw [findIdempotentSnapshot_apply] at h
  unfold IdempotencyRecord.answer
  cases hget : s.working.idempotencyRecords.get key with
  | none =>
    rw [hget] at h
    cases h
    exact ⟨rfl, .inl ⟨rfl, rfl⟩⟩
  | some record =>
    simp only [hget] at h
    refine ⟨(Prod.mk.inj h).2.symm, .inr ⟨record, rfl, ?_⟩⟩
    by_cases hf : record.requestFingerprint ≠ fingerprint
    · rw [if_pos hf] at h ⊢
      cases h
      exact .inl ⟨_, rfl, rfl⟩
    · rw [if_neg hf] at h ⊢
      cases hsnapshot : record.responseSnapshot with
      | none =>
        rw [hsnapshot] at h
        cases h
        exact .inl ⟨_, rfl, rfl⟩
      | some snapshot =>
        rw [hsnapshot] at h
        cases h
        exact .inr ⟨snapshot, rfl, rfl⟩

/-- The first transaction: the answer of the stored record, or a free key. -/
theorem lookUp_cases {fingerprint : String} {claimedAt : Instant} {r : Except ServiceError Phase}
    (h : lookUp key fingerprint claimedAt s = (r, s')) :
    s'.committed = s.committed ∧ s'.identity = s.identity ∧
      ((∃ record, s.working.idempotencyRecords.get key = some record ∧
          Phase.ofResult r = .finished ((record.answer fingerprint).map .payment)) ∨
        (s.working.idempotencyRecords.get key = none ∧ r = .ok (.claiming claimedAt))) := by
  rcases bind_cases h with ⟨e, hfind, rfl⟩ | ⟨found, s₁, hfind, hrest⟩
  all_goals
    obtain ⟨rfl, ⟨hget, hr⟩ | ⟨record, hget, ⟨e', hr, hanswer⟩ | ⟨snapshot, hr, hanswer⟩⟩⟩ :=
      find_cases hfind <;> cases hr
  · exact ⟨rfl, rfl, .inl ⟨record, hget, by rw [hanswer]; rfl⟩⟩
  · cases hrest
    exact ⟨rfl, rfl, .inr ⟨hget, rfl⟩⟩
  · cases hrest
    exact ⟨rfl, rfl, .inl ⟨record, hget, by rw [hanswer]; rfl⟩⟩

/-- The second lookup, after a lost claim. -/
theorem reread_cases {fingerprint : String} {r : Except ServiceError Phase}
    (h : reread key fingerprint s = (r, s')) :
    s'.committed = s.committed ∧ s'.identity = s.identity ∧
      ((∃ record, s.working.idempotencyRecords.get key = some record ∧
          Phase.ofResult r = .finished ((record.answer fingerprint).map .payment)) ∨
        (s.working.idempotencyRecords.get key = none ∧ r = .error .integrityError)) := by
  obtain ⟨r₁, hread, rfl⟩ := bind_pure_cases h
  rcases bind_cases hread with ⟨e, hfind, rfl⟩ | ⟨found, s₁, hfind, hrest⟩
  all_goals
    obtain ⟨rfl, ⟨hget, hr⟩ | ⟨record, hget, ⟨e', hr, hanswer⟩ | ⟨snapshot, hr, hanswer⟩⟩⟩ :=
      find_cases hfind <;> cases hr
  · exact ⟨rfl, rfl, .inl ⟨record, hget, by rw [hanswer]; rfl⟩⟩
  · cases hrest
    exact ⟨rfl, rfl, .inr ⟨hget, rfl⟩⟩
  · cases hrest
    exact ⟨rfl, rfl, .inl ⟨record, hget, by rw [hanswer]; rfl⟩⟩

/-- A claim whose key is free is won, and claims the key and nothing else. -/
theorem insertClaim_free (claim : IdempotencyRecord) (hworking : s.working = s.committed)
    (hfree : s.committed.idempotencyRecords.get claim.key = none) :
    ∃ s₁, insertClaim claim s = (.ok true, s₁) ∧ Claimed claim s₁ ∧
      s₁.committed = s.committed ∧ s₁.identity = s.identity := by
  cases hinsert : s.committed.idempotencyRecords.insert claim with
  | none =>
    obtain ⟨existing, hget⟩ := claim_refused_iff.mp hinsert
    rw [hfree] at hget
    cases hget
  | some t =>
    refine ⟨{ s with working := { s.committed with idempotencyRecords := t }, begun := true }, ?_,
      ⟨t, hinsert, rfl⟩, rfl, rfl⟩
    rw [insertClaim_apply, hworking, hinsert]

/-- The claim: lost to a stored record, or won, and then the guarded body has run. -/
theorem attempt_cases {claim : IdempotencyRecord}
    {body : IdempotencyRecord → Service PaymentOutcome} {r : Except ServiceError Phase}
    (hworking : s.working = s.committed) (h : attempt claim body s = (r, s')) :
    (∃ record, s.committed.idempotencyRecords.get claim.key = some record ∧ r = .ok .rereading ∧
        s'.committed = s.committed ∧ s'.identity = ∅) ∨
      (s.committed.idempotencyRecords.get claim.key = none ∧
        ∃ s₁ s₂ outcome, Claimed claim s₁ ∧ s₁.committed = s.committed ∧
          s₁.identity = s.identity ∧ body claim s₁ = (outcome, s₂) ∧
          s'.committed = s₂.committed ∧ (s' = s₂ ∨ s'.identity = ∅) ∧
          Phase.ofResult r = .finished (outcome.map .payment)) := by
  unfold attempt at h
  cases hget : s.committed.idempotencyRecords.get claim.key with
  | some record =>
    rw [bind_apply, insertClaim_apply, hworking, claim_refused_iff.mpr ⟨record, hget⟩] at h
    cases h
    exact .inl ⟨record, rfl, rfl, rfl, rfl⟩
  | none =>
    obtain ⟨s₁, hclaim, hclaimed, hcommitted, hidentity⟩ := insertClaim_free claim hworking hget
    rw [bind_ok hclaim] at h
    obtain ⟨outcome, hguarded, rfl⟩ := bind_pure_cases h
    obtain ⟨s₂, hbody, hsame, hloaded⟩ := rollbackOnError_cases hguarded
    refine .inr ⟨rfl, s₁, s₂, outcome, hclaimed, hcommitted, hidentity, hbody, hsame, hloaded, ?_⟩
    cases outcome <;> rfl

/-- A whole keyed call in one session: the answer of the stored record, or the guarded body under a
won claim. -/
theorem claimedCall_cases {fingerprint operation : String} {claimedAt : Instant}
    {body : IdempotencyRecord → Service PaymentOutcome} {r : Except ServiceError PaymentOutcome}
    (hworking : s.working = s.committed)
    (h : (claimIdempotencyKey key fingerprint operation claimedAt >>= fun result =>
      match result with
      | .replayed snapshot => pure (PaymentOutcome.replay snapshot)
      | .claimed claim => rollbackOnError (body claim)) s = (r, s')) :
    (∃ record, s.committed.idempotencyRecords.get key = some record ∧
        s'.committed = s.committed ∧ s'.identity = s.identity ∧ r = record.answer fingerprint) ∨
      (s.committed.idempotencyRecords.get key = none ∧
        ∃ s₁ s₂, Claimed (newClaim key fingerprint operation claimedAt) s₁ ∧
          s₁.committed = s.committed ∧ s₁.identity = s.identity ∧
          body (newClaim key fingerprint operation claimedAt) s₁ = (r, s₂) ∧
          s'.committed = s₂.committed ∧ (s' = s₂ ∨ s'.identity = ∅)) := by
  obtain ⟨found, s₁, hfind⟩ : ∃ found s₁, findIdempotentSnapshot key fingerprint s = (found, s₁) :=
    ⟨_, _, rfl⟩
  obtain ⟨rfl, ⟨hget, rfl⟩ | ⟨record, hget, hanswer⟩⟩ := find_cases hfind
  · -- the key was free when it was looked up, so the claim is won
    rw [hworking] at hget
    obtain ⟨s₁, hclaim, hclaimed, hcommitted, hidentity⟩ :=
      insertClaim_free (s := { s with begun := true })
        (newClaim key fingerprint operation claimedAt) hworking hget
    have hwon : claimIdempotencyKey key fingerprint operation claimedAt s =
        (.ok (.claimed (newClaim key fingerprint operation claimedAt)), s₁) := by
      unfold claimIdempotencyKey
      rw [bind_ok hfind]
      simp only [bind_ok hclaim, if_true]
      rfl
    rw [bind_ok hwon] at h
    obtain ⟨s₂, hbody, hsame, hloaded⟩ := rollbackOnError_cases h
    exact .inr ⟨hget, s₁, s₂, hclaimed, hcommitted, hidentity, hbody, hsame, hloaded⟩
  · rw [hworking] at hget
    refine .inl ⟨record, hget, ?_⟩
    rcases hanswer with ⟨e, rfl, hanswer⟩ | ⟨snapshot, rfl, hanswer⟩
    · have hraised : claimIdempotencyKey key fingerprint operation claimedAt s =
          (.error e, { s with begun := true }) := bind_error hfind
      rw [bind_error hraised] at h
      cases h
      exact ⟨rfl, rfl, hanswer.symm⟩
    · have hreplayed : claimIdempotencyKey key fingerprint operation claimedAt s =
          (.ok (.replayed snapshot), { s with begun := true }) := bind_ok hfind
      rw [bind_ok hreplayed] at h
      cases h
      exact ⟨rfl, rfl, hanswer.symm⟩

/-! ## What a request under a free key commits -/

/-- Nothing is committed and the request failed on its own, or its effect is committed, and then it
answers the committed payment or fails after the commit. -/
def CommitsKeyed (sha256 : String → String) (key : String) (command : KeyedCommand)
    (db db' : Database) (r : Except ServiceError PaymentOutcome) : Prop :=
  (db' = db ∧ ∃ e, NoConflict e ∧ r = .error e) ∨
    ∃ payment, KeyedEffect sha256 key command payment db db' ∧
      (r = .ok { payment := .record payment, replayed := false } ∨
        r = .error (.simulatedPaymentTimeout .afterCommit))

variable {failurePoint : Option FailurePoint} {claimedAt now : Instant} {draws : Draws}
  {r : Except ServiceError PaymentOutcome}

theorem executeAuthorization_keyed {command : AuthorizationCommand}
    (claimed : Claimed (newClaim key (command.fingerprint sha256) "AUTHORIZE" claimedAt) s)
    (sound : Sound s.committed s.identity)
    (h : executeClaimedAuthorization command
      (newClaim key (command.fingerprint sha256) "AUTHORIZE" claimedAt) failurePoint now draws s =
        (r, s')) :
    CommitsKeyed sha256 key (.authorize command) s.committed s'.committed r ∧
      Sound s'.committed s'.identity := by
  rcases executeAuthorization_commits claimed sound h with
    ⟨⟨e, rfl⟩, hcommitted, hsound⟩ | ⟨payment, hcreated, hsound, hanswer⟩
  · exact ⟨.inl ⟨hcommitted, e, raises_executeAuthorization _ _ _ _ _ s e s' h, rfl⟩, hsound⟩
  · exact ⟨.inr ⟨payment, .created hcreated, hanswer.imp_right (·.2)⟩, hsound⟩

theorem executeLifecycle_keyed {command : LifecycleCommand}
    (claimed : Claimed (newClaim key (command.fingerprint sha256) command.operation.value claimedAt) s)
    (sound : Sound s.committed s.identity)
    (h : executeClaimedLifecycleOperation command
      (newClaim key (command.fingerprint sha256) command.operation.value claimedAt) failurePoint now
      draws s = (r, s')) :
    CommitsKeyed sha256 key (.lifecycle command) s.committed s'.committed r ∧
      Sound s'.committed s'.identity := by
  rcases executeLifecycle_commits claimed sound h with
    ⟨⟨e, rfl⟩, hcommitted, hsound⟩ | ⟨before, after, hoperated, hsound, hanswer⟩
  · exact ⟨.inl ⟨hcommitted, e, raises_executeLifecycle _ _ _ _ _ s e s' h, rfl⟩, hsound⟩
  · exact ⟨.inr ⟨after, .operated hoperated, hanswer.imp_right (·.2)⟩, hsound⟩

/-- Loaded versions stay versions when a guard drops them. -/
theorem Sound.of_guard {s₁ s₂ : DatabaseSession} (h : Sound s₁.committed s₁.identity)
    (hcommitted : s₂.committed = s₁.committed) (hidentity : s₂ = s₁ ∨ s₂.identity = ∅) :
    Sound s₂.committed s₂.identity := by
  rcases hidentity with rfl | hempty
  · exact h
  · rw [hempty]
    exact sound_empty _

/-- A storage failure of a cancellation is reported as unavailable, every other result as it is. -/
theorem cancelPayment_guard {x : Service PaymentOutcome}
    (h : (tryCatch x fun error =>
      if error.isSQLAlchemyError then rollback >>= fun _ => throw .cancellationUnavailable
      else throw error : Service PaymentOutcome) s = (r, s')) :
    ∃ r₁ s₁, x s = (r₁, s₁) ∧ s'.committed = s₁.committed ∧ (s' = s₁ ∨ s'.identity = ∅) ∧
      (r = r₁ ∨ ∃ e, r₁ = .error e ∧ e.isSQLAlchemyError = true ∧
        r = .error .cancellationUnavailable) := by
  rcases tryCatch_cases h with ⟨a, hx, rfl⟩ | ⟨e, s₁, hx, hhandler⟩
  · exact ⟨_, s', hx, rfl, .inl rfl, .inl rfl⟩
  · by_cases hsql : e.isSQLAlchemyError = true
    · rw [if_pos hsql] at hhandler
      cases hhandler
      exact ⟨_, s₁, hx, rfl, .inr rfl, .inr ⟨e, rfl, hsql, rfl⟩⟩
    · rw [if_neg hsql] at hhandler
      cases hhandler
      exact ⟨_, s', hx, rfl, .inl rfl, .inl rfl⟩

/-- **A cancellation in one coordinated transaction**: the answer of the stored record, or what its
command commits under the free key. -/
theorem cancelPayment_cases {paymentId : String}
    (h : cancelPayment sha256 paymentId key failurePoint claimedAt now draws s = (r, s')) :
    Sound s'.committed s'.identity ∧
      ((∃ record, s.committed.idempotencyRecords.get key = some record ∧
          s'.committed = s.committed ∧
          r = record.answer ((LifecycleCommand.cancel paymentId).fingerprint sha256)) ∨
        (s.committed.idempotencyRecords.get key = none ∧
          CommitsKeyed sha256 key (.lifecycle (.cancel paymentId)) s.committed s'.committed r)) := by
  obtain ⟨r₁, s₁, hbody, hcommitted, hidentity, hr⟩ := cancelPayment_guard h
  rw [bind_ok (beginCoordinatedWrite_apply s)] at hbody
  rcases claimedCall_cases (s := coordinated s) rfl hbody with
    ⟨record, hget, hsame, hloaded, hanswer⟩ |
    ⟨hfree, s₂, s₃, hclaimed, hsame, hloaded, hexecute, hsame', hloaded'⟩
  · refine ⟨Sound.of_guard (by rw [hloaded]; exact sound_empty _) hcommitted hidentity,
      .inl ⟨record, hget, hcommitted.trans hsame, ?_⟩⟩
    rcases hr with rfl | ⟨e, rfl, hsql, _⟩
    · exact hanswer
    · rw [IdempotencyRecord.answer_not_sql hanswer.symm] at hsql
      cases hsql
  · obtain ⟨hcommits, hsound⟩ :=
      executeLifecycle_keyed hclaimed (by rw [hloaded]; exact sound_empty _) hexecute
    have hsound := Sound.of_guard (Sound.of_guard hsound hsame' hloaded') hcommitted hidentity
    refine ⟨hsound, .inr ⟨hfree, ?_⟩⟩
    rw [hcommitted, hsame']
    rw [hsame] at hcommits
    rcases hr with rfl | ⟨e, rfl, hsql, rfl⟩
    · exact hcommits
    · -- a commit answers the payment or the simulated timeout, and neither is a storage failure
      rcases hcommits with ⟨hnothing, _⟩ | ⟨payment, _, heq | heq⟩
      · exact .inl ⟨hnothing, .cancellationUnavailable, nofun, rfl⟩
      · cases heq
      · cases heq
        cases hsql

end Keyed

/-! ## One transaction of a keyed client -/

/-- The phases a call of a request goes through. A request without a phase of its own runs in a
single transaction. -/
def Request.Admits (request : Request) (phase : Phase) : Prop :=
  phase.Ended ∨ phase = .ready ∨
    match request with
    | .authorize .. | .capture .. | .refund .. =>
      (∃ claimedAt, phase = .claiming claimedAt) ∨ phase = .rereading
    | .process .. => ∃ replayed, phase = .completing replayed
    | .recover .. => ∃ ids todo, phase = .recovering ids todo
    | _ => False

/-- A request whose clock is refused before anything is read, so that it fails whatever is stored
under its key. -/
def Request.NaiveClock : Request → Prop
  | .authorize _ _ _ (.naive _) _ => True
  | _ => False

/-- What one transaction of a keyed request does. A taken key: nothing is written, and the call ends
with the answer of the stored record or goes on to read it. A free key: the lookup passes, or the
effect of the command is committed, or nothing. -/
inductive KeyedAct (sha256 : String → String) (key : String) (command : KeyedCommand)
    (request : Request) (db db' : Database) (phase : Phase) : Phase → Prop
  | clock {e : ServiceError} : request.NaiveClock → phase = .ready → db' = db → NoConflict e →
      KeyedAct sha256 key command request db db' phase (.finished (.error e))
  | answered {record : IdempotencyRecord} : db.idempotencyRecords.get key = some record → db' = db →
      KeyedAct sha256 key command request db db' phase
        (.finished ((record.answer (command.fingerprint sha256)).map .payment))
  | lost {record : IdempotencyRecord} {claimedAt : Instant} :
      db.idempotencyRecords.get key = some record → db' = db → phase = .claiming claimedAt →
      KeyedAct sha256 key command request db db' phase .rereading
  | free {claimedAt : Instant} : db.idempotencyRecords.get key = none → db' = db →
      phase = .ready →
      KeyedAct sha256 key command request db db' phase (.claiming claimedAt)
  | executed {r : Except ServiceError PaymentOutcome} : db.idempotencyRecords.get key = none →
      CommitsKeyed sha256 key command db db' r →
      KeyedAct sha256 key command request db db' phase (.finished (r.map .payment))

section Clients

variable {sha256 : String → String} {key : String} {command : KeyedCommand} {client : Client}
  {db : Database}

/-- A transaction, from the run of its program. -/
theorem Client.act_eq {r : Except ServiceError Phase} {s' : DatabaseSession}
    (h : client.request.step sha256 client.phase (client.session db) = (r, s')) :
    client.act sha256 db =
      (s'.committed, { client with identity := s'.identity, phase := .ofResult r }) := by
  unfold Client.act
  rw [h]

variable (command client) in
theorem lookUp_keyed {request : Request} {claimedAt : Instant} {s' : DatabaseSession}
    {r : Except ServiceError Phase} {phase : Phase} (ready : phase = .ready)
    (h : lookUp key (command.fingerprint sha256) claimedAt (client.session db) = (r, s')) :
    KeyedAct sha256 key command request db s'.committed phase (.ofResult r) ∧
      s'.identity = client.identity := by
  obtain ⟨hcommitted, hidentity, ⟨record, hget, hr⟩ | ⟨hget, rfl⟩⟩ := lookUp_cases h
  · rw [hr]
    exact ⟨.answered hget hcommitted, hidentity⟩
  · exact ⟨.free hget hcommitted ready, hidentity⟩

variable (command client) in
theorem reread_keyed {request : Request} {s' : DatabaseSession}
    {r : Except ServiceError Phase} {phase : Phase}
    (h : reread key (command.fingerprint sha256) (client.session db) = (r, s')) :
    KeyedAct sha256 key command request db s'.committed phase (.ofResult r) ∧
      s'.identity = client.identity := by
  obtain ⟨hcommitted, hidentity, ⟨record, hget, hr⟩ | ⟨hget, rfl⟩⟩ := reread_cases h
  · rw [hr]
    exact ⟨.answered hget hcommitted, hidentity⟩
  · exact ⟨.executed (r := .error .integrityError) hget
      (.inl ⟨hcommitted, .integrityError, nofun, rfl⟩), hidentity⟩

variable (client) in
/-- The claiming transaction, for a body that commits the effect of its command or nothing. -/
theorem attempt_keyed {request : Request} {claim : IdempotencyRecord} {claimedAt : Instant}
    {body : IdempotencyRecord → Service PaymentOutcome} {s' : DatabaseSession}
    {r : Except ServiceError Phase} {phase : Phase} (claiming : phase = .claiming claimedAt)
    (sound : Sound db client.identity) (hkey : claim.key = key)
    (hbody : ∀ {s₁ s₂ : DatabaseSession} {outcome : Except ServiceError PaymentOutcome},
      Claimed claim s₁ → Sound s₁.committed s₁.identity → body claim s₁ = (outcome, s₂) →
      CommitsKeyed sha256 key command s₁.committed s₂.committed outcome ∧
        Sound s₂.committed s₂.identity)
    (h : attempt claim body (client.session db) = (r, s')) :
    KeyedAct sha256 key command request db s'.committed phase (.ofResult r) ∧
      Sound s'.committed s'.identity := by
  rcases attempt_cases rfl h with
    ⟨record, hget, rfl, hcommitted, hidentity⟩ |
    ⟨hfree, s₁, s₂, outcome, hclaimed, hsame, hloaded, hrun, hcommitted, hidentity, hr⟩
  · refine ⟨.lost (hkey ▸ hget) hcommitted claiming, ?_⟩
    rw [hidentity]
    exact sound_empty _
  · obtain ⟨hcommits, hsound⟩ := hbody hclaimed (by rw [hsame, hloaded]; exact sound) hrun
    rw [hsame] at hcommits
    rw [hr]
    refine ⟨.executed (hkey ▸ hfree) ?_, Sound.of_guard hsound hcommitted hidentity⟩
    rw [hcommitted]
    exact hcommits

/-- A transaction that wrote nothing and loaded nothing leaves the loaded versions. -/
theorem Sound.of_same {s' : DatabaseSession} (sound : Sound db client.identity)
    (hcommitted : s'.committed = db) (hidentity : s'.identity = client.identity) :
    Sound s'.committed s'.identity := by
  rw [hcommitted, hidentity]
  exact sound

variable (client) in
/-- A capture or refund, in whichever phase it is. -/
theorem lifecycleStep_keyed {request : Request} {lifecycle : LifecycleCommand}
    {failurePoint : Option FailurePoint} {claimedAt now : Instant} {draws : Draws} {phase : Phase}
    {s' : DatabaseSession} {r : Except ServiceError Phase}
    (admits : phase = .ready ∨ (∃ at', phase = .claiming at') ∨ phase = .rereading)
    (sound : Sound db client.identity)
    (h : lifecycleStep sha256 lifecycle key failurePoint claimedAt now draws phase
      (client.session db) = (r, s')) :
    KeyedAct sha256 key (.lifecycle lifecycle) request db s'.committed phase (.ofResult r) ∧
      Sound s'.committed s'.identity := by
  rcases admits with rfl | ⟨at', rfl⟩ | rfl
  · obtain ⟨hact, hidentity⟩ := lookUp_keyed (.lifecycle lifecycle) client rfl h
    exact ⟨hact, sound.of_same (lookUp_cases h).1 hidentity⟩
  · have h : attempt
        (newClaim key (lifecycle.fingerprint sha256) lifecycle.operation.value at')
        (fun claim => executeClaimedLifecycleOperation lifecycle claim failurePoint now draws)
        (client.session db) = (r, s') := h
    exact attempt_keyed client rfl sound rfl (fun hclaimed hsound hrun =>
      executeLifecycle_keyed hclaimed hsound hrun) h
  · obtain ⟨hact, hidentity⟩ := reread_keyed (.lifecycle lifecycle) client h
    exact ⟨hact, sound.of_same (reread_cases h).1 hidentity⟩

variable (sha256) in
/-- **One transaction of a keyed request.** -/
theorem Client.keyed_act (hkey : client.request.keyed = some (key, command))
    (admits : client.request.Admits client.phase) (unfinished : ¬client.phase.Ended)
    (sound : Sound db client.identity) :
    KeyedAct sha256 key command client.request db (client.act sha256 db).1 client.phase
        (client.act sha256 db).2.phase ∧
      Sound (client.act sha256 db).1 (client.act sha256 db).2.identity := by
  obtain ⟨request, identity, phase⟩ := client
  obtain ⟨r, s', hrun⟩ : ∃ r s', request.step sha256 phase (Session.start db identity) = (r, s') :=
    ⟨_, _, rfl⟩
  rw [Client.act_eq hrun]
  have admits := admits.resolve_left unfinished
  cases request with
  | authorize authorization k failurePoint clock draws =>
    cases hkey
    rcases admits with rfl | ⟨at', rfl⟩ | rfl
    · cases clock with
      | naive wall =>
        cases hrun
        exact ⟨.clock trivial rfl rfl nofun, sound⟩
      | aware now =>
        have h : lookUp key (authorization.fingerprint sha256) now (Session.start db identity) =
          (r, s') := hrun
        obtain ⟨hact, hidentity⟩ :=
          lookUp_keyed (.authorize authorization) ⟨_, identity, .ready⟩ rfl h
        exact ⟨hact, sound.of_same (lookUp_cases h).1 hidentity⟩
    · have h : attempt (newClaim key (authorization.fingerprint sha256) "AUTHORIZE" at')
          (fun claim => executeClaimedAuthorization authorization claim failurePoint at' draws)
          (Session.start db identity) = (r, s') := hrun
      exact attempt_keyed ⟨_, identity, .claiming at'⟩ rfl sound rfl
        (fun hclaimed hsound hrun => executeAuthorization_keyed hclaimed hsound hrun) h
    · have h : reread key (authorization.fingerprint sha256) (Session.start db identity) = (r, s') :=
        hrun
      obtain ⟨hact, hidentity⟩ :=
        reread_keyed (.authorize authorization) ⟨_, identity, .rereading⟩ h
      exact ⟨hact, sound.of_same (reread_cases h).1 hidentity⟩
  | capture paymentId k failurePoint claimedAt now draws =>
    cases hkey
    exact lifecycleStep_keyed ⟨_, identity, phase⟩ admits sound hrun
  | cancel paymentId k failurePoint claimedAt now draws =>
    cases hkey
    rcases admits with rfl | hfalse
    · obtain ⟨outcome, hcancel, rfl⟩ := bind_pure_cases hrun
      have hr : Phase.ofResult (outcome.map fun o => .finished (.ok (.payment o))) =
          .finished (outcome.map .payment) := by cases outcome <;> rfl
      rw [hr]
      obtain ⟨hsound, ⟨record, hget, hcommitted, rfl⟩ | ⟨hfree, hcommits⟩⟩ :=
        cancelPayment_cases hcancel
      · exact ⟨.answered hget hcommitted, hsound⟩
      · exact ⟨.executed hfree hcommits, hsound⟩
    · exact hfalse.elim
  | refund paymentId amount k failurePoint claimedAt now draws =>
    cases hkey
    exact lifecycleStep_keyed ⟨_, identity, phase⟩ admits sound hrun
  | accept confirmation clock => cases hkey
  | complete confirmationId draws => cases hkey
  | process confirmation receivedAt clock draws => cases hkey
  | recover limit draws => cases hkey
  | expire now limit hex => cases hkey

end Clients

end PaymentLab
