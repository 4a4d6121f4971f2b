import PaymentLab.Runs.Reachable

/-!
# Calls one at a time

The transactions of a call, run back to back by one client, are the source function of the call
(`Client.runs_call`). So whatever a sequence of source functions leads to is the end of an execution
(`Execution.call`), and what holds along executions holds of the service functions.

This is what ties the transaction-wise model to the source: the transactions are not written a
second time but are blocks of the source functions, and put together they are the functions, results
and exceptions included. A witness runs the source functions and is then known to be an execution.
-/

namespace PaymentLab

open Relational Transactional Transactional.Service

/-- The source function a request calls. -/
def Request.call (sha256 : String → String) : Request → Service Answer
  | .authorize command key failurePoint clock draws => do
    return .payment (← authorizePayment sha256 command key failurePoint clock draws)
  | .capture paymentId key failurePoint claimedAt now draws => do
    return .payment (← capturePayment sha256 paymentId key failurePoint claimedAt now draws)
  | .cancel paymentId key failurePoint claimedAt now draws => do
    return .payment (← cancelPayment sha256 paymentId key failurePoint claimedAt now draws)
  | .refund paymentId amount key failurePoint claimedAt now draws => do
    return .payment (← refundPayment sha256 paymentId amount key failurePoint claimedAt now draws)
  | .accept command clock => do return .accepted (← acceptConfirmation sha256 command clock)
  | .complete confirmationId draws => do
    return .confirmation (← completeConfirmation sha256 confirmationId draws)
  | .process command receivedAt clock draws => do
    return .confirmation (← processConfirmation sha256 command receivedAt clock draws)
  | .recover limit draws => do
    return .identities (← recoverPendingConfirmations sha256 limit draws)
  | .expire now limit hex => do return .identities (← expireDuePayments now limit hex)

section Sequential

variable {sha256 : String → String} {request : Request} {identity : IdentityMap}
  {db : Database} {r : Except ServiceError Answer} {s' : DatabaseSession}

/-- The next transaction of a client, with no one in between. -/
def Acts (sha256 : String → String) (x y : Database × Client) : Prop :=
  ¬x.2.phase.Ended ∧ x.2.act sha256 x.1 = y

theorem ready_unfinished : ¬Phase.ready.Ended := id

theorem claiming_unfinished (claimedAt : Instant) : ¬(Phase.claiming claimedAt).Ended := id

theorem completing_unfinished (replayed : Bool) : ¬(Phase.completing replayed).Ended := id

theorem recovering_unfinished (ids todo : List String) : ¬(Phase.recovering ids todo).Ended := id

/-- One transaction, from the run of its program. -/
theorem acts_of_step {phase : Phase} {result : Except ServiceError Phase} (unfinished : ¬phase.Ended)
    (h : request.step sha256 phase (Session.start db identity) = (result, s')) :
    Acts sha256 (db, ⟨request, identity, phase⟩)
      (s'.committed, ⟨request, s'.identity, .ofResult result⟩) := ⟨unfinished, Client.act_eq h⟩

/-- A transaction that raises ends its call. -/
theorem acts_of_error {phase : Phase} {e : ServiceError} (unfinished : ¬phase.Ended)
    (h : request.step sha256 phase (Session.start db identity) = (.error e, s')) :
    Acts sha256 (db, ⟨request, identity, phase⟩)
      (s'.committed, ⟨request, s'.identity, .finished (.error e)⟩) := acts_of_step unfinished h

/-- A call of one transaction. -/
theorem runs_single {α : Type} {body : Service α} {answer : α → Answer}
    (step : request.step sha256 .ready = body >>= fun a => pure (.finished (.ok (answer a))))
    (h : (body >>= fun a => pure (answer a)) (Session.start db identity) = (r, s')) :
    Relation.ReflTransGen (Acts sha256) (db, ⟨request, identity, .ready⟩)
      (s'.committed, ⟨request, s'.identity, .finished r⟩) := by
  obtain ⟨a, hbody, rfl⟩ := bind_pure_cases h
  have hstep : request.step sha256 .ready (Session.start db identity) =
      (a.map fun a => .finished (.ok (answer a)), s') := by
    rw [step, bind_apply, hbody]
    cases a <;> rfl
  have hresult : Phase.ofResult (a.map fun a => .finished (.ok (answer a))) =
      .finished (a.map answer) := by cases a <;> rfl
  exact hresult ▸ .single (acts_of_step ready_unfinished hstep)

/-! ## Keyed calls -/

/-- A claim does not depend on whether a transaction has begun. -/
theorem insertClaim_begun (claim : IdempotencyRecord) (s : DatabaseSession) :
    insertClaim claim { s with begun := true } = insertClaim claim s := by
  rw [insertClaim_apply, insertClaim_apply]

/-- The lookup, and under a free key the claim: the two transactions of a keyed call. -/
theorem runs_claimed {key fingerprint operation : String} (claimedAt : Instant)
    {body : IdempotencyRecord → Service PaymentOutcome} {outcome : Except ServiceError PaymentOutcome}
    (first : request.step sha256 .ready (Session.start db identity) =
      lookUp key fingerprint claimedAt (Session.start db identity))
    (second : request.step sha256 (.claiming claimedAt) =
      attempt (newClaim key fingerprint operation claimedAt) body)
    (h : (claimIdempotencyKey key fingerprint operation claimedAt >>= fun result =>
      match result with
      | .replayed snapshot => pure (PaymentOutcome.replay snapshot)
      | .claimed claim => rollbackOnError (body claim)) (Session.start db identity) = (outcome, s')) :
    Relation.ReflTransGen (Acts sha256) (db, ⟨request, identity, .ready⟩)
      (s'.committed, ⟨request, s'.identity, .finished (outcome.map .payment)⟩) := by
  obtain ⟨found, s₁, hfind⟩ :
      ∃ found s₁, findIdempotentSnapshot key fingerprint (Session.start db identity) = (found, s₁) :=
    ⟨_, _, rfl⟩
  obtain ⟨rfl, ⟨hfree, rfl⟩ | ⟨record, _, ⟨e, rfl, _⟩ | ⟨snapshot, rfl, _⟩⟩⟩ := find_cases hfind
  · -- a free key: the claim is won, and the guarded body is the second transaction
    have hlookUp : lookUp key fingerprint claimedAt (Session.start db identity) =
        (.ok (.claiming claimedAt), { Session.start db identity with begun := true }) :=
      bind_ok hfind
    obtain ⟨s₂, hclaim, _, _, _⟩ := insertClaim_free (s := Session.start db identity)
      (newClaim key fingerprint operation claimedAt) rfl hfree
    have hwon : claimIdempotencyKey key fingerprint operation claimedAt (Session.start db identity) =
        (.ok (.claimed (newClaim key fingerprint operation claimedAt)), s₂) := by
      unfold claimIdempotencyKey
      rw [bind_ok hfind]
      simp only [bind_ok ((insertClaim_begun _ _).trans hclaim), if_true]
      rfl
    rw [bind_ok hwon] at h
    have hattempt : request.step sha256 (.claiming claimedAt) (Session.start db identity) =
        (outcome.map fun o => .finished (.ok (.payment o)), s') := by
      rw [second]
      unfold attempt
      rw [bind_ok hclaim]
      simp only [if_true]
      have h : rollbackOnError (body (newClaim key fingerprint operation claimedAt)) s₂ =
        (outcome, s') := h
      rw [bind_apply, h]
      cases outcome <;> rfl
    have hresult : Phase.ofResult (outcome.map fun o => .finished (.ok (.payment o))) =
        .finished (outcome.map .payment) := by cases outcome <;> rfl
    refine .tail (.single (acts_of_step ready_unfinished (first.trans hlookUp))) ?_
    exact hresult ▸ acts_of_step (claiming_unfinished _) hattempt
  · -- a record that refuses the request
    have hlookUp : lookUp key fingerprint claimedAt (Session.start db identity) =
        (.error e, { Session.start db identity with begun := true }) := bind_error hfind
    have hraised : claimIdempotencyKey key fingerprint operation claimedAt
        (Session.start db identity) = (.error e, { Session.start db identity with begun := true }) :=
      bind_error hfind
    rw [bind_error hraised] at h
    cases h
    exact .single (acts_of_step ready_unfinished (first.trans hlookUp))
  · -- a record that replays
    have hlookUp : lookUp key fingerprint claimedAt (Session.start db identity) =
        (.ok (.finished (.ok (.payment (.replay snapshot)))),
          { Session.start db identity with begun := true }) := bind_ok hfind
    have hreplayed : claimIdempotencyKey key fingerprint operation claimedAt
        (Session.start db identity) =
          (.ok (.replayed snapshot), { Session.start db identity with begun := true }) :=
      bind_ok hfind
    rw [bind_ok hreplayed] at h
    cases h
    exact .single (acts_of_step ready_unfinished (first.trans hlookUp))

/-! ## Confirmations and recovery -/

/-- A completion does not depend on what the session held before. -/
theorem completeConfirmation_start (confirmationId : String) (draws : Draws) (s : DatabaseSession)
    (m : IdentityMap) :
    completeConfirmation sha256 confirmationId draws (Session.start s.committed m) =
      completeConfirmation sha256 confirmationId draws s := rfl

/-- The receipts of a recovery, one transaction each. -/
theorem runs_completeEach {limit : Int} {draws : String → Draws} {ids : List String} :
    ∀ {todo : List String} {s : DatabaseSession} {result : Except ServiceError Unit},
      completeEach sha256 draws todo s = (result, s') →
      Relation.ReflTransGen (Acts sha256)
        (s.committed, ⟨.recover limit draws, s.identity, .recovering ids todo⟩)
        (s'.committed, ⟨.recover limit draws, s'.identity,
          .finished (result.map fun _ => .identities ids)⟩) := by
  intro todo
  induction todo with
  | nil =>
    intro s result h
    cases h
    exact .single (acts_of_step (recovering_unfinished _ _) rfl)
  | cons confirmationId todo ih =>
    intro s result h
    rcases bind_cases h with ⟨e, hcomplete, rfl⟩ | ⟨outcome, s₁, hcomplete, hrest⟩
    · have hstep : Request.step sha256 (.recover limit draws)
          (.recovering ids (confirmationId :: todo)) (Session.start s.committed s.identity) =
          (.error e, s') :=
        bind_error ((completeConfirmation_start confirmationId _ s _).trans hcomplete)
      exact .single (acts_of_step (recovering_unfinished _ _) hstep)
    · have hstep : Request.step sha256 (.recover limit draws)
          (.recovering ids (confirmationId :: todo)) (Session.start s.committed s.identity) =
          (.ok (.recovering ids todo), s₁) :=
        bind_ok ((completeConfirmation_start confirmationId _ s _).trans hcomplete)
      exact .head (acts_of_step (recovering_unfinished _ _) hstep) (ih hrest)

/-- The two transactions of a processed confirmation. -/
theorem runs_process {command : ConfirmationCommand} {receivedAt clock : Option Datetime}
    {draws : Draws} {outcome : Except ServiceError ConfirmationOutcome}
    (h : processConfirmation sha256 command receivedAt clock draws (Session.start db identity) =
      (outcome, s')) :
    Relation.ReflTransGen (Acts sha256)
      (db, ⟨.process command receivedAt clock draws, identity, .ready⟩)
      (s'.committed, ⟨.process command receivedAt clock draws, s'.identity,
        .finished (outcome.map .confirmation)⟩) := by
  rcases bind_cases h with ⟨e, hclock, rfl⟩ | ⟨received, s₁, hclock, hrest⟩
  · exact .single (acts_of_error ready_unfinished (bind_error hclock))
  · rcases bind_cases hrest with ⟨e, haccept, rfl⟩ | ⟨replayed, s₂, haccept, hrest'⟩
    · exact .single (acts_of_error ready_unfinished
        ((bind_ok hclock).trans (bind_error haccept)))
    · refine .head (acts_of_step ready_unfinished ((bind_ok hclock).trans (bind_ok haccept))) ?_
      obtain ⟨completed, hcomplete, rfl⟩ := bind_pure_cases hrest'
      have hstart : processCompletion sha256 command.confirmationId draws
          (Session.start s₂.committed s₂.identity) = (completed, s') := hcomplete
      have hstep : Request.step sha256 (.process command receivedAt clock draws)
          (.completing replayed) (Session.start s₂.committed s₂.identity) =
          (completed.map fun outcome => .finished (.ok (.confirmation
            { confirmation := outcome.confirmation
              replayed := replayed || outcome.replayed })), s') := by
        unfold Request.step
        simp only
        rw [bind_apply, hstart]
        cases completed <;> rfl
      refine .single ?_
      cases completed <;> exact acts_of_step (completing_unfinished _) hstep

/-- **The transactions of a call, back to back, are the source function.** -/
theorem Client.runs_call (h : request.call sha256 (Session.start db identity) = (r, s')) :
    Relation.ReflTransGen (Acts sha256) (db, ⟨request, identity, .ready⟩)
      (s'.committed, ⟨request, s'.identity, .finished r⟩) := by
  cases request with
  | authorize command key failurePoint clock draws =>
    obtain ⟨outcome, hcall, rfl⟩ := bind_pure_cases h
    cases clock with
    | naive wall =>
      cases hcall
      exact .single (acts_of_step ready_unfinished rfl)
    | aware now => exact runs_claimed now rfl rfl hcall
  | capture paymentId key failurePoint claimedAt now draws =>
    obtain ⟨outcome, hcall, rfl⟩ := bind_pure_cases h
    exact runs_claimed claimedAt rfl rfl hcall
  | refund paymentId amount key failurePoint claimedAt now draws =>
    obtain ⟨outcome, hcall, rfl⟩ := bind_pure_cases h
    exact runs_claimed claimedAt rfl rfl hcall
  | cancel paymentId key failurePoint claimedAt now draws => exact runs_single rfl h
  | accept command clock => exact runs_single rfl h
  | complete confirmationId draws => exact runs_single rfl h
  | expire now limit hex => exact runs_single rfl h
  | process command receivedAt clock draws =>
    obtain ⟨outcome, hcall, rfl⟩ := bind_pure_cases h
    exact runs_process hcall
  | recover limit draws =>
    obtain ⟨ids, hcall, rfl⟩ := bind_pure_cases h
    rcases bind_cases hcall with ⟨e, hselect, rfl⟩ | ⟨selected, s₁, hselect, hrest⟩
    · exact .single (acts_of_error ready_unfinished (bind_error hselect))
    · obtain ⟨done, heach, rfl⟩ := bind_pure_cases hrest
      refine .head (acts_of_step ready_unfinished (bind_ok hselect)) ?_
      cases done <;> exact runs_completeEach heach

end Sequential

/-! ## Executions of one client -/

section Alone

variable {sha256 : String → String} {db db' : Database} {client after : Client}
  {ts : List (Pool.Transition Database Unit (Option Client))}

/-- One client on a database. -/
def alone (db : Database) (client : Client) : Pool.World Database Unit (Option Client) :=
  { shared := db, threads := fun _ => some client }

/-- A step of the one client. -/
theorem run_alone (h : Client.Step sha256 db client db' after) :
    Pool.Run (System sha256) (alone db client) [⟨(), db, some client, db', some after⟩]
      (alone db' after) := by
  have run := Pool.Run.single (P := System sha256) (w := alone db client)
    (t := ⟨(), db, some client, db', some after⟩) ⟨rfl, rfl, .thread h⟩
  have hworld : (alone db client).apply ⟨(), db, some client, db', some after⟩ = alone db' after :=
    Pool.World.ext rfl (funext fun _ => Pool.World.apply_threads_self (alone db client)
      ⟨(), db, some client, db', some after⟩)
  rwa [hworld] at run

/-- The transactions of a call of one client among others, beside any environment. -/
theorem runs_acts {ι : Type} [DecidableEq ι] {R : Database → Database → Prop}
    {w : Pool.World Database ι (Option Client)} {i : ι} (hi : w.threads i = some client)
    (acts : Relation.ReflTransGen (Acts sha256) (w.shared, client) (db', after)) :
    ∃ ts v, Pool.Run (Pool.Beside R (Client.Step sha256)) w ts v ∧ v.shared = db' ∧
      v.threads i = some after ∧ ∀ j, j ≠ i → v.threads j = w.threads j := by
  generalize hy : (db', after) = y at acts
  induction acts generalizing db' after with
  | refl =>
    cases hy
    exact ⟨[], w, .nil w, rfl, hi, fun _ _ => rfl⟩
  | @tail y z _ step ih =>
    obtain ⟨unfinished, hact⟩ := step
    cases hy
    obtain ⟨ts, v, run, hshared, hthread, hothers⟩ := @ih y.1 y.2 rfl
    let t : Pool.Transition Database ι (Option Client) := ⟨i, y.1, some y.2, db', some after⟩
    have enabled : Pool.Enabled (Pool.Beside R (Client.Step sha256)) v t :=
      ⟨hshared.symm, hthread.symm, .thread (.act unfinished hact)⟩
    refine ⟨ts ++ [t], v.apply t, run.snoc enabled, rfl, v.apply_threads_self t, fun j hj => ?_⟩
    exact (v.apply_threads_of_ne t hj).trans (hothers j hj)

/-- The transactions of a call, as an execution. -/
theorem Execution.acts (h : Execution sha256 ts (alone db client))
    (acts : Relation.ReflTransGen (Acts sha256) (db, client) (db', after)) :
    ∃ ts', Execution sha256 ts' (alone db' after) := by
  generalize hx : (db, client) = x at acts
  generalize hy : (db', after) = y at acts
  induction acts generalizing db' after with
  | refl =>
    cases hx.trans hy.symm
    exact ⟨ts, h⟩
  | @tail y z _ step ih =>
    obtain ⟨unfinished, hact⟩ := step
    cases hy
    obtain ⟨ts', reached⟩ := @ih y.1 y.2 rfl
    exact ⟨_, reached.append (run_alone (.act unfinished hact))⟩

/-- Calls one after another on one session, from a database and the objects loaded so far. -/
def Request.calls (sha256 : String → String) :
    List Request → Database × IdentityMap → Database × IdentityMap
  | [], x => x
  | request :: rest, (db, identity) =>
    let session := (request.call sha256 (Session.start db identity)).2
    Request.calls sha256 rest (session.committed, session.identity)

/-- Every call that follows an ended one continues the execution. -/
theorem Execution.call (h : Execution sha256 ts (alone db client)) (ended : client.phase.Ended)
    (rest : List Request) :
    ∃ ts' last, Execution sha256 ts'
      (alone (Request.calls sha256 rest (db, client.identity)).1 last) := by
  induction rest generalizing db client ts with
  | nil => exact ⟨ts, client, h⟩
  | cons request rest ih =>
    have begun := h.append (run_alone (.begin request ended))
    obtain ⟨ts', reached⟩ := begun.acts (Client.runs_call rfl)
    exact ih reached trivial

variable (sha256) in
/-- **What a sequence of source functions leads to from the empty store is the end of an
execution.** -/
theorem Execution.of_calls (first : Request) (rest : List Request) :
    ∃ ts last, Execution sha256 ts
      (alone (Request.calls sha256 (first :: rest) (.empty, ∅)).1 last) := by
  have start : Execution sha256 [] (alone .empty ⟨first, ∅, .ready⟩) :=
    .nil ⟨rfl, fun _ _ h => by cases h; exact ⟨rfl, rfl⟩⟩
  obtain ⟨ts, reached⟩ := start.acts (Client.runs_call rfl)
  exact reached.call trivial rest

end Alone

end PaymentLab
