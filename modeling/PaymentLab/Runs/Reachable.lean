import PaymentLab.Runs.Keyed

/-!
# Runs of the system

What any transaction of any call commits (`Client.act_commits`), and from it what every run keeps:
the sessions hold versions of stored payments, and the store satisfies any invariant that each single
effect keeps (`Execution.invariant`). An execution begins on the empty store; a service started on any
other store, such as an upgraded one, makes the same moves (`Started.moves`).

`Execution` is what the laws quantify over. It fixes neither the number of clients nor their
requests, nor any order, and what happens beside the clients is only bounded by `Background`. The
induction over a run is used once, in `Execution.invariant` and its companions; the laws state what
one effect keeps and get the rest from there.
-/

namespace PaymentLab

open Relational Transactional Transactional.Service

/-! ## What a call may commit -/

/-- The calls that accept a confirmation, alone or with its completion. -/
def Request.Accepts (command : ConfirmationCommand) : Request → Prop
  | .accept accepted _ => accepted = command
  | .process accepted _ _ _ => accepted = command
  | _ => False

/-- The calls that complete receipts, one or all that are pending. -/
def Request.Completes : Request → Prop
  | .complete .. | .process .. | .recover .. => True
  | _ => False

/-- The calls that expire payments. -/
def Request.Sweeps : Request → Prop
  | .expire .. => True
  | _ => False

/-- What one transaction of a request commits. -/
inductive Commits (sha256 : String → String) (request : Request) (db db' : Database) : Prop
  | nothing : db' = db → Commits sha256 request db db'
  | keyed {key : String} {command : KeyedCommand} {payment : PaymentRecord} :
      request.keyed = some (key, command) → KeyedEffect sha256 key command payment db db' →
      Commits sha256 request db db'
  | received {command : ConfirmationCommand} : request.Accepts command →
      Received sha256 command db db' → Commits sha256 request db db'
  | settled {receipt : ConfirmationReceiptRecord} {disposition : ConfirmationDisposition} :
      request.Completes → Settled sha256 receipt disposition db db' → Commits sha256 request db db'
  | swept : request.Sweeps → Relation.ReflTransGen ExpiresOne db db' →
      Commits sha256 request db db'

/-- A request under a key is neither a confirmation nor an expiry. -/
theorem Request.keyed_only {request : Request} {keyed : String × KeyedCommand}
    (h : request.keyed = some keyed) :
    (∀ command, ¬request.Accepts command) ∧ ¬request.Completes ∧ ¬request.Sweeps := by
  cases request with
  | authorize => exact ⟨fun _ => id, id, id⟩
  | capture => exact ⟨fun _ => id, id, id⟩
  | cancel => exact ⟨fun _ => id, id, id⟩
  | refund => exact ⟨fun _ => id, id, id⟩
  | accept => cases h
  | complete => cases h
  | process => cases h
  | recover => cases h
  | expire => cases h

/-- A request under a key commits the effect of its command, or nothing. -/
theorem Commits.of_keyed {sha256 : String → String} {request : Request} {db db' : Database}
    {key : String} {command : KeyedCommand} (h : Commits sha256 request db db')
    (hkey : request.keyed = some (key, command)) :
    db' = db ∨ ∃ payment, KeyedEffect sha256 key command payment db db' := by
  obtain ⟨noAccept, noComplete, noSweep⟩ := Request.keyed_only hkey
  cases h with
  | nothing same => exact .inl same
  | keyed hkeyed h =>
    cases hkey.symm.trans hkeyed
    exact .inr ⟨_, h⟩
  | received accepts _ => exact absurd accepts (noAccept _)
  | settled completes _ => exact absurd completes noComplete
  | swept sweeps _ => exact absurd sweeps noSweep

/-- A commit is a sequence of effects: none, one, or the expiries of one batch. -/
theorem Commits.effects {sha256 : String → String} {request : Request} {db db' : Database}
    (h : Commits sha256 request db db') : Relation.ReflTransGen (Effect sha256) db db' := by
  cases h with
  | nothing h => rw [h]
  | keyed _ h => exact .single h.effect
  | received _ h => exact .single (.received h)
  | settled _ h => exact .single (.settled h)
  | swept _ h => exact Relation.ReflTransGen.mono (fun _ _ ⟨_, _, h⟩ => .expired h) _ _ h

/-- What every effect keeps, a sequence of them keeps. -/
theorem effects_keep {sha256 : String → String} {I : Database → Prop}
    (effect : ∀ {db db' : Database}, I db → Effect sha256 db db' → I db') {db db' : Database}
    (h : Relation.ReflTransGen (Effect sha256) db db') (hdb : I db) : I db' := by
  induction h with
  | refl => exact hdb
  | tail _ h ih => exact effect ih h

theorem effects_grow {sha256 : String → String} {db db' : Database}
    (h : Relation.ReflTransGen (Effect sha256) db db') : Grows db db' := by
  induction h with
  | refl => exact .refl _
  | tail _ h ih => exact ih.trans h.grows

/-- One transaction of a client: what it commits, and the client it leaves. -/
structure ActResult (sha256 : String → String) (client : Client) (db db' : Database)
    (after : Client) : Prop where
  commits : Commits sha256 client.request db db'
  sound : Sound db' after.identity
  request : after.request = client.request
  admits : after.request.Admits after.phase
  failed : ∀ e, after.phase = .finished (.error e) →
    client.request.keyed = none ∨ e ≠ .simulatedPaymentTimeout .afterCommit → db' = db

/-! ## One transaction -/

section Act

variable {sha256 : String → String} {client : Client} {db : Database}

/-- The phase after a transaction of a keyed request is one of its own. -/
theorem KeyedAct.admits {key : String} {command : KeyedCommand} {request : Request}
    {db db' : Database} {phase phase' : Phase}
    (admitted : ∀ claimedAt, request.Admits (.claiming claimedAt) ∧ request.Admits .rereading)
    (h : KeyedAct sha256 key command request db db' phase phase') : request.Admits phase' := by
  cases h with
  | clock => exact .inl trivial
  | answered => exact .inl trivial
  | lost _ _ _ => exact (admitted 0).2
  | free _ _ _ => exact (admitted _).1
  | executed => exact .inl trivial

/-- What a transaction of a keyed request commits. -/
theorem KeyedAct.commits {key : String} {command : KeyedCommand} {request : Request}
    {db db' : Database} {phase phase' : Phase} (hkey : request.keyed = some (key, command))
    (h : KeyedAct sha256 key command request db db' phase phase') :
    Commits sha256 request db db' := by
  cases h with
  | clock _ _ same => exact .nothing same
  | answered _ same => exact .nothing same
  | lost _ same _ => exact .nothing same
  | free _ same _ => exact .nothing same
  | executed _ h =>
    rcases h with ⟨same, _⟩ | ⟨payment, h, _⟩
    · exact .nothing same
    · exact .keyed hkey h

/-- A keyed call that fails has written nothing, unless it fails after its commit. -/
theorem KeyedAct.failed {key : String} {command : KeyedCommand} {request : Request}
    {db db' : Database} {phase : Phase} {e : ServiceError}
    (h : KeyedAct sha256 key command request db db' phase (.finished (.error e)))
    (he : e ≠ .simulatedPaymentTimeout .afterCommit) : db' = db := by
  generalize hphase : Phase.finished (.error e) = phase' at h
  cases h with
  | clock _ _ same => exact same
  | answered _ same => exact same
  | lost => cases hphase
  | free => cases hphase
  | @executed r _ h =>
    rcases h with ⟨same, _⟩ | ⟨payment, _, rfl | rfl⟩
    · exact same
    · cases hphase
    · cases hphase
      exact absurd rfl he

/-- One transaction of a keyed request. -/
theorem Client.keyed_commits {key : String} {command : KeyedCommand}
    (hkey : client.request.keyed = some (key, command))
    (admits : client.request.Admits client.phase) (unfinished : ¬client.phase.Ended)
    (sound : Sound db client.identity) :
    ActResult sha256 client db (client.act sha256 db).1 (client.act sha256 db).2 := by
  obtain ⟨hact, hsound⟩ := Client.keyed_act sha256 hkey admits unfinished sound
  refine ⟨hact.commits hkey, hsound, rfl, ?_, fun e he hne => ?_⟩
  · show client.request.Admits (client.act sha256 db).2.phase
    obtain ⟨request, identity, phase⟩ := client
    cases request with
    | authorize => exact hact.admits fun _ => ⟨.inr (.inr (.inl ⟨_, rfl⟩)), .inr (.inr (.inr rfl))⟩
    | capture => exact hact.admits fun _ => ⟨.inr (.inr (.inl ⟨_, rfl⟩)), .inr (.inr (.inr rfl))⟩
    | refund => exact hact.admits fun _ => ⟨.inr (.inr (.inl ⟨_, rfl⟩)), .inr (.inr (.inr rfl))⟩
    | cancel paymentId k failurePoint claimedAt now draws =>
      -- a cancellation is one transaction, and ends with it
      rcases admits.resolve_left unfinished with rfl | hfalse
      · obtain ⟨r, s', hrun⟩ : ∃ r s',
            (Request.cancel paymentId k failurePoint claimedAt now draws).step sha256 .ready
              (Session.start db identity) = (r, s') := ⟨_, _, rfl⟩
        rw [Client.act_eq hrun]
        obtain ⟨outcome, _, rfl⟩ := bind_pure_cases hrun
        cases outcome <;> exact .inl trivial
      · exact hfalse.elim
    | accept => cases hkey
    | complete => cases hkey
    | process => cases hkey
    | recover => cases hkey
    | expire => cases hkey
  · rw [he] at hact
    exact hact.failed (hne.resolve_left (by rw [hkey]; exact nofun))

/-- What an acceptance commits in a session, as a commit of a request that accepts. -/
theorem accepts_commits (request : Request) {command : ConfirmationCommand}
    (accepts : request.Accepts command) {clock : Datetime} {identity : IdentityMap}
    {r : Except ServiceError Bool} {s' : DatabaseSession}
    (h : acceptConfirmation sha256 command clock (Session.start db identity) = (r, s')) :
    Commits sha256 request db s'.committed ∧ Sound s'.committed s'.identity ∧
      ((∃ e, r = .error e) → s'.committed = db) := by
  obtain ⟨hidentity, hcases⟩ := acceptConfirmation_cases h
  have hsound : Sound s'.committed s'.identity := by
    rw [hidentity]
    exact sound_empty _
  rcases hcases with ⟨_, _, hsame, _⟩ | ⟨_, ⟨hr, hreceived⟩ | ⟨_, hsame⟩⟩
  · exact ⟨.nothing hsame, hsound, fun _ => hsame⟩
  · exact ⟨.received accepts hreceived, hsound, fun ⟨_, he⟩ => nomatch hr.symm.trans he⟩
  · exact ⟨.nothing hsame, hsound, fun _ => hsame⟩

/-- One transaction of an acceptance. -/
theorem Client.accept_commits {command : ConfirmationCommand} {clock : Datetime}
    {identity : IdentityMap} :
    ActResult sha256 ⟨.accept command clock, identity, .ready⟩ db
      (Client.act sha256 ⟨.accept command clock, identity, .ready⟩ db).1
      (Client.act sha256 ⟨.accept command clock, identity, .ready⟩ db).2 := by
  obtain ⟨r, s', hrun⟩ : ∃ r s',
      (Request.accept command clock).step sha256 .ready (Session.start db identity) = (r, s') :=
    ⟨_, _, rfl⟩
  rw [Client.act_eq hrun]
  obtain ⟨accepted, haccept, rfl⟩ := bind_pure_cases hrun
  obtain ⟨hcommits, hsound, hfailed⟩ :=
    accepts_commits (.accept command clock) rfl haccept
  refine ⟨hcommits, hsound, rfl, ?_, fun e he _ => ?_⟩
  · cases accepted <;> exact .inl trivial
  · cases accepted with
    | ok => cases he
    | error e => exact hfailed ⟨e, rfl⟩

/-- What a completion commits in a session, as a commit of a request that completes. -/
theorem completes_commits (request : Request) (completes : request.Completes)
    {confirmationId : String} {draws : Draws} {identity : IdentityMap}
    {r : Except ServiceError ConfirmationOutcome} {s' : DatabaseSession}
    (h : completeConfirmation sha256 confirmationId draws (Session.start db identity) = (r, s')) :
    Commits sha256 request db s'.committed ∧ Sound s'.committed s'.identity ∧
      ((∃ e, r = .error e) → s'.committed = db) := by
  obtain ⟨hidentity, hcases⟩ := completeConfirmation_cases h
  have hsound : Sound s'.committed s'.identity := by
    rw [hidentity]
    exact sound_empty _
  rcases hcases with ⟨_, hsame⟩ | ⟨_, _, hsame, _⟩ | ⟨_, _, _, hsettled, hr⟩
  · exact ⟨.nothing hsame, hsound, fun _ => hsame⟩
  · exact ⟨.nothing hsame, hsound, fun _ => hsame⟩
  · exact ⟨.settled completes hsettled, hsound, fun ⟨_, he⟩ => nomatch hr.symm.trans he⟩

/-- One transaction of a completion. -/
theorem Client.complete_commits {confirmationId : String} {draws : Draws} {identity : IdentityMap} :
    ActResult sha256 ⟨.complete confirmationId draws, identity, .ready⟩ db
      (Client.act sha256 ⟨.complete confirmationId draws, identity, .ready⟩ db).1
      (Client.act sha256 ⟨.complete confirmationId draws, identity, .ready⟩ db).2 := by
  obtain ⟨r, s', hrun⟩ : ∃ r s', (Request.complete confirmationId draws).step sha256 .ready
    (Session.start db identity) = (r, s') := ⟨_, _, rfl⟩
  rw [Client.act_eq hrun]
  obtain ⟨outcome, hcomplete, rfl⟩ := bind_pure_cases hrun
  obtain ⟨hcommits, hsound, hfailed⟩ :=
    completes_commits (.complete confirmationId draws) trivial hcomplete
  refine ⟨hcommits, hsound, rfl, ?_, fun e he _ => ?_⟩
  · cases outcome <;> exact .inl trivial
  · cases outcome with
    | ok => cases he
    | error e => exact hfailed ⟨e, rfl⟩

/-- The choice of the clock touches nothing. -/
theorem processingClock_session {receivedAt clock : Option Datetime} {s s' : DatabaseSession}
    {r : Except ServiceError Datetime} (h : processingClock receivedAt clock s = (r, s')) :
    s' = s := by
  unfold processingClock at h
  split at h
  · cases h
    rfl
  · next receivedAt => cases receivedAt <;> cases h <;> rfl
  · cases h
    rfl

/-- The acceptance half of a processed confirmation. -/
theorem Client.process_accepts {command : ConfirmationCommand}
    {receivedAt clock : Option Datetime} {draws : Draws} {identity : IdentityMap}
    (sound : Sound db identity) :
    ActResult sha256 ⟨.process command receivedAt clock draws, identity, .ready⟩ db
      (Client.act sha256 ⟨.process command receivedAt clock draws, identity, .ready⟩ db).1
      (Client.act sha256 ⟨.process command receivedAt clock draws, identity, .ready⟩ db).2 := by
  obtain ⟨r, s', hrun⟩ : ∃ r s', (Request.process command receivedAt clock draws).step sha256 .ready
    (Session.start db identity) = (r, s') := ⟨_, _, rfl⟩
  rw [Client.act_eq hrun]
  rcases bind_cases hrun with ⟨e, hclock, rfl⟩ | ⟨received, s₁, hclock, hrest⟩
  · rw [processingClock_session hclock]
    exact ⟨.nothing rfl, sound, rfl, .inl trivial, fun _ _ _ => rfl⟩
  · rw [processingClock_session hclock] at hrest
    obtain ⟨accepted, hprocess, rfl⟩ := bind_pure_cases hrest
    obtain ⟨r₁, s₂, haccept, hsame, hloaded, hr⟩ := processAcceptance_cases hprocess
    obtain ⟨hcommits, hsound, hfailed⟩ :=
      accepts_commits (.process command receivedAt clock draws) rfl haccept
    rw [← hsame] at hcommits hfailed
    refine ⟨hcommits, hsound.of_guard hsame hloaded, rfl, ?_, fun e he _ => ?_⟩
    · cases accepted with
      | ok replayed => exact .inr (.inr ⟨replayed, rfl⟩)
      | error => exact .inl trivial
    · cases accepted with
      | ok => cases he
      | error e =>
        rcases hr with rfl | ⟨e, rfl, _⟩
        · exact hfailed ⟨e, rfl⟩
        · exact hfailed ⟨e, rfl⟩

/-- The completion half of a processed confirmation. -/
theorem Client.process_completes {command : ConfirmationCommand}
    {receivedAt clock : Option Datetime} {draws : Draws} {identity : IdentityMap}
    {replayed : Bool} :
    ActResult sha256 ⟨.process command receivedAt clock draws, identity, .completing replayed⟩ db
      (Client.act sha256
        ⟨.process command receivedAt clock draws, identity, .completing replayed⟩ db).1
      (Client.act sha256
        ⟨.process command receivedAt clock draws, identity, .completing replayed⟩ db).2 := by
  obtain ⟨r, s', hrun⟩ : ∃ r s', (Request.process command receivedAt clock draws).step sha256
    (.completing replayed) (Session.start db identity) = (r, s') := ⟨_, _, rfl⟩
  rw [Client.act_eq hrun]
  obtain ⟨outcome, hprocess, rfl⟩ := bind_pure_cases hrun
  obtain ⟨r₁, hcomplete, hr⟩ := processCompletion_cases hprocess
  obtain ⟨hcommits, hsound, hfailed⟩ :=
    completes_commits (.process command receivedAt clock draws) trivial hcomplete
  refine ⟨hcommits, hsound, rfl, ?_, fun e he _ => ?_⟩
  · cases outcome <;> exact .inl trivial
  · cases outcome with
    | ok => cases he
    | error e =>
      rcases hr with rfl | ⟨he, _⟩
      · exact hfailed ⟨e, rfl⟩
      · exact hfailed he

/-- One transaction of a recovery: the selection, or the completion of one receipt. -/
theorem Client.recover_commits {limit : Int} {draws : String → Draws} {identity : IdentityMap}
    {phase : Phase} (sound : Sound db identity)
    (admits : phase = .ready ∨ ∃ ids todo, phase = .recovering ids todo) :
    ActResult sha256 ⟨.recover limit draws, identity, phase⟩ db
      (Client.act sha256 ⟨.recover limit draws, identity, phase⟩ db).1
      (Client.act sha256 ⟨.recover limit draws, identity, phase⟩ db).2 := by
  obtain ⟨r, s', hrun⟩ : ∃ r s', (Request.recover limit draws).step sha256 phase
    (Session.start db identity) = (r, s') := ⟨_, _, rfl⟩
  rw [Client.act_eq hrun]
  rcases admits with rfl | ⟨ids, todo, rfl⟩
  · obtain ⟨selected, hselect, rfl⟩ := bind_pure_cases hrun
    obtain ⟨hsame, hidentity⟩ := selectPending_cases hselect
    have hsound : Sound s'.committed s'.identity := by
      rw [hsame]
      rcases hidentity with hkept | hempty
      · rw [hkept]
        exact sound
      · rw [hempty]
        exact sound_empty _
    refine ⟨.nothing hsame, hsound, rfl, ?_, fun _ _ _ => hsame⟩
    cases selected with
    | ok ids => exact .inr (.inr ⟨_, _, rfl⟩)
    | error => exact .inl trivial
  · cases todo with
    | nil =>
      cases hrun
      exact ⟨.nothing rfl, sound, rfl, .inl trivial, nofun⟩
    | cons confirmationId todo =>
      obtain ⟨outcome, hcomplete, rfl⟩ := bind_pure_cases hrun
      obtain ⟨hcommits, hsound, hfailed⟩ :=
        completes_commits (.recover limit draws) trivial hcomplete
      refine ⟨hcommits, hsound, rfl, ?_, fun e he _ => ?_⟩
      · cases outcome with
        | ok => exact .inr (.inr ⟨_, _, rfl⟩)
        | error => exact .inl trivial
      · cases outcome with
        | ok => cases he
        | error e => exact hfailed ⟨e, rfl⟩

/-- One transaction of a scheduled expiry. -/
theorem Client.expire_commits {now : Datetime} {limit : Int} {hex : String → String}
    {identity : IdentityMap} (sound : Sound db identity) :
    ActResult sha256 ⟨.expire now limit hex, identity, .ready⟩ db
      (Client.act sha256 ⟨.expire now limit hex, identity, .ready⟩ db).1
      (Client.act sha256 ⟨.expire now limit hex, identity, .ready⟩ db).2 := by
  obtain ⟨r, s', hrun⟩ : ∃ r s', (Request.expire now limit hex).step sha256 .ready
    (Session.start db identity) = (r, s') := ⟨_, _, rfl⟩
  rw [Client.act_eq hrun]
  obtain ⟨ids, hexpire, rfl⟩ := bind_pure_cases hrun
  obtain ⟨hidentity, hcases⟩ := expireDuePayments_cases hexpire
  have hcommits : Commits sha256 (.expire now limit hex) db s'.committed ∧
      ((∃ e, ids = .error e) → s'.committed = db) := by
    rcases hcases with ⟨_, hsame⟩ | ⟨⟨_, hr⟩, hswept⟩
    · exact ⟨.nothing hsame, fun _ => hsame⟩
    · exact ⟨.swept trivial hswept, fun ⟨_, he⟩ => nomatch hr.symm.trans he⟩
  refine ⟨hcommits.1, ?_, rfl, ?_, fun e he _ => ?_⟩
  · show Sound s'.committed s'.identity
    rcases hidentity with hkept | hempty
    · rw [hkept]
      exact sound.grows (effects_grow hcommits.1.effects)
    · rw [hempty]
      exact sound_empty _
  · cases ids <;> exact .inl trivial
  · cases ids with
    | ok => cases he
    | error e => exact hcommits.2 ⟨_, rfl⟩

variable (sha256) in
/-- **One transaction of a client**: it commits what its request may commit, and leaves the client in
a phase of its call, its session holding versions of stored payments. -/
theorem Client.act_commits (admits : client.request.Admits client.phase)
    (unfinished : ¬client.phase.Ended) (sound : Sound db client.identity) :
    ActResult sha256 client db (client.act sha256 db).1 (client.act sha256 db).2 := by
  cases hkeyed : client.request.keyed with
  | some keyed => exact Client.keyed_commits hkeyed admits unfinished sound
  | none =>
    obtain ⟨request, identity, phase⟩ := client
    have admits := admits.resolve_left unfinished
    cases request with
    | authorize => cases hkeyed
    | capture => cases hkeyed
    | cancel => cases hkeyed
    | refund => cases hkeyed
    | accept =>
      rcases admits with rfl | hfalse
      · exact Client.accept_commits
      · exact hfalse.elim
    | complete =>
      rcases admits with rfl | hfalse
      · exact Client.complete_commits
      · exact hfalse.elim
    | process =>
      rcases admits with rfl | ⟨replayed, rfl⟩
      · exact Client.process_accepts sound
      · exact Client.process_completes
    | recover => exact Client.recover_commits sound admits
    | expire =>
      rcases admits with rfl | hfalse
      · exact Client.expire_commits sound
      · exact hfalse.elim

end Act

/-! ## The system -/

/-- The service: any number of clients on one database, delivery and the merchant beside them. -/
def System (sha256 : String → String) : Pool.Protocol Database (Option Client) :=
  Pool.Beside Background (Client.Step sha256)

section System

variable {ι : Type} {sha256 : String → String}

/-- A start: the store is empty, no call has begun, nothing is loaded. -/
structure Initial (w : Pool.World Database ι (Option Client)) : Prop where
  empty : w.shared = .empty
  fresh : ∀ i client, w.threads i = some client → client.identity = ∅ ∧ client.phase = .ready

/-- What holds of every client: it is in a phase of its call, and its session holds versions of
stored payments. Both are kept by whatever other clients commit. -/
structure Client.Coherent (db : Database) (client : Client) : Prop where
  admits : client.request.Admits client.phase
  sound : Sound db client.identity

theorem Client.Coherent.grows {db db' : Database} {client : Client} (h : client.Coherent db)
    (g : Grows db db') : client.Coherent db' := ⟨h.admits, h.sound.grows g⟩

/-- What one transition of the service is, as the invariants need it: every invariant of a run is
derived from these cases. -/
inductive Moves (sha256 : String → String) (t : Pool.Transition Database ι (Option Client)) : Prop
  /-- delivery or the merchant acts -/
  | background : t.before = none → Background t.pre t.post → Moves sha256 t
  /-- a client begins a call, loads a payment or is interrupted -/
  | aside (client after : Client) : t.before = some client → t.after = some after →
      t.post = t.pre → (client.phase.Ended ∨ after.phase = client.phase ∨ after.phase = .interrupted) →
      Moves sha256 t
  /-- a client runs the next transaction of its call -/
  | acted (client : Client) : t.before = some client → client.Coherent t.pre →
      ¬client.phase.Ended → t.post = (client.act sha256 t.pre).1 →
      t.after = some (client.act sha256 t.pre).2 → Moves sha256 t

/-- What a transition commits is a sequence of effects. -/
theorem Moves.effects {t : Pool.Transition Database ι (Option Client)} (h : Moves sha256 t) :
    Relation.ReflTransGen (Effect sha256) t.pre t.post := by
  cases h with
  | background _ h => exact .single (.background h)
  | aside client after _ _ same _ => rw [same]
  | acted client _ coherent unfinished hpost _ =>
    rw [hpost]
    exact (Client.act_commits sha256 coherent.admits unfinished coherent.sound).commits.effects

/-- A move of a client, from a coherent client. -/
theorem Client.Step.moves {t : Pool.Transition Database ι (Option Client)} {client after : Client}
    (hbefore : t.before = some client) (hafter : t.after = some after)
    (coherent : client.Coherent t.pre) (h : Client.Step sha256 t.pre client t.post after) :
    Moves sha256 t ∧ after.Coherent t.post := by
  obtain ⟨i, pre, before, post, after'⟩ := t
  cases hbefore
  cases hafter
  cases h with
  | begin request ended =>
    exact ⟨.aside _ _ rfl rfl rfl (.inl ended), ⟨.inr (.inl rfl), coherent.sound⟩⟩
  | load stored =>
    exact ⟨.aside _ _ rfl rfl rfl (.inr (.inl rfl)),
      ⟨coherent.admits, coherent.sound.hold (held_of_stored stored)⟩⟩
  | act unfinished hact =>
    have result := Client.act_commits sha256 coherent.admits unfinished coherent.sound
    rw [hact] at result
    exact ⟨.acted _ rfl coherent unfinished (congrArg Prod.fst hact).symm
      (congrArg (some ∘ Prod.snd) hact).symm, ⟨result.admits, result.sound⟩⟩
  | interrupt unfinished =>
    exact ⟨.aside _ _ rfl rfl rfl (.inr (.inr rfl)), ⟨.inl trivial, coherent.sound⟩⟩

/-- A step of a coherent client leaves it coherent, and every other client too. -/
theorem system_establishes :
    Pool.Establishes (ι := ι) (System sha256) (fun _ => True) (Pool.Asserts Client.Coherent) := by
  refine Pool.Beside.establishes (fun _ _ _ _ => trivial) fun s client s' after _ coherent step => ?_
  exact ⟨trivial, (Client.Step.moves (t := ⟨(), s, some client, s', some after⟩) rfl rfl coherent
    step).2⟩

theorem system_nonInterfering :
    Pool.NonInterfering (ι := ι) (System sha256) (fun _ => True)
      (Pool.Asserts Client.Coherent) := by
  refine Pool.Beside.nonInterfering Grows
    (fun _ _ _ h => grows_of_same h.payments) (fun s client s' after _ coherent step => ?_)
    fun _ _ _ g coherent => coherent.grows g
  exact effects_grow (Client.Step.moves (t := ⟨(), s, some client, s', some after⟩) rfl rfl coherent
    step).1.effects

/-- The service as it starts on a store that is already there: no call has begun and no session has
loaded anything. Nothing is said of the store. -/
structure Started (db : Database) (w : Pool.World Database ι (Option Client)) : Prop where
  shared : w.shared = db
  fresh : ∀ i client, w.threads i = some client → client.identity = ∅ ∧ client.phase = .ready

theorem Initial.started {w : Pool.World Database ι (Option Client)} (h : Initial w) :
    Started .empty w := ⟨h.empty, h.fresh⟩

theorem Started.holds {db : Database} {w : Pool.World Database ι (Option Client)}
    (h : Started db w) : Pool.Holds (fun _ => True) (Pool.Asserts Client.Coherent) w := by
  refine ⟨trivial, fun i client hclient => ?_⟩
  obtain ⟨hidentity, hready⟩ := h.fresh i client hclient
  exact ⟨.inr (.inl hready), by rw [hidentity]; exact sound_empty _⟩

variable [DecidableEq ι]

section Started

variable {db : Database} {w v : Pool.World Database ι (Option Client)}
  {ts : List (Pool.Transition Database ι (Option Client))}

/-- **Every transition of a started service is a move.** -/
theorem Started.moves (h : Started db w) (run : Pool.Run (System sha256) w ts v)
    {t : Pool.Transition Database ι (Option Client)} (mem : t ∈ ts) : Moves sha256 t := by
  obtain ⟨_, asserts, step⟩ :=
    run.transition system_establishes system_nonInterfering h.holds mem
  obtain ⟨i, pre, before, post, after⟩ := t
  cases step with
  | environment h => exact .background rfl h
  | thread h => exact (Client.Step.moves (t := ⟨i, pre, _, post, _⟩) rfl rfl (asserts _ rfl) h).1

/-- What a started service has committed is a sequence of effects on the store it started on. -/
theorem Started.effects (h : Started db w) (run : Pool.Run (System sha256) w ts v) :
    Relation.ReflTransGen (Effect sha256) db v.shared := by
  induction run with
  | nil => rw [h.shared]
  | @snoc v ts t run enabled ih =>
    have moves : Moves sha256 t :=
      h.moves (run.snoc enabled) (List.mem_append_right _ (List.mem_singleton.mpr rfl))
    exact ih.trans (enabled.1 ▸ moves.effects)

end Started

/-- A store that the service reaches from another: some clients, with delivery and the merchant
beside them, start on the one and leave the other after finitely many transactions in any order. -/
def Reaches (sha256 : String → String) (db later : Database) : Prop :=
  ∃ (ι : Type) (_ : DecidableEq ι) (w v : Pool.World Database ι (Option Client))
    (ts : List (Pool.Transition Database ι (Option Client))),
    Started db w ∧ Pool.Run (System sha256) w ts v ∧ v.shared = later

omit [DecidableEq ι] in
theorem Reaches.effects {db later : Database} (h : Reaches sha256 db later) :
    Relation.ReflTransGen (Effect sha256) db later := by
  obtain ⟨_, _, _, _, _, started, run, rfl⟩ := h
  exact started.effects run

/-- An execution of the service: the steps it took from a start, and the world it reached. Any number
of clients, each with any calls, any order of their transactions, and delivery and the merchant in
between. -/
def Execution (sha256 : String → String) (ts : List (Pool.Transition Database ι (Option Client)))
    (v : Pool.World Database ι (Option Client)) : Prop :=
  ∃ w, Initial w ∧ Pool.Run (System sha256) w ts v

variable {ts us : List (Pool.Transition Database ι (Option Client))}
  {v u : Pool.World Database ι (Option Client)}

theorem Execution.append (h : Execution sha256 ts v) (k : Pool.Run (System sha256) v us u) :
    Execution sha256 (ts ++ us) u := by
  obtain ⟨w, initial, run⟩ := h
  exact ⟨w, initial, run.append k⟩

theorem Execution.nil {w : Pool.World Database ι (Option Client)} (h : Initial w) :
    Execution sha256 [] w := ⟨w, h, .nil w⟩

/-- **Every transition of an execution is a move.** -/
theorem Execution.moves (h : Execution sha256 ts v)
    {t : Pool.Transition Database ι (Option Client)} (mem : t ∈ ts) : Moves sha256 t := by
  obtain ⟨w, initial, run⟩ := h
  exact initial.started.moves run mem

/-- A transition of an execution splits it. -/
theorem Execution.split (h : Execution sha256 ts v)
    {t : Pool.Transition Database ι (Option Client)} (mem : t ∈ ts) :
    ∃ before after u, ts = before ++ t :: after ∧ Execution sha256 before u ∧ t.pre = u.shared ∧
      Pool.Run (System sha256) (u.apply t) after v := by
  obtain ⟨w, initial, run⟩ := h
  obtain ⟨before, after, u, hts, first, enabled, rest⟩ := run.split mem
  exact ⟨before, after, u, hts, ⟨w, initial, first⟩, enabled.1, rest⟩

/-- Induction along what follows an execution: each step is a move from the state reached. -/
theorem Execution.continues {P : List (Pool.Transition Database ι (Option Client)) → Database → Prop}
    (h : Execution sha256 ts v) (run : Pool.Run (System sha256) v us u) (start : P [] v.shared)
    (step : ∀ us t u, Execution sha256 (ts ++ us) u → t.pre = u.shared → Moves sha256 t →
      P us u.shared → P (us ++ [t]) t.post) : P us u.shared := by
  induction run with
  | nil => exact start
  | @snoc u us t run enabled ih =>
    have reached := h.append run
    have moves := (h.append (run.snoc enabled)).moves
      (List.mem_append_right _ (List.mem_append_right _ (List.mem_singleton.mpr rfl)))
    exact step us t u reached enabled.1 moves ih

/-- Induction along an execution. -/
theorem Execution.induction {P : List (Pool.Transition Database ι (Option Client)) → Database → Prop}
    (h : Execution sha256 ts v) (start : P [] .empty)
    (step : ∀ ts t v, Execution sha256 ts v → t.pre = v.shared → Moves sha256 t →
      P ts v.shared → P (ts ++ [t]) t.post) : P ts v.shared := by
  obtain ⟨w, initial, run⟩ := h
  refine (Execution.nil initial).continues run (initial.empty ▸ start) fun us t u reached => ?_
  exact step us t u reached

/-- What holds of the empty store and is kept by every effect holds of every store reached. -/
theorem Execution.invariant {I : Database → Prop} (empty : I .empty)
    (effect : ∀ {db db' : Database}, I db → Effect sha256 db db' → I db')
    (h : Execution sha256 ts v) : I v.shared := by
  refine h.induction (P := fun _ => I) empty fun _ t v _ hpre moves holds => ?_
  rw [← hpre] at holds
  exact effects_keep effect moves.effects holds

end System

/-! ## Accounts along executions -/

/-- What every store holds: rows belong to payments, and every account has lived from an opening. -/
structure Consistent (db : Database) : Prop where
  grounded : db.Grounded
  lived : ∀ id a, db.account id = some a → ∃ first steps, Account.Lived first a steps

theorem consistent_empty : Consistent .empty :=
  ⟨⟨fun _ mem => (nomatch mem), fun _ mem => (nomatch mem)⟩, fun _ _ h => (nomatch h)⟩

/-- **Every effect keeps the store consistent.** -/
theorem Effect.consistent {sha256 : String → String} {db db' : Database} (h : Consistent db)
    (e : Effect sha256 db db') : Consistent db' := by
  refine ⟨e.grounded h.grounded, fun id b hb => ?_⟩
  rcases e.account_cases h.grounded id with same | ⟨_, a, ha, hopen⟩ | ⟨step, a, c, ha, hc, _, ext⟩
  · exact h.lived id b (same ▸ hb)
  · cases ha.symm.trans hb
    exact ⟨b, [], .opened hopen⟩
  · cases hc.symm.trans hb
    obtain ⟨first, steps, lived⟩ := h.lived id a ha
    exact ⟨first, _, lived.extended ext⟩

theorem Execution.consistent {ι : Type} [DecidableEq ι] {sha256 : String → String}
    {ts : List (Pool.Transition Database ι (Option Client))}
    {v : Pool.World Database ι (Option Client)} (h : Execution sha256 ts v) :
    Consistent v.shared := h.invariant consistent_empty Effect.consistent

/-- The account of a stored payment, and the steps it lived through. -/
theorem Execution.lived {ι : Type} [DecidableEq ι] {sha256 : String → String}
    {ts : List (Pool.Transition Database ι (Option Client))}
    {v : Pool.World Database ι (Option Client)} (h : Execution sha256 ts v) {p : PaymentRecord}
    (hp : v.shared.payments.get p.id = some p) :
    ∃ first steps, Account.Lived first
      ⟨p, v.shared.ledgerOf p.id, v.shared.publishedOf p.id⟩ steps :=
  h.consistent.lived p.id _ (Database.account_of_get hp)

end PaymentLab
