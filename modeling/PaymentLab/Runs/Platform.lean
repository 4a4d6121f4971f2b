import PaymentLab.Runs.Courier
import PaymentLab.Runs.Reports

/-!
# The platform

The whole service on one database: clients, couriers that deliver its events, consumers that receive
any body, and an office that imports settlement batches and asks for their sections. Every party acts
transaction by transaction, in any order.

To the clients everyone else is an environment: a run of the platform, seen through its clients, is an
execution of the service (`Running.accounted`), so what holds of every execution holds here. To the
couriers the clients only publish (`Client.Step.publishes`), so the delivery tables stay consistent
(`Running.holds`); beside them no inbox row is lost, and no event is delivered that the consumer has
not recorded (`Acknowledged`).

The office has no state: an import and a section are a single transaction each. A consumer receives
bodies from anybody, forged ones included, and is told nothing of who sent them, while the couriers
deliver only what is stored. None of the parties is assumed to make progress.
-/

namespace PaymentLab

open Relational Transactional

/-! ## Parties -/

/-- Who acts on the database. A run has any number of each, and nothing about them but what they
commit is visible to the others. -/
inductive Party where
  | client (client : Client)
  | courier (courier : Courier)
  | consumer (thread : ConsumerThread)
  /-- it keeps no session between two calls -/
  | office

/-- The client among the parties. -/
def Party.asClient : Party → Option Client
  | .client c => some c
  | _ => none

section Protocol

variable (sha256 : String → String) (lib : StandardLibrary)

/-- What one party does. Whatever it commits is seen by the others at once, and nothing else of it. -/
inductive Platform : Pool.Protocol Database Party
  | client {db db' : Database} {client after : Client} : Client.Step sha256 db client db' after →
      Platform db (.client client) db' (.client after)
  | courier {db db' : Database} {courier after : Courier} :
      Courier.Step lib db courier db' after → Platform db (.courier courier) db' (.courier after)
  /-- a body arrives; a call that has not ended is abandoned -/
  | receive {db : Database} {thread : ConsumerThread} (call : ConsumerCall) :
      Platform db (.consumer thread) db (.consumer { call := call, phase := .ready })
  | consume {db db' : Database} {thread after : ConsumerThread} :
      ConsumerPool lib db thread db' after →
      Platform db (.consumer thread) db' (.consumer after)
  | imports {db db' : Database} : Imports db db' → Platform db .office db' .office
  | reports {db db' : Database} : Reports db db' → Platform db .office db' .office

end Protocol

/-! ## What others see of a step -/

section Steps

variable {sha256 : String → String} {lib : StandardLibrary} {db db' : Database}

theorem Background.refl (db : Database) : Background db db := ⟨rfl, rfl, rfl, ⟨rfl, rfl⟩, rfl⟩

/-- A transaction of a courier is background to the service. -/
theorem Courier.Step.background {courier after : Courier}
    (h : Courier.Step lib db courier db' after) : Background db db' ∧ SameSettlements db db' := by
  cases h with
  | begin => exact ⟨.refl db, .refl db⟩
  | crash => exact ⟨.refl db, .refl db⟩
  | next unfinished hnext =>
    cases Courier.next_cases unfinished hnext with
    | called _ _ hsame _ =>
      rw [hsame]
      exact ⟨.refl db, .refl db⟩
    | consumed _ _ hstep _ =>
      have moves := (ConsumerThread.act_moves hstep).2
      rw [moves.rest]
      exact ⟨⟨rfl, rfl, rfl, ⟨rfl, rfl⟩, rfl⟩, ⟨rfl, rfl⟩⟩
    | dispatched _ acts _ =>
      refine ⟨acts.background, ?_⟩
      rw [acts.rest]
      exact ⟨rfl, rfl⟩

/-- **Seen through its clients, a step of the platform is one of the service.** -/
theorem Platform.accounting {party party' : Party} (h : Platform sha256 lib db party db' party') :
    Accounting sha256 db party.asClient db' party'.asClient := by
  cases h with
  | client h => exact .thread h
  | courier h => exact .environment (.inl h.background)
  | receive => exact .environment (.inl ⟨.refl db, .refl db⟩)
  | consume h =>
    refine .environment (.inl ?_)
    rw [(ConsumerThread.act_moves h).2.rest]
    exact ⟨⟨rfl, rfl, rfl, ⟨rfl, rfl⟩, rfl⟩, ⟨rfl, rfl⟩⟩
  | imports h => exact .environment (.inr h)
  | reports h =>
    refine .environment (.inl ⟨h.background, ?_⟩)
    rcases h.cases with hsame | ⟨_, _, _, hrest⟩
    · rw [hsame]
      exact .refl db
    · rw [hrest]
      exact ⟨rfl, rfl⟩

/-- What one party's session and its calls hold, beside any other party. -/
def Party.Coherent (lib : StandardLibrary) (db : Database) : Party → Prop
  | .client c => c.Coherent db
  | .courier c => c.Coherent lib db
  | .consumer thread => thread.Sound lib db
  | .office => True

/-- The expiries of a batch publish. -/
theorem sweep_publishes (h : Relation.ReflTransGen ExpiresOne db db') : Publishes db db' := by
  induction h with
  | refl => exact .refl _
  | tail _ hstep ih =>
    obtain ⟨_, _, hexpired⟩ := hstep
    exact ih.trans hexpired.advances.publishes

/-- **A commit of a client is a publication** to the dispatchers. -/
theorem Commits.publishes {request : Request} (h : Commits sha256 request db db') :
    Publishes db db' := by
  cases h with
  | nothing h =>
    rw [h]
    exact .refl db
  | keyed _ h =>
    cases h with
    | created h =>
      obtain ⟨_, _, _, terms, event, _, _, hevents⟩ := h.terms
      exact .insert (createOutboxEvent_fresh _ terms.eventType event) hevents
        h.merchant.deliveryAttempts
    | operated h =>
      obtain ⟨_, _, hadvances⟩ := h.advances
      exact hadvances.publishes
  | received _ h => exact .of_same h.accounts.webhookEvents h.merchant.deliveryAttempts
  | settled _ h =>
    cases h.effect with
    | none _ hsame hmerchant => exact .of_same hsame.webhookEvents hmerchant.deliveryAttempts
    | captured _ _ _ _ hadvances => exact hadvances.publishes
    | expired _ _ _ _ _ hadvances => exact hadvances.publishes
  | swept _ h => exact sweep_publishes h

theorem SameMerchant.refl (db : Database) : SameMerchant db db := ⟨rfl, rfl, rfl⟩

/-- No write of a client touches the merchant's tables. -/
theorem SameMerchant.apart (db : Database) : Apart (SameMerchant db) where
  payments _ h := ⟨h.deliveryAttempts, h.processedWebhooks, h.merchantProjections⟩
  ledgerEntries _ h := ⟨h.deliveryAttempts, h.processedWebhooks, h.merchantProjections⟩
  idempotencyRecords _ h := ⟨h.deliveryAttempts, h.processedWebhooks, h.merchantProjections⟩
  webhookEvents _ h := ⟨h.deliveryAttempts, h.processedWebhooks, h.merchantProjections⟩
  confirmationReceipts _ h := ⟨h.deliveryAttempts, h.processedWebhooks, h.merchantProjections⟩
  paymentConfirmations _ h := ⟨h.deliveryAttempts, h.processedWebhooks, h.merchantProjections⟩

theorem Client.Step.sameMerchant {client after : Client}
    (h : Client.Step sha256 db client db' after) : SameMerchant db db' := by
  cases h with
  | begin => exact .refl db
  | load => exact .refl db
  | act _ hact =>
    have kept := Client.act_preserves (SameMerchant.apart db) sha256 client (.refl db)
    rwa [hact] at kept
  | interrupt => exact .refl db

/-- What a step of the platform does to what others rely on: payments only gain versions, the tracks
of events go on, the inbox only grows. -/
structure Evolves (db db' : Database) : Prop where
  grows : Grows db db'
  delivers : Delivers db db'
  inbox : KeepsInbox db db'

/-- What others do leaves a party coherent. -/
theorem Party.Coherent.kept {party : Party} (h : party.Coherent lib db) (evolves : Evolves db db') :
    party.Coherent lib db' := by
  cases party with
  | client client => exact Client.Coherent.grows h evolves.grows
  | courier courier => exact Courier.Coherent.kept h evolves.delivers evolves.inbox
  | consumer thread => exact ConsumerThread.Sound.kept h evolves.inbox
  | office => trivial

/-- A client: what it publishes, and that it stays coherent. -/
theorem Client.Step.publishes {client after : Client} (h : Client.Step sha256 db client db' after)
    (coherent : client.Coherent db) : Publishes db db' ∧ Grows db db' ∧ after.Coherent db' := by
  have moved := Client.Step.moves (t := ⟨(), db, some client, db', some after⟩) rfl rfl coherent h
  refine ⟨?_, effects_grow moved.1.effects, moved.2⟩
  cases h with
  | begin => exact .refl db
  | load => exact .refl db
  | act unfinished hact =>
    have result := Client.act_commits sha256 coherent.admits unfinished coherent.sound
    rw [hact] at result
    exact result.commits.publishes
  | interrupt => exact .refl db

/-- What changes no payment, no event, no attempt and no inbox row evolves the store. -/
theorem Evolves.of_same (tracked : Tracked db) (payments : db'.payments = db.payments)
    (events : db'.webhookEvents = db.webhookEvents)
    (attempts : db'.deliveryAttempts = db.deliveryAttempts)
    (inbox : KeepsInbox db db') : Evolves db db' :=
  ⟨grows_of_same payments, (Publishes.of_same events attempts).delivers tracked, inbox⟩

theorem Imports.rest (h : Imports db db') :
    db' =
      { db with
        settlementBatches := db'.settlementBatches
        settlementRecords := db'.settlementRecords } := by
  obtain ⟨h⟩ := h
  subst h
  rcases createSettlementBatch_cases (Prod.eta _).symm with ⟨_, _, same⟩ | ⟨_, _, result⟩
  · rw [same]
  · exact result.rest

/-- **A step of the platform** evolves the store and leaves its party coherent. -/
theorem Platform.coherent {party party' : Party} (h : Platform sha256 lib db party db' party')
    (tracked : Tracked db) (coherent : party.Coherent lib db) :
    Evolves db db' ∧ party'.Coherent lib db' := by
  cases h with
  | client h =>
    obtain ⟨publishes, grows, coherent'⟩ := h.publishes coherent
    exact ⟨⟨grows, publishes.delivers tracked, .of_same h.sameMerchant.processedWebhooks⟩, coherent'⟩
  | courier h =>
    obtain ⟨delivers, inbox, coherent'⟩ := h.coherent tracked coherent
    exact ⟨⟨grows_of_same h.background.1.payments, delivers, inbox⟩, coherent'⟩
  | receive call => exact ⟨.of_same tracked rfl rfl rfl (.refl db), .ready call⟩
  | consume h =>
    have moves := (ConsumerThread.act_moves h).2
    refine ⟨.of_same tracked ?_ ?_ ?_ moves.keepsInbox, ConsumerThread.Sound.step coherent h⟩
    · rw [moves.rest]
    · rw [moves.rest]
    · rw [moves.rest]
  | imports h =>
    refine ⟨.of_same tracked ?_ ?_ ?_ (.of_same ?_), trivial⟩ <;> rw [h.rest]
  | reports h =>
    refine ⟨?_, trivial⟩
    rcases h.cases with hsame | ⟨_, _, _, hrest⟩
    · rw [hsame]
      exact .of_same tracked rfl rfl rfl (.refl db)
    · refine .of_same tracked ?_ ?_ ?_ (.of_same ?_) <;> rw [hrest]

end Steps

/-! ## Runs -/

section Runs

variable {ι : Type} {sha256 : String → String} {lib : StandardLibrary}

theorem platform_establishes : Pool.Establishes (ι := ι) (Platform sha256 lib) Tracked
    (fun _ db party => party.Coherent lib db) := by
  intro i db party db' party' tracked coherent h
  obtain ⟨evolves, coherent'⟩ := h.coherent tracked coherent
  exact ⟨evolves.delivers.tracked tracked, coherent'⟩

theorem platform_nonInterfering : Pool.NonInterfering (ι := ι) (Platform sha256 lib) Tracked
    (fun _ db party => party.Coherent lib db) := by
  intro i j db party db' party' other _ tracked coherent coherent' h
  exact coherent'.kept (h.coherent tracked coherent).1

/-- A party that has begun nothing. -/
def Party.Idle : Party → Prop
  | .client c => c.identity = ∅ ∧ c.phase = .ready
  | .courier c => c.phase = .ready ∧ c.consumer = none
  | .consumer thread => thread.phase = .ready
  | .office => True

/-- A start: the store is empty and nobody has begun. -/
structure Opening (w : Pool.World Database ι Party) : Prop where
  empty : w.shared = .empty
  idle : ∀ i, (w.threads i).Idle

theorem Opening.holds {w : Pool.World Database ι Party} (h : Opening w) :
    Pool.Holds Tracked (fun _ db party => Party.Coherent lib db party) w := by
  refine ⟨h.empty ▸ tracked_empty, fun i => ?_⟩
  have idle := h.idle i
  generalize w.threads i = party at idle
  cases party with
  | client client =>
    exact ⟨.inr (.inl idle.2), by rw [idle.1]; exact sound_empty _⟩
  | courier courier => exact .idle idle.2 (.inl idle.1)
  | consumer thread =>
    obtain ⟨call, phase⟩ := thread
    obtain rfl : phase = .ready := idle
    exact .ready call
  | office => trivial

/-- The clients of a start are a start of the service. -/
theorem Opening.initial {w : Pool.World Database ι Party} (h : Opening w) :
    Initial (w.map Party.asClient) := by
  refine ⟨h.empty, fun i client hclient => ?_⟩
  have idle := h.idle i
  have hclient : (w.threads i).asClient = some client := hclient
  generalize w.threads i = party at idle hclient
  cases party <;> cases hclient
  exact idle

variable [DecidableEq ι]

/-- A run of the platform: the steps it took from a start, and the world it reached. The service, the
couriers, the consumers and the office take their steps in any order, and no fairness is assumed
among them. -/
def Running (sha256 : String → String) (lib : StandardLibrary)
    (ts : List (Pool.Transition Database ι Party)) (v : Pool.World Database ι Party) : Prop :=
  ∃ w, Opening w ∧ Pool.Run (Platform sha256 lib) w ts v

variable {ts us : List (Pool.Transition Database ι Party)} {v u : Pool.World Database ι Party}

theorem Running.append (h : Running sha256 lib ts v)
    (k : Pool.Run (Platform sha256 lib) v us u) : Running sha256 lib (ts ++ us) u := by
  obtain ⟨w, opening, run⟩ := h
  exact ⟨w, opening, run.append k⟩

theorem Running.holds (h : Running sha256 lib ts v) :
    Pool.Holds Tracked (fun _ db party => Party.Coherent lib db party) v := by
  obtain ⟨w, opening, run⟩ := h
  exact run.invariant platform_establishes platform_nonInterfering opening.holds

theorem accounted_of_run {w : Pool.World Database ι Party}
    (run : Pool.Run (Platform sha256 lib) w ts v) :
    Pool.Run (Accounting sha256) (w.map Party.asClient)
      (ts.map (Pool.Transition.map Party.asClient)) (v.map Party.asClient) :=
  run.map Party.asClient fun _ mem => (run.allowed mem).accounting

/-- **The clients of the platform run the service**: every run, seen through its clients, is an
execution with imports. -/
theorem Running.accounted (h : Running sha256 lib ts v) :
    Accounted sha256 (ts.map (Pool.Transition.map Party.asClient)) (v.map Party.asClient) := by
  obtain ⟨w, opening, run⟩ := h
  exact ⟨w.map Party.asClient, opening.initial, accounted_of_run run⟩

theorem Running.execution (h : Running sha256 lib ts v) :
    Execution sha256 (ts.map (Pool.Transition.map Party.asClient)) (v.map Party.asClient) :=
  h.accounted.execution

/-- A step of a run of the platform: what it leaves, from the store and the party it found. -/
theorem Running.step (h : Running sha256 lib ts v) {t : Pool.Transition Database ι Party}
    (enabled : Pool.Enabled (Platform sha256 lib) v t) :
    Tracked t.pre ∧ t.before.Coherent lib t.pre ∧ Evolves t.pre t.post := by
  obtain ⟨tracked, coherent⟩ := h.holds
  obtain ⟨hpre, hbefore, step⟩ := enabled
  have tracked : Tracked t.pre := by rw [hpre]; exact tracked
  have coherent : t.before.Coherent lib t.pre := by rw [hpre, hbefore]; exact coherent t.thread
  exact ⟨tracked, coherent, (step.coherent tracked coherent).1⟩

/-- Induction along what follows a run of the platform. -/
theorem Running.continues {P : Database → Prop} (h : Running sha256 lib ts v)
    (run : Pool.Run (Platform sha256 lib) v us u) (start : P v.shared)
    (step : ∀ db party db' party', Tracked db → party.Coherent lib db → Evolves db db' →
      Platform sha256 lib db party db' party' → P db → P db') : P u.shared := by
  induction run with
  | nil => exact start
  | @snoc u us t run enabled ih =>
    obtain ⟨tracked, coherent, evolves⟩ := (h.append run).step enabled
    rw [← enabled.1] at ih
    exact step _ _ _ _ tracked coherent evolves enabled.2.2 ih

/-- What holds of the empty store and is kept by every step holds of every store reached. -/
theorem Running.invariant {I : Database → Prop} (empty : I .empty)
    (step : ∀ db party db' party', Tracked db → party.Coherent lib db → Evolves db db' →
      Platform sha256 lib db party db' party' → I db → I db') (h : Running sha256 lib ts v) :
    I v.shared := by
  obtain ⟨w, opening, run⟩ := h
  have start : Running sha256 lib [] w := ⟨w, opening, .nil w⟩
  exact start.continues run (opening.empty ▸ empty) step

/-- An inbox row stays as it was written. -/
theorem Running.keepsInbox (h : Running sha256 lib ts v)
    (run : Pool.Run (Platform sha256 lib) v us u) : KeepsInbox v.shared u.shared := by
  refine h.continues (P := KeepsInbox v.shared) run (.refl _) ?_
  intro _ _ _ _ _ _ evolves _ kept id row hrow
  exact evolves.inbox id row (kept id row hrow)

/-! ## Schedules -/

/-- The next thing a party does, when it is in the middle of a call. -/
def Party.next (sha256 : String → String) (lib : StandardLibrary) (db : Database) :
    Party → Option (Database × Party)
  | .client c =>
    match c.phase with
    | .finished _ | .interrupted => none
    | _ => some ((c.act sha256 db).1, .client (c.act sha256 db).2)
  | .courier c =>
    if c.phase.Ended then none else some ((c.next lib db).1, .courier (c.next lib db).2)
  | .consumer thread =>
    match thread.phase with
    | .finished _ => none
    | _ => some ((thread.act lib db).1, .consumer (thread.act lib db).2)
  | .office => none

theorem Party.next_eq_some {db db' : Database} {party party' : Party}
    (h : party.next sha256 lib db = some (db', party')) :
    Platform sha256 lib db party db' party' := by
  cases party with
  | client c =>
    obtain ⟨request, identity, phase⟩ := c
    cases phase <;> cases h <;> exact .client (.act id rfl)
  | courier c =>
    unfold Party.next at h
    dsimp only at h
    split at h
    · cases h
    · next unfinished =>
      cases h
      exact .courier (.next unfinished rfl)
  | consumer thread =>
    obtain ⟨call, phase⟩ := thread
    cases phase <;> cases h <;> refine .consume ⟨fun result heq => ?_, rfl⟩ <;> cases heq
  | office => cases h

/-- The parties act as scheduled. -/
abbrev operate (sha256 : String → String) (lib : StandardLibrary) :
    List ι → Pool.World Database ι Party → Pool.World Database ι Party :=
  Pool.operate (Party.next sha256 lib)

variable (sha256 lib) in
theorem Running.operate {w : Pool.World Database ι Party} (opening : Opening w)
    (schedule : List ι) :
    ∃ ts, Running sha256 lib ts (operate sha256 lib schedule w) ∧
      ∀ Q, Pool.watched (Party.next sha256 lib) Q schedule w = true → ∀ t ∈ ts, Q t.before = true := by
  obtain ⟨ts, run, quiet⟩ := Pool.run_of_operate Party.next_eq_some schedule w
  exact ⟨ts, ⟨w, opening, run⟩, quiet⟩

end Runs

end PaymentLab
