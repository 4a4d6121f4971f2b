import PaymentLab.Laws.Answers

/-!
# Refusals

A request that is refused has changed nothing: whatever else the server did in between, no transaction
of a handling that ends with a status from 400 to 499 left the store different
(`refusals_change_nothing`). A delivery is the exception: its claim is committed before the consumer
is called, and an exception of the consumer goes through it.

It is about the transactions of the refused handling itself; others may have committed beside it. A
request that ends in a failure of the server, or is abandoned, is not refused, and may have
committed before: this is what a retry under the same key is for.
-/

namespace PaymentLab.Api

open Relational Transactional Transactional.Service

/-- An answer that blames the request: its status is in the four hundreds. A failure of the server is
none. -/
def Response.Refuses (response : Response) : Prop :=
  400 ≤ response.status ∧ response.status < 500

/-- A handling that ended with such an answer. One that was abandoned did not. -/
def Ending.Refuses : Ending → Prop
  | .answered response => response.Refuses
  | .broken => False

/-- The handling of a delivery. -/
def Handling.delivers : Handling → Bool
  | .courier _ => true
  | _ => false

/-- What a handling that is not refused any more has become: a delivery, the completion of a
confirmation, the reading of an import, or an end that is no refusal. -/
inductive Unrefusable (db : Database) : Handling → Option Ending → Prop
  | delivery {courier : Courier} {ending : Option Ending} :
      Unrefusable db (.courier courier) ending
  | ended {handling : Handling} {ending : Ending} : ¬ending.Refuses →
      Unrefusable db handling (some ending)
  | completing {client : Client} {replayed : Bool} : client.phase = .completing replayed →
      Unrefusable db (.client client) none
  | imported {request : SettlementBatchCreateRequest} {readings : Readings}
      {batch : SettlementBatchRecord} : db.settlementBatches.get batch.id = some batch →
      Unrefusable db (.importing request readings (some batch)) none

section Steps

variable {app : App} {pydantic : Pydantic} {sha256 : String → String} {lib : StandardLibrary}
  {db db' : Database}

/-! ## Answers that are no refusals -/

theorem Response.ok_accepts (body : Body) : ¬(Response.ok body).Refuses := by
  rintro ⟨refused, _⟩
  exact absurd refused (by decide : ¬400 ≤ 200)

theorem Response.ofOutcome_accepts (created : Bool) (outcome : PaymentOutcome) :
    ¬(Response.ofOutcome created outcome).Refuses := by
  rintro ⟨refused, _⟩
  unfold ofOutcome at refused
  dsimp only at refused
  split at refused <;> exact absurd refused (by decide)

theorem Response.internal_accepts : ¬(Response.error .internal).Refuses := by
  rintro ⟨_, refused⟩
  exact absurd refused (by decide)

/-- A call of a service that returned is not answered with a refusal. -/
theorem Response.ofResult_ok (request : Request) (answer : Answer) :
    ¬(Response.ofResult pydantic request (.ok answer)).Refuses := by
  cases answer with
  | payment outcome => exact ofOutcome_accepts _ outcome
  | confirmation outcome =>
    show ¬(ofConfirmation pydantic outcome).Refuses
    unfold ofConfirmation
    split
    · rintro ⟨refused, _⟩
      exact absurd refused (by decide : ¬400 ≤ 200)
    · exact internal_accepts
  | accepted => exact internal_accepts
  | identities => exact internal_accepts

/-- An import that is stored is answered. -/
theorem importAnswer_accepts {batch : SettlementBatchRecord}
    (stored : db.settlementBatches.get batch.id = some batch) :
    ¬(importAnswer db batch).Refuses := by
  unfold importAnswer getSettlementRecords found
  rw [stored]
  rintro ⟨refused, _⟩
  exact absurd refused (by decide : ¬400 ≤ 201)

/-! ## One step -/

/-- Only a processed confirmation has a completion of its own. -/
theorem Request.Admits.completing {request : Request} {replayed : Bool}
    (h : request.Admits (.completing replayed)) :
    ∃ command receivedAt clock draws, request = .process command receivedAt clock draws := by
  rcases h with ended | ready | h
  · exact ended.elim
  · cases ready
  · cases request with
    | process command receivedAt clock draws => exact ⟨command, receivedAt, clock, draws, rfl⟩
    | authorize | capture | refund => rcases h with ⟨_, heq⟩ | heq <;> cases heq
    | recover =>
      obtain ⟨_, _, heq⟩ := h
      cases heq
    | _ => exact h.elim

/-- Whatever fails in the completion half is reported as unavailable. -/
theorem processCompletion_error {confirmationId : String} {draws : Draws} {s s' : DatabaseSession}
    {e : ServiceError} (h : processCompletion sha256 confirmationId draws s = (.error e, s')) :
    e = .confirmationProcessingUnavailable := by
  unfold processCompletion at h
  rcases tryCatch_cases h with ⟨outcome, _, heq⟩ | ⟨_, _, _, hhandler⟩
  · cases heq
  · cases hhandler
    rfl

variable (pydantic sha256) in
/-- The completion of a confirmation ends, and not with a refusal. -/
theorem Client.completes {client : Client} {replayed : Bool} (coherent : client.Coherent db)
    (completing : client.phase = .completing replayed) :
    ∃ ending, clientEnding pydantic (client.act sha256 db).2 = some ending ∧ ¬ending.Refuses := by
  obtain ⟨request, identity, phase⟩ := client
  obtain rfl : phase = .completing replayed := completing
  obtain ⟨command, receivedAt, clock, draws, rfl⟩ := Request.Admits.completing coherent.admits
  obtain ⟨r, s', hrun⟩ : ∃ r s', (Request.process command receivedAt clock draws).step sha256
    (.completing replayed) (Session.start db identity) = (r, s') := ⟨_, _, rfl⟩
  rw [Client.act_eq hrun]
  obtain ⟨outcome, hprocess, rfl⟩ := bind_pure_cases hrun
  cases outcome with
  | ok outcome => exact ⟨_, rfl, Response.ofResult_ok _ _⟩
  | error e =>
    obtain rfl := processCompletion_error hprocess
    exact ⟨_, rfl, fun refused => absurd refused.2 (by decide : ¬503 < 500)⟩

variable (sha256) in
/-- The acceptance of a confirmation fails, or its completion is next. -/
theorem Client.accepts {command : ConfirmationCommand} {receivedAt clock : Option Datetime}
    {draws : Draws} {identity : IdentityMap} :
    (∃ e, (Client.act sha256 ⟨.process command receivedAt clock draws, identity, .ready⟩ db).2.phase =
      .finished (.error e)) ∨
    ∃ replayed, (Client.act sha256
      ⟨.process command receivedAt clock draws, identity, .ready⟩ db).2.phase =
        .completing replayed := by
  obtain ⟨r, s', hrun⟩ : ∃ r s', (Request.process command receivedAt clock draws).step sha256 .ready
    (Session.start db identity) = (r, s') := ⟨_, _, rfl⟩
  rw [Client.act_eq hrun]
  rcases bind_cases hrun with ⟨e, _, rfl⟩ | ⟨_, _, _, hrest⟩
  · exact .inl ⟨e, rfl⟩
  · obtain ⟨accepted, _, rfl⟩ := bind_pure_cases hrest
    cases accepted with
    | ok replayed => exact .inr ⟨replayed, rfl⟩
    | error e => exact .inl ⟨e, rfl⟩

variable (pydantic sha256) in
/-- A request under a key that writes is answered with its payment, or times out. -/
theorem Client.keyed_unrefusable {client : Client} {key : String} {command : KeyedCommand}
    (hkey : client.request.keyed = some (key, command)) (coherent : client.Coherent db)
    (unfinished : ¬client.phase.Ended) :
    (client.act sha256 db).1 = db ∨ ∃ ending,
      clientEnding pydantic (client.act sha256 db).2 = some ending ∧ ¬ending.Refuses := by
  have act := (Client.keyed_act sha256 hkey coherent.admits unfinished coherent.sound).1
  unfold clientEnding
  generalize (client.act sha256 db).2.phase = phase at act ⊢
  cases act with
  | clock _ _ same => exact .inl same
  | answered _ same => exact .inl same
  | lost _ same => exact .inl same
  | free _ same => exact .inl same
  | executed _ commits =>
    rcases commits with ⟨same, _⟩ | ⟨payment, _, rfl | rfl⟩
    · exact .inl same
    · exact .inr ⟨_, rfl, Response.ofResult_ok _ _⟩
    · exact .inr ⟨_, rfl, fun refused => absurd refused.2 (by decide : ¬504 < 500)⟩

variable (pydantic sha256) in
/-- A transaction of a call of a service that writes leaves nothing to refuse. -/
theorem Client.unrefusable {client : Client} (proper : ApiRequest app client.request)
    (coherent : client.Coherent db) (unfinished : ¬client.phase.Ended) :
    (client.act sha256 db).1 = db ∨
      Unrefusable (client.act sha256 db).1 (.client (client.act sha256 db).2)
        (clientEnding pydantic (client.act sha256 db).2) := by
  have keyed : ∀ {key command}, client.request.keyed = some (key, command) →
      (client.act sha256 db).1 = db ∨
        Unrefusable (client.act sha256 db).1 (.client (client.act sha256 db).2)
          (clientEnding pydantic (client.act sha256 db).2) := by
    intro key command hkey
    rcases Client.keyed_unrefusable pydantic sha256 hkey coherent unfinished with
      same | ⟨ending, hending, accepted⟩
    · exact .inl same
    · rw [hending]
      exact .inr (.ended accepted)
  have result := Client.act_commits sha256 coherent.admits unfinished coherent.sound
  obtain ⟨request, identity, phase⟩ := client
  cases proper with
  | authorize => exact keyed rfl
  | capture => exact keyed rfl
  | cancel => exact keyed rfl
  | refund => exact keyed rfl
  | @process payload clock draws =>
    rcases coherent.admits.resolve_left unfinished with ready | ⟨replayed, completing⟩
    · obtain rfl : phase = .ready := ready
      rcases Client.accepts sha256 with ⟨e, failed⟩ | ⟨replayed, completing⟩
      · exact .inl (result.failed e failed (.inl rfl))
      · refine .inr ?_
        unfold clientEnding
        rw [completing]
        exact .completing completing
    · obtain ⟨ending, hending, accepted⟩ :=
        Client.completes pydantic sha256 coherent completing
      rw [hending]
      exact .inr (.ended accepted)

/-- The next thing of a handling leaves the store as it was, or nothing to refuse. -/
theorem Handling.Does.unrefusable {handling after : Handling} {ending : Option Ending}
    (h : Handling.Does pydantic sha256 lib db db' handling after ending)
    (unfinished : handling.Unfinished) (proper : handling.Proper app)
    (coherent : handling.party.Coherent lib db) : db' = db ∨ Unrefusable db' after ending := by
  cases h with
  | client hact =>
    have result := Client.unrefusable pydantic sha256 proper coherent unfinished
    rw [hact] at result
    exact result
  | courier => exact .inr .delivery
  | @consumer thread after hact =>
    obtain ⟨call, phase⟩ := after
    cases (ConsumerThread.act_moves ⟨unfinished, hact⟩).2 with
    | ended => exact .inl rfl
    | read => exact .inl rfl
    | compared => exact .inl rfl
    | wrote => exact .inr (.ended (Response.ok_accepts _))
  | asked hsame => exact .inl hsame
  | imported _ stored => exact .inr (.imported stored)
  | unimported _ hsame => exact .inl hsame
  | listed hsame => exact .inl hsame
  | compared hsame => exact .inl hsame
  | reported _ answered =>
    cases answered with
    | refused hsame => exact .inl hsame
    | saved _ hsame => exact .inl hsame
    | generated => exact .inr (.ended (Response.ok_accepts _))

/-- What is not refused any more stays so when it goes on. -/
theorem Unrefusable.next {handling after : Handling} {ending : Option Ending}
    (h : Unrefusable db handling none)
    (does : Handling.Does pydantic sha256 lib db db' handling after ending)
    (coherent : handling.party.Coherent lib db) : Unrefusable db' after ending := by
  cases h with
  | delivery =>
    cases does
    exact .delivery
  | completing completing =>
    cases does with
    | client hact =>
      obtain ⟨ending, hending, accepted⟩ :=
        Client.completes pydantic sha256 coherent completing
      rw [hact] at hending
      rw [hending]
      exact .ended accepted
  | imported stored =>
    cases does
    exact .ended (importAnswer_accepts stored)

/-- What another connection does changes nothing of it. -/
theorem Unrefusable.kept {handling : Handling} {ending : Option Ending}
    (h : Unrefusable db handling ending)
    (keeps : ∀ batch, db.settlementBatches.get batch.id = some batch →
      db'.settlementBatches.get batch.id = some batch) : Unrefusable db' handling ending := by
  cases h with
  | delivery => exact .delivery
  | ended accepted => exact .ended accepted
  | completing completing => exact .completing completing
  | imported stored => exact .imported (keeps _ stored)

/-- A batch that is stored stays. -/
theorem Server.keepsBatch {before after : Connection}
    (h : Server pydantic sha256 lib db before db' after) (opened : before.Open)
    {batch : SettlementBatchRecord} (stored : db.settlementBatches.get batch.id = some batch) :
    db'.settlementBatches.get batch.id = some batch := by
  obtain ⟨moved, still⟩ := h.platform opened
  cases hmoves : moves before after with
  | true => exact (Accounting.keepsBatch (moved hmoves).accounting stored).1
  | false =>
    rw [(still hmoves).1]
    exact stored

/-- A step of a connection leaves the store as it was, or nothing to refuse. -/
theorem Server.unrefusable {before after : Connection}
    (h : Server pydantic sha256 lib db before db' after) (coherent : before.Coherent app lib db) :
    db' = db ∨ Unrefusable db' after.handling after.ending := by
  obtain ⟨call, readings, handling, ending⟩ := before
  cases h with
  | next unended hnext =>
    exact (Handling.next_does hnext).unrefusable (coherent.opened unended) coherent.proper
      coherent.party
  | breaks => exact .inl rfl

/-- A step of a connection that is not refused any more. -/
theorem Unrefusable.step {before after : Connection}
    (h : Unrefusable db before.handling before.ending)
    (step : Server pydantic sha256 lib db before db' after)
    (coherent : before.Coherent app lib db) : Unrefusable db' after.handling after.ending := by
  obtain ⟨call, readings, handling, ending⟩ := before
  cases step with
  | next unended hnext =>
    obtain rfl : ending = none := unended
    exact h.next (Handling.next_does hnext) coherent.party
  | breaks => exact .ended id

end Steps

/-! ## Runs -/

section Runs

variable {ι : Type} [DecidableEq ι] {app : App} {pydantic : Pydantic} {sha256 : String → String}
  {lib : StandardLibrary} {ts : List (Pool.Transition Database ι Connection)}
  {v : Pool.World Database ι Connection}

/-- Every connection has changed nothing, or is not refused any more. -/
theorem Served.unrefusable (h : Served app pydantic sha256 lib ts v) (i : ι) :
    (∀ t ∈ ts, t.thread = i → t.post = t.pre) ∨
      Unrefusable v.shared (v.threads i).handling (v.threads i).ending := by
  refine h.induction (P := fun ts v => (∀ t ∈ ts, t.thread = i → t.post = t.pre) ∨
    Unrefusable v.shared (v.threads i).handling (v.threads i).ending)
    (fun _ _ => .inl fun _ mem => absurd mem List.not_mem_nil) ?_
  intro ts t v _ enabled _ coherent ih
  obtain ⟨hpre, hbefore, step⟩ := enabled
  by_cases hi : t.thread = i
  · subst hi
    rw [Pool.World.apply_threads_self]
    rcases ih with same | unrefusable
    · rcases step.unrefusable coherent with hsame | unrefusable
      · refine .inl fun u mem own => ?_
        rcases List.mem_append.mp mem with mem | mem
        · exact same u mem own
        · rw [List.mem_singleton.mp mem]
          exact hsame
      · exact .inr unrefusable
    · rw [← hpre, ← hbefore] at unrefusable
      exact .inr (unrefusable.step step coherent)
  · rw [Pool.World.apply_threads_of_ne _ _ (Ne.symm hi)]
    rcases ih with same | unrefusable
    · refine .inl fun u mem own => ?_
      rcases List.mem_append.mp mem with mem | mem
      · exact same u mem own
      · rw [List.mem_singleton.mp mem] at own
        exact absurd own hi
    · refine .inr (unrefusable.kept fun batch stored => ?_)
      rw [← hpre] at stored
      exact step.keepsBatch coherent.opened stored

/-- **A refused request has changed nothing**, a delivery apart: no transaction of a handling that
ends with a status from 400 to 499 has left the store different. A handling that has written is past
every refusal of its own, which is the invariant of the connection that the induction carries. -/
theorem refusals_change_nothing (h : Served app pydantic sha256 lib ts v) {i : ι}
    {response : Response} (answered : (v.threads i).ending = some (.answered response))
    (refuses : response.Refuses) (service : (v.threads i).handling.delivers = false) :
    ∀ t ∈ ts, t.thread = i → t.post = t.pre := by
  refine (h.unrefusable i).resolve_right fun unrefusable => ?_
  rw [answered] at unrefusable
  cases hhandling : (v.threads i).handling with
  | courier courier =>
    rw [hhandling] at service
    cases service
  | _ =>
    rw [hhandling] at unrefusable
    cases unrefusable with
    | ended accepted => exact accepted refuses

theorem Connection.status_eq_some {connection : Connection} {status : Nat}
    (h : connection.status = some status) :
    ∃ response, connection.ending = some (.answered response) ∧ response.status = status := by
  unfold Connection.status at h
  split at h
  · next response hending => exact ⟨response, hending, Option.some.inj h⟩
  · cases h

/-- The stranger sent the key of the customer's order with another amount. -/
theorem closingHour_refuses :
    ∃ ts, Served shopApp plainPydantic id shopLibrary ts closingHour ∧
      (closingHour.threads .stranger).status = some 409 ∧
      ∀ t ∈ ts, t.thread = .stranger → t.post = t.pre := by
  obtain ⟨ts, h⟩ := closingHour_served
  have refused : (closingHour.threads .stranger).status = some 409 := by decide +kernel
  obtain ⟨response, answered, hstatus⟩ := Connection.status_eq_some refused
  refine ⟨ts, h, refused, refusals_change_nothing h answered ?_ (by decide +kernel)⟩
  unfold Response.Refuses
  rw [hstatus]
  decide

end Runs

end PaymentLab.Api
