import PaymentLab.Laws.Idempotency
import PaymentLab.Laws.Projection
import PaymentLab.Laws.Signature
import PaymentLab.Runs.Server

/-!
# What the API answers about payments

An answered payment is a published version of it: the response that is stored under a key, the
version that was just committed, or the one that was read (`Server.shows`). Along a run of the server
no version is ever answered with two contents, and no answer but a replayed one is behind an earlier
answer (`answers_in_order`).

The exception is forced: a retry is answered with what was stored when its key was first used, so
its payment may be older than one answered in between. The order meant here is the one in which the
handlings end: a client may receive two answers the other way round, and the server has no say in
that.
-/

namespace PaymentLab

open Relational

/-! ## Stored responses -/

/-- The response under a key is a published version. -/
def ResponsesPublished (db : Database) : Prop :=
  ∀ claim ∈ db.idempotencyRecords.rows, ∀ snapshot, claim.responseSnapshot = some snapshot →
    ∃ event ∈ db.webhookEvents.rows.map (·.published), event.payload.payment = snapshot

section Effects

variable {sha256 : String → String} {db db' : Database}

/-- What is published stays published. -/
theorem Effect.published (e : Effect sha256 db db') {event : PublishedEvent}
    (mem : event ∈ db.webhookEvents.rows.map (·.published)) :
    event ∈ db'.webhookEvents.rows.map (·.published) := by
  rcases e.publishes with background | publishes
  · rwa [background.published]
  · obtain ⟨appended, hrows, _⟩ := publishes.events
    rw [hrows, List.map_append]
    exact List.mem_append_left _ mem

/-- What leaves the responses alone. -/
theorem ResponsesPublished.kept (h : ResponsesPublished db) (e : Effect sha256 db db')
    (claims : db'.idempotencyRecords = db.idempotencyRecords) : ResponsesPublished db' := by
  intro claim mem snapshot hsnapshot
  rw [claims] at mem
  obtain ⟨event, published, hevent⟩ := h claim mem snapshot hsnapshot
  exact ⟨event, e.published published, hevent⟩

/-- What publishes a version and stores it as a response. -/
theorem ResponsesPublished.claimed (h : ResponsesPublished db) (e : Effect sha256 db db')
    {claim : IdempotencyRecord} {payment : PaymentRecord} {eventType : WebhookEventType}
    {hex : String}
    (inserted : db.idempotencyRecords.insert (completedClaim claim payment) =
      some db'.idempotencyRecords)
    (published : db.webhookEvents.insert (createOutboxEvent payment eventType hex) =
      some db'.webhookEvents) : ResponsesPublished db' := by
  intro row mem snapshot hsnapshot
  rw [Table.insert_rows inserted] at mem
  rcases List.mem_append.mp mem with mem | mem
  · obtain ⟨event, earlier, hevent⟩ := h row mem snapshot hsnapshot
    exact ⟨event, e.published earlier, hevent⟩
  · rw [List.mem_singleton.mp mem] at hsnapshot
    cases hsnapshot
    refine ⟨publishedEvent payment eventType hex, ?_, rfl⟩
    rw [Table.insert_rows published, List.map_append]
    exact List.mem_append_right _ List.mem_cons_self

theorem Effect.responsesPublished (h : ResponsesPublished db) (e : Effect sha256 db db') :
    ResponsesPublished db' := by
  have effect := e
  cases e with
  | created e =>
    obtain ⟨_, hclaim⟩ := e.claim
    obtain ⟨_, _, _, _, _, _, _, hevents⟩ := e.terms
    exact h.claimed effect hclaim hevents
  | operated e =>
    obtain ⟨_, hclaim⟩ := e.claim
    obtain ⟨_, _, hadvances⟩ := e.advances
    obtain ⟨_, hevents⟩ := hadvances.events
    exact h.claimed effect hclaim hevents
  | received e => exact h.kept effect e.claims
  | settled e => exact h.kept effect e.claims
  | expired e => exact h.kept effect e.claims
  | background e => exact h.kept effect e.claims

/-- The payment of a keyed effect is stored by it. -/
theorem KeyedEffect.stored {key : String} {command : KeyedCommand}
    {payment : PaymentRecord} (h : KeyedEffect sha256 key command payment db db') :
    db'.payments.get payment.id = some payment := by
  cases h with
  | created h => exact Table.get_insert_self h.payments
  | operated h =>
    obtain ⟨_, _, hadvances⟩ := h.advances
    rw [hadvances.after_id]
    exact hadvances.stored_after

end Effects

theorem Execution.responsesPublished {ι : Type} [DecidableEq ι] {sha256 : String → String}
    {ts : List (Pool.Transition Database ι (Option Client))}
    {v : Pool.World Database ι (Option Client)} (h : Execution sha256 ts v) :
    ResponsesPublished v.shared := by
  refine h.invariant (fun _ mem => ?_) Effect.responsesPublished
  cases mem

namespace Api

open Transactional Transactional.Service

/-! ## One answer -/

section Answers

variable {ι : Type} {app : App} {pydantic : Pydantic} {sha256 : String → String}
  {lib : StandardLibrary} {db db' : Database}

/-- A step answers its request: the handling ends with this response. A request whose handling is
abandoned, or ends with an exception that no handler answers, is not answered by any step. -/
def Answers (response : Response) (t : Pool.Transition Database ι Connection) : Prop :=
  t.after.ending = some (.answered response)

/-- It answers with a payment, under any status; the flag is the header `Idempotent-Replayed`. -/
def AnswersPayment (replayed : Bool) (payment : PaymentResponse)
    (t : Pool.Transition Database ι Connection) : Prop :=
  ∃ status, Answers { status := status, replayed := replayed, body := .payment payment } t

/-- What an answered payment is, by the step that answers it: the response stored under a key, the
version that was read, or the one that the step has committed. Only the last writes; the first two
leave the store as it is. -/
inductive Shows (sha256 : String → String) (before : Connection) (db db' : Database)
    (payment : PaymentResponse) : Bool → Prop
  | replayed {claim : IdempotencyRecord} {snapshot : PaymentSnapshot} :
      claim ∈ db.idempotencyRecords.rows → claim.responseSnapshot = some snapshot → db' = db →
      payment = .fromSnapshot snapshot → Shows sha256 before db db' payment true
  | read {row : PaymentRecord} : before.handling = .asking (.payment row.id) →
      db.payments.get row.id = some row → db' = db → payment = .fromRecord row →
      Shows sha256 before db db' payment false
  | committed {row : PaymentRecord} {key : String} {command : KeyedCommand} :
      (∀ question, before.handling ≠ .asking question) →
      KeyedEffect sha256 key command row db db' → payment = .fromRecord row →
      Shows sha256 before db db' payment false

/-- A confirmation is never answered with a payment. -/
theorem process_confirms {client : Client} {command : ConfirmationCommand}
    {receivedAt clock : Option Datetime} {draws : Draws}
    (request : client.request = .process command receivedAt clock draws)
    (unfinished : ¬client.phase.Ended) {answer : Answer}
    (finished : (client.act sha256 db).2.phase = .finished (.ok answer)) :
    ∃ outcome, answer = .confirmation outcome := by
  obtain ⟨r, s', hrun⟩ : ∃ r s', client.request.step sha256 client.phase (client.session db) =
    (r, s') := ⟨_, _, rfl⟩
  rw [Client.act_eq hrun] at finished
  rw [request] at hrun
  cases r with
  | error e => cases finished
  | ok phase =>
    obtain rfl : phase = .finished (.ok answer) := finished
    cases hphase : client.phase with
    | ready =>
      rw [hphase] at hrun
      obtain ⟨_, _, _, hrest⟩ := bind_eq_ok hrun
      obtain ⟨_, _, _, hrest⟩ := bind_eq_ok hrest
      cases hrest
    | completing replayed =>
      rw [hphase] at hrun
      obtain ⟨outcome, _, _, hrest⟩ := bind_eq_ok hrun
      cases hrest
      exact ⟨_, rfl⟩
    | finished result => exact absurd (hphase ▸ trivial) unfinished
    | interrupted => exact absurd (hphase ▸ trivial) unfinished
    | _ =>
      rw [hphase] at hrun
      cases hrun

/-- The answer of a call of a service is that of its result. -/
theorem clientEnding_eq_answered {client : Client} {response : Response}
    (h : clientEnding pydantic client = some (.answered response)) :
    ∃ result, client.phase = .finished result ∧
      response = .ofResult pydantic client.request result := by
  unfold clientEnding at h
  split at h
  · next result hphase =>
    cases h
    exact ⟨result, hphase, rfl⟩
  · cases h
  · cases h

/-- An answer with a payment is that of an outcome. -/
theorem Response.ofResult_payment {request : Request} {result : Except ServiceError Answer}
    {status : Nat} {replayed : Bool} {payment : PaymentResponse}
    (h : { status := status, replayed := replayed, body := .payment payment } =
      Response.ofResult pydantic request result) :
    ∃ outcome, result = .ok (.payment outcome) ∧ replayed = outcome.replayed ∧
      payment = .ofOutcome outcome.payment := by
  cases result with
  | error e => cases congrArg Response.body h
  | ok answer =>
    cases answer with
    | payment outcome =>
      exact ⟨outcome, rfl, congrArg Response.replayed h, Body.payment.inj (congrArg Response.body h)⟩
    | confirmation outcome =>
      have hbody := congrArg Response.body h
      unfold Response.ofResult Response.ofConfirmation at hbody
      dsimp only at hbody
      split at hbody <;> cases hbody
    | accepted => cases congrArg Response.body h
    | identities => cases congrArg Response.body h

/-- What a call of a service answers with a payment. -/
theorem Client.shows {client : Client} (proper : ApiRequest app client.request)
    (coherent : client.Coherent db) (unfinished : ¬client.phase.Ended) {before : Connection}
    (handled : before.handling = .client client) {status : Nat} {replayed : Bool}
    {payment : PaymentResponse}
    (answered : clientEnding pydantic (client.act sha256 db).2 =
      some (.answered { status := status, replayed := replayed, body := .payment payment })) :
    Shows sha256 before db (client.act sha256 db).1 payment replayed := by
  obtain ⟨result, finished, hresponse⟩ := clientEnding_eq_answered answered
  obtain ⟨outcome, rfl, rfl, rfl⟩ := Response.ofResult_payment hresponse
  have keyed : ∀ {key command}, client.request.keyed = some (key, command) →
      Shows sha256 before db (client.act sha256 db).1 (.ofOutcome outcome.payment)
        outcome.replayed := by
    intro key command hkey
    have act := (Client.keyed_act sha256 hkey coherent.admits unfinished coherent.sound).1
    rw [finished] at act
    generalize hphase : (Phase.finished (.ok (.payment outcome))) = phase at act
    cases act with
    | clock => cases hphase
    | lost => cases hphase
    | free => cases hphase
    | @answered record hget same =>
      unfold IdempotencyRecord.answer at hphase
      split at hphase
      · cases hphase
      · split at hphase
        · cases hphase
        · next snapshot hsnapshot =>
          cases hphase
          exact .replayed (Table.get_eq_some hget).1 hsnapshot same rfl
    | @executed r hfree commits =>
      rcases commits with ⟨_, e, _, rfl⟩ | ⟨row, effect, rfl | rfl⟩
      · cases hphase
      · cases hphase
        refine .committed (fun question heq => ?_) effect rfl
        rw [handled] at heq
        cases heq
      · cases hphase
  cases hrequest : client.request with
  | authorize => exact keyed (by rw [hrequest]; rfl)
  | capture => exact keyed (by rw [hrequest]; rfl)
  | cancel => exact keyed (by rw [hrequest]; rfl)
  | refund => exact keyed (by rw [hrequest]; rfl)
  | process =>
    obtain ⟨_, heq⟩ := process_confirms hrequest unfinished finished
    cases heq
  | _ =>
    rw [hrequest] at proper
    cases proper

/-- An answer in place of an exception is not that of one. -/
theorem Response.ofExcept_payment {α : Type} {render : α → Body} {result : Except ServiceError α}
    {payment : PaymentResponse} (h : (Response.ofExcept render result).body = .payment payment) :
    ∃ a, result = .ok a ∧ render a = .payment payment := by
  cases result with
  | error e => cases h
  | ok a => exact ⟨a, rfl, h⟩

/-- Only the question for a payment is answered with one, and with the stored version. -/
theorem Question.answer_payment {question : Question} {payment : PaymentResponse}
    (h : (question.answer db).body = .payment payment) :
    ∃ row : PaymentRecord, question = .payment row.id ∧ db.payments.get row.id = some row ∧
      payment = .fromRecord row ∧ (question.answer db).replayed = false := by
  cases question with
  | payment paymentId =>
    obtain ⟨row, hread, hrow⟩ := Response.ofExcept_payment h
    have stored := found_eq_ok hread
    obtain rfl : row.id = paymentId := (Table.get_eq_some stored).2
    refine ⟨row, rfl, stored, (Body.payment.inj hrow).symm, ?_⟩
    show (Response.ofExcept _ (readPayment db row.id)).replayed = false
    rw [hread]
    rfl
  | health => cases h
  | ledger =>
    obtain ⟨_, _, hrow⟩ := Response.ofExcept_payment h
    cases hrow
  | receipt =>
    obtain ⟨_, _, hrow⟩ := Response.ofExcept_payment h
    cases hrow
  | confirmation =>
    obtain ⟨_, _, hrow⟩ := Response.ofExcept_payment h
    cases hrow
  | events => cases h
  | attempts =>
    obtain ⟨_, _, hrow⟩ := Response.ofExcept_payment h
    cases hrow
  | projection =>
    unfold Question.answer at h
    dsimp only at h
    split at h <;> cases h
  | batch =>
    unfold Question.answer at h
    dsimp only at h
    split at h
    · cases h
    · split at h <;> cases h

/-- The question for a stored payment is answered with it. -/
theorem Question.answer_stored {paymentId : String} {row : PaymentRecord}
    (stored : db.payments.get paymentId = some row) :
    (Question.payment paymentId).answer db = .ok (.payment (.fromRecord row)) := by
  show Response.ofExcept _ (readPayment db paymentId) = _
  unfold readPayment found
  rw [stored]
  rfl

/-- **What a step of the server answers with a payment.** -/
theorem Server.shows {before after : Connection}
    (h : Server pydantic sha256 lib db before db' after) (coherent : before.Coherent app lib db)
    {status : Nat} {replayed : Bool} {payment : PaymentResponse}
    (answered : after.ending =
      some (.answered { status := status, replayed := replayed, body := .payment payment })) :
    Shows sha256 before db db' payment replayed := by
  obtain ⟨call, readings, handling, ending⟩ := before
  cases h with
  | breaks => cases answered
  | next unended hnext =>
    have unfinished : handling.Unfinished := coherent.opened unended
    obtain ⟨ended, hended⟩ : ∃ ended, ended = some (Ending.answered
      { status := status, replayed := replayed, body := .payment payment }) := ⟨_, rfl⟩
    rw [← hended] at answered
    cases answered
    cases Handling.next_does hnext with
    | @client client _ hact =>
      have hshows : Shows sha256 ⟨call, readings, .client client, ending⟩ db
          (client.act sha256 db).1 payment replayed :=
        Client.shows coherent.proper coherent.party unfinished rfl (by rw [hact]; exact hended)
      rw [hact] at hshows
      exact hshows
    | courier hnext =>
      unfold courierEnding at hended
      split at hended <;> cases hended
    | consumer hact =>
      unfold consumerEnding at hended
      split at hended
      · next result _ => cases result <;> cases hended
      · cases hended
    | @asked question hsame =>
      have hanswer := Ending.answered.inj (Option.some.inj hended)
      obtain ⟨row, rfl, stored, hpayment, hreplayed⟩ :=
        Question.answer_payment (congrArg Response.body hanswer)
      obtain rfl : false = replayed := hreplayed.symm.trans (congrArg Response.replayed hanswer)
      exact .read rfl stored hsame hpayment
    | imported => cases hended
    | unimported => cases hended
    | listed =>
      unfold importAnswer at hended
      split at hended <;> cases hended
    | compared _ hending => rcases hending with rfl | ⟨e, rfl⟩ <;> cases hended
    | @reported _ _ _ result _ _ => cases result <;> cases hended

/-- A question is answered as the store stands. -/
theorem Server.asked {before after : Connection}
    (h : Server pydantic sha256 lib db before db' after) {question : Question}
    (asked : before.handling = .asking question) {response : Response}
    (answered : after.ending = some (.answered response)) : response = question.answer db := by
  obtain ⟨call, readings, handling, ending⟩ := before
  obtain rfl : handling = .asking question := asked
  cases h with
  | breaks => cases answered
  | next unended hnext =>
    cases hnext
    cases answered
    rfl

/-! ## Published versions -/

/-- A payment as one of its published versions. -/
def Published (db : Database) (payment : PaymentResponse) : Prop :=
  ∃ event ∈ db.webhookEvents.rows, payment = .fromSnapshot event.payload.payment

theorem Published.kept {payment : PaymentResponse} (h : Published db payment)
    (delivers : Delivers db db') : Published db' payment := by
  obtain ⟨event, mem, rfl⟩ := h
  obtain ⟨event', stored, later⟩ := delivers.later (Table.get_of_mem mem)
  refine ⟨event', (Table.get_eq_some stored).1, ?_⟩
  rw [show event'.payload = event.payload from congrArg PublishedEvent.payload later.published]

/-- A published version is of a stored payment, and not ahead of it. -/
theorem Published.stored {payment : PaymentResponse} (h : Published db payment)
    (store : ProducerStore db) (grounded : db.Grounded) :
    ∃ row, db.payments.get payment.id = some row ∧ payment.version ≤ row.version := by
  obtain ⟨event, mem, rfl⟩ := h
  obtain ⟨_, hpayment, _, hversion⟩ := store.payload event mem
  obtain ⟨row, stored⟩ := grounded.events event mem
  have hrow : row.id = event.paymentId := (Table.get_eq_some stored).2
  obtain ⟨_, _, _, _, hlatest, _, highest⟩ := store.latest row (hrow ▸ stored)
  refine ⟨row, ?_, ?_⟩
  · show db.payments.get event.payload.payment.id = some row
    rw [hpayment]
    exact stored
  · show event.payload.payment.version ≤ row.version
    rw [hversion, ← hlatest]
    exact highest event mem hrow.symm

/-- Published versions are told apart by the payment and the version. -/
theorem Published.unique {a b : PaymentResponse} (ha : Published db a) (hb : Published db b)
    (store : ProducerStore db) (hid : a.id = b.id) (hversion : a.version = b.version) : a = b := by
  obtain ⟨x, hx, rfl⟩ := ha
  obtain ⟨y, hy, rfl⟩ := hb
  obtain ⟨_, hpayment, _, haggregate⟩ := store.payload x hx
  obtain ⟨_, hpayment', _, haggregate'⟩ := store.payload y hy
  have hsame : x = y := event_unique hx hy ((hpayment.symm.trans hid).trans hpayment')
    ((haggregate.symm.trans hversion).trans haggregate')
  rw [hsame]

/-- What is stored is published. -/
theorem Published.of_stored {row : PaymentRecord} (store : ProducerStore db)
    (stored : db.payments.get row.id = some row) : Published db (.fromRecord row) := by
  obtain ⟨latest, mem, _, _, _, hpayment, _⟩ := store.latest row stored
  refine ⟨latest, mem, ?_⟩
  rw [hpayment]
  rfl

/-- What is answered is published. -/
theorem Shows.published {before : Connection} {payment : PaymentResponse} {replayed : Bool}
    (h : Shows sha256 before db db' payment replayed) (responses : ResponsesPublished db)
    (store : ProducerStore db') : Published db' payment := by
  cases h with
  | replayed mem hsnapshot hsame hpayment =>
    obtain ⟨event, published, hevent⟩ := responses _ mem _ hsnapshot
    obtain ⟨stored, hstored, rfl⟩ := List.mem_map.mp published
    rw [hsame]
    refine ⟨stored, hstored, ?_⟩
    rw [hpayment, ← hevent]
    rfl
  | read _ stored hsame hpayment =>
    rw [hpayment]
    exact .of_stored store (hsame ▸ stored)
  | committed _ effect hpayment =>
    rw [hpayment]
    exact .of_stored store effect.stored

/-- What is answered, unless it is replayed, is not behind what was published before; a version that
was committed is ahead of it. -/
theorem Shows.ahead {before : Connection} {payment earlier : PaymentResponse}
    (h : Shows sha256 before db db' payment false) (published : Published db earlier)
    (store : ProducerStore db) (grounded : db.Grounded) (hid : earlier.id = payment.id) :
    earlier.version ≤ payment.version ∧
      (before.handling ≠ .asking (.payment payment.id) → earlier.version < payment.version) := by
  obtain ⟨row, stored, hle⟩ := published.stored store grounded
  rw [hid] at stored
  cases h with
  | read handled hrow _ hpayment =>
    subst hpayment
    cases hrow.symm.trans stored
    exact ⟨hle, fun hother => absurd handled hother⟩
  | @committed after key command _ effect hpayment =>
    subst hpayment
    have hlt : earlier.version < after.version := by
      cases effect with
      | created h =>
        have fresh : db.payments.get after.id = none := (Table.insert_eq_some h.payments).2.1
        exact absurd (stored.symm.trans fresh) (Option.some_ne_none _)
      | @operated _ old _ _ _ h =>
        obtain ⟨_, _, hadvances⟩ := h.advances
        have hold := hadvances.stored
        rw [← hadvances.after_id] at hold
        cases stored.symm.trans hold
        have := hadvances.decided.version
        omega
    exact ⟨le_of_lt hlt, fun _ => hlt⟩

end Answers

/-! ## Runs -/

section Runs

variable {ι : Type} {app : App} {pydantic : Pydantic} {sha256 : String → String}
  {lib : StandardLibrary}

/-- A later answer about a payment that was answered before. It is not behind the earlier one, unless
it is replayed, and ahead of it when it commits; a question for the payment is answered with it. A
replayed answer may be behind: it is the response of its first execution, whatever became of the
payment since. -/
structure InOrder (t u : Pool.Transition Database ι Connection) : Prop where
  ahead : ∀ replayed a b, AnswersPayment replayed a t → AnswersPayment false b u → a.id = b.id →
    a.version ≤ b.version ∧ (u.before.handling ≠ .asking (.payment b.id) → a.version < b.version)
  found : ∀ replayed a response, AnswersPayment replayed a t →
    u.before.handling = .asking (.payment a.id) → Answers response u →
      ∃ b, response = .ok (.payment b) ∧ b.id = a.id

variable [DecidableEq ι] {ts : List (Pool.Transition Database ι Connection)}
  {v : Pool.World Database ι Connection}

/-- The store a run of the server reaches: its events, its responses and what they refer to. -/
theorem Served.stores (h : Served app pydantic sha256 lib ts v) :
    ProducerStore v.shared ∧ ResponsesPublished v.shared ∧ v.shared.Grounded :=
  ⟨h.running.execution.producerStore, h.running.execution.responsesPublished,
    h.running.execution.consistent.grounded⟩

/-- **Answers along a run**: whatever is answered is published, and later answers are in order. -/
theorem Served.answers (h : Served app pydantic sha256 lib ts v) :
    (∀ t ∈ ts, ∀ replayed payment, AnswersPayment replayed payment t →
      Published v.shared payment) ∧ ts.Pairwise InOrder := by
  refine h.induction (P := fun ts v => (∀ t ∈ ts, ∀ replayed payment,
    AnswersPayment replayed payment t → Published v.shared payment) ∧ ts.Pairwise InOrder)
    (fun _ _ => ⟨fun _ mem => absurd mem List.not_mem_nil, .nil⟩) ?_
  intro ts u v served enabled tracked coherent ⟨published, ordered⟩
  obtain ⟨store, responses, grounded⟩ := served.stores
  obtain ⟨store', _, _⟩ := (served.append (.single enabled)).stores
  obtain ⟨hpre, _, step⟩ := enabled
  rw [← hpre] at published store responses grounded
  have delivers := (step.coherent tracked coherent).1.delivers
  have kept : ∀ t ∈ ts, ∀ replayed payment, AnswersPayment replayed payment t →
      Published u.post payment := fun t mem replayed payment answered =>
    (published t mem replayed payment answered).kept delivers
  refine ⟨fun t mem replayed payment answered => ?_,
    List.pairwise_append.mpr ⟨ordered, List.pairwise_singleton _ _, fun t mem u' mem' => ?_⟩⟩
  · rcases List.mem_append.mp mem with mem | mem
    · exact kept t mem replayed payment answered
    · rw [List.mem_singleton.mp mem] at answered
      obtain ⟨status, answered⟩ := answered
      exact (step.shows coherent answered).published responses store'
  · rw [List.mem_singleton.mp mem']
    refine ⟨fun replayed a b earlier later hid => ?_, fun replayed a response earlier asked later => ?_⟩
    · obtain ⟨status, later⟩ := later
      exact (step.shows coherent later).ahead (published t mem replayed a earlier) store grounded hid
    · obtain ⟨row, stored, _⟩ := (published t mem replayed a earlier).stored store grounded
      rw [step.asked asked later]
      exact ⟨.fromRecord row, Question.answer_stored stored, (Table.get_eq_some stored).2⟩

/-- **One version, one content, in order**: two answers with one version of a payment have one
content, and no answer but a replayed one is behind an answer before it. -/
theorem answers_in_order (h : Served app pydantic sha256 lib ts v) :
    (∀ t ∈ ts, ∀ u ∈ ts, ∀ r r' a b, AnswersPayment r a t → AnswersPayment r' b u →
      a.id = b.id → a.version = b.version → a = b) ∧ ts.Pairwise InOrder := by
  obtain ⟨published, ordered⟩ := h.answers
  refine ⟨fun t ht u hu r r' a b first second hid hversion => ?_, ordered⟩
  exact (published t ht r a first).unique (published u hu r' b second) h.stores.1 hid hversion

end Runs

/-! ## A day of the shop -/

/-- Who calls the API of a shop: a customer, the same customer once more, a stranger under the same
key, a cashier, a reader, and the courier of the outbox. -/
inductive Caller where
  | customer
  | again
  | stranger
  | cashier
  | reader
  | courier
  deriving DecidableEq

/-- A shop that injects no failures. -/
def shopApp : App where
  failureInjectionEnabled := false
  webhookSigningSecret := "whsec_merchant"
  confirmationSigningSecret := "whsec_provider"

/-- Integers as they are written. -/
def plainPydantic : Pydantic where
  readInt
    | .int n => some n
    | _ => none
  readJsonInt
    | .int n => some n
    | _ => none
  readAware _ := none
  readJsonBool _ := none
  parseJson _ := none

/-- Decimal digits. -/
def readDigits (digits : List Char) : Option Nat :=
  if digits ≠ [] ∧ digits.all Char.isDigit = true then some (Nat.ofDigitChars 10 digits 0) else none

/-- `int()`, on decimal digits with or without a sign. -/
def readDecimal (text : String) : Option Int :=
  match text.toList with
  | '-' :: digits => (readDigits digits).map fun n : Nat => -(n : Int)
  | digits => (readDigits digits).map fun n : Nat => (n : Int)

/-- The standard library, on the bodies of a purchase. -/
def shopLibrary : StandardLibrary :=
  { purchaseLibrary with hmacSha256 := emptyDigest, readInt := readDecimal }

/-- The readings of a caller. -/
def readingsOf (draw : String) (now : Instant) : Readings where
  paymentClock := .aware now
  confirmationClock := .aware now
  acceptanceClock := .aware now
  claimedAt := now
  now := now
  draws := ⟨draw, draw, draw, draw⟩
  hex := draw
  rowDraws _ := draw
  refused := false

/-- The body of an order. -/
def orderBody (amount : Int) : HttpBody :=
  .json (.obj [("merchant_reference", .str "order-1"), ("amount", .int amount),
    ("currency", .str "USD"), ("payment_method_token", .str "tok_approved")])

/-- The request of each caller. -/
def Caller.call : Caller → Call
  | .customer | .again => .createPayment (some "order-key") none (orderBody 1000)
  | .stranger => .createPayment (some "order-key") none (orderBody 2000)
  | .cashier => .captureAuthorization "pay_1" (some "capture-key") none
  | .reader => .retrievePayment "pay_1"
  | .courier => .deliverWebhookEvent "evt_1" none

/-- What each caller's handling draws. -/
def Caller.draw : Caller → String
  | .customer => "1"
  | .cashier => "2"
  | .again => "3"
  | .stranger => "4"
  | .reader | .courier => "5"

/-- When each caller comes. -/
def Caller.time : Caller → Instant
  | .cashier => 1
  | _ => 0

/-- The shop before it opens. -/
def openingHour : Pool.World Database Caller Connection where
  shared := .empty
  threads caller :=
    .arrive shopApp plainPydantic shopLibrary (readingsOf caller.draw caller.time) caller.call

theorem openingHour_arrivals : Arrivals shopApp plainPydantic shopLibrary openingHour :=
  ⟨rfl, fun caller => ⟨_, caller.call, rfl⟩⟩

/-- An order that is delivered, sent again by the customer and by a stranger, captured and read. -/
def businessHours : List Caller :=
  List.replicate 2 .customer ++ List.replicate 8 .courier ++ [.again, .stranger] ++
    List.replicate 2 .cashier ++ [.reader]

def closingHour : Pool.World Database Caller Connection :=
  Pool.operate (Connection.next plainPydantic id shopLibrary) businessHours openingHour

theorem closingHour_served :
    ∃ ts, Served shopApp plainPydantic id shopLibrary ts closingHour :=
  Served.operate plainPydantic id shopLibrary openingHour_arrivals businessHours

/-- The answers of that day. -/
theorem closingHour_in_order :
    ∃ ts, Served shopApp plainPydantic id shopLibrary ts closingHour ∧
      (∀ t ∈ ts, ∀ u ∈ ts, ∀ r r' a b, AnswersPayment r a t → AnswersPayment r' b u →
        a.id = b.id → a.version = b.version → a = b) ∧ ts.Pairwise InOrder := by
  obtain ⟨ts, h⟩ := closingHour_served
  exact ⟨ts, h, answers_in_order h⟩

/-- The status of an answer. -/
def Connection.status (connection : Connection) : Option Nat :=
  match connection.ending with
  | some (.answered response) => some response.status
  | _ => none

example : ([.customer, .courier, .again, .stranger, .cashier, .reader] : List Caller).map
    (fun caller => (closingHour.threads caller).status) =
      [some 201, some 200, some 200, some 409, some 200, some 200] := by decide +kernel

end Api

end PaymentLab
