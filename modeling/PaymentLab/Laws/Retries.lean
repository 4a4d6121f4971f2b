import PaymentLab.Laws.Answers

/-!
# Retries over the API

A request under an idempotency key that committed, or was answered with a payment, has settled what
the key is answered with: from then on, whatever else the server does in between, the same command is
answered with 200, the header `Idempotent-Replayed` and that payment, and another command with
`idempotency_conflict` (`retries_repeat`). A commit whose answer was lost is one of them, and the
payment is one and the same for all later requests.

It is about requests that were admitted. One that its headers or body turn away when it arrives, such
as a failure header on an application that injects no failures, is answered without its key being
read.

Of the first request it is asked that it committed or was answered. One that failed before its
commit leaves the key free, and the next request under it is a first one. Lost answers, crashes
between the commit and the answer, and any requests under other keys are part of the runs; the
digest is assumed to tell the commands apart.
-/

namespace PaymentLab.Api

open Relational Transactional Transactional.Service

section Steps

variable {ι : Type} {app : App} {pydantic : Pydantic} {sha256 : String → String}
  {lib : StandardLibrary} {db db' : Database} {key : String} {command : KeyedCommand}

/-! ## What a key is answered with -/

/-- A step handles an admitted request under a key, whose clock reading has an offset. A request that
was turned away when it arrived has no such step. -/
def Sends (key : String) (command : KeyedCommand) (t : Pool.Transition Database ι Connection) :
    Prop :=
  ∃ client : Client, t.before.handling = .client client ∧
    client.request.keyed = some (key, command) ∧ ¬client.request.NaiveClock

/-- The record of a key: the command it was claimed by, and the payment it is answered with. The
record holds this payment itself, so that a later change of the row does not reach it. -/
def Keeps (sha256 : String → String) (key : String) (command : KeyedCommand)
    (payment : PaymentResponse) (db : Database) : Prop :=
  ∃ record snapshot, db.idempotencyRecords.get key = some record ∧
    record.requestFingerprint = command.fingerprint sha256 ∧
    record.responseSnapshot = some snapshot ∧ payment = .fromSnapshot snapshot

/-- The answer under a kept key. -/
def keptAnswer (command : KeyedCommand) (payment : PaymentResponse) (sent : KeyedCommand) :
    Response :=
  if sent = command then { status := 200, replayed := true, body := .payment payment }
  else .serviceError .idempotencyConflict

theorem KeyedEffect.keeps {payment : PaymentRecord}
    (h : KeyedEffect sha256 key command payment db db') :
    Keeps sha256 key command (.fromRecord payment) db' := by
  obtain ⟨record, hinsert, rfl, hfingerprint, _, hsnapshot⟩ := h.claim
  exact ⟨record, _, Table.get_insert_self hinsert, hfingerprint, hsnapshot, rfl⟩

/-- A record stays. -/
theorem Keeps.kept {payment : PaymentResponse} (h : Keeps sha256 key command payment db)
    (effects : Relation.ReflTransGen (Effect sha256) db db') :
    Keeps sha256 key command payment db' := by
  obtain ⟨record, snapshot, hget, rest⟩ := h
  exact ⟨record, snapshot, effects_keep (fun hrecord e => e.record_kept hrecord) effects hget, rest⟩

/-- The record of a key answers its own command with the payment. -/
theorem Keeps.own_answer {payment : PaymentResponse} {record : IdempotencyRecord}
    (h : Keeps sha256 key command payment db)
    (stored : db.idempotencyRecords.get key = some record) (request : Request) :
    Response.ofResult pydantic request ((record.answer (command.fingerprint sha256)).map .payment) =
      { status := 200, replayed := true, body := .payment payment } := by
  obtain ⟨_, snapshot, hget, hfingerprint, hsnapshot, rfl⟩ := h
  cases stored.symm.trans hget
  unfold IdempotencyRecord.answer
  rw [if_neg (not_not.mpr hfingerprint), hsnapshot]
  show Response.ofOutcome (isCreation request) (.replay snapshot) = _
  unfold Response.ofOutcome
  rw [show (PaymentOutcome.replay snapshot).replayed = true from rfl, Bool.not_true, Bool.and_false]
  rfl

/-- The answer of the record of a key. -/
theorem Keeps.answer (injective : Function.Injective sha256) {payment : PaymentResponse}
    {record : IdempotencyRecord} (h : Keeps sha256 key command payment db)
    (stored : db.idempotencyRecords.get key = some record) (request : Request)
    (sent : KeyedCommand) :
    Response.ofResult pydantic request ((record.answer (sent.fingerprint sha256)).map .payment) =
      keptAnswer command payment sent := by
  unfold keptAnswer
  by_cases hsent : sent = command
  · rw [if_pos hsent, hsent]
    exact h.own_answer stored request
  · obtain ⟨_, _, hget, hfingerprint, _⟩ := h
    cases stored.symm.trans hget
    have hother : record.requestFingerprint ≠ sent.fingerprint sha256 := by
      rw [hfingerprint]
      exact fun heq => hsent (KeyedCommand.fingerprint_injective injective heq).symm
    unfold IdempotencyRecord.answer
    rw [if_neg hsent, if_pos hother]
    rfl

/-! ## One step -/

/-- A request that commits, or is answered with a payment, leaves the record of its key. -/
theorem Client.keeps {client : Client} (coherent : client.Coherent db)
    (unfinished : ¬client.phase.Ended) (hkey : client.request.keyed = some (key, command))
    (settles : (client.act sha256 db).1 ≠ db ∨ ∃ outcome,
      (client.act sha256 db).2.phase = .finished (.ok (.payment outcome))) :
    ∃ payment, Keeps sha256 key command payment (client.act sha256 db).1 ∧
      ∀ outcome, (client.act sha256 db).2.phase = .finished (.ok (.payment outcome)) →
        PaymentResponse.ofOutcome outcome.payment = payment := by
  have act := (Client.keyed_act sha256 hkey coherent.admits unfinished coherent.sound).1
  generalize (client.act sha256 db).2.phase = phase at act settles ⊢
  cases act with
  | clock _ _ same _ =>
    rcases settles with changed | ⟨outcome, heq⟩
    · exact absurd same changed
    · cases heq
  | lost _ same _ =>
    rcases settles with changed | ⟨outcome, heq⟩
    · exact absurd same changed
    · cases heq
  | free _ same _ =>
    rcases settles with changed | ⟨outcome, heq⟩
    · exact absurd same changed
    · cases heq
  | @answered record hget same =>
    rcases settles with changed | ⟨outcome, heq⟩
    · exact absurd same changed
    · -- the record answers with a payment, so it is of this command
      unfold IdempotencyRecord.answer at heq ⊢
      split at heq
      · cases heq
      · next hfingerprint =>
        split at heq
        · cases heq
        · next snapshot hsnapshot =>
          refine ⟨.fromSnapshot snapshot, ⟨record, snapshot, by rw [same]; exact hget,
            not_not.mp hfingerprint, hsnapshot, rfl⟩, fun outcome' heq' => ?_⟩
          rw [if_neg hfingerprint] at heq'
          cases heq'
          rfl
  | @executed r hfree commits =>
    rcases commits with ⟨same, e, _, rfl⟩ | ⟨row, effect, hanswer⟩
    · rcases settles with changed | ⟨outcome, heq⟩
      · exact absurd same changed
      · cases heq
    · refine ⟨.fromRecord row, KeyedEffect.keeps effect, fun outcome heq => ?_⟩
      rcases hanswer with rfl | rfl <;> cases heq
      rfl

/-- Where a record is under the key, a call that ends is answered by it. -/
theorem Client.recorded {client : Client} (coherent : client.Coherent db)
    (unfinished : ¬client.phase.Ended) (hkey : client.request.keyed = some (key, command))
    (punctual : ¬client.request.NaiveClock) {record : IdempotencyRecord}
    (stored : db.idempotencyRecords.get key = some record) {response : Response}
    (answered : clientEnding pydantic (client.act sha256 db).2 = some (.answered response)) :
    response = Response.ofResult pydantic client.request
      ((record.answer (command.fingerprint sha256)).map .payment) := by
  obtain ⟨result, finished, rfl⟩ := clientEnding_eq_answered answered
  have act := (Client.keyed_act sha256 hkey coherent.admits unfinished coherent.sound).1
  generalize (client.act sha256 db).2.phase = phase at act finished
  cases act with
  | clock naive _ _ _ => exact absurd naive punctual
  | lost => cases finished
  | free => cases finished
  | answered hget _ =>
    cases finished
    cases stored.symm.trans hget
    rfl
  | executed hfree _ =>
    rw [stored] at hfree
    cases hfree

end Steps

/-! ## Runs -/

section Runs

variable {ι : Type} {app : App} {pydantic : Pydantic} {sha256 : String → String}
  {lib : StandardLibrary}

/-- A request under a key committed, or was answered with a payment. The two do not go together: a
committed request may be lost before its answer, and a replay is answered without a commit. -/
def Settles (key : String) (command : KeyedCommand) (t : Pool.Transition Database ι Connection) :
    Prop :=
  Sends key command t ∧ (t.post ≠ t.pre ∨ ∃ replayed payment, AnswersPayment replayed payment t)

/-- What is answered under the key that a step settles, over all the steps after it: always the one
payment, which is also what the step itself answered if it answered. -/
def Repeats (t : Pool.Transition Database ι Connection)
    (later : List (Pool.Transition Database ι Connection)) : Prop :=
  ∀ key command, Settles key command t → ∃ payment,
    (∀ replayed answered, AnswersPayment replayed answered t → answered = payment) ∧
    ∀ u ∈ later, ∀ sent response, Sends key sent u → Answers response u →
      response = keptAnswer command payment sent

/-- What a step settled is recorded, as the invariant of a run needs it: the answer to come is read
off the record. -/
def Settled (sha256 : String → String) (t : Pool.Transition Database ι Connection)
    (db : Database) : Prop :=
  ∀ key command, Settles key command t → ∃ payment, Keeps sha256 key command payment db ∧
    ∀ replayed answered, AnswersPayment replayed answered t → answered = payment

/-- A step of a request under a key that commits, or answers with a payment, leaves the record of the
key. -/
theorem Server.keeps {t : Pool.Transition Database ι Connection}
    (step : Server pydantic sha256 lib t.pre t.before t.post t.after)
    (coherent : t.before.Coherent app lib t.pre) {client : Client}
    (handled : t.before.handling = .client client) {key : String} {command : KeyedCommand}
    (hkey : client.request.keyed = some (key, command))
    (settles : t.post ≠ t.pre ∨ ∃ replayed payment, AnswersPayment replayed payment t) :
    ∃ payment, Keeps sha256 key command payment t.post ∧
      ∀ replayed answered, AnswersPayment replayed answered t → answered = payment := by
  obtain ⟨unfinished, coherent', ⟨same, broken⟩ | ⟨hpost, hending⟩⟩ :=
    step.client_cases coherent handled
  · rcases settles with changed | ⟨_, _, _, answered⟩
    · exact absurd same changed
    · cases broken.symm.trans answered
  · have outcomes : ∀ replayed payment, AnswersPayment replayed payment t → ∃ outcome,
        (client.act sha256 t.pre).2.phase = .finished (.ok (.payment outcome)) ∧
          payment = .ofOutcome outcome.payment := by
      intro replayed payment ⟨status, answered⟩
      obtain ⟨result, finished, hresponse⟩ :=
        clientEnding_eq_answered (hending.symm.trans answered)
      obtain ⟨outcome, rfl, _, hpayment⟩ := Response.ofResult_payment hresponse
      exact ⟨outcome, finished, hpayment⟩
    obtain ⟨payment, keeps, same⟩ := Client.keeps coherent' unfinished hkey
      (settles.imp (fun changed => by rw [hpost]; exact changed) fun ⟨replayed, payment, answered⟩ =>
        (outcomes replayed payment answered).imp fun _ => And.left)
    rw [hpost] at keeps
    refine ⟨payment, keeps, fun replayed answered hanswered => ?_⟩
    obtain ⟨outcome, finished, rfl⟩ := outcomes replayed answered hanswered
    exact same outcome finished

/-- A step that settles a key records it. -/
theorem Server.settled {t : Pool.Transition Database ι Connection}
    (step : Server pydantic sha256 lib t.pre t.before t.post t.after)
    (coherent : t.before.Coherent app lib t.pre) : Settled sha256 t t.post := by
  intro key command ⟨⟨client, handled, hkey, _⟩, settles⟩
  exact step.keeps coherent handled hkey settles

variable [DecidableEq ι] {ts : List (Pool.Transition Database ι Connection)}
  {v : Pool.World Database ι Connection}

/-- **A settled key repeats its answer** to every later request that sends it. The induction is on the
run; what is carried along it is the record of the key, which fixes the payment. -/
theorem retries_repeat (h : Served app pydantic sha256 lib ts v)
    (injective : Function.Injective sha256)
    {before later : List (Pool.Transition Database ι Connection)}
    {t : Pool.Transition Database ι Connection} (split : ts = before ++ t :: later) :
    Repeats t later := by
  have kept : ∀ before t later, ts = before ++ t :: later → ∀ key command, Settles key command t →
      ∃ payment, Keeps sha256 key command payment v.shared ∧
        (∀ replayed answered, AnswersPayment replayed answered t → answered = payment) ∧
        ∀ u ∈ later, ∀ sent response, Sends key sent u → Answers response u →
          response = keptAnswer command payment sent := by
    refine h.induction (P := fun ts v => ∀ before t later, ts = before ++ t :: later →
      ∀ key command, Settles key command t → ∃ payment,
        Keeps sha256 key command payment v.shared ∧
        (∀ replayed answered, AnswersPayment replayed answered t → answered = payment) ∧
        ∀ u ∈ later, ∀ sent response, Sends key sent u → Answers response u →
          response = keptAnswer command payment sent) (fun _ _ _ _ _ hts => by simp at hts) ?_
    intro ts u v _ enabled _ coherent ih before t later hts key command settles
    obtain ⟨hpre, _, step⟩ := enabled
    rcases List.eq_nil_or_concat later with rfl | ⟨front, last, rfl⟩
    · -- the last step is the one that settles
      obtain ⟨rfl, hlast⟩ := List.append_inj' hts rfl
      cases hlast
      obtain ⟨payment, keeps, answered⟩ := step.settled coherent key command settles
      exact ⟨payment, keeps, answered, fun _ mem => absurd mem List.not_mem_nil⟩
    · rw [List.concat_eq_append, ← List.cons_append, ← List.append_assoc] at hts
      obtain ⟨rfl, hlast⟩ := List.append_inj' hts rfl
      cases hlast
      obtain ⟨payment, keeps, answered, repeated⟩ := ih before t front rfl key command settles
      rw [← hpre] at keeps
      refine ⟨payment, keeps.kept (step.effects coherent), answered, ?_⟩
      intro u' mem sent response sends hanswers
      rw [List.concat_eq_append] at mem
      rcases List.mem_append.mp mem with mem | mem
      · exact repeated u' mem sent response sends hanswers
      · rw [List.mem_singleton.mp mem] at sends hanswers
        obtain ⟨client, handled, hkey, punctual⟩ := sends
        obtain ⟨unfinished, coherent', ⟨_, broken⟩ | ⟨_, hending⟩⟩ :=
          step.client_cases coherent handled
        · cases broken.symm.trans hanswers
        · obtain ⟨record, _, stored, _⟩ := id keeps
          rw [Client.recorded coherent' unfinished hkey punctual stored
            (hending.symm.trans hanswers)]
          exact keeps.answer injective stored _ sent
  intro key command settles
  obtain ⟨payment, _, repeated⟩ := kept before t later split key command settles
  exact ⟨payment, repeated⟩

/-- The retries of a day of the shop. -/
theorem closingHour_repeats :
    ∃ ts, Served shopApp plainPydantic id shopLibrary ts closingHour ∧
      ∀ before t later, ts = before ++ t :: later → Repeats t later := by
  obtain ⟨ts, h⟩ := closingHour_served
  exact ⟨ts, h, fun _ _ _ split => retries_repeat h Function.injective_id split⟩

end Runs

end PaymentLab.Api
