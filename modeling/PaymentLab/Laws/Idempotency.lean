import PaymentLab.Laws.Fingerprints
import PaymentLab.Laws.Ledger

/-!
# Idempotency over whole executions

Under one key an execution has at most one effect. Before it the key is free and every call under it
runs as a first call; after it the key holds the response of that effect, which every later call
reads: the same command replays it, any other is refused, and neither writes anything.

The digest is assumed injective. Then a fingerprint determines the command
(`KeyedCommand.fingerprint_injective`).

An execution interleaves the transactions of any number of clients, and two calls under one key may
both have found it free. What decides between them is the primary key of the claim, checked when the
second flushes: it then reads the record that the first has committed. The statement is about what
calls do and answer, not about whether a first call succeeds: a key may stay free in spite of any
number of calls under it, each of which failed on its own.
-/

namespace PaymentLab

open Relational Transactional

/-! ## Records are kept -/

section Records

variable {sha256 : String → String} {key : String} {db db' : Database}

/-- No effect changes or removes a stored record. -/
theorem Effect.record_kept (h : Effect sha256 db db') {record : IdempotencyRecord}
    (hget : db.idempotencyRecords.get key = some record) :
    db'.idempotencyRecords.get key = some record := by
  cases h with
  | created h =>
    obtain ⟨_, hclaim⟩ := h.claim
    exact Table.get_insert_of_some hclaim hget
  | operated h =>
    obtain ⟨_, hclaim⟩ := h.claim
    exact Table.get_insert_of_some hclaim hget
  | received h => rwa [h.claims]
  | settled h => rwa [h.claims]
  | expired h => rwa [h.claims]
  | background h => rwa [h.claims]

/-- A commit claims no key but its own. -/
theorem Commits.key_free {request : Request} (h : Commits sha256 request db db')
    (other : ∀ command, request.keyed ≠ some (key, command))
    (hfree : db.idempotencyRecords.get key = none) : db'.idempotencyRecords.get key = none := by
  cases h with
  | nothing same => rwa [same]
  | @keyed k command payment hkey h =>
    obtain ⟨record, hinsert, hrecord, _⟩ := h.claim
    rw [Table.get_insert hinsert, if_neg, hfree]
    intro heq
    have heq : record.key = key := heq
    exact other command (by rw [hkey, ← hrecord, heq])
  | received _ h => rwa [h.claims]
  | settled _ h => rwa [h.claims]
  | swept _ h =>
    induction h with
    | refl => exact hfree
    | tail _ one ih =>
      obtain ⟨_, _, hexpired⟩ := one
      rw [hexpired.claims]
      exact ih

end Records

/-! ## One transition -/

section Transitions

variable {ι : Type} {sha256 : String → String} {key : String}

/-- A client whose request carries the key, with its command, takes the transition. The key of a
request is the one it is sent with; whether anything is stored under it is not said here. -/
def Under (key : String) (command : KeyedCommand) (client : Client)
    (t : Pool.Transition Database ι (Option Client)) : Prop :=
  t.before = some client ∧ client.request.keyed = some (key, command)

/-- The transition ends a call with a result. A call that was interrupted, its process gone, ends
with none. -/
def EndsWith (client : Client) (result : Except ServiceError Answer)
    (t : Pool.Transition Database ι (Option Client)) : Prop :=
  ¬client.phase.Ended ∧ ∃ after, t.after = some after ∧ after.phase = .finished result

/-- The one effect under a key, all of it in one transition: the key was free, the command took
effect, and the call is answered with its payment, or is told of a timeout that was asked for after
the commit. What the effect of a command is, in rows, is `KeyedEffect`. -/
structure Claims (sha256 : String → String) (key : String) (command : KeyedCommand)
    (payment : PaymentRecord) (t : Pool.Transition Database ι (Option Client)) : Prop where
  free : t.pre.idempotencyRecords.get key = none
  effect : KeyedEffect sha256 key command payment t.pre t.post
  answer : ∃ client, Under key command client t ∧
    (EndsWith client (.ok (.payment { payment := .record payment, replayed := false })) t ∨
      EndsWith client (.error (.simulatedPaymentTimeout .afterCommit)) t)

/-- A transition while the key is free: under the key nothing is written, and a call that ends has
failed on its own; it neither replays nor conflicts. Calls under other keys may do anything but take
this one. -/
structure RunsFirst (key : String) (t : Pool.Transition Database ι (Option Client)) : Prop where
  before : t.pre.idempotencyRecords.get key = none
  after : t.post.idempotencyRecords.get key = none
  unwritten : ∀ command client, Under key command client t → t.post = t.pre
  failed : ∀ command client result, Under key command client t → EndsWith client result t →
    ∃ e, result = .error e ∧ e ≠ .idempotencyConflict

/-- A transition after the effect: under the key nothing is written, the same command is answered
with the payment as it was committed, and any other is refused. Only a request whose clock is refused
before the key is read ends otherwise. The replayed payment is that of the first execution, whatever
has become of the row since. -/
structure Repeats (key : String) (command : KeyedCommand) (payment : PaymentRecord)
    (t : Pool.Transition Database ι (Option Client)) : Prop where
  unwritten : ∀ other client, Under key other client t → t.post = t.pre
  replayed : ∀ client result, Under key command client t → EndsWith client result t →
    ¬client.request.NaiveClock → result = .ok (.payment (.replay (.fromPayment payment)))
  refused : ∀ other client result, Under key other client t → other ≠ command →
    EndsWith client result t → ¬client.request.NaiveClock → result = .error .idempotencyConflict

/-- A move that ends a call is its last transaction. -/
theorem Moves.acts {t : Pool.Transition Database ι (Option Client)} (h : Moves sha256 t)
    {client : Client} (hbefore : t.before = some client) :
    (t.post = t.pre ∧ ∀ result, ¬EndsWith client result t) ∨
      client.Coherent t.pre ∧ ¬client.phase.Ended ∧ t.post = (client.act sha256 t.pre).1 ∧
        t.after = some (client.act sha256 t.pre).2 := by
  cases h with
  | background hnone _ =>
    rw [hbefore] at hnone
    cases hnone
  | aside other after hother hafter same how =>
    cases hbefore.symm.trans hother
    refine .inl ⟨same, fun result ⟨unfinished, last, hlast, hphase⟩ => ?_⟩
    cases hafter.symm.trans hlast
    rcases how with ended | kept | interrupted
    · exact unfinished ended
    · exact unfinished (by rw [← kept, hphase]; trivial)
    · rw [hphase] at interrupted
      cases interrupted
  | acted acting hacting coherent unfinished hpost hafter =>
    cases hbefore.symm.trans hacting
    exact .inr ⟨coherent, unfinished, hpost, hafter⟩

/-- Under a free key, a transition runs as a first call or commits the effect. -/
theorem Moves.under_free {t : Pool.Transition Database ι (Option Client)} (h : Moves sha256 t)
    (hfree : t.pre.idempotencyRecords.get key = none) {command : KeyedCommand} {client : Client}
    (under : Under key command client t) :
    (∃ payment, Claims sha256 key command payment t) ∨
      t.post = t.pre ∧ ∀ result, EndsWith client result t →
        ∃ e, result = .error e ∧ e ≠ .idempotencyConflict := by
  rcases h.acts under.1 with ⟨same, noEnd⟩ | ⟨coherent, unfinished, hpost, hafter⟩
  · exact .inr ⟨same, fun result ends => absurd ends (noEnd result)⟩
  · have act := (Client.keyed_act sha256 under.2 coherent.admits unfinished
      coherent.sound).1
    rw [← hpost] at act
    have phaseOf : ∀ {result}, EndsWith client result t →
        (client.act sha256 t.pre).2.phase = .finished result := by
      intro result ⟨_, last, hlast, hphase⟩
      cases hafter.symm.trans hlast
      exact hphase
    generalize hnext : (client.act sha256 t.pre).2.phase = next at act phaseOf
    cases act with
    | clock _ _ same he =>
      refine .inr ⟨same, fun result ends => ?_⟩
      cases phaseOf ends
      exact ⟨_, rfl, he⟩
    | answered hget _ =>
      rw [hfree] at hget
      cases hget
    | lost hget _ _ =>
      rw [hfree] at hget
      cases hget
    | free _ same _ => exact .inr ⟨same, fun result ends => nomatch phaseOf ends⟩
    | executed _ commits =>
      rcases commits with ⟨same, e, he, rfl⟩ | ⟨payment, heffect, hanswer⟩
      · refine .inr ⟨same, fun result ends => ?_⟩
        cases phaseOf ends
        exact ⟨e, rfl, he⟩
      · refine .inl ⟨payment, hfree, heffect, client, under, ?_⟩
        rcases hanswer with rfl | rfl
        · exact .inl ⟨unfinished, _, hafter, hnext⟩
        · exact .inr ⟨unfinished, _, hafter, hnext⟩

/-- Under a taken key, a transition reads the stored record. -/
theorem Moves.under_taken {t : Pool.Transition Database ι (Option Client)} (h : Moves sha256 t)
    {record : IdempotencyRecord} (hget : t.pre.idempotencyRecords.get key = some record)
    {command : KeyedCommand} {client : Client} (under : Under key command client t) :
    t.post = t.pre ∧ ∀ result, EndsWith client result t → ¬client.request.NaiveClock →
      result = (record.answer (command.fingerprint sha256)).map .payment := by
  rcases h.acts under.1 with ⟨same, noEnd⟩ | ⟨coherent, unfinished, hpost, hafter⟩
  · exact ⟨same, fun result ends => absurd ends (noEnd result)⟩
  · have act := (Client.keyed_act sha256 under.2 coherent.admits unfinished
      coherent.sound).1
    rw [← hpost] at act
    have phaseOf : ∀ {result}, EndsWith client result t →
        (client.act sha256 t.pre).2.phase = .finished result := by
      intro result ⟨_, last, hlast, hphase⟩
      cases hafter.symm.trans hlast
      exact hphase
    generalize (client.act sha256 t.pre).2.phase = next at act phaseOf
    cases act with
    | clock naive _ same _ => exact ⟨same, fun _ _ hclock => absurd naive hclock⟩
    | answered hstored same =>
      cases hget.symm.trans hstored
      refine ⟨same, fun result ends _ => ?_⟩
      cases phaseOf ends
      rfl
    | lost _ same _ => exact ⟨same, fun result ends => nomatch phaseOf ends⟩
    | free hfree _ _ =>
      rw [hget] at hfree
      cases hfree
    | executed hfree _ =>
      rw [hget] at hfree
      cases hfree

/-- A transition while the key is free leaves it free, or commits the effect. -/
theorem Moves.of_free {t : Pool.Transition Database ι (Option Client)} (h : Moves sha256 t)
    (hfree : t.pre.idempotencyRecords.get key = none) :
    RunsFirst key t ∨ ∃ command payment, Claims sha256 key command payment t := by
  by_cases hunder : ∃ command client, Under key command client t
  · obtain ⟨command, client, under⟩ := hunder
    rcases h.under_free hfree under with ⟨payment, claims⟩ | ⟨same, hfailed⟩
    · exact .inr ⟨command, payment, claims⟩
    · refine .inl ⟨hfree, by rw [same]; exact hfree, fun _ _ _ => same, ?_⟩
      intro other client' result under' ends
      cases under.1.symm.trans under'.1
      exact hfailed result ends
  · have noUnder : ∀ command client, ¬Under key command client t :=
      fun command client under => hunder ⟨command, client, under⟩
    refine .inl ⟨hfree, ?_, fun command client under => absurd under (noUnder command client),
      fun command client _ under => absurd under (noUnder command client)⟩
    cases h with
    | background _ h => rwa [h.claims]
    | aside _ _ _ _ same _ => rwa [same]
    | acted client hbefore coherent unfinished hpost _ =>
      rw [hpost]
      exact (Client.act_commits sha256 coherent.admits unfinished
        coherent.sound).commits.key_free
          (fun command hkey => noUnder command client ⟨hbefore, hkey⟩) hfree

/-- The record of a committed effect. -/
def Responds (sha256 : String → String) (key : String) (command : KeyedCommand)
    (payment : PaymentRecord) (db : Database) : Prop :=
  ∃ record, db.idempotencyRecords.get key = some record ∧
    record.requestFingerprint = command.fingerprint sha256 ∧
    record.responseSnapshot = some (.fromPayment payment)

theorem Claims.responds {t : Pool.Transition Database ι (Option Client)} {command : KeyedCommand}
    {payment : PaymentRecord} (h : Claims sha256 key command payment t) :
    Responds sha256 key command payment t.post := by
  obtain ⟨record, hinsert, rfl, hfingerprint, _, hsnapshot⟩ := h.effect.claim
  exact ⟨record, Table.get_insert_self hinsert, hfingerprint, hsnapshot⟩

/-- A transition while the key is taken repeats the response, and leaves it. -/
theorem Moves.of_taken (injective : Function.Injective sha256)
    {t : Pool.Transition Database ι (Option Client)} (h : Moves sha256 t) {command : KeyedCommand}
    {payment : PaymentRecord} (responds : Responds sha256 key command payment t.pre) :
    Repeats key command payment t ∧ Responds sha256 key command payment t.post := by
  obtain ⟨record, hget, hfingerprint, hsnapshot⟩ := responds
  refine ⟨⟨fun other client under => (h.under_taken hget under).1, ?_, ?_⟩, ?_⟩
  · intro client result under ends hclock
    rw [(h.under_taken hget under).2 result ends hclock]
    unfold IdempotencyRecord.answer
    rw [if_neg (not_not.mpr hfingerprint), hsnapshot]
    rfl
  · intro other client result under hne ends hclock
    rw [(h.under_taken hget under).2 result ends hclock]
    unfold IdempotencyRecord.answer
    rw [if_pos]
    · rfl
    · rw [hfingerprint]
      exact fun heq => hne (KeyedCommand.fingerprint_injective injective heq).symm
  · exact ⟨record, effects_keep (fun hrecord e => e.record_kept hrecord) h.effects hget,
      hfingerprint, hsnapshot⟩

variable [DecidableEq ι] {ts : List (Pool.Transition Database ι (Option Client))}
  {v : Pool.World Database ι (Option Client)}

/-- An execution under a key, with the record it leaves. -/
theorem Execution.under_key (h : Execution sha256 ts v) (injective : Function.Injective sha256)
    (key : String) :
    (v.shared.idempotencyRecords.get key = none ∧ ∀ t ∈ ts, RunsFirst key t) ∨
      ∃ before t after command payment, ts = before ++ t :: after ∧
        (∀ u ∈ before, RunsFirst key u) ∧ Claims sha256 key command payment t ∧
        (∀ u ∈ after, Repeats key command payment u) ∧
        Responds sha256 key command payment v.shared := by
  refine h.induction (P := fun ts db =>
    (db.idempotencyRecords.get key = none ∧ ∀ t ∈ ts, RunsFirst key t) ∨
      ∃ before t after command payment, ts = before ++ t :: after ∧
        (∀ u ∈ before, RunsFirst key u) ∧ Claims sha256 key command payment t ∧
        (∀ u ∈ after, Repeats key command payment u) ∧ Responds sha256 key command payment db)
    (.inl ⟨rfl, fun _ mem => nomatch mem⟩) ?_
  intro ts t v _ hpre moves ih
  rw [← hpre] at ih
  have forEach : ∀ {P : Pool.Transition Database ι (Option Client) → Prop}
      {us : List (Pool.Transition Database ι (Option Client))}, (∀ u ∈ us, P u) → P t →
        ∀ u ∈ us ++ [t], P u := by
    intro P us all this u mem
    rcases List.mem_append.mp mem with mem | mem
    · exact all u mem
    · rw [List.mem_singleton.mp mem]
      exact this
  rcases ih with ⟨hfree, hall⟩ | ⟨before, claim, after, command, payment, rfl, hbefore, claims,
    hafter, responds⟩
  · rcases moves.of_free hfree with first | ⟨command, payment, claims⟩
    · exact .inl ⟨first.after, forEach hall first⟩
    · exact .inr ⟨ts, t, [], command, payment, rfl, hall, claims, (fun _ mem => nomatch mem),
        claims.responds⟩
  · obtain ⟨repeats, responds'⟩ := moves.of_taken injective responds
    exact .inr ⟨before, claim, after ++ [t], command, payment, by simp only [List.append_assoc,
      List.cons_append], hbefore, claims, forEach hafter repeats, responds'⟩

/-- **Idempotency over whole executions**: under a key nothing is committed, or one effect is, and
what comes before and after it is a first call that failed and a repetition of the response. The run
is cut at the transaction that stores the key; before it the key is free by the choice of the cut,
after it by the invariant that a record stays. Calls under the key that never end are covered: they
write nothing. -/
theorem idempotent (h : Execution sha256 ts v) (injective : Function.Injective sha256)
    (key : String) :
    (v.shared.idempotencyRecords.get key = none ∧ ∀ t ∈ ts, RunsFirst key t) ∨
      ∃ before t after command payment, ts = before ++ t :: after ∧
        (∀ u ∈ before, RunsFirst key u) ∧ Claims sha256 key command payment t ∧
        ∀ u ∈ after, Repeats key command payment u := by
  rcases h.under_key injective key with free | ⟨before, t, after, command, payment, hts, hbefore,
    claims, hafter, _⟩
  · exact .inl free
  · exact .inr ⟨before, t, after, command, payment, hts, hbefore, claims, hafter⟩

end Transitions

/-- An order placed twice under one key is one effect and its repetition. -/
theorem order_idempotent :
    ∃ ts last, Execution id ts (alone (Request.calls id [order, order] (.empty, ∅)).1 last) ∧
      ∃ before t after command payment, ts = before ++ t :: after ∧
        (∀ u ∈ before, RunsFirst "authorize" u) ∧ Claims id "authorize" command payment t ∧
        ∀ u ∈ after, Repeats "authorize" command payment u := by
  obtain ⟨ts, last, h⟩ := Execution.of_calls id order [order]
  refine ⟨ts, last, h, ?_⟩
  rcases idempotent h Function.injective_id "authorize" with ⟨hfree, _⟩ | claimed
  · have htaken : ((Request.calls id [order, order] (.empty, ∅)).1.idempotencyRecords.get
      "authorize").isSome = true := by decide +kernel
    have hnone : (Request.calls id [order, order] (.empty, ∅)).1.idempotencyRecords.get
      "authorize" = none := hfree
    rw [hnone] at htaken
    cases htaken
  · exact claimed

end PaymentLab
