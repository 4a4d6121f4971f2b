import PaymentLab.Laws.Delivery

/-!
# The attempt limit

Calls of `dispatch_webhook` on one event that do not overlap, each run until it returns or raises,
with whatever else happens to the store between their transactions. The limit is counted when an
attempt is finalized, and an exception of the receiver that the dispatcher does not catch leaves
before that: `delivery_stops` says that the limit holds exactly when no call of the receiver raises
one, and `unlimited_delivery` is a run in which every call does.

Calls that overlap are not the subject here: an attempt of a worker whose lease has expired is
refused or not by its token, which is the matter of the leases. What happens elsewhere leaves the
track of the event alone and the delivery tables consistent, and is otherwise unrestricted, so
clients, consumers and dispatchers of other events may run as they like.
-/

namespace PaymentLab

open Relational Transactional

/-! ## Calls that do not overlap -/

/-- What else happens to the store while calls on one event do not overlap: its track, the event with
its attempts, stays as it is, or begins fresh. Outside the track everything may change, as long
as the delivery tables stay consistent. -/
structure Elsewhere (eventId : String) (db db' : Database) : Prop where
  tracked : Tracked db → Tracked db'
  same : ∀ track, db.track eventId = some track → db'.track eventId = some track
  begins : db.track eventId = none → ∀ track, db'.track eventId = some track →
    track.event.Fresh ∧ track.attempts = []

section Calls

variable (hmacSha256 : String → Int → EventPayload → String) (eventId : String)

/-- A call that runs to its end, transaction by transaction, with the replies of the receiver calls
it makes and anything happening elsewhere in between. A call that is killed before its end has no
derivation, so nothing here speaks of it. -/
inductive Completes : Database → Worker → List Reply → Database →
    Except ServiceError DeliveryResult → Prop
  | finished {db : Database} {worker : Worker} {result : Except ServiceError DeliveryResult} :
      worker.phase = .finished result → Completes db worker [] db result
  | act {db db' : Database} {worker : Worker} {replies : List Reply}
      {result : Except ServiceError DeliveryResult} : ¬worker.phase.Ended →
      Completes (worker.act hmacSha256 db).1 (worker.act hmacSha256 db).2 replies db' result →
      Completes db worker (worker.invocation ++ replies) db' result
  | aside {db db₁ db' : Database} {worker : Worker} {replies : List Reply}
      {result : Except ServiceError DeliveryResult} : Elsewhere eventId db db₁ →
      Completes db₁ worker replies db' result → Completes db worker replies db' result

/-- A call that has run to its end, with the replies it received, its result, and the store before
and after it. -/
structure CompletedCall where
  call : Dispatch
  replies : List Reply
  before : Database
  after : Database
  result : Except ServiceError DeliveryResult

/-- Any sequence of calls on one event, each run to its end before the next begins, from the empty
store. The clocks and the secrets of the calls are arbitrary. -/
inductive NonOverlapping : List CompletedCall → Database → Prop
  | start : NonOverlapping [] .empty
  | aside {calls : List CompletedCall} {db db' : Database} : NonOverlapping calls db →
      Elsewhere eventId db db' → NonOverlapping calls db'
  | call {calls : List CompletedCall} {db db' : Database} (call : Dispatch)
      (identity : IdentityMap) {replies : List Reply}
      {result : Except ServiceError DeliveryResult} : NonOverlapping calls db → call.eventId = eventId →
      Completes hmacSha256 eventId db ⟨call, identity, .ready⟩ replies db' result →
      NonOverlapping (calls ++ [⟨call, replies, db, db', result⟩]) db'

end Calls

/-- A reply that reaches the dispatcher as an acknowledgement. -/
def Reply.acknowledged (fault : Option DeliveryFault) : Reply → Bool
  | .status code => acknowledges code && decide (fault ≠ some .ackLostAfterConsumer)
  | _ => false

/-- The receiver calls of a call that were not acknowledged. -/
def CompletedCall.unacknowledged (call : CompletedCall) : List Reply :=
  call.replies.filter fun reply => !reply.acknowledged call.call.fault

/-- The attempt limit, for calls on one event and the store they leave: no more receiver calls than
attempts are allowed, each recorded by the call that made it; the event exhausted once that many were
not acknowledged; and no claim, no receiver call and no change of the event after that. -/
structure StopsAtLimit (eventId : String) (calls : List CompletedCall) (db : Database) :
    Prop where
  limited : (calls.flatMap (·.replies)).length ≤ maxDeliveryAttempts
  recorded : ∀ call ∈ calls, call.replies.length ≤ 1 ∧ (call.replies ≠ [] →
    ∃ attempt, call.after.attemptsOf eventId = call.before.attemptsOf eventId ++ [attempt])
  exhausted : maxDeliveryAttempts ≤ (calls.flatMap (·.unacknowledged)).length →
    ∃ event, db.webhookEvents.get eventId = some event ∧ event.status = .exhausted
  unclaimed : ∀ front call back, calls = front ++ call :: back →
    maxDeliveryAttempts ≤ (front.flatMap (·.unacknowledged)).length →
    (∃ e, call.result = .error e) ∧ call.replies = [] ∧
      call.after.track eventId = call.before.track eventId

/-! ## Between the transactions of a call -/

theorem Tracked.attemptsOf_of_none {db : Database} (h : Tracked db) {eventId : String}
    (none : db.track eventId = none) : db.attemptsOf eventId = [] := by
  refine List.filter_eq_nil_iff.mpr fun attempt mem heq => ?_
  obtain ⟨event, hstored⟩ := h.attempted attempt mem
  rw [of_decide_eq_true heq, Database.track_eq_none.mp none] at hstored
  cases hstored

namespace Elsewhere

variable {eventId : String}

theorem refl (db : Database) : Elsewhere eventId db db :=
  ⟨id, fun _ h => h, fun none _ h => by rw [none] at h; cases h⟩

theorem trans {a b c : Database} (h : Elsewhere eventId a b) (k : Elsewhere eventId b c) :
    Elsewhere eventId a c := by
  refine ⟨fun tracked => k.tracked (h.tracked tracked), fun track ht => k.same _ (h.same _ ht),
    fun none track ht => ?_⟩
  cases hb : b.track eventId with
  | none => exact k.begins hb track ht
  | some track' =>
    cases ht.symm.trans (k.same track' hb)
    exact h.begins none track hb

theorem attemptsOf {db db' : Database} (h : Elsewhere eventId db db') (tracked : Tracked db) :
    db'.attemptsOf eventId = db.attemptsOf eventId := by
  cases hb : db.track eventId with
  | some track =>
    exact (Database.track_eq_some (h.same track hb)).2.symm.trans (Database.track_eq_some hb).2
  | none =>
    rw [tracked.attemptsOf_of_none hb]
    cases hc : db'.track eventId with
    | none => exact (h.tracked tracked).attemptsOf_of_none hc
    | some track => exact (Database.track_eq_some hc).2.symm.trans (h.begins hb track hc).2

theorem get {db db' : Database} (h : Elsewhere eventId db db') {event : WebhookEventRecord}
    (stored : db.webhookEvents.get eventId = some event) :
    db'.webhookEvents.get eventId = some event :=
  (Database.track_eq_some (h.same _ (Database.track_of_get stored))).1

end Elsewhere

/-- **The service publishes elsewhere.** -/
theorem Publishes.elsewhere {db db' : Database} (h : Publishes db db') (tracked : Tracked db)
    (eventId : String) : Elsewhere eventId db db' := by
  have hdelivers := h.delivers tracked
  obtain ⟨⟨published, hrows, -⟩, hattempts⟩ := h
  refine ⟨hdelivers.tracked, fun track ht => ?_, fun none track => hdelivers.begins eventId track none⟩
  obtain ⟨hevent, hof⟩ := Database.track_eq_some ht
  rw [Database.track_of_get (by rw [Table.get_append hrows, hevent, Option.some_or]),
    Database.attemptsOf, hattempts]
  exact congrArg some (Track.ext rfl hof.symm)

/-- **A worker on another event acts elsewhere.** -/
theorem Worker.Acts.elsewhere {worker after : Worker} {db db' : Database}
    (h : worker.Acts db db' after) (tracked : Tracked db) (coherent : worker.Coherent db)
    {eventId : String} (hne : worker.call.eventId ≠ eventId) : Elsewhere eventId db db' := by
  have of_track : db'.track eventId = db.track eventId → Elsewhere eventId db db' := by
    intro hsame
    refine ⟨(h.delivers tracked coherent).1.tracked, fun track ht => hsame.trans ht,
      fun none track ht => ?_⟩
    rw [hsame, none] at ht
    cases ht
  obtain ⟨call, identity, phase⟩ := worker
  cases h with
  | claimed _ hid hleases _ => exact of_track (hleases.track_of_ne fun heq => hne (hid ▸ heq))
  | loaded _ hsame => exact of_track (by rw [hsame])
  | replied _ hsame => exact of_track (by rw [hsame])
  | failed _ _ hsame => exact of_track (by rw [hsame])
  | finalized hphase hfinalizes _ =>
    cases hphase
    obtain ⟨loaded, stored, hheld, hstored, holds⟩ := coherent
    rw [answeredEvent_held hheld] at hfinalizes
    cases hfinalizes with
    | missing _ hsame => exact of_track (by rw [hsame])
    | superseded _ _ hsame => exact of_track (by rw [hsame])
    | refused _ _ _ _ hsame => exact of_track (by rw [hsame])
    | recorded hfound htoken hrecords =>
      cases hfound
      have hid : loaded.id = call.eventId := heldEvent_id hheld
      have hstored : db.webhookEvents.get loaded.id = some stored := hid ▸ hstored
      have hkey : stored.id = loaded.id := (Table.get_eq_some hstored).2
      exact of_track ((hrecords.track tracked hstored holds htoken).others eventId
        fun heq => hne (hid ▸ hkey ▸ heq))

/-! ## One call -/

section OneCall

variable {hmacSha256 : String → Int → EventPayload → String} {eventId : String}
  {worker : Worker} {db db' : Database} {replies : List Reply}
  {result : Except ServiceError DeliveryResult}

/-- A call goes on with its next transaction, some time later, or is at its end. -/
theorem Completes.next (h : Completes hmacSha256 eventId db worker replies db' result) :
    ∃ db₁, Elsewhere eventId db db₁ ∧
      ((worker.phase = .finished result ∧ replies = [] ∧ db' = db₁) ∨
        (¬worker.phase.Ended ∧ ∃ after db₂ rest, worker.act hmacSha256 db₁ = (db₂, after) ∧
          replies = worker.invocation ++ rest ∧
          Completes hmacSha256 eventId db₂ after rest db' result)) := by
  induction h with
  | finished hphase => exact ⟨_, .refl _, .inl ⟨hphase, rfl, rfl⟩⟩
  | act unfinished rest _ => exact ⟨_, .refl _, .inr ⟨unfinished, _, _, _, rfl, rfl, rest⟩⟩
  | aside elsewhere _ ih =>
    obtain ⟨db₁, hdb, hrest⟩ := ih
    exact ⟨db₁, elsewhere.trans hdb, hrest⟩

/-- What a call leaves of its receiver calls: nothing, one attempt, or an exception. -/
inductive CallOutcome (eventId : String) (fault : Option DeliveryFault) (db db' : Database) :
    List Reply → Prop
  | unrecorded : db'.attemptsOf eventId = db.attemptsOf eventId →
      CallOutcome eventId fault db db' []
  | recorded {replies : List Reply} (attempt : WebhookDeliveryAttemptRecord) :
      db'.attemptsOf eventId = db.attemptsOf eventId ++ [attempt] → replies.length ≤ 1 →
      (∀ reply ∈ replies, reply ≠ .raised ∧
        attempt.acknowledged = reply.acknowledged fault) → CallOutcome eventId fault db db' replies
  | raised : db'.attemptsOf eventId = db.attemptsOf eventId →
      CallOutcome eventId fault db db' [.raised]

theorem CallOutcome.of_same {fault : Option DeliveryFault} {db₁ : Database}
    (h : CallOutcome eventId fault db₁ db' replies)
    (same : db₁.attemptsOf eventId = db.attemptsOf eventId) :
    CallOutcome eventId fault db db' replies := by
  cases h with
  | unrecorded h => exact .unrecorded (h.trans same)
  | recorded attempt h hlength hreplies => exact .recorded attempt (same ▸ h) hlength hreplies
  | raised h => exact .raised (h.trans same)

/-- A call at its end. -/
theorem Completes.of_finished (h : Completes hmacSha256 eventId db worker replies db' result)
    {result' : Except ServiceError DeliveryResult} (finished : worker.phase = .finished result') :
    Elsewhere eventId db db' ∧ replies = [] ∧ result = result' := by
  obtain ⟨db₁, helsewhere, ⟨hphase, hreplies, rfl⟩ | ⟨unfinished, -⟩⟩ := h.next
  · cases hphase.symm.trans finished
    exact ⟨helsewhere, hreplies, rfl⟩
  · rw [finished] at unfinished
    exact absurd trivial unfinished

/-- A call whose transaction has ended it without an attempt. -/
theorem Completes.unrecorded (h : Completes hmacSha256 eventId db worker replies db' result)
    {result' : Except ServiceError DeliveryResult} (finished : worker.phase = .finished result')
    (tracked : Tracked db) (fault : Option DeliveryFault) :
    Tracked db' ∧ CallOutcome eventId fault db db' replies := by
  obtain ⟨helsewhere, rfl, -⟩ := h.of_finished finished
  exact ⟨helsewhere.tracked tracked, .unrecorded (helsewhere.attemptsOf tracked)⟩

/-- **A call that has its reply records one attempt**: nobody else has touched the event since the
load. -/
theorem Completes.of_answered {leaseToken : String} {delivery : Delivery}
    (h : Completes hmacSha256 eventId db worker replies db' result)
    (target : worker.call.eventId = eventId) (answered : worker.phase = .answered leaseToken delivery)
    (tracked : Tracked db) {stored : WebhookEventRecord}
    (held : heldEvent eventId worker.identity = some stored)
    (hstored : db.webhookEvents.get eventId = some stored)
    (token : stored.leaseToken = some leaseToken) :
    Tracked db' ∧ replies = [] ∧ ∃ attempt,
      db'.attemptsOf eventId = db.attemptsOf eventId ++ [attempt] ∧
      attempt.acknowledged = delivery.succeeded := by
  subst target
  obtain ⟨db₁, helsewhere, ⟨hphase, -⟩ | ⟨unfinished, after, db₂, rest, hact, hreplies, hrest⟩⟩ :=
    h.next
  · cases answered.symm.trans hphase
  have tracked₁ := helsewhere.tracked tracked
  have hstored₁ := helsewhere.get hstored
  have hid : stored.id = worker.call.eventId := heldEvent_id held
  have hstored' : db₁.webhookEvents.get stored.id = some stored := hid ▸ hstored₁
  have hnone : worker.invocation = [] := by
    unfold Worker.invocation
    rw [answered]
  cases Worker.act_cases unfinished hact with
  | claimed hphase => cases answered.symm.trans hphase
  | loaded hphase => cases answered.symm.trans hphase
  | replied hphase => cases answered.symm.trans hphase
  | failed hphase =>
    rcases hphase with hphase | ⟨_, hphase⟩ <;> cases answered.symm.trans hphase
  | finalized hphase hfinalizes hafter =>
    cases answered.symm.trans hphase
    rw [answeredEvent_held held] at hfinalizes
    have hfinished := congrArg Worker.phase hafter
    obtain ⟨helsewhere₂, rfl, -⟩ := hrest.of_finished hfinished
    cases hfinalizes with
    | missing hfound => cases hfound
    | superseded hfound htoken =>
      cases hfound
      exact absurd token htoken
    | @refused loaded finalized _ _ hfound _ _ hrefused =>
      cases hfound
      obtain ⟨db₃, hok⟩ := recordAttempt_isOk tracked₁ hstored' finalized
        (asUtc worker.call.now) delivery
      rw [hok] at hrefused
      cases hrefused
    | recorded hfound htoken hrecords =>
      cases hfound
      have htrack := hrecords.track tracked₁ hstored' (tracked₁.holds hstored₁) htoken
      have tracked₂ := (htrack.delivers tracked₁ hstored').tracked tracked₁
      refine ⟨helsewhere₂.tracked tracked₂, by rw [hreplies, hnone, List.append_nil],
        newAttempt stored (asUtc worker.call.now) delivery, ?_, rfl⟩
      rw [helsewhere₂.attemptsOf tracked₂, ← hid, htrack.attempts, hid,
        helsewhere.attemptsOf tracked]

/-- Whether an observed reply is an acknowledgement. -/
theorem observeReply_succeeded {fault : Option DeliveryFault} {reply : Reply} {delivery : Delivery}
    (h : observeReply fault reply = .ok delivery) :
    reply ≠ .raised ∧ delivery.succeeded = reply.acknowledged fault := by
  cases reply with
  | status code =>
    refine ⟨by simp, ?_⟩
    simp only [observeReply] at h
    split at h
    · next hlost =>
      cases h
      simp [Reply.acknowledged, Delivery.succeeded, timedOut, hlost]
    · next hkept =>
      split at h
      · cases h
        simp [Reply.acknowledged, Delivery.succeeded, hkept]
      · cases h
        simp [Reply.acknowledged, Delivery.succeeded, hkept]
  | timeoutError => cases h; exact ⟨by simp, rfl⟩
  | connectionError => cases h; exact ⟨by simp, rfl⟩
  | raised => cases h

/-- **A call that is about to call the receiver.** -/
theorem Completes.of_prepared {leaseToken signature : String} {payload : EventPayload}
    (h : Completes hmacSha256 eventId db worker replies db' result)
    (target : worker.call.eventId = eventId)
    (prepared : worker.phase = .prepared leaseToken payload signature) (tracked : Tracked db)
    {stored : WebhookEventRecord} (held : heldEvent eventId worker.identity = some stored)
    (hstored : db.webhookEvents.get eventId = some stored)
    (token : stored.leaseToken = some leaseToken) :
    Tracked db' ∧ CallOutcome eventId worker.call.fault db db' replies := by
  obtain ⟨db₁, helsewhere, ⟨hphase, -⟩ | ⟨unfinished, after, db₂, rest, hact, rfl, hrest⟩⟩ :=
    h.next
  · cases prepared.symm.trans hphase
  have tracked₁ := helsewhere.tracked tracked
  have hsame₁ := helsewhere.attemptsOf tracked
  have hstored₁ := helsewhere.get hstored
  cases Worker.act_cases unfinished hact with
  | claimed hphase => cases prepared.symm.trans hphase
  | loaded hphase => cases prepared.symm.trans hphase
  | finalized hphase => cases prepared.symm.trans hphase
  | failed hphase =>
    rcases hphase with hphase | ⟨_, hphase⟩ <;> cases prepared.symm.trans hphase
  | replied hphase hsame hafter =>
    cases prepared.symm.trans hphase
    subst hsame
    have hinvocation : worker.invocation = if invokesReceiver worker.call.fault then
        [worker.call.receiver payload signature (asUtc worker.call.now)] else [] := by
      unfold Worker.invocation
      rw [prepared]
    have answered : ∀ delivery, after.phase = .answered leaseToken delivery →
        Tracked db' ∧ rest = [] ∧ ∃ attempt,
          db'.attemptsOf eventId = db₂.attemptsOf eventId ++ [attempt] ∧
          attempt.acknowledged = delivery.succeeded := fun delivery hanswered =>
      hrest.of_answered (by rw [hafter]; exact target) hanswered tracked₁
        (by rw [hafter]; exact held) hstored₁ token
    rw [hinvocation]
    by_cases hinvokes : invokesReceiver worker.call.fault = true
    · rw [if_pos hinvokes] at hafter ⊢
      cases hreply : observeReply worker.call.fault
          (worker.call.receiver payload signature (asUtc worker.call.now)) with
      | error e =>
        obtain ⟨-, hraised⟩ := observeReply_eq_error hreply
        have hfinished : after.phase = .finished (.error e) := by rw [hafter, hreply]; rfl
        obtain ⟨helsewhere₂, rfl, -⟩ := hrest.of_finished hfinished
        rw [hraised]
        exact ⟨helsewhere₂.tracked tracked₁,
          .raised ((helsewhere₂.attemptsOf tracked₁).trans hsame₁)⟩
      | ok delivery =>
        obtain ⟨tracked', rfl, attempt, hattempts, hacknowledged⟩ :=
          answered delivery (by rw [hafter, hreply]; rfl)
        obtain ⟨hraised, hsucceeded⟩ := observeReply_succeeded hreply
        refine ⟨tracked', .recorded attempt (hsame₁ ▸ hattempts) (Nat.le_refl _) fun reply mem => ?_⟩
        rw [List.mem_singleton.mp mem]
        exact ⟨hraised, hacknowledged.trans hsucceeded⟩
    · rw [if_neg hinvokes] at hafter ⊢
      obtain ⟨tracked', rfl, attempt, hattempts, -⟩ :=
        answered timedOut (by rw [hafter]; rfl)
      exact ⟨tracked', .recorded attempt (hsame₁ ▸ hattempts) (Nat.zero_le _)
        fun _ mem => absurd mem List.not_mem_nil⟩

/-- A call that has claimed the event. -/
theorem Completes.of_leased {leaseToken : String}
    (h : Completes hmacSha256 eventId db worker replies db' result)
    (target : worker.call.eventId = eventId) (leased : worker.phase = .leased leaseToken)
    (expired : worker.identity = ∅) (tracked : Tracked db) {stored : WebhookEventRecord}
    (hstored : db.webhookEvents.get eventId = some stored)
    (token : stored.leaseToken = some leaseToken) :
    Tracked db' ∧ CallOutcome eventId worker.call.fault db db' replies := by
  obtain ⟨db₁, helsewhere, ⟨hphase, -⟩ | ⟨unfinished, after, db₂, rest, hact, rfl, hrest⟩⟩ :=
    h.next
  · cases leased.symm.trans hphase
  have tracked₁ := helsewhere.tracked tracked
  have hsame₁ := helsewhere.attemptsOf tracked
  have hstored₁ := helsewhere.get hstored
  have hnone : worker.invocation = [] := by
    unfold Worker.invocation
    rw [leased]
  rw [hnone, List.nil_append]
  cases Worker.act_cases unfinished hact with
  | claimed hphase => cases leased.symm.trans hphase
  | replied hphase => cases leased.symm.trans hphase
  | finalized hphase => cases leased.symm.trans hphase
  | failed _ _ hsame hafter =>
    subst hsame
    have hfinished := congrArg Worker.phase hafter
    obtain ⟨tracked', houtcome⟩ := hrest.unrecorded hfinished tracked₁ worker.call.fault
    exact ⟨tracked', houtcome.of_same hsame₁⟩
  | @loaded _ signature event identity hphase hsame hanswer hheld hafter =>
    cases leased.symm.trans hphase
    subst hsame
    rw [expired, target] at hanswer
    have hevent : db₂.webhookEvents.get eventId = some event := hanswer
    cases hstored₁.symm.trans hevent
    have hprepared : after.phase = .prepared leaseToken stored.payload signature := by rw [hafter]
    obtain ⟨tracked', houtcome⟩ := hrest.of_prepared (by rw [hafter]; exact target)
      hprepared tracked₁ (by rw [hafter]; exact target ▸ hheld) hstored₁ token
    rw [hafter] at houtcome
    exact ⟨tracked', houtcome.of_same hsame₁⟩

/-- **A call from its beginning.** -/
theorem Completes.of_ready (h : Completes hmacSha256 eventId db worker replies db' result)
    (target : worker.call.eventId = eventId) (ready : worker.phase = .ready)
    (tracked : Tracked db) :
    Tracked db' ∧ CallOutcome eventId worker.call.fault db db' replies := by
  obtain ⟨db₁, helsewhere, ⟨hphase, -⟩ | ⟨unfinished, after, db₂, rest, hact, rfl, hrest⟩⟩ :=
    h.next
  · cases ready.symm.trans hphase
  have tracked₁ := helsewhere.tracked tracked
  have hsame₁ := helsewhere.attemptsOf tracked
  have hnone : worker.invocation = [] := by
    unfold Worker.invocation
    rw [ready]
  rw [hnone, List.nil_append]
  cases Worker.act_cases unfinished hact with
  | loaded hphase => cases ready.symm.trans hphase
  | replied hphase => cases ready.symm.trans hphase
  | finalized hphase => cases ready.symm.trans hphase
  | failed _ _ hsame hafter =>
    subst hsame
    have hfinished := congrArg Worker.phase hafter
    obtain ⟨tracked', houtcome⟩ := hrest.unrecorded hfinished tracked₁ worker.call.fault
    exact ⟨tracked', houtcome.of_same hsame₁⟩
  | @claimed event _ hid hleases hafter =>
    have tracked₂ := (hleases.delivers tracked₁).tracked tracked₁
    have hevent : event.id = eventId := hid.trans target
    obtain ⟨tracked', houtcome⟩ := hrest.of_leased (by rw [hafter]; exact target)
      (by rw [hafter]) (by rw [hafter]) tracked₂ (hevent ▸ hleases.stored') rfl
    rw [hafter] at houtcome
    exact ⟨tracked', houtcome.of_same ((hleases.attemptsOf eventId).trans hsame₁)⟩

/-- **A call on an event that has ended claims nothing.** -/
theorem Completes.of_final (h : Completes hmacSha256 eventId db worker replies db' result)
    (target : worker.call.eventId = eventId) (ready : worker.phase = .ready)
    {event : WebhookEventRecord} (hstored : db.webhookEvents.get eventId = some event)
    (final : event.status.Final) :
    (∃ e, result = .error e) ∧ replies = [] ∧ db'.track eventId = db.track eventId := by
  obtain ⟨db₁, helsewhere, ⟨hphase, -⟩ | ⟨unfinished, after, db₂, rest, hact, rfl, hrest⟩⟩ :=
    h.next
  · cases ready.symm.trans hphase
  have hnone : worker.invocation = [] := by
    unfold Worker.invocation
    rw [ready]
  rw [hnone, List.nil_append]
  have hstored₁ := helsewhere.get hstored
  cases Worker.act_cases unfinished hact with
  | loaded hphase => cases ready.symm.trans hphase
  | replied hphase => cases ready.symm.trans hphase
  | finalized hphase => cases ready.symm.trans hphase
  | @claimed claimed _ hid hleases =>
    have hevent : claimed.id = eventId := hid.trans target
    have hclaimed := hleases.stored
    rw [hevent] at hclaimed
    cases hclaimed.symm.trans hstored₁
    exact absurd final (Track.open_of_claimable hleases.claimable)
  | failed _ _ hsame hafter =>
    subst hsame
    have hfinished := congrArg Worker.phase hafter
    obtain ⟨helsewhere₂, rfl, rfl⟩ := hrest.of_finished hfinished
    have htrack := Database.track_of_get hstored
    refine ⟨⟨_, rfl⟩, rfl, ?_⟩
    rw [(helsewhere.trans helsewhere₂).same _ htrack, htrack]

end OneCall

/-! ## Sequences of calls -/

section Sequence

variable {hmacSha256 : String → Int → EventPayload → String} {eventId : String}
  {calls : List CompletedCall} {db : Database}

/-- What every call of a sequence leaves. -/
theorem NonOverlapping.outcomes (h : NonOverlapping hmacSha256 eventId calls db) :
    Tracked db ∧ ∀ call ∈ calls,
      CallOutcome eventId call.call.fault call.before call.after call.replies := by
  induction h with
  | start => exact ⟨tracked_empty, fun _ mem => absurd mem List.not_mem_nil⟩
  | aside _ elsewhere ih => exact ⟨elsewhere.tracked ih.1, ih.2⟩
  | call call identity _ target completes ih =>
    obtain ⟨tracked, houtcome⟩ := completes.of_ready target rfl ih.1
    refine ⟨tracked, fun call' mem => ?_⟩
    rcases List.mem_append.mp mem with mem | mem
    · exact ih.2 call' mem
    · rw [List.mem_singleton.mp mem]
      exact houtcome

/-- A full track of unacknowledged attempts is that of an exhausted event. -/
theorem Tracked.exhausted (h : Tracked db)
    (full : maxDeliveryAttempts ≤ (db.attemptsOf eventId).countP fun a => !a.acknowledged) :
    ∃ event, db.webhookEvents.get eventId = some event ∧ event.status = .exhausted := by
  have hlength := full.trans List.countP_le_length
  cases hstored : db.webhookEvents.get eventId with
  | none =>
    rw [h.attemptsOf_of_none (Database.track_eq_none.mpr hstored)] at hlength
    exact absurd hlength (by decide)
  | some event =>
    have records := (h.consistent _ _ (Database.track_of_get hstored)).records
    have hmax : (db.attemptsOf eventId).length ≤ maxDeliveryAttempts := by
      rw [← records.counted]
      exact records.limited
    refine ⟨event, rfl, records.exhausted.mpr ⟨Nat.le_antisymm hmax hlength, fun attempt mem => ?_⟩⟩
    have hall := List.countP_eq_length.mp
      (Nat.le_antisymm List.countP_le_length (hmax.trans full)) attempt mem
    simpa using hall

/-- The attempts of an event are at most as many as the limit. -/
theorem Tracked.limited (h : Tracked db) (eventId : String) :
    (db.attemptsOf eventId).length ≤ maxDeliveryAttempts := by
  cases hstored : db.webhookEvents.get eventId with
  | none =>
    rw [h.attemptsOf_of_none (Database.track_eq_none.mpr hstored)]
    exact Nat.zero_le _
  | some event =>
    have records := (h.consistent _ _ (Database.track_of_get hstored)).records
    rw [← records.counted]
    exact records.limited

/-- How the calls so far count against the attempts: no more receiver calls than attempts, no more
unacknowledged ones than unacknowledged attempts, and nothing claimed past the limit. -/
structure CountsAttempts (eventId : String) (calls : List CompletedCall) (db : Database) :
    Prop where
  invoked : (calls.flatMap (·.replies)).length ≤ (db.attemptsOf eventId).length
  unacknowledged : (calls.flatMap (·.unacknowledged)).length ≤
    (db.attemptsOf eventId).countP fun a => !a.acknowledged
  recorded : ∀ call ∈ calls, call.replies.length ≤ 1 ∧ (call.replies ≠ [] →
    ∃ attempt, call.after.attemptsOf eventId = call.before.attemptsOf eventId ++ [attempt])
  unclaimed : ∀ front call back, calls = front ++ call :: back →
    maxDeliveryAttempts ≤ (front.flatMap (·.unacknowledged)).length →
    (∃ e, call.result = .error e) ∧ call.replies = [] ∧
      call.after.track eventId = call.before.track eventId

/-- **One more call counts.** -/
theorem CountsAttempts.call (h : CountsAttempts eventId calls db) (tracked : Tracked db)
    {call : Dispatch} {identity : IdentityMap} {replies : List Reply} {db' : Database}
    {result : Except ServiceError DeliveryResult} (target : call.eventId = eventId)
    (completes : Completes hmacSha256 eventId db ⟨call, identity, .ready⟩ replies db' result)
    (caught : .raised ∉ replies) :
    CountsAttempts eventId (calls ++ [⟨call, replies, db, db', result⟩]) db' := by
  have hcounts : (replies.length ≤ 1 ∧ (replies ≠ [] → ∃ attempt,
        db'.attemptsOf eventId = db.attemptsOf eventId ++ [attempt])) ∧
      (db.attemptsOf eventId).length + replies.length ≤ (db'.attemptsOf eventId).length ∧
      ((db.attemptsOf eventId).countP fun a => !a.acknowledged) +
        (replies.filter fun reply => !reply.acknowledged call.fault).length ≤
        (db'.attemptsOf eventId).countP fun a => !a.acknowledged := by
    cases (completes.of_ready target rfl tracked).2 with
    | unrecorded hsame => simp [hsame]
    | raised => exact absurd (List.mem_singleton.mpr rfl) caught
    | recorded attempt hattempts hlength hreplies =>
      rw [hattempts]
      refine ⟨⟨hlength, fun _ => ⟨attempt, rfl⟩⟩, ?_, ?_⟩
      · rw [List.length_append, List.length_singleton]
        omega
      · rw [List.countP_append, List.countP_singleton]
        refine Nat.add_le_add_left ?_ _
        match replies, hlength, hreplies with
        | [], _, _ => exact Nat.zero_le _
        | [reply], _, hreplies =>
          have hsame : attempt.acknowledged = reply.acknowledged call.fault :=
            (hreplies reply (List.mem_singleton.mpr rfl)).2
          rw [hsame]
          cases hack : reply.acknowledged call.fault <;> simp [hack]
  obtain ⟨hrecorded, hinvoked, hunacknowledged⟩ := hcounts
  refine ⟨?_, ?_, fun call' mem => ?_, fun front call' back hsplit hfull => ?_⟩
  · rw [List.flatMap_append, List.length_append, List.flatMap_singleton]
    exact (Nat.add_le_add_right h.invoked _).trans hinvoked
  · rw [List.flatMap_append, List.length_append, List.flatMap_singleton]
    exact (Nat.add_le_add_right h.unacknowledged _).trans hunacknowledged
  · rcases List.mem_append.mp mem with mem | mem
    · exact h.recorded call' mem
    · rw [List.mem_singleton.mp mem]
      exact hrecorded
  · rcases List.eq_nil_or_concat back with rfl | ⟨back', last, rfl⟩
    · obtain ⟨rfl, hlast⟩ := List.append_inj' hsplit rfl
      cases hlast
      obtain ⟨event, hstored, hexhausted⟩ := tracked.exhausted (hfull.trans h.unacknowledged)
      exact completes.of_final target rfl hstored (.inr hexhausted)
    · rw [List.concat_eq_append, ← List.cons_append, ← List.append_assoc] at hsplit
      exact h.unclaimed front call' back' (List.append_inj' hsplit rfl).1 hfull

/-- **Calls whose receivers raise nothing uncaught are counted.** -/
theorem NonOverlapping.counts (h : NonOverlapping hmacSha256 eventId calls db)
    (caught : ∀ call ∈ calls, .raised ∉ call.replies) : CountsAttempts eventId calls db := by
  induction h with
  | start =>
    refine ⟨Nat.zero_le _, Nat.zero_le _, fun _ mem => absurd mem List.not_mem_nil,
      fun front call back hsplit => absurd hsplit (by simp)⟩
  | aside before elsewhere ih =>
    have counts := ih caught
    have hsame := elsewhere.attemptsOf before.outcomes.1
    exact ⟨hsame ▸ counts.invoked, hsame ▸ counts.unacknowledged, counts.recorded, counts.unclaimed⟩
  | call call identity before target completes ih =>
    have counts := ih fun call' mem => caught call' (List.mem_append_left _ mem)
    exact counts.call before.outcomes.1 target completes
      (caught _ (List.mem_append_right _ (List.mem_singleton.mpr rfl)))

/-- **Delivery stops after the attempt limit exactly when no call of the receiver raises an exception
that the dispatcher does not catch.** -/
theorem delivery_stops (h : NonOverlapping hmacSha256 eventId calls db) :
    StopsAtLimit eventId calls db ↔ ∀ call ∈ calls, .raised ∉ call.replies := by
  obtain ⟨tracked, outcomes⟩ := h.outcomes
  constructor
  · intro stops call mem raised
    obtain ⟨-, hrecorded⟩ := stops.recorded call mem
    obtain ⟨attempt, hattempt⟩ := hrecorded (List.ne_nil_of_mem raised)
    have outcome := outcomes call mem
    generalize call.replies = replies at raised outcome
    cases outcome with
    | unrecorded => cases raised
    | recorded _ _ _ hreplies => exact (hreplies _ raised).1 rfl
    | raised hsame =>
      rw [hsame] at hattempt
      have := congrArg List.length hattempt
      simp at this
  · intro caught
    have counts := h.counts caught
    exact ⟨counts.invoked.trans (tracked.limited eventId), counts.recorded,
      fun hfull => tracked.exhausted (hfull.trans counts.unacknowledged), counts.unclaimed⟩

end Sequence

/-! ## Calls on their own -/

section Alone

variable {hmacSha256 : String → Int → EventPayload → String} {eventId : String}

/-- Such a run is a call that runs to its end. -/
theorem Completes.of_run {eventId : String} {n : Nat} {worker : Worker} {db : Database}
    {result : Except ServiceError DeliveryResult}
    (h : (worker.run hmacSha256 n db).2.2.phase = .finished result) :
    Completes hmacSha256 eventId db worker (worker.run hmacSha256 n db).1
      (worker.run hmacSha256 n db).2.1 result := by
  induction n generalizing worker db with
  | zero => exact .finished h
  | succ n ih =>
    unfold Worker.run at h ⊢
    by_cases ended : worker.phase.Ended
    · rw [if_pos ended] at h ⊢
      exact .finished h
    · rw [if_neg ended] at h ⊢
      exact .act ended (ih h)

variable (hmacSha256) in
/-- The calls of a list, one after another with nothing in between. -/
def callsOf : List Dispatch → Database → List CompletedCall × Database
  | [], db => ([], db)
  | call :: rest, db =>
    let run := Worker.run hmacSha256 4 ⟨call, ∅, .ready⟩ db
    let result := match run.2.2.phase with
      | .finished result => result
      | _ => .error (.runtimeError "")
    let others := callsOf rest run.2.1
    (⟨call, run.1, db, run.2.1, result⟩ :: others.1, others.2)

/-- They do not overlap. -/
theorem NonOverlapping.callsOf {calls : List CompletedCall} {db : Database}
    (h : NonOverlapping hmacSha256 eventId calls db) (order : List Dispatch)
    (target : ∀ call ∈ order, call.eventId = eventId) :
    NonOverlapping hmacSha256 eventId (calls ++ (PaymentLab.callsOf hmacSha256 order db).1)
      (PaymentLab.callsOf hmacSha256 order db).2 := by
  induction order generalizing calls db with
  | nil =>
    unfold PaymentLab.callsOf
    rw [List.append_nil]
    exact h
  | cons call rest ih =>
    obtain ⟨result, hresult⟩ := Worker.run_finishes hmacSha256 4
      ⟨call, ∅, .ready⟩ db (Nat.le_refl _) nofun
    have next := h.call call ∅ (target call (List.mem_cons_self ..)) (Completes.of_run hresult)
    have := ih next fun other mem => target other (List.mem_cons_of_mem _ mem)
    unfold PaymentLab.callsOf
    simp only [hresult]
    rwa [List.append_assoc] at this

/-- The calls of a list on a published event. -/
theorem announced_calls (order : List Dispatch) (target : ∀ call ∈ order, call.eventId = announced.id) :
    NonOverlapping (fun _ _ _ => "") announced.id
      (callsOf (fun _ _ _ => "") order announcedStore).1
      (callsOf (fun _ _ _ => "") order announcedStore).2 :=
  (NonOverlapping.start.aside (announcedStore_publishes.elsewhere tracked_empty announced.id)).callsOf
    order target

end Alone

/-- Three calls that are answered with a server error. -/
def refusals : List Dispatch :=
  [dispatchOf (.status 500) 0 "1", dispatchOf (.status 500) 1 "2", dispatchOf (.status 500) 6 "3"]

/-- They exhaust the event. -/
theorem refusals_stop :
    StopsAtLimit announced.id (callsOf (fun _ _ _ => "") refusals announcedStore).1
      (callsOf (fun _ _ _ => "") refusals announcedStore).2 :=
  (delivery_stops (announced_calls refusals (by decide +kernel))).mpr (by decide +kernel)

/-- Four calls whose receiver raises what the dispatcher does not catch, each after the lease of the
one before. -/
def uncaught : List Dispatch :=
  [dispatchOf .raised 0 "1", dispatchOf .raised 30 "2", dispatchOf .raised 60 "3",
    dispatchOf .raised 90 "4"]

/-- **An uncaught exception escapes the limit**: the receiver is called a fourth time, at later and
later times, and nothing is recorded. -/
theorem unlimited_delivery :
    NonOverlapping (fun _ _ _ => "") announced.id
        (callsOf (fun _ _ _ => "") uncaught announcedStore).1
        (callsOf (fun _ _ _ => "") uncaught announcedStore).2 ∧
      (uncaught.map fun call => asUtc call.now).Pairwise (· ≤ ·) ∧
      ((callsOf (fun _ _ _ => "") uncaught announcedStore).1.flatMap (·.replies)).length = 4 ∧
      (callsOf (fun _ _ _ => "") uncaught announcedStore).2.attemptsOf announced.id = [] ∧
      ¬StopsAtLimit announced.id (callsOf (fun _ _ _ => "") uncaught announcedStore).1
        (callsOf (fun _ _ _ => "") uncaught announcedStore).2 := by
  have four : ((callsOf (fun _ _ _ => "") uncaught announcedStore).1.flatMap (·.replies)).length =
      4 := by decide +kernel
  refine ⟨announced_calls uncaught (by decide +kernel), by decide +kernel, four, by decide +kernel,
    fun stops => ?_⟩
  have := stops.limited
  rw [four] at this
  exact absurd this (by decide)

end PaymentLab
