import PaymentLab.Consumer.Producer
import PaymentLab.Laws.Consumer
import PaymentLab.Runs.ConsumerPool

/-!
# Concurrent consumers of one payment

Consumers in any number, interleaved between their reads and their write. The `UPDATE` of a
projection carries no version in its `WHERE`, so a write may land on a newer projection than the one
its call compared with (`Overtaken`). Without such a write every stored projection is the snapshot of
one event and versions only grow, and with one the version falls: `projection_kept` is the
equivalence, for every run.

That no write mixes two snapshots otherwise rests on the producer's order: what two snapshots of a
payment agree on, every snapshot between them has (`writeChanges_between`).

Each call reads the projection of its payment once and writes it later, and the model lets any
number of other calls commit in between. The inbox is what stops a second call on the same event,
but not a call on another event of the payment.
-/

namespace PaymentLab

open Relational Transactional Transactional.Service

/-! ## A write between two snapshots -/

/-- **No mixture in order**: a newer event written over a snapshot between the loaded one and its own
gives its own. -/
theorem writeChanges_between {loaded stored envelope : WebhookEnvelope}
    (first : loaded.payment.Precedes stored.payment)
    (second : stored.payment.Precedes envelope.payment)
    (version : loaded.payment.version ≠ envelope.payment.version) (id : loaded.id ≠ envelope.id) :
    (newProjection loaded).writeChanges
        (applyProjection (newProjection loaded) envelope.id envelope.payment) (newProjection stored) =
      newProjection envelope := by
  have merchantReference : writeColumn loaded.payment.merchantReference
      envelope.payment.merchantReference stored.payment.merchantReference =
        envelope.payment.merchantReference := writeColumn_eq_iff.mpr fun _ => second.merchantReference.symm
  have amount : writeColumn loaded.payment.amount envelope.payment.amount stored.payment.amount =
      envelope.payment.amount := writeColumn_eq_iff.mpr fun _ => second.amount.symm
  have currency : writeColumn loaded.payment.currency envelope.payment.currency
      stored.payment.currency = envelope.payment.currency :=
    writeColumn_eq_iff.mpr fun _ => second.currency.symm
  have status : writeColumn loaded.payment.status envelope.payment.status stored.payment.status =
      envelope.payment.status := writeColumn_eq_iff.mpr fun h => first.status_between second h.symm
  have paymentFlow : writeColumn loaded.payment.paymentFlow envelope.payment.paymentFlow
      stored.payment.paymentFlow = envelope.payment.paymentFlow :=
    writeColumn_eq_iff.mpr fun _ => second.paymentFlow.symm
  have paymentReference : writeColumn loaded.payment.paymentReference
      envelope.payment.paymentReference stored.payment.paymentReference =
        envelope.payment.paymentReference := writeColumn_eq_iff.mpr fun _ => second.paymentReference.symm
  have expiresAt : writeTime loaded.payment.expiresAt envelope.payment.expiresAt
      stored.payment.expiresAt = envelope.payment.expiresAt := by
    unfold writeTime
    split
    · exact second.expiresAt.symm
    · rfl
  have declineReason : writeColumn loaded.payment.declineReason envelope.payment.declineReason
      stored.payment.declineReason = envelope.payment.declineReason :=
    writeColumn_eq_iff.mpr fun _ => second.declineReason.symm
  have authorized : writeColumn loaded.payment.authorizedAmount envelope.payment.authorizedAmount
      stored.payment.authorizedAmount = envelope.payment.authorizedAmount := by
    apply writeColumn_eq_iff.mpr
    intro _
    have := first.authorized
    have := second.authorized
    omega
  have captured : writeColumn loaded.payment.capturedAmount envelope.payment.capturedAmount
      stored.payment.capturedAmount = envelope.payment.capturedAmount := by
    apply writeColumn_eq_iff.mpr
    intro _
    have := first.captured
    have := second.captured
    omega
  have refunded : writeColumn loaded.payment.refundedAmount envelope.payment.refundedAmount
      stored.payment.refundedAmount = envelope.payment.refundedAmount := by
    apply writeColumn_eq_iff.mpr
    intro _
    have := first.refunded
    have := second.refunded
    omega
  have aggregateVersion : writeColumn loaded.payment.version envelope.payment.version
      stored.payment.version = envelope.payment.version :=
    writeColumn_eq_iff.mpr fun h => absurd h.symm version
  have lastEventId : writeColumn loaded.id envelope.id stored.id = envelope.id :=
    writeColumn_eq_iff.mpr fun h => absurd h.symm id
  have paymentId : stored.payment.id = envelope.payment.id := second.id.symm
  simp only [MerchantPaymentProjectionRecord.writeChanges, applyProjection, newProjection,
    merchantReference, amount, currency, status, paymentFlow, paymentReference, expiresAt,
    declineReason, authorized, captured, refunded, aggregateVersion, lastEventId, paymentId]

/-- A write over a newer projection brings its own version back. -/
theorem writeChanges_version {p stored : MerchantPaymentProjectionRecord} {envelope : WebhookEnvelope}
    (newer : p.aggregateVersion < envelope.payment.version) :
    (p.writeChanges (applyProjection p envelope.id envelope.payment) stored).aggregateVersion =
      envelope.payment.version := by
  show writeColumn p.aggregateVersion envelope.payment.version stored.aggregateVersion = _
  exact writeColumn_eq_iff.mpr fun h => by omega

/-! ## The runs -/

section Runs

variable (lib : StandardLibrary) (producer : Database)

/-- Every stored projection is the snapshot of an event in the inbox, whole: not a mixture of two,
and not one that was never consumed. Which of the consumed events it shows is not said; that it is
the newest is `KeepsView` together with the order of the writes. -/
def ShowsConsumed (db : Database) : Prop :=
  ∀ id p, db.merchantProjections.get id = some p →
    ∃ event ∈ producer.webhookEvents.rows, event.paymentId = id ∧
      (∃ row, db.processedWebhooks.get event.id = some row) ∧
      p = newProjection event.payload.envelope

/-- No projection disappears, and none goes back to a lower version. -/
def NeverBack (db db' : Database) : Prop :=
  ∀ id p, db.merchantProjections.get id = some p →
    ∃ p', db'.merchantProjections.get id = some p' ∧ p.aggregateVersion ≤ p'.aggregateVersion

/-- What every step of a consumer should keep: after it each projection shows one consumed event, in
all its fields, and no version fell. It is a statement about the tables only; what the call answers
is not part of it. -/
structure KeepsView {ι : Type} (t : Pool.Transition Database ι ConsumerThread) : Prop where
  shows : ∀ id p, t.post.merchantProjections.get id = some p →
    ∃ event ∈ producer.webhookEvents.rows, event.paymentId = id ∧
      (∃ row, t.post.processedWebhooks.get event.id = some row) ∧
      p.Shows event.payload.payment ∧ p.lastEventId = event.id
  neverBack : NeverBack t.pre t.post

/-- A call about to write is overtaken: it decided on an update of the projection it read, nothing in
the way of that write has failed it yet, its event is still new to the inbox, and by now the stored
projection is at a newer version than its event. The condition reads the store and the state of the
call before the step, never what the step leaves. A write that is overtaken puts the older snapshot
back, because the `UPDATE` names no version; a call that read late enough to compare with the newer
one is not overtaken. -/
def Overtaken (db : Database) (thread : ConsumerThread) : Prop :=
  ∃ envelope decision loaded current stored, thread.phase = .decided envelope decision ∧
    decision.write = .update loaded current ∧ thread.call.faults.storage = false ∧
    thread.call.faults.afterInbox = false ∧ db.processedWebhooks.get envelope.id = none ∧
    db.merchantProjections.get envelope.payment.id = some stored ∧
    envelope.aggregateVersion < stored.aggregateVersion

/-- What is known of a call between its phases, with a property of the projection it loaded. -/
structure ConsumerThread.Tracks
    (Loaded : Database → String → MerchantPaymentProjectionRecord → Prop) (db : Database)
    (thread : ConsumerThread) : Prop where
  delivery : ∃ delivery : EventDelivery, delivery.Valid lib producer ∧ thread.call = delivery.call
  unseen : ∀ envelope, thread.phase = .unseen envelope → thread.call.accepted lib = .ok envelope
  decided : ∀ envelope decision, thread.phase = .decided envelope decision →
    thread.call.accepted lib = .ok envelope ∧ ∃ read, Compared envelope read decision ∧
      ∀ p, read = some p → p.paymentId = envelope.payment.id ∧ Loaded db envelope.payment.id p

/-- A loaded projection shows an event, at a version the stored one has not fallen below. -/
def LoadedBefore (db : Database) (id : String) (p : MerchantPaymentProjectionRecord) : Prop :=
  (∃ event ∈ producer.webhookEvents.rows, event.paymentId = id ∧
    p = newProjection event.payload.envelope) ∧
    ∃ stored, db.merchantProjections.get id = some stored ∧
      p.aggregateVersion ≤ stored.aggregateVersion

variable {lib producer}

/-- The tracked facts after a phase, given that what is read is loaded. -/
theorem ConsumerThread.Tracks.step
    {Loaded : Database → String → MerchantPaymentProjectionRecord → Prop} {db db' : Database}
    {thread after : ConsumerThread} (tracks : thread.Tracks lib producer Loaded db)
    (loaded : ∀ id p, db.merchantProjections.get id = some p → Loaded db id p)
    (h : ConsumerPool lib db thread db' after) : after.Tracks lib producer Loaded db' := by
  obtain ⟨hcall, moves⟩ := ConsumerThread.act_moves h
  obtain ⟨call, phase⟩ := after
  cases hcall
  cases moves with
  | ended =>
    refine ⟨tracks.delivery, fun envelope hphase => ?_, fun envelope decision hphase => ?_⟩
    · cases hphase
    · cases hphase
  | read _ haccepted _ =>
    refine ⟨tracks.delivery, fun envelope hphase => ?_, fun envelope decision hphase => ?_⟩
    · cases hphase
      exact haccepted
    · cases hphase
  | compared hunseen hdecide =>
    refine ⟨tracks.delivery, fun envelope hphase => ?_, fun envelope decision hphase => ?_⟩
    · cases hphase
    · cases hphase
      refine ⟨tracks.unseen _ hunseen, _, decideProjection_eq_ok hdecide, fun p hp => ?_⟩
      exact ⟨projection_key hp, loaded _ p hp⟩
  | wrote =>
    refine ⟨tracks.delivery, fun envelope hphase => ?_, fun envelope decision hphase => ?_⟩
    · cases hphase
    · cases hphase

/-- The tracked facts beside another call. -/
theorem ConsumerThread.Tracks.beside
    {Loaded : Database → String → MerchantPaymentProjectionRecord → Prop} {db db' : Database}
    {thread : ConsumerThread} (tracks : thread.Tracks lib producer Loaded db)
    (kept : ∀ id p, Loaded db id p → Loaded db' id p) : thread.Tracks lib producer Loaded db' := by
  refine ⟨tracks.delivery, tracks.unseen, fun envelope decision hphase => ?_⟩
  obtain ⟨haccepted, read, compared, hread⟩ := tracks.decided envelope decision hphase
  exact ⟨haccepted, read, compared, fun p hp => ⟨(hread p hp).1, kept _ p (hread p hp).2⟩⟩

theorem NeverBack.refl (db : Database) : NeverBack db db := fun _ p hp => ⟨p, hp, le_refl _⟩

/-- The event of a tracked call. -/
theorem ConsumerThread.Tracks.event
    {Loaded : Database → String → MerchantPaymentProjectionRecord → Prop} {db : Database}
    {thread : ConsumerThread} (tracks : thread.Tracks lib producer Loaded db)
    {envelope : WebhookEnvelope} (haccepted : thread.call.accepted lib = .ok envelope) :
    ∃ event ∈ producer.webhookEvents.rows, envelope = event.payload.envelope := by
  obtain ⟨delivery, valid, hcall⟩ := tracks.delivery
  rw [hcall] at haccepted
  exact ⟨delivery.event, valid.event, valid.envelope haccepted⟩

/-- The table after a written projection. -/
theorem ShowsConsumed.write {db db' : Database} {event : WebhookEventRecord}
    (shows : ShowsConsumed producer db) (mem : event ∈ producer.webhookEvents.rows)
    (inbox : ∀ id row, db.processedWebhooks.get id = some row →
      db'.processedWebhooks.get id = some row)
    (recorded : ∃ row, db'.processedWebhooks.get event.id = some row)
    (hget : ∀ id, db'.merchantProjections.get id = if event.paymentId = id then
      some (newProjection event.payload.envelope) else db.merchantProjections.get id) :
    ShowsConsumed producer db' := by
  intro id p hp
  rw [hget] at hp
  split at hp
  · next hid =>
    cases hp
    exact ⟨event, mem, hid, recorded, rfl⟩
  · obtain ⟨other, hother, hid, ⟨row, hrow⟩, hshown⟩ := shows id p hp
    exact ⟨other, hother, hid, ⟨row, inbox _ row hrow⟩, hshown⟩

/-- The table after a write that left it alone. -/
theorem ShowsConsumed.keep {db db' : Database} (shows : ShowsConsumed producer db)
    (inbox : ∀ id row, db.processedWebhooks.get id = some row →
      db'.processedWebhooks.get id = some row)
    (hsame : db'.merchantProjections = db.merchantProjections) :
    ShowsConsumed producer db' ∧ NeverBack db db' := by
  refine ⟨fun id p hp => ?_, fun id p hp => ⟨p, by rw [hsame]; exact hp, le_refl _⟩⟩
  rw [hsame] at hp
  obtain ⟨other, hother, hotherId, ⟨row, hrow⟩, hshown⟩ := shows id p hp
  exact ⟨other, hother, hotherId, ⟨row, inbox _ row hrow⟩, hshown⟩

/-- **One phase of a call that is not overtaken** keeps the view. -/
theorem ShowsConsumed.step {db db' : Database} {thread after : ConsumerThread}
    (store : ProducerStore producer) (shows : ShowsConsumed producer db)
    (tracks : thread.Tracks lib producer (LoadedBefore producer) db)
    (h : ConsumerPool lib db thread db' after) (ahead : ¬Overtaken db thread) :
    ShowsConsumed producer db' ∧ NeverBack db db' := by
  obtain ⟨hcall, moves⟩ := ConsumerThread.act_moves h
  generalize after.phase = phase at moves
  cases moves with
  | ended => exact ⟨shows, .refl db⟩
  | read => exact ⟨shows, .refl db⟩
  | compared => exact ⟨shows, .refl db⟩
  | @wrote envelope decision _ hphase consumes hstorage hafter =>
    obtain ⟨haccepted, read, compared, hread⟩ := tracks.decided envelope decision hphase
    obtain ⟨event, mem, rfl⟩ := tracks.event haccepted
    obtain ⟨hid, hpayment, haggregate, hversion⟩ := store.payload event mem
    have inbox : ∀ id row, db.processedWebhooks.get id = some row →
        db'.processedWebhooks.get id = some row :=
      fun _ _ hrow => Table.get_insert_of_some consumes.inbox hrow
    have recorded : ∃ row, db'.processedWebhooks.get event.id = some row := by
      rw [← hid]
      exact ⟨_, Table.get_insert_self consumes.inbox⟩
    have free : db.processedWebhooks.get event.payload.envelope.id = none :=
      (Table.insert_eq_some consumes.inbox).2.1
    have projects := consumes.projections
    cases compared with
    | created =>
      generalize hafterTable : db'.merchantProjections = t' at projects
      cases projects with
      | insert hinsert =>
        have hget : ∀ id, db'.merchantProjections.get id = if event.paymentId = id then
            some (newProjection event.payload.envelope) else db.merchantProjections.get id := by
          intro id
          rw [hafterTable, Table.get_insert hinsert, ← hpayment]
          rfl
        have hfree : db.merchantProjections.get event.paymentId = none := by
          rw [← hpayment]
          exact (Table.insert_eq_some hinsert).2.1
        refine ⟨shows.write mem inbox recorded hget, fun id p hp => ⟨p, ?_, le_refl _⟩⟩
        rw [hget, if_neg]
        · exact hp
        · rintro rfl
          rw [hfree] at hp
          cases hp
    | @advanced p hnewer =>
      obtain ⟨hkey, ⟨first, hfirst, hfirstId, rfl⟩, stored, hstored, hle⟩ := hread p rfl
      have hsame : event.payload.envelope.payment.id = event.paymentId := hpayment
      rw [hsame] at hstored hfirstId hkey
      obtain ⟨second, hsecond, hsecondId, _, rfl⟩ := shows _ _ hstored
      have hbefore : second.aggregateVersion ≤ event.aggregateVersion := by
        by_contra hover
        apply ahead
        refine ⟨_, _, _, _, newProjection second.payload.envelope, hphase, rfl, hstorage, hafter,
          free, ?_, ?_⟩
        · rw [hsame]
          exact hstored
        · show event.payload.aggregateVersion < second.payload.payment.version
          rw [haggregate, (store.payload second hsecond).2.2.2]
          omega
      have hfirstVersion : first.payload.payment.version = first.aggregateVersion :=
        (store.payload first hfirst).2.2.2
      have hsecondVersion : second.payload.payment.version = second.aggregateVersion :=
        (store.payload second hsecond).2.2.2
      have hnewer' : first.payload.payment.version < event.payload.aggregateVersion := hnewer
      have hle' : first.payload.payment.version ≤ second.payload.payment.version := hle
      have written : (newProjection first.payload.envelope).writeChanges
          (applyProjection (newProjection first.payload.envelope) event.payload.envelope.id
            event.payload.envelope.payment) (newProjection second.payload.envelope) =
            newProjection event.payload.envelope := by
        apply writeChanges_between
        · exact store.ordered first hfirst second hsecond (hfirstId.trans hsecondId.symm) (by omega)
        · exact store.ordered second hsecond event mem hsecondId hbefore
        · show first.payload.payment.version ≠ event.payload.payment.version
          omega
        · intro hids
          have hfirstEvent : first.payload.id = event.payload.id := hids
          rw [(store.payload first hfirst).1, hid] at hfirstEvent
          have := event_id_unique hfirst mem hfirstEvent
          subst this
          omega
      generalize hafterTable : db'.merchantProjections = t' at projects
      cases projects with
      | @update _ _ found _ _ hfound hupdate =>
        rw [hkey, hstored] at hfound
        cases hfound
        rw [written] at hupdate
        have hget : ∀ id, db'.merchantProjections.get id = if event.paymentId = id then
            some (newProjection event.payload.envelope) else db.merchantProjections.get id := by
          intro id
          rw [hafterTable, Table.get_update hupdate]
          show (if event.payload.payment.id = id then
            (db.merchantProjections.get id).map fun _ => newProjection event.payload.envelope
            else db.merchantProjections.get id) = _
          rw [hpayment]
          split
          · next heq => rw [← heq, hstored]; rfl
          · rfl
        refine ⟨shows.write mem inbox recorded hget, fun id q hq => ?_⟩
        rw [hget]
        split
        · next heq =>
          rw [← heq, hstored] at hq
          cases hq
          refine ⟨_, rfl, ?_⟩
          show second.payload.payment.version ≤ event.payload.payment.version
          omega
        · exact ⟨q, hq, le_refl _⟩
    | stale => exact shows.keep inbox projects.same
    | redundant => exact shows.keep inbox projects.same

/-- **An overtaken write goes back.** -/
theorem Overtaken.goesBack {db db' : Database} {thread after : ConsumerThread}
    (tracks : thread.Tracks lib producer (fun _ _ _ => True) db) (overtaken : Overtaken db thread)
    (h : ConsumerPool lib db thread db' after) : ¬NeverBack db db' := by
  obtain ⟨envelope, decision, loaded, current, stored, hphase, hwrite, hstorage, hafter, hfree,
    hstored, hnewer⟩ := overtaken
  obtain ⟨haccepted, read, compared, hread⟩ := tracks.decided envelope decision hphase
  obtain ⟨hloaded, rfl, holder⟩ := compared.update hwrite
  have hkey : loaded.paymentId = envelope.payment.id := (hread loaded hloaded).1
  have hversion : envelope.payment.version = envelope.aggregateVersion :=
    (parse_sound (ConsumerCall.accepted_parse haccepted)).2
  obtain ⟨call, phase⟩ := thread
  cases hphase
  obtain ⟨_, hact⟩ := h
  rw [ConsumerThread.act_decided] at hact
  cases hact
  rw [← hkey] at hstored
  have consumes : Consumes envelope (lib.sha256 call.payload) decision call.now db _ :=
    writeConsumption_updates (s := readSession db) rfl hwrite hfree hstored hstorage hafter
  have projects := consumes.projections
  rw [hwrite] at projects
  intro kept
  obtain ⟨p', hp', hle⟩ := kept _ stored hstored
  rw [projects.get_update hstored] at hp'
  cases hp'
  rw [writeChanges_version (by omega)] at hle
  omega

/-- A step after which no overtaken call wrote keeps the view. -/
theorem KeepsView.of_shows {ι : Type} {t : Pool.Transition Database ι ConsumerThread}
    (shows : ShowsConsumed producer t.post) (neverBack : NeverBack t.pre t.post)
    (store : ProducerStore producer) : KeepsView producer t := by
  refine ⟨fun id p hp => ?_, neverBack⟩
  obtain ⟨event, mem, hid, recorded, rfl⟩ := shows id p hp
  exact ⟨event, mem, hid, recorded, newProjection_shows _, (store.payload event mem).1⟩

variable {κ : Type}

/-- The start of consumers: the store is the producer's as the deliveries found it, and each consumer
is about to make a signed delivery of one of its events. Several may deliver the same event, and
their number is not bounded. -/
structure ConsumersReady (lib : StandardLibrary) (producer : Database)
    (w : Pool.World Database κ ConsumerThread) : Prop where
  shared : w.shared = producer
  ready : ∀ i, ∃ delivery : EventDelivery, delivery.Valid lib producer ∧
    w.threads i = ⟨delivery.call, .ready⟩

theorem ConsumersReady.tracks {w : Pool.World Database κ ConsumerThread}
    (start : ConsumersReady lib producer w)
    {Loaded : Database → String → MerchantPaymentProjectionRecord → Prop} {db : Database} (i : κ) :
    (w.threads i).Tracks lib producer Loaded db := by
  obtain ⟨delivery, valid, hthread⟩ := start.ready i
  rw [hthread]
  refine ⟨⟨delivery, valid, rfl⟩, fun envelope hphase => ?_, fun envelope decision hphase => ?_⟩
  · cases hphase
  · cases hphase

variable [DecidableEq κ]

/-- **A run without an overtaken write** keeps the view at every step. -/
theorem view_kept {w u : Pool.World Database κ ConsumerThread}
    {us : List (Pool.Transition Database κ ConsumerThread)} (store : ProducerStore producer)
    (hprojections : producer.merchantProjections = ∅) (start : ConsumersReady lib producer w)
    (run : Pool.Run (ConsumerPool lib) w us u) (ahead : ∀ t ∈ us, ¬Overtaken t.pre t.before) :
    ∀ t ∈ us, KeepsView producer t := by
  have restricted := run.restrict (fun db thread => ¬Overtaken db thread) ahead
  have own : Pool.Establishes (ι := κ)
      (fun db thread db' after => ConsumerPool lib db thread db' after ∧ ¬Overtaken db thread)
      (ShowsConsumed producer) (fun _ db thread =>
        thread.Tracks lib producer (LoadedBefore producer) db) := by
    intro i db thread db' after shows tracks hstep
    refine ⟨(shows.step store tracks hstep.1 hstep.2).1, tracks.step (fun id p hp => ?_) hstep.1⟩
    obtain ⟨event, mem, hid, _, hshown⟩ := shows id p hp
    exact ⟨⟨event, mem, hid, hshown⟩, p, hp, le_refl _⟩
  have others : Pool.NonInterfering (ι := κ)
      (fun db thread db' after => ConsumerPool lib db thread db' after ∧ ¬Overtaken db thread)
      (ShowsConsumed producer) (fun _ db thread =>
        thread.Tracks lib producer (LoadedBefore producer) db) := by
    intro i j db thread db' after other _ shows tracks tracks' hstep
    refine tracks'.beside fun id p hloaded => ?_
    obtain ⟨hshown, stored, hstored, hle⟩ := hloaded
    obtain ⟨stored', hstored', hle'⟩ := (shows.step store tracks hstep.1 hstep.2).2 id stored hstored
    exact ⟨hshown, stored', hstored', hle.trans hle'⟩
  have holds : Pool.Holds (ShowsConsumed producer) (fun _ db thread =>
      thread.Tracks lib producer (LoadedBefore producer) db) w := by
    refine ⟨fun id p hp => ?_, fun i => start.tracks i⟩
    rw [start.shared, hprojections] at hp
    cases hp
  intro t mem
  obtain ⟨shows, tracks, hstep, hahead⟩ := restricted.transition own others holds mem
  obtain ⟨shows', neverBack⟩ := shows.step store tracks hstep hahead
  exact .of_shows shows' neverBack store

/-- **Concurrent consumers keep the view exactly when no write is overtaken**: every step of a run
keeps it if and only if no step of the run is an overtaken write. One direction is an invariant of
the run, the other a single step: an overtaken write leaves a lower version than it found, so that
the view is not kept there. -/
theorem projection_kept {ι : Type} [DecidableEq ι] {sha256 : String → String}
    {ts : List (Pool.Transition Database ι (Option Client))}
    {v : Pool.World Database ι (Option Client)} (h : Execution sha256 ts v)
    (hprojections : v.shared.merchantProjections = ∅)
    {w u : Pool.World Database κ ConsumerThread}
    {us : List (Pool.Transition Database κ ConsumerThread)}
    (start : ConsumersReady lib v.shared w) (run : Pool.Run (ConsumerPool lib) w us u) :
    (∀ t ∈ us, KeepsView v.shared t) ↔ ∀ t ∈ us, ¬Overtaken t.pre t.before := by
  constructor
  · intro kept t mem overtaken
    have own : Pool.Establishes (ι := κ) (ConsumerPool lib) (fun _ => True)
        (fun _ db thread => thread.Tracks lib v.shared (fun _ _ _ => True) db) :=
      fun _ _ _ _ _ _ tracks hstep => ⟨trivial, tracks.step (fun _ _ _ => trivial) hstep⟩
    have others : Pool.NonInterfering (ι := κ) (ConsumerPool lib) (fun _ => True)
        (fun _ db thread => thread.Tracks lib v.shared (fun _ _ _ => True) db) :=
      fun _ _ _ _ _ _ _ _ _ _ tracks' _ => tracks'.beside fun _ _ _ => trivial
    obtain ⟨_, tracks, hstep⟩ :=
      run.transition own others ⟨trivial, fun i => start.tracks i⟩ mem
    exact overtaken.goesBack tracks hstep (kept t mem).neverBack
  · exact view_kept h.producerStore hprojections start run

end Runs

/-! ## Scheduled runs -/

section Schedules

variable {lib : StandardLibrary} {κ : Type} [DecidableEq κ]

/-- A call that has ended. -/
def ConsumerPhase.ended : ConsumerPhase → Bool
  | .finished _ => true
  | _ => false

/-- The next phase of one call. -/
def consumeNext (lib : StandardLibrary) (w : Pool.World Database κ ConsumerThread) (i : κ) :
    Pool.World Database κ ConsumerThread :=
  let (db, after) := (w.threads i).act lib w.shared
  { shared := db, threads := Function.update w.threads i after }

/-- The calls take their phases as scheduled, and none is scheduled after it ended. -/
def consumeScheduled (lib : StandardLibrary) :
    List κ → Pool.World Database κ ConsumerThread → Option (Pool.World Database κ ConsumerThread)
  | [], w => some w
  | i :: rest, w =>
    if (w.threads i).phase.ended then none else consumeScheduled lib rest (consumeNext lib w i)

/-- **A schedule is a run.** -/
theorem run_of_scheduled : ∀ {schedule : List κ} {w u : Pool.World Database κ ConsumerThread},
    consumeScheduled lib schedule w = some u → ∃ us, Pool.Run (ConsumerPool lib) w us u := by
  intro schedule
  induction schedule with
  | nil =>
    intro w u h
    cases h
    exact ⟨[], .nil w⟩
  | cons i rest ih =>
    intro w u h
    unfold consumeScheduled at h
    split at h
    · cases h
    · next unfinished =>
      obtain ⟨us, run⟩ := ih h
      have enabled : Pool.Enabled (ConsumerPool lib) w ⟨i, w.shared, w.threads i,
          ((w.threads i).act lib w.shared).1, ((w.threads i).act lib w.shared).2⟩ := by
        refine ⟨rfl, rfl, fun result hphase => unfinished ?_, rfl⟩
        rw [show (w.threads i).phase = .finished result from hphase]
        rfl
      exact ⟨_, (Pool.Run.single enabled).append run⟩

end Schedules

/-! ## An overtaken consumer -/

/-- The body of the capture of a purchase. -/
def capturedPayload : EventPayload where
  aggregateVersion := 2
  createdAt := 1
  id := "evt_2"
  payment :=
    { authorizedPayload.payment with
      status := .captured, capturedAmount := 1000, version := 2, updatedAt := 1 }
  type := .captured

/-- The body of the refund of a purchase. -/
def refundedPayload : EventPayload where
  aggregateVersion := 3
  createdAt := 3
  id := "evt_4"
  payment :=
    { capturedPayload.payment with
      status := .partiallyRefunded, refundedAmount := 400, version := 3, updatedAt := 3 }
  type := .refunded

/-- A body with its signature at the epoch and its digest, as the standard library computes them. -/
structure SentBody where
  payload : EventPayload
  hmac : String
  sha256 : String

/-- The bodies of a purchase. -/
def purchaseBodies : List SentBody :=
  [⟨authorizedPayload, "13ea69ad53de6b9b3aa18ef5579f1c8fabb4e5467a516609de961b75821e76f6",
      "da71effb1636f50911de52940d93f2f6808da7b68805c81b88001b1f8f3c1fb2"⟩,
    ⟨capturedPayload, "af5497edc5e1ebcc391fa2f3a1cb177506f575b7315601bf108cb5599370dbd3",
      "6b92f0c8d846bc84b33ba44218425f02b9f1e0d27d1ee72f1b8d55af6a374534"⟩,
    ⟨refundedPayload, "847264d4ae755235c6332ace395dada77cee5ff0434c5084cbf483aaaeda0d9c",
      "5ebca01e53c65ba9d00f4091b2c735fd81b9f0fd16b46b37add5f0d8c3153bc8"⟩]

/-- The body of some bytes; the three differ in their first field. -/
def sentBody (bytes : Bytes) : Option SentBody :=
  purchaseBodies.find? fun sent => decide (sent.payload.body.take 24 = bytes.take 24)

/-- The standard library, on the bodies of a purchase. -/
def purchaseLibrary : StandardLibrary where
  hmacSha256 _ _ bytes := ((sentBody bytes).map SentBody.hmac).getD ""
  readInt text := if text = "0" then some 0 else none
  loads bytes :=
    match sentBody bytes with
    | some sent => .ok (decoded sent.payload.value)
    | none => .error .invalid
  fromIsoformat text :=
    match [0, 1, 3].find? fun t : Instant => decide (replaceZ (formatDatetime t) = text) with
    | some t => .ok (.aware t)
    | none => .error .invalid
  sha256 bytes := ((sentBody bytes).map SentBody.sha256).getD ""

/-- Three consumers: one of the first event, and two that follow it. -/
inductive Follower where
  | first
  | slow
  | quick
  deriving DecidableEq

/-- The bodies the consumers receive. -/
def Follower.body : Follower → SentBody
  | .first => purchaseBodies[0]
  | .slow => purchaseBodies[1]
  | .quick => purchaseBodies[2]

/-- The events they are of. -/
def Follower.event (follower : Follower) : WebhookEventRecord where
  id := follower.body.payload.id
  paymentId := "pay_1"
  eventType := follower.body.payload.type
  aggregateVersion := follower.body.payload.aggregateVersion
  payload := follower.body.payload
  status := .pending
  attemptCount := 0
  nextAttemptAt := follower.body.payload.createdAt
  leaseToken := none
  leaseExpiresAt := none
  createdAt := follower.body.payload.createdAt
  deliveredAt := none

/-- The deliveries of a purchase. -/
def Follower.delivery (follower : Follower) : EventDelivery where
  event := follower.event
  signatureHeader := "t=0,v1=" ++ follower.body.hmac
  secret := "whsec_merchant"
  now := .aware 0
  faults := ⟨false, false⟩

theorem Follower.valid (follower : Follower) :
    follower.delivery.Valid purchaseLibrary purchaseStore := by
  have readsTime : ∀ t ∈ ([0, 1, 3] : List Instant), ReadsTime purchaseLibrary.fromIsoformat t := by
    unfold ReadsTime
    decide +kernel
  have published : ∀ f ∈ [first, slow, quick], f.event ∈ purchaseStore.webhookEvents.rows := by
    decide +kernel
  have signed : ∀ f ∈ [first, slow, quick], verifyWebhookSignature purchaseLibrary.hmacSha256
      purchaseLibrary.readInt f.event.payload.body f.delivery.signatureHeader "whsec_merchant"
      (.aware 0) = .ok () := by
    decide +kernel
  have loads : ∀ f ∈ [first, slow, quick],
      (sentBody f.event.payload.body).map SentBody.payload = some f.event.payload := by
    decide +kernel
  have mem : follower ∈ [first, slow, quick] := by
    cases follower <;> simp
  refine ⟨published _ mem, signed _ mem, ?_, ?_, ?_, ?_, ?_⟩
  · obtain ⟨sent, hsent, hpayload⟩ := Option.map_eq_some_iff.mp (loads _ mem)
    have hpayload' : sent.payload = follower.delivery.event.payload := hpayload
    show (match sentBody follower.event.payload.body with
      | some sent => .ok (decoded sent.payload.value)
      | none => .error .invalid : Except LoadsFault Json) = _
    rw [hsent]
    dsimp only
    rw [hpayload']
  · cases follower <;> exact readsTime _ (by decide)
  · cases follower <;> exact readsTime _ (by decide)
  · cases follower <;> exact readsTime _ (by decide)
  · intro t ht
    cases follower <;> cases ht

/-- The start of the three. -/
def followersReady : Pool.World Database Follower ConsumerThread where
  shared := purchaseStore
  threads follower := ⟨follower.delivery.call, .ready⟩

theorem followersReady_ready : ConsumersReady purchaseLibrary purchaseStore followersReady :=
  ⟨rfl, fun follower => ⟨follower.delivery, follower.valid, rfl⟩⟩

/-- The slow consumer compares with version 1, and writes after the quick one wrote version 3. -/
def mixedSchedule : List Follower :=
  [.first, .first, .first, .slow, .slow, .quick, .quick, .quick, .slow]

/-- What the slow consumer leaves: version 2 with the refund of version 3. -/
def mixedProjection : MerchantPaymentProjectionRecord :=
  { newProjection capturedPayload.envelope with refundedAmount := 400 }

theorem mixed_run : ∃ us u, Pool.Run (ConsumerPool purchaseLibrary) followersReady us u ∧
    u.shared.merchantProjections.get "pay_1" = some mixedProjection := by
  have scheduled : (consumeScheduled purchaseLibrary mixedSchedule followersReady).map
      (fun u => u.shared.merchantProjections.get "pay_1") = some (some mixedProjection) := by
    decide +kernel
  obtain ⟨u, hu, hmixed⟩ := Option.map_eq_some_iff.mp scheduled
  obtain ⟨us, run⟩ := run_of_scheduled hu
  exact ⟨us, u, run, hmixed⟩

/-- The equivalence at the run that mixes two snapshots, where both sides fail. -/
theorem mixed_decides : ∃ us u,
    Pool.Run (ConsumerPool purchaseLibrary) followersReady us u ∧
      ((∀ t ∈ us, KeepsView purchaseStore t) ↔ ∀ t ∈ us, ¬Overtaken t.pre t.before) := by
  obtain ⟨us, u, run, _⟩ := mixed_run
  obtain ⟨ts, last, h⟩ := purchase_execution
  have hprojections : purchaseStore.merchantProjections.rows = [] := by decide +kernel
  exact ⟨us, u, run, projection_kept h (Table.ext hprojections) followersReady_ready run⟩

/-- **Concurrent consumers mix two snapshots**: the view of a purchase after an overtaken write is
the snapshot of no event. -/
theorem view_mixed : ∃ us u, Pool.Run (ConsumerPool purchaseLibrary) followersReady us u ∧
    u.shared.merchantProjections.get "pay_1" = some mixedProjection ∧
      ¬∀ t ∈ us, KeepsView purchaseStore t := by
  obtain ⟨us, u, run, hmixed⟩ := mixed_run
  refine ⟨us, u, run, hmixed, fun kept => ?_⟩
  have noEvent : ∀ event ∈ purchaseStore.webhookEvents.rows,
      ¬(event.payload.payment.status = .captured ∧ event.payload.payment.refundedAmount = 400) := by
    decide +kernel
  cases run with
  | nil =>
    have empty : purchaseStore.merchantProjections.get "pay_1" = none := by decide +kernel
    rw [show followersReady.shared = purchaseStore from rfl, empty] at hmixed
    cases hmixed
  | snoc _ _ =>
    have last := kept _ (List.mem_append_right _ (List.mem_singleton.mpr rfl))
    obtain ⟨event, mem, _, _, shown, _⟩ := last.shows _ _ hmixed
    exact noEvent event mem ⟨shown.status.symm, shown.refundedAmount.symm⟩

end PaymentLab
