import PaymentLab.Consumer.Producer
import PaymentLab.Laws.Delivery
import PaymentLab.Laws.Projection
import PaymentLab.Runs.Platform

/-!
# The platform as a whole

What holds of every run of the platform, whoever acts in whatever order: an event that is marked
delivered is in the merchant's inbox under the digest of its body, for good (`delivered_consumed`);
and the platform refines the models of its two halves (`platform_refines`). Its clients run the
service on a ledger that adds up, and the delivery tables hold, for each event, what the delivery
steps make of the event as it was published.

Simulation goes through the parties: each step of the platform is a step of the service, of a
dispatcher or of a consumer, beside an environment that is the others. What the two halves need of
each other is small. The service never writes a delivery column, and the dispatchers write nothing
else of an event, so that the projection of a run to either half is a run of it.
-/

namespace PaymentLab

open Relational Transactional

section Delivered

variable {lib : StandardLibrary} {db db' : Database}

/-! ## Delivered means consumed -/

/-- Every event that is marked delivered was answered by the consumer. -/
def Acknowledged (lib : StandardLibrary) (db : Database) : Prop :=
  ∀ id event, db.webhookEvents.get id = some event → event.status = .delivered →
    Answered lib db event.payload

/-- What marks no event delivered that was not, keeps it. -/
theorem Acknowledged.kept (h : Acknowledged lib db) (inbox : KeepsInbox db db')
    (marks : ∀ id event, db'.webhookEvents.get id = some event → event.status = .delivered →
      db.webhookEvents.get id = some event ∨ Answered lib db event.payload) :
    Acknowledged lib db' := by
  intro id event hevent hstatus
  rcases marks id event hevent hstatus with hold | hanswered
  · exact (h id event hold hstatus).kept inbox
  · exact hanswered.kept inbox

/-- A publication marks none. -/
theorem Publishes.marks (h : Publishes db db') (id : String) (event : WebhookEventRecord)
    (hevent : db'.webhookEvents.get id = some event) (hstatus : event.status = .delivered) :
    db.webhookEvents.get id = some event := by
  obtain ⟨published, hrows, hfresh⟩ := h.events
  rw [Table.get_append hrows] at hevent
  cases hold : db.webhookEvents.get id with
  | some old =>
    rw [hold, Option.some_or] at hevent
    exact hevent
  | none =>
    rw [hold, Option.none_or] at hevent
    have hpending := (hfresh event (List.mem_of_find?_eq_some hevent)).pending
    rw [hstatus] at hpending
    cases hpending

/-- A claim marks none. -/
theorem Leases.marks {leased : WebhookEventRecord} {leaseToken : String} {current : Instant}
    (h : Leases leased leaseToken current db db') (id : String) (event : WebhookEventRecord)
    (hevent : db'.webhookEvents.get id = some event) (hstatus : event.status = .delivered) :
    db.webhookEvents.get id = some event := by
  by_cases hid : leased.id = id
  · subst hid
    rw [h.stored'] at hevent
    cases hevent
    cases hstatus
  · rw [← Table.get_update_of_ne h.events hid]
    exact hevent

/-- **A transaction of a dispatch** marks only an event whose courier was acknowledged. -/
theorem Courier.Coherent.marks {courier : Courier} {reply : Reply} {worker : Worker}
    (h : courier.Coherent lib db) (tracked : Tracked db)
    (acts : (courier.worker reply).Acts db db' worker) (id : String) (event : WebhookEventRecord)
    (hevent : db'.webhookEvents.get id = some event) (hstatus : event.status = .delivered) :
    db.webhookEvents.get id = some event ∨ Answered lib db event.payload := by
  have unchanged : db' = db → db.webhookEvents.get id = some event := by
    rintro rfl
    exact hevent
  obtain ⟨request, identity, phase, consumer⟩ := courier
  cases acts with
  | claimed _ _ hleases _ => exact .inl (hleases.marks id event hevent hstatus)
  | loaded _ hsame _ _ _ => exact .inl (unchanged hsame)
  | replied _ hsame _ => exact .inl (unchanged hsame)
  | failed _ _ hsame _ => exact .inl (unchanged hsame)
  | @finalized leaseToken delivery identity' result hphase hfinalizes hafter =>
    cases hphase
    obtain ⟨loaded, stored, hheld, hstored, holds⟩ := h.worker
    have hheld : heldEvent request.eventId identity = some loaded := hheld
    have hstored : db.webhookEvents.get request.eventId = some stored := hstored
    have hfinalizes : Finalizes request.eventId leaseToken (asUtc request.now) delivery
        (answeredEvent request.eventId identity db) db db' result := hfinalizes
    rw [answeredEvent_held hheld] at hfinalizes
    cases hfinalizes with
    | missing _ hsame => exact .inl (unchanged hsame)
    | superseded _ _ hsame => exact .inl (unchanged hsame)
    | refused _ _ _ _ hsame => exact .inl (unchanged hsame)
    | recorded hfound htoken hrecords =>
      cases hfound
      have hid : loaded.id = request.eventId := heldEvent_id hheld
      have records := hrecords.track tracked (hid ▸ hstored) holds htoken
      have hkey : stored.id = request.eventId := (Table.get_eq_some hstored).2
      by_cases hother : stored.id = id
      · obtain ⟨finalized, next, hfinal, hget⟩ := records.event
        rw [← hother, hget] at hevent
        cases hevent
        have spec := WebhookEventRecord.finalized_spec hfinal
        obtain ⟨found, hfound, hanswered⟩ := h.acknowledged _ _ rfl (spec.delivered.mp hstatus)
        have hsame : stored = found := Option.some.inj (hstored.symm.trans hfound)
        have hpayload : event.payload = stored.payload :=
          congrArg PublishedEvent.payload spec.published
        rw [hpayload, hsame]
        exact .inr hanswered
      · have htrack := records.others id hother
        rw [Database.track_of_get hevent] at htrack
        exact .inl (Database.track_eq_some htrack.symm).1

/-- **A step of the platform** keeps every delivered event answered. -/
theorem Acknowledged.step {sha256 : String → String} {party party' : Party}
    (h : Acknowledged lib db) (tracked : Tracked db) (coherent : party.Coherent lib db)
    (step : Platform sha256 lib db party db' party') : Acknowledged lib db' := by
  have inbox := (step.coherent tracked coherent).1.inbox
  have same : db'.webhookEvents = db.webhookEvents → Acknowledged lib db' := by
    intro hsame
    refine h.kept inbox fun id event hevent _ => .inl ?_
    rw [← hsame]
    exact hevent
  cases step with
  | client step =>
    have publishes := (step.publishes coherent).1
    exact h.kept inbox fun id event hevent hstatus => .inl (publishes.marks id event hevent hstatus)
  | courier step =>
    cases step with
    | begin => exact same rfl
    | crash => exact same rfl
    | next unfinished hnext =>
      cases Courier.next_cases unfinished hnext with
      | called _ _ hsame _ => exact same (by rw [hsame])
      | consumed _ _ hstep _ => exact same (by rw [(ConsumerThread.act_moves hstep).2.rest])
      | dispatched _ acts _ => exact h.kept inbox (Courier.Coherent.marks coherent tracked acts)
  | receive => exact same rfl
  | consume hstep => exact same (by rw [(ConsumerThread.act_moves hstep).2.rest])
  | imports himports => exact same (by rw [himports.rest])
  | reports hreports =>
    rcases hreports.cases with hsame | ⟨_, _, _, hrest⟩
    · exact same (by rw [hsame])
    · exact same (by rw [hrest])

end Delivered

section Runs

variable {ι : Type} [DecidableEq ι] {sha256 : String → String} {lib : StandardLibrary}
  {ts us : List (Pool.Transition Database ι Party)} {v u : Pool.World Database ι Party}

theorem Running.acknowledged (h : Running sha256 lib ts v) : Acknowledged lib v.shared := by
  refine h.invariant ?_ fun _ _ _ _ tracked coherent _ step acknowledged =>
    acknowledged.step tracked coherent step
  intro id event hevent
  have hnone : Database.empty.webhookEvents.get id = none := rfl
  rw [hnone] at hevent
  cases hevent

/-- The track of an event goes on by delivery steps. -/
theorem Running.advances (h : Running sha256 lib ts v)
    (run : Pool.Run (Platform sha256 lib) v us u) {eventId : String} {a : Track}
    (tracked : v.shared.track eventId = some a) :
    ∃ b, u.shared.track eventId = some b ∧ a.Steps b := by
  refine h.continues (P := fun db => ∃ b, db.track eventId = some b ∧ a.Steps b) run
    ⟨a, tracked, .refl⟩ ?_
  rintro _ _ _ _ _ _ evolves _ ⟨b, hb, steps⟩
  obtain ⟨c, hc, further⟩ := evolves.delivers.continues eventId b hb
  exact ⟨c, hc, steps.trans further⟩

/-- The track of an event began with the event as the outbox published it. -/
theorem Running.traced (h : Running sha256 lib ts v) {eventId : String} {b : Track}
    (tracked : v.shared.track eventId = some b) :
    ∃ fresh : WebhookEventRecord, fresh.Fresh ∧ Track.Steps ⟨fresh, []⟩ b := by
  refine h.invariant (I := fun db => ∀ b, db.track eventId = some b →
    ∃ fresh : WebhookEventRecord, fresh.Fresh ∧ Track.Steps ⟨fresh, []⟩ b) ?_ ?_ b tracked
  · intro b hb
    have hnone : Database.empty.track eventId = none := rfl
    rw [hnone] at hb
    cases hb
  · intro db _ _ _ _ _ evolves _ ih c hc
    cases hold : db.track eventId with
    | none =>
      obtain ⟨fresh, unattempted⟩ := evolves.delivers.begins eventId c hold hc
      refine ⟨c.event, fresh, ?_⟩
      rw [← unattempted]
    | some a =>
      obtain ⟨fresh, hfresh, steps⟩ := ih a hold
      obtain ⟨c', hc', further⟩ := evolves.delivers.continues eventId a hold
      cases hc.symm.trans hc'
      exact ⟨fresh, hfresh, steps.trans further⟩

/-- An event only moves on. -/
theorem Running.later (h : Running sha256 lib ts v)
    (run : Pool.Run (Platform sha256 lib) v us u) {eventId : String} {event : WebhookEventRecord}
    (stored : v.shared.webhookEvents.get eventId = some event) :
    ∃ later, u.shared.webhookEvents.get eventId = some later ∧ Later event later := by
  obtain ⟨b, hb, steps⟩ := h.advances run (Database.track_of_get stored)
  exact ⟨b.event, (Database.track_eq_some hb).1, steps.later⟩

/-- A delivered event stays as it is. -/
theorem Running.final (h : Running sha256 lib ts v)
    (run : Pool.Run (Platform sha256 lib) v us u) {event : WebhookEventRecord}
    (stored : v.shared.webhookEvents.get event.id = some event) (final : event.status.Final) :
    u.shared.webhookEvents.get event.id = some event := by
  obtain ⟨later, hstored, hlater⟩ := h.later run stored
  rw [hlater.final final] at hstored
  exact hstored

/-- A delivered event is in the inbox under the digest of its body. -/
theorem Running.consumed (h : Running sha256 lib ts v) {event : WebhookEventRecord}
    (mem : event ∈ v.shared.webhookEvents.rows) (delivered : event.status = .delivered)
    (back : ReadsBack lib.loads lib.fromIsoformat event.payload) :
    ∃ row, v.shared.processedWebhooks.get event.id = some row ∧
      row.payloadHash = lib.sha256 event.payload.body := by
  obtain ⟨envelope, row, hparse, hrow, hhash⟩ :=
    h.acknowledged event.id event (Table.get_of_mem mem) delivered
  have hid : event.payload.id = event.id := (h.execution.producerStore.payload event mem).1
  rw [parse_encoded back hparse, show event.payload.envelope.id = event.id from hid] at hrow
  exact ⟨row, hrow, hhash⟩

/-- **Delivered means consumed.** Whatever runs beside its delivery, an event that is marked delivered
is in the inbox under the digest of its body, and both rows stay. -/
theorem delivered_consumed (h : Running sha256 lib ts v) {event : WebhookEventRecord}
    (mem : event ∈ v.shared.webhookEvents.rows) (delivered : event.status = .delivered)
    (back : ReadsBack lib.loads lib.fromIsoformat event.payload) :
    ∃ row, v.shared.processedWebhooks.get event.id = some row ∧
      row.payloadHash = lib.sha256 event.payload.body ∧
      ∀ us u, Pool.Run (Platform sha256 lib) v us u →
        u.shared.webhookEvents.get event.id = some event ∧
          u.shared.processedWebhooks.get event.id = some row := by
  obtain ⟨row, hrow, hhash⟩ := h.consumed mem delivered back
  have stored := Table.get_of_mem mem
  refine ⟨row, hrow, hhash, fun us u run => ⟨h.final run stored (.inl delivered), ?_⟩⟩
  exact h.keepsInbox run _ _ hrow

/-- **What the platform is** through its two abstractions. Through its clients it is an execution of
the service with imports, and the ledger of each payment adds up to its balances. Through its events
it is, for each of them, a sequence of delivery steps that began with a published event and no
attempt; so the rows record exactly the attempts, and what a continuation does to them is again
delivery steps. What the deliveries answered, and what the merchant made of them, it does not say. -/
structure Refines (sha256 : String → String) (lib : StandardLibrary)
    (ts : List (Pool.Transition Database ι Party)) (v : Pool.World Database ι Party) : Prop where
  service : Accounted sha256 (ts.map (Pool.Transition.map Party.asClient)) (v.map Party.asClient)
  ledger : ∀ p, v.shared.payments.get p.id = some p →
    calculateLedgerTotals (v.shared.ledgerOf p.id) none = p.balances ∧
      ∀ entry ∈ v.shared.ledgerOf p.id, entry.currency = p.currency
  published : ∀ event ∈ v.shared.webhookEvents.rows, ∃ fresh : WebhookEventRecord,
    fresh.Fresh ∧ fresh.published = event.published ∧
      Track.Steps ⟨fresh, []⟩ ⟨event, v.shared.attemptsOf event.id⟩
  recorded : ∀ event ∈ v.shared.webhookEvents.rows,
    DeliveryRecords (v.shared.attemptsOf event.id) event
  onward : ∀ us u, Pool.Run (Platform sha256 lib) v us u →
    ∀ event ∈ v.shared.webhookEvents.rows,
      ∃ later, u.shared.webhookEvents.get event.id = some later ∧ Later event later ∧
        Track.Steps ⟨event, v.shared.attemptsOf event.id⟩ ⟨later, u.shared.attemptsOf event.id⟩

/-- **The platform refines its two abstractions**, in every state of every run: its clients are a run
of the service beside settlement imports, on a ledger that adds up, and the delivery tables hold of
each event what delivery steps make of it as it was published. Where an earlier state is compared
with a later one, the later track is reached from the earlier by such steps, and its row can only
have moved on. -/
theorem platform_refines (h : Running sha256 lib ts v) : Refines sha256 lib ts v := by
  have tracked : ∀ event ∈ v.shared.webhookEvents.rows,
      v.shared.track event.id = some ⟨event, v.shared.attemptsOf event.id⟩ := fun _ mem =>
    Database.track_of_get (Table.get_of_mem mem)
  exact
    { service := h.accounted
      ledger := by
        intro p stored
        obtain ⟨_, _, lived⟩ := h.execution.lived (p := p) stored
        exact ⟨lived.balanced.totals, lived.balanced.currency⟩
      published := by
        intro event mem
        obtain ⟨fresh, hfresh, steps⟩ := h.traced (tracked event mem)
        exact ⟨fresh, hfresh, steps.later.published.symm, steps⟩
      recorded := fun event mem => (h.holds.1.consistent _ _ (tracked event mem)).records
      onward := by
        intro us u run event mem
        obtain ⟨b, hb, steps⟩ := h.advances run (tracked event mem)
        obtain ⟨stored, hattempts⟩ := Database.track_eq_some hb
        refine ⟨b.event, stored, steps.later, ?_⟩
        rw [← hattempts]
        exact steps }

end Runs

/-! ## A delivered purchase -/

/-- Who keeps a shop: its one customer, the courier of its outbox, and the office that bills it. -/
inductive Keeper where
  | customer
  | courier
  | office
  deriving DecidableEq

/-- A courier about to deliver an event at the epoch. -/
def courierOf (eventId hex : String) (fault : Option DeliveryFault) : Courier where
  request :=
    { eventId := eventId, secret := "whsec_merchant", now := .aware 0, fault := fault, hex := hex
      refused := false }
  identity := ∅
  phase := .ready
  consumer := none

/-- A client that places the order, a courier of its first event, and the office. -/
def shop : Pool.World Database Keeper Party where
  shared := .empty
  threads
    | .customer => .client ⟨order, ∅, .ready⟩
    | .courier => .courier (courierOf "evt_1" "1" none)
    | .office => .office

theorem shop_opening : Opening shop := by
  refine ⟨rfl, fun i => ?_⟩
  cases i with
  | customer => exact ⟨rfl, rfl⟩
  | courier => exact ⟨rfl, rfl⟩
  | office => trivial

/-- The order is placed, and its event delivered. -/
def serving : List Keeper := List.replicate 2 .customer ++ List.replicate 8 .courier

def servedShop : Pool.World Database Keeper Party :=
  operate (fun _ => "") purchaseLibrary serving shop

/-- The event of the order, delivered at the first attempt. -/
def deliveredOrder : WebhookEventRecord :=
  { Follower.first.event with
    status := .delivered, attemptCount := 1, deliveredAt := some 0 }

theorem servedShop_events : servedShop.shared.webhookEvents.rows = [deliveredOrder] := by
  decide +kernel

/-- A delivered event that was consumed. -/
theorem deliveredOrder_consumed :
    deliveredOrder ∈ servedShop.shared.webhookEvents.rows ∧ deliveredOrder.status = .delivered ∧
    ∃ row, servedShop.shared.processedWebhooks.get deliveredOrder.id = some row ∧
      row.payloadHash = purchaseLibrary.sha256 deliveredOrder.payload.body ∧
      ∀ us u, Pool.Run (Platform (fun _ => "") purchaseLibrary) servedShop us u →
        u.shared.webhookEvents.get deliveredOrder.id = some deliveredOrder ∧
          u.shared.processedWebhooks.get deliveredOrder.id = some row := by
  have stored : deliveredOrder ∈ servedShop.shared.webhookEvents.rows := by
    rw [servedShop_events]
    exact List.mem_cons_self
  obtain ⟨ts, h, _⟩ := Running.operate (fun _ => "") purchaseLibrary shop_opening serving
  exact ⟨stored, rfl, delivered_consumed h stored rfl (Follower.valid .first).readsBack⟩

/-- The shop in which the order was delivered refines its two abstractions. -/
theorem servedShop_refines : ∃ ts, Refines (fun _ => "") purchaseLibrary ts servedShop := by
  obtain ⟨ts, h, _⟩ := Running.operate (fun _ => "") purchaseLibrary shop_opening serving
  exact ⟨ts, platform_refines h⟩

end PaymentLab
