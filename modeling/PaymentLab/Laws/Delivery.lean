import PaymentLab.Runs.Deliveries

/-!
# Delivery records

In every store the dispatchers reach, whatever the order of their claims, loads and finalizes, the
row of an event says exactly what its attempts are. The argument is `Track.Steps.consistent`; the
store refines the tracks it is about.

What a receiver did with a request is not known here: an acknowledgement that was lost looks as a
failure, and the attempt is recorded as one. Nor is anything said of how long an event waits, or
that it is ever claimed; a run may stop anywhere.
-/

namespace PaymentLab

open Relational Transactional

/-- The row of an event against its attempts: how many there are and how they are numbered, which
status they amount to, and that a lease is there exactly while the event is being processed. When an
attempt is due is not part of it. -/
structure DeliveryRecords (attempts : List WebhookDeliveryAttemptRecord)
    (event : WebhookEventRecord) : Prop where
  counted : event.attemptCount = attempts.length
  numbered : attempts.map (·.attemptNumber) = List.range' 1 event.attemptCount
  limited : event.attemptCount ≤ maxDeliveryAttempts
  /-- delivered: the last attempt was acknowledged, and only that -/
  delivered : event.status = .delivered ↔ ∃ front last, attempts = front ++ [last] ∧
    last.acknowledged = true ∧ ∀ attempt ∈ front, attempt.acknowledged = false
  exhausted : event.status = .exhausted ↔ attempts.length = maxDeliveryAttempts ∧
    ∀ attempt ∈ attempts, attempt.acknowledged = false
  token : event.leaseToken.isSome ↔ event.status = .processing
  expiry : event.leaseExpiresAt.isSome ↔ event.status = .processing

/-- What the track of an event says, on its row and its attempts. -/
theorem Track.Consistent.records {event : WebhookEventRecord}
    {attempts : List WebhookDeliveryAttemptRecord} (h : Consistent ⟨event, attempts⟩) :
    DeliveryRecords attempts event := by
  refine ⟨h.length.symm, h.numbered, h.limited, ⟨h.delivered, ?_⟩, ⟨fun hexhausted => ?_, ?_⟩,
    h.token, h.expiry⟩
  · rintro ⟨front, last, rfl, hlast, -⟩
    by_contra hundelivered
    have := h.unacknowledged hundelivered last (List.mem_append_right _ (List.mem_singleton.mpr rfl))
    rw [hlast] at this
    cases this
  · exact ⟨h.length.trans (h.exhausted hexhausted),
      h.unacknowledged (by show event.status ≠ _; rw [hexhausted]; exact nofun)⟩
  · rintro ⟨hlength, hnone⟩
    have hcount : event.attemptCount = maxDeliveryAttempts := h.length.symm.trans hlength
    by_contra hunexhausted
    by_cases hdelivered : event.status = .delivered
    · obtain ⟨front, last, rfl, hlast, -⟩ := h.delivered hdelivered
      have := hnone last (List.mem_append_right _ (List.mem_singleton.mpr rfl))
      rw [hlast] at this
      cases this
    · have hopen : event.attemptCount < maxDeliveryAttempts :=
        h.open' (by rintro (hstatus | hstatus) <;> contradiction)
      omega

/-- **Delivery records are consistent under any interleaving**: in every store reached, along every
continuation, and without an index out of range. -/
theorem delivery_records {ι : Type} [DecidableEq ι]
    {hmacSha256 : String → Int → EventPayload → String}
    {ts : List (Pool.Transition Database ι (Option Worker))}
    {v : Pool.World Database ι (Option Worker)} (h : Dispatching hmacSha256 ts v) :
    (∀ event ∈ v.shared.webhookEvents.rows,
      DeliveryRecords (v.shared.attemptsOf event.id) event) ∧
    (∀ us u, Pool.Run (Dispatchers hmacSha256) v us u → ∀ event ∈ v.shared.webhookEvents.rows,
      event.status.Final → u.shared.webhookEvents.get event.id = some event ∧
        u.shared.attemptsOf event.id = v.shared.attemptsOf event.id) ∧
    ∀ t ∈ ts, ∀ worker, t.after = some worker →
      worker.phase ≠ .finished (.error .indexError) := by
  refine ⟨fun event mem => ?_, fun us u run event mem final => ?_, fun t mem after hafter => ?_⟩
  · exact (h.tracked.consistent _ _ (Database.track_of_get (Table.get_of_mem mem))).records
  · obtain ⟨b, hb, hsteps⟩ := h.continues run (Database.track_of_get (Table.get_of_mem mem))
    have hsame := hsteps.final final
    obtain ⟨hevent, hattempts⟩ := Database.track_eq_some hb
    rw [hsame] at hevent hattempts
    exact ⟨hevent, hattempts.symm⟩
  · obtain ⟨w, idle, run⟩ := h
    have step := run.allowed mem
    obtain ⟨i, pre, before, post, after'⟩ := t
    cases hafter
    cases step with
    | thread step =>
      cases step with
      | begin => exact nofun
      | act unfinished hact => exact (Worker.act_cases unfinished hact).inRange
      | crash => exact nofun

/-! ## A delivery that succeeds at the second attempt -/

/-- An event as the outbox publishes it. -/
def announced : WebhookEventRecord :=
  createOutboxEvent
    { id := "pay_1", merchantReference := "order-1", amount := 1000, currency := .usd
      status := .authorized, paymentFlow := .synchronous, paymentReference := none
      expiresAt := none, declineReason := none, authorizedAmount := 1000, capturedAmount := 0
      refundedAmount := 0, version := 1, createdAt := 0, updatedAt := 0 }
    .authorized "1"

/-- The store with that event. -/
def announcedStore : Database :=
  { Database.empty with
    webhookEvents := ((Table.empty webhookEventSchema).insert announced).getD (Table.empty _) }

/-- A dispatch of that event whose receiver gives a fixed reply. -/
def dispatchOf (reply : Reply) (now : Int) (hex : String) : Dispatch :=
  { eventId := announced.id, secret := "secret", receiver := fun _ _ _ => reply
    now := .aware (seconds now), fault := none, hex := hex }

/-- The service that publishes, and two workers that deliver. -/
inductive Dispatcher where
  | service
  | first
  | second
deriving DecidableEq

/-- The service beside two workers at their first call. -/
def dispatchersOf (first second : Dispatch) : Pool.World Database Dispatcher (Option Worker) :=
  { shared := .empty
    threads := fun
      | .service => none
      | .first => some ⟨first, ∅, .ready⟩
      | .second => some ⟨second, ∅, .ready⟩ }

/-- The publication of the event. -/
def announcement : Pool.Transition Database Dispatcher (Option Worker) :=
  { thread := .service, pre := .empty, before := none, post := announcedStore, after := none }

theorem announcedStore_publishes : Publishes .empty announcedStore := by
  obtain ⟨t, ht⟩ : ∃ t, (Table.empty webhookEventSchema).insert announced = some t :=
    Option.isSome_iff_exists.mp (by decide +kernel)
  have hevents : announcedStore.webhookEvents = t := by
    unfold announcedStore
    rw [ht, Option.getD_some]
  have fresh : announced.Fresh := createOutboxEvent_fresh ..
  exact .insert fresh (hevents ▸ ht) rfl

/-- The workers run in an order, once the event is published. -/
def dispatching (first second : Dispatch) (order : List Dispatcher) :
    List (Pool.Transition Database Dispatcher (Option Worker)) ×
      Pool.World Database Dispatcher (Option Worker) :=
  schedule (fun _ _ _ => "") order
    ([announcement], (dispatchersOf first second).apply announcement)

theorem dispatching_run (first second : Dispatch) (order : List Dispatcher) :
    Dispatching (fun _ _ _ => "") (dispatching first second order).1
      (dispatching first second order).2 := by
  refine Dispatching.schedule ⟨dispatchersOf first second, ⟨rfl, fun i worker h => ?_⟩, ?_⟩ order
  · cases i with
    | service => cases h
    | first => cases h; rfl
    | second => cases h; rfl
  · exact .single ⟨rfl, rfl, .environment announcedStore_publishes⟩

/-- The event after a time-out of the first worker and an acknowledgement of the second. -/
def redelivered : WebhookEventRecord :=
  { announced with
    status := .delivered, attemptCount := 2, nextAttemptAt := seconds 1
    deliveredAt := some (seconds 1) }

/-- The run of its two calls, one after the other. -/
def redelivery : List (Pool.Transition Database Dispatcher (Option Worker)) ×
    Pool.World Database Dispatcher (Option Worker) :=
  dispatching (dispatchOf .timeoutError 0 "1") (dispatchOf (.status 200) 1 "2")
    (List.replicate 4 .first ++ List.replicate 4 .second)

/-- The records of a delivery at the second attempt. -/
theorem redelivered_records :
    redelivered ∈ redelivery.2.shared.webhookEvents.rows ∧
    DeliveryRecords (redelivery.2.shared.attemptsOf redelivered.id) redelivered := by
  have stored : redelivered ∈ redelivery.2.shared.webhookEvents.rows := by
    decide +kernel
  exact ⟨stored, (delivery_records (dispatching_run _ _ _)).1 redelivered stored⟩

end PaymentLab
