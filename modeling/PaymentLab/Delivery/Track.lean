import Mathlib.Data.List.Range
import PaymentLab.Account.Model
import PaymentLab.Services.Delivery

/-!
# The delivery of one event

The abstract model of one event under delivery: its row and its attempts, and the two things that
may happen to them. A claim leases the event to a dispatcher, a record ends an attempt. Everything
the store promises about the delivery of an event is a fact about tracks, by induction on their
steps (`Track.Steps.consistent`, `Track.Steps.final`).

A step of a track may be taken by any worker. Who may take it is decided by the lease in the row,
and the track does not know whether a worker that lost its lease is still about to record; that such
a record is refused or fits is shown in the refinement (`Runs/Deliveries`).
-/

namespace PaymentLab

open Transactional

/-! ## Finalized events -/

/-- A status the delivery of an event ends in. -/
def WebhookStatus.Final (status : WebhookStatus) : Prop :=
  status = .delivered ∨ status = .exhausted

/-- **The retry delay is always found**: an attempt below the limit has one. -/
theorem WebhookEventRecord.finalized_isOk (event : WebhookEventRecord) (current : Instant)
    (delivery : Delivery) : ∃ finalized, event.finalized current delivery = .ok finalized := by
  unfold WebhookEventRecord.finalized
  by_cases hsucceeded : delivery.succeeded = true
  · exact ⟨_, if_pos hsucceeded⟩
  · by_cases hlimit : maxDeliveryAttempts ≤ event.attemptCount + 1
    · exact ⟨_, (if_neg hsucceeded).trans (if_pos hlimit)⟩
    · have hcount : event.attemptCount = 0 ∨ event.attemptCount = 1 := by
        unfold maxDeliveryAttempts at hlimit
        omega
      simp only [if_neg hsucceeded, if_neg hlimit]
      rcases hcount with h | h <;> simp [h, retryDelaysSeconds]

/-- What a finalized event says of the attempt and of the row it came from. -/
structure Finalized (event finalized : WebhookEventRecord) (delivery : Delivery) : Prop where
  published : finalized.published = event.published
  attemptCount : finalized.attemptCount = event.attemptCount + 1
  leaseToken : finalized.leaseToken = none
  leaseExpiresAt : finalized.leaseExpiresAt = none
  unleased : finalized.status ≠ .processing
  delivered : finalized.status = .delivered ↔ delivery.succeeded = true
  exhausted : finalized.status = .exhausted ↔
    delivery.succeeded = false ∧ maxDeliveryAttempts ≤ event.attemptCount + 1

theorem WebhookEventRecord.finalized_spec {event finalized : WebhookEventRecord}
    {current : Instant} {delivery : Delivery} {next : Option Instant}
    (h : event.finalized current delivery = .ok (finalized, next)) :
    Finalized event finalized delivery := by
  unfold WebhookEventRecord.finalized at h
  split at h
  · next hsucceeded =>
    cases h
    exact ⟨rfl, rfl, rfl, rfl, by simp, by simp [hsucceeded], by simp [hsucceeded]⟩
  · next hfailed =>
    have hfailed : delivery.succeeded = false := by simpa using hfailed
    split at h
    · next hlimit =>
      cases h
      exact ⟨rfl, rfl, rfl, rfl, by simp, by simp [hfailed], by simp [hfailed, hlimit]⟩
    · next hlimit =>
      split at h
      · cases h
      · cases h
        exact ⟨rfl, rfl, rfl, rfl, by simp, by simp [hfailed], by simp [hlimit]⟩

/-! ## Rows that stay behind -/

/-- How the row of an event can have changed since it was read. It compares two rows; that the later
one was reached by delivery steps is `Track.Steps`, which implies it. -/
structure Later (read stored : WebhookEventRecord) : Prop where
  published : stored.published = read.published
  attemptCount : read.attemptCount ≤ stored.attemptCount
  active : stored.attemptCount = read.attemptCount → read.status = .processing →
    stored.status = .processing
  final : read.status.Final → stored = read

namespace Later

theorem refl (event : WebhookEventRecord) : Later event event :=
  ⟨rfl, Nat.le_refl _, fun _ h => h, fun _ => rfl⟩

theorem trans {a b c : WebhookEventRecord} (h : Later a b) (k : Later b c) : Later a c where
  published := k.published.trans h.published
  attemptCount := h.attemptCount.trans k.attemptCount
  active hcount hactive := by
    have hab := h.attemptCount
    have hbc := k.attemptCount
    exact k.active (by omega) (h.active (by omega) hactive)
  final hfinal := by
    have hb : b = a := h.final hfinal
    subst hb
    exact k.final hfinal

/-- A claim leads to a later row. -/
theorem leased {event : WebhookEventRecord} {current : Instant}
    (h : event.claimable current = true) (leaseToken : String) :
    Later event (event.leased leaseToken current) where
  published := rfl
  attemptCount := Nat.le_refl _
  active _ _ := rfl
  final hfinal := by
    rcases hfinal with hstatus | hstatus <;> simp [WebhookEventRecord.claimable, hstatus] at h

/-- So does a record, from a leased row. -/
theorem finalized {event finalized : WebhookEventRecord} {current : Instant} {delivery : Delivery}
    {next : Option Instant} (leased : event.status = .processing)
    (h : event.finalized current delivery = .ok (finalized, next)) : Later event finalized := by
  obtain ⟨hpublished, hcount, -, -, -, -, -⟩ := WebhookEventRecord.finalized_spec h
  refine ⟨hpublished, by omega, fun heq => by omega, fun hfinal => ?_⟩
  rcases hfinal with hstatus | hstatus <;> simp [leased] at hstatus

end Later

/-- **A stale write is a fresh one**: when the row still counts the attempts that were loaded, the
columns a finalized object writes are those the stored row would have been given. -/
theorem writeChanges_finalized {loaded stored finalized : WebhookEventRecord} {current : Instant}
    {delivery : Delivery} {next : Option Instant}
    (count : stored.attemptCount = loaded.attemptCount) (leased : loaded.status = .processing)
    (token : loaded.leaseToken.isSome) (expiry : loaded.leaseExpiresAt.isSome)
    (h : loaded.finalized current delivery = .ok (finalized, next)) :
    stored.finalized current delivery = .ok (loaded.writeChanges finalized stored, next) := by
  obtain ⟨-, hcount, htoken, hexpiry, hunleased, -, -⟩ := WebhookEventRecord.finalized_spec h
  have hstatus : writeColumn loaded.status finalized.status stored.status = finalized.status :=
    writeColumn_of_ne _ (leased ▸ hunleased)
  have hattempts : writeColumn loaded.attemptCount finalized.attemptCount stored.attemptCount =
      finalized.attemptCount := writeColumn_of_ne _ (by omega)
  have hreleased : writeColumn loaded.leaseToken finalized.leaseToken stored.leaseToken =
      finalized.leaseToken :=
    writeColumn_of_ne _ (by rw [htoken]; intro heq; rw [← heq] at token; cases token)
  have hexpired : writeColumn loaded.leaseExpiresAt finalized.leaseExpiresAt
      stored.leaseExpiresAt = finalized.leaseExpiresAt :=
    writeColumn_of_ne _ (by rw [hexpiry]; intro heq; rw [← heq] at expiry; cases expiry)
  unfold WebhookEventRecord.writeChanges
  rw [hstatus, hattempts, hreleased, hexpired, htoken, hexpiry, hcount]
  unfold WebhookEventRecord.finalized at h ⊢
  rw [count]
  split at h
  · next hsucceeded =>
    cases h
    simp [hsucceeded, WebhookEventRecord.released, count]
  · next hfailed =>
    rw [if_neg hfailed]
    split at h
    · next hlimit =>
      cases h
      simp [hlimit, WebhookEventRecord.released, count]
    · next hlimit =>
      rw [if_neg hlimit]
      split at h
      · cases h
      · next delay _ =>
        cases h
        simp [WebhookEventRecord.released, count]

/-! ## Tracks -/

/-- An event and the attempts to deliver it, in order. It is the abstract state of a delivery: who
holds the lease is in the row, and who believes to hold it is not. -/
@[ext]
structure Track where
  event : WebhookEventRecord
  attempts : List WebhookDeliveryAttemptRecord

/-- An attempt that was acknowledged. -/
def WebhookDeliveryAttemptRecord.acknowledged (attempt : WebhookDeliveryAttemptRecord) : Bool :=
  attempt.responseStatus.any acknowledges

@[simp] theorem acknowledged_newAttempt (event : WebhookEventRecord) (current : Instant)
    (delivery : Delivery) :
    (newAttempt event current delivery).acknowledged = delivery.succeeded := rfl

/-- What happens to an event under delivery. -/
inductive Track.Step : Track → Track → Prop
  /-- a dispatcher leases the event -/
  | claimed {track : Track} (leaseToken : String) (current : Instant) :
      track.event.claimable current = true →
      Step track { track with event := track.event.leased leaseToken current }
  /-- an attempt of a leased event ends -/
  | recorded {track : Track} {finalized : WebhookEventRecord} {next : Option Instant}
      (current : Instant) (delivery : Delivery) : track.event.status = .processing →
      track.event.finalized current delivery = .ok (finalized, next) →
      Step track
        { event := finalized
          attempts := track.attempts ++ [newAttempt track.event current delivery] }

/-- Any number of them. -/
abbrev Track.Steps : Track → Track → Prop := Relation.ReflTransGen Track.Step

/-- An event no dispatcher has claimed. -/
structure WebhookEventRecord.Fresh (event : WebhookEventRecord) : Prop where
  pending : event.status = .pending
  attemptCount : event.attemptCount = 0
  leaseToken : event.leaseToken = none
  leaseExpiresAt : event.leaseExpiresAt = none

/-- The outbox publishes fresh events. -/
theorem createOutboxEvent_fresh (payment : PaymentRecord) (eventType : WebhookEventType)
    (hex : String) : (createOutboxEvent payment eventType hex).Fresh := ⟨rfl, rfl, rfl, rfl⟩

/-- What the row of an event says of its attempts: their number, that none but the last was
acknowledged, and that a lease is there exactly while it is processed. It is kept by each step of a
delivery, and so by all of them. -/
structure Track.Consistent (track : Track) : Prop where
  numbered : track.attempts.map (·.attemptNumber) = List.range' 1 track.event.attemptCount
  token : track.event.leaseToken.isSome ↔ track.event.status = .processing
  expiry : track.event.leaseExpiresAt.isSome ↔ track.event.status = .processing
  limited : track.event.attemptCount ≤ maxDeliveryAttempts
  unacknowledged : track.event.status ≠ .delivered →
    ∀ attempt ∈ track.attempts, attempt.acknowledged = false
  delivered : track.event.status = .delivered → ∃ front last, track.attempts = front ++ [last] ∧
    last.acknowledged = true ∧ ∀ attempt ∈ front, attempt.acknowledged = false
  exhausted : track.event.status = .exhausted →
    track.event.attemptCount = maxDeliveryAttempts
  open' : ¬track.event.status.Final → track.event.attemptCount < maxDeliveryAttempts

namespace Track

/-- A fresh event has a consistent track. -/
theorem consistent_fresh {event : WebhookEventRecord} (h : event.Fresh) :
    Consistent ⟨event, []⟩ := by
  refine ⟨?_, ?_, ?_, ?_, nofun, ?_, ?_, ?_⟩
  · simp [h.attemptCount]
  · simp [h.leaseToken, h.pending]
  · simp [h.leaseExpiresAt, h.pending]
  · simp [h.attemptCount]
  · simp [h.pending]
  · simp [h.pending]
  · simp [h.attemptCount, maxDeliveryAttempts]

/-- A consistent track has as many attempts as its event counts. -/
theorem Consistent.length {track : Track} (h : track.Consistent) :
    track.attempts.length = track.event.attemptCount := by
  have := congrArg List.length h.numbered
  simpa only [List.length_map, List.length_range'] using this

/-- What may be claimed has not ended. -/
theorem open_of_claimable {event : WebhookEventRecord} {current : Instant}
    (h : event.claimable current = true) : ¬event.status.Final := by
  intro hfinal
  have := (Later.leased h "").final hfinal
  rcases hfinal with hstatus | hstatus <;>
  · rw [← this] at hstatus
    cases hstatus

/-- **A claim keeps the track consistent**: only the lease columns change. -/
theorem Consistent.claimed {track : Track} (h : track.Consistent) {current : Instant}
    (claimable : track.event.claimable current = true) (leaseToken : String) :
    Consistent { track with event := track.event.leased leaseToken current } := by
  have hopen := open_of_claimable claimable
  have hundelivered : track.event.status ≠ .delivered := fun heq => hopen (.inl heq)
  refine ⟨h.numbered, ?_, ?_, h.limited, fun _ => h.unacknowledged hundelivered, ?_, ?_,
    fun _ => h.open' hopen⟩
  · simp [WebhookEventRecord.leased]
  · simp [WebhookEventRecord.leased]
  · simp [WebhookEventRecord.leased]
  · simp [WebhookEventRecord.leased]

/-- **A record keeps the track consistent**: the attempt is the next one, and the status follows from
it and from the number of attempts. -/
theorem Consistent.recorded {track : Track} (h : track.Consistent)
    {finalized : WebhookEventRecord} {next : Option Instant} {current : Instant}
    {delivery : Delivery} (leased : track.event.status = .processing)
    (final : track.event.finalized current delivery = .ok (finalized, next)) :
    Consistent
      { event := finalized
        attempts := track.attempts ++ [newAttempt track.event current delivery] } := by
  obtain ⟨-, hcount, htoken, hexpiry, hunleased, hdelivered, hexhausted⟩ :=
    WebhookEventRecord.finalized_spec final
  have hlimit : track.event.attemptCount < maxDeliveryAttempts :=
    h.open' (by rintro (heq | heq) <;> rw [leased] at heq <;> cases heq)
  have hearlier : ∀ attempt ∈ track.attempts, attempt.acknowledged = false :=
    h.unacknowledged (by rw [leased]; exact nofun)
  refine ⟨?_, ?_, ?_, ?_, ?_, ?_, ?_, ?_⟩
  · show (track.attempts ++ [_]).map _ = List.range' 1 finalized.attemptCount
    rw [List.map_append, h.numbered, hcount, List.range'_concat]
    simp [newAttempt, Nat.add_comm]
  · simp [htoken, hunleased]
  · simp [hexpiry, hunleased]
  · show finalized.attemptCount ≤ _
    omega
  · intro hundelivered attempt mem
    rcases List.mem_append.mp mem with mem | mem
    · exact hearlier attempt mem
    · rw [List.mem_singleton.mp mem, acknowledged_newAttempt]
      exact Bool.eq_false_iff.mpr fun hsucceeded => hundelivered (hdelivered.mpr hsucceeded)
  · intro hstatus
    exact ⟨track.attempts, _, rfl, hdelivered.mp hstatus, hearlier⟩
  · intro hstatus
    have := (hexhausted.mp hstatus).2
    show finalized.attemptCount = _
    omega
  · intro hopen
    have hfailed : delivery.succeeded = false :=
      Bool.eq_false_iff.mpr fun hsucceeded => hopen (.inl (hdelivered.mpr hsucceeded))
    have hbelow : ¬maxDeliveryAttempts ≤ track.event.attemptCount + 1 :=
      fun hlast => hopen (.inr (hexhausted.mpr ⟨hfailed, hlast⟩))
    show finalized.attemptCount < _
    omega

theorem Step.consistent {a b : Track} (h : a.Step b) (consistent : a.Consistent) :
    b.Consistent := by
  cases h with
  | claimed leaseToken current claimable => exact consistent.claimed claimable leaseToken
  | recorded current delivery leased final => exact consistent.recorded leased final

/-- **Every track an event can go through is consistent.** -/
theorem Steps.consistent {a b : Track} (h : a.Steps b) (consistent : a.Consistent) :
    b.Consistent := by
  induction h with
  | refl => exact consistent
  | tail _ step ih => exact step.consistent ih

theorem Step.later {a b : Track} (h : a.Step b) : Later a.event b.event := by
  cases h with
  | claimed leaseToken current claimable => exact .leased claimable leaseToken
  | recorded current delivery leased final => exact .finalized leased final

theorem Steps.later {a b : Track} (h : a.Steps b) : Later a.event b.event := by
  induction h with
  | refl => exact .refl _
  | tail _ step ih => exact ih.trans step.later

/-- A step starts from an event that has not ended. -/
theorem Step.open {a b : Track} (h : a.Step b) : ¬a.event.status.Final := by
  cases h with
  | claimed leaseToken current claimable => exact open_of_claimable claimable
  | recorded current delivery leased final =>
    rintro (heq | heq) <;> rw [leased] at heq <;> cases heq

/-- **An event that is delivered or exhausted stays as it is.** -/
theorem Steps.final {a b : Track} (h : a.Steps b) (final : a.event.status.Final) : b = a := by
  induction h with
  | refl => rfl
  | tail _ step ih => exact absurd (ih ▸ final) step.open

end Track

end PaymentLab
