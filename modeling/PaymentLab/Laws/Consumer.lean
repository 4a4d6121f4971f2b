import PaymentLab.Consumer.Wire
import PaymentLab.Runs.Consumer

/-!
# The consumer against any signed input

Calls of the consumer one after another, on any bodies. Whatever is signed, the projections keep the
financial invariants that validation demands, they move only by a call that applied its event, and a
call that raises leaves no trace (`SafeStep`); two bodies under one event id collide (`Collides`).

Nothing is assumed of the secret or of who holds it. A body that is signed is accepted for what it
says, so the promise is about the form of the merchant's tables and not about their truth; that they
are true takes a producer on the other side, and is the subject of the merchant view. The digest
enters in one place only, where two bodies under one event id are told apart, and there it is
assumed to tell apart the bodies of the calls at hand.
-/

namespace PaymentLab

open Relational Transactional

/-- The invariants of a stored projection: the financial ones that the validation of a body demands,
and the fields that belong to one flow or one status. That the projection shows what the producer
holds is no part of it. -/
structure MerchantPaymentProjectionRecord.Sound (p : MerchantPaymentProjectionRecord) : Prop where
  amount_pos : 0 < p.amount
  refunded_nonneg : 0 ≤ p.refundedAmount
  refunded_le : p.refundedAmount ≤ p.capturedAmount
  captured_le : p.capturedAmount ≤ p.authorizedAmount
  authorized_le : p.authorizedAmount ≤ p.amount
  version_pos : 1 ≤ p.aggregateVersion
  declined : p.declineReason.isSome ↔ p.status = .declined
  reference : p.paymentReference.isSome ↔ p.paymentFlow = .asynchronousConfirmation
  expiry : p.expiresAt.isSome ↔ p.paymentFlow = .asynchronousConfirmation
  awaiting : p.status = .awaitingPayment →
    p.paymentFlow = .asynchronousConfirmation ∧ p.authorizedAmount = 0 ∧ p.capturedAmount = 0 ∧
      p.refundedAmount = 0

/-- The projection of a sound snapshot is sound. -/
theorem PaymentSnapshot.Sound.projection {envelope : WebhookEnvelope}
    (h : envelope.payment.Sound) : (newProjection envelope).Sound :=
  ⟨h.amount_pos, h.refunded_nonneg, h.refunded_le, h.captured_le, h.authorized_le, h.version_pos,
    h.declined, h.reference, h.expiry, h.awaiting⟩

section Laws

variable (lib : StandardLibrary)

/-- The call applied its event to the projection of a payment: it accepted the body and answered with
the disposition of an update. -/
def ConsumerStep.Applied (step : ConsumerStep) (paymentId : String) : Prop :=
  ∃ envelope outcome, step.call.accepted lib = .ok envelope ∧ envelope.payment.id = paymentId ∧
    step.result = .ok outcome ∧ outcome.disposition = .applied

/-- What one call promises, whatever body it was given and whoever signed it: sound projections, one
inbox row an event, no trace of a call that raises, and no projection that moves backwards or without
an applied event. It does not promise that the projection is right about the payment: a signed body
is believed. -/
structure SafeStep (step : ConsumerStep) : Prop where
  sound : ∀ p ∈ step.after.merchantProjections.rows, p.Sound
  /-- an event has at most one inbox row -/
  unique : (step.after.processedWebhooks.rows.map (·.eventId)).Nodup
  raised : ∀ e, step.result = .error e →
    step.after.processedWebhooks = step.before.processedWebhooks ∧
      step.after.merchantProjections = step.before.merchantProjections
  monotone : ∀ id p, step.before.merchantProjections.get id = some p →
    ∃ p', step.after.merchantProjections.get id = some p' ∧
      p.aggregateVersion ≤ p'.aggregateVersion
  /-- a projection changes in no field unless the call applied its event to it -/
  frozen : ∀ id, ¬step.Applied lib id →
    step.after.merchantProjections.get id = step.before.merchantProjections.get id

/-- A body under the id of an earlier, different one is refused, where both were accepted by the
checks and the earlier was consumed. Nothing is said where the earlier call raised: its id is still
free. -/
def Collides (earlier later : ConsumerStep) : Prop :=
  ∀ outcome envelope envelope', earlier.result = .ok outcome →
    earlier.call.accepted lib = .ok envelope → later.call.accepted lib = .ok envelope' →
    envelope'.id = envelope.id → later.call.payload ≠ earlier.call.payload →
    later.result = .error (.webhookEventCollision envelope.id)

/-- The digest tells the bodies of these calls apart. It is asked of these bodies only, not of all. -/
def CollisionFree (calls : List ConsumerCall) : Prop :=
  ∀ a ∈ calls, ∀ b ∈ calls, lib.sha256 a.payload = lib.sha256 b.payload → a.payload = b.payload

variable {lib}

/-! ## One call -/

/-- Sound projections, in a store. -/
def SoundProjections (db : Database) : Prop := ∀ p ∈ db.merchantProjections.rows, p.Sound

theorem soundProjections_iff {db : Database} : SoundProjections db ↔
    ∀ id p, db.merchantProjections.get id = some p → p.Sound := by
  constructor
  · intro h id p hp
    exact h p (Table.get_eq_some hp).1
  · intro h p mem
    exact h _ p (Table.get_of_mem mem)

/-- The answer from an inbox row: the digests decide. -/
theorem repeatedAnswer_cases (existing : ProcessedWebhookRecord) (eventId payloadHash : String) :
    (existing.payloadHash = payloadHash ∧ repeatedAnswer existing eventId payloadHash =
        .ok
          { eventId := eventId, disposition := .duplicate, duplicate := true
            versionGap := existing.versionGap }) ∨
      (existing.payloadHash ≠ payloadHash ∧
        repeatedAnswer existing eventId payloadHash = .error (.webhookEventCollision eventId)) := by
  unfold repeatedAnswer
  by_cases h : existing.payloadHash = payloadHash
  · rw [if_neg (not_not.mpr h)]
    exact .inl ⟨h, rfl⟩
  · rw [if_pos h]
    exact .inr ⟨h, rfl⟩

/-- A step that left both tables alone. -/
theorem SafeStep.of_same {step : ConsumerStep} (sound : SoundProjections step.before)
    (h : step.after = step.before) : SafeStep lib step := by
  constructor
  · rw [h]
    exact sound
  · have nodup : (step.after.processedWebhooks.rows.map (·.eventId)).Nodup :=
      List.pairwise_map.mpr (step.after.processedWebhooks.distinct.imp fun apart => apart.1)
    exact nodup
  · intro e _
    rw [h]
    exact ⟨rfl, rfl⟩
  · intro id p hp
    rw [h]
    exact ⟨p, hp, le_refl _⟩
  · intro id _
    rw [h]

/-- **Every call is safe** from a store with sound projections. -/
theorem ConsumerCall.safe (call : ConsumerCall) {db : Database} (sound : SoundProjections db) :
    SafeStep lib (call.step lib db) := by
  rcases call.run_cases lib db with ⟨e, _, hrun⟩ | ⟨envelope, haccepted, consumption⟩
  · exact .of_same sound (congrArg Prod.snd hrun)
  · generalize hresult : (call.run lib db).1 = result at consumption
    generalize hafter : (call.run lib db).2 = after at consumption
    cases consumption with
    | repeated _ hsame => exact .of_same sound (hafter.trans hsame)
    | raised _ hsame => exact .of_same sound (hafter.trans hsame)
    | @consumed decision hfree hdecide consumes =>
      obtain ⟨hsound, hversion⟩ := parse_sound (accepted_parse haccepted)
      have nodup : ((call.step lib db).after.processedWebhooks.rows.map (·.eventId)).Nodup :=
        List.pairwise_map.mpr ((call.step lib db).after.processedWebhooks.distinct.imp
          fun apart => apart.1)
      have hstep : (call.step lib db).after = after := hafter
      have hbefore : (call.step lib db).before = db := rfl
      have hok : (call.step lib db).result = .ok (decision.outcome envelope.id) := hresult
      cases (decideProjection_eq_ok hdecide).projected consumes.projections with
      | applied happlied hnewer hget =>
        refine ⟨?_, nodup, ?_, ?_, ?_⟩
        · rw [hstep]
          apply soundProjections_iff.mpr
          intro id p hp
          rw [hget] at hp
          split at hp
          · cases hp
            exact hsound.projection
          · exact soundProjections_iff.mp sound id p hp
        · intro e he
          rw [hok] at he
          cases he
        · intro id p hp
          rw [hstep, hget]
          split
          · next hid =>
            refine ⟨_, rfl, ?_⟩
            have holder := hnewer p (hid ▸ hp)
            show p.aggregateVersion ≤ envelope.payment.version
            omega
          · exact ⟨p, hp, le_refl _⟩
        · intro id hnot
          have hother : envelope.payment.id ≠ id := by
            intro hid
            exact hnot ⟨envelope, _, haccepted, hid, hok, happlied⟩
          rw [hstep, hget, if_neg hother]
          rfl
      | kept _ _ _ _ _ hsame =>
        refine ⟨?_, nodup, ?_, ?_, ?_⟩
        · rw [hstep, hsame]
          exact sound
        · intro e he
          rw [hok] at he
          cases he
        · intro id p hp
          rw [hstep, hsame]
          exact ⟨p, hp, le_refl _⟩
        · intro id _
          rw [hstep, hsame]
          rfl

/-! ## Recorded events -/

/-- An event in the inbox stays there. -/
theorem ConsumerCall.keeps_row (call : ConsumerCall) {eventId : String}
    {row : ProcessedWebhookRecord} {db : Database}
    (h : db.processedWebhooks.get eventId = some row) :
    (call.run lib db).2.processedWebhooks.get eventId = some row := by
  rcases call.run_cases lib db with ⟨e, _, hrun⟩ | ⟨envelope, _, consumption⟩
  · rw [hrun]
    exact h
  · generalize (call.run lib db).1 = result at consumption
    generalize (call.run lib db).2 = after at consumption
    cases consumption with
    | repeated _ hsame => rwa [hsame]
    | raised _ hsame => rwa [hsame]
    | consumed _ _ consumes => exact Table.get_insert_of_some consumes.inbox h

/-- A call on an event in the inbox is answered from there. -/
theorem ConsumerCall.run_repeated {call : ConsumerCall} {db : Database}
    {row : ProcessedWebhookRecord} {envelope : WebhookEnvelope}
    (hrow : db.processedWebhooks.get envelope.id = some row)
    (haccepted : call.accepted lib = .ok envelope) :
    (call.run lib db).1 = repeatedAnswer row envelope.id (lib.sha256 call.payload) ∧
      (call.run lib db).2 = db := by
  rcases call.run_cases lib db with ⟨e, hrefused, _⟩ | ⟨envelope', haccepted', consumption⟩
  · rw [haccepted] at hrefused
    cases hrefused
  · rw [haccepted] at haccepted'
    cases haccepted'
    generalize (call.run lib db).2 = after at consumption
    generalize (call.run lib db).1 = result at consumption
    cases consumption with
    | @repeated existing hexisting hsame =>
      rw [hrow] at hexisting
      cases hexisting
      exact ⟨rfl, hsame⟩
    | consumed hfree =>
      rw [hrow] at hfree
      cases hfree
    | raised hfree =>
      rw [hrow] at hfree
      cases hfree

/-- A call that answered has its event in the inbox, with the digest of its body and the flag of the
answer. -/
theorem ConsumerCall.records {call : ConsumerCall} {db : Database} {outcome : ConsumerOutcome}
    {envelope : WebhookEnvelope} (hresult : (call.run lib db).1 = .ok outcome)
    (haccepted : call.accepted lib = .ok envelope) :
    ∃ row, (call.run lib db).2.processedWebhooks.get envelope.id = some row ∧
      row.payloadHash = lib.sha256 call.payload ∧ row.versionGap = outcome.versionGap := by
  rcases call.run_cases lib db with ⟨e, hrefused, _⟩ | ⟨envelope', haccepted', consumption⟩
  · rw [haccepted] at hrefused
    cases hrefused
  · rw [haccepted] at haccepted'
    cases haccepted'
    rw [hresult] at consumption
    generalize (call.run lib db).2 = after at consumption
    generalize hanswer : (Except.ok outcome : Except ServiceError ConsumerOutcome) = answer
      at consumption
    cases consumption with
    | @repeated existing hexisting hsame =>
      rw [hsame]
      rcases repeatedAnswer_cases existing envelope.id (lib.sha256 call.payload)
        with ⟨hhash, hgiven⟩ | ⟨_, hrefused⟩
      · rw [hgiven] at hanswer
        cases hanswer
        exact ⟨existing, hexisting, hhash, rfl⟩
      · rw [hrefused] at hanswer
        cases hanswer
    | consumed _ _ consumes =>
      cases hanswer
      exact ⟨_, Table.get_insert_self consumes.inbox, rfl, rfl⟩
    | raised => cases hanswer

/-! ## Any sequence of calls -/

theorem consumerSteps_call {calls : List ConsumerCall} {db : Database} :
    ∀ step ∈ consumerSteps lib calls db, step.call ∈ calls := by
  induction calls generalizing db with
  | nil =>
    intro step mem
    cases mem
  | cons call rest ih =>
    intro step mem
    rcases List.mem_cons.mp mem with rfl | mem
    · exact List.mem_cons_self
    · exact List.mem_cons_of_mem _ (ih step mem)

theorem consumerSteps_collide {calls : List ConsumerCall} {db : Database}
    (free : CollisionFree lib calls) : (consumerSteps lib calls db).Pairwise (Collides lib) := by
  induction calls generalizing db with
  | nil => exact List.Pairwise.nil
  | cons call rest ih =>
    have free' : CollisionFree lib rest := fun a ha b hb =>
      free a (List.mem_cons_of_mem _ ha) b (List.mem_cons_of_mem _ hb)
    refine List.pairwise_cons.mpr ⟨fun later mem => ?_, ih free'⟩
    intro outcome envelope envelope' hresult haccepted haccepted' hid hpayload
    obtain ⟨row, hrow, hhash, _⟩ := ConsumerCall.records hresult haccepted
    obtain ⟨hsteps, _⟩ := consumerSteps_invariant lib
      (P := fun db => db.processedWebhooks.get envelope.id = some row)
      (fun next db h => next.keeps_row h) hrow
    obtain ⟨hlater, hbefore⟩ := hsteps later mem
    have hcall := consumerSteps_call later mem
    rw [← hid] at hbefore ⊢
    rw [hlater]
    show (later.call.run lib later.before).1 = _
    rw [(ConsumerCall.run_repeated hbefore haccepted').1]
    rcases repeatedAnswer_cases row envelope'.id (lib.sha256 later.call.payload)
      with ⟨hsame, _⟩ | ⟨_, hrefused⟩
    · refine absurd ?_ hpayload
      exact free _ (List.mem_cons_of_mem _ hcall) _ List.mem_cons_self (hsame.symm.trans hhash)
    · exact hrefused

/-- **The consumer is safe** against any sequence of signed bodies, whoever signed them. The
induction is on the calls, with the soundness of every stored projection as its invariant; the part
about collisions looks at two calls and what the inbox keeps of the first. -/
theorem consumer_safe {calls : List ConsumerCall} {db : Database}
    (hprojections : db.merchantProjections = ∅) (free : CollisionFree lib calls) :
    (∀ step ∈ consumerSteps lib calls db, SafeStep lib step) ∧
      (consumerSteps lib calls db).Pairwise (Collides lib) := by
  have sound : SoundProjections db := by
    intro p mem
    rw [hprojections] at mem
    cases mem
  have preserved : ∀ (call : ConsumerCall) db, SoundProjections db →
      SoundProjections (call.run lib db).2 := fun call db h => (call.safe h).sound
  obtain ⟨hsteps, _⟩ := consumerSteps_invariant lib preserved sound
  refine ⟨fun step mem => ?_, consumerSteps_collide free⟩
  obtain ⟨hstep, hbefore⟩ := hsteps step mem
  rw [hstep]
  exact ConsumerCall.safe step.call hbefore

end Laws

/-! ## A consumed body -/

/-- The body of an authorization's event. -/
def authorizedPayload : EventPayload where
  aggregateVersion := 1
  createdAt := 0
  id := "evt_1"
  payment :=
    { id := "pay_1"
      merchantReference := "order-1"
      amount := 1000
      currency := .usd
      status := .authorized
      paymentFlow := .synchronous
      paymentReference := none
      expiresAt := none
      declineReason := none
      authorizedAmount := 1000
      capturedAmount := 0
      refundedAmount := 0
      version := 1
      createdAt := 0
      updatedAt := 0 }
  type := .authorized

/-- The standard library, on that body alone. -/
def authorizedLibrary : StandardLibrary where
  hmacSha256 _ _ _ := "13ea69ad53de6b9b3aa18ef5579f1c8fabb4e5467a516609de961b75821e76f6"
  readInt text := if text = "0" then some 0 else none
  loads bytes :=
    if bytes = authorizedPayload.body then .ok (decoded authorizedPayload.value)
    else .error .invalid
  fromIsoformat text :=
    if text = replaceZ (formatDatetime 0) then .ok (.aware 0) else .error .invalid
  sha256 _ := "da71effb1636f50911de52940d93f2f6808da7b68805c81b88001b1f8f3c1fb2"

/-- The signature header of that body at the time of the event. -/
def authorizedHeader : String :=
  "t=0,v1=13ea69ad53de6b9b3aa18ef5579f1c8fabb4e5467a516609de961b75821e76f6"

/-- A call on that body. -/
def authorizedCall (faults : ConsumerFaults) : ConsumerCall where
  payload := authorizedPayload.body
  signatureHeader := authorizedHeader
  secret := "whsec_merchant"
  now := .aware 0
  faults := faults

/-- Another body under the same event id: its payment has another reference. -/
def alteredPayload : EventPayload :=
  { authorizedPayload with
    payment := { authorizedPayload.payment with merchantReference := "order-2" } }

/-- The standard library, on these two bodies alone. -/
def collidingLibrary : StandardLibrary :=
  { authorizedLibrary with
    hmacSha256 := fun secret timestamp bytes =>
      if bytes = alteredPayload.body then
        "1455735cd257dc3085e77ba551ae8458f2b1c90dc2e784b99e42ef07267f2f06"
      else authorizedLibrary.hmacSha256 secret timestamp bytes
    loads := fun bytes =>
      if bytes = alteredPayload.body then .ok (decoded alteredPayload.value)
      else authorizedLibrary.loads bytes
    sha256 := fun bytes =>
      if bytes = alteredPayload.body then
        "84a9cb7064c19acc512bd462385bb839a0f29ee4662297ee83be07562a95688a"
      else authorizedLibrary.sha256 bytes }

/-- A call on the altered body, under its own signature. -/
def alteredCall : ConsumerCall :=
  { authorizedCall ⟨false, false⟩ with
    payload := alteredPayload.body
    signatureHeader := "t=0,v1=1455735cd257dc3085e77ba551ae8458f2b1c90dc2e784b99e42ef07267f2f06" }

/-- A collision, read off the runs of both calls. -/
theorem Collides.refuses {lib : StandardLibrary} {earlier later : ConsumerCall} {db db' : Database}
    {outcome : ConsumerOutcome} {envelope envelope' : WebhookEnvelope}
    (h : Collides lib (earlier.step lib db) (later.step lib db'))
    (hresult : (earlier.run lib db).1 = .ok outcome)
    (accepted : earlier.accepted lib = .ok envelope) (accepted' : later.accepted lib = .ok envelope')
    (hid : envelope'.id = envelope.id) (hpayload : later.payload ≠ earlier.payload) :
    (later.step lib db').result = .error (.webhookEventCollision envelope.id) :=
  h outcome envelope envelope' hresult accepted accepted' hid hpayload

/-- The library accepts a body that it reads back and whose signature it computes. -/
theorem collidingLibrary_accepts {call : ConsumerCall} {payload : EventPayload}
    (body : call.payload = payload.body)
    (signed : verifyWebhookSignature collidingLibrary.hmacSha256 collidingLibrary.readInt call.payload
      call.signatureHeader call.secret call.now = .ok ())
    (read : collidingLibrary.loads payload.body = .ok (decoded payload.value))
    (same : payload = authorizedPayload ∨ payload = alteredPayload) :
    call.accepted collidingLibrary = .ok payload.envelope := by
  have readsTime : ReadsTime collidingLibrary.fromIsoformat 0 := by
    simp [ReadsTime, collidingLibrary, authorizedLibrary]
  have parsed : parseWebhookPayload collidingLibrary.loads collidingLibrary.fromIsoformat
      payload.body = .ok payload.envelope := by
    have sound : payload.payment.Sound := by
      rcases same with rfl | rfl <;> constructor <;> decide
    rcases same with rfl | rfl <;>
      exact parse_producer
        ⟨read, readsTime, readsTime, readsTime, by simp [authorizedPayload, alteredPayload]⟩
        (by decide) ⟨by decide, by decide, by decide⟩ sound rfl (by decide)
  unfold ConsumerCall.accepted
  rw [signed, body, parsed]
  rfl

/-- A call that fails after the inbox was flushed, a successful one, a repetition, and the altered
body. -/
def authorizedCalls : List ConsumerCall :=
  [authorizedCall ⟨true, false⟩, authorizedCall ⟨false, false⟩, authorizedCall ⟨false, false⟩,
    alteredCall]

/-- These calls are safe, and the altered body is refused as a collision. -/
theorem authorized_safe :
    (∀ step ∈ consumerSteps collidingLibrary authorizedCalls .empty,
        SafeStep collidingLibrary step) ∧
      (consumerSteps collidingLibrary authorizedCalls .empty).Pairwise
        (Collides collidingLibrary) ∧
      ∃ step ∈ consumerSteps collidingLibrary authorizedCalls .empty,
        step.call = alteredCall ∧ step.result = .error (.webhookEventCollision "evt_1") := by
  have differs : alteredPayload.body ≠ authorizedPayload.body := by decide +kernel
  have bodies : ∀ call ∈ authorizedCalls,
      call.payload = authorizedPayload.body ∨ call.payload = alteredPayload.body := by
    simp [authorizedCalls, authorizedCall, alteredCall]
  have free : CollisionFree collidingLibrary authorizedCalls := by
    intro a ha b hb hdigest
    rcases bodies a ha with hleft | hleft <;> rcases bodies b hb with hright | hright <;>
      rw [hleft, hright] at hdigest ⊢ <;>
      simp [collidingLibrary, authorizedLibrary, differs.symm] at hdigest
  obtain ⟨steps, collide⟩ :
      (∀ step ∈ consumerSteps collidingLibrary authorizedCalls .empty,
          SafeStep collidingLibrary step) ∧
        (consumerSteps collidingLibrary authorizedCalls .empty).Pairwise (Collides collidingLibrary) :=
    consumer_safe rfl free
  refine ⟨steps, collide, ?_⟩
  -- the second call consumes the event, the last one brings the altered body
  simp only [authorizedCalls, consumerSteps, List.pairwise_cons] at collide ⊢
  obtain ⟨_, hsecond, _⟩ := collide
  have consumed : ((authorizedCall ⟨false, false⟩).run collidingLibrary
      ((authorizedCall ⟨true, false⟩).run collidingLibrary .empty).2).1.toOption.isSome = true := by
    decide +kernel
  have accepted : (authorizedCall ⟨false, false⟩).accepted collidingLibrary =
      .ok authorizedPayload.envelope :=
    collidingLibrary_accepts rfl (by decide +kernel)
      (by simp [collidingLibrary, authorizedLibrary, differs.symm]) (.inl rfl)
  have alteredAccepted : alteredCall.accepted collidingLibrary = .ok alteredPayload.envelope :=
    collidingLibrary_accepts rfl (by decide +kernel) (by simp [collidingLibrary]) (.inr rfl)
  refine ⟨alteredCall.step collidingLibrary _, List.mem_cons_of_mem _ (List.mem_cons_of_mem _
    (List.mem_cons_of_mem _ List.mem_cons_self)), rfl, ?_⟩
  cases hresult : ((authorizedCall ⟨false, false⟩).run collidingLibrary
      ((authorizedCall ⟨true, false⟩).run collidingLibrary .empty).2).1 with
  | error e =>
    rw [hresult] at consumed
    cases consumed
  | ok outcome =>
    have collides := hsecond _ (List.mem_cons_of_mem _ List.mem_cons_self)
    exact collides.refuses hresult accepted alteredAccepted rfl differs

end PaymentLab
