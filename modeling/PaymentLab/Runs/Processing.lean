import PaymentLab.Runs.Clock
import PaymentLab.Runs.Sweeps

/-!
# Processing of receipts and deadlines

The two ways in which an awaiting payment is ended without a request for it. A completion that
returns has done what its receipt asks for: a late one ends the payment unless it is protected
(`completeConfirmation_late`). A sweep that returns has ended the waiting of the payments it selected
and of no other (`expireDuePayments_ends`). A run of completions, recoveries and sweeps takes no
other steps (`Moves.processes`).

That a completion or a sweep returns is a hypothesis in this module. When they do is the subject of
the next one, on what the tables accept; the two together say that processing decides what it is
asked to.
-/

namespace PaymentLab

open Relational Transactional Transactional.Service

/-! ## A late receipt -/

section Late

variable {sha256 : String → String} {s s' : DatabaseSession} {p : PaymentRecord}
  {receipt : ConfirmationReceiptRecord} {draws : Draws}

/-- An expired step leaves an expired row. -/
theorem Advances.expired {before after : PaymentRecord} {db db' : Database}
    (h : Advances .expire before after db db') : after.status = .expired := by
  obtain ⟨_, next, _, hafter, happly⟩ := h.decided.states
  rw [← (paymentState_eq_ok hafter).1]
  exact (expire_eq_ok happly).2.1

/-- A late disposition ends an awaiting payment that nothing protects. -/
theorem applyDisposition_late {command : ConfirmationCommand} {receivedAt : Instant} {u : Unit}
    (stored : s.working.payments.get p.id = some p) (awaiting : p.status = .awaitingPayment)
    (unprotected : protectingReceiptExists s.working p = false)
    (h : applyDisposition (some p) command .late receivedAt draws s = (.ok u, s')) :
    ∃ after, s'.working.payments.get p.id = some after ∧ after.status = .expired := by
  have happlied : ¬ConfirmationDisposition.late = .applied := nofun
  unfold applyDisposition at h
  simp only [if_neg happlied] at h
  rw [if_pos ⟨trivial, awaiting⟩] at h
  obtain ⟨isProtected, s₁, hquery, h₁⟩ := bind_eq_ok h
  obtain ⟨hvalue, rfl⟩ := query_eq_ok hquery
  simp only [stored, unprotected] at hvalue
  subst hvalue
  simp only [Bool.false_eq_true, if_false] at h₁
  have held : Held ({ s with begun := true } : DatabaseSession).working p := held_of_stored stored
  obtain ⟨after, hadvances⟩ := (applyExpiryTransition_eq_ok held h₁).1.advances
  exact ⟨after, hadvances.stored_after, hadvances.expired⟩

/-- The statements of a late completion end the payment. -/
theorem stageCompletion_late {confirmation : PaymentConfirmationRecord} {u : Unit}
    (late : confirmation.disposition = .late) (stored : s.working.payments.get p.id = some p)
    (awaiting : p.status = .awaitingPayment)
    (unprotected : protectingReceiptExists s.working p = false)
    (h : stageCompletion receipt confirmation (some p) draws s = (.ok u, s')) :
    ∃ after, s'.working.payments.get p.id = some after ∧ after.status = .expired := by
  obtain ⟨_, s₁, hinsert, h₁⟩ := bind_eq_ok h
  obtain ⟨d₁, hd₁, rfl⟩ := flush_eq_ok hinsert
  obtain ⟨confirmations, _, rfl⟩ := insertInto_eq_ok hd₁
  obtain ⟨_, s₂, hdispose, h₂⟩ := bind_eq_ok h₁
  rw [late] at hdispose
  obtain ⟨after, hafter, hexpired⟩ := applyDisposition_late (by exact stored) awaiting
    (by exact unprotected) hdispose
  obtain ⟨d₃, hd₃, rfl⟩ := flush_eq_ok h₂
  obtain ⟨receipts, _, rfl⟩ := updateIn_eq_ok hd₃
  exact ⟨after, hafter, hexpired⟩

/-- With no final record committed, a failed completion never answers. -/
theorem completionFailed_raises {payment : Option PaymentRecord} {e : ServiceError}
    {outcome : ConfirmationOutcome}
    (fresh : s.committed.paymentConfirmations.get receipt.confirmationId = none) :
    completionFailed sha256 receipt payment e s ≠ (.ok outcome, s') := by
  intro h
  unfold completionFailed at h
  rw [bind_ok (rollback_apply s)] at h
  by_cases hintegrity : e = .integrityError
  · simp only [if_pos hintegrity] at h
    rw [bind_apply, existingOutcome_apply] at h
    simp only [fresh] at h
    cases h
  · simp only [if_neg hintegrity] at h
    by_cases hstale : e = .staleData
    · rw [if_pos hstale] at h
      cases h
    · rw [if_neg hstale] at h
      cases h

/-- **A late receipt ends an awaiting payment that nothing protects.** -/
theorem completeConfirmation_late {outcome : ConfirmationOutcome}
    (stored : s.committed.confirmationReceipts.get receipt.confirmationId = some receipt)
    (fresh : s.committed.paymentConfirmations.get receipt.confirmationId = none)
    (found : paymentByReference s.committed receipt.paymentReference = some p)
    (late : classify (some p) receipt.command receipt.receivedAt = .ok .late)
    (awaiting : p.status = .awaitingPayment)
    (unprotected : protectingReceiptExists s.committed p = false)
    (h : completeConfirmation sha256 receipt.confirmationId draws s = (.ok outcome, s')) :
    ∃ after, s'.committed.payments.get p.id = some after ∧ after.status = .expired := by
  unfold completeConfirmation at h
  rw [bind_ok (beginCoordinatedWrite_apply s)] at h
  have h := tryCatch_eq_ok (fun e t => ⟨e, _, rfl⟩) h
  unfold completeReceipt at h
  rw [bind_ok (query_apply _ _)] at h
  simp only [coordinated_working, stored] at h
  rw [bind_apply, existingOutcome_apply] at h
  simp only [fresh] at h
  rw [bind_ok (query_apply _ _)] at h
  simp only [found, late] at h
  unfold settleReceipt at h
  rcases tryCatch_cases h with ⟨_, hbody, _⟩ | ⟨e, s₁, hbody, hhandler⟩
  · obtain ⟨_, s₁, hstage, hrest⟩ := bind_eq_ok hbody
    obtain ⟨after, hafter, hexpired⟩ := stageCompletion_late rfl
      (by exact (paymentByReference_eq_some found).1) awaiting (by exact unprotected) hstage
    cases hrest
    exact ⟨after, hafter, hexpired⟩
  · have hcommitted : s₁.committed = s.committed := by
      rcases bind_cases hbody with ⟨_, hstage, _⟩ | ⟨_, s₂, _, hrest⟩
      · have hsilent := (silent_stageCompletion _ _ _ _).committed hstage
        exact hsilent
      · cases hrest
    rw [← hcommitted] at fresh
    exact absurd hhandler (completionFailed_raises fresh)

end Late

/-! ## A sweep -/

section Sweep

variable {s s' : DatabaseSession} {p : PaymentRecord} {current : Instant} {limit : Int}
  {hex : String → String}

/-- A payment that left its waiting does not come back to it in a sweep. -/
theorem sweep_left {db db' : Database} (h : Relation.ReflTransGen ExpiresOne db db') {id : String}
    (left : ∃ q, db.payments.get id = some q ∧ q.status ≠ .awaitingPayment) :
    ∃ q, db'.payments.get id = some q ∧ q.status ≠ .awaitingPayment := by
  obtain ⟨q, hq, hstatus⟩ := left
  rcases sweep_account h id with same | ⟨a, b, ha, _, e⟩
  · rw [Database.account_of_get hq] at same
    exact ⟨q, (Database.account_eq_some same).1, hstatus⟩
  · have hrow := (Database.account_eq_some ha).1
    rw [hq] at hrow
    rw [Option.some.inj hrow] at hstatus
    exact absurd (e.decided.awaiting (.inl rfl)) hstatus

/-- A batch ends the waiting of each of its payments, and touches no other. -/
theorem expireEach_ends : ∀ {due : List PaymentRecord} {s : DatabaseSession} {u : Unit},
    (∀ q ∈ due, Held s.working q ∧ protectingReceiptExists s.working q = false) →
    expireEach current hex due s = (.ok u, s') →
    (∀ q ∈ due, ∃ after, s'.working.payments.get q.id = some after ∧
      after.status ≠ .awaitingPayment) ∧
    ∀ id, (∀ q ∈ due, q.id ≠ id) → s'.working.payments.get id = s.working.payments.get id := by
  intro due
  induction due with
  | nil =>
    intro s u _ h
    cases h
    exact ⟨fun _ mem => absurd mem List.not_mem_nil, fun _ _ => rfl⟩
  | cons payment rest ih =>
    intro s u hdue h
    obtain ⟨held, unprotected⟩ := hdue payment List.mem_cons_self
    obtain ⟨_, s₁, hone, hrest⟩ := bind_eq_ok h
    have hone := tryCatch_eq_ok (fun e t => by split <;> exact ⟨_, _, rfl⟩) hone
    obtain ⟨hstep, _⟩ := applyExpiryTransition_eq_ok held hone
    obtain ⟨after, hadvances⟩ := hstep.advances
    have later : ∀ q ∈ rest, Held s₁.working q ∧ protectingReceiptExists s₁.working q = false := by
      intro q mem
      obtain ⟨hheld, hfree⟩ := hdue q (List.mem_cons_of_mem _ mem)
      refine ⟨hheld.grows hadvances.grows, ?_⟩
      rw [protectingReceiptExists_congr hstep.confirmations.receipts]
      exact hfree
    obtain ⟨hends, hkept⟩ := ih later hrest
    refine ⟨fun q mem => ?_, fun id hid => ?_⟩
    · rcases List.mem_cons.mp mem with rfl | mem
      · refine sweep_left (expireEach_eq_ok later hrest).1 ⟨after, hadvances.stored_after, ?_⟩
        rw [hadvances.expired]
        exact nofun
      · exact hends q mem
    · rw [hkept id fun q mem => hid q (List.mem_cons_of_mem _ mem)]
      exact hadvances.get_of_ne (Ne.symm (hid payment List.mem_cons_self))

/-- What a sweep that returns did: its batch, committed. -/
theorem expireDuePayments_eq_ok {ids : List String}
    (h : expireDuePayments (.aware current) limit hex s = (.ok ids, s')) :
    ∃ s₁ s₂ u, s₁.working = s.committed ∧
      expireEach current hex (duePayments s.committed current limit.toNat) s₁ = (.ok u, s₂) ∧
      s'.committed = s₂.working := by
  unfold expireDuePayments at h
  rw [bind_ok (show requireAwareUtc (.aware current) _ s = (.ok current, s) from rfl)] at h
  by_cases hlimit : ¬(1 ≤ limit ∧ limit ≤ maxExpiryBatchSize)
  · simp only [if_pos hlimit] at h
    cases h
  · simp only [if_neg hlimit] at h
    rw [bind_ok (beginCoordinatedWrite_apply s), bind_ok (query_apply _ _)] at h
    have h := tryCatch_eq_ok (fun e t => ⟨e, _, rfl⟩) h
    obtain ⟨_, s₂, heach, hrest⟩ := bind_eq_ok h
    cases hrest
    exact ⟨_, s₂, _, rfl, heach, rfl⟩

/-- **A sweep that returns has ended the waiting of the payments it selected**, and left the rows of
the others. -/
theorem expireDuePayments_ends {ids : List String}
    (h : expireDuePayments (.aware current) limit hex s = (.ok ids, s')) :
    (∀ q ∈ duePayments s.committed current limit.toNat, ∃ after,
      s'.committed.payments.get q.id = some after ∧ after.status ≠ .awaitingPayment) ∧
    ∀ q, s.committed.payments.get q.id = some q →
      q ∉ duePayments s.committed current limit.toNat →
      s'.committed.payments.get q.id = some q := by
  obtain ⟨s₁, s₂, u, hworking, heach, hcommitted⟩ := expireDuePayments_eq_ok h
  have stored : ∀ q ∈ duePayments s.committed current limit.toNat,
      s₁.working.payments.get q.id = some q ∧ protectingReceiptExists s₁.working q = false := by
    intro q mem
    rw [hworking]
    exact mem_duePayments mem
  obtain ⟨hends, hkept⟩ := expireEach_ends
    (fun q mem => ⟨held_of_stored (stored q mem).1, (stored q mem).2⟩) heach
  rw [hcommitted]
  refine ⟨hends, fun q hq hnot => ?_⟩
  rw [← hworking] at hq
  rw [hkept q.id fun other mem hid => hnot ?_]
  · exact hq
  · -- a payment of the batch under this id is this payment
    have hother := (stored other mem).1
    rw [hid, hq] at hother
    exact Option.some.inj hother ▸ mem

end Sweep

/-! ## The steps of processing -/

/-- The calls that process what was accepted before: completions, recoveries and sweeps. They create
nothing and accept nothing. -/
def Request.Processes : Request → Prop
  | .complete .. | .recover .. | .expire .. => True
  | _ => False

section Steps

variable {ι : Type} {sha256 : String → String}
  {t : Pool.Transition Database ι (Option Client)}

/-- The time of a sweep that returned in a step. -/
def sweepOf (t : Pool.Transition Database ι (Option Client)) : Option Instant :=
  match t.before, t.after with
  | some ⟨.expire (.aware now) _ _, _, .ready⟩, some ⟨_, _, .finished (.ok _)⟩ => some now
  | _, _ => none

/-- The times of the sweeps that returned in a run. -/
def sweepsOf (ts : List (Pool.Transition Database ι (Option Client))) : List Instant :=
  ts.filterMap sweepOf

theorem sweepOf_eq_some {now : Instant} (h : sweepOf t = some now) :
    ∃ client limit hex after answer, t.before = some client ∧
      client.request = .expire (.aware now) limit hex ∧ client.phase = .ready ∧
      t.after = some after ∧ after.phase = .finished (.ok answer) := by
  unfold sweepOf at h
  split at h
  · next hbefore hafter =>
    cases h
    exact ⟨_, _, _, _, _, hbefore, rfl, rfl, hafter, rfl⟩
  · cases h

/-- A step that is no returned sweep. -/
theorem sweepOf_eq_none (h : ∀ client, t.before = some client → client.phase = .ready →
    (∃ now limit hex, client.request = .expire now limit hex) →
    ∀ after answer, t.after = some after → after.phase ≠ .finished (.ok answer)) :
    sweepOf t = none := by
  cases hs : sweepOf t with
  | none => rfl
  | some now =>
    obtain ⟨client, limit, hex, after, answer, hbefore, hrequest, hphase, hafter, hanswer⟩ :=
      sweepOf_eq_some hs
    exact absurd hanswer (h client hbefore hphase ⟨_, _, _, hrequest⟩ after answer hafter)

/-- What a step of processing is. -/
inductive Processing (sha256 : String → String)
    (t : Pool.Transition Database ι (Option Client)) : Prop
  /-- nothing is written: a call begins, selects, fails or is interrupted -/
  | idle : t.post = t.pre → sweepOf t = none → Processing sha256 t
  | background : Background t.pre t.post → sweepOf t = none → Processing sha256 t
  | completed {id : String} {draws : Draws} {identity : IdentityMap} {outcome : ConfirmationOutcome}
      {s' : DatabaseSession} :
      completeConfirmation sha256 id draws (Session.start t.pre identity) = (.ok outcome, s') →
      t.post = s'.committed → sweepOf t = none → Processing sha256 t
  | swept {now : Instant} {limit : Int} {hex : String → String} {identity : IdentityMap}
      {ids : List String} {s' : DatabaseSession} :
      expireDuePayments (.aware now) limit hex (Session.start t.pre identity) = (.ok ids, s') →
      t.post = s'.committed → sweepOf t = some now →
      (∃ client, Transacts sha256 client t ∧ client.request = .expire (.aware now) limit hex) →
      Processing sha256 t

/-- A completion that raises writes nothing. -/
theorem completeConfirmation_raised {id : String} {draws : Draws} {s s' : DatabaseSession}
    {e : ServiceError} (h : completeConfirmation sha256 id draws s = (.error e, s')) :
    s'.committed = s.committed := by
  rcases (completeConfirmation_cases h).2 with ⟨_, same⟩ | ⟨_, _, _, hr⟩ | ⟨_, _, _, _, hr⟩
  · exact same
  · cases hr
  · cases hr

/-- **A run of processing takes no other steps.** -/
theorem Moves.processes (moves : Moves sha256 t)
    (processing : ∀ client, Transacts sha256 client t → client.request.Processes) :
    Processing sha256 t := by
  cases moves with
  | background hnone h =>
    refine .background h (sweepOf_eq_none fun client hbefore => ?_)
    rw [hnone] at hbefore
    cases hbefore
  | aside client after hbefore hafter same how =>
    refine .idle same (sweepOf_eq_none fun other hother hready _ last answer hlast hanswer => ?_)
    cases hbefore.symm.trans hother
    cases hafter.symm.trans hlast
    rcases how with ended | kept | interrupted
    · rw [hready] at ended
      exact ended
    · rw [hready, hanswer] at kept
      cases kept
    · rw [hanswer] at interrupted
      cases interrupted
  | acted client hbefore coherent unfinished hpost hafter =>
    have transacts : Transacts sha256 client t := ⟨hbefore, unfinished, hpost, hafter⟩
    have hprocesses := processing client transacts
    have admits := coherent.admits.resolve_left unfinished
    obtain ⟨request, identity, phase⟩ := client
    obtain ⟨r, s', hrun⟩ : ∃ r s',
        request.step sha256 phase (Session.start t.pre identity) = (r, s') := ⟨_, _, rfl⟩
    rw [Client.act_eq hrun] at hpost hafter
    have hpost : t.post = s'.committed := hpost
    -- only a sweep is a sweep
    have other : (∀ now limit hex, request ≠ .expire now limit hex) → sweepOf t = none := by
      refine fun hne => sweepOf_eq_none fun c hc _ => ?_
      cases hbefore.symm.trans hc
      rintro ⟨now, limit, hex, hrequest⟩
      exact absurd hrequest (hne now limit hex)
    cases request with
    | complete confirmationId draws =>
      obtain rfl : phase = .ready := admits.resolve_right fun h => h
      obtain ⟨outcome, hcomplete, rfl⟩ := bind_pure_cases hrun
      cases outcome with
      | error e =>
        exact .idle (hpost.trans (completeConfirmation_raised hcomplete)) (other nofun)
      | ok outcome => exact .completed hcomplete hpost (other nofun)
    | recover limit draws =>
      refine Or.elim admits (fun hready => ?_) fun hrecovering => ?_
      · cases hready
        -- the selection writes nothing
        have same : s'.committed = t.pre := by
          rcases bind_cases hrun with ⟨_, hselect, _⟩ | ⟨_, s₁, hselect, hrest⟩
          · exact (selectPending_cases hselect).1
          · cases hrest
            exact (selectPending_cases hselect).1
        exact .idle (hpost.trans same) (other nofun)
      · obtain ⟨ids, todo, hphase⟩ := hrecovering
        cases hphase
        cases todo with
        | nil =>
          cases hrun
          exact .idle hpost (other nofun)
        | cons confirmationId todo =>
          rcases bind_cases hrun with ⟨e, hcomplete, _⟩ | ⟨outcome, s₁, hcomplete, hrest⟩
          · exact .idle (hpost.trans (completeConfirmation_raised hcomplete)) (other nofun)
          · cases hrest
            exact .completed hcomplete hpost (other nofun)
    | expire now limit hex =>
      obtain rfl : phase = .ready := admits.resolve_right fun h => h
      obtain ⟨ids, hexpire, rfl⟩ := bind_pure_cases hrun
      cases ids with
      | error e =>
        refine .idle ?_ (sweepOf_eq_none fun c hc _ _ after answer hlast hanswer => ?_)
        · rcases (expireDuePayments_cases hexpire).2 with ⟨_, same⟩ | ⟨⟨_, hok⟩, _⟩
          · exact hpost.trans same
          · cases hok
        · cases hafter.symm.trans hlast
          cases hanswer
      | ok ids =>
        cases now with
        | naive wall => cases hexpire
        | aware current =>
          refine .swept hexpire hpost ?_ ⟨_, transacts, rfl⟩
          unfold sweepOf
          rw [hbefore, hafter]
          rfl
    | _ => exact absurd hprocesses id

end Steps

end PaymentLab
