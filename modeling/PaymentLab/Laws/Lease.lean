import PaymentLab.Laws.Delivery

/-!
# Superseded leases

When a finalize respects the lease of its event, exactly. The token it compares is the one on the
event object of its session, as the load found it, not the stored one: once another worker has
claimed the event after that load, the comparison no longer sees it. `lease_respected` says that this
is the only way a finalize goes wrong, and that it goes wrong every time; `stale_lease` is a run in
which it does.

The condition is about the run before the finalize, so it can be checked without looking at what the
finalize did. Tokens are assumed distinct, as `uuid4` makes them; with two equal ones a superseded
worker could be let through even by a comparison with the stored row.
-/

namespace PaymentLab

open Relational Transactional

variable {ι : Type}

/-! ## Claims and loads of a run -/

/-- The lease token a transition draws: that of a claim that succeeds. -/
def drawnToken (t : Pool.Transition Database ι (Option Worker)) : Option String :=
  match t.before, t.after with
  | some before, some after =>
    match before.phase, after.phase with
    | .ready, .leased leaseToken => some leaseToken
    | _, _ => none
  | _, _ => none

/-- The lease tokens of a run are distinct, as `uuid4` makes them. It is an assumption about the run:
nothing in the code compares a new token with an old one. -/
def DistinctTokens (ts : List (Pool.Transition Database ι (Option Worker))) : Prop :=
  (ts.filterMap drawnToken).Nodup

/-- A transition by which a worker claims an event, told by the token it draws. An attempt to claim
that is refused draws none. -/
def LeasesEvent (eventId : String) (t : Pool.Transition Database ι (Option Worker)) : Prop :=
  (∃ worker, t.before = some worker ∧ worker.call.eventId = eventId) ∧ (drawnToken t).isSome

/-- A transition by which a worker loads the event it has claimed. From here on its session holds the
row as it was read, the lease included. -/
def LoadsEvent (t : Pool.Transition Database ι (Option Worker)) : Prop :=
  ∃ before after leaseToken payload signature, t.before = some before ∧ t.after = some after ∧
    before.phase = .leased leaseToken ∧ after.phase = .prepared leaseToken payload signature

/-- Since the last step of a kind that worker `i` took, another worker has claimed the event. With
its claim as the kind this says that worker `i` has lost its lease; with its load, that it has lost
it after its session read the row, which it cannot see any more. -/
def ReclaimedSince (own : Pool.Transition Database ι (Option Worker) → Prop) (i : ι)
    (eventId : String) : List (Pool.Transition Database ι (Option Worker)) → Prop :=
  Pool.Since (fun t => t.thread = i ∧ own t) fun t => t.thread ≠ i ∧ LeasesEvent eventId t

/-- What a finalize must do by its lease, given the run before it: it writes only under the lease the
row carries, and once superseded it is refused and writes nothing. This is what the module of
deliveries sets out to do; that its code does it is what has a condition. -/
structure RespectsLease (ts : List (Pool.Transition Database ι (Option Worker)))
    (t : Pool.Transition Database ι (Option Worker)) (call : Dispatch) (leaseToken : String) :
    Prop where
  effective : (t.post.webhookEvents.get call.eventId ≠ t.pre.webhookEvents.get call.eventId ∨
      t.post.attemptsOf call.eventId ≠ t.pre.attemptsOf call.eventId) →
    ∃ stored, t.pre.webhookEvents.get call.eventId = some stored ∧
      stored.leaseToken = some leaseToken
  superseded : ReclaimedSince (LeasesEvent call.eventId) t.thread call.eventId ts →
    (∀ after, t.after = some after →
      after.phase = .finished (.error (.webhookDeliveryNotReady call.eventId))) ∧
    t.post.webhookEvents.get call.eventId = t.pre.webhookEvents.get call.eventId ∧
    t.post.attemptsOf call.eventId = t.pre.attemptsOf call.eventId

/-! ## What a transition does to the row of an event -/

/-- The row of an event before and after a transition. -/
inductive RowEffect (eventId : String) (t : Pool.Transition Database ι (Option Worker))
    (stored stored' : WebhookEventRecord) : Prop
  | same : stored' = stored → ¬LeasesEvent eventId t → RowEffect eventId t stored stored'
  | leased {leaseToken : String} : drawnToken t = some leaseToken → LeasesEvent eventId t →
      stored'.leaseToken = some leaseToken → RowEffect eventId t stored stored'
  | recorded : stored.attemptCount < stored'.attemptCount → stored'.leaseToken = none →
      ¬LeasesEvent eventId t → RowEffect eventId t stored stored'

theorem not_leasesEvent {eventId : String} {t : Pool.Transition Database ι (Option Worker)}
    (h : drawnToken t = none) : ¬LeasesEvent eventId t := by
  rintro ⟨-, hsome⟩
  rw [h] at hsome
  cases hsome

/-- **What a worker does to the row of an event.** -/
theorem Worker.Acts.row {i : ι} {worker after : Worker} {db db' : Database}
    (h : worker.Acts db db' after) (tracked : Tracked db) (coherent : worker.Coherent db)
    {eventId : String} {stored : WebhookEventRecord}
    (hstored : db.webhookEvents.get eventId = some stored) :
    ∃ stored', db'.webhookEvents.get eventId = some stored' ∧
      RowEffect eventId ⟨i, db, some worker, db', some after⟩ stored stored' := by
  obtain ⟨call, identity, phase⟩ := worker
  cases h with
  | @claimed event hphase hid hleases hafter =>
    cases hphase
    by_cases heq : call.eventId = eventId
    · have hid : event.id = eventId := hid.trans heq
      subst hid
      have hself : db'.webhookEvents.get event.id =
          some (event.leased call.leaseToken (asUtc call.now)) :=
        Table.get_update_self hleases.events hleases.stored
      refine ⟨_, hself, ?_⟩
      exact .leased (by rw [hafter]; rfl) ⟨⟨_, rfl, heq⟩, by rw [hafter]; rfl⟩ rfl
    · have hne : event.id ≠ eventId := fun hevent => heq (hid ▸ hevent)
      refine ⟨stored, (Table.get_update_of_ne hleases.events hne).trans hstored, .same rfl ?_⟩
      rintro ⟨⟨_, hbefore, hcall⟩, -⟩
      cases hbefore
      exact heq hcall
  | loaded hphase hsame _ _ hafter =>
    cases hphase
    rw [hsame]
    exact ⟨stored, hstored, .same rfl (not_leasesEvent rfl)⟩
  | replied hphase hsame _ =>
    cases hphase
    rw [hsame]
    exact ⟨stored, hstored, .same rfl (not_leasesEvent rfl)⟩
  | failed _ _ hsame hafter =>
    rw [hsame, hafter]
    refine ⟨stored, hstored, .same rfl (not_leasesEvent ?_)⟩
    cases phase <;> rfl
  | @finalized leaseToken delivery identity' result hphase hfinalizes hafter =>
    cases hphase
    obtain ⟨loaded, current, hheld, hcurrent, holds⟩ := coherent
    rw [answeredEvent_held hheld] at hfinalizes
    have hunleased : ¬LeasesEvent eventId (⟨i, db, some ⟨call, identity, .answered leaseToken
        delivery⟩, db', some after⟩ : Pool.Transition Database ι (Option Worker)) :=
      not_leasesEvent rfl
    cases hfinalizes with
    | missing _ hsame => rw [hsame] at hunleased ⊢; exact ⟨stored, hstored, .same rfl hunleased⟩
    | superseded _ _ hsame =>
      rw [hsame] at hunleased ⊢
      exact ⟨stored, hstored, .same rfl hunleased⟩
    | refused _ _ _ _ hsame =>
      rw [hsame] at hunleased ⊢
      exact ⟨stored, hstored, .same rfl hunleased⟩
    | recorded hfound htoken hrecords =>
      cases hfound
      have hid : loaded.id = call.eventId := heldEvent_id hheld
      have hcurrent : db.webhookEvents.get loaded.id = some current := hid ▸ hcurrent
      obtain ⟨finalized, next, -, hfinal, hupdate, -⟩ :=
        hrecords.step tracked hcurrent holds htoken
      have hspec := WebhookEventRecord.finalized_spec hfinal
      have hkey : finalized.id = loaded.id :=
        (congrArg PublishedEvent.id hspec.published).trans (Table.get_eq_some hcurrent).2
      by_cases heq : loaded.id = eventId
      · subst heq
        cases hstored.symm.trans hcurrent
        refine ⟨finalized, ?_, .recorded ?_ hspec.leaseToken hunleased⟩
        · rw [← hkey]
          exact Table.get_update_self hupdate (x := stored) (by
            show db.webhookEvents.get finalized.id = some stored
            rw [hkey, hstored])
        · have := hspec.attemptCount
          omega
      · refine ⟨stored, (Table.get_update_of_ne hupdate ?_).trans hstored, .same rfl hunleased⟩
        show finalized.id ≠ eventId
        rw [hkey]
        exact heq

/-- The row of an event before and after any transition of a run. -/
theorem Dispatching.row [DecidableEq ι] {hmacSha256 : String → Int → EventPayload → String}
    {ts : List (Pool.Transition Database ι (Option Worker))}
    {v : Pool.World Database ι (Option Worker)} (h : Dispatching hmacSha256 ts v)
    {t : Pool.Transition Database ι (Option Worker)}
    (enabled : Pool.Enabled (Dispatchers hmacSha256) v t) {eventId : String}
    {stored : WebhookEventRecord} (hstored : v.shared.webhookEvents.get eventId = some stored) :
    ∃ stored', t.post.webhookEvents.get eventId = some stored' ∧
      RowEffect eventId t stored stored' := by
  obtain ⟨tracked, coherent⟩ := h.holds
  obtain ⟨i, pre, before, post, after⟩ := t
  obtain ⟨hpre, hbefore, step⟩ := enabled
  have hpre : pre = v.shared := hpre
  have hbefore : before = v.threads i := hbefore
  rw [← hpre] at tracked coherent hstored
  cases step with
  | environment publishes =>
    obtain ⟨⟨published, hrows, -⟩, -⟩ := publishes
    refine ⟨stored, ?_, .same rfl (not_leasesEvent rfl)⟩
    rw [Table.get_append hrows, hstored, Option.some_or]
  | @thread _ _ worker worker' step =>
    cases step with
    | begin call identity =>
      refine ⟨stored, hstored, .same rfl (not_leasesEvent ?_)⟩
      obtain ⟨_, _, phase⟩ := worker
      cases phase <;> rfl
    | crash =>
      refine ⟨stored, hstored, .same rfl (not_leasesEvent ?_)⟩
      obtain ⟨_, _, phase⟩ := worker
      cases phase <;> rfl
    | act unfinished hact =>
      exact (Worker.act_cases unfinished hact).row tracked (coherent i _ hbefore.symm) hstored

/-! ## What a worker knows of its lease -/

/-- The history of a worker that has claimed its event: it drew its token, by a claim. -/
structure HasClaimed (ts : List (Pool.Transition Database ι (Option Worker))) (i : ι)
    (eventId leaseToken : String) : Prop where
  drawn : leaseToken ∈ ts.filterMap drawnToken
  claimed : ∃ t ∈ ts, t.thread = i ∧ LeasesEvent eventId t

/-- The history of a worker that has loaded its event, against the row. -/
structure HasLoaded (ts : List (Pool.Transition Database ι (Option Worker))) (i : ι)
    (eventId leaseToken : String) (loaded stored : WebhookEventRecord) : Prop where
  claimed : HasClaimed ts i eventId leaseToken
  read : ∃ t ∈ ts, t.thread = i ∧ LoadsEvent t
  ordered : ReclaimedSince LoadsEvent i eventId ts → ReclaimedSince (LeasesEvent eventId) i eventId ts
  superseded : ReclaimedSince (LeasesEvent eventId) i eventId ts →
    ¬ReclaimedSince LoadsEvent i eventId ts → loaded.leaseToken ≠ some leaseToken
  owned : loaded.leaseToken = some leaseToken → ¬ReclaimedSince LoadsEvent i eventId ts →
    stored.leaseToken = some leaseToken ∨ loaded.attemptCount < stored.attemptCount

/-- What the history of a run says of a worker and its event. -/
def Worker.Remembers (ts : List (Pool.Transition Database ι (Option Worker))) (i : ι)
    (db : Database) (worker : Worker) : Prop :=
  match worker.phase with
  | .leased leaseToken => HasClaimed ts i worker.call.eventId leaseToken ∧
      ∃ stored, db.webhookEvents.get worker.call.eventId = some stored ∧
        (ReclaimedSince (LeasesEvent worker.call.eventId) i worker.call.eventId ts →
          stored.leaseToken ≠ some leaseToken)
  | .prepared leaseToken _ _ | .answered leaseToken _ => ∃ loaded stored,
      heldEvent worker.call.eventId worker.identity = some loaded ∧
        db.webhookEvents.get worker.call.eventId = some stored ∧
        HasLoaded ts i worker.call.eventId leaseToken loaded stored
  | _ => True

section History

variable {ts : List (Pool.Transition Database ι (Option Worker))} {i : ι} {eventId : String}
  {t : Pool.Transition Database ι (Option Worker)} {leaseToken : String}

theorem HasClaimed.concat (h : HasClaimed ts i eventId leaseToken) :
    HasClaimed (ts ++ [t]) i eventId leaseToken := by
  refine ⟨?_, ?_⟩
  · rw [List.filterMap_append]
    exact List.mem_append_left _ h.drawn
  · obtain ⟨s, mem, hs⟩ := h.claimed
    exact ⟨s, List.mem_append_left _ mem, hs⟩

/-- A token drawn earlier is not drawn again. -/
theorem HasClaimed.distinct (h : HasClaimed ts i eventId leaseToken)
    (distinct : DistinctTokens (ts ++ [t])) {token : String} (drawn : drawnToken t = some token) :
    token ≠ leaseToken := by
  rintro rfl
  unfold DistinctTokens at distinct
  rw [List.filterMap_append] at distinct
  exact List.disjoint_of_nodup_append distinct h.drawn
    (by simp only [List.filterMap_cons, drawn, List.filterMap_nil]; exact List.mem_singleton.mpr rfl)

/-- Another worker's step since a claim or load of this one. -/
theorem reclaimedSince_other {own : Pool.Transition Database ι (Option Worker) → Prop}
    (eventId : String) (hne : t.thread ≠ i) (exists' : ∃ s ∈ ts, s.thread = i ∧ own s) :
    ReclaimedSince own i eventId (ts ++ [t]) ↔
      ReclaimedSince own i eventId ts ∨ LeasesEvent eventId t := by
  unfold ReclaimedSince
  rw [Pool.since_concat]
  constructor
  · rintro ⟨-, h | ⟨⟨-, h⟩, -⟩⟩
    · exact .inl h
    · exact .inr h
  · rintro (h | h)
    · exact ⟨fun hown => hne hown.1, .inl h⟩
    · exact ⟨fun hown => hne hown.1, .inr ⟨⟨hne, h⟩, exists'⟩⟩

/-- The worker's own step, of another kind. -/
theorem reclaimedSince_self (own : Pool.Transition Database ι (Option Worker) → Prop)
    (eventId : String) (ts : List (Pool.Transition Database ι (Option Worker))) (heq : t.thread = i) (hnot : ¬own t) :
    ReclaimedSince own i eventId (ts ++ [t]) ↔ ReclaimedSince own i eventId ts := by
  unfold ReclaimedSince
  rw [Pool.since_concat]
  constructor
  · rintro ⟨-, h | ⟨⟨hne, -⟩, -⟩⟩
    · exact h
    · exact absurd heq hne
  · intro h
    exact ⟨fun hown => hnot hown.2, .inl h⟩

/-- The worker's own step, of the kind that is asked for: nothing has happened since. -/
theorem not_reclaimedSince {own : Pool.Transition Database ι (Option Worker) → Prop}
    (heq : t.thread = i) (hown : own t) : ¬ReclaimedSince own i eventId (ts ++ [t]) := by
  unfold ReclaimedSince
  rw [Pool.since_concat]
  rintro ⟨hnot, -⟩
  exact hnot ⟨heq, hown⟩

/-- What another worker does leaves true what is remembered of a loaded event. -/
theorem HasLoaded.other {loaded stored stored' : WebhookEventRecord}
    (h : HasLoaded ts i eventId leaseToken loaded stored) (later : Later loaded stored)
    (hne : t.thread ≠ i) (row : RowEffect eventId t stored stored') :
    HasLoaded (ts ++ [t]) i eventId leaseToken loaded stored' := by
  have hclaims := reclaimedSince_other eventId hne h.claimed.claimed
  have hloads := reclaimedSince_other eventId hne h.read
  refine ⟨h.claimed.concat, ?_, ?_, ?_, ?_⟩
  · obtain ⟨s, mem, hs⟩ := h.read
    exact ⟨s, List.mem_append_left _ mem, hs⟩
  · rw [hloads, hclaims]
    rintro (hreclaimed | hleases)
    · exact .inl (h.ordered hreclaimed)
    · exact .inr hleases
  · rw [hloads, hclaims]
    rintro (hreclaimed | hleases) hnot
    · exact h.superseded hreclaimed fun hload => hnot (.inl hload)
    · exact absurd (.inr hleases) hnot
  · rw [hloads]
    intro htoken hnot
    have howned := h.owned htoken fun hload => hnot (.inl hload)
    cases row with
    | same hsame => rw [hsame]; exact howned
    | leased _ hleases => exact absurd (.inr hleases) hnot
    | recorded hcount =>
      have := later.attemptCount
      exact .inr (by omega)

end History

/-! ## Along a run -/

section Run

variable [DecidableEq ι] {hmacSha256 : String → Int → EventPayload → String}
  {ts : List (Pool.Transition Database ι (Option Worker))}
  {v : Pool.World Database ι (Option Worker)}

/-- What a worker remembers after a transition of another. -/
theorem Worker.Remembers.other {t : Pool.Transition Database ι (Option Worker)} {i : ι}
    {worker : Worker} (h : worker.Remembers ts i v.shared) (run : Dispatching hmacSha256 ts v)
    (enabled : Pool.Enabled (Dispatchers hmacSha256) v t) (distinct : DistinctTokens (ts ++ [t]))
    (coherent : worker.Coherent v.shared) (hne : t.thread ≠ i) :
    worker.Remembers (ts ++ [t]) i t.post := by
  obtain ⟨call, identity, phase⟩ := worker
  have loaded : ∀ leaseToken, (∃ loaded stored, heldEvent call.eventId identity = some loaded ∧
      v.shared.webhookEvents.get call.eventId = some stored ∧
      HasLoaded ts i call.eventId leaseToken loaded stored) →
      (∃ loaded stored, heldEvent call.eventId identity = some loaded ∧
        v.shared.webhookEvents.get call.eventId = some stored ∧ Holds loaded stored) →
      ∃ loaded stored, heldEvent call.eventId identity = some loaded ∧
        t.post.webhookEvents.get call.eventId = some stored ∧
        HasLoaded (ts ++ [t]) i call.eventId leaseToken loaded stored := by
    rintro leaseToken ⟨loaded, stored, hheld, hstored, hloaded⟩ ⟨loaded', stored₁, hheld', hget, holds⟩
    cases hheld.symm.trans hheld'
    cases hstored.symm.trans hget
    obtain ⟨stored', hstored', hrow⟩ := run.row enabled hstored
    exact ⟨loaded, stored', hheld, hstored', hloaded.other holds.later hne hrow⟩
  cases phase with
  | ready => trivial
  | finished => trivial
  | interrupted => trivial
  | prepared leaseToken payload signature => exact loaded leaseToken h coherent
  | answered leaseToken delivery => exact loaded leaseToken h coherent
  | leased leaseToken =>
    obtain ⟨hclaimed, stored, hstored, hsuperseded⟩ := h
    obtain ⟨stored', hstored', hrow⟩ := run.row enabled hstored
    refine ⟨hclaimed.concat, stored', hstored', ?_⟩
    rw [reclaimedSince_other _ hne hclaimed.claimed]
    intro hreclaimed
    cases hrow with
    | same hsame hnot =>
      rw [hsame]
      exact hsuperseded (hreclaimed.resolve_right hnot)
    | leased hdrawn _ htoken =>
      rw [htoken]
      exact fun heq => hclaimed.distinct distinct hdrawn (Option.some.inj heq)
    | recorded _ htoken _ =>
      rw [htoken]
      exact nofun

omit [DecidableEq ι] in
/-- What a worker remembers after a transaction of its own. -/
theorem Worker.Acts.remembers {i : ι} {worker after : Worker} {db db' : Database}
    (acts : worker.Acts db db' after) (h : worker.Remembers ts i db)
    (coherent : worker.Coherent db) :
    after.Remembers (ts ++ [⟨i, db, some worker, db', some after⟩]) i db' := by
  obtain ⟨call, identity, phase⟩ := worker
  cases acts with
  | @claimed event hphase hid hleases hafter =>
    cases hphase
    rw [hafter]
    have hown : LeasesEvent call.eventId (⟨i, db, some ⟨call, identity, .ready⟩, db',
        some ⟨call, ∅, .leased call.leaseToken⟩⟩ : Pool.Transition Database ι (Option Worker)) :=
      ⟨⟨_, rfl, rfl⟩, rfl⟩
    have hid : event.id = call.eventId := hid
    have hself : db'.webhookEvents.get event.id =
        some (event.leased call.leaseToken (asUtc call.now)) :=
      Table.get_update_self hleases.events hleases.stored
    refine ⟨⟨?_, _, List.mem_append_right _ (List.mem_singleton.mpr rfl), rfl, hown⟩,
      _, hid ▸ hself, fun hreclaimed => absurd hreclaimed (not_reclaimedSince rfl hown)⟩
    rw [List.filterMap_append]
    exact List.mem_append_right _ (List.mem_singleton.mpr rfl)
  | @loaded leaseToken signature event identity' hphase hsame hanswer hheld hafter =>
    cases hphase
    rw [hafter, hsame]
    obtain ⟨hclaimed, stored, hstored, hsuperseded⟩ := h
    -- nothing is held after a claim, so what is loaded is the row
    have hempty : identity = ∅ := coherent
    rw [hempty] at hanswer
    have hstored' : db.webhookEvents.get call.eventId = some event := hanswer
    cases hstored.symm.trans hstored'
    have hown : LoadsEvent (⟨i, db, some ⟨call, identity, .leased leaseToken⟩, db,
        some ⟨call, identity', .prepared leaseToken event.payload signature⟩⟩ :
        Pool.Transition Database ι (Option Worker)) := ⟨_, _, _, _, _, rfl, rfl, rfl, rfl⟩
    refine ⟨event, event, hheld, hstored', hclaimed.concat,
      ⟨_, List.mem_append_right _ (List.mem_singleton.mpr rfl), rfl, hown⟩,
      fun hreclaimed => absurd hreclaimed (not_reclaimedSince rfl hown), ?_, fun htoken _ => .inl htoken⟩
    have hclaims := reclaimedSince_self (LeasesEvent call.eventId) call.eventId ts (i := i)
      (t := ⟨i, db, some ⟨call, identity, .leased leaseToken⟩, db,
        some ⟨call, identity', .prepared leaseToken event.payload signature⟩⟩) rfl
      (not_leasesEvent rfl)
    exact fun hreclaimed _ => hsuperseded (hclaims.mp hreclaimed)
  | @replied leaseToken signature payload hphase hsame hafter =>
    cases hphase
    rw [hafter, hsame]
    generalize (if invokesReceiver call.fault then _ else _ : Except ServiceError Delivery) = reply
    cases reply with
    | error e => trivial
    | ok delivery =>
      obtain ⟨loaded, stored, hheld, hstored, hloaded⟩ := h
      have hclaims := reclaimedSince_self (LeasesEvent call.eventId) call.eventId ts (i := i)
        (t := ⟨i, db, some ⟨call, identity, .prepared leaseToken payload signature⟩, db,
          some ⟨call, identity, .answered leaseToken delivery⟩⟩) rfl
        (not_leasesEvent rfl)
      have hloads := reclaimedSince_self LoadsEvent call.eventId ts (i := i)
        (t := ⟨i, db, some ⟨call, identity, .prepared leaseToken payload signature⟩, db,
          some ⟨call, identity, .answered leaseToken delivery⟩⟩) rfl
        (by rintro ⟨_, _, _, _, _, hbefore, _, hphase, _⟩; cases hbefore; cases hphase)
      obtain ⟨s, mem, hs⟩ := hloaded.read
      refine ⟨loaded, stored, hheld, hstored, hloaded.claimed.concat,
        ⟨s, List.mem_append_left _ mem, hs⟩, fun hreclaimed => ?_, fun hreclaimed hnot => ?_,
        fun htoken hnot => ?_⟩
      · exact hclaims.mpr (hloaded.ordered (hloads.mp hreclaimed))
      · exact hloaded.superseded (hclaims.mp hreclaimed) fun hload => hnot (hloads.mpr hload)
      · exact hloaded.owned htoken fun hload => hnot (hloads.mpr hload)
  | finalized _ _ hafter =>
    rw [hafter]
    trivial
  | failed _ _ _ hafter =>
    rw [hafter]
    trivial

/-- **Along every run, every worker remembers its lease.** -/
theorem Dispatching.remembers (h : Dispatching hmacSha256 ts v) (distinct : DistinctTokens ts)
    (i : ι) (worker : Worker) (hworker : v.threads i = some worker) :
    worker.Remembers ts i v.shared := by
  obtain ⟨w, idle, run⟩ := h
  induction run generalizing i worker with
  | nil =>
    have hready := idle.ready i worker hworker
    unfold Worker.Remembers
    rw [hready]
    trivial
  | @snoc v ts t run enabled ih =>
    have reached : Dispatching hmacSha256 ts v := ⟨w, idle, run⟩
    have distinct' : DistinctTokens ts := by
      unfold DistinctTokens at distinct ⊢
      rw [List.filterMap_append] at distinct
      exact distinct.of_append_left
    by_cases hi : i = t.thread
    · subst hi
      rw [Pool.World.apply_threads_self] at hworker
      obtain ⟨i, pre, before, post, after⟩ := t
      obtain ⟨hpre, hbefore, step⟩ := enabled
      cases hworker
      cases step with
      | @thread _ _ worker' _ step =>
        have hpre : pre = v.shared := hpre
        have coherent := reached.holds.2 i _ hbefore.symm
        have remembers := ih distinct' i worker' hbefore.symm
        rw [← hpre] at coherent remembers
        cases step with
        | begin => trivial
        | crash => trivial
        | act unfinished hact =>
          exact (Worker.act_cases unfinished hact).remembers remembers coherent
    · rw [Pool.World.apply_threads_of_ne v t hi] at hworker
      exact (ih distinct' i worker hworker).other reached enabled distinct
        (reached.holds.2 i worker hworker) (Ne.symm hi)

end Run

/-! ## The finalize -/

/-- A transition by which a worker finalizes an attempt, with the answer its receiver gave. One that
is interrupted does not count: it has committed nothing. -/
structure FinalizesAttempt (t : Pool.Transition Database ι (Option Worker)) (worker : Worker)
    (leaseToken : String) (delivery : Delivery) : Prop where
  before : t.before = some worker
  answered : worker.phase = .answered leaseToken delivery
  completed : ∀ after, t.after = some after → after.phase ≠ .interrupted

/-- A finalize respects its lease or not, by the way it ends. -/
theorem Finalizes.respects {ts : List (Pool.Transition Database ι (Option Worker))} {i : ι}
    {worker after : Worker} {db db' : Database} {leaseToken : String} {current : Instant}
    {delivery : Delivery} {loaded stored : WebhookEventRecord}
    {result : Except ServiceError DeliveryResult}
    (h : Finalizes worker.call.eventId leaseToken current delivery (some loaded) db db' result)
    (held : heldEvent worker.call.eventId worker.identity = some loaded)
    (hstored : db.webhookEvents.get worker.call.eventId = some stored)
    (holds : Holds loaded stored)
    (history : HasLoaded ts i worker.call.eventId leaseToken loaded stored) (tracked : Tracked db)
    (finished : after.phase = .finished result) :
    RespectsLease ts ⟨i, db, some worker, db', some after⟩ worker.call leaseToken ↔
      ((heldEvent worker.call.eventId worker.identity).bind (·.leaseToken) = some leaseToken →
        ¬ReclaimedSince LoadsEvent i worker.call.eventId ts) := by
  rw [held, Option.bind_some]
  -- once superseded, a finalize by the worker's own token does not answer what it must
  have hviolates : result ≠ .error (.webhookDeliveryNotReady worker.call.eventId) →
      RespectsLease ts ⟨i, db, some worker, db', some after⟩ worker.call leaseToken →
      ¬ReclaimedSince LoadsEvent i worker.call.eventId ts := by
    intro hresult respects hreclaimed
    have hanswer := (respects.superseded (history.ordered hreclaimed)).1 after rfl
    rw [finished] at hanswer
    cases hanswer
    exact hresult rfl
  have hunclaimed : loaded.leaseToken = some leaseToken →
      ¬ReclaimedSince LoadsEvent i worker.call.eventId ts →
      ¬ReclaimedSince (LeasesEvent worker.call.eventId) i worker.call.eventId ts :=
    fun htoken hnot hreclaimed => history.superseded hreclaimed hnot htoken
  cases h with
  | missing hfound => cases hfound
  | superseded hfound htoken hsame =>
    cases hfound
    rw [hsame]
    refine ⟨fun _ heq => absurd heq htoken, fun _ => ⟨?_, fun _ => ⟨fun after' hafter' => ?_, rfl, rfl⟩⟩⟩
    · rintro (hchange | hchange) <;> exact absurd rfl hchange
    · cases hafter'
      exact finished
  | refused hfound htoken _ hrefused hsame =>
    cases hfound
    rw [hsame] at hviolates ⊢
    refine ⟨fun respects _ => hviolates ?_ respects, fun hcondition => ⟨?_, fun hreclaimed => ?_⟩⟩
    · rcases recordAttempt_eq_error hrefused with rfl | rfl <;> exact nofun
    · rintro (hchange | hchange) <;> exact absurd rfl hchange
    · exact absurd hreclaimed (hunclaimed htoken (hcondition htoken))
  | recorded hfound htoken hrecords =>
    cases hfound
    refine ⟨fun respects _ => hviolates nofun respects, fun hcondition => ⟨fun _ => ?_, ?_⟩⟩
    · refine ⟨stored, hstored, (history.owned htoken (hcondition htoken)).resolve_right ?_⟩
      have hid : loaded.id = worker.call.eventId := heldEvent_id held
      have := hrecords.current tracked (by rw [hid, hstored]) holds
      omega
    · exact fun hreclaimed => absurd hreclaimed (hunclaimed htoken (hcondition htoken))

/-- **A finalize respects its lease exactly when no other worker has claimed the event since the load
that found the worker's own token on it.** -/
theorem lease_respected [DecidableEq ι] {hmacSha256 : String → Int → EventPayload → String}
    {ts us : List (Pool.Transition Database ι (Option Worker))}
    {t : Pool.Transition Database ι (Option Worker)}
    {v : Pool.World Database ι (Option Worker)}
    (h : Dispatching hmacSha256 (ts ++ t :: us) v) (distinct : DistinctTokens (ts ++ t :: us))
    {worker : Worker} {leaseToken : String} {delivery : Delivery}
    (finalizes : FinalizesAttempt t worker leaseToken delivery) :
    RespectsLease ts t worker.call leaseToken ↔
      ((heldEvent worker.call.eventId worker.identity).bind (·.leaseToken) = some leaseToken →
        ¬ReclaimedSince LoadsEvent t.thread worker.call.eventId ts) := by
  obtain ⟨u, reached, enabled⟩ := h.split
  have distinct' : DistinctTokens ts := by
    unfold DistinctTokens at distinct ⊢
    rw [List.filterMap_append] at distinct
    exact distinct.of_append_left
  obtain ⟨hbefore, hphase, hcompleted⟩ := finalizes
  obtain ⟨i, pre, before, post, after⟩ := t
  obtain ⟨hpre, hthread, step⟩ := enabled
  have hpre : pre = u.shared := hpre
  have hthread : before = u.threads i := hthread
  have hbefore : before = some worker := hbefore
  subst hbefore
  have coherent := reached.holds.2 i worker hthread.symm
  have remembers := reached.remembers distinct' i worker hthread.symm
  have tracked := reached.tracked
  rw [← hpre] at coherent remembers tracked
  cases step with
  | @thread _ _ _ after step =>
    cases step with
    | begin _ _ ended => rw [hphase] at ended; exact ended.elim
    | crash => exact absurd rfl (hcompleted _ rfl)
    | act unfinished hact =>
      have acts := Worker.act_cases unfinished hact
      obtain ⟨call, identity, phase⟩ := worker
      cases hphase
      obtain ⟨loaded, stored, hheld, hstored, hloaded⟩ := remembers
      obtain ⟨loaded', stored', hheld', hstored', holds⟩ := coherent
      cases hheld.symm.trans hheld'
      cases hstored.symm.trans hstored'
      cases acts with
      | claimed hphase => cases hphase
      | loaded hphase => cases hphase
      | replied hphase => cases hphase
      | failed hphase => rcases hphase with hphase | ⟨_, hphase⟩ <;> cases hphase
      | @finalized _ _ identity' result hphase' hfinalizes hafter =>
        cases hphase'
        rw [answeredEvent_held hheld] at hfinalizes
        have hphaseAfter : after.phase = .finished result := by rw [hafter]
        exact hfinalizes.respects hheld hstored holds hloaded tracked hphaseAfter

/-! ## A stale finalize -/

/-- Two workers on one event: the receiver of the first takes longer than its lease, and the second
claims the event before the first finalizes. -/
def overtaken : List (Pool.Transition Database Dispatcher (Option Worker)) ×
    Pool.World Database Dispatcher (Option Worker) :=
  dispatching (dispatchOf .timeoutError 0 "1") (dispatchOf (.status 200) 31 "2") [.first, .first, .first, .second]

/-- The first worker, with its answer. -/
def overtakenWorker : Worker := (overtaken.2.threads .first).getD ⟨dispatchOf .raised 0 "", ∅, .ready⟩

/-- The finalize of the first worker. -/
def staleFinalize : Pool.Transition Database Dispatcher (Option Worker) :=
  acting (fun _ _ _ => "") overtaken.2 .first overtakenWorker

theorem overtaken_run :
    Dispatching (fun _ _ _ => "") (overtaken.1 ++ staleFinalize :: [])
      (overtaken.2.apply staleFinalize) := by
  refine (dispatching_run _ _ _).append (.single ⟨rfl, ?_, .thread (.act ?_ rfl)⟩)
  · show some overtakenWorker = overtaken.2.threads .first
    have hsome : (overtaken.2.threads .first).isSome := by decide +kernel
    obtain ⟨worker, hworker⟩ := Option.isSome_iff_exists.mp hsome
    unfold overtakenWorker
    rw [hworker, Option.getD_some]
  · decide +kernel

theorem overtaken_distinct : DistinctTokens (overtaken.1 ++ staleFinalize :: []) := by
  unfold DistinctTokens
  decide +kernel

theorem staleFinalize_finalizes :
    FinalizesAttempt staleFinalize overtakenWorker "lease_1" timedOut := by
  have hanswered : overtakenWorker.phase = .answered "lease_1" timedOut := by decide +kernel
  have hcompleted : ∃ after, staleFinalize.after = some after ∧ after.phase ≠ .interrupted :=
    ⟨_, rfl, by decide +kernel⟩
  refine ⟨rfl, hanswered, fun after hafter => ?_⟩
  obtain ⟨after', hafter', hphase⟩ := hcompleted
  cases hafter.symm.trans hafter'
  exact hphase

/-- It records an attempt while the row carries the token of the second worker. -/
theorem staleFinalize_violates :
    ¬RespectsLease overtaken.1 staleFinalize overtakenWorker.call "lease_1" := by
  intro respects
  have hattempts : staleFinalize.post.attemptsOf overtakenWorker.call.eventId ≠
      staleFinalize.pre.attemptsOf overtakenWorker.call.eventId := by decide +kernel
  have htoken : (staleFinalize.pre.webhookEvents.get overtakenWorker.call.eventId).bind
      (·.leaseToken) = some "lease_2" := by decide +kernel
  obtain ⟨stored, hstored, howned⟩ := respects.effective (.inr hattempts)
  rw [hstored, Option.bind_some, howned] at htoken
  exact absurd htoken (by decide)

/-- **A superseded lease takes effect.** -/
theorem stale_lease :
    Dispatching (fun _ _ _ => "") (overtaken.1 ++ staleFinalize :: [])
        (overtaken.2.apply staleFinalize) ∧
      DistinctTokens (overtaken.1 ++ staleFinalize :: []) ∧
      FinalizesAttempt staleFinalize overtakenWorker "lease_1" timedOut ∧
      ¬RespectsLease overtaken.1 staleFinalize overtakenWorker.call "lease_1" :=
  ⟨overtaken_run, overtaken_distinct, staleFinalize_finalizes, staleFinalize_violates⟩

/-- What was wrong with it: the event was claimed after the load that found the worker's token. -/
theorem overtaken_reclaimed :
    ReclaimedSince LoadsEvent .first overtakenWorker.call.eventId overtaken.1 := by
  have hcondition := (lease_respected overtaken_run overtaken_distinct
    staleFinalize_finalizes).not.mp staleFinalize_violates
  exact not_not.mp fun hnot => hcondition fun _ => hnot

end PaymentLab
