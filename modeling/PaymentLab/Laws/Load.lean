import PaymentLab.Laws.Workload

/-!
# The load

The verifier is complete for the load it is written for: a run of the server that is sent the script's
requests, in any number and any order beside each other, and in which every payment of the profile was
answered, passes (`load_verifies`). The checks the script makes on the answers themselves pass too
(`load_checks`).

Under the load the store only grows by creations (`Server.loads`), and what was answered under a key
is recorded under it, so every expected payment has been created, and once.

The script is not run here: what is modelled of it are the requests it sends and the checks it
makes. Which requests are sent, how many overlap and in which order they are handled is left open,
and a run in which some payment of the profile was never answered says nothing, as it should, since
the verifier would miss it. The thresholds on times are not part of it.
-/

namespace PaymentLab

open Relational Tally Api

/-! ## The requests of the script -/

/-- The command of an input. -/
def PaymentInput.command (input : PaymentInput) : AuthorizationCommand where
  merchantReference := input.merchantReference
  amount := input.amount
  currency := input.currency
  paymentMethodToken :=
    .authorization (if input.outcome = .approved then .approve else .decline)

section Requests

variable {app : App} {pydantic : Pydantic} {lib : StandardLibrary}

theorem validated_eq_ok {α : Type} {value : Option α} {a : α} (h : validated value = .ok a) :
    value = some a := by
  cases value with
  | none => cases h
  | some b => cases h; rfl

theorem readLength_eq_some {min max : Nat} {s : String} {text : Text min max}
    (h : readLength min max s = some text) : text.val = s := by
  unfold readLength at h
  split at h
  · cases h
    rfl
  · cases h

theorem readAmount_eq_some {readInt : Json → Option Int} {value : Json} {amount : Amount}
    (h : readAmount readInt value = some amount) : readInt value = some amount.val := by
  unfold readAmount at h
  split at h
  · next n hread =>
    split at h
    · cases h
      exact hread
    · cases h
  · cases h

/-- A request of the script validates as its input. -/
theorem PaymentInput.validate_eq_some (integers : ∀ n, pydantic.readInt (.int n) = some n)
    {input : PaymentInput}
    (token : input.paymentMethodToken =
      if input.outcome = .approved then "tok_approved" else "tok_declined")
    {payload : AuthorizePaymentRequest}
    (h : AuthorizePaymentRequest.validate pydantic input.body = some payload) :
    payload.command = input.command := by
  unfold AuthorizePaymentRequest.validate at h
  obtain ⟨fields, hfields, h⟩ := Option.bind_eq_some_iff.mp h
  obtain ⟨merchantReference, hreference, h⟩ := Option.bind_eq_some_iff.mp h
  obtain ⟨amount, hamount, h⟩ := Option.bind_eq_some_iff.mp h
  obtain ⟨currency, hcurrency, h⟩ := Option.bind_eq_some_iff.mp h
  obtain ⟨decision, hdecision, hpayload⟩ := Option.bind_eq_some_iff.mp h
  have hfields : fields = [("merchant_reference", .str input.merchantReference),
      ("amount", .int input.amount), ("currency", .str input.currency.value),
      ("payment_method_token", .str input.paymentMethodToken)] := (Option.some.inj hfields).symm
  subst hfields
  obtain rfl := Option.some.inj hpayload
  have hreference : merchantReference.val = input.merchantReference :=
    readLength_eq_some hreference
  have hamount : amount.val = input.amount :=
    (Option.some.inj ((integers input.amount).symm.trans (readAmount_eq_some hamount))).symm
  have hcurrency : currency = input.currency := by
    have hmember : Json.memberOf Currency.all Currency.value input.currency.value = some currency :=
      hcurrency
    cases hvalue : input.currency with
    | _ =>
      rw [hvalue] at hmember
      exact (Option.some.inj hmember).symm
  have hdecision : decision =
      .authorization (if input.outcome = .approved then .approve else .decline) := by
    have hmember : Json.memberOf paymentMethodDecisions PaymentMethodDecision.value
        input.paymentMethodToken = some decision := hdecision
    rw [token] at hmember
    by_cases approved : input.outcome = .approved
    · rw [if_pos approved] at hmember ⊢
      exact (Option.some.inj hmember).symm
    · rw [if_neg approved] at hmember ⊢
      exact (Option.some.inj hmember).symm
  unfold AuthorizePaymentRequest.command PaymentInput.command
  rw [hreference, hamount, hcurrency, hdecision]

/-- What a request of the script is admitted as. -/
theorem ExpectedPayment.input_admitted (integers : ∀ n, pydantic.readInt (.int n) = some n)
    {runId profile : String} {e : ExpectedPayment} {readings : Readings} {handling : Handling}
    (h : Call.admit app pydantic lib readings (e.input runId profile).call = .ok handling) :
    handling = clientOf (.authorize (e.input runId profile).command
      (idempotencyKey runId profile e) none readings.paymentClock readings.draws) := by
  unfold Call.admit PaymentInput.call at h
  dsimp only at h
  obtain ⟨_, _, h⟩ := except_bind_eq_ok h
  obtain ⟨failurePoint, hresolve, h⟩ := except_bind_eq_ok h
  obtain ⟨key, hkey, h⟩ := except_bind_eq_ok h
  obtain ⟨payload, hpayload, h⟩ := except_bind_eq_ok h
  cases hresolve
  cases h
  unfold readKey at hkey
  rw [Option.bind_some] at hkey
  have hkey : key.val = idempotencyKey runId profile e :=
    (readLength_eq_some (validated_eq_ok hkey)).trans (e.input_eq runId profile).2.1
  have hpayload : payload.command = (e.input runId profile).command := by
    refine PaymentInput.validate_eq_some integers ?_ (validated_eq_ok hpayload)
    unfold ExpectedPayment.input paymentInput
    dsimp only
  rw [hkey, hpayload]

end Requests

/-! ## What a request of the script creates -/

section Creations

variable {sha256 : String → String} {runId profile : String} {e : ExpectedPayment}
  {payment : PaymentRecord} {db db' : Database}

/-- The terms of an expected payment are the expected ones. -/
theorem ExpectedPayment.terms_eq {now : Instant} {hex : String} {terms : AuthorizationTerms}
    (h : authorizationTerms (e.input runId profile).command now hex = .ok terms) :
    terms.status = e.status ∧ terms.authorizedAmount = (if e.approved then e.amount else 0) ∧
      terms.eventType = e.eventType := by
  have hdecision : (e.input runId profile).command.paymentMethodToken =
      .authorization (if e.approved then .approve else .decline) := by
    unfold PaymentInput.command input paymentInput
    cases e.approved with
    | _ => rfl
  have hamount : (e.input runId profile).command.amount = e.amount := rfl
  unfold authorizationTerms at h
  rw [hdecision] at h
  dsimp only at h
  rw [hamount] at h
  unfold authorize at h
  rw [if_neg (not_le.mpr e.amount_pos)] at h
  unfold status eventType
  cases happroved : e.approved with
  | true =>
    rw [happroved] at h
    cases h
    exact ⟨rfl, rfl, rfl⟩
  | false =>
    rw [happroved] at h
    cases h
    exact ⟨rfl, rfl, rfl⟩

/-- A creation is the last of its store. -/
theorem CreatedBy.created {cs : List (Creation runId profile)} (rows : CreatedBy cs db)
    (h : Created sha256 (e.input runId profile).command (idempotencyKey runId profile e) payment db
      db') : ∃ c : Creation runId profile, c.expected = e ∧ CreatedBy (cs ++ [c]) db' := by
  obtain ⟨now, paymentReference, hex, terms, eventHex, hterms, rfl, hevents⟩ := h.terms
  obtain ⟨hstatus, hauthorized, htype⟩ := e.terms_eq hterms
  obtain ⟨ledgerHex, hledger⟩ := h.ledger
  obtain ⟨claimedAt, hclaim⟩ := h.claim
  refine ⟨{
    expected := e
    payment := newPayment (e.input runId profile).command terms now hex
    ledgerHex := ledgerHex
    eventHex := eventHex
    fingerprint := (e.input runId profile).command.fingerprint sha256
    claimedAt := claimedAt
    reference := rfl
    amount := rfl
    currency := rfl
    status := hstatus
    authorized := hauthorized
    captured := rfl
    refunded := rfl
    version := rfl }, rfl, ?_, ?_, ?_, ?_⟩
  · rw [Table.insert_rows h.payments, rows.payments, List.map_append]
    rfl
  · rw [hledger.rows, rows.ledgers, List.filterMap_append]
    congr 1
  · rw [Table.insert_rows hclaim, rows.records, List.map_append]
    rfl
  · rw [htype] at hevents
    rw [Table.insert_rows hevents, rows.events, List.map_append]
    rfl

end Creations

/-! ## Every profile has approvals -/

theorem expectedPayments_available {profile : String} (h : profile ∈ availableProfiles) :
    ∃ expected, expectedPayments profile = .ok expected := by
  unfold availableProfiles at h
  simp only [List.mem_cons, List.not_mem_nil, or_false] at h
  rcases h with rfl | rfl | rfl | rfl | rfl <;> exact ⟨_, rfl⟩

theorem approvedCount_phasePayments {phase : String} {count : Nat} (positive : 0 < count) :
    0 < approvedCount (phasePayments phase count) :=
  List.countP_pos_iff.mpr
    ⟨_, List.mem_map.mpr ⟨0, List.mem_range.mpr positive, rfl⟩, rfl⟩

theorem approvedCount_append {expected more : List ExpectedPayment}
    (positive : 0 < approvedCount expected) : 0 < approvedCount (expected ++ more) := by
  unfold approvedCount
  rw [List.countP_append]
  exact Nat.add_pos_left positive _

theorem expectedPayments_approvals {profile : String} {expected : List ExpectedPayment}
    (h : expectedPayments profile = .ok expected) : 0 < approvedCount expected := by
  unfold expectedPayments at h
  split at h
  · cases h
    decide
  · split at h
    · cases h
      exact approvedCount_append (approvedCount_phasePayments (by decide))
    · split at h
      · cases h
        exact approvedCount_phasePayments (by decide)
      · split at h
        · cases h
          decide
        · split at h
          · cases h
            exact approvedCount_append (approvedCount_phasePayments (by decide))
          · cases h

end PaymentLab

namespace PaymentLab.Api

open Relational Transactional Transactional.Service

/-! ## One step of the load -/

section Steps

variable {app : App} {pydantic : Pydantic} {sha256 : String → String} {lib : StandardLibrary}
  {runId profile : String} {db db' : Database}

/-- A handling that was admitted as a call of a service is that call. -/
theorem Handling.client_of_origin {handling : Handling} {request : Request}
    (h : handling.origin = clientOf request) :
    ∃ client, handling = .client client ∧ client.request = request := by
  cases handling with
  | client client =>
    unfold origin clientOf at h
    cases h
    exact ⟨client, rfl, rfl⟩
  | _ => cases h

/-- A handling that was admitted as a reading is that reading. -/
theorem Handling.asking_of_origin {handling : Handling} {question : Question}
    (h : handling.origin = .asking question) : handling = .asking question := by
  cases handling with
  | asking asked => exact h
  | _ => cases h

/-- A reading changes nothing. -/
theorem Server.reads {before after : Connection}
    (h : Server pydantic sha256 lib db before db' after) {question : Question}
    (handled : before.handling = .asking question) : db' = db := by
  obtain ⟨call, readings, handling, ending⟩ := before
  obtain rfl : handling = .asking question := handled
  cases h with
  | breaks => rfl
  | next unended hnext =>
    cases hnext
    rfl

/-- A step is of a connection that is not answered. -/
theorem Server.unended {before after : Connection}
    (h : Server pydantic sha256 lib db before db' after) : before.ending = none := by
  cases h with
  | breaks unended => exact unended
  | next unended _ => exact unended

/-- A connection with the request of an input handles it as an authorization. -/
theorem Server.authorizes (integers : ∀ n, pydantic.readInt (.int n) = some n)
    {before after : Connection} (h : Server pydantic sha256 lib db before db' after)
    (faithful : before.Faithful app pydantic lib) {e : ExpectedPayment}
    (hcall : before.call = (e.input runId profile).call) :
    ∃ client, before.handling = .client client ∧ client.request.keyed =
      some (idempotencyKey runId profile e, .authorize (e.input runId profile).command) := by
  have hadmit := faithful h.unended
  rw [hcall] at hadmit
  obtain ⟨client, handled, hrequest⟩ :=
    Handling.client_of_origin (e.input_admitted integers hadmit)
  refine ⟨client, handled, ?_⟩
  rw [hrequest]
  rfl

/-- **A step of the load**: nothing is written, or an expected payment is created. -/
theorem Server.loads (integers : ∀ n, pydantic.readInt (.int n) = some n)
    {before after : Connection} (h : Server pydantic sha256 lib db before db' after)
    (coherent : before.Coherent app lib db) (faithful : before.Faithful app pydantic lib)
    {expected : List ExpectedPayment} (hexpected : expectedPayments profile = .ok expected)
    (scripted : ScriptCall runId profile before.call) :
    db' = db ∨ ∃ e ∈ expected, ∃ payment, Created sha256 (e.input runId profile).command
      (idempotencyKey runId profile e) payment db db' := by
  generalize hcall : before.call = call at scripted
  cases scripted with
  | authorize hinput =>
    rw [authorizations_expected runId profile hexpected] at hinput
    obtain ⟨e, mem, rfl⟩ := List.mem_map.mp hinput
    obtain ⟨client, handled, hkey⟩ := h.authorizes integers faithful hcall
    obtain ⟨unfinished, coherent', ⟨same, _⟩ | ⟨hact, _⟩⟩ := h.client_cases coherent handled
    · exact .inl same
    · have act := (Client.keyed_act sha256 hkey coherent'.admits unfinished coherent'.sound).1
      rw [hact] at act
      generalize (client.act sha256 db).2.phase = phase at act
      cases act with
      | clock _ _ same _ => exact .inl same
      | answered _ same => exact .inl same
      | lost _ same _ => exact .inl same
      | free _ same _ => exact .inl same
      | executed _ commits =>
        rcases commits with ⟨same, _⟩ | ⟨payment, effect, _⟩
        · exact .inl same
        · cases effect with
          | created created => exact .inr ⟨e, mem, payment, created⟩
  | retrieve paymentId =>
    have hadmit := faithful h.unended
    rw [hcall] at hadmit
    exact .inl (h.reads (Handling.asking_of_origin (Except.ok.inj hadmit).symm))
  | probe =>
    have hadmit := faithful h.unended
    rw [hcall] at hadmit
    exact .inl (h.reads (Handling.asking_of_origin (Except.ok.inj hadmit).symm))

end Steps

/-! ## Answers of the load -/

section Runs

variable {ι : Type} {app : App} {pydantic : Pydantic} {sha256 : String → String}
  {lib : StandardLibrary} {runId profile : String} {expected : List ExpectedPayment}

/-- A connection was answered with a payment: it has a response, and the body of the response is read
as one. The status is left open. -/
structure Connection.Paid (connection : Connection) (response : Response)
    (payment : PaymentResponse) : Prop where
  answered : connection.ending = some (.answered response)
  parsed : parseBody response = some payment

theorem parseBody_eq_some {response : Response} {payment : PaymentResponse}
    (h : parseBody response = some payment) : response.body = .payment payment := by
  unfold parseBody at h
  split at h
  · next hbody =>
    cases h
    exact hbody
  · cases h

/-- A request that has just arrived is not answered with a payment. -/
theorem Connection.Paid.not_arrived {readings : Readings} {call : Call} {response : Response}
    {payment : PaymentResponse} :
    ¬(arrive app pydantic lib readings call).Paid response payment := by
  rintro ⟨answered, parsed⟩
  unfold arrive at answered
  split at answered
  · cases answered
  · cases answered
    cases parseBody_eq_some parsed

/-- An answer stays. -/
theorem ending_of_run [DecidableEq ι] {w v : Pool.World Database ι Connection}
    {ts : List (Pool.Transition Database ι Connection)}
    (run : Pool.Run (Server pydantic sha256 lib) w ts v) {i : ι} {ending : Ending}
    (ended : (w.threads i).ending = some ending) : (v.threads i).ending = some ending := by
  induction run with
  | nil => exact ended
  | @snoc v ts t run enabled ih =>
    by_cases hi : i = t.thread
    · subst hi
      have unended := enabled.2.2.unended
      rw [enabled.2.1, ih] at unended
      cases unended
    · rw [Pool.World.apply_threads_of_ne v t hi]
      exact ih

/-- The status of an answer to an authorization. -/
def createdStatus (replayed : Bool) : Nat := if replayed then 200 else 201

/-- A step that answers an authorization with a payment leaves it recorded under its key. -/
theorem Server.recorded {t : Pool.Transition Database ι Connection}
    (step : Server pydantic sha256 lib t.pre t.before t.post t.after)
    (coherent : t.before.Coherent app lib t.pre) {client : Client}
    (handled : t.before.handling = .client client) {key : String}
    {command : AuthorizationCommand}
    (hkey : client.request.keyed = some (key, .authorize command))
    {response : Response} {payment : PaymentResponse} (paid : t.after.Paid response payment) :
    Keeps sha256 key (.authorize command) payment t.post ∧
      response.status = createdStatus response.replayed := by
  obtain ⟨answered, parsed⟩ := paid
  obtain ⟨status, replayed, body⟩ := response
  obtain rfl : body = .payment payment := parseBody_eq_some parsed
  obtain ⟨recorded, keeps, same⟩ :=
    step.keeps coherent handled hkey (.inr ⟨replayed, payment, status, answered⟩)
  obtain rfl : payment = recorded := same replayed payment ⟨status, answered⟩
  refine ⟨keeps, ?_⟩
  obtain ⟨_, _, ⟨_, broken⟩ | ⟨_, hending⟩⟩ := step.client_cases coherent handled
  · cases broken.symm.trans answered
  · obtain ⟨result, _, hresponse⟩ := clientEnding_eq_answered (hending.symm.trans answered)
    obtain ⟨outcome, rfl, rfl, _⟩ := Response.ofResult_payment hresponse
    have creation : isCreation client.request = true := by
      cases hrequest : client.request with
      | authorize => rfl
      | _ =>
        rw [hrequest] at hkey
        cases hkey
    have hstatus : status =
        if isCreation client.request && !outcome.replayed then 201 else 200 :=
      congrArg Response.status hresponse
    rw [creation, Bool.true_and] at hstatus
    rw [hstatus]
    unfold createdStatus
    cases outcome.replayed with
    | _ => rfl

variable [DecidableEq ι] {ts : List (Pool.Transition Database ι Connection)}
  {v : Pool.World Database ι Connection}

/-- What an answer with a payment has when it is given, and every step keeps, all of them have. -/
theorem Served.paid_induction {S : Call → Prop} {call : Call}
    {Q : Response → PaymentResponse → Database → Prop}
    (h : Served app pydantic sha256 lib ts v) (sends : ∀ i, S (v.threads i).call)
    (given : ∀ (t : Pool.Transition Database ι Connection) response payment,
      Server pydantic sha256 lib t.pre t.before t.post t.after → t.before.Coherent app lib t.pre →
      t.before.Faithful app pydantic lib → t.before.call = call → t.after.Paid response payment →
      Q response payment t.post)
    (kept : ∀ (t : Pool.Transition Database ι Connection) response payment,
      Server pydantic sha256 lib t.pre t.before t.post t.after → t.before.Coherent app lib t.pre →
      t.before.Faithful app pydantic lib → S t.before.call → Q response payment t.pre →
      Q response payment t.post) :
    ∀ i response payment, (v.threads i).call = call → (v.threads i).Paid response payment →
      Q response payment v.shared := by
  refine h.sent_induction sends (P := fun v => ∀ i response payment, (v.threads i).call = call →
    (v.threads i).Paid response payment → Q response payment v.shared)
    (fun w arrivals i response payment _ paid => ?_) ?_
  · obtain ⟨readings, arrived, hcall⟩ := arrivals.arrived i
    rw [hcall] at paid
    exact absurd paid Connection.Paid.not_arrived
  · intro t v enabled coherent faithful sent ih i response payment hcall paid
    rw [calls_apply enabled] at hcall
    obtain ⟨hpre, hbefore, step⟩ := enabled
    by_cases hi : i = t.thread
    · subst hi
      rw [Pool.World.apply_threads_self] at paid
      rw [← hbefore] at hcall
      exact given t response payment step coherent faithful hcall paid
    · rw [Pool.World.apply_threads_of_ne v t hi] at paid
      have before := ih i response payment hcall paid
      rw [← hpre] at before
      exact kept t response payment step coherent faithful sent before

/-- An answered authorization is recorded under its key. -/
theorem Served.recorded (h : Served app pydantic sha256 lib ts v)
    (integers : ∀ n, pydantic.readInt (.int n) = some n) {e : ExpectedPayment} :
    ∀ i response payment, (v.threads i).call = (e.input runId profile).call →
      (v.threads i).Paid response payment →
      Keeps sha256 (idempotencyKey runId profile e) (.authorize (e.input runId profile).command)
        payment v.shared ∧ response.status = createdStatus response.replayed := by
  refine h.paid_induction (S := fun _ => True) (fun _ => trivial)
    (Q := fun response payment db => Keeps sha256 (idempotencyKey runId profile e)
      (.authorize (e.input runId profile).command) payment db ∧
        response.status = createdStatus response.replayed) ?_ ?_
  · intro t response payment step coherent faithful hcall paid
    obtain ⟨client, handled, hkey⟩ := step.authorizes integers faithful hcall
    exact step.recorded coherent handled hkey paid
  · intro t response payment step coherent _ _ ⟨keeps, hstatus⟩
    exact ⟨keeps.kept (step.effects coherent), hstatus⟩

/-! ## Runs of the load -/

section Load

variable (h : Served app pydantic sha256 lib ts v)
  (integers : ∀ n, pydantic.readInt (.int n) = some n)
  (hexpected : expectedPayments profile = .ok expected)
  (scripted : ∀ i, ScriptCall runId profile (v.threads i).call)

include h integers hexpected scripted

/-- **The rows of a load** are those of creations, of payments its profile expects. -/
theorem Served.loaded :
    ∃ cs : List (Creation runId profile), CreatedBy cs v.shared ∧ ∀ c ∈ cs, c.expected ∈ expected := by
  refine h.sent_induction scripted
    (P := fun v => ∃ cs : List (Creation runId profile), CreatedBy cs v.shared ∧
      ∀ c ∈ cs, c.expected ∈ expected) (fun w arrivals => ?_) ?_
  · rw [arrivals.empty]
    exact ⟨[], ⟨rfl, rfl, rfl, rfl⟩, fun c mem => absurd mem List.not_mem_nil⟩
  · intro t v enabled coherent faithful sent ⟨cs, rows, expects⟩
    rw [← enabled.1] at rows
    show ∃ cs : List (Creation runId profile), CreatedBy cs t.post ∧ _
    rcases enabled.2.2.loads integers coherent faithful hexpected sent with
      same | ⟨e, mem, payment, created⟩
    · exact ⟨cs, same ▸ rows, expects⟩
    · obtain ⟨c, hc, rows⟩ := rows.created created
      refine ⟨cs ++ [c], rows, fun d hd => ?_⟩
      rcases List.mem_append.mp hd with hd | hd
      · exact expects d hd
      · rw [List.mem_singleton.mp hd, hc]
        exact mem

/-- A retrieved payment is the stored one. -/
theorem Served.retrieved {paymentId : String} : ∀ i response payment,
    (v.threads i).call = .retrievePayment paymentId → (v.threads i).Paid response payment →
    response.status = 200 ∧ ∃ row, v.shared.payments.get paymentId = some row ∧
      payment = .fromRecord row := by
  refine h.paid_induction scripted (Q := fun response payment db => response.status = 200 ∧
    ∃ row, db.payments.get paymentId = some row ∧ payment = .fromRecord row) ?_ ?_
  · intro t response payment step coherent faithful hcall paid
    have hadmit := faithful step.unended
    rw [hcall] at hadmit
    have handled := Handling.asking_of_origin (Except.ok.inj hadmit).symm
    obtain rfl := step.asked handled paid.answered
    obtain ⟨row, heq, stored, rfl, _⟩ := Question.answer_payment (parseBody_eq_some paid.parsed)
    cases heq
    rw [Question.answer_stored stored, step.reads handled]
    exact ⟨rfl, row, stored, rfl⟩
  · intro t response payment step coherent faithful sent ⟨hstatus, row, stored, hpayment⟩
    refine ⟨hstatus, row, ?_, hpayment⟩
    rcases step.loads integers coherent faithful hexpected sent with same | ⟨_, _, _, created⟩
    · rw [same]
      exact stored
    · exact Table.get_insert_of_some created.payments stored

end Load

/-- What is recorded under the key of an expected payment is what its creation answers. -/
theorem creation_of_keeps {cs : List (Creation runId profile)} {db : Database}
    (numbered : WellNumbered expected) (rows : CreatedBy cs db)
    (expects : ∀ c ∈ cs, c.expected ∈ expected) {e : ExpectedPayment} (mem : e ∈ expected)
    {command : KeyedCommand} {payment : PaymentResponse}
    (keeps : Keeps sha256 (idempotencyKey runId profile e) command payment db) :
    ∃ c ∈ cs, c.expected = e ∧ payment = .fromRecord c.payment := by
  obtain ⟨record, snapshot, stored, _, hsnapshot, rfl⟩ := keeps
  obtain ⟨hmem, hkey⟩ := Table.get_eq_some stored
  rw [rows.records] at hmem
  obtain ⟨c, hc, rfl⟩ := List.mem_map.mp hmem
  have same : c.expected = e :=
    List.inj_on_of_nodup_map (numbered.keys_nodup runId profile) (expects c hc) mem hkey
  cases hsnapshot
  exact ⟨c, hc, same, rfl⟩

/-- **The verifier passes the load it is written for**: in every run of scripted requests in which
each payment of the profile was answered, the report of the verifier is passed. What is answered is
recorded, so each expected payment was created, and once, since the key of an input is used for no
other (`Server.loads`); the checks then compare the rows of the creations with the profile
(`checks_passed`). -/
theorem load_verifies (h : Served app pydantic sha256 lib ts v)
    (integers : ∀ n, pydantic.readInt (.int n) = some n) (available : profile ∈ availableProfiles)
    (scripted : ∀ i, ScriptCall runId profile (v.threads i).call)
    (answered : ∀ input ∈ authorizations runId profile, ∃ i response payment,
      (v.threads i).call = input.call ∧ (v.threads i).Paid response payment) :
    ∃ report, verifyDatabase v.shared runId profile = .ok report ∧ report.passed = true := by
  obtain ⟨expected, hexpected⟩ := expectedPayments_available available
  have numbered := expectedPayments_wellNumbered hexpected
  obtain ⟨cs, rows, expects⟩ := h.loaded integers hexpected scripted
  have perm : (cs.map (·.expected)).Perm expected := by
    refine (List.perm_ext_iff_of_nodup rows.expected_nodup numbered.distinct.of_map).mpr
      fun e => ⟨fun mem => ?_, fun mem => ?_⟩
    · obtain ⟨c, hc, rfl⟩ := List.mem_map.mp mem
      exact expects c hc
    · have hinput : e.input runId profile ∈ authorizations runId profile := by
        rw [authorizations_expected runId profile hexpected]
        exact List.mem_map_of_mem mem
      obtain ⟨i, response, payment, sent, paid⟩ := answered _ hinput
      have keeps := (h.recorded integers i response payment sent paid).1
      obtain ⟨c, hc, hexpected, _⟩ := creation_of_keeps numbered rows expects mem keeps
      exact List.mem_map.mpr ⟨c, hc, hexpected⟩
  unfold verifyDatabase
  rw [if_neg (not_not.mpr (List.contains_iff_mem.mpr available)), hexpected, rows.readRun_eq]
  exact ⟨_, rfl, checks_passed perm rows.ids_nodup (expectedPayments_approvals hexpected)⟩

/-! ## The checks of the script -/

theorem bodyHas_of {response : Response} {payment : PaymentResponse}
    (h : parseBody response = some payment) (compared : PaymentResponse → Bool) :
    bodyHas response compared = compared payment := by
  unfold bodyHas
  rw [h]
  rfl

theorem sameMoney_creation (c : Creation runId profile) :
    sameMoney (c.expected.input runId profile) (.fromRecord c.payment) = true := by
  unfold sameMoney
  rw [Bool.and_eq_true]
  exact ⟨decide_eq_true c.amount, decide_eq_true c.currency⟩

/-- A first answer with a creation passes the checks of `authorize`. -/
theorem authorizeChecks_passes (c : Creation runId profile) {response : Response}
    (status : response.status = 201)
    (parsed : parseBody response = some (.fromRecord c.payment)) :
    Passes (authorizeChecks (c.expected.input runId profile) response) := by
  unfold Passes authorizeChecks
  simp only [List.all_cons, List.all_nil, Bool.and_true, Bool.and_eq_true, bodyHas_of parsed]
  refine ⟨decide_eq_true status, decide_eq_true c.reference, sameMoney_creation c,
    decide_eq_true (c.status.trans ?_)⟩
  unfold ExpectedPayment.status ExpectedPayment.input paymentInput
  cases c.expected.approved with
  | _ => rfl

/-- A replay of a creation passes the checks of `replay`. -/
theorem replayChecks_passes (c : Creation runId profile) {response : Response}
    (status : response.status = 200) (replayed : response.replayed = true)
    (parsed : parseBody response = some (.fromRecord c.payment)) :
    Passes (replayChecks (c.expected.input runId profile) c.payment.id response) := by
  unfold Passes replayChecks
  simp only [List.all_cons, List.all_nil, Bool.and_true, Bool.and_eq_true, bodyHas_of parsed]
  exact ⟨decide_eq_true status, replayed, decide_eq_true rfl, sameMoney_creation c⟩

/-- A retrieved creation passes the checks of `retrieve`. -/
theorem retrieveChecks_passes (c : Creation runId profile) {response : Response}
    (status : response.status = 200)
    (parsed : parseBody response = some (.fromRecord c.payment)) :
    Passes (retrieveChecks c.payment.id (reference runId profile c.expected) response) := by
  unfold Passes retrieveChecks
  simp only [List.all_cons, List.all_nil, Bool.and_true, Bool.and_eq_true, bodyHas_of parsed]
  exact ⟨decide_eq_true status, decide_eq_true rfl, decide_eq_true c.reference⟩

/-- A retrieval answered after the payment was answered is answered with a payment. -/
theorem Served.found (h : Served app pydantic sha256 lib ts v)
    {before later : List (Pool.Transition Database ι Connection)}
    {t u : Pool.Transition Database ι Connection} (split : ts = before ++ t :: later)
    {replayed : Bool} {payment : PaymentResponse} (earlier : AnswersPayment replayed payment t)
    (mem : u ∈ later) (asked : (v.threads u.thread).call = .retrievePayment payment.id)
    {again : Response} (answered : Answers again u) :
    ∃ other, (v.threads u.thread).Paid again other := by
  have ordered : InOrder t u := by
    have pairwise := h.answers.2
    rw [split] at pairwise
    exact (List.pairwise_cons.mp (List.pairwise_append.mp pairwise).2.1).1 u mem
  obtain ⟨w, arrivals, run⟩ := h
  obtain ⟨front, rest, x, _, first, enabled, run'⟩ :=
    run.split (split ▸ List.mem_append_right _ (List.mem_cons_of_mem t mem))
  have served : Served app pydantic sha256 lib front x := ⟨w, arrivals, first⟩
  have handled : u.before.handling = .asking (.payment payment.id) := by
    have hcall : (x.threads u.thread).call = .retrievePayment payment.id := by
      rw [← calls_apply enabled u.thread, ← (requests_of_run run' u.thread).1]
      exact asked
    have hadmit := served.faithful u.thread (enabled.2.1 ▸ enabled.2.2.unended)
    rw [hcall] at hadmit
    rw [enabled.2.1]
    exact Handling.asking_of_origin (Except.ok.inj hadmit).symm
  obtain ⟨other, rfl, _⟩ := ordered.found replayed payment again earlier handled answered
  refine ⟨other, ending_of_run run' ?_, rfl⟩
  rw [Pool.World.apply_threads_self]
  exact answered

/-- **The script's checks**, against the answer `response` with a payment that one connection got to an
input. A first answer passes those of `authorize`, a replay of the same input those of `replay`, and a
reading of the payment those of `retrieve` wherever it was answered with a payment. A reading answered
after `response` was is always answered so; one answered before may find nothing. -/
structure ScriptChecked (ts : List (Pool.Transition Database ι Connection))
    (v : Pool.World Database ι Connection) (input : PaymentInput) (response : Response)
    (payment : PaymentResponse) : Prop where
  first : response.replayed = false → Passes (authorizeChecks input response)
  replay : ∀ j again other, (v.threads j).call = input.call → (v.threads j).Paid again other →
    again.replayed = true → Passes (replayChecks input payment.id again)
  retrieve : ∀ j again other, (v.threads j).call = .retrievePayment payment.id →
    (v.threads j).Paid again other →
      Passes (retrieveChecks payment.id input.merchantReference again)
  retrieveLater : ∀ before t later, ts = before ++ t :: later → Answers response t →
    ∀ u ∈ later, (v.threads u.thread).call = .retrievePayment payment.id → ∀ again,
      Answers again u → Passes (retrieveChecks payment.id input.merchantReference again)

/-- **The script's checks pass** on every answer with a payment, and on every retrieval that follows
one. -/
theorem load_checks (h : Served app pydantic sha256 lib ts v)
    (integers : ∀ n, pydantic.readInt (.int n) = some n) (available : profile ∈ availableProfiles)
    (scripted : ∀ i, ScriptCall runId profile (v.threads i).call)
    {input : PaymentInput} (authorized : input ∈ authorizations runId profile) {i : ι}
    {response : Response} {payment : PaymentResponse}
    (sent : (v.threads i).call = input.call) (paid : (v.threads i).Paid response payment) :
    ScriptChecked ts v input response payment := by
  obtain ⟨expected, hexpected⟩ := expectedPayments_available available
  have numbered := expectedPayments_wellNumbered hexpected
  obtain ⟨cs, rows, expects⟩ := h.loaded integers hexpected scripted
  rw [authorizations_expected runId profile hexpected] at authorized
  obtain ⟨e, mem, rfl⟩ := List.mem_map.mp authorized
  obtain ⟨keeps, hstatus⟩ := h.recorded integers i response payment sent paid
  obtain ⟨c, hc, rfl, rfl⟩ := creation_of_keeps numbered rows expects mem keeps
  have read : ∀ j again other, (v.threads j).call = .retrievePayment c.payment.id →
      (v.threads j).Paid again other →
        Passes (retrieveChecks c.payment.id (reference runId profile c.expected) again) := by
    intro j again other asked paid'
    obtain ⟨hstatus', row, stored, rfl⟩ :=
      h.retrieved integers hexpected scripted j again other asked paid'
    obtain ⟨hmem, hid⟩ := Table.get_eq_some stored
    rw [rows.payments] at hmem
    obtain ⟨d, hd, rfl⟩ := List.mem_map.mp hmem
    obtain rfl : d = c := List.inj_on_of_nodup_map rows.ids_nodup hd hc hid
    exact retrieveChecks_passes d hstatus' paid'.parsed
  exact
    { first := fun first => by
        rw [first] at hstatus
        exact authorizeChecks_passes c hstatus paid.parsed
      replay := fun j again other sent' paid' replayed => by
        obtain ⟨keeps', hstatus'⟩ := h.recorded integers j again other sent' paid'
        obtain ⟨d, hd, hsame, rfl⟩ := creation_of_keeps numbered rows expects mem keeps'
        obtain rfl : d = c := List.inj_on_of_nodup_map rows.expected_nodup hd hc hsame
        rw [replayed] at hstatus'
        exact replayChecks_passes d hstatus' replayed paid'.parsed
      retrieve := read
      retrieveLater := fun before t later split answered u mem asked again hagain => by
        obtain ⟨status, replayed, body⟩ := response
        obtain rfl : body = .payment (.fromRecord c.payment) := parseBody_eq_some paid.parsed
        obtain ⟨other, paid'⟩ := h.found split ⟨status, answered⟩ mem asked hagain
        exact read u.thread again other asked paid' }

/-! ## A burst -/

/-- The requests of a small burst: an authorization, the same again, and a reading. -/
inductive Loader where
  | setup
  | replay
  | reader
  deriving DecidableEq, Repr

/-- The authorization of the burst. -/
def burstInput : PaymentInput := paymentInput "a1" "idempotent-burst" "setup" 0 .approved

/-- The request of each loader. -/
def Loader.call : Loader → Call
  | .setup | .replay => burstInput.call
  | .reader => .retrievePayment "pay_1"

/-- What each loader's handling draws. -/
def Loader.draw : Loader → String
  | .setup => "1"
  | .replay | .reader => "2"

/-- The burst before its first request. -/
def burstStart : Pool.World Database Loader Connection where
  shared := .empty
  threads loader := .arrive shopApp plainPydantic shopLibrary (readingsOf loader.draw 0) loader.call

theorem burstStart_arrivals : Arrivals shopApp plainPydantic shopLibrary burstStart :=
  ⟨rfl, fun loader => ⟨_, loader.call, rfl⟩⟩

/-- Both look the key up; one claims it, and the other reads what was recorded. -/
def burstSchedule : List Loader := [.setup, .replay, .setup, .replay, .replay, .reader]

def burstLoad : Pool.World Database Loader Connection :=
  Pool.operate (Connection.next plainPydantic id shopLibrary) burstSchedule burstStart

/-- The answer of a connection, and the payment in it. -/
def Connection.paid (connection : Connection) : Option (Response × PaymentResponse) :=
  match connection.ending with
  | some (.answered response) => (parseBody response).map fun payment => (response, payment)
  | _ => none

theorem Connection.paid_eq_some {connection : Connection} {response : Response}
    {payment : PaymentResponse} (h : connection.paid = some (response, payment)) :
    connection.Paid response payment := by
  unfold paid at h
  split at h
  · next answer answered =>
    obtain ⟨found, parsed, heq⟩ := Option.map_eq_some_iff.mp h
    cases heq
    exact ⟨answered, parsed⟩
  · cases h

theorem burstLoad_served : ∃ ts, Served shopApp plainPydantic id shopLibrary ts burstLoad ∧
    ∀ loader, (burstLoad.threads loader).call = loader.call := by
  obtain ⟨ts, served, calls⟩ :=
    Served.operate_calls plainPydantic id shopLibrary burstStart_arrivals burstSchedule
  refine ⟨ts, served, fun loader => ?_⟩
  unfold burstLoad
  rw [calls]
  cases loader with
  | _ => rfl

/-- What the connections of the burst were answered with. -/
theorem burstLoad_paid (loader : Loader) : ∃ response payment,
    (burstLoad.threads loader).Paid response payment ∧
      response.replayed = decide (loader = .replay) ∧ payment.id = "pay_1" := by
  have answers : (burstLoad.threads loader).paid.map (fun answer =>
      (answer.1.replayed, answer.2.id)) = some (decide (loader = .replay), "pay_1") := by
    cases loader with
    | _ => decide +kernel
  obtain ⟨⟨response, payment⟩, paid, heq⟩ := Option.map_eq_some_iff.mp answers
  exact ⟨response, payment, Connection.paid_eq_some paid, congrArg Prod.fst heq,
    congrArg Prod.snd heq⟩

theorem burst_scripted (loader : Loader) :
    ScriptCall "a1" "idempotent-burst" (burstLoad.threads loader).call := by
  obtain ⟨_, _, calls⟩ := burstLoad_served
  rw [calls]
  cases loader with
  | reader => exact .retrieve "pay_1"
  | _ => exact .authorize (List.mem_singleton_self burstInput)

/-- The burst passes the verifier. -/
theorem burst_verifies : ∃ report,
    verifyDatabase burstLoad.shared "a1" "idempotent-burst" = .ok report ∧ report.passed = true := by
  obtain ⟨ts, h, calls⟩ := burstLoad_served
  obtain ⟨response, payment, paid, _⟩ := burstLoad_paid .setup
  refine load_verifies h (fun _ => rfl) (by decide) burst_scripted fun input mem => ?_
  rw [show input = burstInput from List.mem_singleton.mp mem]
  exact ⟨.setup, response, payment, calls .setup, paid⟩

/-- Its answers pass the checks of the script. -/
theorem burst_checks : ∃ response again read,
    (burstLoad.threads .setup).ending = some (.answered response) ∧
      (burstLoad.threads .replay).ending = some (.answered again) ∧
      (burstLoad.threads .reader).ending = some (.answered read) ∧
      Passes (authorizeChecks burstInput response) ∧
      Passes (replayChecks burstInput "pay_1" again) ∧
      Passes (retrieveChecks "pay_1" burstInput.merchantReference read) := by
  obtain ⟨ts, h, calls⟩ := burstLoad_served
  obtain ⟨response, payment, paid, first, hid⟩ := burstLoad_paid .setup
  obtain ⟨again, _, paid', replayed, _⟩ := burstLoad_paid .replay
  obtain ⟨read, _, paid'', _⟩ := burstLoad_paid .reader
  have checks := load_checks h (fun _ => rfl) (by decide) burst_scripted
    (List.mem_singleton_self burstInput) (calls .setup) paid
  rw [← hid]
  refine ⟨response, again, read, paid.answered, paid'.answered, paid''.answered,
    checks.first first, checks.replay .replay again _ (calls .replay) paid' replayed,
    checks.retrieve .reader read _ ?_ paid''⟩
  rw [calls .reader, hid]
  rfl

end Runs

end PaymentLab.Api
