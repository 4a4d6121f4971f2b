import Mathlib.Tactic.Common

/-!
# Transactional sessions

A service function runs against a session of a shared database. The session sees the database as it
stands in its own transaction (`working`), every other session sees `committed`, and an exception
leaves the session where it stood: only `commit` publishes, only `rollback` discards. The session
also holds the objects it loaded and has not expired (`identity`), whether it is in a transaction
(`begun`), and whether it reserved the writer with `BEGIN IMMEDIATE`.

`Service` is the monad of such functions, exceptions included. The `_apply` lemmas run one
primitive; they are the simp set by which a service function is executed symbolically. A block of
statements that neither commits nor rolls back is `Silent`: it leaves the committed database alone
(`Silent.committed`), which is what makes a failed transaction invisible.

What a lock does to another session is not part of a session. Into which steps a program is cut, so
that another may act in between, is for the model that uses the library to say and to justify.
-/

namespace Transactional

/-- A session over a database `δ` with loaded objects `γ`. `working` is the database as the open
transaction sees it; a commit makes it the committed one, a rollback forgets it. -/
structure Session (δ γ : Type) where
  committed : δ
  working : δ
  begun : Bool
  reserved : Bool
  identity : γ

variable {δ γ ε α β : Type}

/-- A session at the start of a call: no transaction of its own, some objects still loaded. -/
def Session.start (db : δ) (identity : γ) : Session δ γ :=
  { committed := db, working := db, begun := false, reserved := false, identity := identity }

/-- The session holds neither the writer nor an uncommitted change, so that another may write. -/
def Session.Released (s : Session δ γ) : Prop := s.reserved = false ∧ s.working = s.committed

/-- Outside a transaction the session holds nothing. -/
def Session.Guarded (s : Session δ γ) : Prop := s.begun = false → s.Released

/-- A function of a session that may raise. The session survives the exception. -/
def Service (δ γ ε α : Type) : Type := Session δ γ → Except ε α × Session δ γ

namespace Service

instance : Monad (Service δ γ ε) where
  pure a := fun s => (.ok a, s)
  bind x f := fun s =>
    match x s with
    | (.ok a, s') => f a s'
    | (.error e, s') => (.error e, s')

instance : MonadExceptOf ε (Service δ γ ε) where
  throw e := fun s => (.error e, s)
  tryCatch x h := fun s =>
    match x s with
    | (.ok a, s') => (.ok a, s')
    | (.error e, s') => h e s'

/-- Read the database inside the session's transaction. -/
def query (f : δ → α) : Service δ γ ε α := fun s => (.ok (f s.working), { s with begun := true })

/-- Send staged changes to the database inside the session's transaction. -/
def flush (f : δ → Except ε δ) : Service δ γ ε Unit := fun s =>
  match f s.working with
  | .ok d => (.ok (), { s with working := d, begun := true })
  | .error e => (.error e, { s with begun := true })

/-- Publish the transaction. The loaded objects stay loaded. -/
def commit : Service δ γ ε Unit := fun s =>
  (.ok (), { s with committed := s.working, begun := false, reserved := false })

/-- Discard the transaction and expire every loaded object. -/
def rollback [EmptyCollection γ] : Service δ γ ε Unit := fun s =>
  (.ok (), { s with working := s.committed, begun := false, reserved := false, identity := ∅ })

/-- Expire every loaded object. -/
def expireAll [EmptyCollection γ] : Service δ γ ε Unit := fun s =>
  (.ok (), { s with identity := ∅ })

/-- `BEGIN IMMEDIATE`: reserve the writer. -/
def beginImmediate : Service δ γ ε Unit := fun s => (.ok (), { s with begun := true, reserved := true })

/-- Read the loaded objects. -/
def loaded : Service δ γ ε γ := fun s => (.ok s.identity, s)

/-- Change the loaded objects. -/
def remember (f : γ → γ) : Service δ γ ε Unit := fun s =>
  (.ok (), { s with identity := f s.identity })

/-- `session.in_transaction()`. -/
def inTransaction : Service δ γ ε Bool := fun s => (.ok s.begun, s)

/-- Read through an identity map: a loaded object is answered as it is, without a query; a row that
is read becomes a loaded object. -/
def getThrough (find : γ → Option α) (read : δ → Option α) (keep : α → γ → γ) :
    Service δ γ ε (Option α) := do
  match find (← loaded) with
  | some object => return some object
  | none =>
    match ← query read with
    | some row => remember (keep row); return some row
    | none => return none

/-! ## Running a program -/

@[simp] theorem pure_apply (a : α) (s : Session δ γ) :
    (pure a : Service δ γ ε α) s = (.ok a, s) := rfl

@[simp] theorem throw_apply (e : ε) (s : Session δ γ) :
    (throw e : Service δ γ ε α) s = (.error e, s) := rfl

theorem bind_apply (x : Service δ γ ε α) (f : α → Service δ γ ε β) (s : Session δ γ) :
    (x >>= f) s =
      match x s with
      | (.ok a, s') => f a s'
      | (.error e, s') => (.error e, s') := rfl

theorem tryCatch_apply (x : Service δ γ ε α) (h : ε → Service δ γ ε α) (s : Session δ γ) :
    (tryCatch x h : Service δ γ ε α) s =
      match x s with
      | (.ok a, s') => (.ok a, s')
      | (.error e, s') => h e s' := rfl

theorem bind_ok {x : Service δ γ ε α} {f : α → Service δ γ ε β} {s s' : Session δ γ} {a : α}
    (h : x s = (.ok a, s')) : (x >>= f) s = f a s' := by
  rw [bind_apply, h]

theorem bind_error {x : Service δ γ ε α} {f : α → Service δ γ ε β} {s s' : Session δ γ} {e : ε}
    (h : x s = (.error e, s')) : (x >>= f) s = (.error e, s') := by
  rw [bind_apply, h]

theorem tryCatch_ok {x : Service δ γ ε α} {h : ε → Service δ γ ε α} {s s' : Session δ γ} {a : α}
    (hx : x s = (.ok a, s')) : (tryCatch x h : Service δ γ ε α) s = (.ok a, s') := by
  rw [tryCatch_apply, hx]

theorem tryCatch_error {x : Service δ γ ε α} {h : ε → Service δ γ ε α} {s s' : Session δ γ}
    {e : ε} (hx : x s = (.error e, s')) : (tryCatch x h : Service δ γ ε α) s = h e s' := by
  rw [tryCatch_apply, hx]

@[simp] theorem query_apply (f : δ → α) (s : Session δ γ) :
    (query f : Service δ γ ε α) s = (.ok (f s.working), { s with begun := true }) := rfl

@[simp] theorem commit_apply (s : Session δ γ) :
    (commit : Service δ γ ε Unit) s =
      (.ok (), { s with committed := s.working, begun := false, reserved := false }) := rfl

@[simp] theorem rollback_apply [EmptyCollection γ] (s : Session δ γ) :
    (rollback : Service δ γ ε Unit) s =
      (.ok (), { s with working := s.committed, begun := false, reserved := false, identity := ∅ }) := rfl

@[simp] theorem beginImmediate_apply (s : Session δ γ) :
    (beginImmediate : Service δ γ ε Unit) s = (.ok (), { s with begun := true, reserved := true }) := rfl

@[simp] theorem expireAll_apply [EmptyCollection γ] (s : Session δ γ) :
    (expireAll : Service δ γ ε Unit) s = (.ok (), { s with identity := ∅ }) := rfl

@[simp] theorem loaded_apply (s : Session δ γ) :
    (loaded : Service δ γ ε γ) s = (.ok s.identity, s) := rfl

@[simp] theorem inTransaction_apply (s : Session δ γ) :
    (inTransaction : Service δ γ ε Bool) s = (.ok s.begun, s) := rfl

@[simp] theorem remember_apply (f : γ → γ) (s : Session δ γ) :
    (remember f : Service δ γ ε Unit) s = (.ok (), { s with identity := f s.identity }) := rfl

theorem flush_ok {f : δ → Except ε δ} {s : Session δ γ} {d : δ} (h : f s.working = .ok d) :
    (flush f : Service δ γ ε Unit) s = (.ok (), { s with working := d, begun := true }) := by
  unfold flush; rw [h]

theorem flush_error {f : δ → Except ε δ} {s : Session δ γ} {e : ε} (h : f s.working = .error e) :
    (flush f : Service δ γ ε Unit) s = (.error e, { s with begun := true }) := by
  unfold flush; rw [h]

/-- A read through the identity map, as a function of the loaded objects and the stored rows. -/
theorem getThrough_apply (find : γ → Option α) (read : δ → Option α) (keep : α → γ → γ)
    (s : Session δ γ) :
    (getThrough find read keep : Service δ γ ε (Option α)) s =
      match find s.identity with
      | some object => (.ok (some object), s)
      | none =>
        match read s.working with
        | some row => (.ok (some row), { s with begun := true, identity := keep row s.identity })
        | none => (.ok none, { s with begun := true }) := by
  unfold getThrough
  simp only [bind_apply, loaded_apply]
  cases find s.identity with
  | some object => rfl
  | none =>
    simp only [bind_apply, query_apply]
    cases read s.working <;> rfl

/-! ## Reading a normal return backwards

A program that returned did so through every one of its statements. These lemmas peel the statements
off, each with the session it left. -/

theorem bind_eq_ok {x : Service δ γ ε α} {f : α → Service δ γ ε β} {s s'' : Session δ γ} {b : β}
    (h : (x >>= f) s = (.ok b, s'')) : ∃ a s', x s = (.ok a, s') ∧ f a s' = (.ok b, s'') := by
  rw [bind_apply] at h
  split at h
  · next a s' hx => exact ⟨a, s', hx, h⟩
  · cases h

theorem pure_eq_ok {a b : α} {s s' : Session δ γ}
    (h : (pure a : Service δ γ ε α) s = (.ok b, s')) : a = b ∧ s = s' := by
  cases h
  exact ⟨rfl, rfl⟩

theorem query_eq_ok {f : δ → α} {s s' : Session δ γ} {a : α}
    (h : (query f : Service δ γ ε α) s = (.ok a, s')) :
    a = f s.working ∧ s' = { s with begun := true } := by
  cases h
  exact ⟨rfl, rfl⟩

theorem flush_eq_ok {f : δ → Except ε δ} {s s' : Session δ γ} {u : Unit}
    (h : (flush f : Service δ γ ε Unit) s = (.ok u, s')) :
    ∃ d, f s.working = .ok d ∧ s' = { s with working := d, begun := true } := by
  unfold flush at h
  split at h
  · next d hd => cases h; exact ⟨d, hd, rfl⟩
  · cases h

/-- A flush that raised left the rows as they were. -/
theorem flush_eq_error {f : δ → Except ε δ} {s s' : Session δ γ} {e : ε}
    (h : (flush f : Service δ γ ε Unit) s = (.error e, s')) :
    f s.working = .error e ∧ s' = { s with begun := true } := by
  unfold flush at h
  split at h
  · cases h
  · next heq => cases h; exact ⟨heq, rfl⟩

/-- A handler that only raises again does not answer. -/
theorem tryCatch_eq_ok {x : Service δ γ ε α} {h : ε → Service δ γ ε α} {s s' : Session δ γ} {a : α}
    (raises : ∀ e t, ∃ e' t', h e t = (.error e', t'))
    (hx : (tryCatch x h : Service δ γ ε α) s = (.ok a, s')) : x s = (.ok a, s') := by
  rw [tryCatch_apply] at hx
  split at hx
  · next heq => rw [heq, hx]
  · next e t heq =>
    obtain ⟨e', t', hraise⟩ := raises e t
    rw [hraise] at hx
    cases hx

/-- Where a sequence of two programs ended: in the first, with its exception, or in the second. -/
theorem bind_cases {x : Service δ γ ε α} {f : α → Service δ γ ε β} {s s'' : Session δ γ}
    {r : Except ε β} (h : (x >>= f) s = (r, s'')) :
    (∃ e, x s = (.error e, s'') ∧ r = .error e) ∨ ∃ a s', x s = (.ok a, s') ∧ f a s' = (r, s'') := by
  rw [bind_apply] at h
  split at h
  · next a s' hx => exact .inr ⟨a, s', hx, h⟩
  · next e s' hx => cases h; exact .inl ⟨e, hx, rfl⟩

/-- A program whose value is wrapped up ends as the program does. -/
theorem bind_pure_cases {x : Service δ γ ε α} {f : α → β} {s s' : Session δ γ} {r : Except ε β}
    (h : (x >>= fun a => pure (f a)) s = (r, s')) : ∃ rx, x s = (rx, s') ∧ r = rx.map f := by
  rcases bind_cases h with ⟨e, hx, rfl⟩ | ⟨a, s₁, hx, hrest⟩
  · exact ⟨_, hx, rfl⟩
  · cases hrest
    exact ⟨_, hx, rfl⟩

/-- Where a guarded program ended: by itself, or in the handler. -/
theorem tryCatch_cases {x : Service δ γ ε α} {h : ε → Service δ γ ε α} {s s'' : Session δ γ}
    {r : Except ε α} (hx : (tryCatch x h : Service δ γ ε α) s = (r, s'')) :
    (∃ a, x s = (.ok a, s'') ∧ r = .ok a) ∨ ∃ e s', x s = (.error e, s') ∧ h e s' = (r, s'') := by
  rw [tryCatch_apply] at hx
  split at hx
  · next a s' heq => cases hx; exact .inl ⟨a, heq, rfl⟩
  · next e s' heq => exact .inr ⟨e, s', heq, hx⟩

/-- A guard that discards the transaction and raises again gives the result of what it guards. -/
theorem discard_cases [EmptyCollection γ] {x : Service δ γ ε α} {s s' : Session δ γ}
    {r : Except ε α}
    (h : (tryCatch x fun e => rollback >>= fun _ => throw e : Service δ γ ε α) s = (r, s')) :
    ∃ s₁, x s = (r, s₁) ∧ s'.committed = s₁.committed ∧
      (((∃ a, r = .ok a) ∧ s' = s₁) ∨ s'.identity = ∅) := by
  rcases tryCatch_cases h with ⟨a, hx, rfl⟩ | ⟨e, s₁, hx, hhandler⟩
  · exact ⟨s', hx, rfl, .inl ⟨⟨a, rfl⟩, rfl⟩⟩
  · rw [bind_ok (rollback_apply s₁)] at hhandler
    cases hhandler
    exact ⟨s₁, hx, rfl, .inr rfl⟩

/-! ## Blocks that only read -/

/-- A program that may begin a transaction and does nothing else to the session. -/
def Quiet (x : Service δ γ ε α) : Prop := ∀ s, ∃ begun, (x s).2 = { s with begun := begun }

theorem quiet_pure (a : α) : Quiet (pure a : Service δ γ ε α) := fun s => ⟨s.begun, rfl⟩

theorem quiet_throw (e : ε) : Quiet (throw e : Service δ γ ε α) := fun s => ⟨s.begun, rfl⟩

theorem quiet_query (f : δ → α) : Quiet (query f : Service δ γ ε α) := fun _ => ⟨true, rfl⟩

theorem Quiet.bind {x : Service δ γ ε α} {f : α → Service δ γ ε β} (hx : Quiet x)
    (hf : ∀ a, Quiet (f a)) : Quiet (x >>= f) := by
  intro s
  rw [bind_apply]
  obtain ⟨begun, hs⟩ := hx s
  split
  · next a s' h =>
    rw [h] at hs
    obtain ⟨begun', hs'⟩ := hf a s'
    exact ⟨begun', by rw [hs', show s' = _ from hs]⟩
  · next e s' h =>
    rw [h] at hs
    exact ⟨begun, hs⟩

/-- The session a reading program left. -/
theorem Quiet.session {x : Service δ γ ε α} (hx : Quiet x) {s s' : Session δ γ} {r : Except ε α}
    (h : x s = (r, s')) : ∃ begun, s' = { s with begun := begun } := by
  obtain ⟨begun, hs⟩ := hx s
  rw [h] at hs
  exact ⟨begun, hs⟩

/-! ## Blocks that publish nothing -/

/-- A program that leaves the committed database alone, from every session. What it does to the
working one is not said. -/
def Silent (x : Service δ γ ε α) : Prop := ∀ s, (x s).2.committed = s.committed

/-- The committed database after a silent program. -/
theorem Silent.committed {x : Service δ γ ε α} (hx : Silent x) {s s' : Session δ γ}
    {r : Except ε α} (h : x s = (r, s')) : s'.committed = s.committed := by
  have hs := hx s
  rwa [h] at hs

theorem silent_pure (a : α) : Silent (pure a : Service δ γ ε α) := fun _ => rfl

theorem silent_throw (e : ε) : Silent (throw e : Service δ γ ε α) := fun _ => rfl

theorem silent_query (f : δ → α) : Silent (query f : Service δ γ ε α) := fun _ => rfl

theorem silent_remember (f : γ → γ) : Silent (remember f : Service δ γ ε Unit) := fun _ => rfl

theorem silent_flush (f : δ → Except ε δ) : Silent (flush f : Service δ γ ε Unit) := by
  intro s
  unfold flush
  split <;> rfl

theorem Silent.bind {x : Service δ γ ε α} {f : α → Service δ γ ε β} (hx : Silent x)
    (hf : ∀ a, Silent (f a)) : Silent (x >>= f) := by
  intro s
  rw [bind_apply]
  have hs := hx s
  split
  · next a s' h => rw [hf a s', ← hs, h]
  · next e s' h => rw [← hs, h]

theorem Silent.tryCatch {x : Service δ γ ε α} {h : ε → Service δ γ ε α} (hx : Silent x)
    (hh : ∀ e, Silent (h e)) : Silent (tryCatch x h : Service δ γ ε α) := by
  intro s
  rw [tryCatch_apply]
  have hs := hx s
  split
  · next a s' hr => rw [← hs, hr]
  · next e s' hr => rw [hh e s', ← hs, hr]

/-! ## Which exceptions a program raises -/

/-- Every exception the program raises satisfies `P`. -/
def Raises (P : ε → Prop) (x : Service δ γ ε α) : Prop := ∀ s e s', x s = (.error e, s') → P e

section Raises

variable {P Q : ε → Prop}

theorem raises_pure (a : α) : Raises P (pure a : Service δ γ ε α) := nofun

theorem raises_throw {e : ε} (h : P e) : Raises P (throw e : Service δ γ ε α) := by
  intro s e' s' hx
  cases hx
  exact h

theorem raises_query (f : δ → α) : Raises P (query f : Service δ γ ε α) := nofun

theorem raises_commit : Raises P (commit : Service δ γ ε Unit) := nofun

theorem raises_rollback [EmptyCollection γ] : Raises P (rollback : Service δ γ ε Unit) := nofun

theorem raises_expireAll [EmptyCollection γ] : Raises P (expireAll : Service δ γ ε Unit) := nofun

theorem raises_remember (f : γ → γ) : Raises P (remember f : Service δ γ ε Unit) := nofun

theorem raises_flush {f : δ → Except ε δ} (h : ∀ d e, f d = .error e → P e) :
    Raises P (flush f : Service δ γ ε Unit) := fun s e _ hx => h s.working e (flush_eq_error hx).1

theorem Raises.bind {x : Service δ γ ε α} {f : α → Service δ γ ε β} (hx : Raises P x)
    (hf : ∀ a, Raises P (f a)) : Raises P (x >>= f) := by
  intro s e s' h
  rcases bind_cases h with ⟨e', hrun, heq⟩ | ⟨a, s₁, _, hrest⟩
  · cases heq
    exact hx s e s' hrun
  · exact hf a s₁ e s' hrest

theorem Raises.tryCatch {x : Service δ γ ε α} {h : ε → Service δ γ ε α} (hx : Raises Q x)
    (hh : ∀ e, Q e → Raises P (h e)) : Raises P (tryCatch x h : Service δ γ ε α) := by
  intro s e s' hrun
  rcases tryCatch_cases hrun with ⟨_, _, heq⟩ | ⟨e', s₁, hbody, hhandler⟩
  · cases heq
  · exact hh e' (hx s e' s₁ hbody) s₁ e s' hhandler

theorem raises_getThrough (find : γ → Option α) (read : δ → Option α) (keep : α → γ → γ) :
    Raises P (getThrough find read keep : Service δ γ ε (Option α)) := by
  intro s e s' h
  rw [getThrough_apply] at h
  split at h
  · cases h
  · split at h <;> cases h

end Raises

/-! ## Giving the writer back -/

section Released

/-- A program that leaves a released session released, whichever way it ends. -/
def Keeps (x : Service δ γ ε α) : Prop := ∀ s, s.Released → (x s).2.Released

/-- A program after which the session is released when it answers. Where it raises the session may
still hold the writer. -/
def Settles (x : Service δ γ ε α) : Prop := ∀ s a s', x s = (.ok a, s') → s'.Released

/-- A program after which the session is released, however it ends. -/
def Releases (x : Service δ γ ε α) : Prop := ∀ s, (x s).2.Released

variable {x : Service δ γ ε α} {f : α → Service δ γ ε β}

theorem Releases.settles (hx : Releases x) : Settles x := by
  intro s a s' h
  have hs := hx s
  rwa [h] at hs

theorem Releases.keeps (hx : Releases x) : Keeps x := fun s _ => hx s

/-- The session after a program that releases it. -/
theorem Releases.session (hx : Releases x) {s s' : Session δ γ} {r : Except ε α}
    (h : x s = (r, s')) : s'.Released := by
  have hs := hx s
  rwa [h] at hs

theorem releases_commit : Releases (commit : Service δ γ ε Unit) := fun _ => ⟨rfl, rfl⟩

theorem releases_rollback [EmptyCollection γ] : Releases (rollback : Service δ γ ε Unit) :=
  fun _ => ⟨rfl, rfl⟩

theorem Quiet.keeps (hx : Quiet x) : Keeps x := by
  intro s hs
  obtain ⟨begun, hsession⟩ := hx s
  rw [hsession]
  exact hs

theorem keeps_pure (a : α) : Keeps (pure a : Service δ γ ε α) := (quiet_pure a).keeps

theorem keeps_throw (e : ε) : Keeps (throw e : Service δ γ ε α) := (quiet_throw e).keeps

theorem settles_throw (e : ε) : Settles (throw e : Service δ γ ε α) := by
  intro s a s' h
  cases h

theorem Keeps.bind (hx : Keeps x) (hf : ∀ a, Keeps (f a)) : Keeps (x >>= f) := by
  intro s hs
  have hsession := hx s hs
  rw [bind_apply]
  split
  · next a s' h =>
    rw [h] at hsession
    exact hf a s' hsession
  · next e s' h =>
    rw [h] at hsession
    exact hsession

/-- Only the last program of a sequence has to settle the session. -/
theorem Settles.bind (hf : ∀ a, Settles (f a)) : Settles (x >>= f) := by
  intro s b s'' h
  obtain ⟨a, s', _, hrest⟩ := bind_eq_ok h
  exact hf a s' b s'' hrest

/-- A released session stays so through what follows. -/
theorem Settles.bind_keeps (hx : Settles x) (hf : ∀ a, Keeps (f a)) : Settles (x >>= f) := by
  intro s b s'' h
  obtain ⟨a, s', hrun, hrest⟩ := bind_eq_ok h
  have hs := hf a s' (hx s a s' hrun)
  rwa [hrest] at hs

theorem Releases.bind_keeps (hx : Releases x) (hf : ∀ a, Keeps (f a)) : Releases (x >>= f) := by
  intro s
  have hsession := hx s
  rw [bind_apply]
  split
  · next a s' h =>
    rw [h] at hsession
    exact hf a s' hsession
  · next e s' h =>
    rw [h] at hsession
    exact hsession

/-- A program that cannot raise leaves the release to what follows. -/
theorem Releases.after (hx : ∀ s, ∃ a s', x s = (.ok a, s')) (hf : ∀ a, Releases (f a)) :
    Releases (x >>= f) := by
  intro s
  obtain ⟨a, s', h⟩ := hx s
  rw [bind_ok h]
  exact hf a s'

theorem Keeps.tryCatch {h : ε → Service δ γ ε α} (hx : Keeps x) (hh : ∀ e, Keeps (h e)) :
    Keeps (tryCatch x h : Service δ γ ε α) := by
  intro s hs
  have hsession := hx s hs
  rw [tryCatch_apply]
  split
  · next a s' hr =>
    rw [hr] at hsession
    exact hsession
  · next e s' hr =>
    rw [hr] at hsession
    exact hh e s' hsession

theorem Releases.tryCatch {h : ε → Service δ γ ε α} (hx : Releases x) (hh : ∀ e, Keeps (h e)) :
    Releases (tryCatch x h : Service δ γ ε α) := by
  intro s
  have hsession := hx s
  rw [tryCatch_apply]
  split
  · next a s' hr =>
    rw [hr] at hsession
    exact hsession
  · next e s' hr =>
    rw [hr] at hsession
    exact hh e s' hsession

/-- A program that settles its session, under a handler that releases it. -/
theorem Settles.tryCatch {h : ε → Service δ γ ε α} (hx : Settles x) (hh : ∀ e, Releases (h e)) :
    Releases (tryCatch x h : Service δ γ ε α) := by
  intro s
  rw [tryCatch_apply]
  split
  · next a s' hr => exact hx s a s' hr
  · next e s' _ => exact hh e s'

/-- A program that settles its session, under a guard that discards the transaction. -/
theorem Settles.discard [EmptyCollection γ] {x : Service δ γ ε α} (hx : Settles x) :
    Releases (MonadExcept.tryCatch x fun e => rollback >>= fun _ => throw e :
      Service δ γ ε α) :=
  hx.tryCatch fun e => releases_rollback.bind_keeps fun _ => keeps_throw e

/-- A commit before the answer. -/
theorem settles_commit (a : α) : Settles (commit >>= fun _ => pure a : Service δ γ ε α) :=
  releases_commit.settles.bind_keeps fun _ => keeps_pure a

/-- A program that leaves a session holding nothing outside a transaction. -/
def Guards (x : Service δ γ ε α) : Prop := ∀ s, s.Guarded → (x s).2.Guarded

theorem Releases.guards (hx : Releases x) : Guards x := fun s _ _ => hx s

theorem guards_pure (a : α) : Guards (pure a : Service δ γ ε α) := fun _ hs => hs

theorem guards_throw (e : ε) : Guards (throw e : Service δ γ ε α) := fun _ hs => hs

theorem guards_query (f : δ → α) : Guards (query f : Service δ γ ε α) := by
  intro s hs hbegun
  cases hbegun

theorem Guards.bind (hx : Guards x) (hf : ∀ a, Guards (f a)) : Guards (x >>= f) := by
  intro s hs
  have hsession := hx s hs
  rw [bind_apply]
  split
  · next a s' h =>
    rw [h] at hsession
    exact hf a s' hsession
  · next e s' h =>
    rw [h] at hsession
    exact hsession

theorem Guards.tryCatch {h : ε → Service δ γ ε α} (hx : Guards x) (hh : ∀ e, Guards (h e)) :
    Guards (MonadExcept.tryCatch x h : Service δ γ ε α) := by
  intro s hs
  have hsession := hx s hs
  rw [tryCatch_apply]
  split
  · next a s' hr =>
    rw [hr] at hsession
    exact hsession
  · next e s' hr =>
    rw [hr] at hsession
    exact hh e s' hsession

theorem guards_getThrough (find : γ → Option α) (read : δ → Option α) (keep : α → γ → γ) :
    Guards (getThrough find read keep : Service δ γ ε (Option α)) := by
  intro s hs
  rw [getThrough_apply]
  split
  · exact hs
  · split <;> · intro hbegun; cases hbegun

end Released

/-! ## Keeping an invariant -/

section Preserves

/-- A program that keeps an invariant of the database, of what it commits and of what it stages. -/
def Preserves (I : δ → Prop) (x : Service δ γ ε α) : Prop :=
  ∀ s, I s.committed → I s.working → I (x s).2.committed ∧ I (x s).2.working

variable {I : δ → Prop} {x : Service δ γ ε α} {f : α → Service δ γ ε β}

theorem Quiet.preserves (hx : Quiet x) : Preserves I x := by
  intro s hcommitted hworking
  obtain ⟨begun, hs⟩ := hx s
  rw [hs]
  exact ⟨hcommitted, hworking⟩

theorem preserves_pure (a : α) : Preserves I (pure a : Service δ γ ε α) := (quiet_pure a).preserves

theorem preserves_throw (e : ε) : Preserves I (throw e : Service δ γ ε α) :=
  (quiet_throw e).preserves

theorem preserves_query (g : δ → α) : Preserves I (query g : Service δ γ ε α) :=
  (quiet_query g).preserves

theorem preserves_commit : Preserves I (commit : Service δ γ ε Unit) := fun _ _ hw => ⟨hw, hw⟩

theorem preserves_rollback [EmptyCollection γ] : Preserves I (rollback : Service δ γ ε Unit) :=
  fun _ hc _ => ⟨hc, hc⟩

theorem preserves_expireAll [EmptyCollection γ] : Preserves I (expireAll : Service δ γ ε Unit) :=
  fun _ hc hw => ⟨hc, hw⟩

theorem preserves_beginImmediate : Preserves I (beginImmediate : Service δ γ ε Unit) :=
  fun _ hc hw => ⟨hc, hw⟩

theorem preserves_inTransaction : Preserves I (inTransaction : Service δ γ ε Bool) :=
  fun _ hc hw => ⟨hc, hw⟩

theorem preserves_remember (g : γ → γ) : Preserves I (remember g : Service δ γ ε Unit) :=
  fun _ hc hw => ⟨hc, hw⟩

theorem preserves_flush {g : δ → Except ε δ} (h : ∀ d d', g d = .ok d' → I d → I d') :
    Preserves I (flush g : Service δ γ ε Unit) := by
  intro s hcommitted hworking
  unfold flush
  split
  · next d hd => exact ⟨hcommitted, h s.working d hd hworking⟩
  · exact ⟨hcommitted, hworking⟩

/-- What follows may use the answer of the first program, and what held when it began. -/
theorem Preserves.bind_of (hx : Preserves I x)
    (hf : ∀ s a s', I s.working → x s = (.ok a, s') → Preserves I (f a)) :
    Preserves I (x >>= f) := by
  intro s hcommitted hworking
  obtain ⟨hc, hw⟩ := hx s hcommitted hworking
  rw [bind_apply]
  split
  · next a s' h =>
    rw [h] at hc hw
    exact hf s a s' hworking h s' hc hw
  · next e s' h =>
    rw [h] at hc hw
    exact ⟨hc, hw⟩

theorem Preserves.bind (hx : Preserves I x) (hf : ∀ a, Preserves I (f a)) :
    Preserves I (x >>= f) := hx.bind_of fun _ a _ _ _ => hf a

theorem Preserves.tryCatch {h : ε → Service δ γ ε α} (hx : Preserves I x)
    (hh : ∀ e, Preserves I (h e)) : Preserves I (MonadExcept.tryCatch x h : Service δ γ ε α) := by
  intro s hcommitted hworking
  obtain ⟨hc, hw⟩ := hx s hcommitted hworking
  rw [tryCatch_apply]
  split
  · next a s' hr =>
    rw [hr] at hc hw
    exact ⟨hc, hw⟩
  · next e s' hr =>
    rw [hr] at hc hw
    exact hh e s' hc hw

/-- A guard that discards the transaction keeps what its body keeps. -/
theorem Preserves.discard [EmptyCollection γ] (hx : Preserves I x) :
    Preserves I (MonadExcept.tryCatch x fun e => rollback >>= fun _ => throw e :
      Service δ γ ε α) :=
  hx.tryCatch fun e => preserves_rollback.bind fun _ => preserves_throw e

theorem preserves_getThrough (find : γ → Option α) (read : δ → Option α) (keep : α → γ → γ) :
    Preserves I (getThrough find read keep : Service δ γ ε (Option α)) := by
  intro s hcommitted hworking
  rw [getThrough_apply]
  split
  · exact ⟨hcommitted, hworking⟩
  · split <;> exact ⟨hcommitted, hworking⟩

end Preserves

end Service

/-! ## Columns of a loaded object -/

/-- What an `UPDATE` leaves in one column: only a column whose value in the object differs from the
loaded one is written, every other keeps what is stored. -/
def writeColumn [DecidableEq α] (loaded current stored : α) : α :=
  if current = loaded then stored else current

/-- A column of a row that has not changed since it was loaded takes the object's value. -/
@[simp] theorem writeColumn_stored [DecidableEq α] (loaded current : α) :
    writeColumn loaded current loaded = current := by
  unfold writeColumn
  split
  · next h => exact h.symm
  · rfl

/-- A column that was changed is written whatever is stored. -/
theorem writeColumn_of_ne [DecidableEq α] {loaded current : α} (stored : α)
    (h : current ≠ loaded) : writeColumn loaded current stored = current := if_neg h

/-- A column that was not changed is not written. -/
@[simp] theorem writeColumn_self [DecidableEq α] (loaded stored : α) :
    writeColumn loaded loaded stored = stored := if_pos rfl

/-- The write gives the object's value exactly when an unchanged column is not stale. -/
theorem writeColumn_eq_iff [DecidableEq α] {loaded current stored : α} :
    writeColumn loaded current stored = current ↔ (current = loaded → stored = current) := by
  unfold writeColumn
  split
  · next h => exact ⟨fun hs _ => hs, fun hs => hs h⟩
  · next h => exact ⟨fun _ hc => absurd hc h, fun _ => rfl⟩

end Transactional
