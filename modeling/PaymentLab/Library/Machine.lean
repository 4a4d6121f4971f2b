import Mathlib.Tactic.Common

/-!
# Machines driven by events

A machine answers an event with its next state, or refuses it. A run is recorded as the transitions
it took, each with the states on both sides, so that a property may speak of the events themselves.

`Run.invariant` is the induction over a run, `Run.transition` reads the invariant off at one step,
and `Run.split` cuts a run where a transition stands.

There is one actor, and its events come one at a time. For any number of actors on a shared state
see the pools of threads.
-/

namespace Machine

variable {σ ε : Type}

/-- One step: the event and the states on both sides. A run is the list of them, so that a law can
speak of any step in it. -/
structure Transition (σ ε : Type) where
  pre : σ
  event : ε
  post : σ

/-- A run from one state to another by its transitions, in order. Where the step has no result the
event cannot happen. -/
def Run (step : σ → ε → Option σ) : σ → List (Transition σ ε) → σ → Prop
  | s, [], v => s = v
  | s, t :: ts, v => t.pre = s ∧ step s t.event = some t.post ∧ Run step t.post ts v

variable {step : σ → ε → Option σ} {s v : σ} {t : Transition σ ε} {ts us : List (Transition σ ε)}

theorem run_append : Run step s (ts ++ us) v ↔ ∃ u, Run step s ts u ∧ Run step u us v := by
  induction ts generalizing s with
  | nil => simp [Run]
  | cons t ts ih =>
    simp only [List.cons_append, Run, ih]
    constructor
    · rintro ⟨hpre, hstep, u, hfirst, hsecond⟩
      exact ⟨u, ⟨hpre, hstep, hfirst⟩, hsecond⟩
    · rintro ⟨u, ⟨hpre, hstep, hfirst⟩, hsecond⟩
      exact ⟨hpre, hstep, u, hfirst, hsecond⟩

/-- A run up to a transition, the transition, and the run from there. -/
theorem Run.split (run : Run step s (ts ++ t :: us) v) :
    Run step s ts t.pre ∧ step t.pre t.event = some t.post ∧ Run step t.post us v := by
  obtain ⟨u, hfirst, hpre, hstep, hsecond⟩ := run_append.mp run
  subst hpre
  exact ⟨hfirst, hstep, hsecond⟩

/-- **Invariant**: what holds at the start and is kept by every step holds at the end. -/
theorem Run.invariant {I : σ → Prop} (keep : ∀ s e u, I s → step s e = some u → I u)
    (start : I s) (run : Run step s ts v) : I v := by
  induction ts generalizing s with
  | nil =>
    cases run
    exact start
  | cons t ts ih =>
    obtain ⟨rfl, hstep, hrest⟩ := run
    exact ih (keep _ _ _ start hstep) hrest

/-- At every transition of a run the invariant holds on both sides. -/
theorem Run.transition {I : σ → Prop} (keep : ∀ s e u, I s → step s e = some u → I u)
    (start : I s) (run : Run step s ts v) (mem : t ∈ ts) :
    I t.pre ∧ step t.pre t.event = some t.post ∧ I t.post := by
  obtain ⟨before, after, rfl⟩ := List.append_of_mem mem
  obtain ⟨hfirst, hstep, _⟩ := run.split
  have hpre := hfirst.invariant keep start
  exact ⟨hpre, hstep, keep _ _ _ hpre hstep⟩

/-- The transitions of a list of events, where each is answered. -/
def trace (step : σ → ε → Option σ) : σ → List ε → Option (List (Transition σ ε) × σ)
  | s, [] => some ([], s)
  | s, e :: es => do
    let u ← step s e
    let (ts, v) ← trace step u es
    some ({ pre := s, event := e, post := u } :: ts, v)

theorem trace_run {events : List ε} (h : trace step s events = some (ts, v)) : Run step s ts v := by
  induction events generalizing s ts with
  | nil =>
    cases h
    rfl
  | cons e es ih =>
    obtain ⟨u, hstep, hrest⟩ := Option.bind_eq_some_iff.mp h
    obtain ⟨⟨ts', v'⟩, htrace, heq⟩ := Option.bind_eq_some_iff.mp hrest
    cases heq
    exact ⟨rfl, hstep, ih htrace⟩

end Machine
