import Mathlib.Logic.Function.Basic
import Mathlib.Tactic.Common

/-!
# Pools of threads over a shared state

Any number of threads act on one shared state, one atomic step at a time, in any order. A thread is
a local state; what it can do is a relation between the shared and local state before and after the
step. A `Run` records every step it took, so a property may speak of the steps themselves and not
only of the states they reach.

The rules: `Run.invariant` carries an invariant of the shared state together with an assertion about
each thread that the steps of the others keep (the non-interference argument); `Run.transition`
reads the invariant and the assertion off at each step of a run.

No fairness is built in, and a run is finite: these are the rules for what never happens, and for
what has happened whenever something else has. That something eventually happens is stated, where it
is needed, as the existence of a run.
-/

namespace Pool

variable {σ ι l : Type}

/-- The shared state and the local state of every thread. There may be any number of threads,
infinitely many included. -/
@[ext]
structure World (σ ι l : Type) where
  shared : σ
  threads : ι → l

/-- One step of one thread: the shared and local state on both sides. The other threads are not in
it, since they do not move. -/
structure Transition (σ ι l : Type) where
  thread : ι
  pre : σ
  before : l
  post : σ
  after : l

/-- What threads may do: shared and local state before, shared and local state after. -/
abbrev Protocol (σ l : Type) := σ → l → σ → l → Prop

variable [DecidableEq ι] {P : Protocol σ l}

/-- The world after a transition. -/
def World.apply (w : World σ ι l) (t : Transition σ ι l) : World σ ι l :=
  { shared := t.post, threads := Function.update w.threads t.thread t.after }

/-- A transition the protocol allows in a world: it begins where the world is, and is a step of its
thread. -/
def Enabled (P : Protocol σ l) (w : World σ ι l) (t : Transition σ ι l) : Prop :=
  t.pre = w.shared ∧ t.before = w.threads t.thread ∧ P t.pre t.before t.post t.after

/-- A finite run with the steps it took, in order. Nothing is said of fairness: a thread that is
never scheduled takes no step, and a run may stop anywhere. -/
inductive Run (P : Protocol σ l) : World σ ι l → List (Transition σ ι l) → World σ ι l → Prop
  | nil (w : World σ ι l) : Run P w [] w
  | snoc {w v : World σ ι l} {ts : List (Transition σ ι l)} {t : Transition σ ι l} :
      Run P w ts v → Enabled P v t → Run P w (ts ++ [t]) (v.apply t)

@[simp] theorem World.apply_shared (w : World σ ι l) (t : Transition σ ι l) :
    (w.apply t).shared = t.post := rfl

theorem World.apply_threads_self (w : World σ ι l) (t : Transition σ ι l) :
    (w.apply t).threads t.thread = t.after := Function.update_self ..

theorem World.apply_threads_of_ne (w : World σ ι l) (t : Transition σ ι l) {i : ι}
    (h : i ≠ t.thread) : (w.apply t).threads i = w.threads i := Function.update_of_ne h ..

/-- A run of one step. -/
theorem Run.single {w : World σ ι l} {t : Transition σ ι l} (h : Enabled P w t) :
    Run P w [t] (w.apply t) := .snoc (.nil w) h

/-- Runs compose. -/
theorem Run.append {w v u : World σ ι l} {ts us : List (Transition σ ι l)}
    (first : Run P w ts v) (second : Run P v us u) : Run P w (ts ++ us) u := by
  induction second with
  | nil => simpa only [List.append_nil] using first
  | snoc _ enabled ih => rw [← List.append_assoc]; exact .snoc ih enabled

/-! ## Invariants with local assertions -/

variable {I : σ → Prop} {A : ι → σ → l → Prop}

/-- The invariant of the shared state and the assertion of every thread. The assertion may mention
the shared state, so that it has to be kept by the steps of the others. -/
def Holds (I : σ → Prop) (A : ι → σ → l → Prop) (w : World σ ι l) : Prop :=
  I w.shared ∧ ∀ i, A i w.shared (w.threads i)

/-- A step keeps the invariant and establishes the assertion of the thread that takes it. -/
def Establishes (P : Protocol σ l) (I : σ → Prop) (A : ι → σ → l → Prop) : Prop :=
  ∀ i s a s' a', I s → A i s a → P s a s' a' → I s' ∧ A i s' a'

/-- A step keeps the assertion of every other thread. -/
def NonInterfering (P : Protocol σ l) (I : σ → Prop) (A : ι → σ → l → Prop) : Prop :=
  ∀ i j s a s' a' b, i ≠ j → I s → A i s a → A j s b → P s a s' a' → A j s' b

theorem Holds.step {w : World σ ι l} {t : Transition σ ι l} (own : Establishes P I A)
    (others : NonInterfering P I A) (holds : Holds I A w) (enabled : Enabled P w t) :
    Holds I A (w.apply t) := by
  obtain ⟨hpre, hbefore, hstep⟩ := enabled
  obtain ⟨inv, local'⟩ := holds
  have mine : A t.thread t.pre t.before := by rw [hpre, hbefore]; exact local' t.thread
  have kept := own t.thread _ _ _ _ (hpre ▸ inv) mine hstep
  refine ⟨kept.1, fun i => ?_⟩
  by_cases hi : i = t.thread
  · subst hi
    rw [World.apply_threads_self]
    exact kept.2
  · rw [World.apply_threads_of_ne w t hi]
    exact others t.thread i _ _ _ _ _ (Ne.symm hi) (hpre ▸ inv) mine (hpre ▸ local' i) hstep

/-- **Non-interference**: what holds at the start of a run, is established by each step of a thread
and is kept by the steps of the others, holds in every world reached. -/
theorem Run.invariant {w v : World σ ι l} {ts : List (Transition σ ι l)}
    (own : Establishes P I A) (others : NonInterfering P I A) (holds : Holds I A w)
    (run : Run P w ts v) : Holds I A v := by
  induction run with
  | nil => exact holds
  | snoc _ enabled ih => exact Holds.step own others ih enabled

/-- An invariant that needs no local assertion. -/
theorem Run.shared_invariant {w v : World σ ι l} {ts : List (Transition σ ι l)}
    (own : ∀ s a s' a', I s → P s a s' a' → I s') (inv : I w.shared) (run : Run P w ts v) :
    I v.shared := by
  induction run with
  | nil => exact inv
  | snoc _ enabled ih => exact own _ _ _ _ (enabled.1 ▸ ih) enabled.2.2

/-- At every step of a run the invariant and the assertion of the thread that takes it hold, and the
protocol allows the step. -/
theorem Run.transition {w v : World σ ι l} {ts : List (Transition σ ι l)}
    (own : Establishes P I A) (others : NonInterfering P I A) (holds : Holds I A w)
    (run : Run P w ts v) {t : Transition σ ι l} (mem : t ∈ ts) :
    I t.pre ∧ A t.thread t.pre t.before ∧ P t.pre t.before t.post t.after := by
  induction run with
  | nil => cases mem
  | @snoc v ts t' run enabled ih =>
    rcases List.mem_append.mp mem with mem | mem
    · exact ih mem
    · rw [List.mem_singleton.mp mem]
      obtain ⟨inv, local'⟩ := Run.invariant own others holds run
      obtain ⟨hpre, hbefore, hstep⟩ := enabled
      exact ⟨hpre ▸ inv, by rw [hpre, hbefore]; exact local' _, hstep⟩

/-- Every step of a run is one the protocol allows. -/
theorem Run.allowed {w v : World σ ι l} {ts : List (Transition σ ι l)} (run : Run P w ts v)
    {t : Transition σ ι l} (mem : t ∈ ts) : P t.pre t.before t.post t.after :=
  (Run.transition (I := fun _ => True) (A := fun _ _ _ => True)
    (fun _ _ _ _ _ _ _ _ => ⟨trivial, trivial⟩) (fun _ _ _ _ _ _ _ _ _ _ _ _ => trivial)
    ⟨trivial, fun _ => trivial⟩ run mem).2.2

/-- A run of a protocol is a run of every protocol that allows its steps. -/
theorem Run.mono {Q : Protocol σ l} (allowed : ∀ s a s' a', P s a s' a' → Q s a s' a')
    {w v : World σ ι l} {ts : List (Transition σ ι l)} (run : Run P w ts v) : Run Q w ts v := by
  induction run with
  | nil => exact .nil _
  | snoc _ enabled ih => exact .snoc ih ⟨enabled.1, enabled.2.1, allowed _ _ _ _ enabled.2.2⟩

/-- A run whose steps all meet a condition is a run of the protocol under it. -/
theorem Run.restrict (Q : σ → l → Prop) {w v : World σ ι l} {ts : List (Transition σ ι l)}
    (run : Run P w ts v) (h : ∀ t ∈ ts, Q t.pre t.before) :
    Run (fun s a s' a' => P s a s' a' ∧ Q s a) w ts v := by
  induction run with
  | nil => exact .nil _
  | @snoc v ts t run enabled ih =>
    have here : Q t.pre t.before := h t (List.mem_append_right _ (List.mem_singleton.mpr rfl))
    exact .snoc (ih fun t mem => h t (List.mem_append_left _ mem))
      ⟨enabled.1, enabled.2.1, enabled.2.2, here⟩

/-- A step of a run splits it: a run up to the step, the step, and a run from it. -/
theorem Run.split {w v : World σ ι l} {ts : List (Transition σ ι l)} (run : Run P w ts v)
    {t : Transition σ ι l} (mem : t ∈ ts) :
    ∃ before after u, ts = before ++ t :: after ∧ Run P w before u ∧ Enabled P u t ∧
      Run P (u.apply t) after v := by
  induction run with
  | nil => cases mem
  | @snoc v ts t' run enabled ih =>
    rcases List.mem_append.mp mem with mem | mem
    · obtain ⟨before, after, u, rfl, first, here, rest⟩ := ih mem
      exact ⟨before, after ++ [t'], u, by simp only [List.append_assoc, List.cons_append],
        first, here, .snoc rest enabled⟩
    · rw [List.mem_singleton.mp mem]
      exact ⟨ts, [], v, rfl, run, enabled, .nil _⟩

/-- A run in two parts. -/
theorem Run.split_append {w v : World σ ι l} {us vs : List (Transition σ ι l)}
    (run : Run P w (us ++ vs) v) : ∃ u, Run P w us u ∧ Run P u vs v := by
  generalize hts : us ++ vs = ts at run
  induction run generalizing vs with
  | nil =>
    obtain ⟨rfl, rfl⟩ := List.append_eq_nil_iff.mp hts
    exact ⟨w, .nil w, .nil w⟩
  | @snoc v ts t run enabled ih =>
    rcases List.eq_nil_or_concat vs with rfl | ⟨front, last, rfl⟩
    · rw [List.append_nil] at hts
      subst hts
      exact ⟨_, .snoc run enabled, .nil _⟩
    · rw [List.concat_eq_append] at *
      rw [← List.append_assoc] at hts
      obtain ⟨hfront, hlast⟩ := List.append_inj' hts rfl
      cases hlast
      obtain ⟨u, first, second⟩ := ih hfront
      exact ⟨u, first, .snoc second enabled⟩

/-- A run of no step stays where it begins. -/
theorem Run.eq_of_nil {w v : World σ ι l} (run : Run P w [] v) : v = w := by
  generalize hts : ([] : List (Transition σ ι l)) = ts at run
  cases run with
  | nil => rfl
  | snoc => exact absurd hts.symm (by simp)

/-- The first step of a run is allowed where the run begins. -/
theorem Run.head {w v : World σ ι l} {t : Transition σ ι l} {ts : List (Transition σ ι l)}
    (run : Run P w (t :: ts) v) : Enabled P w t := by
  generalize hts : t :: ts = us at run
  induction run generalizing ts with
  | nil => cases hts
  | @snoc v us s run enabled ih =>
    cases us with
    | nil =>
      cases hts
      rw [run.eq_of_nil] at enabled
      exact enabled
    | cons t' us =>
      cases hts
      exact ih rfl

/-! ## Runs under a map

A run seen through a map of the local states: each step becomes a step of another protocol over the
same shared state. -/

section Map

variable {m : Type} {Q : Protocol σ m}

/-- A world whose threads are seen through a map. -/
def World.map (f : l → m) (w : World σ ι l) : World σ ι m :=
  { shared := w.shared, threads := fun i => f (w.threads i) }

/-- A transition seen through a map. -/
def Transition.map (f : l → m) (t : Transition σ ι l) : Transition σ ι m :=
  { thread := t.thread, pre := t.pre, before := f t.before, post := t.post, after := f t.after }

theorem World.map_apply (f : l → m) (w : World σ ι l) (t : Transition σ ι l) :
    (w.apply t).map f = (w.map f).apply (t.map f) := by
  ext i
  · rfl
  · by_cases hi : i = t.thread
    · subst hi
      exact (congrArg f (w.apply_threads_self t)).trans
        ((w.map f).apply_threads_self (t.map f)).symm
    · exact (congrArg f (w.apply_threads_of_ne t hi)).trans
        ((w.map f).apply_threads_of_ne (t.map f) hi).symm

/-- **Simulation**: a run whose steps are steps of another protocol through a map is a run of it. -/
theorem Run.map (f : l → m) {w v : World σ ι l} {ts : List (Transition σ ι l)}
    (run : Run P w ts v) (steps : ∀ t ∈ ts, Q t.pre (f t.before) t.post (f t.after)) :
    Run Q (w.map f) (ts.map (Transition.map f)) (v.map f) := by
  induction run with
  | nil => exact .nil _
  | @snoc v ts t run enabled ih =>
    have here := steps t (List.mem_append_right _ (List.mem_singleton.mpr rfl))
    rw [List.map_append, List.map_singleton, World.map_apply]
    refine .snoc (ih fun t mem => steps t (List.mem_append_left _ mem)) ⟨enabled.1, ?_, here⟩
    exact congrArg f enabled.2.1

/-- A step that shows nothing through a map leaves the world seen through it. -/
theorem World.map_stutter (f : l → m) {w : World σ ι l} {t : Transition σ ι l}
    (enabled : Enabled P w t) (shared : t.post = t.pre) (kept : f t.after = f t.before) :
    (w.apply t).map f = w.map f := by
  ext i
  · exact shared.trans enabled.1
  · by_cases hi : i = t.thread
    · subst hi
      refine (congrArg f (w.apply_threads_self t)).trans ?_
      rw [kept, enabled.2.1]
      rfl
    · exact congrArg f (w.apply_threads_of_ne t hi)

/-- **Simulation with stuttering**: a run whose steps either are steps of another protocol through a
map or show nothing through it is, without the latter, a run of that protocol. -/
theorem Run.map_filter (f : l → m) (moves : Transition σ ι l → Bool) {w v : World σ ι l}
    {ts : List (Transition σ ι l)} (run : Run P w ts v)
    (steps : ∀ t ∈ ts, moves t = true → Q t.pre (f t.before) t.post (f t.after))
    (stutters : ∀ t ∈ ts, moves t = false → t.post = t.pre ∧ f t.after = f t.before) :
    Run Q (w.map f) ((ts.filter moves).map (Transition.map f)) (v.map f) := by
  induction run with
  | nil => exact .nil _
  | @snoc v ts t run enabled ih =>
    have last : t ∈ ts ++ [t] := List.mem_append_right _ (List.mem_singleton.mpr rfl)
    have first := ih (fun t mem => steps t (List.mem_append_left _ mem))
      (fun t mem => stutters t (List.mem_append_left _ mem))
    rw [List.filter_append]
    cases hmoves : moves t with
    | true =>
      rw [List.filter_cons_of_pos hmoves, List.filter_nil, List.map_append, List.map_singleton,
        World.map_apply]
      exact .snoc first ⟨enabled.1, congrArg f enabled.2.1, steps t last hmoves⟩
    | false =>
      obtain ⟨shared, kept⟩ := stutters t last hmoves
      rw [List.filter_cons_of_neg (by rw [hmoves]; exact Bool.false_ne_true), List.filter_nil,
        List.append_nil, World.map_stutter f enabled shared kept]
      exact first

end Map

/-! ## What happened since

A property of a history: since the last step of one kind, a step of another kind happened. -/

section Since

variable {τ : Type} {own other : τ → Prop}

/-- Since the last step of a kind, one of another kind happened. Without a step of the first kind it
does not hold. -/
def Since (own other : τ → Prop) (ts : List τ) : Prop :=
  ∃ us t vs, ts = us ++ t :: vs ∧ own t ∧ (∀ s ∈ vs, ¬own s) ∧ ∃ s ∈ vs, other s

/-- The last step of a kind that a history has. -/
theorem exists_last {ts : List τ} (h : ∃ t ∈ ts, own t) :
    ∃ us t vs, ts = us ++ t :: vs ∧ own t ∧ ∀ s ∈ vs, ¬own s := by
  induction ts with
  | nil =>
    obtain ⟨t, mem, _⟩ := h
    cases mem
  | cons t ts ih =>
    by_cases later : ∃ s ∈ ts, own s
    · obtain ⟨us, s, vs, rfl, hs, hvs⟩ := ih later
      exact ⟨t :: us, s, vs, rfl, hs, hvs⟩
    · have none : ∀ s ∈ ts, ¬own s := fun s mem hs => later ⟨s, mem, hs⟩
      obtain ⟨s, mem, hs⟩ := h
      rcases List.mem_cons.mp mem with rfl | mem
      · exact ⟨[], s, ts, rfl, hs, none⟩
      · exact absurd hs (none s mem)

/-- What one more step makes of it. -/
theorem since_concat {ts : List τ} {t : τ} : Since own other (ts ++ [t]) ↔
    ¬own t ∧ (Since own other ts ∨ (other t ∧ ∃ s ∈ ts, own s)) := by
  constructor
  · rintro ⟨us, s, vs, hts, hs, hvs, r, mem, hr⟩
    rcases List.eq_nil_or_concat vs with rfl | ⟨front, last, rfl⟩
    · cases mem
    · rw [List.concat_eq_append] at *
      rw [← List.cons_append, ← List.append_assoc] at hts
      obtain ⟨rfl, hlast⟩ := List.append_inj' hts rfl
      cases hlast
      refine ⟨hvs t (List.mem_append_right _ (List.mem_singleton.mpr rfl)), ?_⟩
      rcases List.mem_append.mp mem with mem | mem
      · exact .inl ⟨us, s, front, rfl, hs,
          fun x hx => hvs x (List.mem_append_left _ hx), r, mem, hr⟩
      · rw [List.mem_singleton.mp mem] at hr
        exact .inr ⟨hr, s, List.mem_append_right _ (List.mem_cons_self ..), hs⟩
  · rintro ⟨hown, ⟨us, s, vs, rfl, hs, hvs, r, mem, hr⟩ | ⟨hother, hexists⟩⟩
    · refine ⟨us, s, vs ++ [t], by simp, hs, fun x hx => ?_, r, List.mem_append_left _ mem, hr⟩
      rcases List.mem_append.mp hx with hx | hx
      · exact hvs x hx
      · rw [List.mem_singleton.mp hx]
        exact hown
    · obtain ⟨us, s, vs, rfl, hs, hvs⟩ := exists_last hexists
      refine ⟨us, s, vs ++ [t], by simp, hs, fun x hx => ?_, t,
        List.mem_append_right _ (List.mem_singleton.mpr rfl), hother⟩
      rcases List.mem_append.mp hx with hx | hx
      · exact hvs x hx
      · rw [List.mem_singleton.mp hx]
        exact hown

end Since

/-! ## Schedules -/

section Schedules

variable (next : σ → l → Option (σ × l))

/-- The threads act as scheduled; one that has nothing to do is passed over. -/
def operate : List ι → World σ ι l → World σ ι l
  | [], w => w
  | i :: rest, w =>
    match next w.shared (w.threads i) with
    | none => operate rest w
    | some (s, a) => operate rest { shared := s, threads := Function.update w.threads i a }

/-- Each thread of a schedule is as it should be when its turn comes. -/
def watched (Q : l → Bool) : List ι → World σ ι l → Bool
  | [], _ => true
  | i :: rest, w =>
    Q (w.threads i) &&
      match next w.shared (w.threads i) with
      | none => watched Q rest w
      | some (s, a) => watched Q rest { shared := s, threads := Function.update w.threads i a }

variable {next}

/-- **A schedule is a run**, of turns that were watched. -/
theorem run_of_operate
    (allowed : ∀ {s : σ} {a : l} {s' : σ} {a' : l}, next s a = some (s', a') → P s a s' a') :
    ∀ (schedule : List ι) (w : World σ ι l), ∃ ts, Run P w ts (operate next schedule w) ∧
      ∀ Q, watched next Q schedule w = true → ∀ t ∈ ts, Q t.before = true := by
  intro schedule
  induction schedule with
  | nil => exact fun w => ⟨[], .nil w, fun _ _ _ mem => absurd mem List.not_mem_nil⟩
  | cons i rest ih =>
    intro w
    unfold operate watched
    split
    · obtain ⟨ts, run, quiet⟩ := ih w
      refine ⟨ts, run, fun Q hwatched => quiet Q ?_⟩
      exact (Bool.and_eq_true_iff.mp hwatched).2
    · next s a hnext =>
      obtain ⟨ts, run, quiet⟩ := ih { shared := s, threads := Function.update w.threads i a }
      have enabled : Enabled P w ⟨i, w.shared, w.threads i, s, a⟩ := ⟨rfl, rfl, allowed hnext⟩
      refine ⟨_, (Run.single enabled).append run, fun Q hwatched t mem => ?_⟩
      obtain ⟨first, others⟩ := Bool.and_eq_true_iff.mp hwatched
      rcases List.mem_append.mp mem with mem | mem
      · rw [List.mem_singleton.mp mem]
        exact first
      · exact quiet Q others t mem

/-- A thread that is not scheduled stays as it is. -/
theorem operate_threads {i : ι} : ∀ {schedule : List ι} (w : World σ ι l),
    i ∉ schedule → (operate next schedule w).threads i = w.threads i := by
  intro schedule
  induction schedule with
  | nil => exact fun _ _ => rfl
  | cons j rest ih =>
    intro w absent
    obtain ⟨hne, hrest⟩ := not_or.mp (mt List.mem_cons.mpr absent)
    unfold operate
    split
    · exact ih w hrest
    · exact (ih _ hrest).trans (Function.update_of_ne hne _ _)

end Schedules

/-! ## A thread on its own -/

section Solo

variable {Q : σ → l → Prop} {s s' s'' : σ} {a a' a'' : l} {n m : Nat}

/-- What a thread reaches in so many steps while the others rest, each from where `Q` holds. -/
inductive Solo (P : Protocol σ l) (Q : σ → l → Prop) (s : σ) (a : l) : Nat → σ → l → Prop
  | refl : Solo P Q s a 0 s a
  | snoc {n : Nat} {s' s'' : σ} {a' a'' : l} : Solo P Q s a n s' a' → Q s' a' →
      P s' a' s'' a'' → Solo P Q s a (n + 1) s'' a''

theorem Solo.single (holds : Q s a) (step : P s a s' a') : Solo P Q s a 1 s' a' :=
  .snoc .refl holds step

theorem Solo.append (first : Solo P Q s a n s' a') (second : Solo P Q s' a' m s'' a'') :
    Solo P Q s a (n + m) s'' a'' := by
  induction second with
  | refl => exact first
  | snoc _ holds step ih => exact .snoc ih holds step

/-- What every step keeps holds of what is reached. -/
theorem Solo.invariant {I : σ → Prop}
    (own : ∀ s a s' a', I s → Q s a → P s a s' a' → I s') (h : Solo P Q s a n s' a') (inv : I s) :
    I s' := by
  induction h with
  | refl => exact inv
  | snoc _ holds step ih => exact own _ _ _ _ ih holds step

/-- **Alone, a thread makes a run** of its own steps. -/
theorem Solo.run {w : World σ ι l} {i : ι} (h : Solo P Q w.shared (w.threads i) n s a) :
    ∃ ts v, Run P w ts v ∧ ts.length = n ∧ v.shared = s ∧ v.threads i = a ∧
      ∀ t ∈ ts, t.thread = i ∧ Q t.pre t.before := by
  induction h with
  | refl => exact ⟨[], w, .nil w, rfl, rfl, rfl, fun _ mem => absurd mem List.not_mem_nil⟩
  | @snoc n s' s'' a' a'' _ holds step ih =>
    obtain ⟨ts, v, run, rfl, rfl, rfl, own⟩ := ih
    have enabled : Enabled P v ⟨i, v.shared, v.threads i, s'', a''⟩ := ⟨rfl, rfl, step⟩
    refine ⟨_, _, .snoc run enabled, List.length_append, rfl, v.apply_threads_self _, ?_⟩
    intro t mem
    rcases List.mem_append.mp mem with mem | mem
    · exact own t mem
    · rw [List.mem_singleton.mp mem]
      exact ⟨rfl, holds⟩

end Solo

/-! ## An environment beside the threads -/

/-- A protocol beside an environment: a thread without a local state of its own takes the steps of
the environment, every other one those of the protocol. The relation `R` is all that is known of the
environment. -/
inductive Beside (R : σ → σ → Prop) (P : Protocol σ l) : Protocol σ (Option l)
  | environment {s s' : σ} : R s s' → Beside R P s none s' none
  | thread {s s' : σ} {a a' : l} : P s a s' a' → Beside R P s (some a) s' (some a')

/-- An assertion about the local state of a thread that has one. -/
def Asserts (A : σ → l → Prop) : ι → σ → Option l → Prop := fun _ s a => ∀ b, a = some b → A s b

omit [DecidableEq ι] in
/-- Beside an environment, an assertion that holds of a thread after its own steps, and that every
step of the shared state keeps, is established by every step. -/
theorem Beside.establishes {R : σ → σ → Prop} {I : σ → Prop} {A : σ → l → Prop}
    (environment : ∀ s s', I s → R s s' → I s')
    (thread : ∀ s a s' a', I s → A s a → P s a s' a' → I s' ∧ A s' a') :
    Establishes (ι := ι) (Beside R P) I (Asserts A) := by
  intro i s a s' a' inv holds step
  cases step with
  | environment h => exact ⟨environment _ _ inv h, nofun⟩
  | thread h =>
    obtain ⟨inv', holds'⟩ := thread _ _ _ _ inv (holds _ rfl) h
    refine ⟨inv', fun b hb => ?_⟩
    cases hb
    exact holds'

omit [DecidableEq ι] in
/-- Such an assertion is kept by the steps of the others when every change of the shared state keeps
it. -/
theorem Beside.nonInterfering {R : σ → σ → Prop} {I : σ → Prop} {A : σ → l → Prop}
    (changes : σ → σ → Prop) (environment : ∀ s s', I s → R s s' → changes s s')
    (thread : ∀ s a s' a', I s → A s a → P s a s' a' → changes s s')
    (keeps : ∀ s s' b, changes s s' → A s b → A s' b) :
    NonInterfering (ι := ι) (Beside R P) I (Asserts A) := by
  intro i j s a s' a' b _ inv holds other step
  cases step with
  | environment h => exact fun c hc => keeps _ _ _ (environment _ _ inv h) (other c hc)
  | thread h => exact fun c hc => keeps _ _ _ (thread _ _ _ _ inv (holds _ rfl) h) (other c hc)

end Pool
