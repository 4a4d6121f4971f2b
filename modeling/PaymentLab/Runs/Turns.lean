import Mathlib.Logic.Function.Iterate
import PaymentLab.Runs.Clock

/-!
# Turns of one client

A run of one client, computed: the store and the client after each transaction (`Desk.run_turns`) and
after each call (`Desk.run_call`), and the same on a clock (`Clocked.turns`, `Clocked.call`), beside
what the background does (`Clocked.background`).

These are for witnesses: a concrete run is computed by evaluating one client at a time, and the
lemmas turn the computation into a run of the pool.
-/

namespace PaymentLab

open Relational

instance : DecidablePred Phase.Ended := fun phase =>
  match phase with
  | .finished _ | .interrupted => isTrue trivial
  | .ready | .claiming _ | .rereading | .completing _ | .recovering _ _ => isFalse id

/-- A store, and the one client that works on it. -/
abbrev Desk := Database × Client

/-- The world of a desk: the client, and a thread for the background. -/
def Desk.world (desk : Desk) : Pool.World Database Bool (Option Client) :=
  { shared := desk.1, threads := fun isClient => if isClient then some desk.2 else none }

/-- A step from one desk to another. -/
def Desk.transition (desk next : Desk) : Pool.Transition Database Bool (Option Client) :=
  ⟨true, desk.1, some desk.2, next.1, some next.2⟩

/-- A new call. -/
def Desk.begin (request : Request) (desk : Desk) : Desk :=
  (desk.1, { request := request, identity := desk.2.identity, phase := .ready })

section Turns

variable (sha256 : String → String)

/-- The next transaction of the call. -/
def Desk.turn (desk : Desk) : Desk := desk.2.act sha256 desk.1

/-- The steps of the next transactions. -/
def Desk.turns : Nat → Desk → List (Pool.Transition Database Bool (Option Client))
  | 0, _ => []
  | n + 1, desk => desk.transition (desk.turn sha256) :: Desk.turns n (desk.turn sha256)

/-- The steps of a call: it begins, and its transactions run. -/
def Desk.call (request : Request) (n : Nat) (desk : Desk) :
    List (Pool.Transition Database Bool (Option Client)) :=
  desk.transition (desk.begin request) :: (desk.begin request).turns sha256 n

/-- The desk a call leaves. -/
def Desk.called (request : Request) (n : Nat) (desk : Desk) : Desk :=
  (Desk.turn sha256)^[n] (desk.begin request)

end Turns

theorem Desk.world_apply (desk next : Desk) :
    desk.world.apply (desk.transition next) = next.world := by
  refine Pool.World.ext rfl (funext fun isClient => ?_)
  cases isClient with
  | true => exact Pool.World.apply_threads_self desk.world (desk.transition next)
  | false =>
    exact Pool.World.apply_threads_of_ne desk.world (desk.transition next) Bool.false_ne_true

/-! ## Runs -/

section Run

variable {sha256 : String → String} {desk next : Desk} {request : Request}

theorem Desk.enabled (step : Client.Step sha256 desk.1 desk.2 next.1 next.2) :
    Pool.Enabled (System sha256) desk.world (desk.transition next) := ⟨rfl, rfl, .thread step⟩

/-- A step of the client. -/
theorem Desk.run_step (step : Client.Step sha256 desk.1 desk.2 next.1 next.2) :
    Pool.Run (System sha256) desk.world [desk.transition next] next.world := by
  rw [← desk.world_apply next]
  exact .single (Desk.enabled step)

/-- The next transactions of a call. -/
theorem Desk.run_turns (n : Nat) {desk : Desk}
    (unfinished : ∀ k < n, ¬((Desk.turn sha256)^[k] desk).2.phase.Ended) :
    Pool.Run (System sha256) desk.world (desk.turns sha256 n) ((Desk.turn sha256)^[n] desk).world := by
  induction n generalizing desk with
  | zero => exact .nil _
  | succ n ih =>
    have first : Pool.Run (System sha256) desk.world [desk.transition (desk.turn sha256)]
        (desk.turn sha256).world := Desk.run_step (.act (unfinished 0 n.succ_pos) rfl)
    exact first.append (ih fun k hk => unfinished (k + 1) (Nat.succ_lt_succ hk))

/-- A call. -/
theorem Desk.run_call (ended : desk.2.phase.Ended) (n : Nat)
    (unfinished : ∀ k < n, ¬((Desk.turn sha256)^[k] (desk.begin request)).2.phase.Ended) :
    Pool.Run (System sha256) desk.world (desk.call sha256 request n)
      (desk.called sha256 request n).world :=
  (Desk.run_step (.begin request ended)).append (Desk.run_turns n unfinished)

/-- A call is not over when it begins. -/
theorem Desk.begin_unfinished :
    ∀ k < 1, ¬((Desk.turn sha256)^[k] (desk.begin request)).2.phase.Ended := by
  intro k hk
  obtain rfl : k = 0 := by omega
  exact id

/-- A desk on which nothing has happened. -/
theorem Desk.initial (request : Request) :
    Initial (Desk.world (.empty, ⟨request, ∅, .ready⟩)) := by
  refine ⟨rfl, fun isClient client hclient => ?_⟩
  cases isClient with
  | true =>
    cases hclient
    exact ⟨rfl, rfl⟩
  | false => cases hclient

end Run

/-! ## On a clock -/

section Clocked

variable {sha256 : String → String} {desk next : Desk} {now later : Instant}
  {ts : List (Pool.Transition Database Bool (Option Client))}

/-- A step of the client. -/
theorem Clocked.transition (h : Clocked sha256 ts desk.world now) (hle : now ≤ later)
    (step : Client.Step sha256 desk.1 desk.2 next.1 next.2)
    (reads : Transacts sha256 desk.2 (desk.transition next) →
      desk.2.request.Reads later desk.2.phase) :
    Clocked sha256 (ts ++ [desk.transition next]) next.world later := by
  rw [← desk.world_apply next]
  refine h.step (Desk.enabled step) hle fun client transacts => ?_
  obtain rfl : desk.2 = client := Option.some.inj transacts.before
  exact reads transacts

/-- The next transactions of a call whose times the clock reads. -/
theorem Clocked.turns (h : Clocked sha256 ts desk.world now) (hle : now ≤ later)
    (reads : ∀ phase, desk.2.request.Reads later phase) (n : Nat)
    (unfinished : ∀ k < n, ¬((Desk.turn sha256)^[k] desk).2.phase.Ended) :
    Clocked sha256 (ts ++ desk.turns sha256 n) ((Desk.turn sha256)^[n] desk).world
      (if n = 0 then now else later) := by
  induction n generalizing ts desk now with
  | zero =>
    rw [if_pos rfl, Desk.turns, List.append_nil]
    exact h
  | succ n ih =>
    have first : Clocked sha256 (ts ++ [desk.transition (desk.turn sha256)])
        (desk.turn sha256).world later :=
      h.transition hle (.act (unfinished 0 n.succ_pos) rfl) fun _ => reads _
    have rest := ih first (le_refl later) reads fun k hk =>
      unfinished (k + 1) (Nat.succ_lt_succ hk)
    rw [ite_self, List.append_assoc] at rest
    rw [if_neg n.succ_ne_zero]
    exact rest

/-- A call whose times the clock reads. -/
theorem Clocked.call (h : Clocked sha256 ts desk.world now) (ended : desk.2.phase.Ended)
    {request : Request} (hle : now ≤ later) (reads : ∀ phase, request.Reads later phase) (n : Nat)
    (unfinished : ∀ k < n, ¬((Desk.turn sha256)^[k] (desk.begin request)).2.phase.Ended) :
    Clocked sha256 (ts ++ desk.call sha256 request n) (desk.called sha256 request n).world later := by
  have begun : Clocked sha256 (ts ++ [desk.transition (desk.begin request)])
      (desk.begin request).world later := by
    refine h.transition hle (.begin request ended) fun transacts => ?_
    exact absurd ended transacts.unfinished
  have rest := begun.turns (le_refl later) reads n unfinished
  rw [ite_self, List.append_assoc] at rest
  exact rest

/-- What the background does beside the client. -/
theorem Clocked.background (h : Clocked sha256 ts desk.world now) {db' : Database}
    (background : Background desk.1 db') :
    Clocked sha256 (ts ++ [⟨false, desk.1, none, db', none⟩]) (Desk.world (db', desk.2)) now := by
  have hworld : desk.world.apply ⟨false, desk.1, none, db', none⟩ = Desk.world (db', desk.2) := by
    refine Pool.World.ext rfl (funext fun isClient => ?_)
    cases isClient with
    | true => exact Pool.World.apply_threads_of_ne desk.world _ Bool.false_ne_true.symm
    | false => exact Pool.World.apply_threads_self desk.world _
  rw [← hworld]
  refine h.step ⟨rfl, rfl, .environment background⟩ (le_refl now) fun client transacts => ?_
  cases transacts.before

end Clocked

end PaymentLab
