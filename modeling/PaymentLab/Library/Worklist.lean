import Mathlib.Data.List.Nodup
import Mathlib.Data.List.Sort

/-!
# Worklists in bounded batches

A worklist is read off a state in a fixed order, and each call works off at most `limit` of its first
entries. `calls` iterates the calls with nothing in between, `calls_induction` carries an invariant of
them, and `drop_eq_nil_of_callsFor_le` says that enough calls leave nothing.

`insertionSort_filter` is what a sorted selection needs: the entries that are left are in the order
they had.
-/

namespace Worklist

variable {σ α : Type}

/-! ## Sorted selections -/

section Selection

variable {r : α → α → Prop} [DecidableRel r] [Std.Total r] [IsTrans α r] {as : List α}

/-- A part of a list, sorted, is that part of the sorted list. -/
theorem insertionSort_filter (antisymm : ∀ a ∈ as, ∀ b ∈ as, r a b → r b a → a = b) (p : α → Bool) :
    (as.filter p).insertionSort r = (as.insertionSort r).filter p := by
  have perm : ((as.filter p).insertionSort r).Perm ((as.insertionSort r).filter p) :=
    (List.perm_insertionSort r _).trans ((List.perm_insertionSort r as).symm.filter p)
  refine perm.eq_of_pairwise (fun a b ha hb => ?_) (List.pairwise_insertionSort r _)
    ((List.pairwise_insertionSort r as).filter p)
  have ha : a ∈ as := List.mem_of_mem_filter ((List.mem_insertionSort r).mp ha)
  have hb : b ∈ as := (List.mem_insertionSort r).mp (List.mem_of_mem_filter hb)
  exact antisymm a ha b hb

/-- What is left of a list without its first entries. -/
theorem filter_not_mem_take [DecidableEq α] (nodup : as.Nodup) (n : Nat) :
    (as.filter fun a => decide (a ∉ as.take n)) = as.drop n := by
  have split : as.take n ++ as.drop n = as := List.take_append_drop n as
  have disjoint : ∀ a ∈ as.take n, a ∉ as.drop n := by
    rw [← split] at nodup
    exact fun a ha hb => (List.nodup_append.mp nodup).2.2 a ha a hb rfl
  have hfirst : (as.take n).filter (fun a => decide (a ∉ as.take n)) = [] :=
    List.filter_eq_nil_iff.mpr fun a ha => by simpa using ha
  have hlast : (as.drop n).filter (fun a => decide (a ∉ as.take n)) = as.drop n :=
    List.filter_eq_self.mpr fun a ha => by simpa using fun h => disjoint a h ha
  calc (as.filter fun a => decide (a ∉ as.take n))
      = (as.take n ++ as.drop n).filter (fun a => decide (a ∉ as.take n)) := by rw [split]
    _ = as.drop n := by rw [List.filter_append, hfirst, hlast, List.nil_append]

/-- **What is worked off leaves the selection**: the first entries of a sorted selection are changed so
that they are not selected any more, and every other row is left alone. -/
theorem insertionSort_worked_off [DecidableEq α] {p p' : α → Bool} {f : α → α} {n : Nat}
    (nodup : as.Nodup) (antisymm : ∀ a ∈ as, ∀ b ∈ as, r a b → r b a → a = b)
    (left : ∀ a ∈ as, a ∉ ((as.filter p).insertionSort r).take n → f a = a)
    (selected : ∀ a ∈ as,
      p' (f a) = (decide (a ∉ ((as.filter p).insertionSort r).take n) && p a)) :
    ((as.map f).filter p').insertionSort r = ((as.filter p).insertionSort r).drop n := by
  have hselect : (as.map f).filter p' =
      (as.filter p).filter fun a => decide (a ∉ ((as.filter p).insertionSort r).take n) := by
    have selected : ∀ a ∈ as, (p' ∘ f) a =
        (decide (a ∉ ((as.filter p).insertionSort r).take n) && p a) := selected
    rw [List.filter_map, List.filter_filter, List.filter_congr selected]
    refine (List.map_congr_left fun a ha => ?_).trans (List.map_id _)
    obtain ⟨hmem, hout⟩ := List.mem_filter.mp ha
    refine left a hmem ?_
    simpa using (Bool.and_eq_true_iff.mp hout).1
  have hnodup : ((as.filter p).insertionSort r).Nodup := by
    rw [(List.perm_insertionSort r _).nodup_iff]
    exact nodup.filter p
  rw [hselect, insertionSort_filter, filter_not_mem_take hnodup]
  exact fun a ha b hb => antisymm a (List.mem_of_mem_filter ha) b (List.mem_of_mem_filter hb)

end Selection

/-! ## Orders by two columns -/

section Columns

variable {κ ι : Type} [LinearOrder κ] [LE ι] {f : α → κ} {g : α → ι}

/-- `ORDER BY f, g`. -/
def firstBy (f : α → κ) (g : α → ι) (a b : α) : Prop := f a < f b ∨ (f a = f b ∧ g a ≤ g b)

theorem firstBy_total (total : ∀ x y : ι, x ≤ y ∨ y ≤ x) (a b : α) :
    firstBy f g a b ∨ firstBy f g b a := by
  rcases lt_trichotomy (f a) (f b) with h | h | h
  · exact .inl (.inl h)
  · exact (total (g a) (g b)).imp (fun hg => .inr ⟨h, hg⟩) fun hg => .inr ⟨h.symm, hg⟩
  · exact .inr (.inl h)

theorem firstBy_trans (trans : ∀ x y z : ι, x ≤ y → y ≤ z → x ≤ z) {a b c : α}
    (hab : firstBy f g a b) (hbc : firstBy f g b c) : firstBy f g a c := by
  rcases hab with hab | ⟨hab, hg⟩
  · rcases hbc with hbc | ⟨hbc, _⟩
    · exact .inl (hab.trans hbc)
    · exact .inl (hbc ▸ hab)
  · rcases hbc with hbc | ⟨hbc, hg'⟩
    · exact .inl (hab ▸ hbc)
    · exact .inr ⟨hab.trans hbc, trans _ _ _ hg hg'⟩

/-- The order determines the second column. -/
theorem firstBy_antisymm (antisymm : ∀ x y : ι, x ≤ y → y ≤ x → x = y) {a b : α}
    (hab : firstBy f g a b) (hba : firstBy f g b a) : g a = g b := by
  rcases hab with hab | ⟨hab, hg⟩
  · rcases hba with hba | ⟨hba, _⟩
    · exact absurd hab hba.asymm
    · exact absurd hba hab.ne'
  · rcases hba with hba | ⟨_, hg'⟩
    · exact absurd hab hba.ne'
    · exact antisymm _ _ hg hg'

end Columns

/-! ## Consecutive calls -/

section Calls

variable {limit : Nat} {s : σ}

/-- The state after the first `k` calls, with nothing in between. -/
def calls (call : Nat → σ → σ) (s : σ) : Nat → σ
  | 0 => s
  | k + 1 => call k (calls call s k)

@[simp] theorem calls_zero (call : Nat → σ → σ) (s : σ) : calls call s 0 = s := rfl

@[simp] theorem calls_succ (call : Nat → σ → σ) (s : σ) (k : Nat) :
    calls call s (k + 1) = call k (calls call s k) := rfl

/-- What holds at the start and is kept by each call holds after any number of them. -/
theorem calls_induction {call : Nat → σ → σ} {P : Nat → σ → Prop} (start : P 0 s)
    (step : ∀ k t, P k t → P (k + 1) (call k t)) (k : Nat) : P k (calls call s k) := by
  induction k with
  | zero => exact start
  | succ k ih => exact step k _ ih

/-- The number of calls that work off a list of `n` entries. -/
def callsFor (n limit : Nat) : Nat := (n + limit - 1) / limit

theorem le_mul_of_callsFor_le {n k : Nat} (positive : 0 < limit) (h : callsFor n limit ≤ k) :
    n ≤ k * limit := by
  have hlt : n + limit - 1 < limit * (callsFor n limit + 1) :=
    Nat.lt_mul_div_succ (n + limit - 1) positive
  have hle : limit * callsFor n limit ≤ limit * k := Nat.mul_le_mul_left limit h
  rw [Nat.mul_succ] at hlt
  rw [Nat.mul_comm k limit]
  omega

/-- Enough calls leave nothing. -/
theorem drop_eq_nil_of_callsFor_le {as : List α} {k : Nat} (positive : 0 < limit)
    (h : callsFor as.length limit ≤ k) : as.drop (k * limit) = [] :=
  List.drop_eq_nil_of_le (le_mul_of_callsFor_le positive h)

/-- The first blocks, and the next one. -/
theorem take_succ_mul (as : List α) (k limit : Nat) :
    as.take ((k + 1) * limit) = as.take (k * limit) ++ (as.drop (k * limit)).take limit := by
  rw [Nat.succ_mul, List.take_add]

end Calls

end Worklist
