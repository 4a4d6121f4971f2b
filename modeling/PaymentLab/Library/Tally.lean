import Mathlib.Algebra.BigOperators.Group.List.Basic
import Mathlib.Data.List.Sort
import Mathlib.Data.List.Nodup
import Mathlib.Data.List.Perm.Subperm

/-!
# Tallies

A dictionary that accumulates a value under a key, as a list of items in the order the keys first
appear, and what a comparison of tallies, of sets or of counts says about the rows they were taken
from. A tally keeps a total for each key and nothing else, so two tallies with the same items agree
on every total (`total_eq_of_same`); a count that reaches the number of rows speaks of every row
(`perm_of_same_set`, `forall_of_countP_eq`).
-/

namespace Tally

universe u v w

variable {α : Type u} {κ : Type v} {M : Type w}

section Accumulate

variable [DecidableEq κ] [AddCommMonoid M]

/-- Add to the value under a key; a key that is not there starts from zero. -/
def bump (key : κ) (amount : M) : List (κ × M) → List (κ × M)
  | [] => [(key, 0 + amount)]
  | (k, value) :: rest =>
    if k = key then (k, value + amount) :: rest else (k, value) :: bump key amount rest

/-- The accumulation of rows, one after another. -/
def tally (rows : List (κ × M)) : List (κ × M) :=
  rows.foldl (fun items row => bump row.1 row.2 items) []

/-- The sum of what stands under a key. -/
def total (key : κ) (items : List (κ × M)) : M :=
  ((items.filter fun item => decide (item.1 = key)).map (·.2)).sum

theorem total_cons (key : κ) (item : κ × M) (items : List (κ × M)) :
    total key (item :: items) = (if item.1 = key then item.2 else 0) + total key items := by
  unfold total
  by_cases h : item.1 = key
  · simp [h]
  · simp [h]

theorem total_append (key : κ) (items items' : List (κ × M)) :
    total key (items ++ items') = total key items + total key items' := by
  simp only [total, List.filter_append, List.map_append, List.sum_append]

theorem total_bump (j key : κ) (amount : M) (items : List (κ × M)) :
    total j (bump key amount items) = total j items + if key = j then amount else 0 := by
  induction items with
  | nil =>
    simp only [bump, total_cons, zero_add]
    exact add_comm _ _
  | cons item rest ih =>
    obtain ⟨k, value⟩ := item
    unfold bump
    split
    · next hk =>
      subst hk
      simp only [total_cons]
      by_cases h : k = j
      · simp only [if_pos h]
        exact add_right_comm _ _ _
      · simp only [if_neg h, zero_add, add_zero]
    · simp only [total_cons, ih, add_assoc]

/-- **A tally keeps every total.** -/
theorem total_tally (j : κ) (rows : List (κ × M)) : total j (tally rows) = total j rows := by
  have run : ∀ (rows items : List (κ × M)),
      total j (rows.foldl (fun items row => bump row.1 row.2 items) items) =
        total j items + total j rows := by
    intro rows
    induction rows with
    | nil => exact fun items => (add_zero _).symm
    | cons row rest ih =>
      intro items
      rw [List.foldl_cons, ih, total_bump, total_cons, add_assoc]
  rw [tally, run]
  exact zero_add _

theorem total_perm {items items' : List (κ × M)} (h : items.Perm items') (j : κ) :
    total j items = total j items' := ((h.filter _).map _).sum_eq

/-- **Equal tallies** come of rows with the same totals. -/
theorem total_eq_of_same {rows rows' : List (κ × M)} (h : (tally rows).Perm (tally rows')) (j : κ) :
    total j rows = total j rows' := by
  rw [← total_tally j rows, ← total_tally j rows', total_perm h]

theorem lookup_bump (j key : κ) (amount : M) (items : List (κ × M)) :
    ((bump key amount items).lookup j).getD 0 =
      (items.lookup j).getD 0 + if key = j then amount else 0 := by
  induction items with
  | nil =>
    by_cases h : j = key
    · simp [bump, h]
    · simp [bump, List.lookup_cons, Ne.symm h, beq_eq_false_iff_ne.mpr h]
  | cons item rest ih =>
    obtain ⟨k, value⟩ := item
    unfold bump
    split
    · next hk =>
      subst hk
      by_cases h : j = k
      · simp [h]
      · simp [List.lookup_cons, beq_eq_false_iff_ne.mpr h, Ne.symm h]
    · next hk =>
      by_cases h : j = k
      · subst h
        simp [Ne.symm hk]
      · simp [List.lookup_cons, beq_eq_false_iff_ne.mpr h, ih]

/-- The value a tally holds under a key is the total of its rows. -/
theorem lookup_tally (j : κ) (rows : List (κ × M)) :
    ((tally rows).lookup j).getD 0 = total j rows := by
  have run : ∀ (rows items : List (κ × M)),
      ((rows.foldl (fun items row => bump row.1 row.2 items) items).lookup j).getD 0 =
        (items.lookup j).getD 0 + total j rows := by
    intro rows
    induction rows with
    | nil => exact fun items => (add_zero _).symm
    | cons row rest ih =>
      intro items
      rw [List.foldl_cons, ih, lookup_bump, total_cons, add_assoc]
  rw [tally, run]
  exact zero_add _

/-! ### Equal tallies -/

theorem keys_bump (key : κ) (amount : M) (items : List (κ × M)) :
    (bump key amount items).map (·.1) =
      if key ∈ items.map (·.1) then items.map (·.1) else items.map (·.1) ++ [key] := by
  induction items with
  | nil => simp [bump]
  | cons item rest ih =>
    obtain ⟨k, value⟩ := item
    unfold bump
    by_cases hk : k = key
    · simp [hk]
    · rw [if_neg hk, List.map_cons, ih]
      by_cases hrest : key ∈ rest.map (·.1)
      · simp only [List.map_cons, List.mem_cons, hrest, or_true, if_true]
      · simp only [List.map_cons, List.mem_cons, hrest, or_false, Ne.symm hk, if_false,
          List.cons_append]

/-- The keys of a tally are those of its rows, each once. -/
theorem tally_keys (rows : List (κ × M)) :
    ((tally rows).map (·.1)).Nodup ∧ ∀ j, j ∈ (tally rows).map (·.1) ↔ j ∈ rows.map (·.1) := by
  have run : ∀ (rows items : List (κ × M)), (items.map (·.1)).Nodup →
      ((rows.foldl (fun items row => bump row.1 row.2 items) items).map (·.1)).Nodup ∧
        ∀ j, j ∈ (rows.foldl (fun items row => bump row.1 row.2 items) items).map (·.1) ↔
          j ∈ items.map (·.1) ∨ j ∈ rows.map (·.1) := by
    intro rows
    induction rows with
    | nil => exact fun items nodup => ⟨nodup, fun j => by simp⟩
    | cons row rest ih =>
      intro items nodup
      rw [List.foldl_cons]
      have keys := keys_bump row.1 row.2 items
      by_cases hmem : row.1 ∈ items.map (·.1)
      · rw [if_pos hmem] at keys
        obtain ⟨distinct, same⟩ := ih (bump row.1 row.2 items) (keys ▸ nodup)
        refine ⟨distinct, fun j => ?_⟩
        rw [same, keys, List.map_cons, List.mem_cons]
        constructor
        · exact Or.imp_right .inr
        · rintro (h | rfl | h)
          · exact .inl h
          · exact .inl hmem
          · exact .inr h
      · rw [if_neg hmem] at keys
        obtain ⟨distinct, same⟩ := ih (bump row.1 row.2 items)
          (keys ▸ nodup.append (List.nodup_singleton _) (List.disjoint_singleton.mpr hmem))
        refine ⟨distinct, fun j => ?_⟩
        rw [same, keys, List.map_cons, List.mem_cons, List.mem_append, List.mem_singleton, or_assoc]
  obtain ⟨nodup, same⟩ := run rows [] List.nodup_nil
  exact ⟨nodup, fun j => (same j).trans (by simp)⟩

/-- Under distinct keys, the total of a key is the value that stands under it. -/
theorem total_of_mem {items : List (κ × M)} (nodup : (items.map (·.1)).Nodup) {item : κ × M}
    (mem : item ∈ items) : total item.1 items = item.2 := by
  induction items with
  | nil => cases mem
  | cons head rest ih =>
    obtain ⟨fresh, nodup⟩ := List.nodup_cons.mp nodup
    rw [total_cons]
    rcases List.mem_cons.mp mem with rfl | mem
    · have hzero : rest.filter (fun other => decide (other.1 = item.1)) = [] := by
        refine List.filter_eq_nil_iff.mpr fun other hother heq => fresh ?_
        exact List.mem_map.mpr ⟨other, hother, of_decide_eq_true heq⟩
      unfold total
      rw [if_pos rfl, hzero]
      exact add_zero _
    · have hne : head.1 ≠ item.1 := fun heq => fresh (List.mem_map.mpr ⟨item, mem, heq.symm⟩)
      rw [if_neg hne, zero_add, ih nodup mem]

/-- **Rows with the same keys and the same totals have the same tally**, up to order. -/
theorem tally_perm {rows rows' : List (κ × M)}
    (keys : ∀ j, j ∈ rows.map (·.1) ↔ j ∈ rows'.map (·.1))
    (totals : ∀ j, total j rows = total j rows') : (tally rows).Perm (tally rows') := by
  have within : ∀ {rows rows' : List (κ × M)},
      (∀ j, j ∈ rows.map (·.1) ↔ j ∈ rows'.map (·.1)) → (∀ j, total j rows = total j rows') →
      ∀ item ∈ tally rows, item ∈ tally rows' := by
    intro rows rows' keys totals item mem
    obtain ⟨nodup, same⟩ := tally_keys rows
    obtain ⟨nodup', same'⟩ := tally_keys rows'
    have hkey : item.1 ∈ (tally rows').map (·.1) :=
      (same' _).mpr ((keys _).mp ((same _).mp (List.mem_map_of_mem mem)))
    obtain ⟨item', mem', hitem⟩ := List.mem_map.mp hkey
    have hvalue : item'.2 = item.2 := by
      rw [← total_of_mem nodup' mem', ← total_of_mem nodup mem, hitem, total_tally, total_tally,
        totals]
    rwa [← Prod.ext hitem hvalue]
  refine (List.perm_ext_iff_of_nodup (tally_keys rows).1.of_map (tally_keys rows').1.of_map).mpr ?_
  exact fun item => ⟨within keys totals item,
    within (fun j => (keys j).symm) (fun j => (totals j).symm) item⟩

/-- A tally does not depend on the order of its rows. -/
theorem tally_of_perm {rows rows' : List (κ × M)} (h : rows.Perm rows') :
    (tally rows).Perm (tally rows') :=
  tally_perm (fun _ => (h.map _).mem_iff) (total_perm h)

end Accumulate

/-! ## Counters -/

section Counters

variable [DecidableEq κ]

/-- The occurrences of each value. -/
def counter (xs : List κ) : List (κ × Nat) := tally (xs.map fun x => (x, 1))

theorem total_ones (j : κ) (xs : List κ) : total j (xs.map fun x => (x, 1)) = xs.count j := by
  induction xs with
  | nil => rfl
  | cons x rest ih =>
    rw [List.map_cons, total_cons, ih, List.count_cons, add_comm]
    simp

theorem lookup_counter (j : κ) (xs : List κ) : ((counter xs).lookup j).getD 0 = xs.count j :=
  (lookup_tally j _).trans (total_ones j xs)

/-- **Equal counters** count the same values: the lists are the same up to order. -/
theorem perm_of_same_counter {xs ys : List κ} (h : (counter xs).Perm (counter ys)) :
    xs.Perm ys := by
  refine List.perm_iff_count.mpr fun j => ?_
  rw [← total_ones, ← total_ones]
  exact total_eq_of_same h j

/-- A counter does not depend on the order of the values. -/
theorem counter_of_perm {xs ys : List κ} (h : xs.Perm ys) : (counter xs).Perm (counter ys) :=
  tally_of_perm (h.map _)

/-- The counter of one value, repeated. -/
theorem counter_replicate {n : Nat} (positive : 0 < n) (x : κ) :
    counter (List.replicate n x) = [(x, n)] := by
  obtain ⟨m, rfl⟩ := Nat.exists_eq_add_of_lt positive
  have run : ∀ (m count : Nat), ((List.replicate m x).map fun x => (x, 1)).foldl
      (fun items row => bump row.1 row.2 items) [(x, count)] = [(x, count + m)] := by
    intro m
    induction m with
    | zero => exact fun _ => rfl
    | succ m ih =>
      intro count
      rw [List.replicate_succ, List.map_cons, List.foldl_cons]
      simp only [bump, if_true]
      rw [ih, add_assoc, add_comm 1 m]
  rw [Nat.zero_add, List.replicate_succ]
  exact (run m (0 + 1)).trans (by rw [Nat.zero_add, add_comm])

end Counters

/-! ## Sets and counts of rows -/

section Rows

/-- The comparison of the sets of two lists. -/
def sameSet [DecidableEq κ] (xs ys : List κ) : Bool := xs.all (ys.contains ·) && ys.all (xs.contains ·)

theorem sameSet_iff [DecidableEq κ] {xs ys : List κ} :
    sameSet xs ys = true ↔ ∀ x, x ∈ xs ↔ x ∈ ys := by
  simp only [sameSet, Bool.and_eq_true, List.all_eq_true, List.contains_iff_mem]
  exact ⟨fun h x => ⟨h.1 x, h.2 x⟩, fun h => ⟨fun x => (h x).mp, fun x => (h x).mpr⟩⟩

/-- As many rows as there are distinct values, with the same set of values: each value once. -/
theorem perm_of_same_set {xs ys : List κ} (nodup : xs.Nodup) (length : ys.length = xs.length)
    (same : ∀ x, x ∈ xs ↔ x ∈ ys) : ys.Perm xs :=
  ((List.subperm_of_subset nodup fun x hx => (same x).mp hx).perm_of_length_le length.le).symm

/-- A count that reaches the number of rows speaks of every row. -/
theorem forall_of_countP_eq {p : α → Bool} {xs : List α} (h : xs.countP p = xs.length) :
    ∀ x ∈ xs, p x = true := List.countP_eq_length.mp h

/-- An accumulation whose measure goes up by one on some rows, and by nothing on the others, counts
those rows. -/
theorem foldl_countP {β : Type w} (measure : β → Nat) {step : β → α → β} {q : α → Bool}
    (grows : ∀ b x, measure (step b x) = measure b + if q x = true then 1 else 0) :
    ∀ (xs : List α) (b : β), measure (xs.foldl step b) = measure b + xs.countP q := by
  intro xs
  induction xs with
  | nil => exact fun _ => rfl
  | cons x rest ih =>
    intro b
    rw [List.foldl_cons, ih, grows, List.countP_cons]
    omega

/-- A condition that implies another as frequent one is the other. -/
theorem iff_of_countP_eq {p q : α → Bool} {xs : List α} (h : xs.countP p = xs.countP q)
    (imp : ∀ x ∈ xs, p x = true → q x = true) : ∀ x ∈ xs, q x = true → p x = true := by
  induction xs with
  | nil => simp
  | cons a rest ih =>
    have hrest : ∀ x ∈ rest, p x = true → q x = true :=
      fun x hx => imp x (List.mem_cons_of_mem _ hx)
    have hle : rest.countP p ≤ rest.countP q := List.countP_mono_left hrest
    rw [List.countP_cons, List.countP_cons] at h
    have hhead : q a = true → p a = true := by
      intro hq
      by_contra hp
      rw [if_neg hp, if_pos hq] at h
      omega
    have htail : rest.countP p = rest.countP q := by
      by_cases hp : p a = true
      · rw [if_pos hp, if_pos (imp a List.mem_cons_self hp)] at h
        omega
      · rw [if_neg hp, if_neg fun hq => hp (hhead hq)] at h
        omega
    intro x hx
    rcases List.mem_cons.mp hx with rfl | hx
    · exact hhead
    · exact ih htail hrest x hx

/-- A value that a list of keys has once is the key of one row. -/
theorem filter_eq_singleton [BEq κ] [LawfulBEq κ] [DecidableEq κ] {key : α → κ} {xs : List α} {k : κ}
    (once : (xs.map key).count k = 1) :
    ∃ x ∈ xs, key x = k ∧ xs.filter (fun x => decide (key x = k)) = [x] := by
  have hlength : (xs.filter fun x => decide (key x = k)).length = 1 := by
    rw [← List.countP_eq_length_filter, ← once, List.count_eq_countP, List.countP_map]
    exact List.countP_congr fun x _ => by simp
  obtain ⟨x, hx⟩ := List.length_eq_one_iff.mp hlength
  have hmem : x ∈ xs.filter fun x => decide (key x = k) := hx ▸ List.mem_singleton.mpr rfl
  obtain ⟨hxs, hkey⟩ := List.mem_filter.mp hmem
  exact ⟨x, hxs, of_decide_eq_true hkey, hx⟩

end Rows

end Tally
