import Mathlib.Algebra.BigOperators.Group.Finset.Piecewise
import Mathlib.Data.List.Forall2

/-!
# Lists

Rules for the lists a program reads and reports: lists that correspond element by element, lists in
strict order of a key, sums over the keys of rows, lists that grew at their end, and the parts of a
text between separators.
-/

namespace Lists

variable {α β γ κ : Type}

/-! ## Corresponding lists -/

section Corresponding

variable {R : α → β → Prop} {as : List α} {bs : List β}

/-- Each element of the first list has a partner in the second. -/
theorem forall₂_left (h : List.Forall₂ R as bs) {a : α} (mem : a ∈ as) : ∃ b ∈ bs, R a b := by
  induction h with
  | nil => cases mem
  | @cons x y as bs hxy _ ih =>
    rcases List.mem_cons.mp mem with rfl | mem
    · exact ⟨y, List.mem_cons_self, hxy⟩
    · obtain ⟨b, hb, hab⟩ := ih mem
      exact ⟨b, List.mem_cons_of_mem _ hb, hab⟩

/-- Each element of the second list has a partner in the first. -/
theorem forall₂_right (h : List.Forall₂ R as bs) {b : β} (mem : b ∈ bs) : ∃ a ∈ as, R a b := by
  obtain ⟨a, ha, hab⟩ := forall₂_left h.flip mem
  exact ⟨a, ha, hab⟩

/-- A list whose elements have corresponding ones has a corresponding list. -/
theorem exists_forall₂ : ∀ {as : List α}, (∀ a ∈ as, ∃ b, R a b) → ∃ bs, List.Forall₂ R as bs := by
  intro as
  induction as with
  | nil => exact fun _ => ⟨[], .nil⟩
  | cons a as ih =>
    intro h
    obtain ⟨b, hab⟩ := h a List.mem_cons_self
    obtain ⟨bs, hbs⟩ := ih fun x mem => h x (List.mem_cons_of_mem _ mem)
    exact ⟨b :: bs, .cons hab hbs⟩

/-- A list that corresponds to two corresponding ones. -/
theorem exists_forall₂_forall₂ {P : β → γ → Prop} {Q : α → γ → Prop} (h : List.Forall₂ R as bs)
    (step : ∀ a ∈ as, ∀ b, R a b → ∃ c, P b c ∧ Q a c) :
    ∃ cs, List.Forall₂ P bs cs ∧ List.Forall₂ Q as cs := by
  induction h with
  | nil => exact ⟨[], .nil, .nil⟩
  | cons hab _ ih =>
    obtain ⟨c, hp, hq⟩ := step _ List.mem_cons_self _ hab
    obtain ⟨cs, hps, hqs⟩ := ih fun a mem => step a (List.mem_cons_of_mem _ mem)
    exact ⟨c :: cs, .cons hp hps, .cons hq hqs⟩

/-- Corresponding lists agree in what corresponding elements agree in. -/
theorem forall₂_map_eq {f : α → γ} {g : β → γ} (h : List.Forall₂ R as bs)
    (agree : ∀ a b, R a b → f a = g b) : as.map f = bs.map g := by
  induction h with
  | nil => rfl
  | cons hab _ ih => rw [List.map_cons, List.map_cons, agree _ _ hab, ih]

/-- A list read element by element. -/
theorem mapM_eq_some {f : α → Option β} : ∀ {as : List α} {bs : List β},
    as.mapM f = some bs ↔ List.Forall₂ (fun a b => f a = some b) as bs := by
  intro as
  induction as with
  | nil =>
    intro bs
    cases bs <;> simp
  | cons a as ih =>
    intro bs
    rw [List.mapM_cons]
    cases ha : f a with
    | none => cases bs <;> simp [ha]
    | some b' =>
      cases has : as.mapM f with
      | none =>
        cases bs with
        | nil => simp
        | cons b bs => simp [has, ← ih]
      | some bs' =>
        cases bs with
        | nil => simp
        | cons b bs => simp [ha, has, ← ih]

end Corresponding

/-! ## Keys -/

/-- A list in the order of a key that no two elements share is in strict order. -/
theorem pairwise_strict {key : α → κ} {le lt : κ → κ → Prop}
    (strict : ∀ a b, le a b → a ≠ b → lt a b) {as : List α}
    (sorted : as.Pairwise fun a b => le (key a) (key b)) (nodup : (as.map key).Nodup) :
    as.Pairwise fun a b => lt (key a) (key b) :=
  List.Pairwise.imp₂ (fun _ _ => strict _ _) sorted (List.pairwise_map.mp nodup)

/-- A sum over rows is the sum over the keys they have. -/
theorem sum_by_key {M : Type} [DecidableEq κ] [AddCommMonoid M] (key : α → κ) (f : α → M)
    {keys : List κ} (nodup : keys.Nodup) : ∀ {rows : List α}, (∀ r ∈ rows, key r ∈ keys) →
    (rows.map f).sum = (keys.map fun k => ((rows.filter fun r => decide (key r = k)).map f).sum).sum := by
  intro rows
  induction rows with
  | nil =>
    intro _
    simp
  | cons r rest ih =>
    intro cover
    have hrest := ih fun x mem => cover x (List.mem_cons_of_mem _ mem)
    have hone : (keys.map fun k => if key r = k then f r else 0).sum = f r := by
      rw [← List.sum_toFinset _ nodup, Finset.sum_ite_eq,
        if_pos (List.mem_toFinset.mpr (cover r List.mem_cons_self))]
    have hsplit : ∀ k, (((r :: rest).filter fun x => decide (key x = k)).map f).sum =
        (if key r = k then f r else 0) + ((rest.filter fun x => decide (key x = k)).map f).sum := by
      intro k
      rw [List.filter_cons]
      split <;> simp_all
    simp only [hsplit, List.sum_map_add, hone, List.map_cons, List.sum_cons, hrest]

/-! ## Lists that grew -/

section Grown

variable {P Q : α → Prop} {xs ys : List α} {x : α}

/-- The second list is the first with elements of `P` at its end. -/
def Grown (P : α → Prop) (xs ys : List α) : Prop := ∃ new, ys = xs ++ new ∧ ∀ x ∈ new, P x

theorem Grown.refl (xs : List α) : Grown P xs xs := ⟨[], (List.append_nil xs).symm, nofun⟩

theorem Grown.snoc (h : Grown P xs ys) (hx : P x) : Grown P xs (ys ++ [x]) := by
  obtain ⟨new, rfl, hnew⟩ := h
  refine ⟨new ++ [x], List.append_assoc .., fun y mem => ?_⟩
  rcases List.mem_append.mp mem with mem | mem
  · exact hnew y mem
  · rw [List.mem_singleton.mp mem]
    exact hx

theorem Grown.mem (h : Grown P xs ys) (mem : x ∈ ys) : x ∈ xs ∨ P x := by
  obtain ⟨new, rfl, hnew⟩ := h
  rcases List.mem_append.mp mem with mem | mem
  · exact .inl mem
  · exact .inr (hnew x mem)

/-- What a list grew by. -/
theorem Grown.added {new : List α} (h : Grown P xs (xs ++ new)) (mem : x ∈ new) : P x := by
  obtain ⟨added, heq, hadded⟩ := h
  rw [List.append_cancel_left heq] at mem
  exact hadded x mem

theorem Grown.filter (h : Grown P xs ys) (q : α → Bool) : Grown P (xs.filter q) (ys.filter q) := by
  obtain ⟨new, rfl, hnew⟩ := h
  exact ⟨new.filter q, List.filter_append .., fun x mem => hnew x (List.mem_of_mem_filter mem)⟩

end Grown

/-! ## Parts of a text -/

/-- The parts between separators have no separator. -/
theorem not_mem_of_mem_splitOn [DecidableEq α] {x : α} {as part : List α}
    (mem : part ∈ as.splitOn x) : x ∉ part := by
  induction as generalizing part with
  | nil =>
    rw [List.splitOn_nil, List.mem_singleton] at mem
    simp [mem]
  | cons a as ih =>
    rw [List.splitOn_cons_eq_if_modifyHead] at mem
    split at mem
    · rcases List.mem_cons.mp mem with rfl | mem
      · simp
      · exact ih mem
    · next hne =>
      cases hsplit : as.splitOn x with
      | nil => exact absurd hsplit (List.splitOn_ne_nil x as)
      | cons first rest =>
        rw [hsplit] at mem ih
        rcases List.mem_cons.mp mem with rfl | mem
        · have hfirst := ih List.mem_cons_self
          simp only [beq_iff_eq] at hne
          simp [hfirst, Ne.symm hne]
        · exact ih (List.mem_cons_of_mem _ mem)

end Lists
