import Mathlib.Data.List.Nodup
import Mathlib.Data.List.Pairwise
import Mathlib.Tactic.Common

/-!
# Relational tables

A table is a list of rows in insertion order, over a schema that names the primary key, the check
constraint of a row and the unique constraints between two rows. The constraints are fields of the
table, so a table that violates one cannot be built: `insert` and `update` answer `none` where the
database would raise an integrity error.

Nothing here depends on what the rows are. The reading lemmas (`get_insert`, `get_update`,
`get_eq_some`) are stated on `get`, the lookup by primary key; `insert_rows` and `update_rows` state
the rows themselves for the queries that filter.

A refused statement answers `none` and leaves no table, so it is up to the program what to raise.
Foreign keys relate several tables and are stated, where they matter, as properties of the database.
-/

universe u v

namespace Relational

variable {α : Type u} {κ : Type v}

/-- What a table declares: the primary key, the check constraint, and the unique constraints other
than the primary key, as the pairs of rows that violate one. Foreign keys are between tables and not
part of it. -/
structure Schema (α : Type u) (κ : Type v) where
  key : α → κ
  check : α → Bool
  clash : α → α → Bool

/-- Rows in insertion order that satisfy every constraint of the schema. The constraints are fields,
so that a table which violates one cannot be built, and an insert or an update that would is refused. -/
@[ext]
structure Table (S : Schema α κ) where
  rows : List α
  distinct : rows.Pairwise fun a b => S.key a ≠ S.key b ∧ S.clash a b = false
  checked : ∀ r ∈ rows, S.check r = true

namespace Table

variable {S : Schema α κ}

/-- The table with no row. -/
def empty (S : Schema α κ) : Table S where
  rows := []
  distinct := List.Pairwise.nil
  checked := fun _ h => nomatch h

instance : EmptyCollection (Table S) := ⟨empty S⟩

instance : Inhabited (Table S) := ⟨∅⟩

@[simp] theorem rows_empty : (∅ : Table S).rows = [] := rfl

variable [DecidableEq κ]

/-- The row with a primary key. -/
def get (t : Table S) (k : κ) : Option α := t.rows.find? fun r => decide (S.key r = k)

/-- `INSERT`: the row at the end of the table, unless a constraint refuses it. -/
def insert (t : Table S) (r : α) : Option (Table S) :=
  if h : S.check r = true ∧
      ∀ x ∈ t.rows, S.key x ≠ S.key r ∧ S.clash x r = false then
    some
      { rows := t.rows ++ [r]
        distinct := List.pairwise_append.mpr
          ⟨t.distinct, List.pairwise_singleton _ _, fun a ha b hb => by
            rw [List.mem_singleton.mp hb]; exact h.2 a ha⟩
        checked := fun x hx => by
          rcases List.mem_append.mp hx with hx | hx
          · exact t.checked x hx
          · rw [List.mem_singleton.mp hx]; exact h.1 }
  else none

/-- A row, or the row that replaces it under the same key. -/
def overwrite (S : Schema α κ) (r x : α) : α := if S.key x = S.key r then r else x

@[simp] theorem key_overwrite (r x : α) : S.key (overwrite S r x) = S.key x := by
  unfold overwrite
  split
  · next h => exact h.symm
  · rfl

theorem overwrite_of_ne {r x : α} (h : S.key x ≠ S.key r) : overwrite S r x = x := if_neg h

theorem overwrite_of_eq {r x : α} (h : S.key x = S.key r) : overwrite S r x = r := if_pos h

/-- `UPDATE` of the row with `r`'s key to `r`, unless a constraint refuses it. The position of the
row is kept. -/
def update (t : Table S) (r : α) : Option (Table S) :=
  if h : S.check r = true ∧
      ∀ x ∈ t.rows, S.key x ≠ S.key r → S.clash x r = false ∧ S.clash r x = false then
    some
      { rows := t.rows.map (overwrite S r)
        distinct := List.pairwise_map.mpr <|
          t.distinct.imp_of_mem fun {a b} ha hb hab => by
            refine ⟨by simpa only [key_overwrite] using hab.1, ?_⟩
            by_cases hka : S.key a = S.key r
            · have hkb : S.key b ≠ S.key r := fun e => hab.1 (hka.trans e.symm)
              rw [overwrite_of_eq hka, overwrite_of_ne hkb]
              exact (h.2 b hb hkb).2
            · by_cases hkb : S.key b = S.key r
              · rw [overwrite_of_ne hka, overwrite_of_eq hkb]
                exact (h.2 a ha hka).1
              · rw [overwrite_of_ne hka, overwrite_of_ne hkb]
                exact hab.2
        checked := fun x hx => by
          obtain ⟨y, hy, rfl⟩ := List.mem_map.mp hx
          unfold overwrite
          split
          · exact h.1
          · exact t.checked y hy }
  else none

/-! ## Lookup -/

/-- A lookup answers a row of the table that carries the key. -/
theorem get_eq_some {t : Table S} {k : κ} {r : α} (h : t.get k = some r) :
    r ∈ t.rows ∧ S.key r = k :=
  ⟨List.mem_of_find?_eq_some h, by simpa only [decide_eq_true_eq] using List.find?_some h⟩

omit [DecidableEq κ] in
/-- No two rows of a table share a key. -/
theorem nodup_keys (t : Table S) : (t.rows.map S.key).Nodup :=
  List.pairwise_map.mpr (t.distinct.imp fun hab => hab.1)

omit [DecidableEq κ] in
/-- The primary key determines the row. -/
theorem eq_of_key_eq {t : Table S} {a b : α} (ha : a ∈ t.rows) (hb : b ∈ t.rows)
    (h : S.key a = S.key b) : a = b := List.inj_on_of_nodup_map t.nodup_keys ha hb h

omit [DecidableEq κ] in
/-- Two rows of a table clash in at most one direction. -/
theorem clash_eq_false {t : Table S} {a b : α} (ha : a ∈ t.rows) (hb : b ∈ t.rows) (hne : a ≠ b) :
    S.clash a b = false ∨ S.clash b a = false := by
  have apart : t.rows.Pairwise fun a b => S.clash a b = false ∨ S.clash b a = false :=
    t.distinct.imp fun hab => .inl hab.2
  have : Std.Symm fun a b => S.clash a b = false ∨ S.clash b a = false := ⟨fun _ _ h => h.symm⟩
  exact apart.forall ha hb hne

/-- A row of the table is what its key looks up. -/
theorem get_of_mem {t : Table S} {r : α} (h : r ∈ t.rows) : t.get (S.key r) = some r := by
  cases hg : t.get (S.key r) with
  | none =>
    have := List.find?_eq_none.mp hg r h
    simp only [decide_true, not_true_eq_false] at this
  | some x =>
    obtain ⟨hx, hk⟩ := get_eq_some hg
    rw [eq_of_key_eq hx h hk]

theorem mem_iff_get {t : Table S} {r : α} : r ∈ t.rows ↔ t.get (S.key r) = some r :=
  ⟨get_of_mem, fun h => (get_eq_some h).1⟩

theorem get_eq_none {t : Table S} {k : κ} : t.get k = none ↔ ∀ r ∈ t.rows, S.key r ≠ k := by
  simp only [get, List.find?_eq_none, decide_eq_true_eq, ne_eq]

@[simp] theorem get_empty (k : κ) : (∅ : Table S).get k = none := rfl

/-- A lookup in a table that was extended at the end. -/
theorem get_append {t t' : Table S} {added : List α} (h : t'.rows = t.rows ++ added) (k : κ) :
    t'.get k = (t.get k).or (added.find? fun r => decide (S.key r = k)) := by
  unfold get
  rw [h, List.find?_append]

/-! ## Insertion -/

/-- What an accepted insertion says: the key was free and the row satisfies its check. -/
theorem insert_eq_some {t t' : Table S} {r : α} (h : t.insert r = some t') :
    t'.rows = t.rows ++ [r] ∧ t.get (S.key r) = none ∧ S.check r = true := by
  unfold insert at h
  split at h
  · next hc =>
    cases h
    exact ⟨rfl, get_eq_none.mpr fun x hx => (hc.2 x hx).1, hc.1⟩
  · cases h

theorem insert_rows {t t' : Table S} {r : α} (h : t.insert r = some t') :
    t'.rows = t.rows ++ [r] := (insert_eq_some h).1

theorem get_insert {t t' : Table S} {r : α} (h : t.insert r = some t') (k : κ) :
    t'.get k = if S.key r = k then some r else t.get k := by
  obtain ⟨hrows, hfree, _⟩ := insert_eq_some h
  unfold get at hfree ⊢
  rw [hrows, List.find?_append]
  split
  · next hk => subst hk; simp only [hfree, List.find?_singleton, decide_true, if_true, Option.none_or]
  · next hk =>
    simp only [List.find?_singleton, hk, decide_false, Bool.false_eq_true, if_false, Option.or_none]

theorem get_insert_self {t t' : Table S} {r : α} (h : t.insert r = some t') :
    t'.get (S.key r) = some r := by rw [get_insert h, if_pos rfl]

theorem get_insert_of_ne {t t' : Table S} {r : α} {k : κ} (h : t.insert r = some t')
    (hk : S.key r ≠ k) : t'.get k = t.get k := by rw [get_insert h, if_neg hk]

/-- An insertion leaves every row that was there. -/
theorem get_insert_of_some {t t' : Table S} {r x : α} {k : κ} (h : t.insert r = some t')
    (hx : t.get k = some x) : t'.get k = some x := by
  rw [get_insert h]
  split
  · next hk => rw [← hk, (insert_eq_some h).2.1] at hx; cases hx
  · exact hx

/-- An insertion that no constraint refuses is accepted. -/
theorem insert_isSome {t : Table S} {r : α} (hcheck : S.check r = true)
    (hfree : t.get (S.key r) = none) (hclash : ∀ x ∈ t.rows, S.clash x r = false) :
    ∃ t', t.insert r = some t' := by
  unfold insert
  exact ⟨_, dif_pos ⟨hcheck, fun x hx => ⟨get_eq_none.mp hfree x hx, hclash x hx⟩⟩⟩

/-- A key that is taken is refused. -/
theorem insert_eq_none {t : Table S} {r x : α} (h : t.get (S.key r) = some x) :
    t.insert r = none := by
  unfold insert
  refine dif_neg fun hc => ?_
  obtain ⟨hx, hk⟩ := get_eq_some h
  exact (hc.2 x hx).1 hk

/-- `INSERT` of several rows in their order; the first refusal refuses the statement. -/
def insertAll (t : Table S) : List α → Option (Table S)
  | [] => some t
  | r :: rest => (t.insert r).bind fun t' => t'.insertAll rest

/-- Rows apart from the table's and from one another are all accepted, at the end of the table. -/
theorem insertAll_isSome {rows : List α} :
    ∀ {t : Table S}, (∀ r ∈ rows, S.check r = true) →
      (∀ r ∈ rows, ∀ x ∈ t.rows, S.key x ≠ S.key r ∧ S.clash x r = false) →
      (rows.Pairwise fun a b => S.key a ≠ S.key b ∧ S.clash a b = false) →
      ∃ t', t.insertAll rows = some t' ∧ t'.rows = t.rows ++ rows := by
  induction rows with
  | nil => exact fun {t} _ _ _ => ⟨t, rfl, (List.append_nil _).symm⟩
  | cons r rest ih =>
    intro t hcheck hfree hapart
    obtain ⟨hhead, htail⟩ := List.pairwise_cons.mp hapart
    have hr := hfree r List.mem_cons_self
    obtain ⟨t₁, hinsert⟩ := insert_isSome (hcheck r List.mem_cons_self)
      (get_eq_none.mpr fun x hx => (hr x hx).1) (fun x hx => (hr x hx).2)
    have hrows := insert_rows hinsert
    have hfree₁ : ∀ y ∈ rest, ∀ x ∈ t₁.rows, S.key x ≠ S.key y ∧ S.clash x y = false := by
      intro y hy x hx
      rw [hrows] at hx
      rcases List.mem_append.mp hx with hx | hx
      · exact hfree y (List.mem_cons_of_mem _ hy) x hx
      · rw [List.mem_singleton.mp hx]
        exact hhead y hy
    obtain ⟨t', hall, hrows'⟩ :=
      ih (fun y hy => hcheck y (List.mem_cons_of_mem _ hy)) hfree₁ htail
    refine ⟨t', ?_, ?_⟩
    · simp only [insertAll, hinsert, Option.bind_some, hall]
    · rw [hrows', hrows, List.append_assoc, List.singleton_append]

/-! ## Update -/

theorem update_rows {t t' : Table S} {r : α} (h : t.update r = some t') :
    t'.rows = t.rows.map (overwrite S r) := by
  unfold update at h
  split at h
  · cases h; rfl
  · cases h

theorem update_check {t t' : Table S} {r : α} (h : t.update r = some t') : S.check r = true := by
  unfold update at h
  split at h
  · next hc => exact hc.1
  · cases h

theorem get_update {t t' : Table S} {r : α} (h : t.update r = some t') (k : κ) :
    t'.get k = if S.key r = k then (t.get k).map fun _ => r else t.get k := by
  unfold get
  rw [update_rows h, List.find?_map]
  have hcomp : (fun x => decide (S.key x = k)) ∘ overwrite S r = fun x => decide (S.key x = k) := by
    funext x
    simp only [Function.comp_apply, key_overwrite]
  rw [hcomp]
  cases hf : t.rows.find? fun x => decide (S.key x = k) with
  | none => simp only [Option.map_none, ite_self]
  | some x =>
    have hk : S.key x = k := (get_eq_some hf).2
    simp only [Option.map_some, overwrite, hk, eq_comm]
    split <;> rfl

theorem get_update_self {t t' : Table S} {r x : α} (h : t.update r = some t')
    (hx : t.get (S.key r) = some x) : t'.get (S.key r) = some r := by
  rw [get_update h, if_pos rfl, hx]; rfl

theorem get_update_of_ne {t t' : Table S} {r : α} {k : κ} (h : t.update r = some t')
    (hk : S.key r ≠ k) : t'.get k = t.get k := by
  rw [get_update h, if_neg hk]

/-- What the new row shares with the stored one, the table keeps. -/
theorem map_update {β : Type*} {t t' : Table S} {r x : α} (h : t.update r = some t')
    (hx : t.get (S.key r) = some x) (f : α → β) (hf : f r = f x) :
    t'.rows.map f = t.rows.map f := by
  rw [update_rows h, List.map_map]
  refine List.map_congr_left fun y hy => ?_
  show f (overwrite S r y) = f y
  by_cases hk : S.key y = S.key r
  · obtain ⟨hmem, hkey⟩ := get_eq_some hx
    rw [overwrite_of_eq hk, hf, eq_of_key_eq hmem hy (hkey.trans hk.symm)]
  · rw [overwrite_of_ne hk]

/-- An update that no constraint refuses is accepted. -/
theorem update_isSome {t : Table S} {r : α} (hcheck : S.check r = true)
    (hclash : ∀ x ∈ t.rows, S.key x ≠ S.key r → S.clash x r = false ∧ S.clash r x = false) :
    ∃ t', t.update r = some t' := by
  unfold update
  exact ⟨_, dif_pos ⟨hcheck, hclash⟩⟩

/-- An update that changes nothing a constraint speaks of is accepted. -/
theorem update_isSome_of_stored {t : Table S} {r x : α} (hx : t.get (S.key r) = some x)
    (hcheck : S.check r = S.check x) (hclash : ∀ y, S.clash y r = S.clash y x)
    (symm : ∀ a b, S.clash a b = S.clash b a) : ∃ t', t.update r = some t' := by
  obtain ⟨hmem, hkey⟩ := get_eq_some hx
  refine update_isSome (hcheck.trans (t.checked x hmem)) fun y hy hne => ?_
  have hapart : S.clash y x = false := by
    have hyx : y ≠ x := fun heq => hne (heq ▸ hkey)
    rcases clash_eq_false hy hmem hyx with h | h
    · exact h
    · rw [symm, h]
  exact ⟨(hclash y).trans hapart, by rw [symm, hclash y, hapart]⟩

/-- A row inserted and then rewritten under its key is the rewritten row inserted. -/
theorem insert_update {t t₁ t₂ : Table S} {r r' : α} (hkey : S.key r' = S.key r)
    (hinsert : t.insert r = some t₁) (hupdate : t₁.update r' = some t₂) :
    t.insert r' = some t₂ := by
  obtain ⟨hrows, hfree, _⟩ := insert_eq_some hinsert
  have hne : ∀ x ∈ t.rows, S.key x ≠ S.key r' := by
    rw [hkey]
    exact get_eq_none.mp hfree
  have hclash : ∀ x ∈ t.rows, S.clash x r' = false := by
    intro x hx
    unfold update at hupdate
    split at hupdate
    · next hc => exact (hc.2 x (hrows ▸ List.mem_append_left _ hx) (hne x hx)).1
    · cases hupdate
  have hsame : t.rows.map (overwrite S r') = t.rows :=
    (List.map_congr_left fun x hx => overwrite_of_ne (hne x hx)).trans (List.map_id _)
  unfold insert
  rw [dif_pos ⟨update_check hupdate, fun x hx => ⟨hne x hx, hclash x hx⟩⟩]
  refine congrArg some (Table.ext ?_)
  show t.rows ++ [r'] = t₂.rows
  rw [update_rows hupdate, hrows, List.map_append, hsame, List.map_singleton,
    overwrite_of_eq hkey.symm]

/-! ## Queries -/

/-- The rows that satisfy a condition, in insertion order. -/
def select (t : Table S) (p : α → Bool) : List α := t.rows.filter p

omit [DecidableEq κ] in
theorem mem_select {t : Table S} {p : α → Bool} {r : α} :
    r ∈ t.select p ↔ r ∈ t.rows ∧ p r = true := List.mem_filter

/-- The rows under a key are the one it looks up. -/
theorem select_key {t : Table S} {k : κ} {r : α} (h : t.get k = some r) :
    (t.select fun x => decide (S.key x = k)) = [r] := by
  obtain ⟨hmem, hkey⟩ := get_eq_some h
  obtain ⟨before, after, hsplit⟩ := List.append_of_mem hmem
  have hdistinct := t.distinct
  rw [hsplit, List.pairwise_append] at hdistinct
  obtain ⟨_, htail, hacross⟩ := hdistinct
  have hbefore : before.filter (fun x => decide (S.key x = k)) = [] := by
    refine List.filter_eq_nil_iff.mpr fun x hx hk => ?_
    exact (hacross x hx r List.mem_cons_self).1 ((of_decide_eq_true hk).trans hkey.symm)
  have hafter : after.filter (fun x => decide (S.key x = k)) = [] := by
    refine List.filter_eq_nil_iff.mpr fun x hx hk => ?_
    exact ((List.pairwise_cons.mp htail).1 x hx).1 (hkey.trans (of_decide_eq_true hk).symm)
  unfold select
  simp only [hsplit, List.filter_append, hbefore, List.filter_cons, hkey, decide_true, if_true,
    hafter, List.nil_append]

theorem select_insert {t t' : Table S} {r : α} (h : t.insert r = some t') (p : α → Bool) :
    t'.select p = t.select p ++ if p r then [r] else [] := by
  unfold select
  rw [insert_rows h, List.filter_append]
  congr 1
  cases hp : p r <;> simp only [List.filter_cons, hp, List.filter_nil]

theorem select_insert_of_false {t t' : Table S} {r : α} (h : t.insert r = some t')
    {p : α → Bool} (hp : p r = false) : t'.select p = t.select p := by
  rw [select_insert h, hp]; simp only [Bool.false_eq_true, if_false, List.append_nil]

theorem select_insert_of_true {t t' : Table S} {r : α} (h : t.insert r = some t')
    {p : α → Bool} (hp : p r = true) : t'.select p = t.select p ++ [r] := by
  rw [select_insert h, hp]; rfl

omit [DecidableEq κ] in
@[simp] theorem select_empty (p : α → Bool) : (∅ : Table S).select p = [] := rfl

end Table

end Relational
