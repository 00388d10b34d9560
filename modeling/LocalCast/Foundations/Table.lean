import Mathlib.Tactic

/-!
Tables of rows with a primary key, as a relational store keeps them.

* `Table ρ`: rows in insertion order, no two with the same key.
* `get`, `find`, `insert`, `put`, `update`, `updateKey`, `delete`, `count`: the statements
  a program runs against a table. An update may not touch the key; `insert` answers
  `none` where the key is taken, as a violated constraint does.
* `get_update`, `get_updateKey`, `get_put`, `get_delete`, `get_insert`: what a lookup by
  key answers after each of them, the only facts the clients of a table need.
-/

/-- Rows of type `ρ` carry a primary key of type `κ`. -/
class Keyed (ρ : Type*) (κ : outParam Type*) where
  key : ρ → κ

/-- A table: rows in insertion order, no two with the same key. -/
structure Table (ρ : Type*) {κ : Type*} [Keyed ρ κ] where
  rows : List ρ
  nodup : (rows.map Keyed.key).Nodup

namespace Table

variable {ρ κ : Type*} [Keyed ρ κ] [DecidableEq κ]

/-- The table with no rows. -/
def empty : Table ρ := ⟨[], List.nodup_nil⟩

/-- The first row satisfying a condition. -/
def find (t : Table ρ) (p : ρ → Bool) : Option ρ := t.rows.find? p

/-- The row with a given key. -/
def get (t : Table ρ) (k : κ) : Option ρ := t.rows.find? fun r => decide (Keyed.key r = k)

/-- The number of rows satisfying a condition. -/
def count (t : Table ρ) (p : ρ → Bool) : ℕ := t.rows.countP p

/-- Insert a row, refused where its key is taken. -/
def insert (t : Table ρ) (r : ρ) : Option (Table ρ) :=
  if h : Keyed.key r ∈ t.rows.map Keyed.key then none
  else some ⟨t.rows ++ [r], by
    rw [List.map_append, List.nodup_append]
    refine ⟨t.nodup, List.nodup_singleton _, fun a ha b hb => ?_⟩
    rw [List.map_cons, List.map_nil, List.mem_singleton] at hb
    exact fun hab => h (hb ▸ hab ▸ ha)⟩

/-- Rewrite the rows satisfying a condition, by a function that keeps the key of those. -/
def update (t : Table ρ) (p : ρ → Bool) (f : ρ → ρ)
    (hf : ∀ r, p r = true → Keyed.key (f r) = Keyed.key r := by intro _ _; rfl) : Table ρ :=
  ⟨t.rows.map fun r => if p r then f r else r, by
    have h : (Keyed.key ∘ fun r => if p r then f r else r) = (Keyed.key : ρ → κ) := by
      funext r
      by_cases hp : p r = true
      · simp [hp, hf r hp]
      · simp [hp]
    rw [List.map_map, h]
    exact t.nodup⟩

/-- Rewrite the row with a given key. -/
def updateKey (t : Table ρ) (k : κ) (f : ρ → ρ)
    (hf : ∀ r, Keyed.key r = k → Keyed.key (f r) = Keyed.key r := by intro _ _; rfl) :
    Table ρ :=
  t.update (fun r => decide (Keyed.key r = k)) f fun r hr => hf r (of_decide_eq_true hr)

/-- Insert a row, or replace the one that has its key. -/
def put (t : Table ρ) (r : ρ) : Table ρ :=
  match t.insert r with
  | some t' => t'
  | none => t.updateKey (Keyed.key r) (fun _ => r) fun _ h => h.symm

/-- Drop the rows satisfying a condition. -/
def delete (t : Table ρ) (p : ρ → Bool) : Table ρ :=
  ⟨t.rows.filter fun r => !p r, t.nodup.sublist (List.filter_sublist.map _)⟩

/-! ### Lookups by key -/

omit [DecidableEq κ] in
lemma eq_of_key {t : Table ρ} {r r' : ρ} (hr : r ∈ t.rows) (hr' : r' ∈ t.rows)
    (h : Keyed.key r = Keyed.key r') : r = r' :=
  List.inj_on_of_nodup_map t.nodup hr hr' h

lemma get_eq_some_iff {t : Table ρ} {k : κ} {r : ρ} :
    t.get k = some r ↔ r ∈ t.rows ∧ Keyed.key r = k := by
  constructor
  · intro h
    exact ⟨List.mem_of_find?_eq_some h, by simpa using List.find?_some h⟩
  · rintro ⟨hr, hk⟩
    cases h : t.get k with
    | none =>
        rw [get, List.find?_eq_none] at h
        exact absurd hk (by simpa using h r hr)
    | some r' =>
        have hr' := List.mem_of_find?_eq_some h
        have hk' : Keyed.key r' = k := by simpa using List.find?_some h
        rw [eq_of_key hr' hr (hk'.trans hk.symm)]

lemma key_of_get {t : Table ρ} {k : κ} {r : ρ} (h : t.get k = some r) : Keyed.key r = k :=
  (get_eq_some_iff.mp h).2

lemma get_of_mem {t : Table ρ} {r : ρ} (h : r ∈ t.rows) : t.get (Keyed.key r) = some r :=
  get_eq_some_iff.mpr ⟨h, rfl⟩

lemma get_eq_none_iff {t : Table ρ} {k : κ} :
    t.get k = none ↔ k ∉ t.rows.map Keyed.key := by
  rw [get, List.find?_eq_none]
  simp

lemma mem_of_find {t : Table ρ} {p : ρ → Bool} {r : ρ} (h : t.find p = some r) :
    t.get (Keyed.key r) = some r ∧ p r = true :=
  ⟨get_of_mem (List.mem_of_find?_eq_some h), List.find?_some h⟩

@[simp] lemma get_empty (k : κ) : (empty : Table ρ).get k = none := rfl

/-! ### Lookups after a statement -/

lemma get_update (t : Table ρ) (p : ρ → Bool) (f : ρ → ρ)
    (hf : ∀ r, p r = true → Keyed.key (f r) = Keyed.key r) (k : κ) :
    (t.update p f hf).get k = (t.get k).map fun r => if p r then f r else r := by
  have h : (fun r => decide (Keyed.key (if p r then f r else r) = k))
      = fun r : ρ => decide (Keyed.key r = k) := by
    funext r
    by_cases hp : p r = true
    · simp [hp, hf r hp]
    · simp [hp]
  rw [get, update, List.find?_map]
  exact congrArg (Option.map _) (congrArg (fun q => List.find? q t.rows) h)

lemma get_updateKey (t : Table ρ) (k : κ) (f : ρ → ρ)
    (hf : ∀ r, Keyed.key r = k → Keyed.key (f r) = Keyed.key r) (k' : κ) :
    (t.updateKey k f hf).get k' = if k' = k then (t.get k').map f else t.get k' := by
  rw [updateKey, get_update]
  cases h : t.get k' with
  | none => simp
  | some r =>
      have hk := key_of_get h
      by_cases hkk : k' = k <;> simp [hk, hkk]

/-- An update of a key that no row has changes nothing. -/
lemma updateKey_of_get_none {t : Table ρ} {k : κ} {f : ρ → ρ}
    {hf : ∀ r, Keyed.key r = k → Keyed.key (f r) = Keyed.key r} (h : t.get k = none) :
    t.updateKey k f hf = t := by
  have hrows : (t.rows.map fun r => if decide (Keyed.key r = k) then f r else r) = t.rows := by
    refine (List.map_congr_left fun r hr => ?_).trans (List.map_id _)
    have hne : Keyed.key r ≠ k := fun hk =>
      get_eq_none_iff.mp h (hk ▸ List.mem_map_of_mem hr)
    simp [hne]
  simp only [updateKey, update, hrows]

/-- A row found after an update is one found before, rewritten or not. -/
lemma of_get_update {t : Table ρ} {p : ρ → Bool} {f : ρ → ρ}
    {hf : ∀ r, p r = true → Keyed.key (f r) = Keyed.key r} {k : κ} {r' : ρ}
    (h : (t.update p f hf).get k = some r') :
    ∃ r, t.get k = some r ∧ (r' = r ∨ p r = true ∧ r' = f r) := by
  rw [get_update] at h
  obtain ⟨r, hr, rfl⟩ := Option.map_eq_some_iff.mp h
  refine ⟨r, hr, ?_⟩
  split_ifs with hp
  · exact .inr ⟨hp, rfl⟩
  · exact .inl rfl

lemma of_get_updateKey {t : Table ρ} {k : κ} {f : ρ → ρ}
    {hf : ∀ r, Keyed.key r = k → Keyed.key (f r) = Keyed.key r} {k' : κ} {r' : ρ}
    (h : (t.updateKey k f hf).get k' = some r') :
    ∃ r, t.get k' = some r ∧ (r' = r ∨ k' = k ∧ r' = f r) := by
  rw [get_updateKey] at h
  split_ifs at h with hk
  · obtain ⟨r, hr, rfl⟩ := Option.map_eq_some_iff.mp h
    exact ⟨r, hr, .inr ⟨hk, rfl⟩⟩
  · exact ⟨r', h, .inl rfl⟩

/-- The row under the key of an update is a rewritten one. -/
lemma of_get_updateKey_self {t : Table ρ} {k : κ} {f : ρ → ρ}
    {hf : ∀ r, Keyed.key r = k → Keyed.key (f r) = Keyed.key r} {r' : ρ}
    (h : (t.updateKey k f hf).get k = some r') : ∃ r, t.get k = some r ∧ r' = f r := by
  rw [get_updateKey, if_pos rfl] at h
  obtain ⟨r, hr, rfl⟩ := Option.map_eq_some_iff.mp h
  exact ⟨r, hr, rfl⟩

lemma get_delete (t : Table ρ) (p : ρ → Bool) (k : κ) :
    (t.delete p).get k = (t.get k).filter fun r => !p r := by
  cases h : t.get k with
  | none =>
      rw [get_eq_none_iff] at h
      rw [Option.filter_none, get_eq_none_iff]
      exact fun hk => h ((List.filter_sublist.map _).subset hk)
  | some r =>
      obtain ⟨hr, hk⟩ := get_eq_some_iff.mp h
      by_cases hp : p r = true
      · rw [Option.filter_some, if_neg (by simp [hp]), get, List.find?_eq_none]
        intro r' hr' hk'
        have hmem := List.mem_filter.mp hr'
        have : r' = r := eq_of_key hmem.1 hr (by simpa [hk] using hk')
        simp [this, hp] at hmem
      · rw [Option.filter_some, if_pos (by simp [hp]), get_eq_some_iff]
        exact ⟨List.mem_filter.mpr ⟨hr, by simp [hp]⟩, hk⟩

lemma get_insert {t t' : Table ρ} {r : ρ} (h : t.insert r = some t') (k : κ) :
    t'.get k = if k = Keyed.key r then some r else t.get k := by
  rw [insert] at h
  split at h
  · cases h
  case isFalse hfree =>
    cases h
    rw [get, List.find?_append]
    by_cases hk : k = Keyed.key r
    · have hnone : t.get (Keyed.key r) = none := get_eq_none_iff.mpr hfree
      rw [get] at hnone
      simp [hk, hnone]
    · have : (Keyed.key r = k) = False := by simp [Ne.symm hk]
      simp [hk, this, get]

lemma insert_eq_none_iff {t : Table ρ} {r : ρ} :
    t.insert r = none ↔ t.get (Keyed.key r) ≠ none := by
  rw [insert, ne_eq, get_eq_none_iff, not_not]
  split <;> simp_all

lemma get_put (t : Table ρ) (r : ρ) (k : κ) :
    (t.put r).get k = if k = Keyed.key r then some r else t.get k := by
  rw [put]
  cases h : t.insert r with
  | some t' => exact get_insert h k
  | none =>
      rw [get_updateKey]
      by_cases hk : k = Keyed.key r
      · obtain ⟨r', hr'⟩ := Option.ne_none_iff_exists'.mp (insert_eq_none_iff.mp h)
        simp [hk, hr']
      · simp [hk]

lemma get_of_insert {t t' : Table ρ} {r : ρ} (h : t.insert r = some t') :
    t.get (Keyed.key r) = none := by
  rw [insert] at h
  split at h
  · cases h
  case isFalse hfree => exact get_eq_none_iff.mpr hfree

end Table
