import Mathlib.Data.List.Nodup

/-! Keyed tables: lists of rows no two of which share a key.

The key's uniqueness is a field, so a table with a duplicate key cannot be built
and no later proof has to maintain it. `insert?` is an insert under a unique
index (it fails on a taken key), `set` an upsert, `modify` an update of columns
outside the key, `update` the same for one row, and `filter` a delete. -/

/-- Rows with pairwise distinct keys, in the order they were first written. -/
@[ext] structure Table {ρ κ : Type} (key : ρ → κ) where
  rows : List ρ
  nodup : (rows.map key).Nodup

namespace Table
variable {ρ κ : Type} {key : ρ → κ}

def empty : Table key := ⟨[], List.nodup_nil⟩

theorem rows_nodup (t : Table key) : t.rows.Nodup := t.nodup.of_map

theorem eq_of_key (t : Table key) {r r' : ρ} (hr : r ∈ t.rows) (hr' : r' ∈ t.rows)
    (h : key r = key r') : r = r' :=
  List.inj_on_of_nodup_map t.nodup hr hr' h

/-- The rows satisfying `p`. -/
def filter (t : Table key) (p : ρ → Bool) : Table key :=
  ⟨t.rows.filter p, (List.filter_sublist.map key).nodup t.nodup⟩

/-- Every row rewritten outside its key. -/
def modify (t : Table key) (f : ρ → ρ) (hf : ∀ r, key (f r) = key r) : Table key :=
  ⟨t.rows.map f, by
    rw [List.map_map, show key ∘ f = key from funext hf]
    exact t.nodup⟩

@[simp] theorem modify_rows (t : Table key) (f : ρ → ρ) (hf : ∀ r, key (f r) = key r) :
    (t.modify f hf).rows = t.rows.map f := rfl

variable [DecidableEq κ]

/-- The row under `k`, if there is one, rewritten outside its key. -/
def update (t : Table key) (k : κ) (f : ρ → ρ) (hf : ∀ r, key (f r) = key r) : Table key :=
  t.modify (fun r => if key r = k then f r else r) fun r => by
    by_cases h : key r = k
    · rw [if_pos h, hf]
    · rw [if_neg h]

theorem update_rows (t : Table key) (k : κ) (f : ρ → ρ) (hf : ∀ r, key (f r) = key r) :
    (t.update k f hf).rows = t.rows.map fun r => if key r = k then f r else r := rfl

/-- A column that `f` leaves alone is unchanged in every row. -/
theorem map_update {σ : Type} (t : Table key) (k : κ) (f : ρ → ρ) (hf : ∀ r, key (f r) = key r)
    {column : ρ → σ} (hcolumn : ∀ r, column (f r) = column r) :
    (t.update k f hf).rows.map column = t.rows.map column := by
  rw [update_rows, List.map_map]
  apply List.map_congr_left
  intro r _
  show column (if key r = k then f r else r) = column r
  by_cases h : key r = k
  · rw [if_pos h, hcolumn]
  · rw [if_neg h]

/-- The row under `k`. -/
def find? (t : Table key) (k : κ) : Option ρ := t.rows.find? fun r => key r = k

theorem find?_eq_some {t : Table key} {k : κ} {r : ρ} :
    t.find? k = some r ↔ r ∈ t.rows ∧ key r = k := by
  constructor
  · intro h
    exact ⟨List.mem_of_find?_eq_some h, by simpa using List.find?_some h⟩
  · rintro ⟨hr, rfl⟩
    cases hf : t.find? (key r) with
    | none =>
      have := List.find?_eq_none.mp hf r hr
      simp at this
    | some r' =>
      have hr' := List.mem_of_find?_eq_some hf
      have hk : key r' = key r := by simpa using List.find?_some hf
      rw [t.eq_of_key hr' hr hk]

theorem find?_eq_none {t : Table key} {k : κ} : t.find? k = none ↔ ∀ r ∈ t.rows, key r ≠ k := by
  simp [find?]

theorem find?_key {t : Table key} {r : ρ} (hr : r ∈ t.rows) : t.find? (key r) = some r :=
  find?_eq_some.mpr ⟨hr, rfl⟩

theorem key_of_find? {t : Table key} {k : κ} {r : ρ} (h : t.find? k = some r) : key r = k :=
  (find?_eq_some.mp h).2

theorem mem_of_find? {t : Table key} {k : κ} {r : ρ} (h : t.find? k = some r) : r ∈ t.rows :=
  (find?_eq_some.mp h).1

@[simp] theorem find?_modify (t : Table key) (f : ρ → ρ) (hf : ∀ r, key (f r) = key r) (k : κ) :
    (t.modify f hf).find? k = (t.find? k).map f := by
  simp only [find?, modify_rows, List.find?_map, Function.comp_def, hf]

theorem find?_update (t : Table key) (k : κ) (f : ρ → ρ) (hf : ∀ r, key (f r) = key r) (k' : κ) :
    (t.update k f hf).find? k' = (t.find? k').map fun r => if k' = k then f r else r := by
  unfold update
  rw [find?_modify]
  cases h : t.find? k' with
  | none => rfl
  | some r =>
    rw [Option.map_some, Option.map_some, (find?_eq_some.mp h).2]

/-! ### Insert -/

/-- An insert under the unique key: refused when the key is taken. -/
def insert? (t : Table key) (r : ρ) : Option (Table key) :=
  if h : key r ∈ t.rows.map key then none
  else some ⟨t.rows ++ [r], by
    rw [List.map_append, List.nodup_append]
    refine ⟨t.nodup, List.nodup_singleton _, ?_⟩
    rintro k hk _ hr rfl
    rw [List.map_singleton, List.mem_singleton] at hr
    exact h (hr ▸ hk)⟩

theorem insert?_eq_some {t t' : Table key} {r : ρ} (h : t.insert? r = some t') :
    t.find? (key r) = none ∧ t'.rows = t.rows ++ [r] := by
  unfold insert? at h
  split at h
  · cases h
  · rename_i hk
    refine ⟨find?_eq_none.mpr fun x hx he => hk (List.mem_map.mpr ⟨x, hx, he⟩), ?_⟩
    rw [← Option.some.inj h]

/-- An insert leaves the other rows where they are. -/
theorem find?_insert {t t' : Table key} {r : ρ} (h : t.insert? r = some t') {k : κ} {x : ρ}
    (hx : t.find? k = some x) : t'.find? k = some x := by
  obtain ⟨hmem, hkey⟩ := find?_eq_some.mp hx
  rw [find?_eq_some, (insert?_eq_some h).2]
  exact ⟨List.mem_append_left _ hmem, hkey⟩

theorem find?_inserted {t t' : Table key} {r : ρ} (h : t.insert? r = some t') :
    t'.find? (key r) = some r := by
  rw [find?_eq_some, (insert?_eq_some h).2]
  exact ⟨List.mem_append_right _ (.head []), rfl⟩

/-- The row under a key after an insert. -/
theorem find?_after_insert {t t' : Table key} {r : ρ} (h : t.insert? r = some t') (k : κ) :
    t'.find? k = if k = key r then some r else t.find? k := by
  obtain ⟨_, hrows⟩ := insert?_eq_some h
  by_cases hkey : k = key r
  · rw [if_pos hkey, hkey]
    exact find?_inserted h
  · rw [if_neg hkey]
    have hlast : ¬key r = k := fun he => hkey he.symm
    simp [find?, hrows, List.find?_append, hlast]

theorem insert?_eq_none {t : Table key} {r : ρ} :
    t.insert? r = none ↔ ∃ x ∈ t.rows, key x = key r := by
  unfold insert?
  split
  · rename_i hk
    simpa using hk
  · rename_i hk
    simpa using hk

theorem insert?_of_fresh {t : Table key} {r : ρ} (h : t.find? (key r) = none) :
    ∃ t', t.insert? r = some t' ∧ t'.rows = t.rows ++ [r] := by
  cases hi : t.insert? r with
  | none =>
    obtain ⟨x, hx, he⟩ := insert?_eq_none.mp hi
    exact absurd he (find?_eq_none.mp h x hx)
  | some t' => exact ⟨t', rfl, (insert?_eq_some hi).2⟩

/-! ### Upsert -/

/-- The row under `key r` becomes `r`, in place if there is one, else appended. -/
def set (t : Table key) (r : ρ) : Table key :=
  if h : key r ∈ t.rows.map key then
    ⟨t.rows.map fun x => if key x = key r then r else x, by
      have hk : (key ∘ fun x => if key x = key r then r else x) = key := by
        funext x
        by_cases hx : key x = key r <;> simp [hx]
      rw [List.map_map, hk]
      exact t.nodup⟩
  else
    ⟨t.rows ++ [r], by
      rw [List.map_append, List.nodup_append]
      refine ⟨t.nodup, List.nodup_singleton _, ?_⟩
      rintro k hk _ hr rfl
      rw [List.map_singleton, List.mem_singleton] at hr
      exact h (hr ▸ hk)⟩

theorem mem_set {t : Table key} {r x : ρ} :
    x ∈ (t.set r).rows ↔ x = r ∨ x ∈ t.rows ∧ key x ≠ key r := by
  unfold set
  split
  · rename_i h
    obtain ⟨y, hy, hk⟩ := List.mem_map.mp h
    simp only [List.mem_map]
    constructor
    · rintro ⟨z, hz, rfl⟩
      by_cases hzk : key z = key r <;> simp [hzk, hz]
    · rintro (rfl | ⟨hx, hne⟩)
      · exact ⟨y, hy, by rw [if_pos hk]⟩
      · exact ⟨x, hx, by rw [if_neg hne]⟩
  · rename_i h
    simp only [List.mem_append, List.mem_singleton]
    constructor
    · rintro (hx | rfl)
      · exact .inr ⟨hx, fun he => h (he ▸ List.mem_map_of_mem hx)⟩
      · exact .inl rfl
    · rintro (rfl | ⟨hx, _⟩)
      · exact .inr rfl
      · exact .inl hx

@[simp] theorem find?_set_self (t : Table key) (r : ρ) : (t.set r).find? (key r) = some r :=
  find?_eq_some.mpr ⟨mem_set.mpr (.inl rfl), rfl⟩

theorem find?_set (t : Table key) (r : ρ) (k : κ) :
    (t.set r).find? k = if k = key r then some r else t.find? k := by
  split
  · rename_i h
    rw [h, find?_set_self]
  · rename_i h
    cases hf : t.find? k with
    | none =>
      refine find?_eq_none.mpr fun x hx he => ?_
      rcases mem_set.mp hx with rfl | ⟨hx, _⟩
      · exact h he.symm
      · exact find?_eq_none.mp hf x hx he
    | some y =>
      obtain ⟨hy, hk⟩ := find?_eq_some.mp hf
      exact find?_eq_some.mpr ⟨mem_set.mpr (.inr ⟨hy, fun he => h (hk ▸ he)⟩), hk⟩

/-- The same row written to two tables. -/
theorem find?_set_congr {t t' : Table key} {r : ρ} {k : κ} (h : t'.find? k = t.find? k) :
    (t'.set r).find? k = (t.set r).find? k := by
  rw [find?_set, find?_set, h]

theorem find?_set_ne {t : Table key} {r : ρ} {k : κ} (h : k ≠ key r) :
    (t.set r).find? k = t.find? k := by
  rw [find?_set, if_neg h]

end Table
