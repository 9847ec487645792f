import CaseCellShop.Library.Table

/-! References from rows to the keys of a table.

A list of rows resolves in a table when every key that a row refers to is there. What
keeps the keys of the table keeps the references to it; what the writes of a table of
referring rows leave refers to no more than its rows and the new one did. Two tables have
the same keys when there is a row under a key in both or in neither. -/
namespace Table
variable {ρ κ σ μ : Type} {key : ρ → κ} {key' : σ → μ} [DecidableEq κ] [DecidableEq μ]

/-- No key is lost. -/
def KeysKept (t t' : Table key) : Prop := ∀ k, (t.find? k).isSome → (t'.find? k).isSome

/-- Every reference of the rows leads to a row of the table. -/
def Resolves (t : Table key) (ref : σ → Option κ) (rows : List σ) : Prop :=
  ∀ r ∈ rows, ∀ k ∈ ref r, (t.find? k).isSome

variable {t t' : Table key} {ref : σ → Option κ} {rows rows' : List σ}

/-! ### Writes to the table -/

theorem KeysKept.refl (t : Table key) : KeysKept t t := fun _ h => h

theorem keysKept_modify (t : Table key) (f : ρ → ρ) (hf : ∀ r, key (f r) = key r) : KeysKept t (t.modify f hf) :=
  fun k h => by simpa using h

theorem keysKept_update (t : Table key) (k : κ) (f : ρ → ρ) (hf : ∀ r, key (f r) = key r) :
    KeysKept t (t.update k f hf) :=
  fun k' h => by simpa [find?_update] using h

theorem keysKept_set (t : Table key) (r : ρ) : KeysKept t (t.set r) := by
  intro k h
  rw [find?_set]
  split
  · rfl
  · exact h

theorem keysKept_insert {r : ρ} (h : t.insert? r = some t') : KeysKept t t' := by
  intro k hk
  rw [find?_after_insert h]
  split
  · rfl
  · exact hk

theorem Resolves.kept (h : t.Resolves ref rows) (hkept : KeysKept t t') : t'.Resolves ref rows :=
  fun r hr k hk => hkept k (h r hr k hk)

/-! ### Writes of the rows -/

theorem Resolves.subset (h : t.Resolves ref rows) (hsub : ∀ r ∈ rows', r ∈ rows) : t.Resolves ref rows' :=
  fun r hr => h r (hsub r hr)

theorem Resolves.append (h : t.Resolves ref rows) (h' : t.Resolves ref rows') : t.Resolves ref (rows ++ rows') :=
  fun r hr => (List.mem_append.mp hr).elim (h r) (h' r)

theorem resolves_singleton {r : σ} (h : ∀ k ∈ ref r, (t.find? k).isSome) : t.Resolves ref [r] :=
  List.forall_mem_singleton.mpr h

/-- Rows rewritten where they refer to nothing. -/
theorem Resolves.map (h : t.Resolves ref rows) {f : σ → σ} (hf : ∀ r, ref (f r) = ref r) :
    t.Resolves ref (rows.map f) := by
  intro r hr k hk
  obtain ⟨r', hr', rfl⟩ := List.mem_map.mp hr
  exact h r' hr' k (hf r' ▸ hk)

theorem Resolves.insert {s s' : Table key'} (h : t.Resolves ref s.rows) {r : σ} (hinsert : s.insert? r = some s')
    (hr : ∀ k ∈ ref r, (t.find? k).isSome) : t.Resolves ref s'.rows := by
  rw [(insert?_eq_some hinsert).2]
  exact h.append (resolves_singleton hr)

theorem Resolves.update {s : Table key'} (h : t.Resolves ref s.rows) (k : μ) {f : σ → σ}
    (hf : ∀ r, key' (f r) = key' r) (href : ∀ r, ref (f r) = ref r) : t.Resolves ref (s.update k f hf).rows := by
  refine h.map fun r => ?_
  split
  · exact href r
  · rfl

/-! ### Tables with the same keys -/

/-- There is a row under a key in both tables or in neither. -/
def SameKeys {key' : σ → κ} (s : Table key') (t : Table key) : Prop := ∀ k, (s.find? k).isSome = (t.find? k).isSome

theorem SameKeys.set {key' : σ → κ} {s : Table key'} (h : SameKeys s t) {r : σ} {r' : ρ} (hkey : key' r = key r') :
    SameKeys (s.set r) (t.set r') := by
  intro k
  rw [find?_set, find?_set, hkey]
  split
  · rfl
  · exact h k

/-- A row written over one that is there. -/
theorem SameKeys.overwrite {key' : σ → κ} {s : Table key'} (h : SameKeys s t) {r : σ}
    (hr : (s.find? (key' r)).isSome) : SameKeys (s.set r) t := by
  intro k
  rw [← h k, find?_set]
  split
  · rename_i hk
    rw [hk, hr]
    rfl
  · rfl

theorem SameKeys.modify {key' : σ → κ} {s : Table key'} (h : SameKeys s t) (f : ρ → ρ) (hf : ∀ r, key (f r) = key r) :
    SameKeys s (t.modify f hf) :=
  fun k => by simpa using h k

end Table
