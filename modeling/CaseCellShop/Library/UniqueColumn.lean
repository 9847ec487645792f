import Mathlib.Logic.Function.Basic
import Mathlib.Data.List.Basic

/-! Upserts under a second unique column.

A table is seen through one column: each key has at most one value there, and the
column is unique as well. Upserting keys one after the other fails when a value still
stands under another key at that moment, so the order matters: a value may move from
one key to another only if its old key is upserted first. For entries that are
one-to-one among themselves this is the only way to fail (`accepts_iff`). -/
namespace UniqueColumn
variable {κ σ : Type}

/-- Key and value determine each other. -/
structure OneToOne (entries : List (κ × σ)) : Prop where
  value : ∀ e ∈ entries, ∀ e' ∈ entries, e.1 = e'.1 → e.2 = e'.2
  key : ∀ e ∈ entries, ∀ e' ∈ entries, e.2 = e'.2 → e.1 = e'.1

theorem OneToOne.tail {e : κ × σ} {rest : List (κ × σ)} (h : OneToOne (e :: rest)) : OneToOne rest where
  value a ha b hb := h.value a (.tail e ha) b (.tail e hb)
  key a ha b hb := h.key a (.tail e ha) b (.tail e hb)

/-- No key but `k` has the value. -/
def Free (column : κ → Option σ) (k : κ) (value : σ) : Prop := ∀ k', column k' = some value → k' = k

variable [DecidableEq κ]

/-- The column after the upserts. -/
def upserts (column : κ → Option σ) (entries : List (κ × σ)) : κ → Option σ :=
  entries.foldl (fun column e => Function.update column e.1 (some e.2)) column

/-- Each upsert finds its value free. -/
def Accepts : (κ → Option σ) → List (κ × σ) → Prop
  | _, [] => True
  | column, e :: rest => Free column e.1 e.2 ∧ Accepts (Function.update column e.1 (some e.2)) rest

@[simp] theorem upserts_nil (column : κ → Option σ) : upserts column [] = column := rfl

@[simp] theorem upserts_cons (column : κ → Option σ) (e : κ × σ) (rest : List (κ × σ)) :
    upserts column (e :: rest) = upserts (Function.update column e.1 (some e.2)) rest := rfl

@[simp] theorem accepts_nil (column : κ → Option σ) : Accepts column [] := trivial

theorem accepts_cons (column : κ → Option σ) (e : κ × σ) (rest : List (κ × σ)) :
    Accepts column (e :: rest) ↔
      Free column e.1 e.2 ∧ Accepts (Function.update column e.1 (some e.2)) rest := Iff.rfl

theorem accepts_append (column : κ → Option σ) (as bs : List (κ × σ)) :
    Accepts column (as ++ bs) ↔ Accepts column as ∧ Accepts (upserts column as) bs := by
  induction as generalizing column with
  | nil => simp
  | cons e rest ih => rw [List.cons_append, accepts_cons, accepts_cons, ih, upserts_cons, and_assoc]

theorem upserts_isSome {column : κ → Option σ} {entries : List (κ × σ)} {k : κ}
    (h : (column k).isSome ∨ k ∈ entries.map Prod.fst) : (upserts column entries k).isSome := by
  induction entries generalizing column with
  | nil => simpa using h
  | cons e rest ih =>
    rw [upserts_cons]
    apply ih
    by_cases hk : k = e.1
    · exact .inl (by simp [hk])
    · simpa [Function.update_of_ne hk, hk] using h

theorem upserts_of_not_mem {column : κ → Option σ} {entries : List (κ × σ)} {k : κ} (h : k ∉ entries.map Prod.fst) :
    upserts column entries k = column k := by
  induction entries generalizing column with
  | nil => rfl
  | cons e rest ih =>
    rw [List.map_cons, List.mem_cons, not_or] at h
    rw [upserts_cons, ih h.2, Function.update_of_ne h.1]

/-- What is upserted does not depend on what was there. -/
theorem upserts_of_mem {entries : List (κ × σ)} {k : κ} (h : k ∈ entries.map Prod.fst)
    (column column' : κ → Option σ) :
    upserts column entries k = upserts column' entries k := by
  induction entries generalizing column column' with
  | nil => cases h
  | cons e rest ih =>
    rw [upserts_cons, upserts_cons]
    by_cases hrest : k ∈ rest.map Prod.fst
    · exact ih hrest _ _
    · rw [upserts_of_not_mem hrest, upserts_of_not_mem hrest]
      obtain rfl : k = e.1 := by simpa [hrest] using h
      simp

theorem upserts_upserts (column : κ → Option σ) (entries : List (κ × σ)) :
    upserts (upserts column entries) entries = upserts column entries := by
  funext k
  by_cases h : k ∈ entries.map Prod.fst
  · exact upserts_of_mem h _ _
  · exact upserts_of_not_mem h

/-- Whoever has a value at the start is its new key or a key upserted before. -/
def MovesInOrder (column : κ → Option σ) (entries : List (κ × σ)) : Prop :=
  ∀ before k value after, entries = before ++ (k, value) :: after →
    ∀ k', column k' = some value → k' = k ∨ k' ∈ before.map Prod.fst

theorem movesInOrder_cons {column : κ → Option σ} {e : κ × σ} {rest : List (κ × σ)} (h : OneToOne (e :: rest)) :
    MovesInOrder column (e :: rest) ↔
      Free column e.1 e.2 ∧ MovesInOrder (Function.update column e.1 (some e.2)) rest := by
  constructor
  · intro hmoves
    refine ⟨fun k' hk' => by simpa using hmoves [] e.1 e.2 rest rfl k' hk', ?_⟩
    rintro before k value after rfl k' hk'
    by_cases he : k' = e.1
    · -- the value has just been put there, so it is the value of `e`
      have hvalue : e.2 = value := by simpa [he] using hk'
      exact .inl (he.trans (h.key e (.head _) (k, value) (by simp) hvalue))
    · rw [Function.update_of_ne he] at hk'
      have := hmoves (e :: before) k value after rfl k' hk'
      simpa [he] using this
  · rintro ⟨hfree, hmoves⟩ before k value after hsplit k' hk'
    cases before with
    | nil =>
      obtain ⟨rfl, rfl⟩ := List.cons.inj hsplit
      exact .inl (hfree k' hk')
    | cons e' before =>
      obtain ⟨rfl, rfl⟩ := List.cons.inj hsplit
      by_cases he : k' = e.1
      · exact .inr (by simp [he])
      · rcases hmoves before k value after rfl k' (by rwa [Function.update_of_ne he]) with hk | hk
        · exact .inl hk
        · exact .inr (.tail _ hk)

theorem accepts_iff {column : κ → Option σ} {entries : List (κ × σ)} (h : OneToOne entries) :
    Accepts column entries ↔ MovesInOrder column entries := by
  induction entries generalizing column with
  | nil => simp [MovesInOrder]
  | cons e rest ih => rw [accepts_cons, movesInOrder_cons h, ih h.tail]

end UniqueColumn
