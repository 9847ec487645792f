import Mathlib.Data.List.Sort

/-! Sorting with a comparison that may throw.

An insertion sort that stops at the first exception of its comparison. If no comparison
throws it is `List.insertionSort`; if it returns at all, it returns the same elements. -/
namespace ThrowingSort
variable {ε α : Type}

/-- Insert before the first element that is not below. -/
def insert (le : α → α → Except ε Bool) (a : α) : List α → Except ε (List α)
  | [] => .ok [a]
  | b :: rest => do
    let below ← le a b
    if below then return a :: b :: rest
    else do
      let rest' ← insert le a rest
      return b :: rest'

def sort (le : α → α → Except ε Bool) : List α → Except ε (List α)
  | [] => .ok []
  | a :: rest => do
    let rest' ← sort le rest
    insert le a rest'

theorem insert_perm {le : α → α → Except ε Bool} {a : α} {as bs : List α} (h : insert le a as = .ok bs) :
    bs.Perm (a :: as) := by
  induction as generalizing bs with
  | nil =>
    cases h
    exact .refl _
  | cons b rest ih =>
    unfold insert at h
    cases hle : le a b with
    | error e =>
      rw [hle] at h
      cases h
    | ok below =>
      rw [hle] at h
      cases below with
      | true =>
        cases h
        exact .refl _
      | false =>
        change (insert le a rest >>= fun rest' => .ok (b :: rest')) = .ok bs at h
        cases hrest : insert le a rest with
        | error e =>
          rw [hrest] at h
          cases h
        | ok rest' =>
          rw [hrest] at h
          cases h
          exact ((ih hrest).cons b).trans (.swap a b rest)

theorem sort_perm {le : α → α → Except ε Bool} {as bs : List α} (h : sort le as = .ok bs) : bs.Perm as := by
  induction as generalizing bs with
  | nil =>
    cases h
    exact .refl _
  | cons a rest ih =>
    change (sort le rest >>= insert le a) = .ok bs at h
    cases hrest : sort le rest with
    | error e =>
      rw [hrest] at h
      cases h
    | ok rest' =>
      rw [hrest] at h
      exact (insert_perm h).trans ((ih hrest).cons a)

/-- An exception is one of the comparison's. -/
theorem insert_error {le : α → α → Except ε Bool} {a : α} {as : List α} {e : ε} (h : insert le a as = .error e) :
    ∃ b, le a b = .error e := by
  induction as with
  | nil => cases h
  | cons b rest ih =>
    unfold insert at h
    cases hle : le a b with
    | error e' =>
      rw [hle] at h
      cases h
      exact ⟨b, hle⟩
    | ok below =>
      rw [hle] at h
      cases below with
      | true => cases h
      | false =>
        change (insert le a rest >>= fun rest' => .ok (b :: rest')) = .error e at h
        cases hrest : insert le a rest with
        | error e' =>
          rw [hrest] at h
          cases h
          exact ih hrest
        | ok rest' =>
          rw [hrest] at h
          cases h

theorem sort_error {le : α → α → Except ε Bool} {as : List α} {e : ε} (h : sort le as = .error e) :
    ∃ a b, le a b = .error e := by
  induction as with
  | nil => cases h
  | cons a rest ih =>
    change (sort le rest >>= insert le a) = .error e at h
    cases hrest : sort le rest with
    | error e' =>
      rw [hrest] at h
      cases h
      exact ih hrest
    | ok rest' =>
      rw [hrest] at h
      exact ⟨a, insert_error h⟩

theorem insert_of_total {le : α → α → Except ε Bool} {r : α → α → Prop} [DecidableRel r] {a : α} {as : List α}
    (h : ∀ b ∈ as, le a b = .ok (decide (r a b))) : insert le a as = .ok (as.orderedInsert r a) := by
  induction as with
  | nil => rfl
  | cons b rest ih =>
    unfold insert
    rw [h b (.head rest), ih fun c hc => h c (.tail b hc), List.orderedInsert_cons]
    by_cases hr : r a b <;> simp [hr] <;> rfl

/-- A comparison that does not throw on these elements. -/
theorem sort_of_total {le : α → α → Except ε Bool} {r : α → α → Prop} [DecidableRel r] {as : List α}
    (h : ∀ a ∈ as, ∀ b ∈ as, le a b = .ok (decide (r a b))) : sort le as = .ok (as.insertionSort r) := by
  induction as with
  | nil => rfl
  | cons a rest ih =>
    show (sort le rest >>= insert le a) = _
    rw [ih fun b hb c hc => h b (.tail a hb) c (.tail a hc)]
    refine insert_of_total fun b hb => h a (.head rest) b (.tail a ?_)
    rwa [List.mem_insertionSort] at hb

end ThrowingSort
