import Mathlib.Data.List.Basic

/-! Interleavings of two lists.

A shuffle takes every element of both lists, each list in its order. What a run of
shuffled steps does to one part of the state is decided by the steps that touch it, so
where each list has one such step there are only two outcomes. -/

/-- `cs` interleaves `as` and `bs`. -/
inductive Shuffle {α : Type} : List α → List α → List α → Prop
  | nil : Shuffle [] [] []
  | left {a : α} {as bs cs : List α} (h : Shuffle as bs cs) : Shuffle (a :: as) bs (a :: cs)
  | right {b : α} {as bs cs : List α} (h : Shuffle as bs cs) : Shuffle as (b :: bs) (b :: cs)

namespace Shuffle
variable {α σ : Type} {as bs cs : List α}

theorem filter (h : Shuffle as bs cs) (p : α → Bool) :
    Shuffle (as.filter p) (bs.filter p) (cs.filter p) := by
  induction h with
  | nil => exact .nil
  | @left a as bs cs h ih =>
    by_cases hp : p a
    · simpa only [List.filter_cons_of_pos hp] using ih.left
    · simpa only [List.filter_cons_of_neg hp] using ih
  | @right b as bs cs h ih =>
    by_cases hp : p b
    · simpa only [List.filter_cons_of_pos hp] using ih.right
    · simpa only [List.filter_cons_of_neg hp] using ih

theorem eq_of_nil_left (h : Shuffle [] bs cs) : cs = bs := by
  induction bs generalizing cs with
  | nil =>
    cases h
    rfl
  | cons b rest ih =>
    cases h with
    | right h => rw [ih h]

theorem eq_of_nil_right (h : Shuffle as [] cs) : cs = as := by
  induction as generalizing cs with
  | nil =>
    cases h
    rfl
  | cons a rest ih =>
    cases h with
    | left h => rw [ih h]

/-- Two elements have two orders. -/
theorem two {a b : α} (h : Shuffle [a] [b] cs) : cs = [a, b] ∨ cs = [b, a] := by
  cases h with
  | left h => simp [h.eq_of_nil_left]
  | right h => simp [h.eq_of_nil_right]

/-- If only one element of each list passes `p`, the elements of a shuffle that pass it
come as in one list after the other or the other way round. -/
theorem filter_two (h : Shuffle as bs cs) {p : α → Bool} {a b : α} (ha : as.filter p = [a])
    (hb : bs.filter p = [b]) : cs.filter p = (as ++ bs).filter p ∨ cs.filter p = (bs ++ as).filter p := by
  have hp := h.filter p
  rw [ha, hb] at hp
  simpa [List.filter_append, ha, hb] using hp.two

end Shuffle
