import Mathlib.Data.List.Sort

/-! Stable sorting by a preorder.

Elements that neither precedes tie. A stable sort keeps tied elements in their order, and
that is all its result depends on: two lists are sorted alike exactly when each class of
tied elements forms the same list in both (`insertionSort_eq_iff`). -/
namespace StableSort
variable {α : Type} (r : α → α → Prop) [DecidableRel r]

/-- Each precedes the other. -/
def Tied (a b : α) : Prop := r a b ∧ r b a

instance : DecidableRel (Tied r) := fun a b => inferInstanceAs (Decidable (r a b ∧ r b a))

/-- The elements that tie with `a`, in their order. -/
def ties (a : α) (l : List α) : List α := l.filter fun b => Tied r a b

variable {r}

theorem mem_ties {a b : α} {l : List α} : b ∈ ties r a l ↔ b ∈ l ∧ Tied r a b := by
  simp [ties]

theorem ties_cons_of_tied {a b : α} (h : Tied r a b) (l : List α) : ties r a (b :: l) = b :: ties r a l := by
  simp [ties, h]

theorem ties_cons_of_not_tied {a b : α} (h : ¬Tied r a b) (l : List α) : ties r a (b :: l) = ties r a l := by
  simp [ties, h]

theorem ties_perm {a : α} {l l' : List α} (h : l.Perm l') : (ties r a l).Perm (ties r a l') := h.filter _

/-- The same elements are the same, class by class. -/
theorem perm_of_ties [Std.Refl r] {l l' : List α} (h : ∀ a, ties r a l = ties r a l') : l.Perm l' := by
  classical
  rw [List.perm_iff_count]
  intro a
  have hself : Tied r a a := ⟨Std.Refl.refl a, Std.Refl.refl a⟩
  have hcount : ∀ k : List α, (ties r a k).count a = k.count a := by
    intro k
    exact List.count_filter (by simpa using hself)
  rw [← hcount l, ← hcount l', h a]

/-- A sorted list is determined by its classes. -/
theorem eq_of_ties [Std.Total r] {l l' : List α} (hl : l.Pairwise r) (hl' : l'.Pairwise r)
    (h : ∀ a, ties r a l = ties r a l') :
    l = l' := by
  have hrefl : ∀ a : α, Tied r a a := fun a => ⟨Std.Refl.refl a, Std.Refl.refl a⟩
  induction l generalizing l' with
  | nil =>
    cases l' with
    | nil => rfl
    | cons b rest =>
      have hb := h b
      rw [ties_cons_of_tied (hrefl b)] at hb
      cases hb
  | cons a rest ih =>
    cases l' with
    | nil =>
      have ha := h a
      rw [ties_cons_of_tied (hrefl a)] at ha
      cases ha
    | cons b rest' =>
      have hperm := perm_of_ties h
      have hab : r a b := by
        rcases List.mem_cons.mp (hperm.mem_iff.mpr (.head rest')) with heq | hmem
        · exact heq ▸ Std.Refl.refl b
        · exact (List.pairwise_cons.mp hl).1 b hmem
      have hba : r b a := by
        rcases List.mem_cons.mp (hperm.mem_iff.mp (.head rest)) with heq | hmem
        · exact heq ▸ Std.Refl.refl a
        · exact (List.pairwise_cons.mp hl').1 a hmem
      have hheads := h a
      rw [ties_cons_of_tied (hrefl a), ties_cons_of_tied ⟨hab, hba⟩] at hheads
      obtain ⟨rfl, _⟩ := List.cons.inj hheads
      have htails : ∀ c, ties r c rest = ties r c rest' := by
        intro c
        have hc := h c
        by_cases htied : Tied r c a
        · rw [ties_cons_of_tied htied, ties_cons_of_tied htied] at hc
          exact (List.cons.inj hc).2
        · rwa [ties_cons_of_not_tied htied, ties_cons_of_not_tied htied] at hc
      rw [ih (List.pairwise_cons.mp hl).2 (List.pairwise_cons.mp hl').2 htails]

variable [IsTrans α r]

theorem ties_pairwise (a : α) (l : List α) : (ties r a l).Pairwise r := by
  rw [List.pairwise_iff_forall_sublist]
  intro b c h
  have hb := (mem_ties.mp (h.subset (List.mem_cons_self ..))).2
  have hc := (mem_ties.mp (h.subset (List.mem_cons_of_mem _ (List.mem_cons_self ..)))).2
  exact IsTrans.trans b a c hb.2 hc.1

/-- Sorting leaves each class as it is. -/
theorem ties_insertionSort (a : α) (l : List α) : ties r a (l.insertionSort r) = ties r a l := by
  have hsublist : (ties r a l).Sublist (l.insertionSort r) :=
    List.sublist_insertionSort (ties_pairwise a l) List.filter_sublist
  have hfilter : (ties r a l).Sublist (ties r a (l.insertionSort r)) := by
    have h := hsublist.filter fun b => decide (Tied r a b)
    simpa only [ties, List.filter_filter, Bool.and_self] using h
  exact (hfilter.eq_of_length (ties_perm (List.perm_insertionSort r l)).length_eq.symm).symm

theorem insertionSort_eq_iff [Std.Total r] {l l' : List α} :
    l.insertionSort r = l'.insertionSort r ↔ ∀ a, ties r a l = ties r a l' := by
  constructor
  · intro h a
    rw [← ties_insertionSort a l, h, ties_insertionSort]
  · intro h
    refine eq_of_ties (List.pairwise_insertionSort r l) (List.pairwise_insertionSort r l') fun a => ?_
    rw [ties_insertionSort, ties_insertionSort, h a]

end StableSort
