import Mathlib.Data.List.Nodup

/-! One-to-one correspondence of lists of records.

Two lists of rows that are images of one and the same list of facts correspond one to
one, as soon as a fact can be told from its image. -/
namespace Correspondence
variable {α β γ δ ξ : Type}

/-- Every member of one list is related to exactly one member of the other. -/
def OneToOne (r : α → β → Prop) (as : List α) (bs : List β) : Prop :=
  (∀ a ∈ as, ∃! b, b ∈ bs ∧ r a b) ∧ ∀ b ∈ bs, ∃! a, a ∈ as ∧ r a b

/-- A row of a list of images stands for a fact. -/
theorem exists_fact {as : List α} {xs : List ξ} {f : α → γ} {f' : ξ → γ} (h : as.map f = xs.map f')
    {a : α} (ha : a ∈ as) : ∃ x ∈ xs, f' x = f a := by
  have hfa : f a ∈ xs.map f' := h ▸ List.mem_map_of_mem ha
  exact List.mem_map.mp hfa

variable {as : List α} {bs : List β} {xs : List ξ} {f : α → γ} {g : β → δ} {f' : ξ → γ} {g' : ξ → δ}
  {r : γ → δ → Prop}

/-- The row of a fact in the other list, and no other. -/
theorem existsUnique_image (has : as.map f = xs.map f') (hbs : bs.map g = xs.map g')
    (hg : (bs.map g).Nodup) (hr : ∀ x ∈ xs, r (f' x) (g' x))
    (hinj : ∀ x ∈ xs, ∀ y ∈ xs, r (f' x) (g' y) → x = y) {a : α} (ha : a ∈ as) :
    ∃! b, b ∈ bs ∧ r (f a) (g b) := by
  obtain ⟨x, hx, hxa⟩ := exists_fact has ha
  obtain ⟨b, hb, hbx⟩ := exists_fact hbs.symm hx
  refine ⟨b, ⟨hb, ?_⟩, ?_⟩
  · rw [← hxa, hbx]
    exact hr x hx
  · intro b' ⟨hb', hrel⟩
    obtain ⟨y, hy, hyb⟩ := exists_fact hbs hb'
    rw [← hxa, ← hyb] at hrel
    have hxy := hinj x hx y hy hrel
    apply List.inj_on_of_nodup_map hg hb' hb
    rw [← hyb, hbx, hxy]

theorem oneToOne_of_images (has : as.map f = xs.map f') (hbs : bs.map g = xs.map g')
    (hf : (as.map f).Nodup) (hg : (bs.map g).Nodup) (hr : ∀ x ∈ xs, r (f' x) (g' x))
    (hinj : ∀ x ∈ xs, ∀ y ∈ xs, r (f' x) (g' y) → x = y) :
    OneToOne (fun a b => r (f a) (g b)) as bs := by
  refine ⟨fun a ha => existsUnique_image has hbs hg hr hinj ha, fun b hb => ?_⟩
  exact existsUnique_image (r := fun d c => r c d) hbs has hf hr
    (fun x hx y hy h => (hinj y hy x hx h).symm) hb

/-- In a list made of groups, each tagged with the key of its fact, the members with a
fact's tag are its group. -/
theorem filter_flatMap_group [DecidableEq δ] {group : ξ → List α} {key : ξ → δ} {tag : α → δ}
    (hnodup : (xs.map key).Nodup) (htag : ∀ x ∈ xs, ∀ a ∈ group x, tag a = key x) {x : ξ} (hx : x ∈ xs) :
    (xs.flatMap group).filter (fun a => tag a = key x) = group x := by
  induction xs with
  | nil => cases hx
  | cons y ys ih =>
    rw [List.map_cons, List.nodup_cons] at hnodup
    rw [List.flatMap_cons, List.filter_append]
    have hys : ∀ z ∈ ys, ∀ a ∈ group z, tag a = key z := fun z hz => htag z (.tail y hz)
    rcases List.mem_cons.mp hx with rfl | hmem
    · have hown : (group x).filter (fun a => tag a = key x) = group x := by
        apply List.filter_eq_self.mpr
        intro a ha
        simpa using htag x (.head ys) a ha
      have hrest : (ys.flatMap group).filter (fun a => tag a = key x) = [] := by
        apply List.filter_eq_nil_iff.mpr
        intro a ha
        obtain ⟨z, hz, haz⟩ := List.mem_flatMap.mp ha
        have hne : key z ≠ key x := fun he => hnodup.1 (he ▸ List.mem_map_of_mem hz)
        simpa [hys z hz a haz] using hne
      rw [hown, hrest, List.append_nil]
    · have hother : (group y).filter (fun a => tag a = key x) = [] := by
        apply List.filter_eq_nil_iff.mpr
        intro a ha
        have hne : key y ≠ key x := fun he => hnodup.1 (he ▸ List.mem_map_of_mem hmem)
        simpa [htag y (.head ys) a ha] using hne
      rw [hother, List.nil_append]
      exact ih hnodup.2 hys hmem

end Correspondence
