import Mathlib.Data.List.Basic
import Mathlib.Logic.Basic

/-! Scripts: programs with a state and exceptions, where the state survives an
exception.

`Except` over a state forgets what a failing program did before it failed. A
script keeps it, so that what a failed attempt left behind (a counter it
incremented, a variable it assigned) can be followed past the failure. The
inversion lemmas take a sequence apart once, so that no proof about a script
unfolds `bind`. -/

/-- From a state, a result or an exception, and the state it left. -/
def Script (σ ε α : Type) : Type := σ → Except ε α × σ

namespace Script
variable {σ ε α β : Type}

/-- One script after another; an exception skips the second. -/
def bind (x : Script σ ε α) (f : α → Script σ ε β) : Script σ ε β := fun s =>
  match x s with
  | (.ok a, t) => f a t
  | (.error e, t) => (.error e, t)

instance : Monad (Script σ ε) where
  pure a := fun s => (.ok a, s)
  bind := bind

/-- Raise an exception. -/
def fail (e : ε) : Script σ ε α := fun s => (.error e, s)

/-- The current state. -/
def get : Script σ ε σ := fun s => (.ok s, s)

/-- Change the state. -/
def modify (f : σ → σ) : Script σ ε Unit := fun s => (.ok (), f s)

/-- Go on only if the condition holds. -/
def require (p : Prop) [Decidable p] (e : ε) : Script σ ε Unit := if p then pure () else fail e

/-- A result that may be an exception already. -/
def ofExcept : Except ε α → Script σ ε α
  | .ok a => pure a
  | .error e => fail e

theorem bind_eq_ok {x : Script σ ε α} {f : α → Script σ ε β} {s u : σ} {b : β} :
    (x >>= f) s = (.ok b, u) ↔ ∃ a t, x s = (.ok a, t) ∧ f a t = (.ok b, u) := by
  show (match x s with | (.ok a, t) => f a t | (.error e, t) => (.error e, t)) = _ ↔ _
  constructor
  · intro h
    split at h
    · rename_i a t hx
      exact ⟨a, t, hx, h⟩
    · cases h
  · rintro ⟨a, t, hx, hf⟩
    rw [hx]
    exact hf

theorem bind_eq_error {x : Script σ ε α} {f : α → Script σ ε β} {s u : σ} {e : ε} :
    (x >>= f) s = (.error e, u) ↔
      x s = (.error e, u) ∨ ∃ a t, x s = (.ok a, t) ∧ f a t = (.error e, u) := by
  show (match x s with | (.ok a, t) => f a t | (.error e, t) => (.error e, t)) = _ ↔ _
  constructor
  · intro h
    split at h
    · rename_i a t hx
      exact .inr ⟨a, t, hx, h⟩
    · rename_i e' t hx
      cases h
      exact .inl hx
  · rintro (hx | ⟨a, t, hx, hf⟩)
    · rw [hx]
    · rw [hx]
      exact hf

theorem bind_of_ok {x : Script σ ε α} {s t : σ} {a : α} (h : x s = (.ok a, t))
    (f : α → Script σ ε β) : (x >>= f) s = f a t := by
  show (match x s with | (.ok a, t) => f a t | (.error e, t) => (.error e, t)) = _
  rw [h]

theorem bind_of_error {x : Script σ ε α} {s t : σ} {e : ε} (h : x s = (.error e, t))
    (f : α → Script σ ε β) : (x >>= f) s = (.error e, t) := by
  show (match x s with | (.ok a, t) => f a t | (.error e, t) => (.error e, t)) = _
  rw [h]

theorem bind_bind {γ : Type} (x : Script σ ε α) (f : α → Script σ ε β) (g : β → Script σ ε γ) :
    (x >>= f) >>= g = x >>= fun a => f a >>= g := by
  funext s
  show bind (bind x f) g s = bind x (fun a => bind (f a) g) s
  unfold bind
  cases x s with
  | mk r t => cases r <;> rfl

@[simp] theorem get_bind (f : σ → Script σ ε α) (s : σ) : (get >>= f) s = f s s := rfl

theorem fail_ne_ok {e : ε} {s t : σ} {a : α} : (fail e : Script σ ε α) s ≠ (.ok a, t) :=
  fun h => absurd (congrArg Prod.fst h) (by nofun)

theorem require_bind_eq_ok {p : Prop} [Decidable p] {e : ε} {f : Unit → Script σ ε α} {s t : σ} {a : α} :
    (require p e >>= f) s = (.ok a, t) ↔ p ∧ f () s = (.ok a, t) := by
  unfold require
  split
  · rename_i hp
    exact ⟨fun h => ⟨hp, h⟩, fun h => h.2⟩
  · rename_i hp
    exact ⟨fun h => absurd h fail_ne_ok, fun h => absurd h.1 hp⟩

theorem fail_eq_error {e e' : ε} {s t : σ} :
    (fail e : Script σ ε α) s = (.error e', t) ↔ e' = e ∧ t = s := by
  constructor
  · intro h
    cases h
    exact ⟨rfl, rfl⟩
  · rintro ⟨rfl, rfl⟩
    rfl

theorem require_bind_eq_error {p : Prop} [Decidable p] {e e' : ε} {f : Unit → Script σ ε α} {s t : σ} :
    (require p e >>= f) s = (.error e', t) ↔ ¬p ∧ e' = e ∧ t = s ∨ p ∧ f () s = (.error e', t) := by
  unfold require
  by_cases hp : p
  · rw [if_pos hp]
    exact ⟨fun h => .inr ⟨hp, h⟩, fun h => h.elim (fun h => absurd hp h.1) fun h => h.2⟩
  · rw [if_neg hp, bind_eq_error, fail_eq_error]
    constructor
    · rintro (h | ⟨_, _, h, _⟩)
      · exact .inl ⟨hp, h⟩
      · exact absurd h fail_ne_ok
    · rintro (h | h)
      · exact .inl h.2
      · exact absurd h.1 hp

theorem ofExcept_eq_ok {x : Except ε α} {s t : σ} {a : α} :
    (ofExcept x : Script σ ε α) s = (.ok a, t) ↔ x = .ok a ∧ t = s := by
  cases x with
  | ok b =>
    constructor
    · intro h
      obtain ⟨hb, hs⟩ := Prod.mk.inj h
      exact ⟨hb, hs.symm⟩
    · rintro ⟨hb, rfl⟩
      cases hb
      rfl
  | error e =>
    constructor
    · intro h
      exact absurd (congrArg Prod.fst h) (by nofun)
    · rintro ⟨hb, _⟩
      cases hb

theorem ofExcept_eq_error {x : Except ε α} {s t : σ} {e : ε} :
    (ofExcept x : Script σ ε α) s = (.error e, t) ↔ x = .error e ∧ t = s := by
  cases x with
  | ok b =>
    constructor
    · intro h
      exact absurd (congrArg Prod.fst h) (by nofun)
    · rintro ⟨hb, _⟩
      cases hb
  | error e' =>
    constructor
    · intro h
      cases h
      exact ⟨rfl, rfl⟩
    · rintro ⟨hb, rfl⟩
      cases hb
      rfl

/-! ### Two runs -/

section TwoRuns
variable {τ γ δ : Type} {s : σ} {t : τ}

/-- Two runs return related values and leave related states, or throw the same
exception. -/
inductive Matched (V : α → β → Prop) (R : σ → τ → Prop) : Except ε α × σ → Except ε β × τ → Prop
  | ok {a : α} {b : β} {s : σ} {t : τ} (value : V a b) (state : R s t) : Matched V R (.ok a, s) (.ok b, t)
  | error (e : ε) (s : σ) (t : τ) : Matched V R (.error e, s) (.error e, t)

theorem matched_bind {V : α → β → Prop} {R : σ → τ → Prop} {V' : γ → δ → Prop} {R' : σ → τ → Prop}
    {x : Script σ ε α} {y : Script τ ε β} {f : α → Script σ ε γ} {g : β → Script τ ε δ}
    (h : Matched V R (x s) (y t))
    (hf : ∀ a b s t, V a b → R s t → Matched V' R' (f a s) (g b t)) :
    Matched V' R' ((x >>= f) s) ((y >>= g) t) := by
  rcases hx : x s with ⟨_ | a, s'⟩ <;> rcases hy : y t with ⟨_ | b, t'⟩ <;> rw [hx, hy] at h
  · cases h
    rw [bind_of_error hx, bind_of_error hy]
    exact .error _ _ _
  · cases h
  · cases h
  · cases h with
    | ok hvalue hstate =>
      rw [bind_of_ok hx, bind_of_ok hy]
      exact hf _ _ _ _ hvalue hstate

theorem matched_require_bind {V : α → β → Prop} {R : σ → τ → Prop} {p q : Prop} [Decidable p] [Decidable q] {e : ε}
    {f : Unit → Script σ ε α} {g : Unit → Script τ ε β} (h : q ↔ p) (hf : p → Matched V R (f () s) (g () t)) :
    Matched V R ((require p e >>= f) s) ((require q e >>= g) t) := by
  unfold require
  by_cases hp : p
  · rw [if_pos hp, if_pos (h.mpr hp)]
    exact hf hp
  · rw [if_neg hp, if_neg (mt h.mp hp)]
    exact .error e s t

end TwoRuns

/-! ### A result for every member of a list -/

section Lists
variable {f : α → Except ε β} {as : List α} {bs : List β}

theorem mapM_cons_ok {a : α} (h : (a :: as).mapM f = .ok bs) :
    ∃ b bs', f a = .ok b ∧ as.mapM f = .ok bs' ∧ bs = b :: bs' := by
  rw [List.mapM_cons] at h
  cases ha : f a with
  | error e =>
    rw [ha] at h
    cases h
  | ok b =>
    cases has : as.mapM f with
    | error e =>
      rw [ha, has] at h
      cases h
    | ok bs' =>
      rw [ha, has] at h
      cases h
      exact ⟨b, bs', rfl, rfl, rfl⟩

theorem mem_of_mapM_ok (h : as.mapM f = .ok bs) {b : β} (hb : b ∈ bs) : ∃ a ∈ as, f a = .ok b := by
  induction as generalizing bs with
  | nil =>
    cases h
    cases hb
  | cons a rest ih =>
    obtain ⟨b', bs', ha, hrest, rfl⟩ := mapM_cons_ok h
    rcases List.mem_cons.mp hb with rfl | hmem
    · exact ⟨a, .head rest, ha⟩
    · obtain ⟨a', ha', hf⟩ := ih hrest hmem
      exact ⟨a', .tail a ha', hf⟩

/-- The exception is that of one of the members. -/
theorem mapM_error {e : ε} (h : as.mapM f = .error e) : ∃ a ∈ as, f a = .error e := by
  induction as with
  | nil => cases h
  | cons a rest ih =>
    rw [List.mapM_cons] at h
    cases ha : f a with
    | error e' =>
      rw [ha] at h
      cases h
      exact ⟨a, .head rest, ha⟩
    | ok b =>
      cases hrest : rest.mapM f with
      | error e' =>
        rw [ha, hrest] at h
        cases h
        obtain ⟨a', ha', hf⟩ := ih hrest
        exact ⟨a', .tail a ha', hf⟩
      | ok bs =>
        rw [ha, hrest] at h
        cases h

theorem mapM_of_ok {g : α → β} (h : ∀ a ∈ as, f a = .ok (g a)) : as.mapM f = .ok (as.map g) := by
  induction as with
  | nil => rfl
  | cons a rest ih =>
    obtain ⟨ha, hrest⟩ := List.forall_mem_cons.mp h
    rw [List.mapM_cons, ha, ih hrest]
    rfl

theorem mapM_ok_iff : (∃ bs, as.mapM f = .ok bs) ↔ ∀ a ∈ as, ∃ b, f a = .ok b := by
  constructor
  · rintro ⟨bs, h⟩
    induction as generalizing bs with
    | nil => exact List.forall_mem_nil _
    | cons a rest ih =>
      obtain ⟨b, bs', ha, hrest, _⟩ := mapM_cons_ok h
      exact List.forall_mem_cons.mpr ⟨⟨b, ha⟩, ih bs' hrest⟩
  · intro h
    cases hmap : as.mapM f with
    | ok bs => exact ⟨bs, rfl⟩
    | error e =>
      obtain ⟨a, ha, herror⟩ := mapM_error hmap
      obtain ⟨b, hb⟩ := h a ha
      rw [herror] at hb
      cases hb

end Lists

end Script
