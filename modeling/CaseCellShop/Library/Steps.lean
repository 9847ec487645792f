import Mathlib.Data.Option.Basic

/-! Guarded step systems and their runs.

A system is one executable step function: `none` says the action is not enabled.
`run` replays a list of actions, so a concrete schedule can be evaluated, and
`run_invariant` is the one induction behind every invariant of a whole run. A
property that holds only while the actions respect a condition is proved with
`Guarded`: the condition is asked of every step in the state it is taken from. -/
namespace Steps

/-- A guarded step function. -/
structure System (S A : Type) where
  step : S → A → Option S

namespace System
variable {S A : Type} (M : System S A)

/-- The state after a list of actions, if each was enabled when its turn came. -/
def run : S → List A → Option S
  | s, [] => some s
  | s, a :: rest => (M.step s a).bind fun s' => run s' rest

@[simp] theorem run_nil (s : S) : M.run s [] = some s := rfl

theorem run_cons (s : S) (a : A) (rest : List A) :
    M.run s (a :: rest) = (M.step s a).bind fun s' => M.run s' rest := rfl

theorem run_append (s : S) (as bs : List A) :
    M.run s (as ++ bs) = (M.run s as).bind fun s' => M.run s' bs := by
  induction as generalizing s with
  | nil => rfl
  | cons a rest ih =>
    rw [List.cons_append, run_cons, run_cons, Option.bind_assoc]
    exact congrArg _ (funext fun s' => ih s')

/-- The state that a run leads to, if it can be taken to its end. -/
def after (s : S) (as : List A) : S := (M.run s as).getD s

theorem run_after (s : S) (as : List A) (h : (M.run s as).isSome) : M.run s as = some (M.after s as) := by
  obtain ⟨t, ht⟩ := Option.isSome_iff_exists.mp h
  rw [after, ht]
  rfl

/-- Some list of actions leads from `s` to `s'`. -/
def Reaches (s s' : S) : Prop := ∃ as, M.run s as = some s'

theorem Reaches.refl (s : S) : M.Reaches s s := ⟨[], rfl⟩

variable {M}

theorem Reaches.trans {s t u : S} (h : M.Reaches s t) (k : M.Reaches t u) : M.Reaches s u := by
  obtain ⟨as, has⟩ := h
  obtain ⟨bs, hbs⟩ := k
  exact ⟨as ++ bs, by rw [run_append, has]; exact hbs⟩

theorem Reaches.step {s t : S} {a : A} (h : M.step s a = some t) : M.Reaches s t :=
  ⟨[a], by rw [run_cons, h]; rfl⟩

variable (M) in
/-- Every action of the list is taken in a state where `C` allows it. -/
def Guarded (C : S → A → Prop) : S → List A → Prop
  | _, [] => True
  | s, a :: rest => C s a ∧ ∀ s', M.step s a = some s' → Guarded C s' rest

theorem guarded_cons_of_step {C : S → A → Prop} {s t : S} {a : A} {rest : List A}
    (h : M.step s a = some t) : M.Guarded C s (a :: rest) ↔ C s a ∧ M.Guarded C t rest := by
  constructor
  · intro hg
    exact ⟨hg.1, hg.2 t h⟩
  · rintro ⟨hC, hrest⟩
    refine ⟨hC, fun s' hs' => ?_⟩
    rw [h] at hs'
    exact Option.some.inj hs' ▸ hrest

theorem guarded_cons_of_stuck {C : S → A → Prop} {s : S} {a : A} {rest : List A}
    (h : M.step s a = none) : M.Guarded C s (a :: rest) ↔ C s a := by
  constructor
  · exact fun hg => hg.1
  · refine fun hC => ⟨hC, fun s' hs' => ?_⟩
    rw [h] at hs'
    cases hs'

/-- Whether a concrete run is guarded can be computed. -/
instance decidableGuarded {C : S → A → Prop} [∀ s a, Decidable (C s a)] :
    ∀ s as, Decidable (M.Guarded C s as)
  | _, [] => .isTrue trivial
  | s, a :: rest =>
    match h : M.step s a with
    | none => decidable_of_iff _ (guarded_cons_of_stuck h).symm
    | some t =>
      have := decidableGuarded (C := C) t rest
      decidable_of_iff _ (guarded_cons_of_step h).symm

theorem guarded_mono {C C' : S → A → Prop} (hC : ∀ s a, C s a → C' s a) {s : S} {as : List A}
    (h : M.Guarded C s as) : M.Guarded C' s as := by
  induction as generalizing s with
  | nil => trivial
  | cons a rest ih => exact ⟨hC s a h.1, fun s' hs' => ih (h.2 s' hs')⟩

theorem guarded_of_forall {C : S → A → Prop} {as : List A} (h : ∀ a ∈ as, ∀ s, C s a) (s : S) : M.Guarded C s as := by
  induction as generalizing s with
  | nil => trivial
  | cons a rest ih => exact ⟨h a (.head rest) s, fun s' _ => ih (fun b hb => h b (.tail a hb)) s'⟩

theorem guarded_true (s : S) (as : List A) : M.Guarded (fun _ _ => True) s as := by
  induction as generalizing s with
  | nil => trivial
  | cons a rest ih => exact ⟨trivial, fun s' _ => ih s'⟩

/-- What every guarded step preserves, every guarded run preserves. -/
theorem run_guarded {C : S → A → Prop} {I : S → Prop}
    (hstep : ∀ s a s', I s → C s a → M.step s a = some s' → I s') {s s' : S} {as : List A}
    (hs : I s) (hg : M.Guarded C s as) (hr : M.run s as = some s') : I s' := by
  induction as generalizing s with
  | nil => exact Option.some.inj hr ▸ hs
  | cons a rest ih =>
    rw [run_cons, Option.bind_eq_some_iff] at hr
    obtain ⟨t, ht, hrest⟩ := hr
    exact ih (hstep s a t hs hg.1 ht) (hg.2 t ht) hrest

/-- What every step preserves, every run preserves. -/
theorem run_invariant {I : S → Prop} (hstep : ∀ s a s', I s → M.step s a = some s' → I s')
    {s s' : S} {as : List A} (hs : I s) (hr : M.run s as = some s') : I s' :=
  run_guarded (C := fun _ _ => True) (fun s a s' h _ => hstep s a s' h) hs (guarded_true s as) hr

theorem reaches_invariant {I : S → Prop} (hstep : ∀ s a s', I s → M.step s a = some s' → I s')
    {s s' : S} (hs : I s) (hr : M.Reaches s s') : I s' := by
  obtain ⟨as, has⟩ := hr
  exact run_invariant hstep hs has

end System

end Steps
