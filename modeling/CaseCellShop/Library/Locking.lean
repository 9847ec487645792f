import CaseCellShop.Library.Steps
import Mathlib.Data.Fintype.EquivFin
import Mathlib.Logic.Relation
import Mathlib.Order.WellFounded

/-! Transactions that acquire exclusive locks one by one and hold them to their end.

Each transaction has a fixed list of locks. It may hold a lock already when it comes to
it again, and it may end at any time and start anew. Every state in which no lock is held
twice is reached. So a deadlock is reached exactly if some transactions can each be put
before one of their locks such that they hold nothing in common and each one's next lock
is held by another (`stuck_of_reached`, `Stuck.reached`). -/
namespace Locking
variable {ι κ : Type}

/-- How many of its locks each transaction has acquired, `none` if it is not running. -/
abbrev Taken (ι : Type) := ι → Option Nat

inductive Move (ι : Type) where
  | start (i : ι)
  | acquire (i : ι)
  | finish (i : ι)

variable (locks : ι → List κ)

def held (s : Taken ι) (i : ι) : List κ :=
  match s i with
  | none => []
  | some n => (locks i).take n

/-- The lock a transaction is to acquire. -/
def next (s : Taken ι) (i : ι) : Option κ :=
  match s i with
  | none => none
  | some n => (locks i)[n]?

section
variable [Fintype ι] [DecidableEq ι] [DecidableEq κ]

def step (s : Taken ι) : Move ι → Option (Taken ι)
  | .start i => if s i = none then some (Function.update s i (some 0)) else none
  | .acquire i =>
    match s i, next locks s i with
    | some n, some lock =>
      if ∀ j, j ≠ i → lock ∉ held locks s j then some (Function.update s i (some (n + 1))) else none
    | _, _ => none
  | .finish i => some (Function.update s i none)

def system : Steps.System (Taken ι) (Move ι) := ⟨step locks⟩

end

/-- Nobody is running. -/
def idle : Taken ι := fun _ => none

/-- The transactions outside a group do not run. -/
def within (s : Taken ι) (group : ι → Prop) [DecidablePred group] : Taken ι := fun i => if group i then s i else none

/-- `i` cannot go on because `j` holds its next lock. -/
def Waits (s : Taken ι) (i j : ι) : Prop := i ≠ j ∧ ∃ lock, next locks s i = some lock ∧ lock ∈ held locks s j

/-- Some transaction waits for itself, over any number of others. -/
def Deadlock (s : Taken ι) : Prop := ∃ i, Relation.TransGen (Waits locks s) i i

/-- No lock is held twice. -/
def Exclusive (s : Taken ι) : Prop := ∀ i j lock, lock ∈ held locks s i → lock ∈ held locks s j → i = j

variable {locks} {s s' : Taken ι}

theorem held_congr {t : Taken ι} {i : ι} (h : s i = t i) : held locks s i = held locks t i := by
  unfold held
  rw [h]

theorem not_mem_held {i : ι} (h : s i = none) (lock : κ) : lock ∉ held locks s i := by
  unfold held
  rw [h]
  exact List.not_mem_nil

theorem held_update_self [DecidableEq ι] (i : ι) (n : Nat) :
    held locks (Function.update s i (some n)) i = (locks i).take n := by
  unfold held
  rw [Function.update_self]

theorem held_update_none [DecidableEq ι] (i : ι) : held locks (Function.update s i none) i = [] := by
  unfold held
  rw [Function.update_self]

theorem held_update_of_ne [DecidableEq ι] {i j : ι} (h : j ≠ i) (taken : Option Nat) :
    held locks (Function.update s i taken) j = held locks s j :=
  held_congr (Function.update_of_ne h _ _)

theorem start_eq [Fintype ι] [DecidableEq ι] [DecidableEq κ] {i : ι} (h : s i = none) :
    (system locks).step s (.start i) = some (Function.update s i (some 0)) :=
  if_pos h

/-- A lock that nobody else holds is acquired. -/
theorem acquire_eq [Fintype ι] [DecidableEq ι] [DecidableEq κ] {i : ι} {n : Nat} {lock : κ} (hn : s i = some n)
    (hlock : (locks i)[n]? = some lock) (hfree : ∀ j, j ≠ i → lock ∉ held locks s j) :
    (system locks).step s (.acquire i) = some (Function.update s i (some (n + 1))) := by
  have hnext : next locks s i = some lock := by
    unfold next
    rw [hn]
    exact hlock
  simp only [system, step, hn, hnext]
  exact if_pos hfree

/-- Only `i` changes what it holds, and what it adds nobody else holds. -/
theorem exclusive_update [DecidableEq ι] (hs : Exclusive locks s) {i : ι} {taken : Option Nat}
    (hnew : ∀ lock ∈ held locks (Function.update s i taken) i,
      lock ∈ held locks s i ∨ ∀ j, j ≠ i → lock ∉ held locks s j) :
    Exclusive locks (Function.update s i taken) := by
  intro a b lock ha hb
  by_cases hai : a = i <;> by_cases hbi : b = i
  · rw [hai, hbi]
  · rw [hai] at ha
    rw [held_update_of_ne hbi] at hb
    rcases hnew lock ha with hold | hfree
    · rw [hai]
      exact hs i b lock hold hb
    · exact absurd hb (hfree b hbi)
  · rw [hbi] at hb
    rw [held_update_of_ne hai] at ha
    rcases hnew lock hb with hold | hfree
    · rw [hbi]
      exact hs a i lock ha hold
    · exact absurd ha (hfree a hai)
  · rw [held_update_of_ne hai] at ha
    rw [held_update_of_ne hbi] at hb
    exact hs a b lock ha hb

theorem step_exclusive [Fintype ι] [DecidableEq ι] [DecidableEq κ] (hs : Exclusive locks s) {move : Move ι}
    (h : (system locks).step s move = some s') : Exclusive locks s' := by
  cases move with
  | start i =>
    simp only [system, step, Option.ite_none_right_eq_some] at h
    obtain ⟨_, h⟩ := h
    cases h
    apply exclusive_update hs
    rw [held_update_self]
    exact nofun
  | finish i =>
    cases h
    apply exclusive_update hs
    rw [held_update_none]
    exact nofun
  | acquire i =>
    simp only [system, step] at h
    split at h
    · rename_i n lock hn hlock
      by_cases hfree : ∀ j, j ≠ i → lock ∉ held locks s j
      · rw [if_pos hfree] at h
        cases h
        apply exclusive_update hs
        intro lock' hlock'
        rw [held_update_self, List.take_add_one, List.mem_append] at hlock'
        unfold next at hlock
        rw [hn] at hlock
        dsimp only at hlock
        rcases hlock' with hold | hnew
        · refine .inl ?_
          unfold held
          rw [hn]
          exact hold
        · rw [hlock, Option.toList_some, List.mem_singleton] at hnew
          exact .inr (hnew ▸ hfree)
      · rw [if_neg hfree] at h
        cases h
    · cases h

theorem reaches_exclusive [Fintype ι] [DecidableEq ι] [DecidableEq κ] (h : (system locks).Reaches idle s) :
    Exclusive locks s :=
  Steps.System.reaches_invariant (fun _ _ _ hs hstep => step_exclusive hs hstep)
    (fun _ _ _ h => by cases h) h

/-- A transaction takes as many of its locks as nobody else holds. -/
theorem reaches_take [Fintype ι] [DecidableEq ι] [DecidableEq κ] {i : ι} (hi : s i = none) {n : Nat}
    (hn : n ≤ (locks i).length) (hfree : ∀ lock ∈ (locks i).take n, ∀ j, j ≠ i → lock ∉ held locks s j) :
    (system locks).Reaches s (Function.update s i (some n)) := by
  induction n with
  | zero => exact .step (start_eq hi)
  | succ n ih =>
    have hlock : (locks i)[n]? = some ((locks i).get ⟨n, hn⟩) := List.getElem?_eq_getElem hn
    have hprefix := ih (by omega) fun lock hlock => hfree lock (List.take_subset_take_left _ (by omega) hlock)
    have hlast := acquire_eq (s := Function.update s i (some n)) (Function.update_self ..) hlock fun j hj => by
      rw [held_update_of_ne hj]
      apply hfree _ _ j hj
      rw [List.take_add_one, hlock]
      exact List.mem_append_right _ (List.mem_singleton_self _)
    rw [Function.update_idem] at hlast
    exact hprefix.trans (.step hlast)

theorem Waits.awaited_holds {i j : ι} (h : Waits locks s i j) : ∃ n, s j = some (n + 1) := by
  obtain ⟨_, lock, _, hheld⟩ := h
  unfold held at hheld
  cases hj : s j with
  | none =>
    rw [hj] at hheld
    cases hheld
  | some n =>
    cases n with
    | zero =>
      rw [hj] at hheld
      cases hheld
    | succ n => exact ⟨n, rfl⟩

theorem Waits.congr {t : Taken ι} {i j : ι} (h : Waits locks s i j) (hi : t i = s i) (hj : t j = s j) :
    Waits locks t i j := by
  obtain ⟨hne, lock, hnext, hheld⟩ := h
  refine ⟨hne, lock, ?_, ?_⟩
  · unfold next at hnext ⊢
    rw [hi]
    exact hnext
  · rw [held_congr hj]
    exact hheld

theorem within_of {group : ι → Prop} [DecidablePred group] {i : ι} (h : group i) : within s group i = s i := if_pos h

theorem within_of_not {group : ι → Prop} [DecidablePred group] {i : ι} (h : ¬group i) : within s group i = none :=
  if_neg h

/-- Every state in which no lock is held twice is reached: its transactions start one
after the other. -/
theorem reaches_of_exclusive [Fintype ι] [DecidableEq ι] [DecidableEq κ] (hs : Exclusive locks s)
    (hle : ∀ i n, s i = some n → n ≤ (locks i).length) : (system locks).Reaches idle s := by
  have hgroup (group : Finset ι) : (system locks).Reaches idle (within s (· ∈ group)) := by
    induction group using Finset.induction_on with
    | empty =>
      have hnobody : within s (· ∈ (∅ : Finset ι)) = idle := funext fun i => within_of_not (Finset.notMem_empty i)
      rw [hnobody]
      exact Steps.System.Reaches.refl _ _
    | insert i group hi ih =>
      have hinsert : within s (· ∈ insert i group) = Function.update (within s (· ∈ group)) i (s i) := by
        funext k
        by_cases hk : k = i
        · simp [within, hk]
        · simp [within, hk]
      have hnone : within s (· ∈ group) i = none := within_of_not hi
      rw [hinsert]
      cases hsi : s i with
      | none =>
        rw [Function.update_eq_self_iff.mpr hnone.symm]
        exact ih
      | some n =>
        refine ih.trans (reaches_take hnone (hle i n hsi) fun lock hlock j hj hheld => hj ?_)
        have hmem : j ∈ group := by
          by_contra hnot
          exact not_mem_held (within_of_not hnot) lock hheld
        rw [held_congr (within_of hmem)] at hheld
        refine hs j i lock hheld ?_
        unfold held
        rw [hsi]
        exact hlock
  have hall := hgroup Finset.univ
  have hsame : within s (· ∈ Finset.univ) = s := funext fun i => within_of (Finset.mem_univ i)
  rwa [hsame] at hall

/-! ### Deadlocks -/

/-- Somebody runs, and whoever runs waits. -/
structure Stuck (locks : ι → List κ) (s : Taken ι) : Prop where
  running : ∃ i, s i ≠ none
  waits : ∀ i, s i ≠ none → ∃ j, Waits locks s i j

/-- Among finitely many transactions the waits go round somewhere. -/
theorem Stuck.deadlock [Finite ι] (h : Stuck locks s) : Deadlock locks s := by
  by_contra hnone
  let after (j i : ι) : Prop := Relation.TransGen (Waits locks s) i j
  have htrans : IsTrans ι after := ⟨fun _ _ _ hij hjk => hjk.trans hij⟩
  have hirrefl : Std.Irrefl after := ⟨fun i hi => hnone ⟨i, hi⟩⟩
  obtain ⟨i, hi, hlast⟩ := (Finite.wellFounded_of_trans_of_irrefl after).has_min {i | s i ≠ none} h.running
  obtain ⟨j, hij⟩ := h.waits i hi
  obtain ⟨n, hn⟩ := hij.awaited_holds
  exact hlast j (by simp [hn]) (.single hij)

/-- The transactions on a cycle are stuck by themselves. -/
theorem Deadlock.stuck (h : Deadlock locks s) :
    ∃ t, Stuck locks t ∧ (∀ i, t i ≠ none → t i = s i ∧ ∃ l, Waits locks t l i) := by
  classical
  obtain ⟨i, hi⟩ := h
  let t := within s fun j => Relation.TransGen (Waits locks s) j j
  have hat {j : ι} (hj : Relation.TransGen (Waits locks s) j j) : t j = s j := within_of hj
  have hcycle {j : ι} (hj : t j ≠ none) : Relation.TransGen (Waits locks s) j j := by
    by_contra hnot
    exact hj (within_of_not hnot)
  have hruns {j : ι} (hj : Relation.TransGen (Waits locks s) j j) : t j ≠ none := by
    obtain ⟨l, _, hlj⟩ := Relation.TransGen.tail'_iff.mp hj
    obtain ⟨n, hn⟩ := hlj.awaited_holds
    simp [hat hj, hn]
  refine ⟨t, ⟨⟨i, hruns hi⟩, fun j hj => ?_⟩, fun j hj => ⟨hat (hcycle hj), ?_⟩⟩
  · obtain ⟨k, hjk, hkj⟩ := Relation.TransGen.head'_iff.mp (hcycle hj)
    exact ⟨k, hjk.congr (hat (hcycle hj)) (hat (.tail' hkj hjk))⟩
  · obtain ⟨l, hjl, hlj⟩ := Relation.TransGen.tail'_iff.mp (hcycle hj)
    exact ⟨l, hlj.congr (hat (.head' hlj hjl)) (hat (hcycle hj))⟩

/-- A deadlock that is reached leaves, of the transactions on its cycle, a state in which
no lock is held twice and everybody waits and is waited for. -/
theorem stuck_of_reached [Fintype ι] [DecidableEq ι] [DecidableEq κ] (hs : (system locks).Reaches idle s)
    (hdead : Deadlock locks s) :
    ∃ t, Exclusive locks t ∧ Stuck locks t ∧ ∀ i, t i ≠ none → ∃ l, Waits locks t l i := by
  obtain ⟨t, hstuck, hsame⟩ := hdead.stuck
  refine ⟨t, fun i j lock hi hj => ?_, hstuck, fun i hi => (hsame i hi).2⟩
  have hrunning {k : ι} (hk : lock ∈ held locks t k) : t k ≠ none := fun hnone => not_mem_held hnone lock hk
  rw [held_congr (hsame i (hrunning hi)).1] at hi
  rw [held_congr (hsame j (hrunning hj)).1] at hj
  exact reaches_exclusive hs i j lock hi hj

/-- Conversely such a state is reached, and is a deadlock. -/
theorem Stuck.reached [Fintype ι] [DecidableEq ι] [DecidableEq κ] (h : Stuck locks s) (hs : Exclusive locks s) :
    (system locks).Reaches idle s ∧ Deadlock locks s := by
  refine ⟨reaches_of_exclusive hs fun i n hn => ?_, h.deadlock⟩
  obtain ⟨j, _, lock, hnext, _⟩ := h.waits i (by simp [hn])
  unfold next at hnext
  rw [hn] at hnext
  exact (List.getElem?_eq_some_iff.mp hnext).1.le

end Locking
