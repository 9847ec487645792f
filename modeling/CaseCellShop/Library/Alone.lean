import CaseCellShop.Library.Interleave

/-! Schedules on which nothing interferes, and restarts.

A process left alone, all of whose calls are answered in the same way, runs to its end
and does to the world what its program does from beginning to end (`run_alone`,
`task_alone`). A restart crashes every process, one after the other (`restarts`). -/
theorem Program.run_await {W Q ε α : Type} {R : Q → Type} (perform : W → (q : Q) → W × Except ε (R q)) (q : Q)
    (next : Except ε (R q) → Program Q R ε α) (w : W) :
    (await q next).run perform w = (next (perform w q).2).run perform (perform w q).1 := rfl

/-- A reply that no call waits for makes no difference. -/
theorem Program.resume_unawaited {W A Q ε α : Type} {R : Q → Type} {perform : W → (q : Q) → A → W × Except ε (R q)}
    {p : Program Q R ε α} {w : W} {i : Nat} (h : p.awaited i = none) (a b : A) :
    p.resume perform w i a = p.resume perform w i b := by
  cases p with
  | done result => rfl
  | await q next => cases h
  | all qs next =>
    cases qs with
    | nil => rfl
    | cons q qs =>
      have hnone : (q :: qs)[i]? = none := h
      simp only [resume, hnone]

namespace Machine
open Program

variable {W T A E Q ε : Type} {R : Q → Type} (M : Machine W T A E Q ε R)

/-! ### A process left alone -/

/-- The call answered with `a`. -/
def answered (a : A) (w : W) (q : Q) : W × Except ε (R q) := M.perform w q a

theorem step_call {running : Nat → Option (Process T Q ε R)} {n i : Nat} {task : T} {w w' : W} {a : A}
    {p p' : Program Q R ε Unit} (hp : alive task p = some ⟨task, p⟩)
    (h : p.resume M.perform w i a = some (w', p')) :
    M.system.step ⟨w, Function.update running n (alive task p)⟩ (.call n i a) =
      some ⟨w', Function.update running n (alive task p')⟩ := by
  simp only [system, step, Function.update_self, hp, h, Function.update_idem]

theorem run_alone (a : A) (n : Nat) (task : T) (running : Nat → Option (Process T Q ε R))
    (p : Program Q R ε Unit) (w : W) :
    ∃ k, M.system.run ⟨w, Function.update running n (alive task p)⟩ (List.replicate k (.call n 0 a)) =
      some ⟨(p.run (M.answered a) w).2, Function.update running n none⟩ := by
  induction p generalizing w with
  | done result => exact ⟨0, rfl⟩
  | await q next ih =>
    obtain ⟨k, hk⟩ := ih (M.perform w q a).2 (M.perform w q a).1
    refine ⟨k + 1, ?_⟩
    rw [List.replicate_succ, Steps.System.run_cons, M.step_call rfl rfl]
    exact hk
  | all qs next ih =>
    induction qs generalizing w with
    | nil =>
      obtain ⟨k, hk⟩ := ih w
      refine ⟨k + 1, ?_⟩
      rw [List.replicate_succ, Steps.System.run_cons, M.step_call rfl rfl]
      exact hk
    | cons q qs ihqs =>
      obtain ⟨k, hk⟩ := ihqs (M.perform w q a).1
      refine ⟨k + 1, ?_⟩
      rw [List.replicate_succ, Steps.System.run_cons, M.step_call rfl rfl]
      exact hk

/-- A task started among idle slots and left alone. -/
theorem task_alone (a : A) (n : Nat) {task : T} {w w₁ : W} {p : Program Q R ε Unit}
    (hstart : M.start w task = some (w₁, p)) :
    ∃ k, M.system.run (.idle w) (.start n task :: List.replicate k (.call n 0 a)) =
      some (.idle (p.run (M.answered a) w₁).2) := by
  obtain ⟨k, hk⟩ := M.run_alone a n task (fun _ => none) p w₁
  refine ⟨k, ?_⟩
  have hstep : M.system.step (.idle w) (.start n task) =
      some ⟨w₁, Function.update (fun _ => none) n (alive task p)⟩ := by
    simp only [system, step, Config.idle, hstart]
  rw [Steps.System.run_cons, hstep]
  refine hk.trans ?_
  rw [Function.update_eq_self]
  rfl

theorem run_event {w w' : W} {event : E} (h : M.environment w event = some w') :
    M.system.run (.idle w) [.environment event] = some (.idle w') := by
  simp only [Steps.System.run, system, step, Config.idle, h]
  rfl

/-! ### Restarts -/

/-- The slots from `k` on are idle. -/
def Below (k : Nat) (c : Config W T Q ε R) : Prop := ∀ n, k ≤ n → c.running n = none

/-- All processes crash; what every crash does to the world, the restart does. -/
theorem restarts (rel : W → Config W T Q ε R → Prop) (k : Nat) (c : Config W T Q ε R) (hc : Below k c)
    (hidle : ∀ w, rel w (.idle w))
    (hcrash : ∀ w (c : Config W T Q ε R) n process, c.running n = some process →
      rel w ⟨M.crash c.world process.task, Function.update c.running n none⟩ → rel w c) :
    ∃ crashes w, M.system.run c crashes = some (.idle w) ∧ rel w c ∧ ∀ action ∈ crashes, ∃ n, action = .crash n := by
  induction k generalizing c with
  | zero =>
    have hrunning : c = .idle c.world := by
      obtain ⟨w, running⟩ := c
      exact congrArg (Config.mk w) (funext fun n => hc n (Nat.zero_le n))
    exact ⟨[], c.world, by rw [hrunning]; rfl, hrunning ▸ hidle c.world, by simp⟩
  | succ k ih =>
    cases hrun : c.running k with
    | none =>
      refine ih c fun n hn => ?_
      by_cases hk : n = k
      · rw [hk, hrun]
      · exact hc n (by omega)
    | some process =>
      obtain ⟨crashes, w, hcrashes, hrel, hall⟩ := ih ⟨M.crash c.world process.task, Function.update c.running k none⟩
        fun n hn => by
          by_cases hk : n = k
          · exact hk ▸ Function.update_self ..
          · exact (Function.update_of_ne hk _ _).trans (hc n (by omega))
      have hstep : M.system.step c (.crash k) =
          some ⟨M.crash c.world process.task, Function.update c.running k none⟩ := by
        simp only [system, step, hrun]
      refine ⟨.crash k :: crashes, w, ?_, hcrash w c k process hrun hrel, ?_⟩
      · rw [Steps.System.run_cons, hstep]
        exact hcrashes
      · exact List.forall_mem_cons.mpr ⟨⟨k, rfl⟩, hall⟩

/-- A run uses finitely many slots. -/
theorem exists_below {k : Nat} {c c' : Config W T Q ε R} (hc : Below k c) {actions : List (Action T A E)}
    (h : M.system.run c actions = some c') : ∃ k', Below k' c' := by
  induction actions generalizing c k with
  | nil =>
    cases h
    exact ⟨k, hc⟩
  | cons action rest ih =>
    rw [Steps.System.run_cons, Option.bind_eq_some_iff] at h
    obtain ⟨t, ht, hrest⟩ := h
    have hother : ∀ m (o : Option (Process T Q ε R)),
        Below (max k (m + 1)) ⟨t.world, Function.update c.running m o⟩ := by
      intro m o n hn
      exact (Function.update_of_ne (by omega) _ _).trans (hc n (by omega))
    refine ih (k := max k (match action with | .start n _ => n + 1 | .call n _ _ => n + 1 | .crash n => n + 1 | _ => 0))
      ?_ hrest
    cases M.step_cases ht with
    | started => exact hother _ _
    | called => exact hother _ _
    | crashed => exact hother _ _
    | moved => exact fun n hn => hc n (by omega)

end Machine
