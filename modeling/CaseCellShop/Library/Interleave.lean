import CaseCellShop.Library.Program
import CaseCellShop.Library.Steps

/-! Programs interleaved over a shared world.

A machine says what a call does to the world, how a task becomes a program, what a
crash of a task leaves behind and what else may happen to the world. Its system runs
any number of programs, one call at a time, in any order. The answer to a call is up
to the action that performs it, so a fault is an action like any other.

`RelyGuarantee` is the rule for invariants of all runs: each program keeps the
invariant with its own calls, from what it may rely on while a call is pending, and
nothing that happens meanwhile breaks what a pending call relies on. A `Discipline`
restricts the actions of the runs the invariant is stated for. -/

structure Machine (W T A E Q ε : Type) (R : Q → Type) where
  perform : W → (q : Q) → A → W × Except ε (R q)
  start : W → T → Option (W × Program Q R ε Unit)
  crash : W → T → W
  environment : W → E → Option W

namespace Machine
variable {W T A E Q ε : Type} {R : Q → Type}

/-- A task and what is left of its program. -/
structure Process (T Q ε : Type) (R : Q → Type) where
  task : T
  program : Program Q R ε Unit

structure Config (W T Q ε : Type) (R : Q → Type) where
  world : W
  running : Nat → Option (Process T Q ε R)

inductive Action (T A E : Type) where
  | start (n : Nat) (task : T)
  /-- Process `n` gets the answer to the `i`th of the calls it waits for. -/
  | call (n i : Nat) (reply : A)
  | crash (n : Nat)
  | environment (event : E)

/-- A world in which nothing runs. -/
def Config.idle (w : W) : Config W T Q ε R := ⟨w, fun _ => none⟩

/-- A process leaves the table once its program is done. -/
def alive (task : T) : Program Q R ε Unit → Option (Process T Q ε R)
  | .done _ => none
  | program => some ⟨task, program⟩

variable (M : Machine W T A E Q ε R)

def step (c : Config W T Q ε R) : Action T A E → Option (Config W T Q ε R)
  | .start n task =>
    match c.running n, M.start c.world task with
    | none, some (w, program) => some ⟨w, Function.update c.running n (alive task program)⟩
    | _, _ => none
  | .call n i reply =>
    match c.running n with
    | none => none
    | some process =>
      match process.program.resume M.perform c.world i reply with
      | none => none
      | some (w, program) => some ⟨w, Function.update c.running n (alive process.task program)⟩
  | .crash n =>
    match c.running n with
    | none => none
    | some process => some ⟨M.crash c.world process.task, Function.update c.running n none⟩
  | .environment event =>
    match M.environment c.world event with
    | none => none
    | some w => some ⟨w, c.running⟩

def system : Steps.System (Config W T Q ε R) (Action T A E) := ⟨M.step⟩

/-! ### What a step can do -/

inductive Stepped (c : Config W T Q ε R) : Action T A E → Config W T Q ε R → Prop
  | started {n : Nat} {task : T} {w : W} {program : Program Q R ε Unit} (idle : c.running n = none)
      (h : M.start c.world task = some (w, program)) :
      Stepped c (.start n task) ⟨w, Function.update c.running n (alive task program)⟩
  | called {n i : Nat} {reply : A} {process : Process T Q ε R} {w : W} {program : Program Q R ε Unit}
      (running : c.running n = some process)
      (h : process.program.resume M.perform c.world i reply = some (w, program)) :
      Stepped c (.call n i reply) ⟨w, Function.update c.running n (alive process.task program)⟩
  | crashed {n : Nat} {process : Process T Q ε R} (running : c.running n = some process) :
      Stepped c (.crash n) ⟨M.crash c.world process.task, Function.update c.running n none⟩
  | moved {event : E} {w : W} (h : M.environment c.world event = some w) :
      Stepped c (.environment event) ⟨w, c.running⟩

theorem step_cases {c c' : Config W T Q ε R} {action : Action T A E}
    (h : M.system.step c action = some c') : M.Stepped c action c' := by
  cases action with
  | start n task =>
    simp only [system, step] at h
    split at h
    · rename_i w program hidle hstart
      cases h
      exact .started hidle hstart
    · cases h
  | call n i reply =>
    simp only [system, step] at h
    split at h
    · cases h
    · rename_i process hrun
      split at h
      · cases h
      · rename_i w program hres
        cases h
        exact .called hrun hres
  | crash n =>
    simp only [system, step] at h
    split at h
    · cases h
    · rename_i process hrun
      cases h
      exact .crashed hrun
  | environment event =>
    simp only [system, step] at h
    split at h
    · cases h
    · rename_i w henv
      cases h
      exact .moved henv

theorem alive_eq_some {task : T} {program : Program Q R ε Unit} {process : Process T Q ε R}
    (h : alive task program = some process) : process = ⟨task, program⟩ := by
  cases program with
  | done result => cases h
  | await q next => exact (Option.some.inj h).symm
  | all qs next => exact (Option.some.inj h).symm

/-- A process of the table after an update is the updated one or was there before. -/
theorem running_update {running : Nat → Option (Process T Q ε R)} {n m : Nat}
    {o : Option (Process T Q ε R)} {process : Process T Q ε R}
    (h : Function.update running n o m = some process) :
    m = n ∧ o = some process ∨ m ≠ n ∧ running m = some process := by
  by_cases hm : m = n
  · rw [hm, Function.update_self] at h
    exact .inl ⟨hm, h⟩
  · rw [Function.update_of_ne hm] at h
    exact .inr ⟨hm, h⟩

/-- The action starts nothing from slot `k` on. -/
def Action.startsBelow (k : Nat) : Action T A E → Bool
  | .start n _ => n < k
  | _ => true

theorem step_slots_free {k : Nat} {c c' : Config W T Q ε R} {action : Action T A E}
    (hfree : ∀ n, k ≤ n → c.running n = none) (hstarts : action.startsBelow k)
    (h : M.system.step c action = some c') : ∀ n, k ≤ n → c'.running n = none := by
  intro n hn
  cases M.step_cases h with
  | @started m task w program _ _ =>
    have hm : m < k := of_decide_eq_true hstarts
    exact (Function.update_of_ne (by omega) _ _).trans (hfree n hn)
  | @called m i reply process w program hrun _ =>
    have hm : n ≠ m := fun he => by rw [← he, hfree n hn] at hrun; cases hrun
    exact (Function.update_of_ne hm _ _).trans (hfree n hn)
  | @crashed m process hrun =>
    have hm : n ≠ m := fun he => by rw [← he, hfree n hn] at hrun; cases hrun
    exact (Function.update_of_ne hm _ _).trans (hfree n hn)
  | moved _ => exact hfree n hn

/-- Slots in which nothing is started stay free. -/
theorem slots_free (k : Nat) {c c' : Config W T Q ε R} {actions : List (Action T A E)}
    (hfree : ∀ n, k ≤ n → c.running n = none) (hstarts : actions.all (Action.startsBelow k))
    (h : M.system.run c actions = some c') : ∀ n, k ≤ n → c'.running n = none := by
  induction actions generalizing c with
  | nil => exact Option.some.inj h ▸ hfree
  | cons action rest ih =>
    rw [Steps.System.run_cons, Option.bind_eq_some_iff] at h
    obtain ⟨t, ht, hrest⟩ := h
    rw [List.all_cons, Bool.and_eq_true] at hstarts
    exact ih (M.step_slots_free hfree hstarts.1 ht) hstarts.2 hrest

/-! ### Disciplines -/

/-- Which actions a run may take: which tasks start, how calls are answered, and which
events happen in view of the calls pending at the time. -/
structure Discipline (W T A E Q : Type) where
  start : W → T → Prop
  call : W → Q → A → Prop
  environment : (Q → Prop) → W → E → Prop

/-- No restriction. -/
def Discipline.any : Discipline W T A E Q := ⟨fun _ _ => True, fun _ _ _ => True, fun _ _ _ => True⟩

/-- The calls the processes wait for. -/
def Config.pending (c : Config W T Q ε R) (q : Q) : Prop :=
  ∃ n process, c.running n = some process ∧ process.program.Pending q

def Discipline.allows (D : Discipline W T A E Q) (c : Config W T Q ε R) : Action T A E → Prop
  | .start _ task => D.start c.world task
  | .call n i reply =>
    match c.running n with
    | none => True
    | some process =>
      match process.program.awaited i with
      | none => True
      | some q => D.call c.world q reply
  | .crash _ => True
  | .environment event => D.environment c.pending c.world event

theorem Discipline.allows_call {D : Discipline W T A E Q} {c : Config W T Q ε R} {n i : Nat} {reply : A}
    (h : D.allows c (.call n i reply)) {process : Process T Q ε R} (hrun : c.running n = some process)
    {q : Q} (hq : process.program.awaited i = some q) : D.call c.world q reply := by
  simp only [allows, hrun, hq] at h
  exact h

instance (D : Discipline W T A E Q) [hstart : ∀ w t, Decidable (D.start w t)] [∀ w q a, Decidable (D.call w q a)]
    [henvironment : ∀ pending w e, Decidable (D.environment pending w e)] (c : Config W T Q ε R) :
    ∀ action : Action T A E, Decidable (D.allows c action)
  | .start _ task => hstart c.world task
  | .call n i reply =>
    match h : c.running n with
    | none => .isTrue (by simp only [Discipline.allows, h])
    | some process =>
      match hq : process.program.awaited i with
      | none => .isTrue (by simp only [Discipline.allows, h, hq])
      | some q =>
        decidable_of_iff (D.call c.world q reply) (by simp only [Discipline.allows, h, hq])
  | .crash _ => .isTrue trivial
  | .environment event => henvironment c.pending c.world event

/-! ### Rely and guarantee -/

variable (D : Discipline W T A E Q) (I : W → Prop) (rely : Q → W → W → Prop) (guar : W → W → Prop)

/-- The program keeps `I` and moves the world along `guar` with every call it still
makes, as long as the world moves only along `rely q` while it waits for `q`; when it is
done, `post` holds. -/
def Sound {α : Type} (post : Except ε α → W → Prop) : Program Q R ε α → W → Prop
  | .done result, w => post result w
  | .await q next, w => ∀ w₁ a, I w₁ → rely q w w₁ → D.call w₁ q a →
      I (M.perform w₁ q a).1 ∧ guar w₁ (M.perform w₁ q a).1 ∧
        Sound post (next (M.perform w₁ q a).2) (M.perform w₁ q a).1
  | .all qs next, _ =>
      (∀ q ∈ qs, ∀ w₁ a, I w₁ → D.call w₁ q a →
        I (M.perform w₁ q a).1 ∧ guar w₁ (M.perform w₁ q a).1) ∧ ∀ w₁, I w₁ → Sound post next w₁

/-- The program of a process, of which nothing is asked when it is done. -/
def SoundProcess : Program Q R ε Unit → W → Prop := M.Sound D I rely guar fun _ _ => True

/-- What is to be shown for `I` to hold in every state of every disciplined run. -/
structure RelyGuarantee : Prop where
  refl : ∀ q w, rely q w w
  trans : ∀ q u v w, rely q u v → rely q v w → rely q u w
  guarantee : ∀ w w', guar w w' → ∀ q, rely q w w'
  start : ∀ w task w' program, I w → D.start w task → M.start w task = some (w', program) →
    I w' ∧ M.SoundProcess D I rely guar program w' ∧ ∀ q, rely q w w'
  crash : ∀ w task, I w → I (M.crash w task) ∧ ∀ q, rely q w (M.crash w task)
  environment : ∀ (pending : Q → Prop) w event w', I w → D.environment pending w event →
    M.environment w event = some w' → I w' ∧ ∀ q, pending q → rely q w w'

/-- The invariant of the configurations: the world's, and soundness of all that runs. -/
def Invariant (c : Config W T Q ε R) : Prop :=
  I c.world ∧ ∀ n process, c.running n = some process →
    M.SoundProcess D I rely guar process.program c.world

variable {M D I rely guar}

theorem invariant_idle {w : W} (h : I w) : M.Invariant D I rely guar (.idle w) :=
  ⟨h, fun _ _ hn => by cases hn⟩

theorem SoundProcess.stable (htrans : ∀ q u v w, rely q u v → rely q v w → rely q u w)
    {program : Program Q R ε Unit} {w w' : W} (h : M.SoundProcess D I rely guar program w)
    (hrely : ∀ q, program.Pending q → rely q w w') : M.SoundProcess D I rely guar program w' := by
  cases program with
  | done result => trivial
  | await q next => exact fun w₁ a hI hr hD => h w₁ a hI (htrans q _ _ _ (hrely q rfl) hr) hD
  | all qs next => exact h

/-- One resumption: the call that was answered kept `I`, and the rest stays sound. -/
theorem SoundProcess.resume (hrefl : ∀ q w, rely q w w) {program program' : Program Q R ε Unit}
    {w w' : W} {i : Nat} {a : A} (h : M.SoundProcess D I rely guar program w) (hI : I w)
    (hD : ∀ q, program.awaited i = some q → D.call w q a)
    (hr : program.resume M.perform w i a = some (w', program')) :
    I w' ∧ M.SoundProcess D I rely guar program' w' ∧ (w' = w ∨ guar w w') := by
  cases program with
  | done result => cases hr
  | await q next =>
    cases hr
    obtain ⟨hI', hguar, hnext⟩ := h w a hI (hrefl q w) (hD q rfl)
    exact ⟨hI', hnext, .inr hguar⟩
  | all qs next =>
    obtain ⟨hqs, hnext⟩ := h
    rcases Program.resume_all hr with ⟨rfl, rfl, rfl⟩ | ⟨q, hq, rfl, rfl⟩
    · exact ⟨hI, hnext w' hI, .inl rfl⟩
    · obtain ⟨hI', hguar⟩ := hqs q (List.mem_of_getElem? hq) w a hI (hD q hq)
      refine ⟨hI', ⟨fun q' hq' => ?_, hnext⟩, .inr hguar⟩
      exact hqs q' (List.mem_of_mem_eraseIdx hq')

/-! ### Rules for programs -/

theorem sound_mono {α : Type} {post post' : Except ε α → W → Prop} {p : Program Q R ε α} {w : W}
    (h : M.Sound D I rely guar post p w) (hpost : ∀ r w, post r w → post' r w) :
    M.Sound D I rely guar post' p w := by
  induction p generalizing w with
  | done result => exact hpost result w h
  | await q next ih =>
    intro w₁ a hI hr hD
    obtain ⟨hI', hguar, hnext⟩ := h w₁ a hI hr hD
    exact ⟨hI', hguar, ih _ hnext⟩
  | all qs next ih => exact ⟨h.1, fun w₁ hI => ih (h.2 w₁ hI)⟩

theorem sound_bind {α β : Type} {post : Except ε β → W → Prop} {p : Program Q R ε α}
    {f : α → Program Q R ε β} {w : W}
    (h : M.Sound D I rely guar (fun r w' => M.Sound D I rely guar post (.done r >>= f) w') p w) :
    M.Sound D I rely guar post (p >>= f) w := by
  induction p generalizing w with
  | done result => exact h
  | await q next ih =>
    intro w₁ a hI hr hD
    obtain ⟨hI', hguar, hnext⟩ := h w₁ a hI hr hD
    exact ⟨hI', hguar, ih _ hnext⟩
  | all qs next ih => exact ⟨h.1, fun w₁ hI => ih (h.2 w₁ hI)⟩

/-- A loop whose body is sound in every world is sound in every world. -/
theorem sound_each {β : Type} {f : β → Program Q R ε Unit} {bs : List β}
    (hf : ∀ b ∈ bs, ∀ w, M.Sound D I rely guar (fun _ _ => True) (f b) w) (w : W) :
    M.Sound D I rely guar (fun _ _ => True) (Program.each f bs) w := by
  induction bs generalizing w with
  | nil => trivial
  | cons b rest ih =>
    apply sound_bind
    refine sound_mono (hf b (.head rest) w) fun r w' _ => ?_
    cases r with
    | error e => trivial
    | ok u => exact ih (fun b' hb' => hf b' (.tail b hb')) w'

/-- A loop whose body keeps an assertion that it needs. -/
theorem sound_each_keeping {β : Type} {K : W → Prop} {f : β → Program Q R ε Unit} {bs : List β}
    (hf : ∀ b ∈ bs, ∀ w, K w → M.Sound D I rely guar (fun _ => K) (f b) w) {w : W} (hw : K w) :
    M.Sound D I rely guar (fun _ => K) (Program.each f bs) w := by
  induction bs generalizing w with
  | nil => exact hw
  | cons b rest ih =>
    apply sound_bind
    refine sound_mono (hf b (.head rest) w hw) fun r w' hw' => ?_
    cases r with
    | error e => exact hw'
    | ok u => exact ih (fun b' hb' => hf b' (.tail b hb')) hw'

/-- A program is sound if each of its calls is, in every world. -/
theorem sound_of_onlyCalls {α : Type} {ok : Q → Prop}
    (hok : ∀ q w a, ok q → I w → D.call w q a →
      I (M.perform w q a).1 ∧ guar w (M.perform w q a).1)
    {p : Program Q R ε α} (hp : p.OnlyCalls ok) (w : W) :
    M.Sound D I rely guar (fun _ _ => True) p w := by
  induction p generalizing w with
  | done result => trivial
  | await q next ih =>
    intro w₁ a hI _ hD
    obtain ⟨hI', hguar⟩ := hok q w₁ a hp.1 hI hD
    exact ⟨hI', hguar, ih _ (hp.2 _) _⟩
  | all qs next ih => exact ⟨fun q hq w₁ a hI hD => hok q w₁ a (hp.1 q hq) hI hD, fun w₁ _ => ih hp.2 w₁⟩

/-! ### Runs -/

/-- One step of a disciplined run keeps the invariant. -/
theorem RelyGuarantee.step (hR : M.RelyGuarantee D I rely guar) {c c' : Config W T Q ε R}
    {action : Action T A E} (hc : M.Invariant D I rely guar c) (hD : D.allows c action)
    (h : M.system.step c action = some c') : M.Invariant D I rely guar c' := by
  obtain ⟨hI, hS⟩ := hc
  cases M.step_cases h with
  | @started n task w program hidle hstart =>
    obtain ⟨hI', hnew, hrely⟩ := hR.start _ _ _ _ hI hD hstart
    refine ⟨hI', fun m process hm => ?_⟩
    rcases running_update hm with ⟨_, ho⟩ | ⟨_, hold⟩
    · rw [alive_eq_some ho]
      exact hnew
    · exact (hS m process hold).stable hR.trans fun q _ => hrely q
  | @called n i reply process w program hrun hres =>
    obtain ⟨hI', hnext, hmove⟩ := (hS n process hrun).resume hR.refl hI
      (fun q hq => Discipline.allows_call hD hrun hq) hres
    refine ⟨hI', fun m other hm => ?_⟩
    rcases running_update hm with ⟨_, ho⟩ | ⟨_, hold⟩
    · rw [alive_eq_some ho]
      exact hnext
    · refine (hS m other hold).stable hR.trans fun q _ => ?_
      rcases hmove with hw | hguar
      · rw [hw]
        exact hR.refl q _
      · exact hR.guarantee _ _ hguar q
  | @crashed n process hrun =>
    obtain ⟨hI', hrely⟩ := hR.crash c.world process.task hI
    refine ⟨hI', fun m other hm => ?_⟩
    rcases running_update hm with ⟨_, ho⟩ | ⟨_, hold⟩
    · cases ho
    · exact (hS m other hold).stable hR.trans fun q _ => hrely q
  | @moved event w henv =>
    obtain ⟨hI', hrely⟩ := hR.environment _ _ _ _ hI hD henv
    refine ⟨hI', fun m other hm => ?_⟩
    exact (hS m other hm).stable hR.trans fun q hq => hrely q ⟨m, other, hm, hq⟩

/-- A disciplined run keeps the invariant. -/
theorem RelyGuarantee.run (hR : M.RelyGuarantee D I rely guar) {c c' : Config W T Q ε R}
    {actions : List (Action T A E)} (hc : M.Invariant D I rely guar c)
    (hD : M.system.Guarded D.allows c actions) (h : M.system.run c actions = some c') :
    M.Invariant D I rely guar c' :=
  Steps.System.run_guarded (fun _ _ _ hI hC hs => hR.step hI hC hs) hc hD h

/-- A relation of which every move is one relates the worlds of any two states of a
disciplined run, the earlier to the later. -/
structure Moves (D : Discipline W T A E Q) (I : W → Prop) (guar move : W → W → Prop) : Prop where
  refl : ∀ w, move w w
  trans : ∀ u v w, move u v → move v w → move u w
  guarantee : ∀ w w', guar w w' → move w w'
  start : ∀ w task w' program, I w → M.start w task = some (w', program) → move w w'
  crash : ∀ w task, I w → move w (M.crash w task)
  environment : ∀ (pending : Q → Prop) w event w', I w → D.environment pending w event →
    M.environment w event = some w' → move w w'

theorem RelyGuarantee.step_move (hR : M.RelyGuarantee D I rely guar) {move : W → W → Prop}
    (hM : M.Moves D I guar move) {c c' : Config W T Q ε R} {action : Action T A E}
    (hc : M.Invariant D I rely guar c) (hD : D.allows c action) (h : M.system.step c action = some c') :
    move c.world c'.world := by
  cases M.step_cases h with
  | started _ hstart => exact hM.start _ _ _ _ hc.1 hstart
  | @called n i reply process w program hrun hres =>
    rcases ((hc.2 n process hrun).resume hR.refl hc.1
        (fun q hq => Discipline.allows_call hD hrun hq) hres).2.2 with hw | hguar
    · rw [hw]
      exact hM.refl _
    · exact hM.guarantee _ _ hguar
  | crashed _ => exact hM.crash _ _ hc.1
  | moved henv => exact hM.environment _ _ _ _ hc.1 hD henv

theorem RelyGuarantee.run_move (hR : M.RelyGuarantee D I rely guar) {move : W → W → Prop}
    (hM : M.Moves D I guar move) {c c' : Config W T Q ε R} {actions : List (Action T A E)}
    (hc : M.Invariant D I rely guar c) (hD : M.system.Guarded D.allows c actions)
    (h : M.system.run c actions = some c') : move c.world c'.world := by
  have hboth := Steps.System.run_guarded (M := M.system) (C := D.allows)
    (I := fun d => M.Invariant D I rely guar d ∧ move c.world d.world)
    (fun d action d' hd hC hstep =>
      ⟨hR.step hd.1 hC hstep, hM.trans _ _ _ hd.2 (hR.step_move hM hd.1 hC hstep)⟩)
    ⟨hc, hM.refl _⟩ hD h
  exact hboth.2

/-! ### Invariants of the world alone -/

/-- A property every single action keeps, whatever the programs are. -/
structure Kept (M : Machine W T A E Q ε R) (D : Discipline W T A E Q) (I : W → Prop) : Prop where
  start : ∀ w task w' program, I w → D.start w task → M.start w task = some (w', program) → I w'
  call : ∀ w q a, I w → D.call w q a → I (M.perform w q a).1
  crash : ∀ w task, I w → I (M.crash w task)
  environment : ∀ (pending : Q → Prop) w event w', I w → D.environment pending w event →
    M.environment w event = some w' → I w'

theorem Kept.sound (hK : M.Kept D I) (program : Program Q R ε Unit) (w : W) :
    M.SoundProcess D I (fun _ _ _ => True) (fun _ _ => True) program w :=
  sound_of_onlyCalls (fun q w a _ hI hD => ⟨hK.call w q a hI hD, trivial⟩)
    program.onlyCalls_true w

theorem Kept.relyGuarantee (hK : M.Kept D I) :
    M.RelyGuarantee D I (fun _ _ _ => True) (fun _ _ => True) where
  refl _ _ := trivial
  trans _ _ _ _ _ _ := trivial
  guarantee _ _ _ _ := trivial
  start w task w' program hI hD h :=
    ⟨hK.start w task w' program hI hD h, hK.sound program w', fun _ => trivial⟩
  crash w task hI := ⟨hK.crash w task hI, fun _ => trivial⟩
  environment pending w event w' hI hD h :=
    ⟨hK.environment pending w event w' hI hD h, fun _ _ => trivial⟩

/-- Every action is allowed where there is no restriction. -/
theorem Discipline.any_allows (c : Config W T Q ε R) (action : Action T A E) :
    (Discipline.any : Discipline W T A E Q).allows c action := by
  cases action with
  | start n task => trivial
  | call n i reply =>
    simp only [Discipline.allows]
    split
    · trivial
    · split <;> trivial
  | crash n => trivial
  | environment event => trivial

/-- So is every run. -/
theorem guarded_any (c : Config W T Q ε R) (actions : List (Action T A E)) :
    M.system.Guarded (Discipline.any : Discipline W T A E Q).allows c actions := by
  induction actions generalizing c with
  | nil => trivial
  | cons action rest ih => exact ⟨Discipline.any_allows c action, fun c' _ => ih c'⟩

/-- What every action keeps holds in the world of every state of a disciplined run,
whatever was running at its start. -/
theorem Kept.run (hK : M.Kept D I) {c c' : Config W T Q ε R} {actions : List (Action T A E)}
    (hc : I c.world) (hD : M.system.Guarded D.allows c actions)
    (h : M.system.run c actions = some c') : I c'.world :=
  (hK.relyGuarantee.run ⟨hc, fun _ process _ => hK.sound process.program c.world⟩ hD h).1

theorem Kept.run_any (hK : M.Kept .any I) {c c' : Config W T Q ε R} {actions : List (Action T A E)}
    (hc : I c.world) (h : M.system.run c actions = some c') : I c'.world :=
  hK.run hc (guarded_any c actions) h

end Machine
