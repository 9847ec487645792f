import CaseCellShop.Library.Interleave
import Mathlib.Data.List.InsertIdx

/-! One machine refining another, call by call.

A call of the concrete machine stands for one of the abstract machine, and so does a
task, an event and a process with its program. If related worlds stay related under every
call that the programs make, and a call is answered alike on both sides, every run of the
concrete machine is one of the abstract machine, step by step (`Refines.run`). What a
program does may depend on what it is told, so which calls it makes is only asked for
answers of the kind the world gives (`OnlyCallsGiven`). -/

namespace Program
variable {Q Q' : Type} {R : Q → Type} {S : Q' → Type} {ε α β W V A : Type}

/-! ### Calls made on good answers -/

/-- Every call the program can come to satisfies `ok`, as long as the answers are good. -/
def OnlyCallsGiven (good : (q : Q) → Except ε (R q) → Prop) (ok : Q → Prop) : Program Q R ε α → Prop
  | done _ => True
  | await q next => ok q ∧ ∀ r, good q r → OnlyCallsGiven good ok (next r)
  | all qs next => (∀ q ∈ qs, ok q) ∧ OnlyCallsGiven good ok next

section
variable {good : (q : Q) → Except ε (R q) → Prop} {ok : Q → Prop}

theorem OnlyCalls.given {p : Program Q R ε α} (h : p.OnlyCalls ok) : p.OnlyCallsGiven good ok := by
  induction p with
  | done result => trivial
  | await q next ih => exact ⟨h.1, fun r _ => ih r (h.2 r)⟩
  | all qs next ih => exact ⟨h.1, ih h.2⟩

/-- With nothing known of the answers the two say the same. -/
theorem OnlyCallsGiven.any {p : Program Q R ε α} (h : p.OnlyCallsGiven (fun _ _ => True) ok) : p.OnlyCalls ok := by
  induction p with
  | done result => trivial
  | await q next ih => exact ⟨h.1, fun r => ih r (h.2 r trivial)⟩
  | all qs next ih => exact ⟨h.1, ih h.2⟩

theorem onlyCallsGiven_bind {p : Program Q R ε α} {f : α → Program Q R ε β} (hp : p.OnlyCallsGiven good ok)
    (hf : ∀ a, (f a).OnlyCallsGiven good ok) : (p >>= f).OnlyCallsGiven good ok := by
  induction p with
  | done result =>
    cases result with
    | error e => trivial
    | ok a => exact hf a
  | await q next ih => exact ⟨hp.1, fun r hr => ih r (hp.2 r hr)⟩
  | all qs next ih => exact ⟨hp.1, ih hp.2⟩

theorem onlyCallsGiven_handle {p : Program Q R ε α} {h : ε → Program Q R ε α} (hp : p.OnlyCallsGiven good ok)
    (hh : ∀ e, (h e).OnlyCallsGiven good ok) : (p.handle h).OnlyCallsGiven good ok := by
  induction p with
  | done result =>
    cases result with
    | error e => exact hh e
    | ok a => trivial
  | await q next ih => exact ⟨hp.1, fun r hr => ih r (hp.2 r hr)⟩
  | all qs next ih => exact ⟨hp.1, ih hp.2⟩

theorem onlyCallsGiven_ensure {p : Program Q R ε α} {q : Program Q R ε Unit} (hp : p.OnlyCallsGiven good ok)
    (hq : q.OnlyCallsGiven good ok) : (p.ensure q).OnlyCallsGiven good ok := by
  apply onlyCallsGiven_bind
  · exact onlyCallsGiven_handle hp fun _ => onlyCallsGiven_bind hq fun _ => trivial
  · exact fun _ => onlyCallsGiven_bind hq fun _ => trivial

theorem onlyCallsGiven_each {f : β → Program Q R ε Unit} {bs : List β}
    (hf : ∀ b ∈ bs, (f b).OnlyCallsGiven good ok) : (each f bs).OnlyCallsGiven good ok := by
  induction bs with
  | nil => trivial
  | cons b rest ih => exact onlyCallsGiven_bind (hf b (.head rest)) fun _ => ih fun b' hb' => hf b' (.tail b hb')

/-- A call and what follows each of its good answers. -/
theorem onlyCallsGiven_call {q : Q} {f : R q → Program Q R ε β} (hq : ok q)
    (hf : ∀ a, good q (.ok a) → (f a).OnlyCallsGiven good ok) : (call q >>= f).OnlyCallsGiven good ok := by
  refine ⟨hq, fun r hr => ?_⟩
  cases r with
  | error e => trivial
  | ok a => exact hf a hr

end

/-! ### Calls that stand for others -/

/-- The program with `f q` in the place of every call `q`. -/
def mapCalls (f : Q → Q') : Program Q (fun q => S (f q)) ε α → Program Q' S ε α
  | done result => done result
  | await q next => await (f q) fun r => mapCalls f (next r)
  | all qs next => all (qs.map f) (mapCalls f next)

section
variable {f : Q → Q'}

theorem mapCalls_bind (p : Program Q (fun q => S (f q)) ε α) (k : α → Program Q (fun q => S (f q)) ε β) :
    (p >>= k).mapCalls f = p.mapCalls f >>= fun a => (k a).mapCalls f := by
  induction p with
  | done result => cases result <;> rfl
  | await q next ih => exact await_congr ih
  | all qs next ih => exact congrArg (Program.all _) ih

theorem mapCalls_handle (p : Program Q (fun q => S (f q)) ε α) (h : ε → Program Q (fun q => S (f q)) ε α) :
    (p.handle h).mapCalls f = (p.mapCalls f).handle fun e => (h e).mapCalls f := by
  induction p with
  | done result => cases result <;> rfl
  | await q next ih => exact await_congr ih
  | all qs next ih => exact congrArg (Program.all _) ih

theorem mapCalls_ensure (p : Program Q (fun q => S (f q)) ε α) (q : Program Q (fun q => S (f q)) ε Unit) :
    (p.ensure q).mapCalls f = (p.mapCalls f).ensure (q.mapCalls f) := by
  simp only [ensure, mapCalls_bind, mapCalls_handle]
  rfl

theorem mapCalls_each (k : β → Program Q (fun q => S (f q)) ε Unit) (bs : List β) :
    (each k bs).mapCalls f = each (fun b => (k b).mapCalls f) bs := by
  induction bs with
  | nil => rfl
  | cons b rest ih => rw [each, mapCalls_bind, ih, each]

theorem onlyCalls_mapCalls {ok : Q' → Prop} {p : Program Q (fun q => S (f q)) ε α}
    (hp : p.OnlyCalls fun q => ok (f q)) :
    (p.mapCalls f).OnlyCalls ok := by
  induction p with
  | done result => trivial
  | await q next ih => exact ⟨hp.1, fun r => ih r (hp.2 r)⟩
  | all qs next ih => exact ⟨List.forall_mem_map.mpr hp.1, ih hp.2⟩

theorem mapCalls_id (p : Program Q R ε α) : p.mapCalls (fun q => q) = p := by
  induction p with
  | done result => rfl
  | await q next ih => exact await_congr ih
  | all qs next ih => rw [mapCalls, ih, List.map_id'']; exact fun _ => rfl

end

theorem resume_issued {perform : W → (q : Q) → A → W × Except ε (R q)} {qs : List Q} {i : Nat} {q : Q}
    (hq : qs[i]? = some q) (next : Program Q R ε α) (w : W) (a : A) :
    (all qs next).resume perform w i a = some ((perform w q a).1, all (qs.eraseIdx i) next) := by
  cases qs with
  | nil => cases hq
  | cons q₀ qs => simp only [resume, hq]

theorem complete_issued {perform : W → (q : Q) → A → W × Except ε (R q)} {qs : List Q} {i : Nat} {q : Q}
    (hq : qs[i]? = some q) (next : Program Q R ε α) (w : W) (a : A) (choices : List (Nat × A)) :
    complete perform ((i, a) :: choices) (all qs next) w =
      (complete perform choices (all (qs.eraseIdx i) next) (perform w q a).1).map fun (calls, result) =>
        (⟨q, (perform w q a).2⟩ :: calls, result) := by
  cases qs with
  | nil => cases hq
  | cons q₀ qs => simp only [complete, hq]

/-! ### One call on both sides -/

/-- Related worlds answer the calls of `ok` alike and well, and stay related. -/
def Agrees (f : Q → Q') (rel : W → V → Prop) (ok : Q → Prop) (good : (q : Q) → Except ε (S (f q)) → Prop)
    (perform : W → (q : Q) → A → W × Except ε (S (f q))) (perform' : V → (q : Q') → A → V × Except ε (S q)) : Prop :=
  ∀ w v q a, rel w v → ok q → (perform' v (f q) a).2 = (perform w q a).2 ∧
    rel (perform w q a).1 (perform' v (f q) a).1 ∧ good q (perform w q a).2

section
variable {f : Q → Q'} {rel : W → V → Prop} {ok : Q → Prop} {good : (q : Q) → Except ε (S (f q)) → Prop}
  {perform : W → (q : Q) → A → W × Except ε (S (f q))} {perform' : V → (q : Q') → A → V × Except ε (S q)}

theorem Agrees.resume (h : Agrees f rel ok good perform perform') {w w' : W} {v : V}
    {p p' : Program Q (fun q => S (f q)) ε α} {i : Nat} {a : A} (hw : rel w v) (hp : p.OnlyCallsGiven good ok)
    (hr : p.resume perform w i a = some (w', p')) :
    ∃ v', (p.mapCalls f).resume perform' v i a = some (v', p'.mapCalls f) ∧ rel w' v' ∧
    p'.OnlyCallsGiven good ok := by
  cases p with
  | done result => cases hr
  | await q next =>
    obtain ⟨rfl, rfl⟩ := resume_await hr
    obtain ⟨hanswer, hrel, hgood⟩ := h w v q a hw hp.1
    refine ⟨_, ?_, hrel, hp.2 _ hgood⟩
    show some ((perform' v (f q) a).1, mapCalls f (next (perform' v (f q) a).2)) = _
    rw [hanswer]
  | all qs next =>
    rcases resume_all hr with ⟨rfl, rfl, rfl⟩ | ⟨q, hq, rfl, rfl⟩
    · exact ⟨v, rfl, hw, hp.2⟩
    · obtain ⟨hanswer, hrel, hgood⟩ := h w v q a hw (hp.1 q (List.mem_of_getElem? hq))
      refine ⟨_, ?_, hrel, fun q' hq' => hp.1 q' (List.mem_of_mem_eraseIdx hq'), hp.2⟩
      have hq' : (qs.map f)[i]? = some (f q) := by rw [List.getElem?_map, hq]; rfl
      rw [mapCalls, resume_issued hq', mapCalls, List.eraseIdx_map]

/-- A program that is run to its end returns the same on both sides. -/
theorem Agrees.complete (h : Agrees f rel ok good perform perform') {choices : List (Nat × A)}
    {p : Program Q (fun q => S (f q)) ε α} {w w' : W} {v : V} {calls : List ((q : Q) × Except ε (S (f q)))}
    {result : Except ε α} (hw : rel w v) (hp : p.OnlyCallsGiven good ok)
    (hc : Program.complete perform choices p w = some (calls, result, w')) :
    ∃ v', Program.complete perform' choices (p.mapCalls f) v =
      some (calls.map fun call => ⟨f call.1, call.2⟩, result, v') ∧ rel w' v' := by
  induction choices generalizing p w v calls with
  | nil =>
    cases p with
    | done r =>
      cases hc
      exact ⟨v, rfl, hw⟩
    | await q next => cases hc
    | all qs next => cases hc
  | cons choice choices ih =>
    obtain ⟨i, a⟩ := choice
    cases p with
    | done r =>
      cases hc
      exact ⟨v, rfl, hw⟩
    | await q next =>
      obtain ⟨_, _, _, calls', he, rfl, hrest⟩ := complete_await hc
      cases he
      obtain ⟨hanswer, hrel, hgood⟩ := h w v q a hw hp.1
      obtain ⟨v', hrest', hv'⟩ := ih hrel (hp.2 _ hgood) hrest
      refine ⟨v', ?_, hv'⟩
      simp only [mapCalls, Program.complete, hanswer, hrest']
      rfl
    | all qs next =>
      obtain ⟨rfl, hnext⟩ | ⟨q, calls', hq, rfl, hrest⟩ := complete_all hc
      · exact ih hw hp.2 hnext
      · obtain ⟨hanswer, hrel, hgood⟩ := h w v q a hw (hp.1 q (List.mem_of_getElem? hq))
        have hleft : (all (qs.eraseIdx i) next).OnlyCallsGiven good ok :=
          ⟨fun r hr => hp.1 r (List.mem_of_mem_eraseIdx hr), hp.2⟩
        obtain ⟨v', hrest', hv'⟩ := ih hrel hleft hrest
        refine ⟨v', ?_, hv'⟩
        have hq' : (qs.map f)[i]? = some (f q) := by rw [List.getElem?_map, hq]; rfl
        rw [mapCalls, ← List.eraseIdx_map] at hrest'
        rw [mapCalls, complete_issued hq', hrest', hanswer]
        rfl

end

end Program

/-! ### Machines -/

namespace Machine
open Program

variable {W V T T' A E E' Q Q' ε : Type} {R : Q' → Type}

/-- The abstract action of a concrete one. -/
def Action.translate (task : T → T') (event : E → E') : Action T A E → Action T' A E'
  | .start n t => .start n (task t)
  | .call n i reply => .call n i reply
  | .crash n => .crash n
  | .environment e => .environment (event e)

section
variable (f : Q → Q') (task : T → T') (event : E → E') (rel : W → V → Prop) (okTask : T → Prop) (ok : Q → Prop)
  (good : (q : Q) → Except ε (R (f q)) → Prop)

/-- What is to be shown for the runs of `M` to be runs of `N`. -/
structure Refines (M : Machine W T A E Q ε fun q => R (f q)) (N : Machine V T' A E' Q' ε R) : Prop where
  start : ∀ w v t w' p, rel w v → M.start w t = some (w', p) →
    ∃ v', N.start v (task t) = some (v', p.mapCalls f) ∧ rel w' v' ∧ okTask t ∧ p.OnlyCallsGiven good ok
  call : Agrees f rel ok good M.perform N.perform
  crash : ∀ w v t, rel w v → okTask t → rel (M.crash w t) (N.crash v (task t))
  environment : ∀ w v e w', rel w v → M.environment w e = some w' →
    ∃ v', N.environment v (event e) = some v' ∧ rel w' v'

/-- The abstract process of a concrete one. -/
def Process.translate (process : Process T Q ε fun q => R (f q)) : Process T' Q' ε R :=
  ⟨task process.task, process.program.mapCalls f⟩

/-- The worlds are related, and the processes are the same but for their calls. -/
structure Alike (c : Config W T Q ε fun q => R (f q)) (d : Config V T' Q' ε R) : Prop where
  world : rel c.world d.world
  running : ∀ n, d.running n = (c.running n).map (Process.translate f task)
  processes : ∀ n process, c.running n = some process → okTask process.task ∧ process.program.OnlyCallsGiven good ok

end

section
variable {f : Q → Q'} {task : T → T'} {event : E → E'} {rel : W → V → Prop} {okTask : T → Prop} {ok : Q → Prop}
  {good : (q : Q) → Except ε (R (f q)) → Prop}

theorem alike_idle {w : W} {v : V} (h : rel w v) :
    Alike f task rel okTask ok good (.idle w) (.idle v : Config V T' Q' ε R) :=
  ⟨h, fun _ => rfl, fun _ _ hn => by cases hn⟩

theorem alive_translate (t : T) (p : Program Q (fun q => R (f q)) ε Unit) :
    alive (task t) (p.mapCalls f) = (alive t p).map (Process.translate f task) := by
  cases p <;> rfl

/-- One slot of the table changes on both sides. -/
theorem Alike.update {c : Config W T Q ε fun q => R (f q)} {d : Config V T' Q' ε R}
    (h : Alike f task rel okTask ok good c d) {w : W} {v : V} (hrel : rel w v) (n : Nat)
    {o : Option (Process T Q ε fun q => R (f q))}
    (ho : ∀ process, o = some process → okTask process.task ∧ process.program.OnlyCallsGiven good ok) :
    Alike f task rel okTask ok good ⟨w, Function.update c.running n o⟩
      ⟨v, Function.update d.running n (o.map (Process.translate f task))⟩ := by
  refine ⟨hrel, fun m => ?_, fun m process hm => ?_⟩
  · by_cases hmn : m = n
    · subst hmn
      simp
    · simp only [Function.update_of_ne hmn]
      exact h.running m
  · rcases running_update hm with ⟨_, ho'⟩ | ⟨_, hold⟩
    · exact ho process ho'
    · exact h.processes m process hold

variable {M : Machine W T A E Q ε fun q => R (f q)} {N : Machine V T' A E' Q' ε R}

theorem Refines.step (hR : Refines f task event rel okTask ok good M N) {c c' : Config W T Q ε fun q => R (f q)}
    {d : Config V T' Q' ε R} (h : Alike f task rel okTask ok good c d) {action : Action T A E}
    (hs : M.system.step c action = some c') :
    ∃ d', N.system.step d (action.translate task event) = some d' ∧ Alike f task rel okTask ok good c' d' := by
  cases M.step_cases hs with
  | @started n t w p hidle hstart =>
    obtain ⟨v, hv, hrel, ht, hp⟩ := hR.start _ _ _ _ _ h.world hstart
    refine ⟨⟨v, Function.update d.running n (alive (task t) (p.mapCalls f))⟩, ?_, ?_⟩
    · simp only [Action.translate, system, Machine.step, h.running n, hidle, Option.map_none, hv]
    · rw [alive_translate]
      refine h.update hrel n fun process hprocess => ?_
      rw [alive_eq_some hprocess]
      exact ⟨ht, hp⟩
  | @called n i reply process w p hrun hres =>
    obtain ⟨ht, hp⟩ := h.processes n process hrun
    obtain ⟨v, hv, hrel, hp'⟩ := hR.call.resume h.world hp hres
    refine ⟨⟨v, Function.update d.running n (alive (task process.task) (p.mapCalls f))⟩, ?_, ?_⟩
    · simp only [Action.translate, system, Machine.step, h.running n, hrun, Option.map_some, Process.translate, hv]
    · rw [alive_translate]
      refine h.update hrel n fun other hother => ?_
      rw [alive_eq_some hother]
      exact ⟨ht, hp'⟩
  | @crashed n process hrun =>
    have hrel := hR.crash _ _ _ h.world (h.processes n process hrun).1
    refine ⟨⟨N.crash d.world (task process.task), Function.update d.running n none⟩, ?_, ?_⟩
    · simp only [Action.translate, system, Machine.step, h.running n, hrun, Option.map_some, Process.translate]
    · exact h.update hrel n fun other hother => by cases hother
  | @moved e w henv =>
    obtain ⟨v, hv, hrel⟩ := hR.environment _ _ _ _ h.world henv
    refine ⟨⟨v, d.running⟩, ?_, hrel, h.running, h.processes⟩
    simp only [Action.translate, system, Machine.step, hv]

/-- Every run of the concrete machine is one of the abstract machine. -/
theorem Refines.run (hR : Refines f task event rel okTask ok good M N) {c c' : Config W T Q ε fun q => R (f q)}
    {d : Config V T' Q' ε R} (h : Alike f task rel okTask ok good c d) {actions : List (Action T A E)}
    (hr : M.system.run c actions = some c') :
    ∃ d', N.system.run d (actions.map (Action.translate task event)) = some d' ∧
      Alike f task rel okTask ok good c' d' := by
  induction actions generalizing c d with
  | nil =>
    cases hr
    exact ⟨d, rfl, h⟩
  | cons action rest ih =>
    rw [Steps.System.run_cons, Option.bind_eq_some_iff] at hr
    obtain ⟨t, ht, hrest⟩ := hr
    obtain ⟨u, hu, htu⟩ := hR.step h ht
    obtain ⟨d', hd', halike⟩ := ih htu hrest
    refine ⟨d', ?_, halike⟩
    rw [List.map_cons, Steps.System.run_cons, hu]
    exact hd'

end

/-! ### Invariants that rest on the answers

A machine refines itself, so an invariant kept by the calls that the programs make on good
answers holds in every state. -/

section
variable (I : W → Prop) (okTask : T → Prop) (ok : Q' → Prop) (good : (q : Q') → Except ε (R q) → Prop)

/-- What is to be shown for `I` to hold in every state. -/
structure Confined (M : Machine W T A E Q' ε R) : Prop where
  start : ∀ w t w' p, I w → M.start w t = some (w', p) → I w' ∧ okTask t ∧ p.OnlyCallsGiven good ok
  call : ∀ w q a, I w → ok q → I (M.perform w q a).1 ∧ good q (M.perform w q a).2
  crash : ∀ w t, I w → okTask t → I (M.crash w t)
  environment : ∀ w e w', I w → M.environment w e = some w' → I w'

end

section
variable {I : W → Prop} {okTask : T → Prop} {ok : Q' → Prop} {good : (q : Q') → Except ε (R q) → Prop}
  {M : Machine W T A E Q' ε R}

theorem Confined.refines (h : Confined I okTask ok good M) :
    Refines (fun q => q) id id (fun w v => v = w ∧ I w) okTask ok good M M where
  start := by
    rintro w _ t w' p ⟨rfl, hw⟩ hstart
    obtain ⟨hw', ht, hp⟩ := h.start _ t w' p hw hstart
    refine ⟨w', ?_, ⟨rfl, hw'⟩, ht, hp⟩
    rw [mapCalls_id]
    exact hstart
  call := by
    rintro w _ q a ⟨rfl, hw⟩ hq
    obtain ⟨hw', hgood⟩ := h.call _ q a hw hq
    exact ⟨rfl, ⟨rfl, hw'⟩, hgood⟩
  crash := by
    rintro w _ t ⟨rfl, hw⟩ ht
    exact ⟨rfl, h.crash _ t hw ht⟩
  environment := by
    rintro w _ e w' ⟨rfl, hw⟩ he
    exact ⟨w', he, rfl, h.environment _ e w' hw he⟩

theorem Confined.run (h : Confined I okTask ok good M) {w : W} (hw : I w) {actions : List (Action T A E)}
    {c : Config W T Q' ε R} (hr : M.system.run (.idle w) actions = some c) : I c.world := by
  obtain ⟨d, _, halike⟩ := h.refines.run (alike_idle (V := W) ⟨rfl, hw⟩) hr
  exact halike.world.2

end

end Machine
