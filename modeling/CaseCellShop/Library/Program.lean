import Mathlib.Data.List.Basic

/-! Programs that await calls.

A program is a tree of the calls it awaits: what it does next is a function of the
answer, and an answer may be an exception. The same program can be run in one go
(`run`) or resumed one call at a time between the steps of other programs (`resume`),
so a function of the source is written once for both. -/

/-- A program over calls `Q`, where `R q` is the answer to `q` and `ε` the exceptions. -/
inductive Program (Q : Type) (R : Q → Type) (ε α : Type) where
  | done (result : Except ε α)
  | await (q : Q) (next : Except ε (R q) → Program Q R ε α)
  /-- Calls issued together, answered in any order, whose answers nobody looks at. -/
  | all (qs : List Q) (next : Program Q R ε α)

namespace Program
variable {Q : Type} {R : Q → Type} {ε α β W A : Type}

/-- One program after another; an exception skips the second. -/
def bind : Program Q R ε α → (α → Program Q R ε β) → Program Q R ε β
  | done (.ok a), f => f a
  | done (.error e), _ => done (.error e)
  | await q next, f => await q fun r => bind (next r) f
  | all qs next, f => all qs (bind next f)

instance : Monad (Program Q R ε) where
  pure a := done (.ok a)
  bind := bind

/-- Raise an exception. -/
def throw (e : ε) : Program Q R ε α := done (.error e)

/-- Run a handler in place of an exception. -/
def handle : Program Q R ε α → (ε → Program Q R ε α) → Program Q R ε α
  | done (.ok a), _ => done (.ok a)
  | done (.error e), h => h e
  | await q next, h => await q fun r => handle (next r) h
  | all qs next, h => all qs (handle next h)

/-- An answer in place of an exception. -/
def orElse (p : Program Q R ε α) (a : α) : Program Q R ε α := p.handle fun _ => pure a

/-- Run `q` after `p`, also if `p` raised an exception. -/
def ensure (p : Program Q R ε α) (q : Program Q R ε Unit) : Program Q R ε α := do
  let a ← p.handle fun e => do
    q
    throw e
  q
  return a

/-- Make one call. -/
def call (q : Q) : Program Q R ε (R q) := await q done

/-- Make calls together and wait for all of them. -/
def callAll (qs : List Q) : Program Q R ε Unit := all qs (pure ())

/-- A loop over a list. -/
def each (f : β → Program Q R ε Unit) : List β → Program Q R ε Unit
  | [] => pure ()
  | b :: rest => do
    f b
    each f rest

theorem await_congr {q : Q} {next next' : Except ε (R q) → Program Q R ε α} (h : ∀ r, next r = next' r) :
    await q next = await q next' :=
  congrArg _ (funext h)

/-- A program whose exceptions are caught has no use for another handler. -/
theorem handle_orElse (p : Program Q R ε α) (a : α) (h : ε → Program Q R ε α) :
    handle (orElse p a) h = orElse p a := by
  induction p with
  | done result => cases result <;> rfl
  | await q next ih => exact await_congr ih
  | all qs next ih => exact congrArg (Program.all qs) ih

/-! ### Which calls a program makes -/

/-- Every call the program can come to, whatever the answers, satisfies `ok`. -/
def OnlyCalls (ok : Q → Prop) : Program Q R ε α → Prop
  | done _ => True
  | await q next => ok q ∧ ∀ r, OnlyCalls ok (next r)
  | all qs next => (∀ q ∈ qs, ok q) ∧ OnlyCalls ok next

theorem onlyCalls_true (p : Program Q R ε α) : p.OnlyCalls fun _ => True := by
  induction p with
  | done result => trivial
  | await q next ih => exact ⟨trivial, ih⟩
  | all qs next ih => exact ⟨fun _ _ => trivial, ih⟩

theorem onlyCalls_bind {ok : Q → Prop} {p : Program Q R ε α} {f : α → Program Q R ε β}
    (hp : p.OnlyCalls ok) (hf : ∀ a, (f a).OnlyCalls ok) : (p >>= f).OnlyCalls ok := by
  induction p with
  | done result =>
    cases result with
    | error e => trivial
    | ok a => exact hf a
  | await q next ih => exact ⟨hp.1, fun r => ih r (hp.2 r)⟩
  | all qs next ih => exact ⟨hp.1, ih hp.2⟩

theorem onlyCalls_handle {ok : Q → Prop} {p : Program Q R ε α} {h : ε → Program Q R ε α}
    (hp : p.OnlyCalls ok) (hh : ∀ e, (h e).OnlyCalls ok) : (p.handle h).OnlyCalls ok := by
  induction p with
  | done result =>
    cases result with
    | error e => exact hh e
    | ok a => trivial
  | await q next ih => exact ⟨hp.1, fun r => ih r (hp.2 r)⟩
  | all qs next ih => exact ⟨hp.1, ih hp.2⟩

theorem onlyCalls_orElse {ok : Q → Prop} {p : Program Q R ε α} (hp : p.OnlyCalls ok) (a : α) :
    (p.orElse a).OnlyCalls ok :=
  onlyCalls_handle hp fun _ => trivial

theorem onlyCalls_ensure {ok : Q → Prop} {p : Program Q R ε α} {q : Program Q R ε Unit}
    (hp : p.OnlyCalls ok) (hq : q.OnlyCalls ok) : (p.ensure q).OnlyCalls ok := by
  apply onlyCalls_bind
  · exact onlyCalls_handle hp fun _ => onlyCalls_bind hq fun _ => trivial
  · exact fun _ => onlyCalls_bind hq fun _ => trivial

theorem onlyCalls_callAll {ok : Q → Prop} {qs : List Q} (h : ∀ q ∈ qs, ok q) :
    (callAll qs : Program Q R ε Unit).OnlyCalls ok :=
  ⟨h, trivial⟩

theorem onlyCalls_call {ok : Q → Prop} {q : Q} (h : ok q) :
    (call q : Program Q R ε (R q)).OnlyCalls ok :=
  ⟨h, fun _ => trivial⟩

theorem onlyCalls_each {ok : Q → Prop} {f : β → Program Q R ε Unit} {bs : List β}
    (hf : ∀ b ∈ bs, (f b).OnlyCalls ok) : (each f bs).OnlyCalls ok := by
  induction bs with
  | nil => trivial
  | cons b rest ih =>
    exact onlyCalls_bind (hf b (.head rest)) fun _ => ih fun b' hb' => hf b' (.tail b hb')

theorem onlyCalls_mono {ok ok' : Q → Prop} {p : Program Q R ε α} (hp : p.OnlyCalls ok)
    (h : ∀ q, ok q → ok' q) : p.OnlyCalls ok' := by
  induction p with
  | done result => trivial
  | await q next ih => exact ⟨h q hp.1, fun r => ih r (hp.2 r)⟩
  | all qs next ih => exact ⟨fun q hq => h q (hp.1 q hq), ih hp.2⟩

/-! ### Running alone -/

/-- The program from beginning to end, with nothing in between. -/
def run (perform : W → (q : Q) → W × Except ε (R q)) : Program Q R ε α → W → Except ε α × W
  | done result, w => (result, w)
  | await q next, w => run perform (next (perform w q).2) (perform w q).1
  | all qs next, w => run perform next (qs.foldl (fun w q => (perform w q).1) w)

theorem run_bind (perform : W → (q : Q) → W × Except ε (R q)) (p : Program Q R ε α)
    (f : α → Program Q R ε β) (w : W) :
    (p >>= f).run perform w =
      match p.run perform w with
      | (.ok a, w') => (f a).run perform w'
      | (.error e, w') => (.error e, w') := by
  induction p generalizing w with
  | done result => cases result <;> rfl
  | await q next ih => exact ih _ _
  | all qs next ih => exact ih _

/-! ### Running among others -/

/-- The program after one of the calls it waits for is answered: the call it awaits, or
the `i`th of those issued together. -/
def resume (perform : W → (q : Q) → A → W × Except ε (R q)) (w : W) (i : Nat) (a : A) :
    Program Q R ε α → Option (W × Program Q R ε α)
  | done _ => none
  | await q next => some ((perform w q a).1, next (perform w q a).2)
  | all [] next => some (w, next)
  | all (q :: qs) next =>
    match (q :: qs)[i]? with
    | some q' => some ((perform w q' a).1, all ((q :: qs).eraseIdx i) next)
    | none => none

/-- The calls a program waits for. -/
def Pending (q : Q) : Program Q R ε α → Prop
  | done _ => False
  | await q' _ => q = q'
  | all qs _ => q ∈ qs

/-- The `i`th of the calls a program waits for. -/
def awaited (i : Nat) : Program Q R ε α → Option Q
  | done _ => none
  | await q _ => some q
  | all qs _ => qs[i]?

theorem resume_all {perform : W → (q : Q) → A → W × Except ε (R q)} {w w' : W} {i : Nat} {a : A}
    {qs : List Q} {next p' : Program Q R ε α} (h : (all qs next).resume perform w i a = some (w', p')) :
    qs = [] ∧ w' = w ∧ p' = next ∨
      ∃ q, qs[i]? = some q ∧ w' = (perform w q a).1 ∧ p' = all (qs.eraseIdx i) next := by
  cases qs with
  | nil =>
    cases h
    exact .inl ⟨rfl, rfl, rfl⟩
  | cons q rest =>
    cases hq : (q :: rest)[i]? with
    | none => simp [resume, hq] at h
    | some q' =>
      simp only [resume, hq] at h
      cases h
      exact .inr ⟨q', rfl, rfl, rfl⟩

theorem resume_await {perform : W → (q : Q) → A → W × Except ε (R q)} {w w' : W} {i : Nat} {a : A} {q : Q}
    {next : Except ε (R q) → Program Q R ε α} {p' : Program Q R ε α}
    (h : (await q next).resume perform w i a = some (w', p')) :
    w' = (perform w q a).1 ∧ p' = next (perform w q a).2 := by
  cases h
  exact ⟨rfl, rfl⟩

/-- A resumption performs an awaited call, or only notes that none is left. -/
theorem resume_performs {perform : W → (q : Q) → A → W × Except ε (R q)} {w w' : W} {i : Nat} {a : A}
    {p p' : Program Q R ε α} (h : p.resume perform w i a = some (w', p')) :
    w' = w ∨ ∃ q, p.awaited i = some q ∧ w' = (perform w q a).1 := by
  cases p with
  | done result => cases h
  | await q next => exact .inr ⟨q, rfl, (resume_await h).1⟩
  | all qs next =>
    rcases resume_all h with ⟨_, hw, _⟩ | ⟨q, hq, hw, _⟩
    · exact .inl hw
    · exact .inr ⟨q, hq, hw⟩

theorem OnlyCalls.awaited {ok : Q → Prop} {p : Program Q R ε α} (hp : p.OnlyCalls ok) {i : Nat} {q : Q}
    (h : p.awaited i = some q) : ok q := by
  cases p with
  | done result => cases h
  | await q' next =>
    cases h
    exact hp.1
  | all qs next => exact hp.1 q (List.mem_of_getElem? h)

theorem OnlyCalls.resume {ok : Q → Prop} {p p' : Program Q R ε α} (hp : p.OnlyCalls ok)
    {perform : W → (q : Q) → A → W × Except ε (R q)} {w w' : W} {i : Nat} {a : A}
    (h : p.resume perform w i a = some (w', p')) : p'.OnlyCalls ok := by
  cases p with
  | done result => cases h
  | await q next =>
    rw [(resume_await h).2]
    exact hp.2 _
  | all qs next =>
    rcases resume_all h with ⟨_, _, rfl⟩ | ⟨q, _, _, rfl⟩
    · exact hp.2
    · exact ⟨fun q' hq' => hp.1 q' (List.mem_of_mem_eraseIdx hq'), hp.2⟩

/-! ### Running to the end -/

/-- The program resumed until it is done, with the calls it made and their answers. The
choices say which of the calls issued together is answered next, and how each call
goes. -/
def complete (perform : W → (q : Q) → A → W × Except ε (R q)) :
    List (Nat × A) → Program Q R ε α → W → Option (List ((q : Q) × Except ε (R q)) × Except ε α × W)
  | _, done result, w => some ([], result, w)
  | [], _, _ => none
  | (_, a) :: choices, await q next, w =>
    (complete perform choices (next (perform w q a).2) (perform w q a).1).map fun (calls, result) =>
      (⟨q, (perform w q a).2⟩ :: calls, result)
  | _ :: choices, all [] next, w => complete perform choices next w
  | (i, a) :: choices, all (q :: qs) next, w =>
    match (q :: qs)[i]? with
    | none => none
    | some q' =>
      (complete perform choices (all ((q :: qs).eraseIdx i) next) (perform w q' a).1).map fun (calls, result) =>
        (⟨q', (perform w q' a).2⟩ :: calls, result)

theorem complete_done {perform : W → (q : Q) → A → W × Except ε (R q)} {choices : List (Nat × A)} {r : Except ε α}
    {w w' : W} {calls : List ((q : Q) × Except ε (R q))} {result : Except ε α}
    (h : complete perform choices (done r) w = some (calls, result, w')) : calls = [] ∧ result = r ∧ w' = w := by
  cases choices <;> cases h <;> exact ⟨rfl, rfl, rfl⟩

/-- A completed program that awaits a call was given a choice for it. -/
theorem complete_await {perform : W → (q : Q) → A → W × Except ε (R q)} {choices : List (Nat × A)} {q : Q}
    {next : Except ε (R q) → Program Q R ε α} {w w' : W} {calls : List ((q : Q) × Except ε (R q))}
    {result : Except ε α} (h : complete perform choices (await q next) w = some (calls, result, w')) :
    ∃ i a rest calls', choices = (i, a) :: rest ∧ calls = ⟨q, (perform w q a).2⟩ :: calls' ∧
      complete perform rest (next (perform w q a).2) (perform w q a).1 = some (calls', result, w') := by
  cases choices with
  | nil => cases h
  | cons choice rest =>
    obtain ⟨⟨calls', _, _⟩, hrest, he⟩ := Option.map_eq_some_iff.mp h
    cases he
    exact ⟨choice.1, choice.2, rest, calls', rfl, rfl, hrest⟩

/-- With calls issued together, a choice answers one of them, or there is none. -/
theorem complete_all {perform : W → (q : Q) → A → W × Except ε (R q)} {i : Nat} {a : A} {choices : List (Nat × A)}
    {qs : List Q} {next : Program Q R ε α} {w w' : W} {calls : List ((q : Q) × Except ε (R q))} {result : Except ε α}
    (h : complete perform ((i, a) :: choices) (all qs next) w = some (calls, result, w')) :
    (qs = [] ∧ complete perform choices next w = some (calls, result, w')) ∨
      ∃ q calls', qs[i]? = some q ∧ calls = ⟨q, (perform w q a).2⟩ :: calls' ∧
        complete perform choices (all (qs.eraseIdx i) next) (perform w q a).1 = some (calls', result, w') := by
  cases qs with
  | nil => exact .inl ⟨rfl, h⟩
  | cons q qs =>
    simp only [complete] at h
    cases hq : (q :: qs)[i]? with
    | none =>
      rw [hq] at h
      cases h
    | some q' =>
      rw [hq] at h
      obtain ⟨⟨calls', _, _⟩, hrest, he⟩ := Option.map_eq_some_iff.mp h
      cases he
      exact .inr ⟨q', calls', rfl, rfl, hrest⟩

/-- What every call keeps and answers, holds of a completed program. -/
theorem complete_answers {ok : Q → Prop} {good : ((q : Q) × Except ε (R q)) → Prop} {I : W → Prop}
    {perform : W → (q : Q) → A → W × Except ε (R q)}
    (hok : ∀ q w a, ok q → I w → I (perform w q a).1 ∧ good ⟨q, (perform w q a).2⟩) {choices : List (Nat × A)}
    {p : Program Q R ε α} (hp : p.OnlyCalls ok) {w w' : W} {calls : List ((q : Q) × Except ε (R q))}
    {result : Except ε α} (hw : I w) (h : complete perform choices p w = some (calls, result, w')) :
    I w' ∧ ∀ call ∈ calls, good call := by
  induction choices generalizing p w calls with
  | nil =>
    cases p with
    | done r =>
      cases h
      exact ⟨hw, List.forall_mem_nil _⟩
    | await q next => cases h
    | all qs next => cases h
  | cons choice choices ih =>
    obtain ⟨i, a⟩ := choice
    cases p with
    | done r =>
      cases h
      exact ⟨hw, List.forall_mem_nil _⟩
    | await q next =>
      obtain ⟨_, _, _, calls', he, rfl, hrest⟩ := complete_await h
      cases he
      obtain ⟨hkept, hgood⟩ := hok q w a hp.1 hw
      obtain ⟨hI, hcalls⟩ := ih (hp.2 _) hkept hrest
      exact ⟨hI, List.forall_mem_cons.mpr ⟨hgood, hcalls⟩⟩
    | all qs next =>
      obtain ⟨rfl, hnext⟩ | ⟨q, calls', hq, rfl, hrest⟩ := complete_all h
      · exact ih hp.2 hw hnext
      · obtain ⟨hkept, hgood⟩ := hok q w a (hp.1 q (List.mem_of_getElem? hq)) hw
        have hleft : (all (qs.eraseIdx i) next).OnlyCalls ok :=
          ⟨fun r hr => hp.1 r (List.mem_of_mem_eraseIdx hr), hp.2⟩
        obtain ⟨hI, hcalls⟩ := ih hleft hkept hrest
        exact ⟨hI, List.forall_mem_cons.mpr ⟨hgood, hcalls⟩⟩

/-- What every call keeps, a completed program keeps. -/
theorem complete_onlyCalls {ok : Q → Prop} {I : W → Prop} {perform : W → (q : Q) → A → W × Except ε (R q)}
    (hok : ∀ q w a, ok q → I w → I (perform w q a).1) {choices : List (Nat × A)} {p : Program Q R ε α}
    (hp : p.OnlyCalls ok) {w w' : W} {calls : List ((q : Q) × Except ε (R q))} {result : Except ε α} (hw : I w)
    (h : complete perform choices p w = some (calls, result, w')) :
    I w' ∧ ∀ call ∈ calls, ok call.1 := by
  let good (call : (q : Q) × Except ε (R q)) : Prop := ok call.1
  have hgood : ∀ q w a, ok q → I w → I (perform w q a).1 ∧ good ⟨q, (perform w q a).2⟩ :=
    fun q w a hq hw => ⟨hok q w a hq hw, hq⟩
  exact complete_answers hgood hp hw h

/-! ### What a program may return

Where others may act between two calls, all that is known of an answer is what its own
call promises. -/

/-- The program may end with `result` after these calls and their answers. -/
inductive Answered : Program Q R ε α → List ((q : Q) × Except ε (R q)) → Except ε α → Prop
  | done (result : Except ε α) : Answered (done result) [] result
  | await {q : Q} {next : Except ε (R q) → Program Q R ε α} {calls result} (r : Except ε (R q))
      (h : Answered (next r) calls result) : Answered (await q next) (⟨q, r⟩ :: calls) result
  | all {qs : List Q} {next : Program Q R ε α} {calls result} (answers : List ((q : Q) × Except ε (R q)))
      (hanswers : (answers.map Sigma.fst).Perm qs) (h : Answered next calls result) :
      Answered (all qs next) (answers ++ calls) result

/-- A completed program has answered calls. -/
theorem answered_of_complete {perform : W → (q : Q) → A → W × Except ε (R q)} {choices : List (Nat × A)}
    {p : Program Q R ε α} {w w' : W} {calls : List ((q : Q) × Except ε (R q))} {result : Except ε α}
    (h : complete perform choices p w = some (calls, result, w')) : Answered p calls result := by
  induction choices generalizing p w calls with
  | nil =>
    cases p with
    | done r =>
      cases h
      exact .done _
    | await q next => cases h
    | all qs next => cases h
  | cons choice choices ih =>
    obtain ⟨i, a⟩ := choice
    cases p with
    | done r =>
      cases h
      exact .done _
    | await q next =>
      obtain ⟨_, _, _, calls', he, rfl, hrest⟩ := complete_await h
      cases he
      exact .await _ (ih hrest)
    | all qs next =>
      obtain ⟨rfl, hnext⟩ | ⟨q, calls', hq, rfl, hrest⟩ := complete_all h
      · exact .all [] (.refl []) (ih hnext)
      · cases ih hrest with
        | all answers hanswers hnext =>
          -- the answered call goes back to the place it was taken from
          refine .all (⟨q, _⟩ :: answers) ?_ hnext
          obtain ⟨hi, hget⟩ := List.getElem?_eq_some_iff.mp hq
          have hback : (q :: qs.eraseIdx i).Perm qs := by
            conv_rhs => rw [← List.take_append_drop i qs, List.drop_eq_getElem_cons hi, hget]
            rw [List.eraseIdx_eq_take_drop_succ]
            exact List.perm_middle.symm
          exact (hanswers.cons q).trans hback

/-- Only calls the program can come to are answered. -/
theorem Answered.onlyCalls {ok : Q → Prop} {p : Program Q R ε α} {calls : List ((q : Q) × Except ε (R q))}
    {result : Except ε α} (h : Answered p calls result) (hp : p.OnlyCalls ok) : ∀ call ∈ calls, ok call.1 := by
  induction h with
  | done result => exact List.forall_mem_nil _
  | await r _ ih => exact List.forall_mem_cons.mpr ⟨hp.1, ih (hp.2 r)⟩
  | all answers hanswers _ ih =>
    refine List.forall_mem_append.mpr ⟨fun call hcall => ?_, ih hp.2⟩
    exact hp.1 _ (hanswers.mem_iff.mp (List.mem_map_of_mem hcall))

theorem answered_call {q : Q} {calls : List ((q : Q) × Except ε (R q))} {result : Except ε (R q)}
    (h : Answered (call q) calls result) : calls = [⟨q, result⟩] := by
  cases h with
  | await r h =>
    cases h
    rfl

/-- One program after another: the first raised an exception, or both ran. -/
theorem answered_bind {p : Program Q R ε α} {f : α → Program Q R ε β} {calls : List ((q : Q) × Except ε (R q))}
    {result : Except ε β} (h : Answered (p >>= f) calls result) :
    (∃ e, result = .error e ∧ Answered p calls (.error e)) ∨
      ∃ a before after, calls = before ++ after ∧ Answered p before (.ok a) ∧ Answered (f a) after result := by
  induction p generalizing calls with
  | done r =>
    cases r with
    | error e =>
      cases h
      exact .inl ⟨e, rfl, .done _⟩
    | ok a => exact .inr ⟨a, [], calls, rfl, .done _, h⟩
  | await q next ih =>
    cases h with
    | await r h =>
      rcases ih r h with ⟨e, he, hp⟩ | ⟨a, before, after, rfl, hp, hf⟩
      · exact .inl ⟨e, he, .await r hp⟩
      · exact .inr ⟨a, _, after, rfl, .await r hp, hf⟩
  | all qs next ih =>
    cases h with
    | all answers hanswers h =>
      rcases ih h with ⟨e, he, hp⟩ | ⟨a, before, after, rfl, hp, hf⟩
      · exact .inl ⟨e, he, .all answers hanswers hp⟩
      · exact .inr ⟨a, answers ++ before, after, (List.append_assoc ..).symm, .all answers hanswers hp, hf⟩

/-- A program with a handler: it returned, or the handler took over. -/
theorem answered_handle {p : Program Q R ε α} {f : ε → Program Q R ε α}
    {calls : List ((q : Q) × Except ε (R q))} {result : Except ε α} (h : Answered (p.handle f) calls result) :
    (∃ a, result = .ok a ∧ Answered p calls (.ok a)) ∨
      ∃ e before after, calls = before ++ after ∧ Answered p before (.error e) ∧ Answered (f e) after result := by
  induction p generalizing calls with
  | done r =>
    cases r with
    | error e => exact .inr ⟨e, [], calls, rfl, .done _, h⟩
    | ok a =>
      cases h
      exact .inl ⟨a, rfl, .done _⟩
  | await q next ih =>
    cases h with
    | await r h =>
      rcases ih r h with ⟨a, he, hp⟩ | ⟨e, before, after, rfl, hp, hf⟩
      · exact .inl ⟨a, he, .await r hp⟩
      · exact .inr ⟨e, _, after, rfl, .await r hp, hf⟩
  | all qs next ih =>
    cases h with
    | all answers hanswers h =>
      rcases ih h with ⟨a, he, hp⟩ | ⟨e, before, after, rfl, hp, hf⟩
      · exact .inl ⟨a, he, .all answers hanswers hp⟩
      · exact .inr ⟨e, answers ++ before, after, (List.append_assoc ..).symm, .all answers hanswers hp, hf⟩

/-- A clean-up that never throws leaves the result alone. -/
theorem answered_ensure {p : Program Q R ε α} {q : Program Q R ε Unit}
    {calls : List ((q : Q) × Except ε (R q))} {result : Except ε α}
    (hq : ∀ calls e, ¬Answered q calls (.error e)) (h : Answered (p.ensure q) calls result) :
    ∃ before after, calls = before ++ after ∧ Answered p before result ∧ Answered q after (.ok ()) := by
  rcases answered_bind h with ⟨e, rfl, hp⟩ | ⟨a, before, after, rfl, hp, hrest⟩
  · rcases answered_handle hp with ⟨a, ha, _⟩ | ⟨e', before, after, rfl, hp, hrest⟩
    · cases ha
    · rcases answered_bind hrest with ⟨_, _, hfail⟩ | ⟨u, cleanup, rest, rfl, hclean, hthrow⟩
      · exact absurd hfail (hq _ _)
      · cases hthrow
        exact ⟨before, cleanup, by rw [List.append_nil], hp, hclean⟩
  · rcases answered_handle hp with ⟨a', ha, hp⟩ | ⟨e', first, rest, rfl, _, hthrow⟩
    · cases ha
      rcases answered_bind hrest with ⟨_, _, hfail⟩ | ⟨u, cleanup, rest, rfl, hclean, hreturn⟩
      · exact absurd hfail (hq _ _)
      · cases hreturn
        exact ⟨before, cleanup, by rw [List.append_nil], hp, hclean⟩
    · rcases answered_bind hthrow with ⟨_, he, _⟩ | ⟨u, _, _, _, _, hthrow⟩
      · cases he
      · cases hthrow

/-- A call whose exception is caught. -/
theorem answered_orElse {q : Q} {a : R q} {calls : List ((q : Q) × Except ε (R q))} {result : Except ε (R q)}
    (h : Answered (orElse (call q) a) calls result) :
    ∃ r : Except ε (R q), calls = [⟨q, r⟩] ∧ result = .ok (r.toOption.getD a) := by
  cases h with
  | await r h =>
    refine ⟨r, ?_⟩
    cases r with
    | ok b =>
      cases h
      exact ⟨rfl, rfl⟩
    | error e =>
      cases h
      exact ⟨rfl, rfl⟩

theorem answered_callAll {qs : List Q} {calls : List ((q : Q) × Except ε (R q))} {result : Except ε Unit}
    (h : Answered (callAll qs) calls result) : (calls.map Sigma.fst).Perm qs ∧ result = .ok () := by
  cases h with
  | all answers hanswers h =>
    cases h
    rw [List.append_nil]
    exact ⟨hanswers, rfl⟩

theorem answered_pure {a : α} {calls : List ((q : Q) × Except ε (R q))} {result : Except ε α}
    (h : Answered (pure a) calls result) : calls = [] ∧ result = .ok a := by
  cases h
  exact ⟨rfl, rfl⟩

end Program
