import CaseCellShop.Library.Program
import Mathlib.Data.List.InsertIdx

/-! Programs that keep to a protocol.

A protocol says in which states a call may be made and where its answer leads. Whether
a program follows it is a matter of the program alone, so what a process holds while
others run is the state of its protocol. Tagged calls tell the world who makes them. -/

/-- Which calls may be made in a state, and the state after an answer. -/
structure Protocol (S Q ε : Type) (R : Q → Type) where
  allows : S → Q → Prop
  after : S → (q : Q) → Except ε (R q) → S

namespace Protocol
variable {S Q ε α β : Type} {R : Q → Type} (T : Protocol S Q ε R)

/-- A call that may be made and leaves the state as it is. -/
def Neutral (s : S) (q : Q) : Prop := T.allows s q ∧ ∀ r, T.after s q r = s

/-- Whatever the answers, the program makes no call its state does not allow, and `post`
holds of its result and of the state it ends in. -/
def Follows (post : Except ε α → S → Prop) : Program Q R ε α → S → Prop
  | .done result, s => post result s
  | .await q next, s => T.allows s q ∧ ∀ r, Follows post (next r) (T.after s q r)
  | .all qs next, s => (∀ q ∈ qs, T.Neutral s q) ∧ Follows post next s

variable {T} {s : S}

theorem follows_mono {post post' : Except ε α → S → Prop} {p : Program Q R ε α} (h : T.Follows post p s)
    (hpost : ∀ r s, post r s → post' r s) : T.Follows post' p s := by
  induction p generalizing s with
  | done result => exact hpost result s h
  | await q next ih => exact ⟨h.1, fun r => ih r (h.2 r)⟩
  | all qs next ih => exact ⟨h.1, ih h.2⟩

/-- What follows a result, or the exception that skips it. -/
def Continues (post : Except ε β → S → Prop) (f : α → Program Q R ε β) : Except ε α → S → Prop
  | .ok a, s => T.Follows post (f a) s
  | .error e, s => post (.error e) s

theorem follows_bind {post : Except ε β → S → Prop} {p : Program Q R ε α} {f : α → Program Q R ε β}
    (h : T.Follows (T.Continues post f) p s) : T.Follows post (p >>= f) s := by
  induction p generalizing s with
  | done result =>
    cases result with
    | error e => exact h
    | ok a => exact h
  | await q next ih => exact ⟨h.1, fun r => ih r (h.2 r)⟩
  | all qs next ih => exact ⟨h.1, ih h.2⟩

theorem follows_handle {post : Except ε α → S → Prop} {p : Program Q R ε α} {h : ε → Program Q R ε α}
    (hp : T.Follows (fun r s' => T.Follows post ((Program.done r).handle h) s') p s) :
    T.Follows post (p.handle h) s := by
  induction p generalizing s with
  | done result => exact hp
  | await q next ih => exact ⟨hp.1, fun r => ih r (hp.2 r)⟩
  | all qs next ih => exact ⟨hp.1, ih hp.2⟩

/-- Neutral calls end where they began. -/
theorem follows_neutral {p : Program Q R ε α} (h : p.OnlyCalls (T.Neutral s)) :
    T.Follows (fun _ s' => s' = s) p s := by
  induction p with
  | done result => rfl
  | await q next ih =>
    refine ⟨h.1.1, fun r => ?_⟩
    rw [h.1.2 r]
    exact ih r (h.2 r)
  | all qs next ih => exact ⟨h.1, ih h.2⟩

/-- A program that keeps the state is followed by `q` whether or not it throws. -/
theorem follows_ensure {post : Except ε α → S → Prop} {p : Program Q R ε α} {q : Program Q R ε Unit}
    (hp : p.OnlyCalls (T.Neutral s)) (hq : T.Follows (fun _ s' => ∀ r, post r s') q s) :
    T.Follows post (p.ensure q) s := by
  apply follows_bind
  apply follows_handle
  refine follows_mono (follows_neutral hp) fun result s' hs => ?_
  subst hs
  cases result with
  | ok a => exact follows_bind (follows_mono hq fun r s'' hs => by cases r <;> exact hs _)
  | error e =>
    change T.Follows _ (q >>= fun _ => Program.throw e) s'
    exact follows_bind (follows_mono hq fun r s'' hs => by cases r <;> exact hs _)

/-- A resumed program follows the protocol from the state its answer leads to. -/
theorem follows_resume {W A : Type} {post : Except ε α → S → Prop} {p p' : Program Q R ε α}
    (h : T.Follows post p s) {perform : W → (q : Q) → A → W × Except ε (R q)} {w w' : W} {i : Nat} {a : A}
    (hresume : p.resume perform w i a = some (w', p')) :
    p.awaited i = none ∧ w' = w ∧ T.Follows post p' s ∨ ∃ q, p.awaited i = some q ∧ T.allows s q ∧
      w' = (perform w q a).1 ∧ T.Follows post p' (T.after s q (perform w q a).2) := by
  cases p with
  | done result => cases hresume
  | await q next =>
    obtain ⟨hw, hp⟩ := Program.resume_await hresume
    rw [hp]
    exact .inr ⟨q, rfl, h.1, hw, h.2 _⟩
  | all qs next =>
    rcases Program.resume_all hresume with ⟨rfl, hw, rfl⟩ | ⟨q, hq, hw, rfl⟩
    · exact .inl ⟨rfl, hw, h.2⟩
    · have hneutral := h.1 q (List.mem_of_getElem? hq)
      refine .inr ⟨q, hq, hneutral.1, hw, ?_⟩
      rw [hneutral.2]
      exact ⟨fun q' hq' => h.1 q' (List.mem_of_mem_eraseIdx hq'), h.2⟩

end Protocol

/-! ### Tagged calls -/

namespace Program
variable {Q I W A : Type} {R : Q → Type} {ε α : Type}

/-- The program whose every call carries `t`. -/
def tag (t : I) : Program Q R ε α → Program (I × Q) (fun call => R call.2) ε α
  | done result => done result
  | await q next => await (t, q) fun r => tag t (next r)
  | all qs next => all (qs.map (Prod.mk t)) (tag t next)

@[simp] theorem awaited_tag (t : I) (p : Program Q R ε α) (i : Nat) :
    (p.tag t).awaited i = (p.awaited i).map (Prod.mk t) := by
  cases p with
  | done result => rfl
  | await q next => rfl
  | all qs next => simp [tag, awaited]

/-- A tagged program is resumed as the program itself is, in a world that knows the tag. -/
theorem resume_tag (perform : W → (call : I × Q) → A → W × Except ε (R call.2)) (t : I) (p : Program Q R ε α)
    (w : W) (i : Nat) (a : A) :
    (p.tag t).resume perform w i a =
      (p.resume (fun w q a => perform w (t, q) a) w i a).map fun (w', p') => (w', p'.tag t) := by
  cases p with
  | done result => rfl
  | await q next => rfl
  | all qs next =>
    cases qs with
    | nil => rfl
    | cons q rest =>
      have herase := List.eraseIdx_map (Prod.mk t) (q :: rest) i
      rw [List.map_cons] at herase
      simp only [tag, List.map_cons, resume, herase]
      rw [← List.map_cons, List.getElem?_map]
      cases (q :: rest)[i]? <;> rfl

end Program
