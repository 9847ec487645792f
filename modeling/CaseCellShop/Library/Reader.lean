import CaseCellShop.Library.Program
import CaseCellShop.Library.Steps

/-! Programs that read a system.

A reader changes nothing: each of its calls is answered from the state the system is in at
that moment, or fails, and the system takes any steps in between. What the reader answers
then depends only on what stays true of the system (`Reads.ends`). -/
namespace Reader
open Program
variable {S A Q : Type} {R : Q → Type} {ε α β : Type}

/-- Begun in a state of the system, the program ends with a result in a later one. -/
inductive Reads (M : Steps.System S A) (read : S → (q : Q) → R q) (failure : ε → Prop) :
    S → Program Q R ε α → Except ε α → S → Prop
  | done (s : S) (result : Except ε α) : Reads M read failure s (.done result) result s
  | answered {s s' t : S} {q : Q} {next : Except ε (R q) → Program Q R ε α} {result : Except ε α}
      (hreaches : M.Reaches s s') (h : Reads M read failure s' (next (.ok (read s' q))) result t) :
      Reads M read failure s (.await q next) result t
  | failed {s s' t : S} {q : Q} {next : Except ε (R q) → Program Q R ε α} {result : Except ε α} {e : ε}
      (hreaches : M.Reaches s s') (hfailure : failure e) (h : Reads M read failure s' (next (.error e)) result t) :
      Reads M read failure s (.await q next) result t
  | together {s t : S} {qs : List Q} {next : Program Q R ε α} {result : Except ε α}
      (h : Reads M read failure s next result t) : Reads M read failure s (.all qs next) result t

/-- Whatever it reads in states where `J` holds, the program ends with a result of `post`. -/
def Ends (read : S → (q : Q) → R q) (failure : ε → Prop) (J : S → Prop) (post : Except ε α → Prop) :
    Program Q R ε α → Prop
  | .done result => post result
  | .await q next =>
    (∀ s, J s → Ends read failure J post (next (.ok (read s q)))) ∧
      ∀ e, failure e → Ends read failure J post (next (.error e))
  | .all _ next => Ends read failure J post next

variable {M : Steps.System S A} {read : S → (q : Q) → R q} {failure : ε → Prop} {J : S → Prop}

theorem ends_call {post : Except ε (R q) → Prop} (hread : ∀ s, J s → post (.ok (read s q)))
    (hfailure : ∀ e, failure e → post (.error e)) : Ends read failure J post (call q) :=
  ⟨hread, hfailure⟩

/-- A program whose results are read on; its failures are failures of the whole. -/
theorem ends_bind {post : Except ε β → Prop} {p : Program Q R ε α} {f : α → Program Q R ε β}
    (hp : Ends read failure J (fun r => Ends read failure J post (Program.done r >>= f)) p) :
    Ends read failure J post (p >>= f) := by
  induction p with
  | done result => exact hp
  | await q next ih => exact ⟨fun s hs => ih _ (hp.1 s hs), fun e he => ih _ (hp.2 e he)⟩
  | all qs next ih => exact ih hp

/-- A call of which the answer is read on. -/
theorem ends_call_bind {post : Except ε β → Prop} {q : Q} {f : R q → Program Q R ε β}
    (hread : ∀ s, J s → Ends read failure J post (f (read s q)))
    (hfailure : ∀ e, failure e → post (.error e)) : Ends read failure J post (call q >>= f) :=
  ends_bind (ends_call hread hfailure)

/-- What stays true of the system decides what a reader can answer. -/
theorem Reads.ends (hJ : ∀ s s', M.Reaches s s' → J s → J s') {post : Except ε α → Prop} {s t : S}
    {p : Program Q R ε α} {result : Except ε α} (h : Reads M read failure s p result t) (hs : J s)
    (hp : Ends read failure J post p) : post result ∧ J t := by
  induction h with
  | done s result => exact ⟨hp, hs⟩
  | answered hreaches _ ih => exact ih (hJ _ _ hreaches hs) (hp.1 _ (hJ _ _ hreaches hs))
  | failed hreaches hfailure _ ih => exact ih (hJ _ _ hreaches hs) (hp.2 _ hfailure)
  | together _ ih => exact ih hs hp

theorem Reads.reaches {s t : S} {p : Program Q R ε α} {result : Except ε α}
    (h : Reads M read failure s p result t) : M.Reaches s t := by
  induction h with
  | done s result => exact .refl M s
  | answered hreaches _ ih => exact hreaches.trans ih
  | failed hreaches _ _ ih => exact hreaches.trans ih
  | together _ ih => exact ih

theorem Reads.call {q : Q} {f : R q → Program Q R ε β} {s s' t : S} {result : Except ε β} (hreaches : M.Reaches s s')
    (h : Reads M read failure s' (f (read s' q)) result t) : Reads M read failure s (Program.call q >>= f) result t :=
  .answered hreaches h

/-- A reader whose first read is answered goes on from its answer. -/
theorem reads_call_bind {q : Q} {f : R q → Program Q R ε β} {s t : S} {result : Except ε β}
    (h : Reads M read failure s (call q >>= f) result t) :
    (∃ s', M.Reaches s s' ∧ Reads M read failure s' (f (read s' q)) result t) ∨
      ∃ e, failure e ∧ result = .error e := by
  cases h with
  | answered hreaches h => exact .inl ⟨_, hreaches, h⟩
  | failed hreaches hfailure h =>
    cases h with
    | done s result => exact .inr ⟨_, hfailure, rfl⟩

/-- The reader alone: nothing happens in between and no read fails. -/
theorem reads_alone (s : S) (p : Program Q R ε α) :
    Reads M read failure s p (p.run (fun s q => (s, .ok (read s q))) s).1 s := by
  induction p generalizing s with
  | done result => exact .done s result
  | await q next ih => exact .answered (.refl M s) (ih _ s)
  | all qs next ih =>
    have hsame : qs.foldl (fun s q => ((s, .ok (read s q)) : S × Except ε (R q)).1) s = s := by
      induction qs with
      | nil => rfl
      | cons q rest ih' => exact ih'
    rw [Program.run, hsame]
    exact .together (ih s)

end Reader
