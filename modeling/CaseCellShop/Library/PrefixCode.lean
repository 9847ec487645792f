import Mathlib.Data.List.Basic
import Mathlib.Logic.Function.Basic

/-! Prefix-free encodings.

An encoder is prefix-free when an encoded value can be read off the front of any
word that starts with it: the value and the rest of the word are determined. Such
encoders compose by concatenation, so the injectivity of a whole text format is
put together from that of its parts (`Injective` is the case where nothing
follows). -/
namespace PrefixCode
variable {α β σ : Type}

/-- The code of a value determines the value and where it ends. -/
def PrefixFree (f : α → List σ) : Prop :=
  ∀ a b s t, f a ++ s = f b ++ t → a = b ∧ s = t

theorem PrefixFree.injective {f : α → List σ} (hf : PrefixFree f) : Function.Injective f :=
  fun a b h => (hf a b [] [] (by rw [h])).1

/-- A decoder that reads the value back settles the matter. -/
theorem of_decoder {f : α → List σ} (decode : List σ → Option (α × List σ))
    (h : ∀ a s, decode (f a ++ s) = some (a, s)) : PrefixFree f := by
  intro a b s t he
  have hd : some (a, s) = some (b, t) := by rw [← h a s, ← h b t, he]
  exact ⟨congrArg Prod.fst (Option.some.inj hd), congrArg Prod.snd (Option.some.inj hd)⟩

theorem PrefixFree.comp {f : α → List σ} (hf : PrefixFree f) {g : β → α}
    (hg : Function.Injective g) : PrefixFree fun b => f (g b) := by
  intro a b s t h
  obtain ⟨hab, hst⟩ := hf _ _ _ _ h
  exact ⟨hg hab, hst⟩

/-- A fixed word in front. -/
theorem PrefixFree.after {f : α → List σ} (hf : PrefixFree f) (w : List σ) :
    PrefixFree fun a => w ++ f a := by
  intro a b s t h
  rw [List.append_assoc, List.append_assoc] at h
  exact hf a b s t (List.append_cancel_left h)

/-- A fixed word behind. -/
theorem PrefixFree.before {f : α → List σ} (hf : PrefixFree f) (w : List σ) :
    PrefixFree fun a => f a ++ w := by
  intro a b s t h
  rw [List.append_assoc, List.append_assoc] at h
  obtain ⟨hab, hst⟩ := hf a b _ _ h
  exact ⟨hab, List.append_cancel_left hst⟩

/-- One code after the other. -/
theorem PrefixFree.pair {f : α → List σ} {g : β → List σ} (hf : PrefixFree f) (hg : PrefixFree g) :
    PrefixFree fun p : α × β => f p.1 ++ g p.2 := by
  rintro ⟨a, b⟩ ⟨c, d⟩ s t h
  rw [List.append_assoc, List.append_assoc] at h
  obtain ⟨hac, h'⟩ := hf a c _ _ h
  obtain ⟨hbd, hst⟩ := hg b d _ _ h'
  exact ⟨Prod.ext hac hbd, hst⟩

/-- Words without `stop`, closed by `stop`. -/
theorem prefixFree_of_stop {f : α → List σ} (hf : Function.Injective f) {stop : σ}
    (hs : ∀ a, stop ∉ f a) : PrefixFree fun a => f a ++ [stop] := by
  have key : ∀ u v s t : List σ, stop ∉ u → stop ∉ v →
      u ++ stop :: s = v ++ stop :: t → u = v ∧ s = t := by
    intro u
    induction u with
    | nil =>
      intro v s t _ hv h
      cases v with
      | nil => exact ⟨rfl, (List.cons.inj h).2⟩
      | cons x v => exact absurd (List.mem_cons.mpr (.inl (List.cons.inj h).1)) hv
    | cons x u ih =>
      intro v s t hu hv h
      cases v with
      | nil => exact absurd (List.mem_cons.mpr (.inl (List.cons.inj h).1.symm)) hu
      | cons y v =>
        obtain ⟨hxy, h'⟩ := List.cons.inj h
        obtain ⟨huv, hst⟩ := ih v s t (fun hm => hu (List.mem_cons_of_mem _ hm))
          (fun hm => hv (List.mem_cons_of_mem _ hm)) h'
        exact ⟨by rw [hxy, huv], hst⟩
  intro a b s t h
  rw [List.append_assoc, List.append_assoc] at h
  obtain ⟨hab, hst⟩ := key _ _ s t (hs a) (hs b) h
  exact ⟨hf hab, hst⟩

/-- The codes of a list in a row, closed by a symbol no code starts with. -/
theorem prefixFree_flatMap {f : α → List σ} (hf : PrefixFree f) {stop : σ}
    (hs : ∀ a s t, f a ++ s ≠ stop :: t) : PrefixFree fun as : List α => as.flatMap f ++ [stop] := by
  intro as
  induction as with
  | nil =>
    intro bs s t h
    cases bs with
    | nil => exact ⟨rfl, List.append_cancel_left h⟩
    | cons b bs =>
      simp only [List.flatMap_nil, List.nil_append, List.flatMap_cons, List.append_assoc] at h
      exact absurd h.symm (hs b _ _)
  | cons a as ih =>
    intro bs s t h
    cases bs with
    | nil =>
      simp only [List.flatMap_nil, List.nil_append, List.flatMap_cons, List.append_assoc] at h
      exact absurd h (hs a _ _)
    | cons b bs =>
      simp only [List.flatMap_cons, List.append_assoc] at h
      obtain ⟨hab, h'⟩ := hf a b _ _ h
      obtain ⟨hrest, hst⟩ := ih bs s t (by simpa only [List.append_assoc] using h')
      exact ⟨by rw [hab, hrest], hst⟩

/-- Without a closing symbol the list is still determined, as no code is empty. -/
theorem flatMap_injective {f : α → List σ} (hf : PrefixFree f) (hne : ∀ a, f a ≠ []) :
    Function.Injective fun as : List α => as.flatMap f := by
  intro as
  induction as with
  | nil =>
    intro bs h
    cases bs with
    | nil => rfl
    | cons b bs =>
      simp only [List.flatMap_nil, List.flatMap_cons] at h
      exact absurd (List.append_eq_nil_iff.mp h.symm).1 (hne b)
  | cons a as ih =>
    intro bs h
    cases bs with
    | nil =>
      simp only [List.flatMap_nil, List.flatMap_cons] at h
      exact absurd (List.append_eq_nil_iff.mp h).1 (hne a)
    | cons b bs =>
      simp only [List.flatMap_cons] at h
      obtain ⟨hab, h'⟩ := hf a b _ _ h
      rw [hab, ih h']

/-- The codes of a list with `sep` between two of them and `close` at the end. -/
def separated (f : α → List σ) (sep close : σ) : List α → List σ
  | [] => [close]
  | [a] => f a ++ [close]
  | a :: b :: rest => f a ++ sep :: separated f sep close (b :: rest)

theorem separated_cons (f : α → List σ) (sep close : σ) (a : α) (as : List α) :
    ∃ w, separated f sep close (a :: as) = f a ++ w := by
  cases as with
  | nil => exact ⟨_, rfl⟩
  | cons b bs => exact ⟨_, rfl⟩

theorem prefixFree_separated {f : α → List σ} (hf : PrefixFree f) {sep close : σ}
    (hne : sep ≠ close) (hs : ∀ a s t, f a ++ s ≠ close :: t) :
    PrefixFree (separated f sep close) := by
  intro as
  induction as with
  | nil =>
    intro bs s t h
    cases bs with
    | nil => exact ⟨rfl, List.append_cancel_left h⟩
    | cons b bs =>
      obtain ⟨w, hw⟩ := separated_cons f sep close b bs
      rw [hw, List.append_assoc] at h
      exact absurd h.symm (hs b _ _)
  | cons a as ih =>
    intro bs s t h
    cases bs with
    | nil =>
      obtain ⟨w, hw⟩ := separated_cons f sep close a as
      rw [hw, List.append_assoc] at h
      exact absurd h (hs a _ _)
    | cons b bs =>
      cases as with
      | nil =>
        cases bs with
        | nil =>
          simp only [separated, List.append_assoc] at h
          obtain ⟨hab, h'⟩ := hf a b _ _ h
          exact ⟨by rw [hab], (List.cons.inj h').2⟩
        | cons c cs =>
          simp only [separated, List.append_assoc, List.cons_append, List.nil_append] at h
          exact absurd (List.cons.inj (hf a b _ _ h).2).1.symm hne
      | cons d ds =>
        cases bs with
        | nil =>
          simp only [separated, List.append_assoc, List.cons_append, List.nil_append] at h
          exact absurd (List.cons.inj (hf a b _ _ h).2).1 hne
        | cons c cs =>
          simp only [separated, List.append_assoc, List.cons_append] at h
          obtain ⟨hab, h'⟩ := hf a b _ _ h
          obtain ⟨hrest, hst⟩ := ih (c :: cs) s t (List.cons.inj h').2
          exact ⟨by rw [hab, hrest], hst⟩

/-! ### Separators

A separator between two words that may contain it themselves. -/

/-- The second pair of words is the first with the separator taken one occurrence
further on: `u` ends at it in the one reading, and runs over it up to the next in the
other. -/
def RunsOver (sep u s v t : List σ) : Prop := ∃ w, v = u ++ sep ++ w ∧ s = w ++ sep ++ t

/-- A separator that cannot overlap itself is read in the same place, or it occurs
inside one of the words. -/
theorem append_sep_cases {c : σ} {rest : List σ} (hrest : c ∉ rest) {u s v t : List σ}
    (h : u ++ (c :: rest) ++ s = v ++ (c :: rest) ++ t) :
    (u = v ∧ s = t) ∨ RunsOver (c :: rest) u s v t ∨ RunsOver (c :: rest) v t u s := by
  -- what stands between the two readings is nothing or begins with the separator
  have key : ∀ x s t : List σ, c :: rest ++ s = x ++ (c :: rest ++ t) →
      x = [] ∨ ∃ w, x = c :: rest ++ w ∧ s = w ++ (c :: rest) ++ t := by
    intro x s t h
    cases x with
    | nil => exact .inl rfl
    | cons d x =>
      right
      obtain ⟨rfl, hx⟩ := List.cons.inj h
      rcases List.append_eq_append_iff.mp hx with ⟨w, rfl, hs⟩ | ⟨w, hw, hs⟩
      · exact ⟨w, rfl, by simpa using hs⟩
      · cases w with
        | nil => exact ⟨[], by simpa using hw.symm, by simpa using hs.symm⟩
        | cons e w =>
          have he : c = e := (List.cons.inj hs).1
          exact absurd (hw ▸ List.mem_append_right x (he ▸ List.mem_cons_self)) hrest
  rw [List.append_assoc, List.append_assoc] at h
  rcases List.append_eq_append_iff.mp h with ⟨x, rfl, hx⟩ | ⟨x, rfl, hx⟩
  · rcases key x s t hx with rfl | ⟨w, rfl, hs⟩
    · exact .inl ⟨(List.append_nil _).symm, List.append_cancel_left hx⟩
    · exact .inr (.inl ⟨w, (List.append_assoc ..).symm, hs⟩)
  · rcases key x t s hx with rfl | ⟨w, rfl, ht⟩
    · exact .inl ⟨List.append_nil _, (List.append_cancel_left hx).symm⟩
    · exact .inr (.inr ⟨w, (List.append_assoc ..).symm, ht⟩)

theorem RunsOver.append_eq {sep u s v t : List σ} (h : RunsOver sep u s v t) :
    u ++ sep ++ s = v ++ sep ++ t := by
  obtain ⟨w, rfl, rfl⟩ := h
  simp

theorem RunsOver.ne {c : σ} {rest u s v t : List σ} (h : RunsOver (c :: rest) u s v t) : u ≠ v := by
  obtain ⟨w, rfl, _⟩ := h
  simp

/-- Behind the last separator stands a word without its first symbol. -/
theorem append_sep_inj {c : σ} {rest : List σ} (hrest : c ∉ rest) {u s v t : List σ} (hs : c ∉ s) (ht : c ∉ t)
    (h : u ++ (c :: rest) ++ s = v ++ (c :: rest) ++ t) : u = v ∧ s = t := by
  rcases append_sep_cases hrest h with h | ⟨w, _, rfl⟩ | ⟨w, _, rfl⟩
  · exact h
  · simp at hs
  · simp at ht

end PrefixCode
