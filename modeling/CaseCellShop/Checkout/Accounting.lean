import CaseCellShop.Checkout.Acceptance
import CaseCellShop.Checkout.Parts

/-! What a checkout call counts.

The counters, the outcome and the order id of the current context are written by the
callback, before the commit, and a rollback leaves them as they are. So a call has counted
what it committed unless an attempt fails at its commit. Without a `TraceService` the order
id is written to the request's own context, and is left there by a call that throws after
one of its attempts had created an order (`tallied_iff`). -/
namespace CaseCellShop.Checkout
open Script

/-! ### The retries -/

/-- The responses counted. -/
def marks (t : Telemetry) : Nat := t.checkoutAccepted + t.idempotencyDuplicate

@[simp]
theorem marks_requestAccounts (traced : Bool) (t : Telemetry) : marks (requestAccounts traced t) = marks t := by
  cases traced <;> rfl

theorem marks_congr {traced : Bool} {t t' : Telemetry} (h : requestAccounts traced t = requestAccounts traced t') :
    marks t = marks t' := by
  rw [← marks_requestAccounts traced t, h, marks_requestAccounts]

/-- A note that reads only the accounts of the request leaves equal accounts equal. -/
theorem requestAccounts_congr {traced : Bool} {note : Telemetry → Telemetry}
    (hnote : ∀ t, requestAccounts traced (note t) = requestAccounts traced (note (requestAccounts traced t)))
    {t t' : Telemetry} (h : requestAccounts traced t = requestAccounts traced t') :
    requestAccounts traced (note t) = requestAccounts traced (note t') := by
  rw [hnote t, h, ← hnote t']

theorem orderId_congr {traced : Bool} {t t' : Telemetry} (huntraced : traced = false)
    (h : requestAccounts traced t = requestAccounts traced t') : t.orderId = t'.orderId := by
  subst huntraced
  show (requestAccounts false t).orderId = (requestAccounts false t').orderId
  rw [h]

/-- From the attempt on, with `left` retries, the first callback that meets no fault is committed. -/
def Commits (attempts : Nat → Attempt) (callback left attempt : Nat) : Prop :=
  ∃ n ≤ left, (∀ m < n, Struck callback (attempts (attempt + m))) ∧ ¬Struck (callback + 1) (attempts (attempt + n))

/-- Every attempt meets a fault in its first `k` statements. -/
def AllStruck (attempts : Nat → Attempt) (k left attempt : Nat) : Prop :=
  ∀ n ≤ left, Struck k (attempts (attempt + n))

section Retries
variable {attempts : Nat → Attempt} {k callback left attempt : Nat}

theorem commits_zero : Commits attempts callback 0 attempt ↔ ¬Struck (callback + 1) (attempts attempt) := by
  simp [Commits]

theorem commits_succ : Commits attempts callback (left + 1) attempt ↔
    ¬Struck (callback + 1) (attempts attempt) ∨
      Struck callback (attempts attempt) ∧ Commits attempts callback left (attempt + 1) := by
  unfold Commits
  rw [@first_success_succ (fun m => Struck callback (attempts (attempt + m)))
    (fun n => ¬Struck (callback + 1) (attempts (attempt + n)))]
  simp only [Nat.add_zero, Nat.add_assoc, Nat.add_comm 1]

theorem allStruck_zero : AllStruck attempts k 0 attempt ↔ Struck k (attempts attempt) := by
  simp [AllStruck]

theorem allStruck_succ : AllStruck attempts k (left + 1) attempt ↔
    Struck k (attempts attempt) ∧ AllStruck attempts k left (attempt + 1) := by
  constructor
  · intro h
    refine ⟨h 0 (Nat.zero_le _), fun n hn => ?_⟩
    rw [Nat.add_assoc, Nat.add_comm 1]
    exact h (n + 1) (Nat.succ_le_succ hn)
  · rintro ⟨hfirst, hrest⟩ n hn
    cases n with
    | zero => exact hfirst
    | succ n =>
      rw [Nat.add_comm n, ← Nat.add_assoc]
      exact hrest n (Nat.le_of_succ_le_succ hn)

end Retries

/-- The transaction and its retries threw and changed nothing, and the request has these accounts. -/
structure ThrewWith (traced : Bool) (db : Database) (r : Except CheckoutError CheckoutResult × Database × Telemetry)
    (t : Telemetry) : Prop where
  error : ∃ e, r.1 = .error e
  unchanged : r.2.1 = db
  accounts_eq : requestAccounts traced r.2.2 = requestAccounts traced t

structure ReturnedWith (traced : Bool) (r : Except CheckoutError CheckoutResult × Database × Telemetry)
    (result : CheckoutResult) (t : Telemetry) : Prop where
  ok : r.1 = .ok result
  accounts_eq : requestAccounts traced r.2.2 = requestAccounts traced t

section Loop
variable {traced : Bool} {call : CheckoutCall} {attempts : Nat → Attempt} {db : Database} {left attempt : Nat}
  {t t' : Telemetry}

theorem retryFrom_returns {result : CheckoutResult} (h : Returns traced (tried call attempts db attempt t) result t') :
    ReturnedWith traced (retryFrom call attempts db left attempt t) result t' := by
  obtain ⟨hok, haccounts⟩ := h
  unfold tried at hok haccounts
  unfold retryFrom
  generalize transact call (attempts attempt) (.start db t (attempts attempt).faults) = run at hok haccounts ⊢
  obtain ⟨r, tx⟩ := run
  obtain rfl : r = .ok result := hok
  exact ⟨rfl, haccounts⟩

theorem retryFrom_last {e : CheckoutError} (h : Throws traced (tried call attempts db attempt t) e t') :
    ThrewWith traced db (retryFrom call attempts db 0 attempt t) t' := by
  obtain ⟨herror, haccounts⟩ := h
  unfold tried at herror haccounts
  unfold retryFrom
  generalize transact call (attempts attempt) (.start db t (attempts attempt).faults) = run at herror haccounts ⊢
  obtain ⟨r, tx⟩ := run
  obtain rfl : r = .error e := herror
  exact ⟨⟨e, rfl⟩, rfl, haccounts⟩

/-- A failing attempt is retried, or the call throws. -/
theorem retryFrom_throws {e : CheckoutError} (h : Throws traced (tried call attempts db attempt t) e t') :
    (∃ t'', requestAccounts traced t'' = requestAccounts traced t' ∧
      retryFrom call attempts db (left + 1) attempt t = retryFrom call attempts db left (attempt + 1) t'') ∨
    isRetryableTransactionError e = false ∧ ThrewWith traced db (retryFrom call attempts db (left + 1) attempt t) t' := by
  obtain ⟨herror, haccounts⟩ := h
  unfold tried at herror haccounts
  rw [retryFrom]
  generalize transact call (attempts attempt) (.start db t (attempts attempt).faults) = run at herror haccounts ⊢
  obtain ⟨r, tx⟩ := run
  obtain rfl : r = .error e := herror
  cases hretry : isRetryableTransactionError e with
  | true => exact .inl ⟨tx.telemetry, haccounts, by simp [hretry]⟩
  | false => exact .inr ⟨rfl, by simp [hretry], by simp [hretry], by simpa [hretry] using haccounts⟩

theorem retryFrom_again (left : Nat) (h : Throws traced (tried call attempts db attempt t) (.database .p2034) t') :
    ∃ t'', requestAccounts traced t'' = requestAccounts traced t' ∧
      retryFrom call attempts db (left + 1) attempt t = retryFrom call attempts db left (attempt + 1) t'' := by
  rcases retryFrom_throws h with hagain | ⟨hnot, _⟩
  · exact hagain
  · cases hnot

/-- Attempts that fail before they note anything. -/
theorem retryFrom_quiet (h : ∀ n t, ∃ e, Throws traced (tried call attempts db n t) e t) :
    ThrewWith traced db (retryFrom call attempts db left attempt t) t := by
  induction left generalizing attempt t with
  | zero =>
    obtain ⟨e, hthrows⟩ := h attempt t
    exact retryFrom_last hthrows
  | succ left ih =>
    obtain ⟨e, hthrows⟩ := h attempt t
    rcases retryFrom_throws hthrows with ⟨t₁, haccounts, hrun⟩ | ⟨_, hend⟩
    · rw [hrun]
      obtain ⟨herror, hdb, hsame⟩ := @ih (attempt + 1) t₁
      exact ⟨herror, hdb, hsame.trans haccounts⟩
    · exact hend

theorem retryFrom_unnoted {early : Nat} (hearly : ∀ n t, Struck early (attempts n) →
      Throws traced (tried call attempts db n t) (.database .p2034) t)
    (hall : AllStruck attempts early left attempt) : ThrewWith traced db (retryFrom call attempts db left attempt t) t := by
  induction left generalizing attempt t with
  | zero => exact retryFrom_last (hearly attempt t (allStruck_zero.mp hall))
  | succ left ih =>
    obtain ⟨hfirst, hrest⟩ := allStruck_succ.mp hall
    obtain ⟨t₁, haccounts, hrun⟩ := retryFrom_again left (hearly attempt t hfirst)
    obtain ⟨herror, hdb, hsame⟩ := @ih (attempt + 1) t₁ hrest
    rw [hrun]
    exact ⟨herror, hdb, hsame.trans haccounts⟩

/-- Where an order that was created is never kept, its id stays behind. -/
theorem retryFrom_dangles {early : Nat} (hearly : ∀ n t, Struck early (attempts n) →
      Throws false (tried call attempts db n t) (.database .p2034) t)
    (hlate : ∀ n t, ¬Struck early (attempts n) →
      ∃ e, Throws false (tried call attempts db n t) e (noted (attempts n).orderId t))
    (h : (∃ n, t.orderId = some (attempts n).orderId) ∨ ¬AllStruck attempts early left attempt) :
    ∃ t', ThrewWith false db (retryFrom call attempts db left attempt t) t' ∧
      ∃ n, t'.orderId = some (attempts n).orderId := by
  induction left generalizing attempt t with
  | zero =>
    rw [allStruck_zero] at h
    by_cases hstruck : Struck early (attempts attempt)
    · exact ⟨t, retryFrom_last (hearly attempt t hstruck), h.resolve_right fun hnot => hnot hstruck⟩
    · obtain ⟨e, hthrows⟩ := hlate attempt t hstruck
      exact ⟨_, retryFrom_last hthrows, attempt, rfl⟩
  | succ left ih =>
    rw [allStruck_succ] at h
    by_cases hstruck : Struck early (attempts attempt)
    · obtain ⟨t₁, haccounts, hrun⟩ := retryFrom_again left (hearly attempt t hstruck)
      rw [hrun]
      refine ih (h.imp (fun ⟨n, hn⟩ => ⟨n, ?_⟩) fun hnot hrest => hnot ⟨hstruck, hrest⟩)
      rw [orderId_congr rfl haccounts, hn]
    · obtain ⟨e, hthrows⟩ := hlate attempt t hstruck
      rcases retryFrom_throws hthrows with ⟨t₁, haccounts, hrun⟩ | ⟨_, hend⟩
      · rw [hrun]
        exact ih (.inl ⟨attempt, orderId_congr rfl haccounts⟩)
      · exact ⟨_, hend, attempt, rfl⟩

/-- How the attempts go of a call that finds a response or creates one. A fault in the first `early` statements
leaves nothing in the request, one in the rest of the callback an order id; then the response is counted. -/
structure Course (traced : Bool) (call : CheckoutCall) (attempts : Nat → Attempt) (db : Database) (early callback : Nat)
    (counted : Nat → Telemetry → Telemetry) (result : Nat → CheckoutResult) : Prop where
  le : early ≤ callback
  untraced : early < callback → traced = false
  unnoted : ∀ n t, Struck early (attempts n) → Throws traced (tried call attempts db n t) (.database .p2034) t
  dangling : ∀ n t, ¬Struck early (attempts n) → Struck callback (attempts n) →
    Throws traced (tried call attempts db n t) (.database .p2034) (noted (attempts n).orderId t)
  uncommitted : ∀ n t, ¬Struck callback (attempts n) → Struck (callback + 1) (attempts n) →
    Throws traced (tried call attempts db n t) (.database .p2034) (counted n t)
  committed : ∀ n t, ¬Struck (callback + 1) (attempts n) →
    Returns traced (tried call attempts db n t) (result n) (counted n t)
  congr : ∀ n t t', requestAccounts traced t = requestAccounts traced t' →
    requestAccounts traced (counted n t) = requestAccounts traced (counted n t')
  renoted : early < callback → ∀ n id t, requestAccounts traced (counted n (noted id t)) = requestAccounts traced (counted n t)
  marks_counted : ∀ n t, marks (counted n t) = marks t + 1

/-- What the call has counted or noted is not what it did. -/
inductive Spoiled (traced : Bool) (attempts : Nat → Attempt)
    (r : Except CheckoutError CheckoutResult × Database × Telemetry) (t : Telemetry) : Prop
  | uncommitted (error : ∃ e, r.1 = .error e) (marked : marks t < marks r.2.2)
  | dangling (untraced : traced = false) (error : ∃ e, r.1 = .error e)
      (noted : ∃ n, r.2.2.orderId = some (attempts n).orderId)
  | recounted (marked : marks t + 2 ≤ marks r.2.2)

theorem Spoiled.of_marks_le {r : Except CheckoutError CheckoutResult × Database × Telemetry}
    (h : Spoiled traced attempts r t') (hle : marks t ≤ marks t') : Spoiled traced attempts r t := by
  cases h with
  | uncommitted herror hmarked => exact .uncommitted herror (by omega)
  | dangling huntraced herror hnoted => exact .dangling huntraced herror hnoted
  | recounted hmarked => exact .recounted (by omega)

section Course
variable {early callback : Nat} {counted : Nat → Telemetry → Telemetry} {result : Nat → CheckoutResult}
  (h : Course traced call attempts db early callback counted result)
include h

theorem Course.commits (hcommits : Commits attempts callback left attempt) :
    ∃ n, ReturnedWith traced (retryFrom call attempts db left attempt t) (result n) (counted n t) := by
  induction left generalizing attempt t with
  | zero => exact ⟨attempt, retryFrom_returns (h.committed attempt t (commits_zero.mp hcommits))⟩
  | succ left ih =>
    rcases commits_succ.mp hcommits with hclear | ⟨hstruck, hrest⟩
    · exact ⟨attempt, retryFrom_returns (h.committed attempt t hclear)⟩
    · by_cases hearly : Struck early (attempts attempt)
      · obtain ⟨t₁, haccounts, hrun⟩ := retryFrom_again left (h.unnoted attempt t hearly)
        obtain ⟨n, hok, hsame⟩ := @ih (attempt + 1) t₁ hrest
        rw [hrun]
        exact ⟨n, hok, hsame.trans (h.congr n _ _ haccounts)⟩
      · have hlt : early < callback := lt_of_le_of_ne h.le fun he => hearly (he ▸ hstruck)
        obtain ⟨t₁, haccounts, hrun⟩ := retryFrom_again left (h.dangling attempt t hearly hstruck)
        obtain ⟨n, hok, hsame⟩ := @ih (attempt + 1) t₁ hrest
        rw [hrun]
        exact ⟨n, hok, hsame.trans ((h.congr n _ _ haccounts).trans (h.renoted hlt n _ t))⟩

/-- A fault that neither leaves the request as it was nor is met at the commit is met by an untraced service. -/
theorem Course.untraced_of_struck (hclear : ¬Struck early (attempts attempt))
    (hstruck : Struck callback (attempts attempt)) :
    traced = false :=
  h.untraced (lt_of_le_of_ne h.le fun he => hclear (he ▸ hstruck))

theorem Course.spoiled (hnot : ¬Commits attempts callback left attempt)
    (hsome : ¬AllStruck attempts early left attempt) :
    Spoiled traced attempts (retryFrom call attempts db left attempt t) t := by
  induction left generalizing attempt t with
  | zero =>
    rw [commits_zero, not_not] at hnot
    rw [allStruck_zero] at hsome
    by_cases hcallback : Struck callback (attempts attempt)
    · have huntraced := h.untraced_of_struck hsome hcallback
      obtain ⟨herror, _, haccounts⟩ := retryFrom_last (h.dangling attempt t hsome hcallback)
      exact .dangling huntraced herror ⟨attempt, orderId_congr huntraced haccounts⟩
    · obtain ⟨herror, _, haccounts⟩ := retryFrom_last (h.uncommitted attempt t hcallback hnot)
      exact .uncommitted herror (by rw [marks_congr haccounts, h.marks_counted]; exact Nat.lt_succ_self _)
  | succ left ih =>
    rw [commits_succ, not_or, not_not, not_and] at hnot
    rw [allStruck_succ, not_and] at hsome
    obtain ⟨hstruck, hrest⟩ := hnot
    by_cases hearly : Struck early (attempts attempt)
    · obtain ⟨t₁, haccounts, hrun⟩ := retryFrom_again left (h.unnoted attempt t hearly)
      rw [hrun]
      exact (ih (hrest (hearly.mono h.le)) (hsome hearly)).of_marks_le (marks_congr haccounts).ge
    · by_cases hcallback : Struck callback (attempts attempt)
      · -- the id that is noted here is overwritten only by that of another attempt
        have huntraced := h.untraced_of_struck hearly hcallback
        obtain ⟨t₁, haccounts, hrun⟩ := retryFrom_again left (h.dangling attempt t hearly hcallback)
        rw [hrun]
        by_cases hall : AllStruck attempts early left (attempt + 1)
        · obtain ⟨herror, _, hsame⟩ := retryFrom_unnoted (t := t₁) h.unnoted hall
          exact .dangling huntraced herror ⟨attempt, orderId_congr huntraced (hsame.trans haccounts)⟩
        · exact (ih (hrest hcallback) hall).of_marks_le (marks_congr haccounts).ge
      · obtain ⟨t₁, haccounts, hrun⟩ := retryFrom_again left (h.uncommitted attempt t hcallback hstruck)
        have hmarks : marks t₁ = marks t + 1 := by rw [marks_congr haccounts, h.marks_counted]
        rw [hrun]
        by_cases hcommits : Commits attempts callback left (attempt + 1)
        · obtain ⟨n, _, hsame⟩ := h.commits (t := t₁) hcommits
          exact .recounted (by rw [marks_congr hsame, h.marks_counted, hmarks])
        · by_cases hall : AllStruck attempts early left (attempt + 1)
          · obtain ⟨herror, _, hsame⟩ := retryFrom_unnoted (t := t₁) h.unnoted hall
            exact .uncommitted herror (by rw [marks_congr hsame, hmarks]; exact Nat.lt_succ_self _)
          · exact (ih hcommits hall).of_marks_le (by omega)

end Course

end Loop

/-! ### The tally -/

/-- The count is one if something happened and zero otherwise. -/
def CountedIf (count : Nat) (p : Prop) : Prop := p ∧ count = 1 ∨ ¬p ∧ count = 0

/-- A call's telemetry says what the call returned and committed. -/
structure Tallied (db : Database) (r : Except CheckoutError CheckoutResult) (db' : Database) (t : Telemetry) : Prop where
  accepted : CountedIf t.checkoutAccepted (∃ o ∈ db'.orders.rows, o ∉ db.orders.rows)
  duplicate : CountedIf t.idempotencyDuplicate (∃ body, r = .ok ⟨200, body⟩)
  duration : ∃ outcome, t.checkoutDuration = [outcome] ∧ (outcome = .accepted ↔ ∃ body, r = .ok ⟨202, body⟩) ∧
    (outcome = .idempotent ↔ ∃ body, r = .ok ⟨200, body⟩) ∧ (outcome = .error ↔ ∃ e, r = .error e)
  context : ∀ id, t.orderId = some id → ∃ o ∈ db'.orders.rows, o.id = id

/-- A stored response that belongs to an order belongs to one of the store's. -/
def KeysRefer (db : Database) : Prop :=
  ∀ row ∈ db.idempotencyKeys.rows, ∀ id, row.orderId = some id → ∃ o ∈ db.orders.rows, o.id = id

section Tally
variable {traced : Bool} {call : CheckoutCall} {attempts : Nat → Attempt} {db : Database}
  {r : Except CheckoutError CheckoutResult × Database × Telemetry}

/-- A tally looks at the accounts only. -/
theorem tallied_accounts {result : Except CheckoutError CheckoutResult} {db' : Database} {t : Telemetry} :
    Tallied db result db' (accounts t) ↔ Tallied db result db' t :=
  ⟨fun h => ⟨h.accepted, h.duplicate, h.duration, h.context⟩,
    fun h => ⟨h.accepted, h.duplicate, h.duration, h.context⟩⟩

theorem Tallied.of_accounts {result : Except CheckoutError CheckoutResult} {db' : Database} {t t' : Telemetry}
    (h : Tallied db result db' (observed (leaveSpan traced t')))
    (haccounts : requestAccounts traced t = requestAccounts traced t') :
    Tallied db result db' (observed (leaveSpan traced t)) := by
  have hobserved (t : Telemetry) : accounts (observed (leaveSpan traced t)) = observed (requestAccounts traced t) := by
    cases traced <;> rfl
  rw [← tallied_accounts, hobserved, haccounts, ← hobserved, tallied_accounts]
  exact h

/-- A tally that looks at an order id too many holds without it. -/
theorem Tallied.of_untraced {result : Except CheckoutError CheckoutResult} {db' : Database} {t : Telemetry}
    (h : Tallied db result db' (observed t)) : Tallied db result db' (observed (leaveSpan traced t)) := by
  cases traced with
  | false => exact h
  | true => exact ⟨h.accepted, h.duplicate, h.duration, nofun⟩

theorem ThrewWith.tallied (h : ThrewWith traced db r {checkoutStarted := 1}) :
    Tallied db r.1 r.2.1 (observed (leaveSpan traced r.2.2)) := by
  obtain ⟨⟨e, herror⟩, hdb, haccounts⟩ := h
  refine Tallied.of_accounts ?_ haccounts
  rw [herror, hdb]
  refine Tallied.of_untraced ⟨.inr ⟨fun ⟨o, hmem, hnot⟩ => hnot hmem, rfl⟩, .inr ⟨nofun, rfl⟩,
    ⟨.error, rfl, ?_⟩, nofun⟩
  simp

/-- A tally counts at most one response, and none for a call that threw. -/
theorem Tallied.marks_le {t : Telemetry} {result : Except CheckoutError CheckoutResult} {db' : Database}
    (h : Tallied db result db' t) (hran : Ran call attempts db result db') :
    marks t ≤ 1 ∧ ((∃ e, result = .error e) → marks t = 0) := by
  have haccepted : t.checkoutAccepted ≤ 1 ∧ (db' = db → t.checkoutAccepted = 0) := by
    rcases h.accepted with ⟨⟨o, hmem, hnot⟩, hone⟩ | ⟨_, hzero⟩
    · exact ⟨hone.le, fun hdb => absurd (hdb ▸ hmem) hnot⟩
    · exact ⟨by omega, fun _ => hzero⟩
  have hduplicate : t.idempotencyDuplicate ≤ 1 ∧
      ((∀ body, result ≠ .ok ⟨200, body⟩) → t.idempotencyDuplicate = 0) := by
    rcases h.duplicate with ⟨⟨body, hbody⟩, hone⟩ | ⟨_, hzero⟩
    · exact ⟨hone.le, fun hnot => absurd hbody (hnot body)⟩
    · exact ⟨by omega, fun _ => hzero⟩
  unfold marks
  cases hran with
  | replayed hreplayed =>
    have hnone := haccepted.2 hreplayed.unchanged
    exact ⟨by omega, nofun⟩
  | accepted n items hacc =>
    have hnone := hduplicate.2 fun body hbody => by
      rw [hacc.response] at hbody
      cases hbody
    exact ⟨by omega, nofun⟩
  | failed e hdb =>
    have hnone := haccepted.2 hdb
    have hnone' := hduplicate.2 nofun
    exact ⟨by omega, fun _ => by omega⟩

theorem Spoiled.not_tallied (h : Spoiled traced attempts r {checkoutStarted := 1})
    (hids : ∀ n, FreshIds (attempts n) db) (hran : Ran call attempts db r.1 r.2.1) :
    ¬Tallied db r.1 r.2.1 (observed (leaveSpan traced r.2.2)) := by
  intro htallied
  obtain ⟨hle, hzero⟩ := htallied.marks_le hran
  have hmarks : marks (observed (leaveSpan traced r.2.2)) = marks r.2.2 := by cases traced <;> rfl
  have hstart : marks {checkoutStarted := 1} = 0 := rfl
  cases h with
  | uncommitted herror hmarked =>
    have hnone := hzero herror
    omega
  | dangling huntraced herror hnoted =>
    subst huntraced
    obtain ⟨e, he⟩ := herror
    obtain ⟨n, hn⟩ := hnoted
    obtain ⟨o, ho, hid⟩ := htallied.context _ hn
    rw [he] at hran
    cases hran with
    | failed _ hdb =>
      rw [hdb] at ho
      exact Table.find?_eq_none.mp (hids n).order o ho hid
  | recounted hmarked => omega

theorem ReturnedWith.tallied_replay {orderId : Option String} {response : CheckoutAcceptedResponse}
    (h : ReturnedWith traced r ⟨200, response⟩ (countedDuplicate orderId {checkoutStarted := 1}))
    (hran : Ran call attempts db r.1 r.2.1) (hrefer : ∀ id, orderId = some id → ∃ o ∈ db.orders.rows, o.id = id) :
    Tallied db r.1 r.2.1 (observed (leaveSpan traced r.2.2)) := by
  obtain ⟨hok, haccounts⟩ := h
  refine Tallied.of_accounts ?_ haccounts
  rw [hok] at hran ⊢
  generalize r.2.1 = db' at hran ⊢
  cases hran with
  | accepted n items hacc => cases hacc.response
  | replayed hreplayed =>
    rw [hreplayed.unchanged]
    refine Tallied.of_untraced ⟨.inr ⟨fun ⟨o, hmem, hnot⟩ => hnot hmem, rfl⟩, .inl ⟨⟨response, rfl⟩, rfl⟩,
      ⟨.idempotent, rfl, ?_⟩, fun id hid => ?_⟩
    · simp
    · exact hrefer id (Option.or_none.symm.trans hid)

theorem ReturnedWith.tallied_accept {n : Nat} {order : Order} (hid : order.id = (attempts n).orderId)
    (h : ReturnedWith traced r ⟨202, responseBody order⟩
      (countedAccepted (noted (attempts n).orderId {checkoutStarted := 1})))
    (hran : Ran call attempts db r.1 r.2.1) : Tallied db r.1 r.2.1 (observed (leaveSpan traced r.2.2)) := by
  obtain ⟨hok, haccounts⟩ := h
  refine Tallied.of_accounts ?_ haccounts
  rw [hok] at hran ⊢
  generalize r.2.1 = db' at hran ⊢
  cases hran with
  | replayed hreplayed =>
    obtain ⟨_, _, _, he⟩ := hreplayed.found
    cases he
  | accepted m items hacc =>
    -- the order that was committed is the one the response names
    have hsame : order.id = (attempts m).orderId := congrArg (fun result => result.body.orderId) hacc.response
    obtain ⟨hfresh, hrows⟩ := Table.insert?_eq_some hacc.order
    have hmem : newOrder call (attempts m).orderId items ∈ db'.orders.rows := by
      rw [hrows]
      exact List.mem_append_right _ (.head [])
    have hnew : newOrder call (attempts m).orderId items ∉ db.orders.rows :=
      fun hmem => Table.find?_eq_none.mp hfresh _ hmem rfl
    refine Tallied.of_untraced ⟨.inl ⟨⟨_, hmem, hnew⟩, rfl⟩, .inr ⟨nofun, rfl⟩, ⟨.accepted, rfl, ?_⟩,
      fun id hid' => ⟨_, hmem, ?_⟩⟩
    · simp
    · exact hsame.symm.trans (hid.trans (Option.some.inj hid'))

end Tally

/-! ### The courses of a call -/

/-- The statements of an attempt at a new order in which a fault leaves the request as it was: all those of
the callback under a span, and else those up to the order's row. -/
def unnotedStatements (traced : Bool) (call : CheckoutCall) : Nat :=
  if traced then orderStatements call + 2 else orderStatements call

section Courses
variable {traced : Bool} {call : CheckoutCall} {attempts : Nat → Attempt} {db : Database}
  (hconflicts : ∀ n, Conflicts (attempts n))
include hconflicts

theorem course_replay {orderId : Option String} {response : CheckoutAcceptedResponse}
    (h : checkExisting call.requestHash (db.idempotencyKeys.find? (call.customerId, call.idempotencyKey)) =
      .replay orderId response) :
    Course traced call attempts db (lookUpStatements call) (lookUpStatements call) (fun _ => countedDuplicate orderId)
      fun _ => ⟨200, response⟩ where
  le := le_rfl
  untraced hlt := absurd hlt (Nat.lt_irrefl _)
  unnoted n t hstruck := lookUp_throws h (hconflicts n) hstruck t
  dangling _ _ hnot hstruck := absurd hstruck hnot
  uncommitted n t hclear hstruck := (replay_ends (hconflicts n) hclear h t).1 hstruck
  committed n t hclear := (replay_ends (hconflicts n) (fun hstruck => hclear (hstruck.mono (Nat.le_succ _))) h t).2 hclear
  congr _ _ _ ht := requestAccounts_congr (fun _ => by cases traced <;> rfl) ht
  renoted hlt := absurd hlt (Nat.lt_irrefl _)
  marks_counted _ _ := rfl

variable (hids : ∀ n, FreshIds (attempts n) db)
include hids

theorem course_create {items : List PricedItem} {inventory : Table Inventory.productId}
    (h : Creates call db items inventory)
    (hkey : db.idempotencyKeys.find? (call.customerId, call.idempotencyKey) = none) :
    Course traced call attempts db (unnotedStatements traced call) (orderStatements call + 2)
      (fun n t => countedAccepted (noted (attempts n).orderId t))
      fun n => ⟨202, responseBody (newOrder call (attempts n).orderId items)⟩ where
  le := by cases traced <;> simp [unnotedStatements]
  untraced hlt := by
    cases traced with
    | false => rfl
    | true => exact absurd hlt (Nat.lt_irrefl _)
  unnoted n t hstruck := by
    by_cases hearly : Struck (orderStatements call) (attempts n)
    · exact create_throws h (hids n) (hconflicts n) hearly t
    · cases traced with
      | false => exact absurd hstruck hearly
      | true => exact (create_late h (hids n) hkey (hconflicts n) hearly hstruck t).unnoted
  dangling n t hclear hstruck := by
    cases traced with
    | false => exact create_late h (hids n) hkey (hconflicts n) hclear hstruck t
    | true => exact absurd hstruck hclear
  uncommitted n t hclear hstruck := (create_ends h (hids n) hkey (hconflicts n) hclear t).1 hstruck
  committed n t hclear :=
    (create_ends h (hids n) hkey (hconflicts n) (fun hstruck => hclear (hstruck.mono (Nat.le_succ _))) t).2 hclear
  congr n _ _ ht :=
    @requestAccounts_congr traced (fun t => countedAccepted (noted (attempts n).orderId t))
      (fun _ => by cases traced <;> rfl) _ _ ht
  renoted _ _ _ _ := rfl
  marks_counted _ t := by
    show t.checkoutAccepted + 1 + t.idempotencyDuplicate = t.checkoutAccepted + t.idempotencyDuplicate + 1
    omega

/-- Under a span a call that cannot insert the row of its key leaves nothing. -/
theorem tried_taken {items : List PricedItem} {inventory : Table Inventory.productId}
    (h : Creates call db items inventory)
    (hkey : db.idempotencyKeys.find? (call.customerId, call.idempotencyKey) ≠ none) (n : Nat) (t : Telemetry) :
    ∃ e, Throws true (tried call attempts db n t) e t := by
  by_cases hstruck : Struck (orderStatements call) (attempts n)
  · exact ⟨_, create_throws h (hids n) (hconflicts n) hstruck t⟩
  · obtain ⟨e, hthrows⟩ := create_taken h (hids n) hkey hstruck t
    exact ⟨e, hthrows.unnoted⟩

omit hids in
/-- A call that neither finds a response nor can create an order. -/
theorem tried_refused (hreplay : ∀ orderId response, checkExisting call.requestHash
      (db.idempotencyKeys.find? (call.customerId, call.idempotencyKey)) ≠ .replay orderId response)
    (hcreate : ∀ items inventory, ¬Creates call db items inventory) (n : Nat) (t : Telemetry) :
    ∃ e, Throws traced (tried call attempts db n t) e t := by
  unfold tried
  by_cases hstruck : Struck (lookUpStatements call) (attempts n)
  · exact ⟨_, lookUp_throws rfl (hconflicts n) hstruck t⟩
  · rw [lookUp_goes_on rfl hstruck]
    cases hexisting : checkExisting call.requestHash
        (db.idempotencyKeys.find? (call.customerId, call.idempotencyKey)) with
    | refuse message => exact ⟨.conflict message, rfl, rfl⟩
    | replay orderId response => exact absurd hexisting (hreplay _ _)
    | proceed =>
      show ∃ e, Throws traced ((accept call (attempts n) >>= commit) _) e t
      rw [accept_commit]
      have hquiet := quiet_placeOrder call (attempts n)
        ((Tx.start db t []).under ((attempts n).faults.drop (lookUpStatements call)))
      rcases hplace : placeOrder call (attempts n)
          ((Tx.start db t []).under ((attempts n).faults.drop (lookUpStatements call))) with ⟨e | order, t'⟩
      · rw [hplace] at hquiet
        rw [bind_of_error hplace]
        exact ⟨e, rfl, congrArg (leaveSpan traced) hquiet⟩
      · obtain ⟨⟨items, inventory, hcreates⟩, _⟩ := placeOrder_ok (t := t) hexisting hplace
        exact absurd hcreates (hcreate items inventory)

end Courses

/-! ### The condition -/

/-- No attempt that is made fails at its commit, and if a call throws that no span shields from the order id, none
has created an order. -/
structure Tallies (traced : Bool) (call : CheckoutCall) (attempts : Nat → Attempt) (db : Database) : Prop where
  replay : ∀ orderId response, checkExisting call.requestHash
      (db.idempotencyKeys.find? (call.customerId, call.idempotencyKey)) = .replay orderId response →
    Commits attempts (lookUpStatements call) (checkoutRetryAttempts - 1) 0 ∨
      AllStruck attempts (lookUpStatements call) (checkoutRetryAttempts - 1) 0
  create : ∀ items inventory, Creates call db items inventory →
    db.idempotencyKeys.find? (call.customerId, call.idempotencyKey) = none ∧
        Commits attempts (orderStatements call + 2) (checkoutRetryAttempts - 1) 0 ∨
      AllStruck attempts (unnotedStatements traced call) (checkoutRetryAttempts - 1) 0 ∨
      traced = true ∧ db.idempotencyKeys.find? (call.customerId, call.idempotencyKey) ≠ none

theorem replay_orderId {call : CheckoutCall} {db : Database} {orderId : Option String}
    {response : CheckoutAcceptedResponse}
    (h : checkExisting call.requestHash (db.idempotencyKeys.find? (call.customerId, call.idempotencyKey)) =
      .replay orderId response) (hrefer : KeysRefer db) {id : String} (hid : orderId = some id) :
    ∃ o ∈ db.orders.rows, o.id = id := by
  cases hfind : db.idempotencyKeys.find? (call.customerId, call.idempotencyKey) with
  | none =>
    rw [hfind] at h
    cases h
  | some row =>
    rw [hfind] at h
    have hrow : row.orderId = orderId := by
      unfold checkExisting at h
      dsimp only at h
      split at h
      · cases h
      · split at h <;> cases h
        rfl
    exact hrefer row (Table.mem_of_find? hfind) id (hrow.trans hid)

section Run
variable {traced : Bool} {call : CheckoutCall} {attempts : Nat → Attempt} {db : Database}

theorem run_tallied_iff (hconflicts : ∀ n, Conflicts (attempts n)) (hids : ∀ n, FreshIds (attempts n) db)
    (hrefer : KeysRefer db) :
    Tallied db (runCheckoutTransactionWithRetry call attempts db {checkoutStarted := 1}).1
        (runCheckoutTransactionWithRetry call attempts db {checkoutStarted := 1}).2.1
        (observed (leaveSpan traced (runCheckoutTransactionWithRetry call attempts db {checkoutStarted := 1}).2.2)) ↔
      Tallies traced call attempts db := by
  have hran := retryFrom_ran call attempts db (checkoutRetryAttempts - 1) 0 {checkoutStarted := 1}
  unfold runCheckoutTransactionWithRetry
  have hspoiled {early callback : Nat} {counted : Nat → Telemetry → Telemetry} {result : Nat → CheckoutResult}
      (h : Course traced call attempts db early callback counted result)
      (htallied : Tallied db (retryFrom call attempts db (checkoutRetryAttempts - 1) 0 {checkoutStarted := 1}).1
        (retryFrom call attempts db (checkoutRetryAttempts - 1) 0 {checkoutStarted := 1}).2.1
        (observed (leaveSpan traced
          (retryFrom call attempts db (checkoutRetryAttempts - 1) 0 {checkoutStarted := 1}).2.2))) :
      Commits attempts callback (checkoutRetryAttempts - 1) 0 ∨ AllStruck attempts early (checkoutRetryAttempts - 1) 0 := by
    by_contra hneither
    rw [not_or] at hneither
    exact (h.spoiled hneither.1 hneither.2).not_tallied hids hran htallied
  constructor
  · intro htallied
    refine ⟨fun orderId response h => hspoiled (course_replay hconflicts h) htallied, fun items inventory h => ?_⟩
    cases hkey : db.idempotencyKeys.find? (call.customerId, call.idempotencyKey) with
    | none =>
      rcases hspoiled (course_create hconflicts hids h hkey) htallied with hcommits | hall
      · exact .inl ⟨rfl, hcommits⟩
      · exact .inr (.inl hall)
    | some row =>
      cases traced with
      | true => exact .inr (.inr ⟨rfl, nofun⟩)
      | false =>
        refine .inr (.inl ?_)
        by_contra hnot
        obtain ⟨t', ⟨herror, _, haccounts⟩, hnoted⟩ := retryFrom_dangles
          (fun n t hstruck => create_throws h (hids n) (hconflicts n) hstruck t)
          (fun n t hclear => create_taken h (hids n) (by rw [hkey]; nofun) hclear t) (.inr hnot)
        refine (Spoiled.dangling rfl herror ?_).not_tallied hids hran htallied
        rwa [orderId_congr rfl haccounts]
  · intro h
    by_cases hreplay : ∃ orderId response, checkExisting call.requestHash
        (db.idempotencyKeys.find? (call.customerId, call.idempotencyKey)) = .replay orderId response
    · obtain ⟨orderId, response, hexisting⟩ := hreplay
      have hcourse := @course_replay traced call attempts db hconflicts orderId response hexisting
      rcases h.replay _ _ hexisting with hcommits | hall
      · obtain ⟨_, hreturned⟩ := hcourse.commits hcommits
        exact hreturned.tallied_replay hran fun _ hid => replay_orderId hexisting hrefer hid
      · exact (retryFrom_unnoted hcourse.unnoted hall).tallied
    · by_cases hcreate : ∃ items inventory, Creates call db items inventory
      · obtain ⟨items, inventory, hcreates⟩ := hcreate
        by_cases hkey : db.idempotencyKeys.find? (call.customerId, call.idempotencyKey) = none
        · have hcourse := @course_create traced call attempts db hconflicts hids items inventory hcreates hkey
          rcases h.create _ _ hcreates with ⟨_, hcommits⟩ | hall | ⟨_, htaken⟩
          · obtain ⟨n, hreturned⟩ := hcourse.commits hcommits
            exact hreturned.tallied_accept rfl hran
          · exact (retryFrom_unnoted hcourse.unnoted hall).tallied
          · exact absurd hkey htaken
        · -- the row of the key refuses every attempt's own
          cases traced with
          | true => exact (retryFrom_quiet (tried_taken hconflicts hids hcreates hkey)).tallied
          | false =>
            rcases h.create _ _ hcreates with ⟨hnone, _⟩ | hall | ⟨htraced, _⟩
            · exact absurd hnone hkey
            · exact (retryFrom_unnoted
                (fun n t hstruck => create_throws hcreates (hids n) (hconflicts n) hstruck t) hall).tallied
            · cases htraced
      · simp only [not_exists] at hreplay hcreate
        exact (retryFrom_quiet (tried_refused hconflicts hreplay hcreate)).tallied

end Run

/-- A call that meets no faults but conflicts has counted what it returned and committed exactly when it passes
validation, does not fail at a commit and, where no span shields its request from the order id, does not throw after
an order. -/
theorem tallied_iff (P : Platform) (input : CheckoutInput) (db : Database)
    (hconflicts : ∀ n, Conflicts (input.attempts n))
    (hinvalidation : input.invalidationFault = none) (hids : ∀ n, FreshIds (input.attempts n) db)
    (hrefer : KeysRefer db) :
    Tallied db (checkout P input db).1 (checkout P input db).2.1 (checkout P input db).2.2 ↔
      ∃ customerId key, header input.customerId = some customerId ∧ header input.idempotencyKey = some key ∧
        validateRequest input.body = .ok () ∧ Tallies input.traced (callOf P customerId key input) input.attempts db := by
  have hunobserved {r : Except CheckoutError CheckoutResult} {db' : Database} : ¬Tallied db r db' {} := by
    rintro ⟨_, _, ⟨outcome, hduration, _⟩, _⟩
    cases hduration
  rcases checkout_cases P input db with ⟨error, hrefused⟩ | ⟨customerId, key, hcustomer, hkey, hvalid, hprocess⟩
  · rw [hrefused]
    refine iff_of_false hunobserved ?_
    rintro ⟨_, _, hcustomer, hkey, hvalid, _⟩
    rw [checkout_of_valid hcustomer hkey hvalid, process_eq _ hinvalidation] at hrefused
    have hduration := congrArg (fun call => call.2.2.checkoutDuration) hrefused
    simp [observed] at hduration
  · rw [hprocess, process_eq _ hinvalidation, run_tallied_iff hconflicts hids hrefer]
    constructor
    · intro h
      exact ⟨customerId, key, hcustomer, hkey, hvalid, h⟩
    · rintro ⟨_, _, hcustomer', hkey', _, h⟩
      rw [hcustomer] at hcustomer'
      rw [hkey] at hkey'
      cases hcustomer'
      cases hkey'
      exact h

/-! ### Conflicts on the way -/

/-- A call for one case whose first attempt meets a conflict after `k` statements. -/
def conflicting (k : Nat) : CheckoutInput :=
  {casesOrder [1] with attempts := fun n =>
    if n = 0 then ⟨"o1", "e1", List.replicate k none ++ [some .p2034]⟩ else ⟨"o2", "e2", []⟩}

theorem conflicting_conflicts (k n : Nat) : Conflicts ((conflicting k).attempts n) := by
  intro fault hfault
  cases n with
  | zero =>
    rcases List.mem_append.mp hfault with hmem | hmem
    · exact .inl (List.eq_of_mem_replicate hmem)
    · exact .inr (List.mem_singleton.mp hmem)
  | succ n => cases hfault

theorem conflicting_freshIds (k n : Nat) : FreshIds ((conflicting k).attempts n) (oneCase 3) := by
  cases n <;> exact ⟨rfl, rfl, nofun⟩

theorem oneCase_keysRefer : KeysRefer (oneCase 3) := nofun

/-- The first attempt fails at its commit, and the order is counted twice. -/
theorem tallied_recounted :
    ¬∀ (P : Platform) (input : CheckoutInput) (db : Database), (∀ n, Conflicts (input.attempts n)) →
      input.invalidationFault = none → (∀ n, FreshIds (input.attempts n) db) → KeysRefer db →
      Tallied db (checkout P input db).1 (checkout P input db).2.1 (checkout P input db).2.2 := by
  intro h
  have htallied := h ⟨compare, String.ofList, fun _ => "error"⟩ (conflicting 8) (oneCase 3) (conflicting_conflicts 8) rfl
    (conflicting_freshIds 8) oneCase_keysRefer
  have htwice : (checkout ⟨compare, String.ofList, fun _ => "error"⟩ (conflicting 8)
      (oneCase 3)).2.2.checkoutAccepted = 2 := by
    decide +kernel
  rcases htallied.accepted with ⟨_, hone⟩ | ⟨_, hnone⟩ <;> omega

/-- The first attempt fails after it created its order, and the second is committed. -/
theorem tallied_retried :
    Tallied (oneCase 3) (checkout ⟨compare, String.ofList, fun _ => "error"⟩ (conflicting 6) (oneCase 3)).1
      (checkout ⟨compare, String.ofList, fun _ => "error"⟩ (conflicting 6) (oneCase 3)).2.1
      (checkout ⟨compare, String.ofList, fun _ => "error"⟩ (conflicting 6) (oneCase 3)).2.2 := by
  refine (tallied_iff ⟨compare, String.ofList, fun _ => "error"⟩ (conflicting 6) (oneCase 3) (conflicting_conflicts 6) rfl
    (conflicting_freshIds 6) oneCase_keysRefer).mpr ⟨"c1", "k", rfl, rfl, by decide +kernel, ?_⟩
  refine ⟨fun orderId response h => ?_, fun items inventory _ => .inl ⟨rfl, 1, by decide, fun m hm => ?_,
    by decide +kernel⟩⟩
  · cases h
  · obtain rfl : m = 0 := by omega
    decide +kernel

end CaseCellShop.Checkout
