import CaseCellShop.Checkout.Failures
import CaseCellShop.Library.Steps
import CaseCellShop.Shop.Book

/-! Concurrent calls under one idempotency key.

All of them take the same advisory lock first and hold it to the end, so an attempt is
two steps: its first statement, which fixes the snapshot before the wait for the lock,
and the rest once the lock is granted, which no other attempt interleaves. The lock
orders the attempts but not their snapshots. -/
namespace CaseCellShop.Shop
open Checkout Steps

/-- Where a call stands: `attempt` counts its attempts from 0. -/
inductive Progress where
  | waiting (attempt : Nat) (telemetry : Telemetry)
  | begun (attempt : Nat) (telemetry : Telemetry) (snapshot : Database)
  | done (result : Except CheckoutError CheckoutResult)

structure Flight (ι : Type) where
  db : Database
  calls : ι → Progress

inductive Turn (ι : Type) where
  /-- The first statement of the next attempt. -/
  | start (i : ι)
  /-- The rest of the attempt, up to its commit or rollback. -/
  | finish (i : ι)

variable {ι : Type} [DecidableEq ι]

/-- The `catch` block of the retry loop. -/
def afterError (attempt : Nat) (error : CheckoutError) (telemetry : Telemetry) : Progress :=
  if isRetryableTransactionError error ∧ attempt + 1 < checkoutRetryAttempts then .waiting (attempt + 1) telemetry
  else .done (.error error)

def Flight.step (call : ι → CheckoutCall) (attempts : ι → Nat → Attempt) (s : Flight ι) :
    Turn ι → Option (Flight ι)
  | .start i =>
    match s.calls i with
    | .waiting attempt telemetry =>
      some {s with calls := Function.update s.calls i (.begun attempt telemetry s.db)}
    | _ => none
  | .finish i =>
    match s.calls i with
    | .begun attempt telemetry snapshot =>
      match transact (call i) (attempts i attempt) ⟨snapshot, s.db, telemetry, (attempts i attempt).faults⟩ with
      | (.ok result, tx) => some ⟨tx.db, Function.update s.calls i (.done (.ok result))⟩
      | (.error error, tx) => some {s with calls := Function.update s.calls i (afterError attempt error tx.telemetry)}
    | _ => none

def flights (call : ι → CheckoutCall) (attempts : ι → Nat → Attempt) : System (Flight ι) (Turn ι) :=
  ⟨Flight.step call attempts⟩

/-- All calls arrive at a store. -/
def Flight.arrive (db : Database) : Flight ι := ⟨db, fun _ => .waiting 0 {checkoutStarted := 1}⟩

/-- An attempt that runs is not hindered by what was committed during its wait. -/
def unhindered (call : ι → CheckoutCall) (s : Flight ι) : Turn ι → Prop
  | .start _ => True
  | .finish i =>
    match s.calls i with
    | .begun _ _ snapshot => Unhindered (call i) snapshot s.db
    | _ => True

instance (call : ι → CheckoutCall) (s : Flight ι) : ∀ turn, Decidable (unhindered call s turn)
  | .start _ => .isTrue trivial
  | .finish i => by
    unfold unhindered
    dsimp only
    split <;> infer_instance

variable {call : ι → CheckoutCall} {attempts : ι → Nat → Attempt}

/-! ### What a step can do -/

inductive Flown (call : ι → CheckoutCall) (attempts : ι → Nat → Attempt) (s : Flight ι) :
    Turn ι → Flight ι → Prop
  | started {i : ι} {n : Nat} {t : Telemetry} (h : s.calls i = .waiting n t) :
      Flown call attempts s (.start i) {s with calls := Function.update s.calls i (.begun n t s.db)}
  | returned {i : ι} {n : Nat} {t : Telemetry} {snapshot : Database} {result : CheckoutResult} {tx : Tx}
      (h : s.calls i = .begun n t snapshot)
      (hrun : transact (call i) (attempts i n) ⟨snapshot, s.db, t, (attempts i n).faults⟩ = (.ok result, tx)) :
      Flown call attempts s (.finish i) ⟨tx.db, Function.update s.calls i (.done (.ok result))⟩
  | failed {i : ι} {n : Nat} {t : Telemetry} {snapshot : Database} {error : CheckoutError} {tx : Tx}
      (h : s.calls i = .begun n t snapshot)
      (hrun : transact (call i) (attempts i n) ⟨snapshot, s.db, t, (attempts i n).faults⟩ = (.error error, tx)) :
      Flown call attempts s (.finish i)
        {s with calls := Function.update s.calls i (afterError n error tx.telemetry)}

theorem flown_of_step {s s' : Flight ι} {turn : Turn ι}
    (h : (flights call attempts).step s turn = some s') : Flown call attempts s turn s' := by
  cases turn with
  | start i =>
    simp only [flights, Flight.step] at h
    cases hi : s.calls i with
    | waiting n t =>
      rw [hi] at h
      cases h
      exact .started hi
    | begun n t snapshot =>
      rw [hi] at h
      cases h
    | done result =>
      rw [hi] at h
      cases h
  | finish i =>
    simp only [flights, Flight.step] at h
    cases hi : s.calls i with
    | waiting n t =>
      rw [hi] at h
      cases h
    | done result =>
      rw [hi] at h
      cases h
    | begun n t snapshot =>
      rw [hi] at h
      dsimp only at h
      rcases hrun : transact (call i) (attempts i n) ⟨snapshot, s.db, t, (attempts i n).faults⟩ with
        ⟨error | result, tx⟩
      · rw [hrun] at h
        cases h
        exact .failed hi hrun
      · rw [hrun] at h
        cases h
        exact .returned hi hrun

/-- One attempt with nothing in between. -/
theorem attempt_alone {s : Flight ι} {i : ι} {n : Nat} {t : Telemetry} (hi : s.calls i = .waiting n t) :
    (flights call attempts).run s [.start i, .finish i] =
      match transact (call i) (attempts i n) (.start s.db t (attempts i n).faults) with
      | (.ok result, tx) => some ⟨tx.db, Function.update s.calls i (.done (.ok result))⟩
      | (.error error, tx) =>
        some {s with calls := Function.update s.calls i (afterError n error tx.telemetry)} := by
  simp only [System.run, flights, Flight.step, hi, Option.bind_some, Function.update_self, Tx.start]
  rcases transact (call i) (attempts i n) ⟨s.db, s.db, t, (attempts i n).faults⟩ with ⟨error | result, tx⟩
  · simp only [Option.bind_some, Function.update_idem]
  · simp only [Option.bind_some, Function.update_idem]

/-- Alone, a call goes through the retry loop of the code. -/
theorem flight_alone (s : Flight ι) (i : ι) (left n : Nat) (t : Telemetry) (hi : s.calls i = .waiting n t)
    (hleft : n + left + 1 = checkoutRetryAttempts) : ∃ turns s',
    (flights call attempts).run s turns = some s' ∧
      s'.calls i = .done (retryFrom (call i) (attempts i) s.db left n t).1 ∧
      s'.db = (retryFrom (call i) (attempts i) s.db left n t).2.1 := by
  induction left generalizing s n t with
  | zero =>
    have hattempt := @attempt_alone _ _ call attempts _ _ _ _ hi
    unfold retryFrom
    rcases hrun : transact (call i) (attempts i n) (.start s.db t (attempts i n).faults) with ⟨error | result, tx⟩
    · rw [hrun] at hattempt
      exact ⟨_, _, hattempt, (Function.update_self ..).trans (if_neg fun h => by omega), rfl⟩
    · rw [hrun] at hattempt
      exact ⟨_, _, hattempt, Function.update_self .., rfl⟩
  | succ left ih =>
    have hattempt := @attempt_alone _ _ call attempts _ _ _ _ hi
    unfold retryFrom
    rcases hrun : transact (call i) (attempts i n) (.start s.db t (attempts i n).faults) with ⟨error | result, tx⟩
    · rw [hrun] at hattempt
      dsimp only at hattempt ⊢
      by_cases hretry : isRetryableTransactionError error
      · have hafter : afterError n error tx.telemetry = .waiting (n + 1) tx.telemetry :=
          if_pos ⟨hretry, by omega⟩
        rw [hafter] at hattempt
        rw [if_pos hretry]
        obtain ⟨turns, s', hrest, hcall, hdb⟩ := ih
          {s with calls := Function.update s.calls i (.waiting (n + 1) tx.telemetry)} (n + 1) tx.telemetry
          (Function.update_self ..) (by omega)
        refine ⟨[.start i, .finish i] ++ turns, s', ?_, hcall, hdb⟩
        rw [System.run_append, hattempt]
        exact hrest
      · rw [if_neg hretry]
        exact ⟨_, _, hattempt, (Function.update_self ..).trans (if_neg fun h => hretry h.1), rfl⟩
    · rw [hrun] at hattempt
      exact ⟨_, _, hattempt, Function.update_self .., rfl⟩

/-! ### The invariant -/

/-- The state of a key in a store: unused, or with a stored response. -/
structure KeyState (customerId key : String) (db : Database) : Prop where
  answered : Answered customerId key db
  unused : db.idempotencyKeys.find? (customerId, key) = none → Unused customerId key db

/-- As long as the key is unused the store is `db₀`; later every success is an answer
from the row of the key. -/
structure Orderly (call : ι → CheckoutCall) (customerId key : String) (db₀ : Database) (s : Flight ι) : Prop where
  answered : Answered customerId key s.db
  unused : s.db.idempotencyKeys.find? (customerId, key) = none → s.db = db₀
  snapshots : ∀ i n t snapshot, s.calls i = .begun n t snapshot → ∀ row,
    snapshot.idempotencyKeys.find? (customerId, key) = some row →
      s.db.idempotencyKeys.find? (customerId, key) = some row
  results : ∀ i result, s.calls i = .done (.ok result) → ∃ row,
    s.db.idempotencyKeys.find? (customerId, key) = some row ∧ row.requestHash = (call i).requestHash ∧
      row.responseBody = some result.body ∧ (result.httpStatus = 200 ∨ result.httpStatus = 202)
  once : ∀ i j body body', s.calls i = .done (.ok ⟨202, body⟩) → s.calls j = .done (.ok ⟨202, body'⟩) → i = j
  errors : ∀ i e, s.calls i = .done (.error e) → Refusal e ∨ e = .database .p2034

theorem checkExisting_replay {requestHash : String} {existing : Option IdempotencyKey} {orderId : Option String}
    {response : CheckoutAcceptedResponse} (h : checkExisting requestHash existing = .replay orderId response) :
    ∃ row, existing = some row ∧ row.requestHash = requestHash ∧ row.responseBody = some response := by
  cases existing with
  | none => cases h
  | some row =>
    dsimp only [checkExisting] at h
    by_cases hhash : row.requestHash ≠ requestHash
    · rw [if_pos hhash] at h
      cases h
    · rw [if_neg hhash] at h
      split at h
      · rename_i response' _ hbody
        cases h
        exact ⟨row, rfl, not_not.mp hhash, hbody⟩
      · cases h
      · cases h

/-- What the table of calls says after one entry of it is written. -/
theorem calls_update {calls : ι → Progress} {i j : ι} {p p' : Progress}
    (h : Function.update calls i p j = p') : j = i ∧ p' = p ∨ j ≠ i ∧ calls j = p' := by
  by_cases hj : j = i
  · rw [hj, Function.update_self] at h
    exact .inl ⟨hj, h.symm⟩
  · rw [Function.update_of_ne hj] at h
    exact .inr ⟨hj, h⟩

variable {customerId key : String} {db₀ : Database} {s : Flight ι} {i : ι} {n : Nat} {t : Telemetry}
  {snapshot : Database}

/-- A call moves on without a commit. -/
theorem Orderly.move {p : Progress} (hs : Orderly call customerId key db₀ s)
    (hbegun : ∀ n t snapshot, p = .begun n t snapshot → snapshot = s.db)
    (hreplayed : ∀ result, p = .done (.ok result) → result.httpStatus = 200 ∧ ∃ row,
      s.db.idempotencyKeys.find? (customerId, key) = some row ∧ row.requestHash = (call i).requestHash ∧
        row.responseBody = some result.body)
    (herror : ∀ e, p = .done (.error e) → Refusal e ∨ e = .database .p2034) :
    Orderly call customerId key db₀ {s with calls := Function.update s.calls i p} where
  answered := hs.answered
  unused := hs.unused
  snapshots j n t snapshot h row hrow := by
    rcases calls_update h with ⟨_, hp⟩ | ⟨_, hj⟩
    · exact hbegun n t snapshot hp.symm ▸ hrow
    · exact hs.snapshots j n t snapshot hj row hrow
  results j result h := by
    rcases calls_update h with ⟨rfl, hp⟩ | ⟨_, hj⟩
    · obtain ⟨hstatus, row, hrow, hhash, hbody⟩ := hreplayed result hp.symm
      exact ⟨row, hrow, hhash, hbody, .inl hstatus⟩
    · exact hs.results j result hj
  once j k body body' h h' := by
    rcases calls_update h with ⟨_, hp⟩ | ⟨_, hj⟩
    · exact absurd (hreplayed _ hp.symm).1 (show (202 : Nat) ≠ 200 by decide)
    · rcases calls_update h' with ⟨_, hp⟩ | ⟨_, hk⟩
      · exact absurd (hreplayed _ hp.symm).1 (show (202 : Nat) ≠ 200 by decide)
      · exact hs.once j k body body' hj hk
  errors j e h := by
    rcases calls_update h with ⟨_, hp⟩ | ⟨_, hj⟩
    · exact herror e hp.symm
    · exact hs.errors j e hj

/-- The commit of the one accepted call. -/
theorem accepted_orderly {db : Database} {attempt : Attempt} {result : CheckoutResult} {items : List PricedItem}
    (hs : Orderly call customerId key db₀ s)
    (hkey : (call i).customerId = customerId ∧ (call i).idempotencyKey = key)
    (ha : Accepted (call i) attempt snapshot s.db db result items) :
    Orderly call customerId key db₀ ⟨db, Function.update s.calls i (.done (.ok result))⟩ := by
  obtain ⟨rfl, rfl⟩ := hkey
  let row := completedKey (call i) (newOrder (call i) attempt.orderId items)
  have hbefore : s.db.idempotencyKeys.find? row.customerKey = none := (Table.insert?_eq_some ha.key).1
  have hafter : db.idempotencyKeys.find? row.customerKey = some row := Table.find?_inserted ha.key
  have hnobody : ∀ j result', s.calls j ≠ .done (.ok result') := by
    intro j result' hj
    obtain ⟨row', hrow', _⟩ := hs.results j result' hj
    exact absurd (hbefore.symm.trans hrow') nofun
  refine ⟨?_, ?_, ?_, ?_, ?_, ?_⟩
  · intro row' hrow'
    cases hafter.symm.trans hrow'
    exact ⟨rfl, rfl⟩
  · intro hnone
    exact absurd (hafter.symm.trans hnone) nofun
  · intro j n t snapshot h row' hrow'
    rcases calls_update h with ⟨_, hp⟩ | ⟨_, hj⟩
    · cases hp
    · exact absurd (hbefore.symm.trans (hs.snapshots j n t snapshot hj row' hrow')) nofun
  · intro j result' h
    rcases calls_update h with ⟨rfl, hp⟩ | ⟨_, hj⟩
    · cases hp
      rw [ha.response]
      exact ⟨row, hafter, rfl, rfl, .inr rfl⟩
    · exact absurd hj (hnobody j result')
  · intro j k body body' h h'
    rcases calls_update h with ⟨hji, _⟩ | ⟨_, hj⟩
    · rcases calls_update h' with ⟨hki, _⟩ | ⟨_, hk⟩
      · rw [hji, hki]
      · exact absurd hk (hnobody k _)
    · exact absurd hj (hnobody j _)
  · intro j e h
    rcases calls_update h with ⟨_, hp⟩ | ⟨_, hj⟩
    · cases hp
    · exact hs.errors j e hj

theorem step_orderly {s' : Flight ι} {turn : Turn ι} (hs : Orderly call customerId key db₀ s)
    (hkey : ∀ i, (call i).customerId = customerId ∧ (call i).idempotencyKey = key)
    (hfaults : ∀ i n, (attempts i n).faults = []) (hdb : KeyState customerId key db₀)
    (hids : ∀ i n, FreshIds (attempts i n) db₀) (hu : unhindered call s turn)
    (h : (flights call attempts).step s turn = some s') : Orderly call customerId key db₀ s' := by
  cases flown_of_step h with
  | started hi =>
    apply hs.move
    · intro n t snapshot hp
      cases hp
      rfl
    · exact fun _ => nofun
    · exact fun _ => nofun
  | @returned i n t snapshot result tx hi hrun =>
    rcases transact_ok hrun with hreplayed | ⟨items, haccepted⟩
    · obtain ⟨orderId, response, hexisting, rfl⟩ := hreplayed.found
      obtain ⟨row, hrow, hhash, hbody⟩ := checkExisting_replay hexisting
      rw [(hkey i).1, (hkey i).2] at hrow
      rw [show tx.db = s.db from hreplayed.unchanged]
      apply hs.move
      · exact fun _ _ _ => nofun
      · intro result hp
        cases hp
        exact ⟨rfl, row, hs.snapshots i n t snapshot hi row hrow, hhash, hbody⟩
      · exact fun _ => nofun
    · exact accepted_orderly hs (hkey i) haccepted
  | @failed i n t snapshot error tx hi hrun =>
    have hunhindered : Unhindered (call i) snapshot s.db := by
      unfold unhindered at hu
      dsimp only at hu
      rw [hi] at hu
      exact hu
    have herror : Refusal error ∨ error = .database .p2034 := by
      refine transact_error (hfaults i n) hunhindered ?_ ?_ hrun
      · rw [(hkey i).1, (hkey i).2]
        exact fun row hrow => hs.answered row (hs.snapshots i n t snapshot hi row hrow)
      · rw [(hkey i).1, (hkey i).2]
        intro hnone
        have hsame := hs.unused hnone
        show Unused customerId key s.db ∧ FreshIds (attempts i n) s.db
        rw [hsame] at hnone ⊢
        exact ⟨hdb.unused hnone, hids i n⟩
    apply hs.move
    all_goals unfold afterError
    · intro m t' snapshot' hp
      split at hp <;> cases hp
    · intro result hp
      split at hp <;> cases hp
    · intro e hp
      split at hp
      · cases hp
      · cases hp
        exact herror

/-- How the calls end: one acceptance at most, one answer for all that succeed, and a 409
or 422 for the others. -/
structure Unsurprising (P : Platform) (inputs : ι → CheckoutInput) (s : Flight ι) : Prop where
  once : ∀ i j body body', s.calls i = .done (.ok ⟨202, body⟩) → s.calls j = .done (.ok ⟨202, body'⟩) → i = j
  statuses : ∀ i result, s.calls i = .done (.ok result) → result.httpStatus = 200 ∨ result.httpStatus = 202
  agree : ∀ i j result result', s.calls i = .done (.ok result) → s.calls j = .done (.ok result') →
    result.body = result'.body ∧ normalizeRequest P (inputs i).body = normalizeRequest P (inputs j).body
  errors : ∀ i e, s.calls i = .done (.error e) → Refusal e

/-- The calls of one customer under one key. -/
def callsOf (P : Platform) (customerId key : String) (inputs : ι → CheckoutInput) (i : ι) : CheckoutCall :=
  callOf P customerId key (inputs i)

/-- Concurrent calls under one key, none of whose attempts is hindered, end as they
should under every schedule in which none conflicts on all its attempts. -/
theorem one_key (P : Platform) (hsha : Function.Injective P.sha256) (customerId key : String)
    (inputs : ι → CheckoutInput) (db : Database) (turns : List (Turn ι)) (s : Flight ι)
    (hdb : KeyState customerId key db) (hids : ∀ i n, FreshIds ((inputs i).attempts n) db)
    (hfaults : ∀ i n, ((inputs i).attempts n).faults = [])
    (hu : (flights (callsOf P customerId key inputs) fun i => (inputs i).attempts).Guarded
      (unhindered (callsOf P customerId key inputs)) (.arrive db) turns)
    (hr : (flights (callsOf P customerId key inputs) fun i => (inputs i).attempts).run (.arrive db) turns = some s)
    (hretries : ∀ i, s.calls i ≠ .done (.error (.database .p2034))) : Unsurprising P inputs s := by
  have harrive : Orderly (callsOf P customerId key inputs) customerId key db (.arrive db) :=
    ⟨hdb.answered, fun _ => rfl, fun _ _ _ _ => nofun, fun _ _ => nofun, fun _ _ _ _ => nofun, fun _ _ => nofun⟩
  have hs := System.run_guarded (I := Orderly (callsOf P customerId key inputs) customerId key db)
    (fun _ _ _ hI hC hstep => step_orderly hI (fun _ => ⟨rfl, rfl⟩) hfaults hdb hids hC hstep) harrive hu hr
  refine ⟨hs.once, fun i result h => ?_, fun i j result result' h h' => ?_, fun i e h => ?_⟩
  · obtain ⟨_, _, _, _, hstatus⟩ := hs.results i result h
    exact hstatus
  · obtain ⟨row, hrow, hhash, hbody, _⟩ := hs.results i result h
    obtain ⟨row', hrow', hhash', hbody', _⟩ := hs.results j result' h'
    cases hrow.symm.trans hrow'
    exact ⟨Option.some.inj (hbody.symm.trans hbody'), (hashRequest_inj hsha).mp (hhash.symm.trans hhash')⟩
  · rcases hs.errors i e h with hrefusal | rfl
    · exact hrefusal
    · exact absurd h (hretries i)

/-- Every key of a store that represents a book is unused or has a stored response. -/
theorem Represents.keyState {book : List Entry} {db : Database} (h : Represents book db)
    (customerId key : String) : KeyState customerId key db where
  answered row hrow := by
    have hmem := Table.mem_of_find? hrow
    rw [h.keys] at hmem
    obtain ⟨entry, _, rfl⟩ := List.mem_map.mp hmem
    exact ⟨rfl, rfl⟩
  unused hnone := by
    refine ⟨fun o ho hkey => ?_, hnone⟩
    have hfacts : orderFacts o ∈ book.map fun e => orderFacts e.order :=
      h.orders ▸ List.mem_map_of_mem ho
    obtain ⟨entry, hentry, heq⟩ := List.mem_map.mp hfacts
    have hrow : entry.key ∈ db.idempotencyKeys.rows := h.keys ▸ List.mem_map_of_mem hentry
    refine Table.find?_eq_none.mp hnone entry.key hrow ?_
    have hcustomer : entry.call.customerId = o.customerId := congrArg OrderFacts.customerId heq
    have hidem : entry.call.idempotencyKey = o.idempotencyKey := congrArg OrderFacts.idempotencyKey heq
    show (entry.call.customerId, entry.call.idempotencyKey) = (customerId, key)
    rw [hcustomer, hidem, hkey.1, hkey.2]

/-! ### Two calls at a time -/

/-- The store after a sync of the two products. -/
def syncedStore : Database := (after (.idle twoProducts) (wholeSync 0 2)).world.db

theorem syncedStore_keyState : KeyState "c1" "k" syncedStore :=
  ⟨fun row hrow => absurd hrow (by
    rw [show syncedStore.idempotencyKeys.find? ("c1", "k") = none by decide +kernel]
    exact nofun), fun hnone => ⟨by decide +kernel, hnone⟩⟩

theorem syncedStore_fresh (orderId eventId : String) : FreshIds ⟨orderId, eventId, []⟩ syncedStore := by
  have horders : syncedStore.orders.rows = [] := by decide +kernel
  have hevents : syncedStore.outboxEvents.rows = [] := by decide +kernel
  have hkeys : syncedStore.idempotencyKeys.rows = [] := by decide +kernel
  refine ⟨Table.find?_eq_none.mpr ?_, Table.find?_eq_none.mpr ?_, ?_⟩
  · rw [horders]
    exact fun _ => nofun
  · rw [hevents]
    exact fun _ => nofun
  · rw [hkeys]
    exact fun _ => nofun

/-- Two calls of one customer on the synced store. -/
def twoCalls (inputs : Bool → CheckoutInput) : System (Flight Bool) (Turn Bool) :=
  flights (callsOf plainPlatform "c1" "k" inputs) fun i => (inputs i).attempts

def Progress.ending : Progress → Option (Except CheckoutError CheckoutResult)
  | .done result => some result
  | _ => none

theorem Progress.ending_eq_some {p : Progress} {result : Except CheckoutError CheckoutResult} :
    p.ending = some result ↔ p = .done result := by
  cases p <;> simp [ending]

/-- The state a schedule of the two calls leads to. -/
def landed (inputs : Bool → CheckoutInput) (turns : List (Turn Bool)) : Flight Bool :=
  ((twoCalls inputs).run (.arrive syncedStore) turns).getD (.arrive syncedStore)

theorem run_landed (inputs : Bool → CheckoutInput) (turns : List (Turn Bool))
    (h : ((twoCalls inputs).run (.arrive syncedStore) turns).isSome) :
    (twoCalls inputs).run (.arrive syncedStore) turns = some (landed inputs turns) :=
  (twoCalls inputs).run_after (.arrive syncedStore) turns h

/-- Both calls take their snapshots before the first of them commits. -/
def overlapping : List (Turn Bool) := [.start false, .start true, .finish false, .finish true]

/-- The calls ask for different products. -/
def disjointCalls : Bool → CheckoutInput
  | false => orderRequest "c1" "k" "o1" [⟨"p1", 1⟩]
  | true => orderRequest "c1" "k" "o2" [⟨"p2", 1⟩]

/-- The second call then collides with the order of the first, which is not retried. -/
theorem one_key_fails : ¬∀ (P : Platform) (_ : Function.Injective P.sha256) (customerId key : String)
    (inputs : Bool → CheckoutInput) (db : Database) (turns : List (Turn Bool)) (s : Flight Bool),
    KeyState customerId key db → (∀ i n, FreshIds ((inputs i).attempts n) db) →
    (∀ i n, ((inputs i).attempts n).faults = []) →
    (flights (callsOf P customerId key inputs) fun i => (inputs i).attempts).run (.arrive db) turns = some s →
    (∀ i, s.calls i ≠ .done (.error (.database .p2034))) → Unsurprising P inputs s := by
  intro h
  have hfirst : ((landed disjointCalls overlapping).calls false).ending =
      some (.ok ⟨202, ⟨"o1", .pendingErp, 500, "BRL"⟩⟩) := by decide +kernel
  have hsecond : ((landed disjointCalls overlapping).calls true).ending =
      some (.error (.database .p2002)) := by decide +kernel
  have hend := h plainPlatform plainPlatform_sha256 "c1" "k" disjointCalls syncedStore overlapping _
    syncedStore_keyState (fun i _ => by cases i <;> exact syncedStore_fresh _ _)
    (fun i _ => by cases i <;> rfl) (run_landed disjointCalls overlapping (by decide +kernel)) fun i hi => ?_
  · exact hend.errors true _ (Progress.ending_eq_some.mp hsecond)
  · have hi := Progress.ending_eq_some.mpr hi
    cases i
    · cases hfirst.symm.trans hi
    · cases hsecond.symm.trans hi

/-- The calls ask for one product in the same way. -/
def equalCalls : Bool → CheckoutInput
  | false => orderRequest "c1" "k" "o1" [⟨"p1", 1⟩]
  | true => orderRequest "c1" "k" "o2" [⟨"p1", 1⟩]

/-- The second call conflicts and is answered by the replay of its second attempt. -/
def overlappingRetried : List (Turn Bool) := overlapping ++ [.start true, .finish true]

theorem one_key_retried : ∃ s, (twoCalls equalCalls).run (.arrive syncedStore) overlappingRetried = some s ∧
    Unsurprising plainPlatform equalCalls s :=
  have hrun := run_landed equalCalls overlappingRetried (by decide +kernel)
  have hend : ∀ i, ((landed equalCalls overlappingRetried).calls i).ending ≠
      some (.error (.database .p2034)) := by decide +kernel
  ⟨_, hrun, one_key plainPlatform plainPlatform_sha256 "c1" "k" equalCalls syncedStore overlappingRetried _
    syncedStore_keyState (fun i _ => by cases i <;> exact syncedStore_fresh _ _)
    (fun i _ => by cases i <;> rfl) (by decide +kernel) hrun
    fun i hi => hend i (Progress.ending_eq_some.mpr hi)⟩

end CaseCellShop.Shop
