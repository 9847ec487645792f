import CaseCellShop.Checkout.Acceptance
import CaseCellShop.Storefront.Freshness

/-! What a failing checkout leaves behind.

The transaction commits entirely or not at all. After a commit the cards are
invalidated, which begins with a read of the catalog version; a failing delete is
caught, a failing read is not, so a checkout may throw after it has committed. -/
namespace CaseCellShop.Storefront
open Program Products
open Checkout hiding checkout Platform
open Shop (Reply)

/-! ### The transaction -/

section Transaction
variable (P : Checkout.Platform) (input : CheckoutInput) (db : Database)

/-- The transaction commits a new order: the request is valid, the store can serve it and
an attempt gets through. -/
def Commits : Prop :=
  ∃ customerId key, header input.customerId = some customerId ∧ header input.idempotencyKey = some key ∧
    validateRequest input.body = .ok () ∧ Servable (callOf P customerId key input) db ∧
    GetsThrough (callOf P customerId key input) input.attempts

variable {P db}

theorem process_fst (call : CheckoutCall) (hfault : input.invalidationFault = none) :
    (process call input db).1 =
      (runCheckoutTransactionWithRetry call input.attempts db {checkoutStarted := 1}).1 := by
  rw [process_eq call hfault]

/-- A commit is an accepted order. -/
theorem accepted_of_commits (hfault : input.invalidationFault = none) (hids : ∀ n, FreshIds (input.attempts n) db)
    (h : Commits P input db) :
    ∃ customerId key n items result, (Checkout.checkout P input db).1 = .ok result ∧
      Accepted (callOf P customerId key input) (input.attempts n) db db
        (Checkout.checkout P input db).2.1 result items := by
  obtain ⟨customerId, key, hcustomer, hkey, hvalid, hservable, hthrough⟩ := h
  rw [checkout_of_valid hcustomer hkey hvalid]
  obtain ⟨items, inventory, hserves⟩ := hservable.serves
  obtain ⟨result, hresult⟩ := (run_serves hserves hids _).mpr hthrough
  rw [← process_fst input _ hfault] at hresult
  have hran := process_ran (callOf P customerId key input) input db hfault
  rw [hresult] at hran ⊢
  cases hran with
  | replayed hreplayed =>
    obtain ⟨_, _, hfound, _⟩ := hreplayed.found
    rw [hservable.unused.row] at hfound
    cases hfound
  | accepted n items haccepted => exact ⟨customerId, key, n, items, result, rfl, haccepted⟩

/-- Without a commit the store is left as it was, and nothing is answered with a 202. -/
theorem unchanged_of_not_commits (hfault : input.invalidationFault = none)
    (hids : ∀ n, FreshIds (input.attempts n) db) (h : ¬Commits P input db) :
    (Checkout.checkout P input db).2.1 = db ∧ ∀ body, (Checkout.checkout P input db).1 ≠ .ok ⟨202, body⟩ := by
  rcases checkout_cases P input db with ⟨error, hrefused⟩ | ⟨customerId, key, hcustomer, hkey, hvalid, hprocess⟩
  · rw [hrefused]
    exact ⟨rfl, fun _ => nofun⟩
  · rw [hprocess]
    have hran := process_ran (callOf P customerId key input) input db hfault
    cases hresult : (process (callOf P customerId key input) input db).1 with
    | error error =>
      rw [hresult] at hran
      cases hran with
      | failed _ hsame => exact ⟨hsame, fun _ => nofun⟩
    | ok result =>
      rw [hresult] at hran
      cases hran with
      | replayed hreplayed =>
        refine ⟨hreplayed.unchanged, fun body hbody => ?_⟩
        obtain ⟨_, _, _, rfl⟩ := hreplayed.found
        cases hbody
      | accepted n items haccepted =>
        rw [process_fst input _ hfault] at hresult
        have hthrough := (run_serves haccepted.serves hids _).mp ⟨result, hresult⟩
        exact absurd ⟨customerId, key, hcustomer, hkey, hvalid, haccepted.servable, hthrough⟩ h

end Transaction

/-! ### The whole checkout -/

variable {P : Platform} {input : CheckoutInput} {w w' : World} {choices : List (Nat × Reply)}
  {calls : List ((q : Call) × Except String (Answer q))} {result : Except String CheckoutResult}

def DeleteCall : Call → Prop
  | .deleteCard _ => True
  | _ => False

theorem delete_shop {q : Call} (hq : DeleteCall q) (w : World) (a : Reply) : (perform P w q a).1.shop = w.shop := by
  cases q with
  | deleteCard key => cases a <;> rfl
  | _ => exact hq.elim

/-- Calls whose answers nobody looks at do not change what follows. -/
theorem complete_all_result {α : Type} {qs : List Call} {r s : Except String α}
    (h : complete (perform P) choices (.all qs (.done r)) w = some (calls, s, w')) : s = r := by
  induction choices generalizing qs w calls with
  | nil => cases h
  | cons choice choices ih =>
    obtain ⟨_, hnext⟩ | ⟨q, calls', _, _, hrest⟩ := complete_all h
    · exact (complete_done hnext).2.1
    · exact ih hrest

/-- What is left of an invalidation once its read of the version has returned. -/
def deletions (productIds : List String) (r : CheckoutResult) : Except String (Option Int) → Api CheckoutResult
  | .error e => .done (.error e)
  | .ok row => .all (productIds.map fun id => .deleteCard (productCardKey (readerVersion row) id)) (.done (.ok r))

/-- The invalidation leaves the store alone, and fails exactly if its read of the version
is not answered. -/
theorem invalidate_complete {productIds : List String} {r : CheckoutResult}
    (h : complete (perform P) choices (invalidateAvailability productIds >>= fun _ => pure r) w =
      some (calls, result, w')) :
    w'.shop = w.shop ∧ ∃ i a rest, choices = (i, a) :: rest ∧
      (a = .answered ∧ result = .ok r ∨ a ≠ .answered ∧ ∃ message, result = .error message) := by
  have hprogram : (invalidateAvailability productIds >>= fun _ => pure r) =
      (.await .findCatalogVersion (deletions productIds r) : Api CheckoutResult) :=
    await_congr fun row => by cases row <;> rfl
  rw [hprogram] at h
  obtain ⟨i, a, rest, calls', rfl, rfl, hrest⟩ := complete_await h
  cases a with
  | failed message =>
    obtain ⟨_, rfl, rfl⟩ := complete_done hrest
    exact ⟨rfl, i, _, _, rfl, .inr ⟨Reply.noConfusion, message, rfl⟩⟩
  | lost message =>
    obtain ⟨_, rfl, rfl⟩ := complete_done hrest
    exact ⟨rfl, i, _, _, rfl, .inr ⟨Reply.noConfusion, message, rfl⟩⟩
  | answered =>
    refine ⟨?_, i, _, rest, rfl, .inl ⟨rfl, complete_all_result hrest⟩⟩
    have hdeletes : (Program.all (productIds.map fun id =>
        .deleteCard (productCardKey (readerVersion w.shop.db.catalogVersion) id)) (.done (.ok r)) :
        Api CheckoutResult).OnlyCalls DeleteCall := by
      refine ⟨fun q hq => ?_, trivial⟩
      obtain ⟨id, _, rfl⟩ := List.mem_map.mp hq
      trivial
    exact (complete_onlyCalls (I := fun v => v.shop = w.shop)
      (fun q v a hq hv => (delete_shop hq v a).trans hv) hdeletes rfl hrest).1

/-- The checkout throws what its transaction throws; otherwise the invalidation follows. -/
theorem checkout_complete
    (h : complete (perform P) ((0, .answered) :: choices) (checkout P input) w = some (calls, result, w')) :
    w'.shop = (runTransaction P w input).1.shop ∧
      ((∃ message, (runTransaction P w input).2 = .error message ∧ result = .error message) ∨
        ∃ r, (runTransaction P w input).2 = .ok r ∧ ∃ i a rest, choices = (i, a) :: rest ∧
          (a = .answered ∧ result = .ok r ∨ a ≠ .answered ∧ ∃ message, result = .error message)) := by
  have hprogram : checkout P input = (.await (.checkoutTransaction input) fun
      | .error message => .done (.error message)
      | .ok r => invalidateAvailability (boughtProducts P input.body) >>= fun _ => pure r : Api CheckoutResult) :=
    await_congr fun r => by cases r <;> rfl
  have hperform : perform P w (.checkoutTransaction input) .answered = runTransaction P w input := rfl
  rw [hprogram] at h
  simp only [complete, hperform] at h
  obtain ⟨⟨calls', result', v⟩, hrest, he⟩ := Option.map_eq_some_iff.mp h
  cases he
  rcases hrun : (runTransaction P w input).2 with message | r
  · rw [hrun] at hrest
    cases choices <;> cases hrest <;> exact ⟨rfl, .inl ⟨message, rfl, rfl⟩⟩
  · rw [hrun] at hrest
    obtain ⟨hshop, hresult⟩ := invalidate_complete hrest
    exact ⟨hshop, .inr ⟨r, rfl, hresult⟩⟩

/-- A throw leaves orders, items, inventory, outbox and idempotency rows as they were, and a
202 has added one order, one event and one row. -/
structure Atomic (db db' : Database) (result : Except String CheckoutResult) : Prop where
  thrown : ∀ message, result = .error message →
    db'.orders = db.orders ∧ db'.orderItems = db.orderItems ∧ db'.inventory = db.inventory ∧
      db'.outboxEvents = db.outboxEvents ∧ db'.idempotencyKeys = db.idempotencyKeys
  accepted : ∀ body, result = .ok ⟨202, body⟩ → ∃ order event row,
    db'.orders.rows = db.orders.rows ++ [order] ∧ db'.outboxEvents.rows = db.outboxEvents.rows ++ [event] ∧
      db'.idempotencyKeys.rows = db.idempotencyKeys.rows ++ [row]

theorem Atomic.unchanged {db : Database} {result : Except String CheckoutResult}
    (h : ∀ body, result ≠ .ok ⟨202, body⟩) : Atomic db db result :=
  ⟨fun _ _ => ⟨rfl, rfl, rfl, rfl, rfl⟩, fun body hbody => absurd hbody (h body)⟩

theorem runTransaction_eq (w : World) (input : CheckoutInput) :
    (runTransaction P w input).1.shop.db = (Checkout.checkout P.toPlatform {input with invalidationFault := none} w.shop.db).2.1 ∧
      (runTransaction P w input).2 =
        (Checkout.checkout P.toPlatform {input with invalidationFault := none} w.shop.db).1.mapError (checkoutMessage P) := by
  unfold runTransaction
  rcases Checkout.checkout P.toPlatform {input with invalidationFault := none} w.shop.db with ⟨_ | _, _, _⟩ <;>
    exact ⟨rfl, rfl⟩

/-- A checkout, whatever faults its attempts meet, leaves nothing behind a throw and one of
each behind a 202 exactly when the read that follows its commit is answered, or nothing is
committed. -/
theorem checkout_atomic_iff (P : Platform) (input : CheckoutInput) (w w' : World) (choices : List (Nat × Reply))
    (calls : List ((q : Call) × Except String (Answer q))) (result : Except String CheckoutResult)
    (hids : ∀ n, FreshIds (input.attempts n) w.shop.db)
    (h : complete (perform P) ((0, .answered) :: choices) (checkout P input) w = some (calls, result, w')) :
    Atomic w.shop.db w'.shop.db result ↔
      (∀ choice ∈ choices.head?, choice.2 = .answered) ∨ ¬Commits P.toPlatform input w.shop.db := by
  obtain ⟨hshop, hends⟩ := checkout_complete h
  obtain ⟨hdb, hresult⟩ := runTransaction_eq (P := P) w input
  rw [hshop, hdb]
  rw [hresult] at hends
  by_cases hcommits : Commits P.toPlatform {input with invalidationFault := none} w.shop.db
  · have hcommits' : Commits P.toPlatform input w.shop.db := hcommits
    obtain ⟨customerId, key, n, items, r, hr, haccepted⟩ :=
      accepted_of_commits {input with invalidationFault := none} rfl hids hcommits
    rw [hr] at hends
    obtain ⟨_, hrows⟩ := Table.insert?_eq_some haccepted.order
    rcases hends with ⟨_, hthrow, _⟩ | ⟨r', hok, i, a, rest, rfl, hend⟩
    · cases hthrow
    · simp only [List.head?_cons, Option.mem_def, Option.some.injEq, forall_eq', hcommits', not_true, or_false]
      rcases hend with ⟨hanswered, rfl⟩ | ⟨hlost, message, rfl⟩
      · refine ⟨fun _ => hanswered, fun _ => ⟨nofun, fun _ _ => ?_⟩⟩
        exact ⟨_, _, _, hrows, (Table.insert?_eq_some haccepted.event).2, (Table.insert?_eq_some haccepted.key).2⟩
      · refine ⟨fun hatomic => ?_, fun hanswered => absurd hanswered hlost⟩
        have horders := (hatomic.thrown message rfl).1
        rw [horders] at hrows
        simp at hrows
  · have hcommits' : ¬Commits P.toPlatform input w.shop.db := hcommits
    obtain ⟨hsame, hno202⟩ := unchanged_of_not_commits {input with invalidationFault := none} rfl hids hcommits
    rw [hsame]
    refine ⟨fun _ => .inr hcommits', fun _ => Atomic.unchanged fun body hbody => ?_⟩
    rcases hends with ⟨message, _, rfl⟩ | ⟨r', hok, i, a, rest, rfl, hend⟩
    · cases hbody
    · rcases hend with ⟨_, rfl⟩ | ⟨_, message, rfl⟩
      · cases hbody
        cases hr : (Checkout.checkout P.toPlatform {input with invalidationFault := none} w.shop.db).1 with
        | error error =>
          rw [hr] at hok
          cases hok
        | ok r =>
          rw [hr] at hok
          cases hok
          exact hno202 body hr
      · cases hbody

/-- A store with three cases in stock and nothing cached. -/
def threeCases : World := .opening {Shop.World.fresh [] with db := oneCase 3}

theorem casesOrder_fresh (quantities : List Nat) : ∀ n, FreshIds ((casesOrder quantities).attempts n) threeCases.shop.db :=
  fun _ => ⟨rfl, rfl, nofun⟩

/-- The order is committed, and then the version cannot be read. -/
theorem checkout_throws_committed :
    ¬∀ (P : Products.Platform) (input : CheckoutInput) (w w' : World) (choices : List (Nat × Reply))
      (calls : List ((q : Call) × Except String (Answer q))) (result : Except String CheckoutResult),
      (∀ n, FreshIds (input.attempts n) w.shop.db) →
      complete (perform P) ((0, .answered) :: choices) (checkout P input) w = some (calls, result, w') →
      Atomic w.shop.db w'.shop.db result := by
  intro h
  obtain ⟨⟨calls, result, w'⟩, hrun⟩ := Option.isSome_iff_exists.mp (show (complete (perform plainLibraries)
    [(0, .answered), (0, .failed "timeout")] (checkout plainLibraries (casesOrder [1])) threeCases).isSome by
      decide +kernel)
  have hatomic := h plainLibraries (casesOrder [1]) threeCases w' [(0, .failed "timeout")] calls result
    (casesOrder_fresh [1]) hrun
  have hcommitted : (complete (perform plainLibraries)
      [(0, .answered), (0, .failed "timeout")] (checkout plainLibraries (casesOrder [1])) threeCases).all
        (fun run => !run.2.1.isOk && run.2.2.shop.db.orders.rows.length = 1) = true := by decide +kernel
  rw [hrun] at hcommitted
  simp only [Option.all_some, Bool.and_eq_true, decide_eq_true_eq] at hcommitted
  obtain ⟨hthrown, hlength⟩ := hcommitted
  cases result with
  | ok r => cases hthrown
  | error message =>
    have horders := (hatomic.thrown message rfl).1
    rw [horders] at hlength
    cases hlength

/-- The first attempt conflicts at its fourth statement, the second gets through, the
version is read and the card's delete fails. -/
def retriedOrder : CheckoutInput :=
  {casesOrder [1] with attempts := fun n => ⟨"o1", "e1", if n = 0 then [none, none, none, some .p2034] else []⟩}

theorem checkout_atomic_retried : ∃ calls result w',
    complete (perform plainLibraries) [(0, .answered), (0, .answered), (0, .failed "timeout"), (0, .answered)]
      (checkout plainLibraries retriedOrder) threeCases = some (calls, result, w') ∧
    Atomic threeCases.shop.db w'.shop.db result := by
  obtain ⟨⟨calls, result, w'⟩, hrun⟩ := Option.isSome_iff_exists.mp (show (complete (perform plainLibraries)
    [(0, .answered), (0, .answered), (0, .failed "timeout"), (0, .answered)]
      (checkout plainLibraries retriedOrder) threeCases).isSome by decide +kernel)
  refine ⟨calls, result, w', hrun, ?_⟩
  refine (checkout_atomic_iff plainLibraries retriedOrder threeCases w' _ calls result ?_ hrun).mpr (.inl ?_)
  · exact fun n => ⟨rfl, rfl, nofun⟩
  · rintro choice hchoice
    cases hchoice
    rfl

end CaseCellShop.Storefront
