import CaseCellShop.Checkout.Effects

/-! One checkout call, from the request to the response
(`CheckoutService.checkout`, `runCheckoutTransactionWithRetry`).

A failed attempt is rolled back entirely: the store stays the one the attempt started
from, while the telemetry keeps what the callback did. -/
namespace CaseCellShop.Checkout

/-- What a call is made with, and what it meets on the way: the ids and faults of its
attempts, a fault of the catalog version read that follows the commit, and whether the
service has a `TraceService`. -/
structure CheckoutInput where
  customerId : Option String
  idempotencyKey : Option String
  body : CheckoutRequest
  context : RequestContext
  attempts : Nat → Attempt
  invalidationFault : Option DbError
  traced : Bool

/-- A header that is absent or empty is falsy. -/
def header : Option String → Option String
  | none => none
  | some value => if value = "" then none else some value

def checkoutRetryAttempts : Nat := 4

def isRetryableTransactionError : CheckoutError → Bool
  | .database .p2034 => true
  | _ => false

/-- The retry loop from attempt number `attempt` on, with `left` retries left. -/
def retryFrom (call : CheckoutCall) (attempts : Nat → Attempt) (db : Database) :
    Nat → Nat → Telemetry → Except CheckoutError CheckoutResult × Database × Telemetry
  | left, attempt, telemetry =>
    match transact call (attempts attempt) (.start db telemetry (attempts attempt).faults) with
    | (.ok result, tx) => (.ok result, tx.db, tx.telemetry)
    | (.error error, tx) =>
      match left with
      | 0 => (.error error, db, tx.telemetry)
      | left + 1 =>
        if isRetryableTransactionError error then
          retryFrom call attempts db left (attempt + 1) tx.telemetry
        else (.error error, db, tx.telemetry)

def runCheckoutTransactionWithRetry (call : CheckoutCall) (attempts : Nat → Attempt) (db : Database)
    (telemetry : Telemetry) : Except CheckoutError CheckoutResult × Database × Telemetry :=
  retryFrom call attempts db (checkoutRetryAttempts - 1) 0 telemetry

/-- The call that passed validation. -/
def callOf (P : Platform) (customerId idempotencyKey : String) (input : CheckoutInput) : CheckoutCall where
  customerId := customerId
  idempotencyKey := idempotencyKey
  lines := normalizeRequest P input.body
  requestHash := hashRequest P (normalizeRequest P input.body)
  context := input.context

/-- What the request's own context keeps. With a `TraceService` the transaction runs under
the span `checkout.process`, in a copy of that context, and what `setOrderId` writes to
the copy is gone with the span. -/
def leaveSpan (traced : Bool) (telemetry : Telemetry) : Telemetry :=
  if traced then {telemetry with orderId := none} else telemetry

/-- The `finally` block. -/
def observed (telemetry : Telemetry) : Telemetry :=
  {telemetry with checkoutDuration := telemetry.checkoutDuration ++ [telemetry.outcome]}

/-- The `try` block: the transaction, then the invalidation of the bought products'
cards, which starts with a read of the catalog version. -/
def process (call : CheckoutCall) (input : CheckoutInput) (db : Database) :
    Except CheckoutError CheckoutResult × Database × Telemetry :=
  match runCheckoutTransactionWithRetry call input.attempts db {checkoutStarted := 1} with
  | (.error error, db', telemetry) => (.error error, db', observed (leaveSpan input.traced telemetry))
  | (.ok result, db', telemetry) =>
    match input.invalidationFault with
    | some error => (.error (.database error), db', observed (leaveSpan input.traced telemetry))
    | none => (.ok result, db', observed (leaveSpan input.traced telemetry))

def checkout (P : Platform) (input : CheckoutInput) (db : Database) :
    Except CheckoutError CheckoutResult × Database × Telemetry :=
  match header input.customerId, header input.idempotencyKey with
  | none, _ => (.error (.badRequest "Missing X-Customer-Id header"), db, {})
  | some _, none => (.error (.badRequest "Missing Idempotency-Key header"), db, {})
  | some customerId, some idempotencyKey =>
    match validateRequest input.body with
    | .error error => (.error error, db, {})
    | .ok () => process (callOf P customerId idempotencyKey input) input db

/-- A request that passes validation is processed. -/
theorem checkout_of_valid {P : Platform} {input : CheckoutInput} {customerId key : String}
    (hcustomer : header input.customerId = some customerId) (hkey : header input.idempotencyKey = some key)
    (hvalid : validateRequest input.body = .ok ()) (db : Database) :
    checkout P input db = process (callOf P customerId key input) input db := by
  unfold checkout
  rw [hcustomer, hkey]
  dsimp only
  rw [hvalid]

/-- A request is refused before anything is done, or it is processed. -/
theorem checkout_cases (P : Platform) (input : CheckoutInput) (db : Database) :
    (∃ error, checkout P input db = (.error error, db, {})) ∨
      ∃ customerId key, header input.customerId = some customerId ∧ header input.idempotencyKey = some key ∧
        validateRequest input.body = .ok () ∧
        checkout P input db = process (callOf P customerId key input) input db := by
  cases hcustomer : header input.customerId with
  | none => exact .inl ⟨_, by rw [checkout, hcustomer]⟩
  | some customerId =>
    cases hkey : header input.idempotencyKey with
    | none => exact .inl ⟨_, by rw [checkout, hcustomer, hkey]⟩
    | some key =>
      cases hvalid : validateRequest input.body with
      | error error =>
        refine .inl ⟨error, ?_⟩
        rw [checkout, hcustomer, hkey]
        dsimp only
        rw [hvalid]
      | ok u => exact .inr ⟨customerId, key, rfl, rfl, rfl, checkout_of_valid hcustomer hkey hvalid db⟩

/-- Without a fault after the commit the call ends as its transaction does. -/
theorem process_eq (call : CheckoutCall) {input : CheckoutInput} (hfault : input.invalidationFault = none)
    (db : Database) :
    process call input db =
      ((runCheckoutTransactionWithRetry call input.attempts db {checkoutStarted := 1}).1,
        (runCheckoutTransactionWithRetry call input.attempts db {checkoutStarted := 1}).2.1,
        observed (leaveSpan input.traced
          (runCheckoutTransactionWithRetry call input.attempts db {checkoutStarted := 1}).2.2)) := by
  unfold process
  rw [hfault]
  rcases runCheckoutTransactionWithRetry call input.attempts db {checkoutStarted := 1} with ⟨_ | _, _, _⟩ <;> rfl

/-! ### What a call can do -/

/-- The three ways the transaction and its retries end. -/
inductive Ran (call : CheckoutCall) (attempts : Nat → Attempt) (db : Database) :
    Except CheckoutError CheckoutResult → Database → Prop
  | replayed {result db'} (h : Replayed call db db db' result) : Ran call attempts db (.ok result) db'
  | accepted {result db'} (n : Nat) (items : List PricedItem)
      (h : Accepted call (attempts n) db db db' result items) : Ran call attempts db (.ok result) db'
  | failed {db'} (error : CheckoutError) (h : db' = db) : Ran call attempts db (.error error) db'

/-- An attempt that commits ends the retries. -/
theorem Ran.committed {call : CheckoutCall} {attempts : Nat → Attempt} {db : Database} {attempt : Nat}
    {telemetry : Telemetry} {result : CheckoutResult} {tx : Tx}
    (h : transact call (attempts attempt) (.start db telemetry (attempts attempt).faults) = (.ok result, tx)) :
    Ran call attempts db (.ok result) tx.db := by
  rcases transact_ok h with hr | ⟨items, ha⟩
  · exact .replayed hr
  · exact .accepted attempt items ha

theorem retryFrom_ran (call : CheckoutCall) (attempts : Nat → Attempt) (db : Database)
    (left attempt : Nat) (telemetry : Telemetry) :
    Ran call attempts db (retryFrom call attempts db left attempt telemetry).1
      (retryFrom call attempts db left attempt telemetry).2.1 := by
  induction left generalizing attempt telemetry with
  | zero =>
    unfold retryFrom
    split
    · rename_i result tx h
      exact .committed h
    · exact .failed _ rfl
  | succ left ih =>
    unfold retryFrom
    split
    · rename_i result tx h
      exact .committed h
    · dsimp only
      split
      · exact ih _ _
      · exact .failed _ rfl

theorem run_ran (call : CheckoutCall) (attempts : Nat → Attempt) (db : Database) (telemetry : Telemetry)
    {result : Except CheckoutError CheckoutResult} {db' : Database} {telemetry' : Telemetry}
    (h : runCheckoutTransactionWithRetry call attempts db telemetry = (result, db', telemetry')) :
    Ran call attempts db result db' := by
  have hran := retryFrom_ran call attempts db (checkoutRetryAttempts - 1) 0 telemetry
  unfold runCheckoutTransactionWithRetry at h
  rw [h] at hran
  exact hran

/-- What is returned is what the transaction returned, and the store is what it left. -/
theorem process_cases (call : CheckoutCall) (input : CheckoutInput) (db : Database) :
    ∃ result, Ran call input.attempts db result (process call input db).2.1 ∧
      ∀ r, (process call input db).1 = .ok r → result = .ok r := by
  unfold process
  rcases h : runCheckoutTransactionWithRetry call input.attempts db {checkoutStarted := 1} with
    ⟨result, db', telemetry⟩
  have hran := run_ran call input.attempts db _ h
  refine ⟨result, ?_, ?_⟩
  · cases result with
    | error error => exact hran
    | ok result =>
      dsimp only
      cases input.invalidationFault <;> exact hran
  · intro r hr
    cases result with
    | error error => cases hr
    | ok result =>
      dsimp only at hr
      cases hf : input.invalidationFault with
      | none =>
        rw [hf] at hr
        exact hr
      | some error =>
        rw [hf] at hr
        cases hr

theorem process_ran (call : CheckoutCall) (input : CheckoutInput) (db : Database)
    (hfault : input.invalidationFault = none) :
    Ran call input.attempts db (process call input db).1 (process call input db).2.1 := by
  rw [process_eq call hfault]
  exact run_ran call input.attempts db {checkoutStarted := 1} rfl

/-- Such a call throws and changes nothing, or returns and has at most accepted an order. -/
theorem checkout_ends (P : Platform) (input : CheckoutInput) (db : Database)
    (hfault : input.invalidationFault = none) :
    (∃ error, (checkout P input db).1 = .error error ∧ (checkout P input db).2.1 = db) ∨
      ∃ result, (checkout P input db).1 = .ok result ∧ ((checkout P input db).2.1 = db ∨
        ∃ customerId key n items, Accepted (callOf P customerId key input) (input.attempts n) db db
          (checkout P input db).2.1 result items) := by
  rcases checkout_cases P input db with ⟨error, hrefused⟩ | ⟨customerId, key, _, _, _, hprocess⟩
  · rw [hrefused]
    exact .inl ⟨error, rfl, rfl⟩
  · rw [hprocess]
    have hran := process_ran (callOf P customerId key input) input db hfault
    generalize (process (callOf P customerId key input) input db).1 = result at hran
    cases hran with
    | replayed h => exact .inr ⟨_, rfl, .inl h.unchanged⟩
    | accepted n items h => exact .inr ⟨_, rfl, .inr ⟨customerId, key, n, items, h⟩⟩
    | failed error h => exact .inl ⟨error, rfl, h⟩

/-- A checkout changes the store only by accepting an order of a valid request. -/
theorem checkout_db (P : Platform) (input : CheckoutInput) (db : Database) :
    (checkout P input db).2.1 = db ∨
      ∃ customerId key n items result, validateRequest input.body = .ok () ∧
        Accepted (callOf P customerId key input) (input.attempts n) db db
          (checkout P input db).2.1 result items := by
  rcases checkout_cases P input db with ⟨error, hrefused⟩ | ⟨customerId, key, _, _, hvalid, hprocess⟩
  · exact .inl (by rw [hrefused])
  · rw [hprocess]
    obtain ⟨result, hran, _⟩ := process_cases (callOf P customerId key input) input db
    cases hran with
    | replayed h => exact .inl h.unchanged
    | accepted n items h => exact .inr ⟨customerId, key, n, items, _, hvalid, h⟩
    | failed _ h => exact .inl h

/-- A 202 is an accepted order, and its body is the stored response. -/
theorem checkout_accepted {P : Platform} {input : CheckoutInput} {db : Database}
    {body : CheckoutAcceptedResponse} (h : (checkout P input db).1 = .ok ⟨202, body⟩) :
    ∃ customerId key, header input.customerId = some customerId ∧
      header input.idempotencyKey = some key ∧ validateRequest input.body = .ok () ∧
      ∃ n items, Accepted (callOf P customerId key input) (input.attempts n) db db
        (checkout P input db).2.1 ⟨202, body⟩ items := by
  rcases checkout_cases P input db with ⟨error, hrefused⟩ | ⟨customerId, key, hcustomer, hkey, hvalid, hprocess⟩
  · rw [hrefused] at h
    cases h
  · rw [hprocess] at h ⊢
    obtain ⟨result, hran, hresult⟩ := process_cases (callOf P customerId key input) input db
    have hr := hresult _ h
    subst hr
    refine ⟨customerId, key, hcustomer, hkey, hvalid, ?_⟩
    cases hran with
    | replayed hreplayed =>
      obtain ⟨_, _, _, he⟩ := hreplayed.found
      cases he
    | accepted n items haccepted => exact ⟨n, items, haccepted⟩

end CaseCellShop.Checkout
