import CaseCellShop.Checkout.Failures
import CaseCellShop.Shop.System

/-! Idempotent replay: a stored response is re-delivered unchanged for ever.

The idempotency row of an accepted checkout is never touched again, and the replay
decision reads nothing else. -/
namespace CaseCellShop.Checkout
open Script

/-! ### A call on a stored row -/

/-- Without faults the transaction comes to its reading of the idempotency row, and does
what that row says. -/
theorem checkoutTransaction_existing (call : CheckoutCall) (attempt : Attempt) {tx : Tx}
    (h : tx.faults = []) :
    (∀ orderId response, checkExisting call.requestHash
        (tx.snapshot.idempotencyKeys.find? (call.customerId, call.idempotencyKey)) = .replay orderId response →
      checkoutTransaction call attempt tx = replay orderId response tx) ∧
    ∀ message, checkExisting call.requestHash
        (tx.snapshot.idempotencyKeys.find? (call.customerId, call.idempotencyKey)) = .refuse message →
      checkoutTransaction call attempt tx = (.error (.conflict message), tx) := by
  unfold checkoutTransaction
  rw [bind_of_ok (acquireLocks_succeeds _ h), bind_of_ok (statement_succeeds h), get_bind]
  refine ⟨?_, ?_⟩
  · intro orderId response hreplay
    rw [hreplay]
  · intro message hrefuse
    rw [hrefuse]
    rfl

theorem transact_replay (call : CheckoutCall) (attempt : Attempt) {tx : Tx} (h : tx.faults = [])
    {orderId : Option String} {response : CheckoutAcceptedResponse}
    (hreplay : checkExisting call.requestHash
      (tx.snapshot.idempotencyKeys.find? (call.customerId, call.idempotencyKey)) = .replay orderId response) :
    ∃ tx', transact call attempt tx = (.ok ⟨200, response⟩, tx') ∧ tx'.db = tx.db := by
  have htx := (checkoutTransaction_existing call attempt h).1 orderId response hreplay
  obtain ⟨tx₁, h₁, hdb, hrest⟩ : ∃ tx₁, replay orderId response tx = (.ok ⟨200, response⟩, tx₁) ∧
      tx₁.db = tx.db ∧ tx₁.faults = tx.faults := ⟨_, rfl, rfl, rfl⟩
  unfold transact
  rw [bind_of_ok (htx.trans h₁), bind_of_ok (statement_succeeds (hrest.trans h))]
  exact ⟨tx₁, rfl, hdb⟩

theorem transact_refuse (call : CheckoutCall) (attempt : Attempt) {tx : Tx} (h : tx.faults = [])
    {message : String} (hrefuse : checkExisting call.requestHash
      (tx.snapshot.idempotencyKeys.find? (call.customerId, call.idempotencyKey)) = .refuse message) :
    transact call attempt tx = (.error (.conflict message), tx) := by
  unfold transact
  exact bind_of_error ((checkoutTransaction_existing call attempt h).2 message hrefuse) _

/-- A call on the row of an accepted checkout: the same payload is answered with the
stored response, another one is a conflict, and neither writes. -/
theorem process_stored (call : CheckoutCall) (input : CheckoutInput) {db : Database}
    {row : IdempotencyKey} {response : CheckoutAcceptedResponse}
    (hrow : db.idempotencyKeys.find? (call.customerId, call.idempotencyKey) = some row)
    (hstatus : row.status = .completed) (hbody : row.responseBody = some response)
    (hfaults : (input.attempts 0).faults = []) (hinvalidation : input.invalidationFault = none) :
    (row.requestHash = call.requestHash → (process call input db).1 = .ok ⟨200, response⟩) ∧
      (row.requestHash ≠ call.requestHash → ∃ message, (process call input db).1 = .error (.conflict message)) ∧
      (process call input db).2.1 = db := by
  unfold process runCheckoutTransactionWithRetry
  have hstart : (Tx.start db {checkoutStarted := 1} (input.attempts 0).faults).faults = [] := hfaults
  by_cases hhash : row.requestHash = call.requestHash
  · have hexisting : checkExisting call.requestHash
        (db.idempotencyKeys.find? (call.customerId, call.idempotencyKey)) = .replay row.orderId response := by
      rw [hrow]
      simp only [checkExisting, hhash, ne_eq, not_true_eq_false, if_false, hstatus, hbody]
    obtain ⟨tx', htx, hdb⟩ := transact_replay call (input.attempts 0) hstart hexisting
    unfold retryFrom
    rw [htx, hinvalidation]
    exact ⟨fun _ => rfl, fun hne => absurd hhash hne, hdb⟩
  · have hexisting : checkExisting call.requestHash
        (db.idempotencyKeys.find? (call.customerId, call.idempotencyKey)) =
        .refuse "Idempotency key reused with different payload" := by
      rw [hrow]
      simp only [checkExisting, ne_eq, hhash, not_false_eq_true, if_true]
    have htx := transact_refuse call (input.attempts 0) hstart hexisting
    unfold retryFrom
    rw [htx]
    exact ⟨fun heq => absurd heq hhash, fun _ => ⟨_, rfl⟩, rfl⟩

end CaseCellShop.Checkout

namespace CaseCellShop.Shop
open Checkout

/-! ### The row is never touched again -/

theorem write_keeps_key {db db' : Database} (hw : Write db db') {k : String × String} {row : IdempotencyKey}
    (h : db.idempotencyKeys.find? k = some row) : db'.idempotencyKeys.find? k = some row := by
  cases hw with
  | accepted _ ha => exact Table.find?_insert ha.key h
  | synced hs =>
    rw [hs.others]
    exact h
  | _ => exact h

/-- Once a checkout has answered 202, every later call of the same customer under the
same key is answered from its row: with the same response for the same normalized body,
with a conflict for another, and without a write. -/
theorem replay_for_ever (P : Platform) (hsha : Function.Injective P.sha256) (c₀ c₁ c₂ : Config)
    (input again : CheckoutInput) (response : CheckoutAcceptedResponse) (actions : List Action)
    (haccepted : (checkout P input c₀.world.db).1 = .ok ⟨202, response⟩)
    (hstep : (machine P).system.step c₀ (.environment (.checkout input)) = some c₁)
    (hrun : (machine P).system.run c₁ actions = some c₂)
    (hcustomer : again.customerId = input.customerId) (hkey : again.idempotencyKey = input.idempotencyKey)
    (hvalid : validateRequest again.body = .ok ()) (hfaults : (again.attempts 0).faults = [])
    (hinvalidation : again.invalidationFault = none) :
    (normalizeRequest P again.body = normalizeRequest P input.body →
      (checkout P again c₂.world.db).1 = .ok ⟨200, response⟩) ∧
    (normalizeRequest P again.body ≠ normalizeRequest P input.body →
      ∃ message, (checkout P again c₂.world.db).1 = .error (.conflict message)) ∧
    (checkout P again c₂.world.db).2.1 = c₂.world.db := by
  obtain ⟨customerId, key, hc, hk, _, n, items, hacc⟩ := checkout_accepted haccepted
  let row := completedKey (callOf P customerId key input)
    (newOrder (callOf P customerId key input) (input.attempts n).orderId items)
  have hfound : c₁.world.db.idempotencyKeys.find? (customerId, key) = some row := by
    cases hstep
    exact Table.find?_inserted hacc.key
  have hlater : c₂.world.db.idempotencyKeys.find? (customerId, key) = some row :=
    (kept_of_write (P := P) (fun _ _ hw h => write_keeps_key hw h) .any).run_any hfound hrun
  have hresponse : row.responseBody = some response :=
    congrArg (fun r : CheckoutResult => some r.body) hacc.response.symm
  have hcheckout : checkout P again c₂.world.db =
      process (callOf P customerId key again) again c₂.world.db := by
    rw [← hcustomer] at hc
    rw [← hkey] at hk
    exact checkout_of_valid hc hk hvalid _
  rw [hcheckout]
  obtain ⟨hsame, hother, hdb⟩ := process_stored (callOf P customerId key again) again hlater rfl
    hresponse hfaults hinvalidation
  have hhash : row.requestHash = (callOf P customerId key again).requestHash ↔
      normalizeRequest P again.body = normalizeRequest P input.body :=
    (hashRequest_inj hsha).trans eq_comm
  exact ⟨fun h => hsame (hhash.mpr h), fun h => hother fun he => h (hhash.mp he), hdb⟩

/-- `firstOrder` again, its lines the other way round. -/
def sameOrder : CheckoutInput := orderRequest "c1" "k" "o2" [⟨"p1", 2⟩, ⟨"p2", 1⟩]

/-- One of the ordered products is withdrawn, the other gets dearer. -/
def catalogChange : List Action := .environment (.setCatalog [listed "p1" 900 2]) :: wholeSync 1 1

theorem replay_for_ever_withdrawn : ∃ c₁ c₂,
    (machine plainPlatform).system.step (after (.idle twoProducts) (wholeSync 0 2))
      (.environment (.checkout firstOrder)) = some c₁ ∧
    (machine plainPlatform).system.run c₁ catalogChange = some c₂ ∧
    (checkout plainPlatform sameOrder c₂.world.db).1 = .ok ⟨200, ⟨"o1", .pendingErp, 1700, "BRL"⟩⟩ :=
  have hrun := run_after _ catalogChange (by decide +kernel)
  ⟨_, _, rfl, hrun, (replay_for_ever plainPlatform plainPlatform_sha256
    (after (.idle twoProducts) (wholeSync 0 2)) _ _ firstOrder sameOrder ⟨"o1", .pendingErp, 1700, "BRL"⟩
    catalogChange (by decide +kernel) rfl hrun rfl rfl (by decide) rfl rfl).1 (by decide)⟩

end CaseCellShop.Shop
