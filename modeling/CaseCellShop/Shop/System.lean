import CaseCellShop.Checkout.Service
import CaseCellShop.Library.Interleave
import CaseCellShop.Workers.Billing
import CaseCellShop.Workers.Outbox
import CaseCellShop.Workers.Reconciliation

/-! The whole back office as one machine.

Any number of syncs, reconciliations, outbox cycles and billing handlers run at the
same time, one call at a time. A checkout is one event, since its transaction commits
entirely or not at all. Everything else that moves is an event too: the clock, the
switches and the catalog of the fake ERP, and the broker. -/
namespace CaseCellShop.Shop
open Catalog Checkout

inductive Task where
  | syncCatalog
  | reconcileOrders
  | publishPending
  /-- The handler of a message of `orders.billing.q`, the `i`th; it holds the message
  until it is done. -/
  | consume (i : Nat) (delivery : Queue.Delivery)
  deriving DecidableEq, Repr

inductive Event where
  | checkout (input : CheckoutInput)
  | tick (clock : Clock)
  | setCatalog (products : List ErpCatalogProduct)
  | enableBillingFailure (orderId : String)
  | clearBillingFailure (orderId : String)
  | expireRetry (i : Nat)
  | duplicate (i : Nat)

/-- A worker whose result nobody reads. -/
def ignored {α : Type} (worker : Worker α) : Worker Unit := do
  let _ ← worker

def onStart (w : World) : Task → Option (World × Worker Unit)
  | .syncCatalog => some (w, ignored Reconciliation.syncCatalog)
  | .reconcileOrders => some (w, ignored Reconciliation.reconcileOrders)
  | .publishPending => some (w, Outbox.publishPending)
  | .consume i delivery =>
    (w.broker.deliver i delivery).map fun broker => ({w with broker := broker}, Billing.consume delivery)

/-- What was not acknowledged is delivered again. -/
def onCrash (w : World) : Task → World
  | .consume _ delivery => {w with broker := w.broker.requeue delivery}
  | _ => w

variable (P : Platform)

def onEvent (w : World) : Event → Option World
  | .checkout input => some {w with db := (Checkout.checkout P input w.db).2.1}
  | .tick clock => some {w with clock := clock}
  | .setCatalog products => some {w with erp := w.erp.setCatalog products}
  | .enableBillingFailure orderId => some {w with erp := w.erp.enableBillingFailure orderId}
  | .clearBillingFailure orderId => some {w with erp := w.erp.clearBillingFailure orderId}
  | .expireRetry i => (w.broker.expire i).map fun broker => {w with broker := broker}
  | .duplicate i => (w.broker.duplicate i).map fun broker => {w with broker := broker}

def machine : Machine World Task Reply Event Call String Answer where
  perform := perform P
  start := onStart
  crash := onCrash
  environment := onEvent P

abbrev Config := Machine.Config World Task Call String Answer

abbrev Action := Machine.Action Task Reply Event

abbrev Discipline := Machine.Discipline World Task Reply Event Call

/-! ### Writes to the store -/

/-- Everything one action can do to the store. -/
inductive Write : Database → Database → Prop
  | nothing {db} : Write db db
  | accepted {db db'} {call : CheckoutCall} {attempt : Attempt} {result : CheckoutResult}
      {items : List PricedItem} (positive : ∀ line ∈ call.lines, 0 < line.quantity)
      (h : Accepted call attempt db db db' result items) : Write db db'
  | synced {db db'} {clock : Clock} {current : Option Inventory} {product : ErpCatalogProduct}
      (h : Synced clock current product db db') : Write db db'
  | deactivated {db} (now : Nat) (activeIds : List String) :
      Write db (deactivateAbsent now activeIds db)
  | bumped {db} (version : Int) : Write db {db with catalogVersion := some version}
  | billed {db} (id invoiceId : String) :
      Write db {db with orders := db.orders.update id (Order.billed invoiceId) fun _ => rfl}
  | erpFailed {db} (id reason : String) :
      Write db {db with orders := db.orders.update id (Order.erpFailed reason) fun _ => rfl}
  | attempted {db} (attempts : Table IntegrationAttempt.number) :
      Write db {db with integrationAttempts := attempts}
  | published {db} (id : String) :
      Write db {db with outboxEvents := db.outboxEvents.update id OutboxEvent.markPublished fun _ => rfl}
  | eventFailed {db} (id lastError : String) :
      Write db {db with outboxEvents :=
        db.outboxEvents.update id (OutboxEvent.markFailed lastError) fun _ => rfl}

variable {P}

/-! ### What one call does -/

/-- A call that takes effect on the world `w`. -/
inductive Executed (w : World) : Call → World → Prop
  | nothing (q : Call) : Executed w q w
  | synced {current : Option Inventory} {product : ErpCatalogProduct} {db : Database}
      (h : Synced w.clock current product w.db db) : Executed w (.syncProduct current product) {w with db := db}
  | deactivated (activeIds : List String) :
      Executed w (.deactivateAbsent activeIds) {w with db := deactivateAbsent w.clock.now activeIds w.db}
  | bumped (version : Int) :
      Executed w .bumpCatalogVersion {w with db := {w.db with catalogVersion := some version}}
  | billedByErp (orderId billingKey : String) :
      Executed w (.billOrder orderId billingKey)
        {w with erp := (w.erp.billOrder w.clock.now orderId billingKey).1}
  | billed (id invoiceId : String) :
      Executed w (.markBilled id invoiceId)
        {w with db := {w.db with orders := w.db.orders.update id (Order.billed invoiceId) fun _ => rfl}}
  | erpFailed (id reason : String) :
      Executed w (.markErpFailed id reason)
        {w with db := {w.db with orders := w.db.orders.update id (Order.erpFailed reason) fun _ => rfl}}
  | attempted (attempt : IntegrationAttempt) (attempts : Table IntegrationAttempt.number) :
      Executed w (.createIntegrationAttempt attempt)
        {w with db := {w.db with integrationAttempts := attempts}}
  | marked (id : String) :
      Executed w (.markPublished id)
        {w with db := {w.db with outboxEvents :=
          w.db.outboxEvents.update id OutboxEvent.markPublished fun _ => rfl}}
  | eventFailed (id lastError : String) :
      Executed w (.markEventFailed id lastError)
        {w with db := {w.db with outboxEvents :=
          w.db.outboxEvents.update id (OutboxEvent.markFailed lastError) fun _ => rfl}}
  | sentToRetry (d : Queue.Delivery) :
      Executed w (.publishToRetry d) {w with broker := w.broker.publishToRetry d}
  | sentToDlq (d : Queue.Delivery) :
      Executed w (.publishToDlq d) {w with broker := w.broker.publishToDlq d}
  | published (d : Queue.Delivery) : Executed w (.publish d) {w with broker := w.broker.publish d}
  | returned (d : Queue.Delivery) : Executed w (.nack d) {w with broker := w.broker.requeue d}

theorem executed_write {w : World} {q : Call} {r : Except DbError Database}
    (h : ∀ db, r = .ok db → Executed w q {w with db := db}) : Executed w q (w.write P r).1 := by
  cases r with
  | error e => exact .nothing q
  | ok db => exact h db rfl

theorem executed_updateOrder {w : World} {q : Call} {id : String} {f : Order → Order}
    {hf : ∀ o, (f o).id = o.id}
    (h : Executed w q {w with db := {w.db with orders := w.db.orders.update id f hf}}) :
    Executed w q (w.updateOrder P id f hf).1 := by
  unfold World.updateOrder
  split
  · rename_i order db hupdate
    rw [(updateOrder_ok hupdate).2]
    exact h
  · exact .nothing q

theorem execute_executed (w : World) (q : Call) : Executed w q (execute P w q).1 := by
  cases q with
  | syncProduct current product => exact executed_write fun db h => .synced (syncProduct_ok h)
  | deactivateAbsent activeIds => exact .deactivated activeIds
  | bumpCatalogVersion =>
    simp only [execute]
    split
    · rename_i db h
      obtain ⟨_, _, hdb⟩ := bind_ok.mp h
      cases hdb
      exact .bumped _
    · exact .nothing _
  | billOrder orderId billingKey =>
    have hbilled := Executed.billedByErp (w := w) orderId billingKey
    show Executed w _ (clientBillOrder w orderId billingKey).1
    unfold clientBillOrder
    split <;> rename_i herp <;> rw [herp] at hbilled <;> exact hbilled
  | markBilled orderId invoiceId => exact executed_updateOrder (.billed orderId invoiceId)
  | markErpFailed orderId reason => exact executed_updateOrder (.erpFailed orderId reason)
  | createIntegrationAttempt attempt =>
    refine executed_write fun db h => ?_
    obtain ⟨attempts, _, rfl⟩ := createIntegrationAttempt_ok h
    exact .attempted attempt attempts
  | markPublished eventId =>
    refine executed_write fun db h => ?_
    rw [updateOutboxEvent_ok h]
    exact .marked eventId
  | markEventFailed eventId lastError =>
    refine executed_write fun db h => ?_
    rw [updateOutboxEvent_ok h]
    exact .eventFailed eventId lastError
  | publishToRetry d => exact .sentToRetry d
  | publishToDlq d => exact .sentToDlq d
  | publish d => exact .published d
  | nack d => exact .returned d
  | _ => exact .nothing _

theorem Executed.write {w w' : World} {q : Call} (h : Executed w q w') : Write w.db w'.db := by
  cases h with
  | synced hs => exact .synced hs
  | deactivated activeIds => exact .deactivated _ activeIds
  | bumped version => exact .bumped version
  | billed id invoiceId => exact .billed id invoiceId
  | erpFailed id reason => exact .erpFailed id reason
  | attempted attempt attempts => exact .attempted attempts
  | marked id => exact .published id
  | eventFailed id lastError => exact .eventFailed id lastError
  | _ => exact .nothing

/-- Which calls write the orders table, and how. -/
inductive OrdersAfter (w : World) : Call → Table Order.id → Prop
  | same (q : Call) : OrdersAfter w q w.db.orders
  | billed (id invoiceId : String) :
      OrdersAfter w (.markBilled id invoiceId) (w.db.orders.update id (Order.billed invoiceId) fun _ => rfl)
  | erpFailed (id reason : String) :
      OrdersAfter w (.markErpFailed id reason) (w.db.orders.update id (Order.erpFailed reason) fun _ => rfl)

theorem Executed.orders {w w' : World} {q : Call} (h : Executed w q w') :
    OrdersAfter w q w'.db.orders := by
  cases h with
  | synced hs =>
    rw [hs.others]
    exact .same _
  | billed id invoiceId => exact .billed id invoiceId
  | erpFailed id reason => exact .erpFailed id reason
  | _ => exact .same _

theorem perform_cases (w : World) (q : Call) (reply : Reply) :
    (perform P w q reply).1 = w ∨
      reply.takesEffect ∧ (perform P w q reply).1 = (execute P w q).1 := by
  cases reply with
  | answered => exact .inr ⟨rfl, rfl⟩
  | failed message => exact .inl rfl
  | lost message => exact .inr ⟨rfl, rfl⟩

theorem perform_executed (w : World) (q : Call) (reply : Reply) : Executed w q (perform P w q reply).1 := by
  rcases perform_cases (P := P) w q reply with hw | ⟨_, hw⟩
  · rw [hw]
    exact .nothing q
  · rw [hw]
    exact execute_executed w q

/-- A message that is in the queue leaves it for the handler. -/
theorem onStart_consume {w w' : World} {i : Nat} {d : Queue.Delivery} {program : Worker Unit}
    (h : onStart w (.consume i d) = some (w', program)) :
    w.broker.billing[i]? = some d ∧
      w' = {w with broker := {w.broker with billing := w.broker.billing.eraseIdx i}} ∧
      program = Billing.consume d := by
  obtain ⟨broker, hdeliver, hw⟩ := Option.map_eq_some_iff.mp h
  cases hw
  unfold Queue.Broker.deliver at hdeliver
  by_cases hat : w.broker.billing[i]? = some d
  · rw [if_pos hat] at hdeliver
    exact ⟨hat, by rw [← Option.some.inj hdeliver], rfl⟩
  · rw [if_neg hat] at hdeliver
    cases hdeliver

theorem onStart_db {w w' : World} {task : Task} {program : Worker Unit}
    (h : onStart w task = some (w', program)) : w'.db = w.db := by
  cases task with
  | consume i delivery =>
    obtain ⟨_, rfl, _⟩ := onStart_consume h
    rfl
  | _ =>
    cases h
    rfl

theorem onCrash_db (w : World) (task : Task) : (onCrash w task).db = w.db := by
  cases task <;> rfl

/-- The only event that writes the store is a checkout. -/
theorem onEvent_db {w w' : World} {event : Event} (h : onEvent P w event = some w') :
    w'.db = w.db ∨ ∃ input, w'.db = (Checkout.checkout P input w.db).2.1 := by
  cases event with
  | checkout input =>
    cases h
    exact .inr ⟨input, rfl⟩
  | expireRetry i =>
    obtain ⟨broker, _, rfl⟩ := Option.map_eq_some_iff.mp h
    exact .inl rfl
  | duplicate i =>
    obtain ⟨broker, _, rfl⟩ := Option.map_eq_some_iff.mp h
    exact .inl rfl
  | _ =>
    cases h
    exact .inl rfl

theorem onEvent_write {w w' : World} {event : Event} (h : onEvent P w event = some w') :
    Write w.db w'.db := by
  rcases onEvent_db h with hdb | ⟨input, hdb⟩
  · rw [hdb]
    exact .nothing
  · rw [hdb]
    rcases checkout_db P input w.db with hsame | ⟨customerId, key, n, items, result, hvalid, hacc⟩
    · rw [hsame]
      exact .nothing
    · exact .accepted (normalizeRequest_pos hvalid) hacc

theorem sound_ignored {α : Type} {D : Discipline} {I : World → Prop} {rely : Call → World → World → Prop}
    {guar : World → World → Prop} {p : Worker α} {w : World}
    (h : (machine P).Sound D I rely guar (fun _ _ => True) p w) :
    (machine P).Sound D I rely guar (fun _ _ => True) (ignored p) w := by
  apply Machine.sound_bind
  refine Machine.sound_mono h fun r w' _ => ?_
  cases r <;> trivial

/-- What every write keeps is an invariant of the store. -/
theorem kept_of_write {J : Database → Prop} (hJ : ∀ db db', Write db db' → J db → J db')
    (D : Discipline) : (machine P).Kept D fun w => J w.db where
  start w task w' program hI _ h := by
    rw [onStart_db h]
    exact hI
  call w q a hI _ := hJ _ _ (perform_executed w q a).write hI
  crash w task hI := by
    rw [show ((machine P).crash w task).db = w.db from onCrash_db w task]
    exact hI
  environment pending w event w' hI _ h := hJ _ _ (onEvent_write h) hI

/-! ### A fresh installation -/

/-- Migrated and empty, with an ERP that lists `catalog`. -/
def World.fresh (catalog : List ErpCatalogProduct) : World where
  db := .empty
  erp := ⟨catalog, [], fun _ => none, fun _ => none⟩
  broker := .empty
  clock := ⟨0, fun slug => slug⟩

/-- Libraries as they behave on plain ASCII ids. -/
def plainPlatform : Platform := ⟨compare, String.ofList, fun _ => "error"⟩

/-- An active product of the ERP without compatibilities. -/
def listed (id : String) (priceCents erpQty : Int) : ErpCatalogProduct :=
  ⟨id, id, id, "", "", "", true, priceCents, erpQty, []⟩

/-- A checkout that meets no fault and gets the order id `orderId`. -/
def orderRequest (customerId key orderId : String) (items : List CheckoutItemInput) : CheckoutInput :=
  ⟨some customerId, some key, ⟨items⟩, ⟨none, none, none⟩, fun _ => ⟨orderId, orderId, []⟩, none, true⟩

theorem plainPlatform_sha256 : Function.Injective plainPlatform.sha256 :=
  fun _ _ h => String.ofList_injective h

def twoProducts : World := World.fresh [listed "p1" 500 3, listed "p2" 700 2]

/-- The state a run of the plain platform leads to. -/
def after (c : Config) (actions : List Action) : Config :=
  ((machine plainPlatform).system.run c actions).getD c

theorem run_after (c : Config) (actions : List Action)
    (h : ((machine plainPlatform).system.run c actions).isSome) :
    (machine plainPlatform).system.run c actions = some (after c actions) :=
  (machine plainPlatform).system.run_after c actions h

/-- A sync of `products` products from its start to its end, as process `n`. -/
def wholeSync (n products : Nat) : List Action :=
  .start n .syncCatalog :: List.replicate (2 * products + 3) (.call n 0 .answered)

/-- Process `n` gets these replies, one call after the other. -/
def replies (n : Nat) (rs : List Reply) : List Action := rs.map fun reply => .call n 0 reply

def firstOrder : CheckoutInput := orderRequest "c1" "k" "o1" [⟨"p2", 1⟩, ⟨"p1", 2⟩]

/-- The catalog is synced, `firstOrder` placed and its event published. -/
def orderPublished : List Action :=
  wholeSync 0 2 ++ [.environment (.checkout firstOrder), .start 1 .publishPending] ++
    replies 1 [.answered, .answered, .answered, .answered]

/-- The message of `firstOrder`. -/
def firstMessage : Queue.Delivery :=
  ⟨some "o1", ⟨"o1", "c1", "k", some 1700, some "BRL", none, none, none, none⟩, ⟨"o1", "c1", "k", "", "", ""⟩⟩

/-- Its message for a later attempt. -/
def retried (attempt : Int) : Queue.Delivery :=
  Billing.republished (Billing.withHeaders firstMessage) attempt

/-- Process `n` handles the message at the head of the queue, fails at the ERP and sends
it to the retry queue, whence it returns. -/
def failedAttempt (n : Nat) (delivery : Queue.Delivery) : List Action :=
  .start n (.consume 0 delivery) ::
    (replies n [.answered, .failed "timeout", .answered, .answered, .answered] ++
      [.environment (.expireRetry 0)])

end CaseCellShop.Shop
