import CaseCellShop.Checkout.Request
import CaseCellShop.Erp.Service
import CaseCellShop.Library.Program
import CaseCellShop.Queue.Broker
import CaseCellShop.Store.Updates

/-! The calls that the workers await, and what each does to the store, the ERP and the
broker.

A per-product transaction of a sync is two calls, its reading and the rest, since at
READ COMMITTED others may commit between them. Every call may fail without effect,
and every call may take effect and have its answer lost. -/
namespace CaseCellShop.Shop
open Catalog Erp Queue

structure World where
  db : Database
  erp : ErpService
  broker : Broker
  clock : Clock

inductive Call where
  | getProducts
  | findInventory (productId : String)
  | syncProduct (current : Option Inventory) (product : ErpCatalogProduct)
  | deactivateAbsent (activeIds : List String)
  | bumpCatalogVersion
  | findOrder (id : String)
  | billOrder (orderId billingKey : String)
  | getBillingStatus (orderId : String)
  | findUnbilledOrders
  | markBilled (orderId invoiceId : String)
  | markErpFailed (orderId failureReason : String)
  | createIntegrationAttempt (attempt : IntegrationAttempt)
  | publishToRetry (delivery : Delivery)
  | publishToDlq (delivery : Delivery)
  | ack
  | nack (delivery : Delivery)
  | ensureTopology
  | findPendingEvents
  | publish (delivery : Delivery)
  | markPublished (eventId : String)
  | markEventFailed (eventId lastError : String)

/-- What each call answers. -/
@[reducible] def Answer : Call → Type
  | .getProducts => List ErpCatalogProduct
  | .findInventory _ => Option Inventory
  | .bumpCatalogVersion => Int
  | .findOrder _ => Order
  | .billOrder _ _ => BillingReceipt
  | .getBillingStatus _ => Option BillingReceipt
  | .findUnbilledOrders => List Order
  | .markBilled _ _ => Order
  | .markErpFailed _ _ => Order
  | .findPendingEvents => List OutboxEvent
  | _ => Unit

/-- How a call ends: with its answer, failed before it took effect, or with the answer
lost after it. -/
inductive Reply where
  | answered
  | failed (message : String)
  | lost (message : String)
  deriving DecidableEq, Repr

/-- Whether the call did what it was to do. -/
def Reply.takesEffect : Reply → Bool
  | .failed _ => false
  | _ => true

/-- The program type of the workers; an exception is its message. -/
abbrev Worker (α : Type) := Program Call Answer String α

/-- One call of a worker. -/
abbrev request (q : Call) : Worker (Answer q) := Program.call q

/-- A write to the store as a call. -/
def World.write (P : Checkout.Platform) (w : World) : Except DbError Database → World × Except String Unit
  | .ok db => ({w with db := db}, .ok ())
  | .error e => (w, .error (P.errorText e))

def World.updateOrder (P : Checkout.Platform) (w : World) (id : String) (f : Order → Order)
    (hf : ∀ o, (f o).id = o.id) : World × Except String Order :=
  match w.db.updateOrder id f hf with
  | .ok (order, db) => ({w with db := db}, .ok order)
  | .error e => (w, .error (P.errorText e))

/-- `findUniqueOrThrow` by id. -/
def findOrder (P : Checkout.Platform) (db : Database) (id : String) : Except String Order :=
  match db.orders.find? id with
  | some order => .ok order
  | none => .error (P.errorText .p2025)

/-- `status: { in: ['PENDING_ERP', 'ERP_FAILED'] }` -/
def unbilledOrders (db : Database) : List Order := db.orders.rows.filter fun o => o.status ≠ .billed

/-- `where: { status: 'PENDING' }, orderBy: { createdAt: 'asc' }, take: 50`; the rows of
the table are in the order of their creation. -/
def pendingEvents (db : Database) : List OutboxEvent :=
  (db.outboxEvents.rows.filter fun e => e.status = .pending).take 50

/-- `ErpBillingClient.billOrder`: a refusal of the ERP is a 503. -/
def clientBillOrder (w : World) (orderId billingKey : String) : World × Except String BillingReceipt :=
  match w.erp.billOrder w.clock.now orderId billingKey with
  | (erp, .ok receipt) => ({w with erp := erp}, .ok receipt)
  | (erp, .error _) => ({w with erp := erp}, .error "ERP billing request failed: 503 Service Unavailable")

/-- `getBillingStatus`: a receipt without an invoice id counts as none. -/
def clientBillingStatus (w : World) (orderId : String) : Option BillingReceipt :=
  match w.erp.getBillingStatus orderId with
  | none => none
  | some receipt => if receipt.invoiceId = "" then none else some receipt

theorem clientBillingStatus_some {w : World} {orderId : String} {receipt : BillingReceipt}
    (h : clientBillingStatus w orderId = some receipt) : w.erp.billingByOrderId orderId = some receipt := by
  unfold clientBillingStatus ErpService.getBillingStatus at h
  cases hr : w.erp.billingByOrderId orderId with
  | none =>
    rw [hr] at h
    cases h
  | some r =>
    rw [hr] at h
    dsimp only at h
    by_cases hempty : r.invoiceId = ""
    · rw [if_pos hempty] at h
      cases h
    · rw [if_neg hempty] at h
      exact h

/-- A call that takes effect, and its answer. -/
def execute (P : Checkout.Platform) (w : World) : (q : Call) → World × Except String (Answer q)
  | .getProducts => (w, .ok w.erp.catalog)
  | .findInventory productId => (w, .ok (w.db.inventory.find? productId))
  | .syncProduct current product => w.write P (Catalog.syncProduct w.clock current product w.db)
  | .deactivateAbsent activeIds =>
    ({w with db := Catalog.deactivateAbsent w.clock.now activeIds w.db}, .ok ())
  | .bumpCatalogVersion =>
    match Catalog.bumpCatalogVersion w.db with
    | .ok db => ({w with db := db}, .ok (nextCatalogVersion w.db.catalogVersion))
    | .error e => (w, .error (P.errorText e))
  | .findOrder id => (w, findOrder P w.db id)
  | .billOrder orderId billingKey => clientBillOrder w orderId billingKey
  | .getBillingStatus orderId => (w, .ok (clientBillingStatus w orderId))
  | .findUnbilledOrders => (w, .ok (unbilledOrders w.db))
  | .markBilled orderId invoiceId => w.updateOrder P orderId (Order.billed invoiceId) fun _ => rfl
  | .markErpFailed orderId reason => w.updateOrder P orderId (Order.erpFailed reason) fun _ => rfl
  | .createIntegrationAttempt attempt => w.write P (w.db.createIntegrationAttempt attempt)
  | .publishToRetry delivery => ({w with broker := w.broker.publishToRetry delivery}, .ok ())
  | .publishToDlq delivery => ({w with broker := w.broker.publishToDlq delivery}, .ok ())
  | .ack => (w, .ok ())
  | .nack delivery => ({w with broker := w.broker.requeue delivery}, .ok ())
  | .ensureTopology => (w, .ok ())
  | .findPendingEvents => (w, .ok (pendingEvents w.db))
  | .publish delivery => ({w with broker := w.broker.publish delivery}, .ok ())
  | .markPublished eventId =>
    w.write P (w.db.updateOutboxEvent eventId OutboxEvent.markPublished fun _ => rfl)
  | .markEventFailed eventId lastError =>
    w.write P (w.db.updateOutboxEvent eventId (OutboxEvent.markFailed lastError) fun _ => rfl)

/-- A call under the reply it meets. -/
def perform (P : Checkout.Platform) (w : World) (q : Call) : Reply → World × Except String (Answer q)
  | .answered => execute P w q
  | .failed message => (w, .error message)
  | .lost message => ((execute P w q).1, .error message)

end CaseCellShop.Shop
