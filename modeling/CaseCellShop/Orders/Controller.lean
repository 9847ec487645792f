import CaseCellShop.Checkout.Service
import CaseCellShop.Library.Program

/-! The order lookups (`apps/api/src/orders/orders.controller.ts`).

The client reads an order and the rows it includes by one statement each, and nothing
holds them together: others may write in between. -/
namespace CaseCellShop.Orders
open Checkout

inductive Read where
  | findOrder (id : String)
  | items (orderId : String)
  | outboxEvents (orderId : String)
  | attempts (orderId : String)
  | findIdempotencyKey (customerId key : String)

@[reducible] def Answer : Read → Type
  | .findOrder _ => Option Order
  | .items _ => List OrderItem
  | .outboxEvents _ => List OutboxEvent
  | .attempts _ => List IntegrationAttempt
  | .findIdempotencyKey _ _ => Option IdempotencyKey

/-- What the store answers. -/
def read (db : Database) : (q : Read) → Answer q
  | .findOrder id => db.orders.find? id
  | .items orderId => db.orderItems.filter fun item => item.orderId = orderId
  | .outboxEvents orderId => db.outboxEvents.rows.filter fun event => event.orderId = some orderId
  | .attempts orderId => db.integrationAttempts.rows.filter fun attempt => attempt.orderId = orderId
  | .findIdempotencyKey customerId key => db.idempotencyKeys.find? (customerId, key)

/-- Nest's 404, or an error of the database client. -/
inductive LookupError where
  | notFound (message : String)
  | database (error : DbError)
  deriving DecidableEq, Repr

def LookupError.status : LookupError → Nat
  | .notFound _ => 404
  | .database _ => 500

/-- A failing read is an error of the database client. -/
def Unavailable (e : LookupError) : Prop := ∃ error, e = .database error

abbrev Lookup (α : Type) := Program Read Answer LookupError α

abbrev ask (q : Read) : Lookup (Answer q) := Program.call q

/-- An order with the rows it includes. -/
structure OrderResponse where
  order : Order
  items : List OrderItem
  outboxEvents : List OutboxEvent
  attempts : List IntegrationAttempt

/-- The relations that `getById` includes. -/
def included (order : Order) : Lookup OrderResponse := do
  let items : List OrderItem ← ask (.items order.id)
  let outboxEvents : List OutboxEvent ← ask (.outboxEvents order.id)
  let attempts : List IntegrationAttempt ← ask (.attempts order.id)
  return ⟨order, items, outboxEvents, attempts⟩

def getById (id : String) : Lookup OrderResponse := do
  let order : Option Order ← ask (.findOrder id)
  match order with
  | none => Program.throw (.notFound s!"Order {id} not found")
  | some order => included order

def getByIdempotencyKey (customerId : Option String) (key : String) : Lookup IdempotencyKey :=
  match header customerId with
  | none => Program.throw (.notFound "Missing customer scope")
  | some customerId => do
    let entry : Option IdempotencyKey ← ask (.findIdempotencyKey customerId key)
    match entry with
    | none => Program.throw (.notFound s!"Idempotency key {key} not found")
    | some entry => return entry

end CaseCellShop.Orders
