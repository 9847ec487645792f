import CaseCellShop.Library.Script
import CaseCellShop.Platform.Number
import CaseCellShop.Checkout.Request

/-! The transaction of a checkout (`CheckoutService.checkout`, the callback of
`prisma.$transaction`).

A transaction attempt reads from a snapshot and writes to the store. Under
Serializable its snapshot is the store as it was at the first statement, so the two
differ when others committed in between: a write to an inventory row that is no
longer the snapshot's fails with a write conflict, an insert on a taken unique index
with a unique violation. With nothing in between the two are the same store
(`Tx.start`).

Every awaited call is a `statement`, which may fail with an injected fault. The
counters, the outcome variable and the order id of the current context are written
inside the callback and survive a rollback, so they are kept beside the stores. -/
namespace CaseCellShop.Checkout
open Script

inductive Outcome where
  | accepted
  | idempotent
  | error
  deriving DecidableEq, Repr

/-- What a call leaves in the metrics service, and the order id of the context that its
callback runs in. -/
structure Telemetry where
  checkoutStarted : Nat := 0
  checkoutAccepted : Nat := 0
  checkoutRejectedOutOfStock : Nat := 0
  idempotencyDuplicate : Nat := 0
  outcome : Outcome := .error
  checkoutDuration : List Outcome := []
  orderId : Option String := none
  deriving DecidableEq, Repr

/-- The ids of the request context that the event payload carries. -/
structure RequestContext where
  correlationId : Option String
  requestId : Option String
  traceId : Option String
  deriving DecidableEq, Repr

/-- One call past validation. -/
structure CheckoutCall where
  customerId : String
  idempotencyKey : String
  lines : List CheckoutLine
  requestHash : String
  context : RequestContext
  deriving DecidableEq, Repr

/-- What one transaction attempt meets: the ids `cuid()` hands it, and the fault of
each statement (none once the list is used up). -/
structure Attempt where
  orderId : String
  eventId : String
  faults : List (Option DbError)
  deriving DecidableEq, Repr

structure CheckoutResult where
  httpStatus : Nat
  body : CheckoutAcceptedResponse
  deriving DecidableEq, Repr

/-- A transaction in progress. -/
structure Tx where
  /-- What its reads see: the store at its first statement and its own writes. -/
  snapshot : Database
  /-- What its commit will leave. -/
  db : Database
  telemetry : Telemetry
  faults : List (Option DbError)

/-- An attempt on a store nobody else is writing to. -/
def Tx.start (db : Database) (telemetry : Telemetry) (faults : List (Option DbError)) : Tx :=
  ⟨db, db, telemetry, faults⟩

abbrev TxM := Script Tx CheckoutError

/-! ### Statements -/

/-- An awaited database call: it succeeds, or fails with the next injected fault. -/
def statement : TxM Unit := fun tx =>
  match tx.faults with
  | [] => (.ok (), tx)
  | none :: rest => (.ok (), {tx with faults := rest})
  | some e :: rest => (.error (.database e), {tx with faults := rest})

def record (f : Telemetry → Telemetry) : TxM Unit :=
  Script.modify fun tx => {tx with telemetry := f tx.telemetry}

/-- One `pg_advisory_xact_lock` after the other. -/
def acquireLocks : List String → TxM Unit
  | [] => pure ()
  | _ :: rest => do
    statement
    acquireLocks rest

/-! ### The idempotency row -/

/-- What the row found for `(customerId, key)` makes of the request. -/
inductive Existing where
  | refuse (message : String)
  | replay (orderId : Option String) (response : CheckoutAcceptedResponse)
  | proceed
  deriving DecidableEq, Repr

def checkExisting (requestHash : String) : Option IdempotencyKey → Existing
  | none => .proceed
  | some existing =>
    if existing.requestHash ≠ requestHash then
      .refuse "Idempotency key reused with different payload"
    else
      match existing.status, existing.responseBody with
      | .completed, some response => .replay existing.orderId response
      | .processing, _ => .refuse "Checkout already in progress for this idempotency key"
      | _, _ => .proceed

/-- The row is re-delivered as it is stored. -/
def replay (orderId : Option String) (response : CheckoutAcceptedResponse) : TxM CheckoutResult := do
  record fun t =>
    {t with
      outcome := .idempotent
      idempotencyDuplicate := t.idempotencyDuplicate + 1
      orderId := orderId.or t.orderId}
  return ⟨200, response⟩

/-! ### Pricing -/

structure PricedItem where
  productId : String
  sku : String
  productName : String
  quantity : Nat
  unitPriceCents : Int
  deriving DecidableEq, Repr

/-- The active products among the requested ones. -/
def requestedProducts (lines : List CheckoutLine) (db : Database) : List Product :=
  db.products.rows.filter fun product =>
    product.id ∈ lines.map CheckoutLine.productId ∧ product.active

/-- A requested line at the price of its product. -/
def priceItem (db : Database) (products : List Product) (line : CheckoutLine) :
    Except CheckoutError PricedItem :=
  match products.find? fun candidate => candidate.id = line.productId with
  | none => .error (.unprocessableEntity ("Product " ++ line.productId ++ " has no price"))
  | some product =>
    match db.prices.find? product.id with
    | none => .error (.unprocessableEntity ("Product " ++ line.productId ++ " has no price"))
    | some price => .ok ⟨product.id, product.sku, product.name, line.quantity, price.priceCents⟩

def rejectedOutOfStock (t : Telemetry) : Telemetry :=
  {t with checkoutRejectedOutOfStock := t.checkoutRejectedOutOfStock + 1}

def priceItems (call : CheckoutCall) : TxM (List PricedItem) := do
  statement
  let tx ← Script.get
  let products := requestedProducts call.lines tx.snapshot
  if products.length ≠ call.lines.length then do
    record rejectedOutOfStock
    fail (.unprocessableEntity "One or more products are unavailable")
  else
    ofExcept (call.lines.mapM (priceItem tx.snapshot products))

/-- The sum the code computes, in the arithmetic of Numbers. -/
def totalCents (items : List PricedItem) : Int :=
  items.foldl (fun sum item => Number.add sum (Number.mul item.quantity item.unitPriceCents)) 0

/-! ### Reservations -/

/-- `availableQty -= quantity`, `reservedQty += quantity`, `version += 1`. -/
def reservedRow (row : Inventory) (quantity : Int) : Inventory :=
  {row with
    availableQty := row.availableQty - quantity
    reservedQty := row.reservedQty + quantity
    version := row.version + 1}

/-- The conditional update of one line. The row's numbers stay in their columns, or the
update fails. -/
def reserve (line : CheckoutLine) : TxM Unit := do
  require (Int4 line.quantity) (.database .valueOutOfRange)
  statement
  let tx ← Script.get
  match tx.snapshot.inventory.find? line.productId with
  | none => do
    record rejectedOutOfStock
    fail (.unprocessableEntity "Insufficient stock")
  | some row =>
    if row.availableQty < line.quantity then do
      record rejectedOutOfStock
      fail (.unprocessableEntity "Insufficient stock")
    else do
      require (tx.db.inventory.find? line.productId = some row) (.database .p2034)
      require (Int4 (row.reservedQty + line.quantity) ∧ Int4 (row.version + 1)) (.database .valueOutOfRange)
      Script.modify fun tx =>
        {tx with
          snapshot := {tx.snapshot with
            inventory := tx.snapshot.inventory.set (reservedRow row line.quantity)}
          db := {tx.db with inventory := tx.db.inventory.set (reservedRow row line.quantity)}}

def reserveAll : List CheckoutLine → TxM Unit
  | [] => pure ()
  | line :: rest => do
    reserve line
    reserveAll rest

/-! ### The inserts -/

def newOrder (call : CheckoutCall) (orderId : String) (items : List PricedItem) : Order where
  id := orderId
  customerId := call.customerId
  idempotencyKey := call.idempotencyKey
  status := .pendingErp
  totalCents := totalCents items
  currency := "BRL"
  erpInvoiceId := none
  failureReason := none

def newOrderItem (orderId : String) (item : PricedItem) : OrderItem :=
  ⟨orderId, item.productId, item.sku, item.productName, item.quantity, item.unitPriceCents⟩

/-- `order.create` with its nested items, under the unique indexes of `Order`. -/
def createOrder (order : Order) (items : List PricedItem) : TxM Unit := do
  require (Int4 order.totalCents) (.database .valueOutOfRange)
  statement
  let tx ← Script.get
  require (∀ o ∈ tx.db.orders.rows,
    ¬(o.customerId = order.customerId ∧ o.idempotencyKey = order.idempotencyKey)) (.database .p2002)
  match tx.db.orders.insert? order with
  | none => fail (.database .p2002)
  | some orders =>
    Script.modify fun tx =>
      {tx with db := {tx.db with
        orders := orders
        orderItems := tx.db.orderItems ++ items.map (newOrderItem order.id)}}

def responseBody (order : Order) : CheckoutAcceptedResponse :=
  ⟨order.id, order.status, order.totalCents, order.currency⟩

def orderAccepted (call : CheckoutCall) (eventId : String) (order : Order) : OutboxEvent where
  id := eventId
  aggregateType := "Order"
  aggregateId := order.id
  eventType := "OrderAccepted"
  payload :=
    { orderId := order.id
      customerId := call.customerId
      idempotencyKey := call.idempotencyKey
      totalCents := order.totalCents
      currency := order.currency
      correlationId := call.context.correlationId
      requestId := call.context.requestId
      traceId := call.context.traceId }
  status := .pending
  attempts := 0
  lastError := none
  orderId := some order.id

def createOutboxEvent (event : OutboxEvent) : TxM Unit := do
  statement
  let tx ← Script.get
  match tx.db.outboxEvents.insert? event with
  | none => fail (.database .p2002)
  | some events => Script.modify fun tx => {tx with db := {tx.db with outboxEvents := events}}

def completedKey (call : CheckoutCall) (order : Order) : IdempotencyKey where
  customerId := call.customerId
  key := call.idempotencyKey
  requestHash := call.requestHash
  status := .completed
  responseBody := some (responseBody order)
  orderId := some order.id

/-- `idempotencyKey.create`, under the unique indexes of `IdempotencyKey`. -/
def createIdempotencyKey (entry : IdempotencyKey) : TxM Unit := do
  statement
  let tx ← Script.get
  require (∀ r ∈ tx.db.idempotencyKeys.rows, r.orderId = none ∨ r.orderId ≠ entry.orderId)
    (.database .p2002)
  match tx.db.idempotencyKeys.insert? entry with
  | none => fail (.database .p2002)
  | some keys => Script.modify fun tx => {tx with db := {tx.db with idempotencyKeys := keys}}

/-! ### The transaction -/

/-- The callback of `$transaction`. -/
def checkoutTransaction (call : CheckoutCall) (attempt : Attempt) : TxM CheckoutResult := do
  acquireLocks (lockKeys call.customerId call.idempotencyKey call.lines)
  statement
  let tx ← Script.get
  match checkExisting call.requestHash
      (tx.snapshot.idempotencyKeys.find? (call.customerId, call.idempotencyKey)) with
  | .refuse message => fail (.conflict message)
  | .replay orderId response => replay orderId response
  | .proceed => do
    let items ← priceItems call
    reserveAll call.lines
    let order := newOrder call attempt.orderId items
    createOrder order items
    record fun t => {t with orderId := some order.id}
    createOutboxEvent (orderAccepted call attempt.eventId order)
    createIdempotencyKey (completedKey call order)
    record fun t => {t with outcome := .accepted, checkoutAccepted := t.checkoutAccepted + 1}
    return ⟨202, responseBody order⟩

/-- The callback and the commit. -/
def transact (call : CheckoutCall) (attempt : Attempt) : TxM CheckoutResult := do
  let result ← checkoutTransaction call attempt
  statement
  return result

end CaseCellShop.Checkout
