import CaseCellShop.Library.Table

/-! The tables of the shop (`prisma/schema.prisma`).

Each row keeps the columns that the code reads or writes; row ids and timestamps
that nothing reads are left out. Primary keys are the keys of the tables, so they
are unique by construction; the further unique indexes are checked by the inserts
that could break them (`Store.Database`). -/
namespace CaseCellShop

inductive OrderStatus where
  | pendingErp
  | billed
  | erpFailed
  deriving DecidableEq, Repr

inductive IdempotencyStatus where
  | processing
  | completed
  | failed
  deriving DecidableEq, Repr

inductive OutboxStatus where
  | pending
  | published
  | failed
  deriving DecidableEq, Repr

inductive IntegrationAttemptStatus where
  | success
  | failed
  | dlq
  deriving DecidableEq, Repr

structure Product where
  id : String
  sku : String
  name : String
  description : Option String
  imageUrl : Option String
  brand : Option String
  active : Bool
  updatedAt : Nat
  deriving DecidableEq, Repr

structure DeviceModel where
  id : String
  brand : String
  model : String
  slug : String
  deriving DecidableEq, Repr

structure ProductCompatibility where
  productId : String
  deviceModelId : String
  deriving DecidableEq, Repr

structure ProductPrice where
  productId : String
  priceCents : Int
  currency : String
  deriving DecidableEq, Repr

structure Inventory where
  productId : String
  erpQty : Int
  reservedQty : Int
  availableQty : Int
  version : Int
  deriving DecidableEq, Repr

structure ProductStats where
  productId : String
  popularityScore : Int
  viewCount : Int
  soldCount : Int
  deriving DecidableEq, Repr

structure Order where
  id : String
  customerId : String
  idempotencyKey : String
  status : OrderStatus
  totalCents : Int
  currency : String
  erpInvoiceId : Option String
  failureReason : Option String
  deriving DecidableEq, Repr

structure OrderItem where
  orderId : String
  productId : String
  sku : String
  productName : String
  quantity : Int
  unitPriceCents : Int
  deriving DecidableEq, Repr

/-- `CheckoutAcceptedResponse`, as it is returned and as it is stored. -/
structure CheckoutAcceptedResponse where
  orderId : String
  status : OrderStatus
  totalCents : Int
  currency : String
  deriving DecidableEq, Repr

structure IdempotencyKey where
  customerId : String
  key : String
  requestHash : String
  status : IdempotencyStatus
  responseBody : Option CheckoutAcceptedResponse
  orderId : Option String
  deriving DecidableEq, Repr

/-- The unique index `(customerId, key)`. -/
def IdempotencyKey.customerKey (r : IdempotencyKey) : String × String := (r.customerId, r.key)

/-- The JSON payload of an `OrderAccepted` event; an absent id is an omitted field. -/
structure OrderAcceptedPayload where
  orderId : String
  customerId : String
  idempotencyKey : String
  totalCents : Int
  currency : String
  correlationId : Option String
  requestId : Option String
  traceId : Option String
  deriving DecidableEq, Repr

structure OutboxEvent where
  id : String
  aggregateType : String
  aggregateId : String
  eventType : String
  payload : OrderAcceptedPayload
  status : OutboxStatus
  attempts : Int
  lastError : Option String
  orderId : Option String
  deriving DecidableEq, Repr

structure IntegrationAttempt where
  orderId : String
  operation : String
  attemptNumber : Int
  status : IntegrationAttemptStatus
  errorMessage : String
  correlationId : String
  deriving DecidableEq, Repr

/-- The unique index `(orderId, operation, attemptNumber)`. -/
def IntegrationAttempt.number (a : IntegrationAttempt) : String × String × Int :=
  (a.orderId, a.operation, a.attemptNumber)

/-- The whole store. Of `CatalogVersion` only the row `catalog` is ever used. -/
structure Database where
  products : Table Product.id
  deviceModels : Table DeviceModel.id
  compatibilities : Table fun c : ProductCompatibility => (c.productId, c.deviceModelId)
  prices : Table ProductPrice.productId
  inventory : Table Inventory.productId
  stats : Table ProductStats.productId
  catalogVersion : Option Int
  orders : Table Order.id
  orderItems : List OrderItem
  idempotencyKeys : Table IdempotencyKey.customerKey
  outboxEvents : Table OutboxEvent.id
  integrationAttempts : Table IntegrationAttempt.number

/-- A freshly migrated store. -/
def Database.empty : Database :=
  ⟨.empty, .empty, .empty, .empty, .empty, .empty, none, .empty, [], .empty, .empty, .empty⟩

/-- What a database call can fail with: a write conflict (`P2034`), a unique
constraint (`P2002`), a foreign key (`P2003`), a missing row (`P2025`), a value
outside its column, or anything else. -/
inductive DbError where
  | p2034
  | p2002
  | p2003
  | p2025
  | valueOutOfRange
  | other (message : String)
  deriving DecidableEq, Repr

end CaseCellShop
