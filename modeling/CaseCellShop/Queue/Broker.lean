import Mathlib.Logic.Basic

/-! The queues of the billing pipeline (`libs/queue/src/rabbit.service.ts`) and the
messages in them.

A message that was delivered and not yet acknowledged is held by its handler; the
queues here hold the others. `published` remembers everything the outbox publisher
handed to the broker. -/
namespace CaseCellShop.Queue

/-- The body of a message. The outbox sends the payload of an event as it is; its total and
currency are not read by the worker, whose own messages have neither. -/
structure BillingMessage where
  orderId : String
  customerId : String
  idempotencyKey : String
  totalCents : Option Int
  currency : Option String
  attempt : Option Int
  correlationId : Option String
  requestId : Option String
  traceId : Option String
  deriving DecidableEq, Repr

structure Headers where
  orderId : String
  customerId : String
  idempotencyKey : String
  correlationId : String
  requestId : String
  traceId : String
  deriving DecidableEq, Repr

structure Delivery where
  messageId : Option String
  body : BillingMessage
  headers : Headers
  deriving DecidableEq, Repr

structure Broker where
  /-- `orders.billing.q` -/
  billing : List Delivery
  /-- `orders.billing.retry.q`, whose messages return to the first after their TTL. -/
  retry : List Delivery
  /-- `orders.billing.dlq` -/
  dlq : List Delivery
  published : List Delivery
  deriving DecidableEq, Repr

def Broker.empty : Broker := ⟨[], [], [], []⟩

def Broker.publish (b : Broker) (d : Delivery) : Broker :=
  {b with billing := b.billing ++ [d], published := b.published ++ [d]}

def Broker.publishToRetry (b : Broker) (d : Delivery) : Broker := {b with retry := b.retry ++ [d]}

def Broker.publishToDlq (b : Broker) (d : Delivery) : Broker := {b with dlq := b.dlq ++ [d]}

/-- The `i`th message leaves the queue for a handler. -/
def Broker.deliver (b : Broker) (i : Nat) (d : Delivery) : Option Broker :=
  if b.billing[i]? = some d then some {b with billing := b.billing.eraseIdx i} else none

/-- An unacknowledged message returns to the queue. -/
def Broker.requeue (b : Broker) (d : Delivery) : Broker := {b with billing := d :: b.billing}

/-- A retry message's TTL is over. -/
def Broker.expire (b : Broker) (i : Nat) : Option Broker :=
  b.retry[i]?.map fun d => {b with retry := b.retry.eraseIdx i, billing := b.billing ++ [d]}

/-- At-least-once delivery: a message may be delivered a second time. -/
def Broker.duplicate (b : Broker) (i : Nat) : Option Broker :=
  b.billing[i]?.map fun d => {b with billing := d :: b.billing}

end CaseCellShop.Queue
