import CaseCellShop.Shop.Calls

/-! The outbox publisher (`apps/outbox-worker/src/outbox.publisher.ts`). -/
namespace CaseCellShop.Outbox
open Program Queue Shop

/-- The message of an event; an absent id becomes an empty header. -/
def messageOf (event : OutboxEvent) : Delivery where
  messageId := some event.id
  body :=
    { orderId := event.payload.orderId
      customerId := event.payload.customerId
      idempotencyKey := event.payload.idempotencyKey
      totalCents := some event.payload.totalCents
      currency := some event.payload.currency
      attempt := none
      correlationId := event.payload.correlationId
      requestId := event.payload.requestId
      traceId := event.payload.traceId }
  headers :=
    { orderId := event.payload.orderId
      customerId := event.payload.customerId
      idempotencyKey := event.payload.idempotencyKey
      correlationId := event.payload.correlationId.getD ""
      requestId := event.payload.requestId.getD ""
      traceId := event.payload.traceId.getD "" }

/-- One round of the loop: an event whose publish or whose update fails is `FAILED`. -/
def publishEvent (event : OutboxEvent) : Worker Unit :=
  handle
    (do
      request (.publish (messageOf event))
      request (.markPublished event.id))
    fun error => request (.markEventFailed event.id error)

def publishPending : Worker Unit := do
  request .ensureTopology
  let events : List OutboxEvent ← request .findPendingEvents
  each publishEvent events

/-! ### The calls it makes -/

def OutboxCall : Call → Prop
  | .ensureTopology | .findPendingEvents | .publish _ | .markPublished _ | .markEventFailed _ _ => True
  | _ => False

theorem publishPending_calls : publishPending.OnlyCalls OutboxCall := by
  apply onlyCalls_bind (onlyCalls_call trivial)
  intro _
  apply onlyCalls_bind (onlyCalls_call trivial)
  intro events
  apply onlyCalls_each
  intro event _
  apply onlyCalls_handle
  · exact onlyCalls_bind (onlyCalls_call trivial) fun _ => onlyCalls_call trivial
  · exact fun _ => onlyCalls_call trivial

end CaseCellShop.Outbox
