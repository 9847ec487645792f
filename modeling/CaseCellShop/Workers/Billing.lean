import CaseCellShop.Shop.Calls

/-! The billing worker (`apps/order-worker/src/billing.consumer.ts` and the handler in
`worker-runner.service.ts`). -/
namespace CaseCellShop.Billing
open Program Queue Shop

/-- What `processMessage` returns: the order as it was found, or as it was updated. -/
structure BillingResult where
  orderId : String
  status : OrderStatus
  deriving DecidableEq, Repr

def billingKey (orderId : String) : String := "order:" ++ orderId ++ ":billing"

def processMessage (message : BillingMessage) : Worker BillingResult := do
  let order : Order ← request (.findOrder message.orderId)
  if order.status = .billed then return ⟨order.id, order.status⟩
  let invoice : Erp.BillingReceipt ← request (.billOrder order.id (billingKey order.id))
  let updated : Order ← request (.markBilled order.id invoice.invoiceId)
  return ⟨updated.id, updated.status⟩

/-- `message.attempt ?? 1` -/
def currentAttempt (message : BillingMessage) : Int := message.attempt.getD 1

def attemptRow (message : BillingMessage) (error : String) : IntegrationAttempt where
  orderId := message.orderId
  operation := "billing"
  attemptNumber := currentAttempt message
  status := if currentAttempt message ≥ 4 then .dlq else .failed
  errorMessage := error
  correlationId := message.correlationId.getD message.idempotencyKey

/-- The message that is published again, with its attempt number. -/
def republished (message : BillingMessage) (attempt : Int) : Delivery where
  messageId := none
  body :=
    { orderId := message.orderId
      customerId := message.customerId
      idempotencyKey := message.idempotencyKey
      totalCents := none
      currency := none
      attempt := some attempt
      correlationId := message.correlationId
      requestId := message.requestId
      traceId := message.traceId }
  headers :=
    { orderId := message.orderId
      customerId := message.customerId
      idempotencyKey := message.idempotencyKey
      correlationId := message.correlationId.getD ""
      requestId := message.requestId.getD ""
      traceId := message.traceId.getD "" }

/-- The `catch` block of `processWithRetry`. -/
def processFailure (message : BillingMessage) (error : String) : Worker Unit := do
  request (.createIntegrationAttempt (attemptRow message error))
  if currentAttempt message ≥ 4 then do
    let _ ← request (.markErpFailed message.orderId "Moved to DLQ after retries")
    request (.publishToDlq (republished message (currentAttempt message)))
    throw error
  else do
    request (.publishToRetry (republished message (currentAttempt message + 1)))
    throw error

def processWithRetry (message : BillingMessage) : Worker Unit :=
  handle (do let _ ← processMessage message) (processFailure message)

/-- The ids a message lacks are taken from its headers. -/
def withHeaders (delivery : Delivery) : BillingMessage :=
  {delivery.body with
    correlationId := some (delivery.body.correlationId.getD delivery.headers.correlationId)
    requestId := some (delivery.body.requestId.getD delivery.headers.requestId)
    traceId := some (delivery.body.traceId.getD delivery.headers.traceId)}

/-- The consumer's handler: whatever came of the message, it is acknowledged. -/
def onMessage (delivery : Delivery) : Worker Unit := do
  handle (processWithRetry (withHeaders delivery)) fun _ => pure ()
  request .ack

/-- `consumeJson`: a message whose handler throws goes back to the queue. -/
def consume (delivery : Delivery) : Worker Unit :=
  handle (onMessage delivery) fun _ => request (.nack delivery)

/-! ### The handler call by call

`consume` as the calls it goes through: each name is what is left of the handler at
that point. -/

def settle (delivery : Delivery) : Worker Unit :=
  await .ack fun
    | .error _ => request (.nack delivery)
    | .ok _ => pure ()

def toRetry (delivery : Delivery) : Worker Unit :=
  await (.publishToRetry (republished (withHeaders delivery) (currentAttempt (withHeaders delivery) + 1)))
    fun _ => settle delivery

def toDlq (delivery : Delivery) : Worker Unit :=
  await (.publishToDlq (republished (withHeaders delivery) (currentAttempt (withHeaders delivery))))
    fun _ => settle delivery

def markFailed (delivery : Delivery) : Worker Unit :=
  await (.markErpFailed delivery.body.orderId "Moved to DLQ after retries") fun
    | .error _ => settle delivery
    | .ok _ => toDlq delivery

def recordFailure (delivery : Delivery) (error : String) : Worker Unit :=
  await (.createIntegrationAttempt (attemptRow (withHeaders delivery) error)) fun
    | .error _ => settle delivery
    | .ok _ => if currentAttempt (withHeaders delivery) ≥ 4 then markFailed delivery else toRetry delivery

def mark (delivery : Delivery) (orderId invoiceId : String) : Worker Unit :=
  await (.markBilled orderId invoiceId) fun
    | .error error => recordFailure delivery error
    | .ok _ => settle delivery

def bill (delivery : Delivery) (order : Order) : Worker Unit :=
  await (.billOrder order.id (billingKey order.id)) fun
    | .error error => recordFailure delivery error
    | .ok invoice => mark delivery order.id invoice.invoiceId

def find (delivery : Delivery) : Worker Unit :=
  await (.findOrder delivery.body.orderId) fun
    | .error error => recordFailure delivery error
    | .ok order => if order.status = .billed then settle delivery else bill delivery order

/-- What `consume` puts around the processing of a message. -/
def settling (delivery : Delivery) (processing : Worker Unit) : Worker Unit :=
  handle ((handle processing fun _ => pure ()) >>= fun _ => request .ack) fun _ => request (.nack delivery)

theorem settle_eq (delivery : Delivery) (result : Except String Unit) :
    settling delivery (done result) = settle delivery := by
  cases result <;> exact await_congr fun r => by cases r <;> rfl

theorem processFailure_eq (delivery : Delivery) (error : String) :
    settling delivery (processFailure (withHeaders delivery) error) = recordFailure delivery error := by
  unfold processFailure recordFailure
  by_cases h : currentAttempt (withHeaders delivery) ≥ 4
  · simp only [if_pos h]
    refine await_congr fun r => ?_
    cases r with
    | error e => exact settle_eq _ _
    | ok u =>
      refine await_congr fun r => ?_
      cases r with
      | error e => exact settle_eq _ _
      | ok order =>
        refine await_congr fun r => ?_
        cases r <;> exact settle_eq _ _
  · simp only [if_neg h]
    refine await_congr fun r => ?_
    cases r with
    | error e => exact settle_eq _ _
    | ok u =>
      refine await_congr fun r => ?_
      cases r <;> exact settle_eq _ _

theorem consume_eq (delivery : Delivery) : consume delivery = find delivery := by
  unfold consume onMessage processWithRetry processMessage
  refine await_congr fun r => ?_
  cases r with
  | error e => exact processFailure_eq _ e
  | ok order =>
    show settling delivery (handle (Program.bind (if order.status = .billed then _ else _) _) _) =
      if order.status = .billed then settle delivery else bill delivery order
    by_cases h : order.status = .billed
    · rw [if_pos h, if_pos h]
      exact settle_eq _ _
    · rw [if_neg h, if_neg h]
      refine await_congr fun r => ?_
      cases r with
      | error e => exact processFailure_eq _ e
      | ok invoice =>
        refine await_congr fun r => ?_
        cases r with
        | error e => exact processFailure_eq _ e
        | ok updated => exact settle_eq _ _

/-! ### The calls it makes -/

def HandlerCall : Call → Prop
  | .findOrder _ | .billOrder _ _ | .markBilled _ _ | .createIntegrationAttempt _ | .markErpFailed _ _
  | .publishToRetry _ | .publishToDlq _ | .ack | .nack _ => True
  | _ => False

section
variable {ok : Call → Prop}

theorem processMessage_onlyCalls (hfind : ∀ id, ok (.findOrder id)) (hbill : ∀ id key, ok (.billOrder id key))
    (hmark : ∀ id invoiceId, ok (.markBilled id invoiceId)) (message : BillingMessage) :
    (processMessage message).OnlyCalls ok := by
  refine onlyCalls_bind (onlyCalls_call (hfind _)) fun order => ?_
  by_cases h : order.status = .billed
  · rw [if_pos h]
    trivial
  · rw [if_neg h]
    refine onlyCalls_bind (onlyCalls_call (hbill _ _)) fun invoice => ?_
    exact onlyCalls_bind (onlyCalls_call (hmark _ _)) fun updated => trivial

theorem processFailure_onlyCalls {message : BillingMessage} {error : String}
    (hrow : ok (.createIntegrationAttempt (attemptRow message error)))
    (hfailed : ∀ id reason, ok (.markErpFailed id reason))
    (hdlq : ok (.publishToDlq (republished message (currentAttempt message))))
    (hretry : ok (.publishToRetry (republished message (currentAttempt message + 1)))) :
    (processFailure message error).OnlyCalls ok := by
  refine onlyCalls_bind (onlyCalls_call hrow) fun _ => ?_
  by_cases h : currentAttempt message ≥ 4
  · rw [if_pos h]
    refine onlyCalls_bind (onlyCalls_call (hfailed _ _)) fun order => ?_
    exact onlyCalls_bind (onlyCalls_call hdlq) fun _ => trivial
  · rw [if_neg h]
    exact onlyCalls_bind (onlyCalls_call hretry) fun _ => trivial

theorem consume_onlyCalls {delivery : Delivery} (hprocess : (processMessage (withHeaders delivery)).OnlyCalls ok)
    (hfailure : ∀ error, (processFailure (withHeaders delivery) error).OnlyCalls ok) (hack : ok .ack)
    (hnack : ok (.nack delivery)) : (consume delivery).OnlyCalls ok := by
  have hretried : (processWithRetry (withHeaders delivery)).OnlyCalls ok :=
    onlyCalls_handle (onlyCalls_bind hprocess fun _ => trivial) hfailure
  have hhandler : (onMessage delivery).OnlyCalls ok :=
    onlyCalls_bind (onlyCalls_handle hretried fun _ => trivial) fun _ => onlyCalls_call hack
  exact onlyCalls_handle hhandler fun _ => onlyCalls_call hnack

end

theorem consume_calls (delivery : Delivery) : (consume delivery).OnlyCalls HandlerCall :=
  consume_onlyCalls (processMessage_onlyCalls (fun _ => trivial) (fun _ _ => trivial) (fun _ _ => trivial) _)
    (fun _ => processFailure_onlyCalls trivial (fun _ _ => trivial) trivial trivial) trivial trivial

end CaseCellShop.Billing
