import CaseCellShop.Platform.Json
import CaseCellShop.Workers.Billing

/-! From the bytes of a message to its settlement (`RabbitService.consumeJson` and the
handler in `apps/order-worker/src/worker-runner.service.ts`).

Two functions may settle a message: the handler acknowledges it in its `finally`, and
`consumeJson` returns it to the queue when the handler throws. The handler throws if its
own `catch` does, which reads and prints the message's order id. -/
namespace CaseCellShop.Consumer
open Program

/-- A delivery as the channel hands it over; `headers` are `properties.headers ?? {}`. -/
structure RawMessage where
  content : List UInt8
  headers : String → Option String

/-- `{ ...message, correlationId, requestId, traceId }` -/
structure MergedMessage where
  message : Json
  correlationId : Option Json
  requestId : Option Json
  traceId : Option Json

section
variable {Q : Type} {R : Q → Type}

structure ConsumeControls (Q : Type) (R : Q → Type) where
  ack : Program Q R String Unit
  nack : (requeue : Bool) → Program Q R String Unit
  headers : String → Option String

/-- A conversion that throws a TypeError. -/
def orTypeError {α : Type} : Option α → Program Q R String α
  | none => throw "TypeError"
  | some a => pure a

def consumeJson (parse : List UInt8 → Option Json) (handler : Json → ConsumeControls Q R → Program Q R String Unit)
    (controls : ConsumeControls Q R) (rawMessage : RawMessage) : Program Q R String Unit :=
  match parse rawMessage.content with
  | none => controls.ack
  | some message => handle (handler message controls) fun _ => controls.nack true

/-- `message.key ?? headers.key` -/
def orHeader (message : Json) (headers : String → Option String) (key : String) : Option (Option Json) :=
  (message.get key).map fun
    | none | some .null => (headers key).map .string
    | some value => some value

/-- The message that is processed; `none` throws. -/
def mergeHeaders (message : Json) (headers : String → Option String) : Option MergedMessage := do
  let correlationId ← orHeader message headers "correlationId"
  let requestId ← orHeader message headers "requestId"
  let traceId ← orHeader message headers "traceId"
  return ⟨message, correlationId, requestId, traceId⟩

/-- The line that is logged of a failure; `none` throws. -/
def failureText (numberText : JsNumber → String) (message : Json) : Option String := do
  let orderId ← message.get "orderId"
  let text ← (orderId.map (Json.toText numberText)).getD (some "undefined")
  return "billing processing failed for " ++ text

/-- The consumer's handler. -/
def billingHandler (numberText : JsNumber → String) (processWithRetry : MergedMessage → Program Q R String Unit)
    (logError : String → Program Q R String Unit) (message : Json) (controls : ConsumeControls Q R) :
    Program Q R String Unit :=
  ensure
    (handle
      (do
        let merged ← orTypeError (mergeHeaders message controls.headers)
        processWithRetry merged)
      fun _ => do
        let text ← orTypeError (failureText numberText message)
        logError text)
    controls.ack

end

/-! ### One delivery -/

inductive Call where
  | processWithRetry (message : MergedMessage)
  | logError (text : String)
  | ack
  | nack (requeue : Bool)

inductive Settlement where
  | acked
  | nacked (requeue : Bool)
  deriving DecidableEq, Repr

/-- The settlements so far. Processing ends as it does; acknowledging, rejecting and
logging do not throw. -/
def perform (outcome : Except String Unit) (settlements : List Settlement) :
    Call → List Settlement × Except String Unit
  | .processWithRetry _ => (settlements, outcome)
  | .logError _ => (settlements, .ok ())
  | .ack => (settlements ++ [.acked], .ok ())
  | .nack requeue => (settlements ++ [.nacked requeue], .ok ())

/-- `consumeJson` with the billing handler. -/
def consume (parse : List UInt8 → Option Json) (numberText : JsNumber → String) (rawMessage : RawMessage) :
    Program Call (fun _ => Unit) String Unit :=
  consumeJson parse (billingHandler numberText (fun merged => call (.processWithRetry merged)) fun text => call (.logError text))
    ⟨call .ack, fun requeue => call (.nack requeue), rawMessage.headers⟩ rawMessage

/-- What a delivery is settled with, for how its processing ends. -/
def settlements (parse : List UInt8 → Option Json) (numberText : JsNumber → String) (rawMessage : RawMessage)
    (outcome : Except String Unit) : List Settlement :=
  ((consume parse numberText rawMessage).run (perform outcome) []).2

/-- The order id can be printed: it is missing, or its conversion does not throw. -/
def printableOrderId (message : Json) : Bool :=
  match message.get "orderId" with
  | none => false
  | some none => true
  | some (some orderId) => orderId.convertible

theorem isSome_failureText (numberText : JsNumber → String) (message : Json) :
    (failureText numberText message).isSome = printableOrderId message := by
  unfold failureText printableOrderId
  rcases message.get "orderId" with _ | _ | orderId
  · rfl
  · rfl
  · show (orderId.toText numberText >>= fun text => some ("billing processing failed for " ++ text)).isSome =
      orderId.convertible
    rw [← Json.isSome_toText numberText]
    cases orderId.toText numberText <;> rfl

theorem mergeHeaders_eq_none {message : Json} {headers : String → Option String} :
    mergeHeaders message headers = none ↔ message.isNull = true := by
  cases message <;> simp [mergeHeaders, orHeader, Json.get, Json.isNull]

theorem settlements_invalid {parse : List UInt8 → Option Json} {numberText : JsNumber → String}
    {rawMessage : RawMessage}
    (h : parse rawMessage.content = none) (outcome : Except String Unit) :
    settlements parse numberText rawMessage outcome = [.acked] := by
  simp only [settlements, consume, consumeJson, h]
  rfl

/-- A parsed message is always acknowledged, and rejected after it where the handler's
`catch` throws. -/
theorem settlements_parsed {parse : List UInt8 → Option Json} {numberText : JsNumber → String}
    {rawMessage : RawMessage}
    {message : Json} (h : parse rawMessage.content = some message) (outcome : Except String Unit) :
    settlements parse numberText rawMessage outcome =
      if !message.isNull && (outcome.isOk || printableOrderId message) then [.acked] else [.acked, .nacked true] := by
  simp only [settlements, consume, consumeJson, h, billingHandler]
  rw [← isSome_failureText numberText]
  cases hmerge : mergeHeaders message rawMessage.headers with
  | none =>
    have hnull := mergeHeaders_eq_none.mp hmerge
    cases message with
    | null => rfl
    | _ => cases hnull
  | some merged =>
    have hnull : message.isNull = false := by
      rw [Bool.eq_false_iff, ne_eq, ← mergeHeaders_eq_none, hmerge]
      nofun
    rw [hnull]
    cases outcome with
    | ok u => rfl
    | error e => cases failureText numberText message <;> rfl

/-- A delivery is settled once exactly if its content is no JSON, or it is not `null` and
its processing returns or its order id can be printed. -/
theorem settled_once_iff (parse : List UInt8 → Option Json) (numberText : JsNumber → String) (rawMessage : RawMessage)
    (outcome : Except String Unit) :
    (settlements parse numberText rawMessage outcome).length = 1 ↔
      parse rawMessage.content = none ∨ ∃ message, parse rawMessage.content = some message ∧
        message.isNull = false ∧ (outcome.isOk = true ∨ printableOrderId message = true) := by
  cases h : parse rawMessage.content with
  | none => simp [settlements_invalid h]
  | some message =>
    rw [settlements_parsed h]
    simp only [reduceCtorEq, false_or, Option.some.injEq, exists_eq_left']
    cases message.isNull <;> cases outcome.isOk <;> cases printableOrderId message <;> simp

/-- A parser that reads the text `null`. -/
def parseNull (content : List UInt8) : Option Json :=
  if content = "null".toUTF8.toList then some .null else none

theorem null_settled_twice :
    ¬∀ (parse : List UInt8 → Option Json) (numberText : JsNumber → String) (rawMessage : RawMessage)
      (outcome : Except String Unit), (settlements parse numberText rawMessage outcome).length = 1 := by
  intro h
  have htwice : settlements parseNull (fun _ => "") ⟨"null".toUTF8.toList, fun _ => none⟩ (.ok ()) =
      [.acked, .nacked true] := by decide +kernel
  have honce := h parseNull (fun _ => "") ⟨"null".toUTF8.toList, fun _ => none⟩ (.ok ())
  rw [htwice] at honce
  cases honce

/-! ### Messages of the outbox -/

/-- What the parser makes of a message that the outbox or the worker published. -/
def encode (m : Queue.BillingMessage) : Json :=
  .object ([("orderId", .string m.orderId), ("customerId", .string m.customerId),
      ("idempotencyKey", .string m.idempotencyKey)] ++
    (m.totalCents.map fun total : Int => ("totalCents", Json.number (.finite total))).toList ++
    (m.currency.map fun currency => ("currency", Json.string currency)).toList ++
    (m.attempt.map fun attempt : Int => ("attempt", Json.number (.finite attempt))).toList ++
    (m.correlationId.map fun id => ("correlationId", Json.string id)).toList ++
    (m.requestId.map fun id => ("requestId", Json.string id)).toList ++
    (m.traceId.map fun id => ("traceId", Json.string id)).toList)

/-- The headers of a delivery. -/
def headerOf (headers : Queue.Headers) : String → Option String
  | "orderId" => some headers.orderId
  | "customerId" => some headers.customerId
  | "idempotencyKey" => some headers.idempotencyKey
  | "correlationId" => some headers.correlationId
  | "requestId" => some headers.requestId
  | "traceId" => some headers.traceId
  | _ => none

def stringOf : Option Json → Option String
  | some (.string s) => some s
  | _ => none

def integerOf : Option Json → Option Int
  | some (.number (.finite q)) => some q.num
  | _ => none

/-- A merged message with the fields of a billing message. -/
def decode (merged : MergedMessage) : Option Queue.BillingMessage := do
  let orderId ← stringOf (← merged.message.get "orderId")
  let customerId ← stringOf (← merged.message.get "customerId")
  let idempotencyKey ← stringOf (← merged.message.get "idempotencyKey")
  let totalCents ← merged.message.get "totalCents"
  let currency ← merged.message.get "currency"
  let attempt ← merged.message.get "attempt"
  return ⟨orderId, customerId, idempotencyKey, integerOf totalCents, stringOf currency, integerOf attempt,
    stringOf merged.correlationId, stringOf merged.requestId, stringOf merged.traceId⟩

@[simp] theorem stringOf_string (s : String) : stringOf (some (.string s)) = some s := rfl

@[simp] theorem stringOf_map (s : Option String) : stringOf (s.map Json.string) = s := by
  cases s <;> rfl

@[simp] theorem integerOf_map (n : Option Int) : integerOf (n.map fun n : Int => Json.number (.finite n)) = n := by
  cases n <;> simp [integerOf]

/-- The content has the fields of the message. -/
structure Body (content : Json) (m : Queue.BillingMessage) : Prop where
  orderId : content.get "orderId" = some (some (.string m.orderId))
  customerId : content.get "customerId" = some (some (.string m.customerId))
  idempotencyKey : content.get "idempotencyKey" = some (some (.string m.idempotencyKey))
  totalCents : content.get "totalCents" = some (m.totalCents.map fun total : Int => .number (.finite total))
  currency : content.get "currency" = some (m.currency.map .string)
  attempt : content.get "attempt" = some (m.attempt.map fun attempt : Int => .number (.finite attempt))
  correlationId : content.get "correlationId" = some (m.correlationId.map .string)
  requestId : content.get "requestId" = some (m.requestId.map .string)
  traceId : content.get "traceId" = some (m.traceId.map .string)

/-- An id of the content, or else of the headers. -/
theorem orHeader_map {content : Json} {key : String} {id : Option String}
    (h : content.get key = some (id.map .string)) (headers : String → Option String) {header : String}
    (hheader : headers key = some header) : orHeader content headers key = some (some (.string (id.getD header))) := by
  cases id <;> simp [orHeader, h, hheader]

theorem Body.merged {content : Json} {m : Queue.BillingMessage} (h : Body content m) (messageId : Option String)
    (headers : Queue.Headers) :
    ∃ merged, mergeHeaders content (headerOf headers) = some merged ∧
      decode merged = some (Billing.withHeaders ⟨messageId, m, headers⟩) := by
  have hmerge : mergeHeaders content (headerOf headers) = some ⟨content,
      some (.string (m.correlationId.getD headers.correlationId)), some (.string (m.requestId.getD headers.requestId)),
      some (.string (m.traceId.getD headers.traceId))⟩ := by
    simp only [mergeHeaders, orHeader_map h.correlationId (headerOf headers) rfl,
      orHeader_map h.requestId (headerOf headers) rfl, orHeader_map h.traceId (headerOf headers) rfl]
    rfl
  refine ⟨_, hmerge, ?_⟩
  simp only [decode, h.orderId, h.customerId, h.idempotencyKey, h.totalCents, h.currency, h.attempt,
    Option.bind_eq_bind, Option.bind_some, stringOf_string, stringOf_map, integerOf_map]
  rfl

/-- The order id of a message is printed. -/
theorem Body.failureText_eq {content : Json} {m : Queue.BillingMessage} (h : Body content m)
    (numberText : JsNumber → String) :
    failureText numberText content = some ("billing processing failed for " ++ m.orderId) := by
  simp [failureText, h.orderId, Json.toText]

/-- A field that is left out where its value is absent. -/
theorem lookup_optionalField {α : Type} (value : Option α) (field : α → Json) (key key' : String) :
    ((value.map fun a => (key', field a)).toList).lookup key = if key = key' then value.map field else none := by
  cases value with
  | none => simp
  | some a =>
    by_cases h : key = key'
    · simp [h]
    · simp [List.lookup_cons, beq_eq_false_iff_ne.mpr h, h]

theorem encode_body (m : Queue.BillingMessage) : Body (encode m) m := by
  constructor <;> simp [encode, Json.get, List.lookup_cons, List.lookup_append, lookup_optionalField]

theorem decode_merged (delivery : Queue.Delivery) :
    ∃ merged, mergeHeaders (encode delivery.body) (headerOf delivery.headers) = some merged ∧
      decode merged = some (Billing.withHeaders delivery) :=
  (encode_body delivery.body).merged delivery.messageId delivery.headers

/-- On content that reads as a delivery the handler is the one of the billing worker. -/
theorem consumeJson_reads {parse : List UInt8 → Option Json} {numberText : JsNumber → String}
    {rawMessage : RawMessage} {delivery : Queue.Delivery} {processWithRetry : MergedMessage → Shop.Worker Unit}
    {content : Json} {merged : MergedMessage} {text : String} (hcontent : parse rawMessage.content = some content)
    (hmerge : mergeHeaders content (headerOf delivery.headers) = some merged)
    (htext : failureText numberText content = some text)
    (hprocess : processWithRetry merged = Billing.processWithRetry (Billing.withHeaders delivery)) :
    consumeJson parse (billingHandler numberText processWithRetry fun _ => pure ())
        ⟨Shop.request .ack, fun _ => Shop.request (.nack delivery), headerOf delivery.headers⟩ rawMessage =
      Billing.consume delivery := by
  have hcaught : (handle (do
        let merged ← orTypeError (mergeHeaders content (headerOf delivery.headers))
        processWithRetry merged) fun _ => do
      let _ ← orTypeError (failureText numberText content)
      pure ()) = orElse (Billing.processWithRetry (Billing.withHeaders delivery)) () := by
    rw [hmerge, htext, ← hprocess]
    rfl
  have hack : (do
      Shop.request .ack
      pure () : Shop.Worker Unit) = Shop.request .ack :=
    await_congr fun r => by cases r <;> rfl
  simp only [consumeJson, hcontent, billingHandler]
  rw [hcaught, ensure, handle_orElse]
  simp only [hack]
  rfl

/-- A message that the worker published reads as its delivery. -/
theorem consumeJson_encoded {parse : List UInt8 → Option Json} {numberText : JsNumber → String}
    {rawMessage : RawMessage} {delivery : Queue.Delivery} {processWithRetry : MergedMessage → Shop.Worker Unit}
    (hcontent : parse rawMessage.content = some (encode delivery.body))
    (hprocess : ∀ merged message, decode merged = some message →
      processWithRetry merged = Billing.processWithRetry message) :
    consumeJson parse (billingHandler numberText processWithRetry fun _ => pure ())
        ⟨Shop.request .ack, fun _ => Shop.request (.nack delivery), headerOf delivery.headers⟩ rawMessage =
      Billing.consume delivery := by
  obtain ⟨merged, hmerge, hdecode⟩ := decode_merged delivery
  have htext := (encode_body delivery.body).failureText_eq numberText
  exact consumeJson_reads hcontent hmerge htext (hprocess merged _ hdecode)

end CaseCellShop.Consumer
