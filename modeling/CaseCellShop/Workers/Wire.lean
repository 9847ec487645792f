import CaseCellShop.Platform.JsonText
import CaseCellShop.Workers.Correlation

/-! The bytes of the billing messages (`RabbitService.publish`, `publishToRetry`,
`publishToDlq` and `consumeJson` of `libs/queue/src/rabbit.service.ts`).

A message is `Buffer.from(JSON.stringify(payload))` and is read with
`JSON.parse(content.toString('utf8'))`. Three pieces of code publish: the outbox worker
the stored payload of an event, and the billing worker a message of its own for a retry or
the DLQ. What any of them publishes is read back as the message it stands for, and the
handler that starts from the bytes is the one that starts from the message. -/
namespace CaseCellShop.Wire
open Program Queue Shop Correlation
open Consumer hiding Call perform consume encode

/-! ### Contents -/

/-- The payload of an event, an absent id left out. -/
def payloadFields (p : OrderAcceptedPayload) : List (String × Json) :=
  [("orderId", .string p.orderId), ("customerId", .string p.customerId), ("idempotencyKey", .string p.idempotencyKey),
    ("totalCents", .number (.finite p.totalCents)), ("currency", .string p.currency)] ++
    (p.correlationId.map fun id => ("correlationId", Json.string id)).toList ++
    (p.requestId.map fun id => ("requestId", Json.string id)).toList ++
    (p.traceId.map fun id => ("traceId", Json.string id)).toList

/-- What the billing worker publishes, an absent value left out; it sends no total. -/
def messageFields (m : BillingMessage) : List (String × Json) :=
  [("orderId", .string m.orderId), ("idempotencyKey", .string m.idempotencyKey), ("customerId", .string m.customerId)] ++
    (m.attempt.map fun attempt : Int => ("attempt", Json.number (.finite attempt))).toList ++
    (m.correlationId.map fun id => ("correlationId", Json.string id)).toList ++
    (m.requestId.map fun id => ("requestId", Json.string id)).toList ++
    (m.traceId.map fun id => ("traceId", Json.string id)).toList

/-- What the queue code takes from outside the repository: how Numbers print, what is read
of bytes that are no UTF-8, and the order in which a JSON column gives its fields back. -/
structure Codec where
  numberText : JsNumber → String
  repair : List UInt8 → List Char
  stored : OrderAcceptedPayload → List (String × Json)
  printsIntegers : Json.PrintsIntegers numberText
  storedFields : ∀ p, (stored p).Perm (payloadFields p)

variable (C : Codec)

/-- `Buffer.from(JSON.stringify(value))` -/
def Codec.contentOf (value : Json) : List UInt8 :=
  (String.ofList (value.stringify C.numberText)).toUTF8.data.toList

/-- `content.toString('utf8')` -/
def Codec.textOf (content : List UInt8) : List Char :=
  match String.fromUTF8? ⟨content.toArray⟩ with
  | some s => s.toList
  | none => C.repair content

/-- `JSON.parse(content.toString('utf8'))`; `none` throws. -/
def Codec.parse (content : List UInt8) : Option Json := Json.parse (C.textOf content)

theorem fromUTF8_toUTF8 (s : String) : String.fromUTF8? s.toUTF8 = some s := by
  rw [String.fromUTF8?, String.toUTF8_eq_toByteArray, dif_pos s.isValidUTF8]
  rfl

theorem Codec.parse_contentOf {value : Json} (h : value.Writable) : C.parse (C.contentOf value) = some value := by
  have htext : C.textOf (C.contentOf value) = value.stringify C.numberText := by
    unfold textOf contentOf
    rw [Array.toArray_toList, fromUTF8_toUTF8]
    exact String.toList_ofList
  rw [parse, htext, Json.parse_stringify C.printsIntegers h]

/-! ### What is read of a content -/

/-- The fields a message can have, as they are read. -/
def bodyOf (content : Json) : BillingMessage where
  orderId := ((content.get "orderId").bind stringOf).getD ""
  customerId := ((content.get "customerId").bind stringOf).getD ""
  idempotencyKey := ((content.get "idempotencyKey").bind stringOf).getD ""
  totalCents := (content.get "totalCents").bind integerOf
  currency := (content.get "currency").bind stringOf
  attempt := (content.get "attempt").bind integerOf
  correlationId := (content.get "correlationId").bind stringOf
  requestId := (content.get "requestId").bind stringOf
  traceId := (content.get "traceId").bind stringOf

theorem bodyOf_eq {content : Json} {m : BillingMessage} (h : Body content m) : bodyOf content = m := by
  simp only [bodyOf, h.orderId, h.customerId, h.idempotencyKey, h.totalCents, h.currency, h.attempt, h.correlationId,
    h.requestId, h.traceId, Option.bind_some, stringOf_string, stringOf_map, integerOf_map, Option.getD_some]

theorem reads_of_body {content : Json} {m : BillingMessage} (h : Body content m) (messageId : Option String)
    (headers : Headers) : Reads C.numberText content ⟨messageId, m, headers⟩ :=
  ⟨h.merged messageId headers, _, h.failureText_eq C.numberText⟩

/-! ### What is published -/

/-- A Number of the JSON column or of a message is an integer that prints in full. -/
def Printable (n : Int) : Prop := n.natAbs < 2 ^ 53

instance (n : Int) : Decidable (Printable n) := inferInstanceAs (Decidable (_ < _))

/-- A message of the billing worker: its attempt number prints in full, and it has no total. -/
structure Resent (m : BillingMessage) : Prop where
  attempt : ∀ attempt ∈ m.attempt, Printable attempt
  totalCents : m.totalCents = none
  currency : m.currency = none

/-- A field that is left out where its value is absent. -/
theorem optionalField_writable {α : Type} {value : Option α} {field : α → String × Json}
    (h : ∀ a ∈ value, (field a).2.Writable) : ∀ f ∈ (value.map field).toList, f.2.Writable := by
  cases value with
  | none => simp
  | some a => simpa using h a rfl

theorem payloadFields_writable {p : OrderAcceptedPayload} (h : Printable p.totalCents) :
    (Json.object (payloadFields p)).Writable := by
  refine ⟨?_, Json.fieldsWritable_iff.mpr ?_⟩
  · unfold payloadFields
    cases p.correlationId <;> cases p.requestId <;> cases p.traceId <;> simp
  · simp only [payloadFields, List.forall_mem_append]
    refine ⟨⟨⟨?_, ?_⟩, ?_⟩, ?_⟩
    · simp only [List.forall_mem_cons]
      exact ⟨trivial, trivial, trivial, ⟨_, h, rfl⟩, trivial, List.forall_mem_nil _⟩
    · exact optionalField_writable fun _ _ => trivial
    · exact optionalField_writable fun _ _ => trivial
    · exact optionalField_writable fun _ _ => trivial

theorem messageFields_writable {m : BillingMessage} (h : ∀ attempt ∈ m.attempt, Printable attempt) :
    (Json.object (messageFields m)).Writable := by
  refine ⟨?_, Json.fieldsWritable_iff.mpr ?_⟩
  · unfold messageFields
    cases m.attempt <;> cases m.correlationId <;> cases m.requestId <;> cases m.traceId <;> simp
  · simp only [messageFields, List.forall_mem_append]
    refine ⟨⟨⟨⟨?_, ?_⟩, ?_⟩, ?_⟩, ?_⟩
    · simp [Json.Writable]
    · exact optionalField_writable fun attempt hattempt => ⟨attempt, h attempt hattempt, rfl⟩
    · exact optionalField_writable fun _ _ => trivial
    · exact optionalField_writable fun _ _ => trivial
    · exact optionalField_writable fun _ _ => trivial

theorem payload_body (event : OutboxEvent) :
    Body (.object (payloadFields event.payload)) (Outbox.messageOf event).body := by
  constructor <;> simp [payloadFields, Outbox.messageOf, Json.get, List.lookup_cons, List.lookup_append,
    lookup_optionalField]

theorem message_body {m : BillingMessage} (h : Resent m) : Body (.object (messageFields m)) m := by
  constructor <;>
    simp [messageFields, h.totalCents, h.currency, Json.get, List.lookup_cons, List.lookup_append,
      lookup_optionalField]

theorem body_perm {fields fields' : List (String × Json)} {m : BillingMessage} (h : Body (.object fields) m)
    (hnodup : (fields.map Prod.fst).Nodup) (hperm : fields'.Perm fields) : Body (.object fields') m := by
  have hget : ∀ key, (Json.object fields').get key = (Json.object fields).get key := fun key =>
    congrArg some (Json.lookup_perm hnodup hperm key)
  constructor <;> rw [hget]
  · exact h.orderId
  · exact h.customerId
  · exact h.idempotencyKey
  · exact h.totalCents
  · exact h.currency
  · exact h.attempt
  · exact h.correlationId
  · exact h.requestId
  · exact h.traceId

/-! ### Messages in the queues -/

/-- A message as the broker keeps it. -/
structure RawDelivery where
  messageId : Option String
  content : List UInt8
  headers : Headers
  deriving DecidableEq

/-- What the outbox worker publishes of an event. -/
def Codec.published (event : OutboxEvent) : RawDelivery where
  messageId := some event.id
  content := C.contentOf (.object (C.stored event.payload))
  headers := (Outbox.messageOf event).headers

/-- What the billing worker publishes. -/
def Codec.sent (d : Delivery) : RawDelivery where
  messageId := d.messageId
  content := C.contentOf (.object (messageFields d.body))
  headers := d.headers

/-- The message a handler makes of what the broker keeps. -/
def Codec.read (raw : RawDelivery) : Delivery :=
  ⟨raw.messageId, ((C.parse raw.content).map bodyOf).getD (bodyOf .null), raw.headers⟩

/-- The content reads as a message whose attempt number prints in full. -/
structure Codec.Legible (raw : RawDelivery) : Prop where
  content : ∃ content, C.parse raw.content = some content ∧ Body content (C.read raw).body
  attempt : ∀ attempt ∈ (C.read raw).body.attempt, Printable attempt

theorem Codec.legible_of {raw : RawDelivery} {content : Json} {m : BillingMessage}
    (hparse : C.parse raw.content = some content) (hbody : Body content m) (hattempt : ∀ n ∈ m.attempt, Printable n) :
    C.read raw = ⟨raw.messageId, m, raw.headers⟩ ∧ C.Legible raw := by
  have hread : C.read raw = ⟨raw.messageId, m, raw.headers⟩ := by
    simp [read, hparse, bodyOf_eq hbody]
  refine ⟨hread, ⟨content, hparse, ?_⟩, ?_⟩
  · rw [hread]
    exact hbody
  · rw [hread]
    exact hattempt

/-- A published event is read back. -/
theorem Codec.read_published {event : OutboxEvent} (h : Printable event.payload.totalCents) :
    C.read (C.published event) = Outbox.messageOf event ∧ C.Legible (C.published event) := by
  have hperm := C.storedFields event.payload
  have hwritable := payloadFields_writable h
  exact C.legible_of (C.parse_contentOf (Json.writable_perm hperm hwritable))
    (body_perm (payload_body event) hwritable.1 hperm) nofun

/-- A message of the billing worker is read back. -/
theorem Codec.read_sent {d : Delivery} (h : Resent d.body) : C.read (C.sent d) = d ∧ C.Legible (C.sent d) :=
  C.legible_of (C.parse_contentOf (messageFields_writable h.attempt)) (message_body h) h.attempt

theorem Codec.Legible.reads {raw : RawDelivery} (h : C.Legible raw) :
    ∃ content, C.parse raw.content = some content ∧ Reads C.numberText content (C.read raw) := by
  obtain ⟨content, hparse, hbody⟩ := h.content
  exact ⟨content, hparse, reads_of_body C hbody raw.messageId raw.headers⟩

end CaseCellShop.Wire
