import Mathlib.Data.List.Chain
import CaseCellShop.Workers.Consumer
import CaseCellShop.Workers.Outbox

/-! The correlation data of an event on its way through the billing pipeline.

Four pieces of code carry it: the payload leaves an absent id out, the publisher writes
it as an empty header, the worker takes the header where the body has none, and the
consumer publishes what it took, in body and headers. -/
namespace CaseCellShop.Correlation
open Program Queue Shop
open Consumer hiding Call perform consume

/-! ### The journey of an event -/

/-- The published payload as it is parsed. -/
def encodePayload (p : OrderAcceptedPayload) : Json :=
  .object ([("orderId", .string p.orderId), ("customerId", .string p.customerId),
      ("idempotencyKey", .string p.idempotencyKey), ("totalCents", .number (.finite p.totalCents)),
      ("currency", .string p.currency)] ++
    (p.correlationId.map fun id => ("correlationId", Json.string id)).toList ++
    (p.requestId.map fun id => ("requestId", Json.string id)).toList ++
    (p.traceId.map fun id => ("traceId", Json.string id)).toList)

/-- `processWithRetry` on a merged message. -/
def processMerged (merged : MergedMessage) : Worker Unit :=
  match decode merged with
  | some message => Billing.processWithRetry message
  | none => throw "not a billing message"

/-- A call, its answer, and whether it took effect. A call that is answered did; of one
that ends in an exception the answer may have been lost. -/
structure Outcome where
  call : Call
  answer : Except String (Answer call)
  tookEffect : Bool
  answered : answer.isOk = true → tookEffect = true

def exchanges (outcomes : List Outcome) : List ((q : Call) × Except String (Answer q)) :=
  outcomes.map fun o => ⟨o.call, o.answer⟩

section
variable (parse : List UInt8 → Option Json) (numberText : JsNumber → String)

/-- The worker's handling of a delivery, from its bytes on. -/
def handling (delivery : Delivery) (rawMessage : RawMessage) : Worker Unit :=
  consumeJson parse (billingHandler numberText processMerged fun _ => pure ())
    ⟨request .ack, fun _ => request (.nack delivery), rawMessage.headers⟩ rawMessage

/-- A delivery that has come of an event, its parsed content, and the calls of all
handlings so far. A delivery may be handled again, and a call may be answered in any
way. -/
inductive Journey (event : OutboxEvent) : Delivery → Json → List Outcome → Prop
  | published : Journey event (Outbox.messageOf event) (encodePayload event.payload) []
  | handled {delivery content outcomes} (h : Journey event delivery content outcomes) (rawMessage : RawMessage)
      (hcontent : parse rawMessage.content = some content) (hheaders : rawMessage.headers = headerOf delivery.headers)
      {outcomes' : List Outcome} {result : Except String Unit}
      (hcalls : Answered (handling parse numberText delivery rawMessage) (exchanges outcomes') result) :
      Journey event delivery content (outcomes ++ outcomes')
  | retried {delivery content outcomes} (h : Journey event delivery content outcomes) {retry : Delivery}
      (hsent : ∃ o ∈ outcomes, o.call = .publishToRetry retry) :
      Journey event retry (encode retry.body) outcomes

end

/-- The messages published again. -/
def republishedIn (outcomes : List Outcome) : List Delivery :=
  outcomes.filterMap fun o =>
    match o.call with
    | .publishToRetry delivery | .publishToDlq delivery => some delivery
    | _ => none

/-- The row that the call has inserted. -/
def Outcome.row (o : Outcome) : Option IntegrationAttempt :=
  match o.call with
  | .createIntegrationAttempt row => if o.tookEffect then some row else none
  | _ => none

/-- The rows that the database has of failed attempts. -/
def attemptRows (outcomes : List Outcome) : List IntegrationAttempt := outcomes.filterMap Outcome.row

/-- A call of `processMessage` ends in an exception: the attempt fails. -/
def Outcome.failsAttempt (o : Outcome) : Bool :=
  match o.call with
  | .findOrder _ | .billOrder _ _ | .markBilled _ _ => !o.answer.isOk
  | _ => false

/-- No failed attempt is recorded: the call after the one that failed, which is the insert
of its row, took no effect. -/
def Unrecorded (outcomes : List Outcome) : Prop :=
  outcomes.IsChain fun o next => o.failsAttempt = true → next.tookEffect = false

/-- An id that was there is the same in body and header; one that was absent is absent or
empty. -/
def SameId (original body : Option String) (header : String) : Prop :=
  match original with
  | some id => body = some id ∧ header = id
  | none => (body = none ∨ body = some "") ∧ header = ""

structure SameIds (p : OrderAcceptedPayload) (d : Delivery) : Prop where
  correlationId : SameId p.correlationId d.body.correlationId d.headers.correlationId
  requestId : SameId p.requestId d.body.requestId d.headers.requestId
  traceId : SameId p.traceId d.body.traceId d.headers.traceId

def IdsKept (p : OrderAcceptedPayload) (outcomes : List Outcome) : Prop := ∀ d ∈ republishedIn outcomes, SameIds p d

/-- Every row has the payload's correlation id, or its idempotency key without one. -/
def RowsCorrelated (p : OrderAcceptedPayload) (outcomes : List Outcome) : Prop :=
  ∀ row ∈ attemptRows outcomes, row.correlationId = p.correlationId.getD p.idempotencyKey

/-! ### One hop -/

/-- What the worker takes for an id, whatever hop the delivery is on. -/
theorem SameId.merged {original body : Option String} {header : String} (h : SameId original body header) :
    body.getD header = original.getD "" := by
  cases original with
  | some id =>
    obtain ⟨rfl, rfl⟩ := h
    rfl
  | none =>
    obtain ⟨rfl | rfl, rfl⟩ := h <;> rfl

theorem SameId.first (original : Option String) : SameId original original (original.getD "") := by
  cases original with
  | some id => exact ⟨rfl, rfl⟩
  | none => exact ⟨.inl rfl, rfl⟩

theorem SameId.again (original : Option String) : SameId original (some (original.getD "")) (original.getD "") := by
  cases original with
  | some id => exact ⟨rfl, rfl⟩
  | none => exact ⟨.inr rfl, rfl⟩

theorem sameIds_messageOf (event : OutboxEvent) : SameIds event.payload (Outbox.messageOf event) :=
  ⟨.first _, .first _, .first _⟩

/-- A message with the ids the worker took for a payload. -/
structure Merged (p : OrderAcceptedPayload) (message : BillingMessage) : Prop where
  correlationId : message.correlationId = some (p.correlationId.getD "")
  requestId : message.requestId = some (p.requestId.getD "")
  traceId : message.traceId = some (p.traceId.getD "")

theorem merged_withHeaders {p : OrderAcceptedPayload} {d : Delivery} (h : SameIds p d) :
    Merged p (Billing.withHeaders d) :=
  ⟨congrArg some h.correlationId.merged, congrArg some h.requestId.merged, congrArg some h.traceId.merged⟩

theorem sameIds_republished {p : OrderAcceptedPayload} {message : BillingMessage} (h : Merged p message)
    (attempt : Int) : SameIds p (Billing.republished message attempt) := by
  constructor
  · simp only [Billing.republished, h.correlationId]
    exact .again _
  · simp only [Billing.republished, h.requestId]
    exact .again _
  · simp only [Billing.republished, h.traceId]
    exact .again _

/-- What a handling writes and publishes: the fallback to the idempotency key is never
taken. -/
def Carried (p : OrderAcceptedPayload) : Call → Prop
  | .createIntegrationAttempt row => row.correlationId = p.correlationId.getD ""
  | .publishToRetry d | .publishToDlq d => SameIds p d
  | _ => True

theorem consume_carried {p : OrderAcceptedPayload} {d : Delivery} (h : SameIds p d) :
    (Billing.consume d).OnlyCalls (Carried p) := by
  have hmerged := merged_withHeaders h
  have hfailure (error : String) :
      (Billing.processFailure (Billing.withHeaders d) error).OnlyCalls (Carried p) := by
    have hrow : (Billing.attemptRow (Billing.withHeaders d) error).correlationId = p.correlationId.getD "" := by
      simp [Billing.attemptRow, hmerged.correlationId]
    exact Billing.processFailure_onlyCalls hrow (fun _ _ => trivial) (sameIds_republished hmerged _)
      (sameIds_republished hmerged _)
  have hprocess : (Billing.processMessage (Billing.withHeaders d)).OnlyCalls (Carried p) :=
    Billing.processMessage_onlyCalls (fun _ => trivial) (fun _ _ => trivial) (fun _ _ => trivial) _
  exact Billing.consume_onlyCalls hprocess hfailure trivial trivial

/-! ### Failing attempts -/

theorem answered_await {q : Call} {next : Except String (Answer q) → Worker Unit} {outcomes : List Outcome}
    {result : Except String Unit} (h : Answered (await q next) (exchanges outcomes) result) :
    ∃ r tookEffect answered rest, outcomes = ⟨q, r, tookEffect, answered⟩ :: rest ∧
      Answered (next r) (exchanges rest) result := by
  cases outcomes with
  | nil => cases h
  | cons o rest =>
    obtain ⟨call, answer, tookEffect, answered⟩ := o
    cases h with
    | await r h => exact ⟨_, _, _, _, rfl, h⟩

/-- The calls come in order: after one that fails an attempt the row is inserted, and
no row is inserted otherwise. -/
inductive Paired : List Outcome → Prop
  | nil : Paired []
  | quiet {o rest} (hfails : o.failsAttempt = false) (hcall : ∀ row, o.call ≠ .createIntegrationAttempt row)
      (h : Paired rest) : Paired (o :: rest)
  | recorded {o insert rest} (hfails : o.failsAttempt = true) {row : IntegrationAttempt}
      (hinsert : insert.call = .createIntegrationAttempt row) (h : Paired rest) : Paired (o :: insert :: rest)

theorem Paired.append {outcomes outcomes' : List Outcome} (h : Paired outcomes) (h' : Paired outcomes') :
    Paired (outcomes ++ outcomes') := by
  induction h with
  | nil => exact h'
  | quiet hfails hcall _ ih => exact .quiet hfails hcall ih
  | recorded hfails hinsert _ ih => exact .recorded hfails hinsert ih

/-- Calls that neither fail an attempt nor insert a row. -/
def Aside : Call → Prop
  | .findOrder _ | .billOrder _ _ | .markBilled _ _ | .createIntegrationAttempt _ => False
  | _ => True

theorem Aside.quiet {o : Outcome} (h : Aside o.call) :
    o.failsAttempt = false ∧ ∀ row, o.call ≠ .createIntegrationAttempt row := by
  obtain ⟨call, answer, tookEffect, answered⟩ := o
  cases call <;> first | exact h.elim | exact ⟨rfl, nofun⟩

theorem paired_aside {outcomes : List Outcome} (h : ∀ o ∈ outcomes, Aside o.call) : Paired outcomes := by
  induction outcomes with
  | nil => exact .nil
  | cons o rest ih =>
    obtain ⟨ho, hrest⟩ := List.forall_mem_cons.mp h
    exact .quiet ho.quiet.1 ho.quiet.2 (ih hrest)

theorem paired_onlyCalls {program : Worker Unit} {outcomes : List Outcome} {result : Except String Unit}
    (hprogram : program.OnlyCalls Aside) (h : Answered program (exchanges outcomes) result) : Paired outcomes :=
  paired_aside fun o ho => h.onlyCalls hprogram ⟨o.call, o.answer⟩ (List.mem_map_of_mem ho)

theorem settle_aside (d : Delivery) : (Billing.settle d).OnlyCalls Aside := by
  refine ⟨trivial, fun r => ?_⟩
  cases r with
  | error e => exact onlyCalls_call trivial
  | ok u => trivial

variable {d : Delivery} {outcomes : List Outcome} {result : Except String Unit}

theorem paired_recordFailure {o : Outcome} {e : String} (hfails : o.failsAttempt = true)
    (h : Answered (Billing.recordFailure d e) (exchanges outcomes) result) : Paired (o :: outcomes) := by
  obtain ⟨r, tookEffect, answered, rest, rfl, hnext⟩ := answered_await h
  refine .recorded hfails rfl (paired_onlyCalls ?_ hnext)
  cases r with
  | error e => exact settle_aside d
  | ok u =>
    show (if _ then _ else _ : Worker Unit).OnlyCalls Aside
    split
    · refine ⟨trivial, fun r => ?_⟩
      cases r with
      | error e => exact settle_aside d
      | ok order => exact ⟨trivial, fun _ => settle_aside d⟩
    · exact ⟨trivial, fun _ => settle_aside d⟩

theorem paired_mark {orderId invoiceId : String}
    (h : Answered (Billing.mark d orderId invoiceId) (exchanges outcomes) result) : Paired outcomes := by
  obtain ⟨r, tookEffect, answered, rest, rfl, hnext⟩ := answered_await h
  cases r with
  | error e => exact paired_recordFailure rfl hnext
  | ok updated => exact .quiet rfl nofun (paired_onlyCalls (settle_aside d) hnext)

theorem paired_bill {order : Order} (h : Answered (Billing.bill d order) (exchanges outcomes) result) :
    Paired outcomes := by
  obtain ⟨r, tookEffect, answered, rest, rfl, hnext⟩ := answered_await h
  cases r with
  | error e => exact paired_recordFailure rfl hnext
  | ok invoice => exact .quiet rfl nofun (paired_mark hnext)

theorem paired_consume (h : Answered (Billing.consume d) (exchanges outcomes) result) : Paired outcomes := by
  rw [Billing.consume_eq] at h
  obtain ⟨r, tookEffect, answered, rest, rfl, hnext⟩ := answered_await h
  cases r with
  | error e => exact paired_recordFailure rfl hnext
  | ok order =>
    refine .quiet rfl nofun ?_
    by_cases hbilled : order.status = .billed
    · exact paired_onlyCalls (settle_aside d) (by simpa only [if_pos hbilled] using hnext)
    · exact paired_bill (by simpa only [if_neg hbilled] using hnext)

/-- There are no rows exactly if no failed attempt is recorded. -/
theorem Paired.unrecorded_iff (h : Paired outcomes) : Unrecorded outcomes ↔ attemptRows outcomes = [] := by
  unfold Unrecorded attemptRows
  induction h with
  | nil => exact iff_of_true .nil rfl
  | @quiet o rest hfails hcall _ ih =>
    obtain ⟨call, answer, tookEffect, answered⟩ := o
    have hrow : Outcome.row ⟨call, answer, tookEffect, answered⟩ = none := by
      cases call <;> first | rfl | exact absurd rfl (hcall _)
    rw [List.isChain_cons, List.filterMap_cons_none hrow, ih]
    simp [hfails]
  | @recorded o insert rest hfails row hinsert _ ih =>
    have hrow : o.row = none := by
      obtain ⟨call, answer, tookEffect, answered⟩ := o
      cases call <;> first | rfl | cases hfails
    obtain ⟨call, answer, tookEffect, answered⟩ := insert
    subst hinsert
    rw [List.isChain_cons_cons, List.isChain_cons, List.filterMap_cons_none hrow, ih]
    cases tookEffect with
    | false =>
      rw [List.filterMap_cons_none rfl]
      simp [Outcome.failsAttempt]
    | true =>
      exact iff_of_false (fun ⟨hrefused, _⟩ => Bool.noConfusion (hrefused hfails)) (List.cons_ne_nil row _)

/-! ### The journey -/

/-- The content is read as the delivery. -/
def Reads (numberText : JsNumber → String) (content : Json) (d : Delivery) : Prop :=
  (∃ merged, mergeHeaders content (headerOf d.headers) = some merged ∧
    decode merged = some (Billing.withHeaders d)) ∧ ∃ text, failureText numberText content = some text

theorem reads_payload (numberText : JsNumber → String) (event : OutboxEvent) :
    Reads numberText (encodePayload event.payload) (Outbox.messageOf event) := by
  obtain ⟨id, aggregateType, aggregateId, eventType, payload, status, attempts, lastError, orderRef⟩ := event
  obtain ⟨orderId, customerId, key, total, currency, correlationId, requestId, traceId⟩ := payload
  cases correlationId <;> cases requestId <;> cases traceId <;> exact ⟨⟨_, rfl, rfl⟩, _, rfl⟩

theorem reads_encode (numberText : JsNumber → String) (d : Delivery) : Reads numberText (encode d.body) d :=
  ⟨decode_merged d, _, rfl⟩

variable {parse : List UInt8 → Option Json} {numberText : JsNumber → String}

theorem handling_eq {d : Delivery} {content : Json} {rawMessage : RawMessage}
    (hcontent : parse rawMessage.content = some content) (hheaders : rawMessage.headers = headerOf d.headers)
    (hreads : Reads numberText content d) : handling parse numberText d rawMessage = Billing.consume d := by
  obtain ⟨⟨merged, hmerge, hdecode⟩, text, htext⟩ := hreads
  unfold handling
  rw [hheaders]
  apply consumeJson_reads hcontent hmerge htext
  simp only [processMerged, hdecode]

/-- Every delivery of the journey has the ids of the payload, and every call carries them. -/
theorem Journey.carried {event : OutboxEvent} {d : Delivery} {content : Json} {outcomes : List Outcome}
    (h : Journey parse numberText event d content outcomes) :
    SameIds event.payload d ∧ Reads numberText content d ∧ ∀ o ∈ outcomes, Carried event.payload o.call := by
  induction h with
  | published => exact ⟨sameIds_messageOf event, reads_payload numberText event, List.forall_mem_nil _⟩
  | handled h rawMessage hcontent hheaders hcalls ih =>
    obtain ⟨hids, hreads, hcarried⟩ := ih
    rw [handling_eq hcontent hheaders hreads] at hcalls
    have hlater := hcalls.onlyCalls (consume_carried hids)
    exact ⟨hids, hreads, List.forall_mem_append.mpr
      ⟨hcarried, fun o ho => hlater ⟨o.call, o.answer⟩ (List.mem_map_of_mem ho)⟩⟩
  | @retried d content outcomes h retry hsent ih =>
    obtain ⟨o, ho, hcall⟩ := hsent
    have hids := ih.2.2 o ho
    rw [hcall] at hids
    exact ⟨hids, reads_encode numberText retry, ih.2.2⟩

theorem Journey.idsKept {event : OutboxEvent} {d : Delivery} {content : Json} {outcomes : List Outcome}
    (h : Journey parse numberText event d content outcomes) : IdsKept event.payload outcomes := by
  intro sent hsent
  obtain ⟨o, ho, hsome⟩ := List.mem_filterMap.mp hsent
  have hcarried := h.carried.2.2 o ho
  obtain ⟨call, answer, tookEffect, answered⟩ := o
  cases call <;> cases hsome <;> exact hcarried

/-- The fallback to the idempotency key is in no row. -/
theorem Journey.rows {event : OutboxEvent} {d : Delivery} {content : Json} {outcomes : List Outcome}
    (h : Journey parse numberText event d content outcomes) :
    ∀ row ∈ attemptRows outcomes, row.correlationId = event.payload.correlationId.getD "" := by
  intro row hrow
  obtain ⟨o, ho, hsome⟩ := List.mem_filterMap.mp hrow
  have hcarried := h.carried.2.2 o ho
  obtain ⟨call, answer, tookEffect, answered⟩ := o
  cases call <;> cases tookEffect <;> cases hsome
  exact hcarried

theorem Journey.paired {event : OutboxEvent} {d : Delivery} {content : Json} {outcomes : List Outcome}
    (h : Journey parse numberText event d content outcomes) : Paired outcomes := by
  induction h with
  | published => exact .nil
  | handled h rawMessage hcontent hheaders hcalls ih =>
    rw [handling_eq hcontent hheaders h.carried.2.1] at hcalls
    exact ih.append (paired_consume hcalls)
  | retried _ _ ih => exact ih

/-- The ids survive every retry and the way to the DLQ; the rows of the failed attempts
have the right correlation id if the payload has one, or no failed attempt is recorded. -/
theorem correlation_survives_iff (parse : List UInt8 → Option Json) (numberText : JsNumber → String)
    (event : OutboxEvent) (d : Delivery) (content : Json) (outcomes : List Outcome)
    (h : Journey parse numberText event d content outcomes) :
    IdsKept event.payload outcomes ∧
      (IdsKept event.payload outcomes ∧ RowsCorrelated event.payload outcomes ↔
        event.payload.correlationId.isSome ∨ event.payload.idempotencyKey = "" ∨ Unrecorded outcomes) := by
  have hrows := h.rows
  refine ⟨h.idsKept, ?_⟩
  rw [and_iff_right h.idsKept, RowsCorrelated, h.paired.unrecorded_iff]
  cases hid : event.payload.correlationId with
  | some id =>
    rw [hid] at hrows
    simpa using hrows
  | none =>
    rw [hid] at hrows
    simp only [Option.getD_none, Option.isSome_none, Bool.false_eq_true, false_or] at hrows ⊢
    constructor
    · intro hkey
      cases hwritten : attemptRows outcomes with
      | nil => exact .inr rfl
      | cons row rest =>
        rw [hwritten] at hrows hkey
        exact .inl ((hkey row (.head rest)).symm.trans (hrows row (.head rest)))
    · rintro (hkey | hnone)
      · rwa [hkey]
      · rw [hnone]
        exact List.forall_mem_nil _

/-! ### A failed first attempt -/

/-- The event of an order whose request had a correlation id, or none. -/
def accepted (correlationId : Option String) : OutboxEvent where
  id := "e1"
  aggregateType := "Order"
  aggregateId := "o1"
  eventType := "OrderAccepted"
  payload := ⟨"o1", "c1", "k", 500, "BRL", correlationId, none, none⟩
  status := .pending
  attempts := 0
  lastError := none
  orderId := some "o1"

/-- Its payload as it is published. -/
def payloadText (correlationId : Option String) : String :=
  "\x7b\"orderId\":\"o1\",\"customerId\":\"c1\",\"idempotencyKey\":\"k\",\"totalCents\":500,\"currency\":\"BRL\"" ++
    (correlationId.map fun id => ",\"correlationId\":\"" ++ id ++ "\"").getD "" ++ "\x7d"

/-- A parser that reads this text. -/
def parsePayload (correlationId : Option String) (content : List UInt8) : Option Json :=
  if content = (payloadText correlationId).toUTF8.toList then some (encodePayload (accepted correlationId).payload)
  else none

/-- A call that is answered. -/
def answer (call : Call) (value : Answer call) : Outcome := ⟨call, .ok value, true, fun _ => rfl⟩

/-- The order cannot be read, and the message is sent for a retry. -/
def failedAttempt (correlationId : Option String) : List Outcome :=
  let message := Billing.withHeaders (Outbox.messageOf (accepted correlationId))
  [⟨.findOrder "o1", .error "timeout", false, nofun⟩,
    answer (.createIntegrationAttempt (Billing.attemptRow message "timeout")) (),
    answer (.publishToRetry (Billing.republished message 2)) (), answer .ack ()]

theorem journey_failed (correlationId : Option String) :
    Journey (parsePayload correlationId) (fun _ => "") (accepted correlationId)
      (Outbox.messageOf (accepted correlationId)) (encodePayload (accepted correlationId).payload)
      (failedAttempt correlationId) := by
  let delivery := Outbox.messageOf (accepted correlationId)
  let rawMessage : RawMessage := ⟨(payloadText correlationId).toUTF8.toList, headerOf delivery.headers⟩
  have hcontent : parsePayload correlationId rawMessage.content =
      some (encodePayload (accepted correlationId).payload) := if_pos rfl
  have hanswered : Answered (Billing.consume delivery) (exchanges (failedAttempt correlationId)) (.ok ()) := by
    rw [Billing.consume_eq]
    refine .await (.error "timeout") ?_
    show Answered (Billing.recordFailure delivery "timeout") _ _
    refine .await _ ?_
    show Answered (Billing.toRetry delivery) _ _
    refine .await _ ?_
    exact .await _ (.done _)
  rw [← handling_eq hcontent rfl (reads_payload (fun _ => "") (accepted correlationId))] at hanswered
  exact Journey.handled .published rawMessage hcontent rfl hanswered

theorem absent_correlation_recorded_empty :
    ¬∀ (parse : List UInt8 → Option Json) (numberText : JsNumber → String) (event : OutboxEvent) (d : Delivery)
      (content : Json) (outcomes : List Outcome), Journey parse numberText event d content outcomes →
      RowsCorrelated event.payload outcomes := by
  intro h
  have hrows := h _ _ _ _ _ _ (journey_failed none)
  exact absurd hrows (by unfold RowsCorrelated; decide +kernel)

theorem correlation_survives_present :
    IdsKept (accepted (some "corr")).payload (failedAttempt (some "corr")) ∧
      RowsCorrelated (accepted (some "corr")).payload (failedAttempt (some "corr")) :=
  (correlation_survives_iff _ _ _ _ _ _ (journey_failed (some "corr"))).2.mpr (.inl rfl)

end CaseCellShop.Correlation
