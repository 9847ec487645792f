import CaseCellShop.Library.Refinement
import CaseCellShop.Shop.System
import CaseCellShop.Workers.Wire

/-! The back office with messages of bytes.

The queues hold what the broker holds, contents of bytes with their headers, and the
billing handler starts from those: it parses the content, takes the ids the content lacks
from the headers, and returns the very message to the queue if its handler throws. Every
run of this back office is one of the back office whose queues hold messages
(`wire_refines`), with the same store and ERP and with each content read as a message. -/
namespace CaseCellShop.Shop.Wire
open Program Queue CaseCellShop.Wire
open Consumer (consumeJson billingHandler headerOf mergeHeaders decode MergedMessage)

/-! ### Calls -/

inductive RawCall where
  /-- A call that neither reads nor returns a message of the queues. -/
  | worker (q : Call)
  | publishEvent (event : OutboxEvent)
  | nackRaw (raw : RawDelivery)

variable (C : Codec)

/-- The call of the worker that a call stands for. -/
def RawCall.toCall : RawCall → Call
  | .worker q => q
  | .publishEvent event => .publish (Outbox.messageOf event)
  | .nackRaw raw => .nack (C.read raw)

/-- What each call answers. -/
@[reducible] def RawAnswer (q : RawCall) : Type := Answer (q.toCall C)

abbrev RawWorker (α : Type) := Program RawCall (RawAnswer C) String α

/-- A worker that handles no contents. -/
def lift {α : Type} (p : Worker α) : RawWorker C α := mapCalls (S := RawAnswer C) RawCall.worker p

/-- The worker that a worker stands for. -/
def meaning {α : Type} (p : RawWorker C α) : Worker α := mapCalls (S := Answer) (RawCall.toCall C) p

theorem meaning_lift {α : Type} (p : Worker α) : meaning C (lift C p) = p := by
  induction p with
  | done result => rfl
  | await q next ih => exact await_congr ih
  | all qs next ih =>
    show Program.all _ _ = _
    rw [List.map_map]
    exact congrArg₂ Program.all (List.map_id'' (fun _ => rfl) qs) ih

theorem meaning_bind {α β : Type} (p : RawWorker C α) (k : α → RawWorker C β) :
    meaning C (p >>= k) = meaning C p >>= fun a => meaning C (k a) :=
  mapCalls_bind (f := RawCall.toCall C) (S := Answer) p k

theorem meaning_handle {α : Type} (p : RawWorker C α) (h : String → RawWorker C α) :
    meaning C (p.handle h) = (meaning C p).handle fun e => meaning C (h e) :=
  mapCalls_handle (f := RawCall.toCall C) (S := Answer) p h

theorem meaning_ensure {α : Type} (p : RawWorker C α) (q : RawWorker C Unit) :
    meaning C (p.ensure q) = (meaning C p).ensure (meaning C q) :=
  mapCalls_ensure (f := RawCall.toCall C) (S := Answer) p q

theorem meaning_each {β : Type} (k : β → RawWorker C Unit) (bs : List β) :
    meaning C (each k bs) = each (fun b => meaning C (k b)) bs :=
  mapCalls_each (f := RawCall.toCall C) (S := Answer) k bs

/-- One call of a worker. -/
abbrev rawRequest (q : RawCall) : RawWorker C (RawAnswer C q) := Program.call q

/-! ### Workers -/

def publishEvent (event : OutboxEvent) : RawWorker C Unit :=
  handle
    (do
      rawRequest C (.publishEvent event)
      lift C (request (.markPublished event.id)))
    fun error => lift C (request (.markEventFailed event.id error))

def publishPending : RawWorker C Unit := do
  lift C (request .ensureTopology)
  let events : List OutboxEvent ← lift C (request .findPendingEvents)
  each (publishEvent C) events

/-- The handler of a message, from its bytes on. -/
def consume (raw : RawDelivery) : RawWorker C Unit :=
  consumeJson C.parse
    (billingHandler C.numberText (fun merged => lift C (Correlation.processMerged merged)) fun _ => pure ())
    ⟨lift C (request .ack), fun _ => rawRequest C (.nackRaw raw), headerOf raw.headers⟩ ⟨raw.content, headerOf raw.headers⟩

theorem meaning_publishEvent (event : OutboxEvent) : meaning C (publishEvent C event) = Outbox.publishEvent event :=
  (meaning_handle C _ _).trans (congrArg₂ handle (meaning_bind C _ _) rfl)

theorem meaning_publishPending : meaning C (publishPending C) = Outbox.publishPending := by
  refine (meaning_bind C _ _).trans (congrArg _ (funext fun _ => ?_))
  refine (meaning_bind C _ _).trans (congrArg _ (funext fun events => ?_))
  exact (meaning_each C _ _).trans (congrArg (fun f => each f events) (funext (meaning_publishEvent C)))

theorem meaning_orTypeError {α : Type} (o : Option α) :
    meaning C (Consumer.orTypeError o) = Consumer.orTypeError o := by
  cases o <;> rfl

theorem meaning_consume {raw : RawDelivery} (h : C.Legible raw) :
    meaning C (consume C raw) = Billing.consume (C.read raw) := by
  obtain ⟨content, hparse, hreads⟩ := h.reads C
  have hhandling : Correlation.handling C.parse C.numberText (C.read raw) ⟨raw.content, headerOf raw.headers⟩ =
      Billing.consume (C.read raw) := Correlation.handling_eq hparse rfl hreads
  rw [← hhandling]
  unfold consume Correlation.handling consumeJson
  simp only [hparse]
  refine (meaning_handle C _ _).trans (congrArg₂ handle ?_ rfl)
  refine (meaning_ensure C _ _).trans (congrArg₂ ensure ?_ rfl)
  refine (meaning_handle C _ _).trans (congrArg₂ handle ?_ (funext fun _ => ?_))
  · refine (meaning_bind C _ _).trans (congrArg₂ Bind.bind (meaning_orTypeError C _) (funext fun merged => ?_))
    exact meaning_lift C _
  · exact (meaning_bind C _ _).trans (congrArg₂ Bind.bind (meaning_orTypeError C _) rfl)

/-! ### Queues -/

structure RawBroker where
  /-- `orders.billing.q` -/
  billing : List RawDelivery
  /-- `orders.billing.retry.q` -/
  retry : List RawDelivery
  /-- `orders.billing.dlq` -/
  dlq : List RawDelivery
  published : List RawDelivery

structure RawWorld where
  db : Database
  erp : Erp.ErpService
  broker : RawBroker
  clock : Catalog.Clock

/-- The world but for its queues. -/
def RawWorld.shop (w : RawWorld) : World := ⟨w.db, w.erp, .empty, w.clock⟩

/-- The back office whose queues hold what is read of the contents. -/
def RawWorld.read (w : RawWorld) : World where
  db := w.db
  erp := w.erp
  broker :=
    { billing := w.broker.billing.map C.read
      retry := w.broker.retry.map C.read
      dlq := w.broker.dlq.map C.read
      published := w.broker.published.map C.read }
  clock := w.clock

variable (P : Checkout.Platform)

/-- A call that takes effect, and its answer. -/
def rawExecute (w : RawWorld) : (q : RawCall) → RawWorld × Except String (RawAnswer C q)
  | .publishEvent event =>
    ({w with broker := {w.broker with
        billing := w.broker.billing ++ [C.published event], published := w.broker.published ++ [C.published event]}}, .ok ())
  | .worker (.publishToRetry d) => ({w with broker := {w.broker with retry := w.broker.retry ++ [C.sent d]}}, .ok ())
  | .worker (.publishToDlq d) => ({w with broker := {w.broker with dlq := w.broker.dlq ++ [C.sent d]}}, .ok ())
  | .nackRaw raw => ({w with broker := {w.broker with billing := raw :: w.broker.billing}}, .ok ())
  | .worker q => ({w with db := (execute P w.shop q).1.db, erp := (execute P w.shop q).1.erp}, (execute P w.shop q).2)

def rawPerform (w : RawWorld) (q : RawCall) : Reply → RawWorld × Except String (RawAnswer C q)
  | .answered => rawExecute C P w q
  | .failed message => (w, .error message)
  | .lost message => ((rawExecute C P w q).1, .error message)

inductive RawTask where
  | syncCatalog
  | reconcileOrders
  | publishPending
  | consume (i : Nat) (raw : RawDelivery)

def RawTask.read : RawTask → Task
  | .syncCatalog => .syncCatalog
  | .reconcileOrders => .reconcileOrders
  | .publishPending => .publishPending
  | .consume i raw => .consume i (C.read raw)

def rawStart (w : RawWorld) : RawTask → Option (RawWorld × RawWorker C Unit)
  | .syncCatalog => some (w, lift C (ignored Reconciliation.syncCatalog))
  | .reconcileOrders => some (w, lift C (ignored Reconciliation.reconcileOrders))
  | .publishPending => some (w, publishPending C)
  | .consume i raw =>
    if w.broker.billing[i]? = some raw then
      some ({w with broker := {w.broker with billing := w.broker.billing.eraseIdx i}}, consume C raw)
    else none

def rawCrash (w : RawWorld) : RawTask → RawWorld
  | .consume _ raw => {w with broker := {w.broker with billing := raw :: w.broker.billing}}
  | _ => w

def rawEvent (w : RawWorld) : Event → Option RawWorld
  | .checkout input => some {w with db := (Checkout.checkout P input w.db).2.1}
  | .tick clock => some {w with clock := clock}
  | .setCatalog products => some {w with erp := w.erp.setCatalog products}
  | .enableBillingFailure orderId => some {w with erp := w.erp.enableBillingFailure orderId}
  | .clearBillingFailure orderId => some {w with erp := w.erp.clearBillingFailure orderId}
  | .expireRetry i =>
    w.broker.retry[i]?.map fun raw =>
      {w with broker := {w.broker with retry := w.broker.retry.eraseIdx i, billing := w.broker.billing ++ [raw]}}
  | .duplicate i =>
    w.broker.billing[i]?.map fun raw => {w with broker := {w.broker with billing := raw :: w.broker.billing}}

def rawMachine : Machine RawWorld RawTask Reply Event RawCall String (RawAnswer C) where
  perform := rawPerform C P
  start := rawStart C
  crash := rawCrash
  environment := rawEvent P

/-! ### What holds of the contents -/

/-- The totals of the events print in full. -/
def EventsPrintable (events : List OutboxEvent) : Prop := ∀ event ∈ events, Printable event.payload.totalCents

/-- What every state keeps: the contents can be read, and those to come. -/
structure Readable (w : RawWorld) : Prop where
  billing : ∀ raw ∈ w.broker.billing, C.Legible raw
  retry : ∀ raw ∈ w.broker.retry, C.Legible raw
  dlq : ∀ raw ∈ w.broker.dlq, C.Legible raw
  totals : EventsPrintable w.db.outboxEvents.rows

/-- The calls the workers make. -/
def RawCall.Ok : RawCall → Prop
  | .publishEvent event => Printable event.payload.totalCents
  | .nackRaw raw => C.Legible raw
  | .worker (.publishToRetry d) | .worker (.publishToDlq d) => Resent d.body
  | .worker (.publish _) | .worker (.nack _) => False
  | .worker _ => True

/-- The events found are rows of the store. -/
def GoodAnswer : (q : RawCall) → Except String (RawAnswer C q) → Prop
  | .worker .findPendingEvents, .ok events => EventsPrintable events
  | _, _ => True

def RawTask.Ok : RawTask → Prop
  | .consume _ raw => C.Legible raw
  | _ => True

/-! ### Totals -/

variable {P}

theorem EventsPrintable.update {events : Table OutboxEvent.id} (h : EventsPrintable events.rows) (id : String)
    (f : OutboxEvent → OutboxEvent) (hf : ∀ e, (f e).id = e.id) (hpayload : ∀ e, (f e).payload = e.payload) :
    EventsPrintable (events.update id f hf).rows := by
  intro event hevent
  rw [Table.update_rows, List.mem_map] at hevent
  obtain ⟨row, hrow, rfl⟩ := hevent
  split
  · rw [hpayload]
    exact h row hrow
  · exact h row hrow

theorem eventsPrintable_write {db db' : Database} (h : Write db db') (hdb : EventsPrintable db.outboxEvents.rows) :
    EventsPrintable db'.outboxEvents.rows := by
  cases h with
  | accepted positive h =>
    intro event hevent
    rw [(Table.insert?_eq_some h.event).2, List.mem_append, List.mem_singleton] at hevent
    rcases hevent with hevent | rfl
    · exact hdb event hevent
    · have htotal := h.total
      show (Checkout.totalCents _).natAbs < 2 ^ 53
      unfold Int4 at htotal
      omega
  | synced h =>
    rw [h.others]
    exact hdb
  | published id => exact hdb.update id OutboxEvent.markPublished (fun _ => rfl) fun _ => rfl
  | eventFailed id lastError => exact hdb.update id (OutboxEvent.markFailed lastError) (fun _ => rfl) fun _ => rfl
  | _ => exact hdb

theorem pendingEvents_printable {db : Database} (h : EventsPrintable db.outboxEvents.rows) :
    EventsPrintable (pendingEvents db) :=
  fun event hevent => h event (List.mem_filter.mp (List.mem_of_mem_take hevent)).1

/-! ### Calls that leave the queues alone -/

/-- The call neither publishes nor returns a message. -/
def QueueFree : Call → Prop
  | .publish _ | .publishToRetry _ | .publishToDlq _ | .nack _ => False
  | _ => True

theorem write_queues (w : World) (b : Broker) (r : Except DbError Database) :
    World.write P {w with broker := b} r = ({(w.write P r).1 with broker := b}, (w.write P r).2) := by
  cases r <;> rfl

theorem updateOrder_queues (w : World) (b : Broker) (id : String) (f : Order → Order) (hf : ∀ o, (f o).id = o.id) :
    World.updateOrder P {w with broker := b} id f hf =
      ({(w.updateOrder P id f hf).1 with broker := b}, (w.updateOrder P id f hf).2) := by
  unfold World.updateOrder
  dsimp only
  cases w.db.updateOrder id f hf <;> rfl

/-- It does the same whatever the queues hold. -/
theorem execute_queues (w : World) (b : Broker) {q : Call} (h : QueueFree q) :
    execute P {w with broker := b} q = ({(execute P w q).1 with broker := b}, (execute P w q).2) := by
  cases q with
  | syncProduct current product => exact write_queues _ _ _
  | bumpCatalogVersion =>
    simp only [execute]
    cases Catalog.bumpCatalogVersion w.db <;> rfl
  | billOrder orderId billingKey =>
    simp only [execute, clientBillOrder]
    rcases w.erp.billOrder w.clock.now orderId billingKey with ⟨erp, receipt⟩
    cases receipt <;> rfl
  | markBilled orderId invoiceId => exact updateOrder_queues _ _ _ _ _
  | markErpFailed orderId reason => exact updateOrder_queues _ _ _ _ _
  | createIntegrationAttempt attempt => exact write_queues _ _ _
  | markPublished eventId => exact write_queues _ _ _
  | markEventFailed eventId lastError => exact write_queues _ _ _
  | publish d => exact h.elim
  | publishToRetry d => exact h.elim
  | publishToDlq d => exact h.elim
  | nack d => exact h.elim
  | _ => rfl

/-! ### The calls of the workers -/

theorem lift_calls {α : Type} {p : Worker α} (h : p.OnlyCalls fun q => (RawCall.worker q).Ok C) :
    (lift C p).OnlyCallsGiven (GoodAnswer C) (RawCall.Ok C) := by
  induction p with
  | done result => trivial
  | await q next ih => exact ⟨h.1, fun r _ => ih r (h.2 r)⟩
  | all qs next ih =>
    refine ⟨fun q hq => ?_, ih h.2⟩
    obtain ⟨q', hq', rfl⟩ := List.mem_map.mp hq
    exact h.1 q' hq'

theorem ok_of_queueFree {q : Call} (h : QueueFree q) : (RawCall.worker q).Ok C := by
  cases q <;> first | exact h.elim | trivial

theorem publishPending_calls : (publishPending C).OnlyCallsGiven (GoodAnswer C) (RawCall.Ok C) := by
  refine onlyCallsGiven_bind (lift_calls C ⟨trivial, fun _ => trivial⟩) fun _ => ⟨trivial, fun r hr => ?_⟩
  cases r with
  | error e => trivial
  | ok events =>
    refine onlyCallsGiven_each fun event hevent => ?_
    refine onlyCallsGiven_handle ?_ fun e => lift_calls C ⟨trivial, fun _ => trivial⟩
    refine onlyCallsGiven_bind ⟨hr event hevent, fun _ _ => trivial⟩ fun _ => ?_
    exact lift_calls C ⟨trivial, fun _ => trivial⟩

/-- A message that is sent on has the attempt number it came with, or the next, up to 4. -/
theorem processWithRetry_calls {message : BillingMessage} (h : ∀ attempt ∈ message.attempt, Printable attempt) :
    (Billing.processWithRetry message).OnlyCalls fun q => (RawCall.worker q).Ok C := by
  have hcurrent : Printable (Billing.currentAttempt message) := by
    unfold Billing.currentAttempt
    cases hattempt : message.attempt with
    | none => decide
    | some attempt => exact h attempt hattempt
  have hsent : ∀ attempt, Printable attempt → Resent (Billing.republished message attempt).body := by
    intro attempt hsmall
    refine ⟨?_, rfl, rfl⟩
    rintro n ⟨⟩
    exact hsmall
  refine onlyCalls_handle (onlyCalls_bind ?_ fun _ => trivial) fun error => ?_
  · exact Billing.processMessage_onlyCalls (fun _ => trivial) (fun _ _ => trivial) (fun _ _ => trivial) _
  · refine onlyCalls_bind ⟨trivial, fun _ => trivial⟩ fun _ => ?_
    by_cases hlast : Billing.currentAttempt message ≥ 4
    · rw [if_pos hlast]
      refine onlyCalls_bind ⟨trivial, fun _ => trivial⟩ fun order => ?_
      exact onlyCalls_bind ⟨hsent _ hcurrent, fun _ => trivial⟩ fun _ => trivial
    · rw [if_neg hlast]
      refine onlyCalls_bind ⟨hsent _ ?_, fun _ => trivial⟩ fun _ => trivial
      unfold Printable at hcurrent ⊢
      omega

theorem consume_calls {raw : RawDelivery} (h : C.Legible raw) :
    (consume C raw).OnlyCallsGiven (GoodAnswer C) (RawCall.Ok C) := by
  obtain ⟨content, hparse, ⟨⟨merged, hmerge, hdecode⟩, text, htext⟩⟩ := h.reads C
  have hprocess : Correlation.processMerged merged = Billing.processWithRetry (Billing.withHeaders (C.read raw)) := by
    simp only [Correlation.processMerged, hdecode]
  have hack : (lift C (request .ack)).OnlyCallsGiven (GoodAnswer C) (RawCall.Ok C) :=
    lift_calls C ⟨trivial, fun _ => trivial⟩
  unfold consume consumeJson
  simp only [hparse]
  refine onlyCallsGiven_handle (onlyCallsGiven_ensure (onlyCallsGiven_handle ?_ fun _ => ?_) hack) fun _ => ?_
  · rw [show mergeHeaders content (headerOf raw.headers) = some merged from hmerge]
    show (lift C (Correlation.processMerged merged)).OnlyCallsGiven _ _
    rw [hprocess]
    exact lift_calls C (processWithRetry_calls C h.attempt)
  · rw [htext]
    trivial
  · exact ⟨h, fun _ _ => trivial⟩

/-! ### One call, one task, one event -/

/-- The worlds of the two back offices. -/
structure Reads (w : RawWorld) (v : World) : Prop where
  world : v = w.read C
  readable : Readable C w

theorem rawExecute_free (w : RawWorld) {q : Call} (hq : QueueFree q) :
    rawExecute C P w (.worker q) =
      ({w with db := (execute P w.shop q).1.db, erp := (execute P w.shop q).1.erp}, (execute P w.shop q).2) := by
  cases q <;> first | exact hq.elim | rfl

theorem clock_of_executed {w w' : World} {q : Call} (h : Executed w q w') : w'.clock = w.clock := by
  cases h <;> rfl

/-- A call that has nothing to do with the queues. -/
theorem execute_free {w : RawWorld} (h : Readable C w) {q : Call} (hq : QueueFree q)
    (hgood : ∀ r, GoodAnswer C (.worker q) r) :
    (execute P (w.read C) q).2 = (rawExecute C P w (.worker q)).2 ∧
      Reads C (rawExecute C P w (.worker q)).1 (execute P (w.read C) q).1 ∧
      GoodAnswer C (.worker q) (rawExecute C P w (.worker q)).2 := by
  have hqueues := execute_queues (P := P) w.shop (w.read C).broker hq
  have hclock := clock_of_executed (execute_executed (P := P) w.shop q)
  rw [show ({w.shop with broker := (w.read C).broker} : World) = w.read C from rfl] at hqueues
  rw [hqueues, rawExecute_free C w hq]
  refine ⟨rfl, ⟨?_, h.billing, h.retry, h.dlq, ?_⟩, hgood _⟩
  · show World.mk _ _ _ _ = World.mk _ _ _ _
    rw [hclock]
    rfl
  · exact eventsPrintable_write (execute_executed w.shop q).write h.totals

theorem execute_agrees {w : RawWorld} (h : Readable C w) {q : RawCall} (hq : q.Ok C) :
    (execute P (w.read C) (q.toCall C)).2 = (rawExecute C P w q).2 ∧
      Reads C (rawExecute C P w q).1 (execute P (w.read C) (q.toCall C)).1 ∧
      GoodAnswer C q (rawExecute C P w q).2 := by
  cases q with
  | publishEvent event =>
    obtain ⟨hread, hlegible⟩ := C.read_published hq
    refine ⟨rfl, ⟨?_, ?_⟩, trivial⟩
    · show World.mk _ _ (Broker.publish _ _) _ = _
      simp [RawWorld.read, rawExecute, Broker.publish, hread]
    · exact ⟨List.forall_mem_append.mpr ⟨h.billing, List.forall_mem_singleton.mpr hlegible⟩, h.retry, h.dlq, h.totals⟩
  | nackRaw raw => exact ⟨rfl, ⟨rfl, List.forall_mem_cons.mpr ⟨hq, h.billing⟩, h.retry, h.dlq, h.totals⟩, trivial⟩
  | worker q =>
    cases q with
    | publishToRetry d =>
      obtain ⟨hread, hlegible⟩ := C.read_sent hq
      refine ⟨rfl, ⟨?_, ?_⟩, trivial⟩
      · show World.mk _ _ (Broker.publishToRetry _ _) _ = _
        simp [RawWorld.read, rawExecute, Broker.publishToRetry, hread]
      · exact ⟨h.billing, List.forall_mem_append.mpr ⟨h.retry, List.forall_mem_singleton.mpr hlegible⟩,
          h.dlq, h.totals⟩
    | publishToDlq d =>
      obtain ⟨hread, hlegible⟩ := C.read_sent hq
      refine ⟨rfl, ⟨?_, ?_⟩, trivial⟩
      · show World.mk _ _ (Broker.publishToDlq _ _) _ = _
        simp [RawWorld.read, rawExecute, Broker.publishToDlq, hread]
      · exact ⟨h.billing, h.retry,
          List.forall_mem_append.mpr ⟨h.dlq, List.forall_mem_singleton.mpr hlegible⟩, h.totals⟩
    | publish d => exact hq.elim
    | nack d => exact hq.elim
    | findPendingEvents => exact ⟨rfl, ⟨rfl, h.billing, h.retry, h.dlq, h.totals⟩, pendingEvents_printable h.totals⟩
    | _ => exact execute_free C h trivial (fun _ => trivial)

theorem perform_agrees :
    Agrees (RawCall.toCall C) (Reads C) (RawCall.Ok C) (GoodAnswer C) (rawPerform C P) (perform P) := by
  rintro w v q reply ⟨rfl, hw⟩ hq
  have h := execute_agrees C (P := P) hw hq
  have hgood : ∀ message, GoodAnswer C q (.error message) := by
    intro message
    cases q with
    | worker q => cases q <;> trivial
    | _ => trivial
  cases reply with
  | answered => exact h
  | failed message => exact ⟨rfl, ⟨rfl, hw⟩, hgood message⟩
  | lost message => exact ⟨rfl, h.2.1, hgood message⟩

theorem queueFree_sync {q : Call} (h : Reconciliation.SyncCall q) : QueueFree q := by
  cases q <;> first | exact h.elim | trivial

theorem queueFree_reconcile {q : Call} (h : Reconciliation.ReconcileCall q) : QueueFree q := by
  cases q <;> first | exact h.elim | trivial

theorem eventsPrintable_checkout {w : RawWorld} (hw : Readable C w) (input : Checkout.CheckoutInput) :
    EventsPrintable (Checkout.checkout P input w.db).2.1.outboxEvents.rows :=
  eventsPrintable_write (onEvent_write (show onEvent P w.shop (.checkout input) = some _ from rfl)) hw.totals

theorem rawMachine_refines :
    Machine.Refines (RawCall.toCall C) (RawTask.read C) id (Reads C) (RawTask.Ok C) (RawCall.Ok C) (GoodAnswer C)
      (rawMachine C P) (machine P) where
  start := by
    rintro w v task w' p ⟨rfl, hw⟩ h
    cases task with
    | syncCatalog =>
      cases h
      have hcalls := onlyCalls_mono Reconciliation.syncCatalog_calls fun q hq => ok_of_queueFree C (queueFree_sync hq)
      exact ⟨_, congrArg some (Prod.ext rfl (meaning_lift C _).symm), ⟨rfl, hw⟩, trivial,
        lift_calls C (onlyCalls_bind hcalls fun _ => trivial)⟩
    | reconcileOrders =>
      cases h
      have hcalls := onlyCalls_mono Reconciliation.reconcileOrders_calls fun q hq =>
        ok_of_queueFree C (queueFree_reconcile hq)
      exact ⟨_, congrArg some (Prod.ext rfl (meaning_lift C _).symm), ⟨rfl, hw⟩, trivial,
        lift_calls C (onlyCalls_bind hcalls fun _ => trivial)⟩
    | publishPending =>
      cases h
      exact ⟨_, congrArg some (Prod.ext rfl (meaning_publishPending C).symm), ⟨rfl, hw⟩, trivial,
        publishPending_calls C⟩
    | consume i raw =>
      change (if w.broker.billing[i]? = some raw then _ else _) = _ at h
      by_cases hat : w.broker.billing[i]? = some raw
      · have hlegible := hw.billing raw (List.mem_of_getElem? hat)
        rw [if_pos hat] at h
        cases h
        refine ⟨_, ?_, ⟨rfl, ?_, hw.retry, hw.dlq, hw.totals⟩, hlegible, consume_calls C hlegible⟩
        · have hdeliver : (w.read C).broker.deliver i (C.read raw) =
              some {(w.read C).broker with billing := (w.broker.billing.eraseIdx i).map C.read} := by
            simp [Broker.deliver, RawWorld.read, hat, List.eraseIdx_map]
          show Option.map _ ((w.read C).broker.deliver i (C.read raw)) = _
          rw [hdeliver, Option.map_some, ← meaning_consume C hlegible]
          rfl
        · exact fun other hother => hw.billing other (List.mem_of_mem_eraseIdx hother)
      · rw [if_neg hat] at h
        cases h
  call := perform_agrees C
  crash := by
    rintro w v task ⟨rfl, hw⟩ htask
    cases task with
    | consume i raw => exact ⟨rfl, List.forall_mem_cons.mpr ⟨htask, hw.billing⟩, hw.retry, hw.dlq, hw.totals⟩
    | _ => exact ⟨rfl, hw⟩
  environment := by
    rintro w v event w' ⟨rfl, hw⟩ h
    cases event with
    | checkout input =>
      cases h
      exact ⟨_, rfl, rfl, hw.billing, hw.retry, hw.dlq, eventsPrintable_checkout C hw input⟩
    | expireRetry i =>
      obtain ⟨raw, hat, rfl⟩ := Option.map_eq_some_iff.mp h
      have hlegible := hw.retry raw (List.mem_of_getElem? hat)
      refine ⟨_, ?_, rfl, List.forall_mem_append.mpr ⟨hw.billing, List.forall_mem_singleton.mpr hlegible⟩,
        fun other hother => hw.retry other (List.mem_of_mem_eraseIdx hother), hw.dlq, hw.totals⟩
      show Option.map _ ((w.read C).broker.expire i) = _
      simp [Broker.expire, RawWorld.read, hat, List.eraseIdx_map]
    | duplicate i =>
      obtain ⟨raw, hat, rfl⟩ := Option.map_eq_some_iff.mp h
      have hlegible := hw.billing raw (List.mem_of_getElem? hat)
      refine ⟨_, ?_, rfl, List.forall_mem_cons.mpr ⟨hlegible, hw.billing⟩, hw.retry, hw.dlq, hw.totals⟩
      show Option.map _ ((w.read C).broker.duplicate i) = _
      simp [Broker.duplicate, RawWorld.read, hat]
    | _ =>
      cases h
      exact ⟨_, rfl, rfl, hw.billing, hw.retry, hw.dlq, hw.totals⟩

/-! ### Every run -/

/-- A back office of bytes with nothing in its queues. -/
def RawWorld.opening (db : Database) (erp : Erp.ErpService) (clock : Catalog.Clock) : RawWorld :=
  ⟨db, erp, ⟨[], [], [], []⟩, clock⟩

/-- A run from empty queues is one of the back office whose queues hold messages, and
every content in a queue can be read. -/
theorem wire_refines (P : Checkout.Platform) (db : Database) (erp : Erp.ErpService) (clock : Catalog.Clock)
    (hdb : EventsPrintable db.outboxEvents.rows) (actions : List (Machine.Action RawTask Reply Event))
    (c : Machine.Config RawWorld RawTask RawCall String (RawAnswer C))
    (h : (rawMachine C P).system.run (.idle (.opening db erp clock)) actions = some c) :
    ∃ d, (machine P).system.run (.idle ⟨db, erp, .empty, clock⟩)
        (actions.map (Machine.Action.translate (RawTask.read C) id)) = some d ∧
      d.world = c.world.read C ∧ Readable C c.world ∧
      ∀ n, d.running n = (c.running n).map fun process =>
        ⟨process.task.read C, meaning C process.program⟩ := by
  have hopening : Reads C (.opening db erp clock) ⟨db, erp, .empty, clock⟩ :=
    ⟨rfl, List.forall_mem_nil _, List.forall_mem_nil _, List.forall_mem_nil _, hdb⟩
  obtain ⟨d, hd, halike⟩ := (rawMachine_refines C).run (Machine.alike_idle hopening) h
  exact ⟨d, hd, halike.world.world, halike.world.readable, halike.running⟩

/-! ### A message on its way -/

/-- Integers print as such, and a JSON column keeps the order of its fields. -/
def plainCodec : Codec where
  numberText
    | .finite q => String.ofList (Text.integer q.num)
    | _ => "null"
  repair _ := []
  stored := payloadFields
  printsIntegers n _ := by simp
  storedFields _ := .refl _

/-- The event of `firstOrder` as it is published. -/
def firstRaw : RawDelivery where
  messageId := some "o1"
  content := plainCodec.contentOf (.object (payloadFields ⟨"o1", "c1", "k", 1700, "BRL", none, none, none⟩))
  headers := ⟨"o1", "c1", "k", "", "", ""⟩

/-- The catalog is synced, `firstOrder` placed, its event published, and its message taken
by a handler that finds the order. -/
def rawOrderConsumed : List (Machine.Action RawTask Reply Event) :=
  .start 0 .syncCatalog :: List.replicate 7 (.call 0 0 .answered) ++
    [.environment (.checkout firstOrder), .start 1 .publishPending] ++
    List.replicate 4 (.call 1 0 .answered) ++ [.start 2 (.consume 0 firstRaw), .call 2 0 .answered]

theorem wire_refines_consumed :
    ∃ c, (rawMachine plainCodec plainPlatform).system.run
        (.idle (.opening .empty twoProducts.erp ⟨0, fun slug => slug⟩)) rawOrderConsumed = some c ∧
      ∃ d, (machine plainPlatform).system.run (.idle ⟨.empty, twoProducts.erp, .empty, ⟨0, fun slug => slug⟩⟩)
        (rawOrderConsumed.map (Machine.Action.translate (RawTask.read plainCodec) id)) = some d ∧
        d.world = c.world.read plainCodec := by
  have hsome : ((rawMachine plainCodec plainPlatform).system.run
      (.idle (.opening .empty twoProducts.erp ⟨0, fun slug => slug⟩)) rawOrderConsumed).isSome = true := by
    decide +kernel
  have hrun := (rawMachine plainCodec plainPlatform).system.run_after _ _ hsome
  obtain ⟨d, hd, hworld, _⟩ := wire_refines plainCodec plainPlatform .empty twoProducts.erp ⟨0, fun slug => slug⟩
    (List.forall_mem_nil _) rawOrderConsumed _ hrun
  exact ⟨_, hrun, d, hd, hworld⟩

end CaseCellShop.Shop.Wire
