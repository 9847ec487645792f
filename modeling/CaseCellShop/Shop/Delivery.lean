import CaseCellShop.Shop.Billed

/-! No billing message is lost, unless its handler gives it up.

A published order is billed, or has a message in a queue, or a handler is still at work
on one, or it has failed for good. The handler acknowledges its message whatever came
of it, so all rests on the failure path: recording the attempt, the `ERP_FAILED` update
and the publish must each succeed, or the order must be accounted for otherwise. -/
namespace CaseCellShop.Shop
open Billing Program Queue

/-- Some of the messages is about the order. -/
def Has (messages : List Delivery) (id : String) : Prop := ∃ d ∈ messages, d.body.orderId = id

def ErpFailed (orders : Orders) (id : String) : Prop :=
  (orders.find? id).map Order.status = some .erpFailed

/-- A message of the order was delivered and is not acknowledged. -/
def Held (c : Config) (id : String) : Prop :=
  ∃ n process i d, c.running n = some process ∧ process.task = .consume i d ∧ d.body.orderId = id

/-- Billed, or with a message in one of the two queues or with a handler, or failed for
good with a message in the dead-letter queue. -/
def Accounted (c : Config) (id : String) : Prop :=
  Billed c.world.db.orders id ∨ Has c.world.broker.billing id ∨ Held c id ∨ Has c.world.broker.retry id ∨
    ErpFailed c.world.db.orders id ∧ Has c.world.broker.dlq id

/-- The order has left `PENDING_ERP`, to which none returns. -/
def Progressed (orders : Orders) (id : String) : Prop := Billed orders id ∨ ErpFailed orders id

/-- Accounted for by a message that is ready in one of the queues; a delivered one does
not count. -/
def Waiting (w : World) (id : String) : Prop :=
  Has w.broker.billing id ∨ Has w.broker.retry id ∨ Progressed w.db.orders id ∧ Has w.broker.dlq id

/-- Accounted for without a handler. -/
def Settled (w : World) (id : String) : Prop := Waiting w id ∨ Billed w.db.orders id

instance (messages : List Delivery) (id : String) : Decidable (Has messages id) :=
  inferInstanceAs (Decidable (∃ d ∈ messages, d.body.orderId = id))

instance (orders : Orders) (id : String) : Decidable (ErpFailed orders id) :=
  inferInstanceAs (Decidable (_ = _))

instance (orders : Orders) (id : String) : Decidable (Progressed orders id) :=
  inferInstanceAs (Decidable (_ ∨ _))

instance (w : World) (id : String) : Decidable (Waiting w id) :=
  inferInstanceAs (Decidable (_ ∨ _ ∨ _ ∧ _))

instance (w : World) (id : String) : Decidable (Settled w id) :=
  inferInstanceAs (Decidable (_ ∨ _))

variable {P : Checkout.Platform}

/-! ### What one call does to the queues and to the statuses -/

theorem Has.mono {messages messages' : List Delivery} {id : String} (h : Has messages id)
    (hsub : ∀ d ∈ messages, d ∈ messages') : Has messages' id := by
  obtain ⟨d, hd, hid⟩ := h
  exact ⟨d, hsub d hd, hid⟩

/-- Nothing is taken from the queues, and what is published is in the first. -/
structure Broker.Grows (b b' : Broker) : Prop where
  billing : ∀ d ∈ b.billing, d ∈ b'.billing
  retry : ∀ d ∈ b.retry, d ∈ b'.retry
  dlq : ∀ d ∈ b.dlq, d ∈ b'.dlq
  published : ∀ d ∈ b'.published, d ∈ b.published ∨ d ∈ b'.billing

theorem Broker.Grows.refl (b : Broker) : Broker.Grows b b :=
  ⟨fun _ h => h, fun _ h => h, fun _ h => h, fun _ h => .inl h⟩

theorem Executed.grows {w w' : World} {q : Call} (h : Executed w q w') : Broker.Grows w.broker w'.broker := by
  cases h with
  | sentToRetry d => exact ⟨fun _ h => h, fun _ h => List.mem_append_left _ h, fun _ h => h, fun _ h => .inl h⟩
  | sentToDlq d => exact ⟨fun _ h => h, fun _ h => h, fun _ h => List.mem_append_left _ h, fun _ h => .inl h⟩
  | returned d => exact ⟨fun _ h => .tail _ h, fun _ h => h, fun _ h => h, fun _ h => .inl h⟩
  | published d =>
    refine ⟨fun _ h => List.mem_append_left _ h, fun _ h => h, fun _ h => h, fun d' h => ?_⟩
    rcases List.mem_append.mp h with hold | hnew
    · exact .inl hold
    · exact .inr (List.mem_append_right _ hnew)
  | _ => exact .refl _

theorem status_update {orders : Orders} {id : String} {f : Order → Order} {hf : ∀ o, (f o).id = o.id}
    {s : OrderStatus} (hs : ∀ o, (f o).status = s) (id' : String) :
    ((orders.update id f hf).find? id').map Order.status =
      if id' = id then (orders.find? id').map fun _ => s else (orders.find? id').map Order.status := by
  rw [Table.find?_update, Option.map_map]
  by_cases hid : id' = id
  · rw [if_pos hid]
    congr 1
    funext o
    show (if id' = id then f o else o).status = s
    rw [if_pos hid, hs]
  · rw [if_neg hid]
    congr 1
    funext o
    show (if id' = id then f o else o).status = o.status
    rw [if_neg hid]

theorem progressed_update {orders : Orders} {id : String} {f : Order → Order}
    {hf : ∀ o, (f o).id = o.id} {s : OrderStatus} (hs : ∀ o, (f o).status = s)
    (hnot : s = .billed ∨ s = .erpFailed) {id' : String} (h : Progressed orders id') :
    Progressed (orders.update id f hf) id' := by
  unfold Progressed Billed ErpFailed at h ⊢
  rw [status_update hs]
  by_cases hid : id' = id
  · rw [if_pos hid]
    cases ho : orders.find? id' with
    | none => simp [ho] at h
    | some o => exact hnot.imp (congrArg some) (congrArg some)
  · rw [if_neg hid]
    exact h

theorem Executed.progressed {w w' : World} {q : Call} (h : Executed w q w') {id : String}
    (hp : Progressed w.db.orders id) : Progressed w'.db.orders id := by
  have hafter := h.orders
  generalize w'.db.orders = orders at hafter
  cases hafter with
  | same => exact hp
  | billed orderId invoiceId => exact progressed_update (s := .billed) (fun _ => rfl) (.inl rfl) hp
  | erpFailed orderId reason => exact progressed_update (s := .erpFailed) (fun _ => rfl) (.inr rfl) hp

theorem Executed.stillBilled {w w' : World} {q : Call} (h : Executed w q w') {id : String}
    (hb : Billed w.db.orders id) (hq : ∀ reason, q ≠ .markErpFailed id reason) : Billed w'.db.orders id := by
  have hafter := h.orders
  generalize w'.db.orders = orders at hafter
  cases hafter with
  | same => exact hb
  | billed orderId invoiceId => exact billed_after_update hb fun _ _ _ => rfl
  | erpFailed orderId reason =>
    refine billed_after_update hb fun o _ hid => ?_
    exact absurd (by rw [hid]) (hq reason)

theorem Waiting.mono {w w' : World} {id : String} (h : Waiting w id)
    (hb : Broker.Grows w.broker w'.broker)
    (hp : Progressed w.db.orders id → Progressed w'.db.orders id) : Waiting w' id :=
  h.imp (·.mono hb.billing) (.imp (·.mono hb.retry) fun h => ⟨hp h.1, h.2.mono hb.dlq⟩)

theorem Executed.waiting {w w' : World} {q : Call} (h : Executed w q w') {id : String}
    (hw : Waiting w id) : Waiting w' id :=
  hw.mono h.grows h.progressed

theorem Executed.settled {w w' : World} {q : Call} (h : Executed w q w') {id : String} (hs : Settled w id)
    (hq : ∀ reason, q ≠ .markErpFailed id reason) : Settled w' id :=
  hs.imp h.waiting fun hb => h.stillBilled hb hq

/-! ### Where a handler stands -/

/-- What is left of a handler that still has work to do for its message. -/
inductive Working (w : World) (d : Delivery) : Worker Unit → Prop
  | find : Working w d (find d)
  | bill {order : Order} (h : order.id = d.body.orderId) : Working w d (bill d order)
  | mark (invoiceId : String) : Working w d (mark d d.body.orderId invoiceId)
  | recordFailure (error : String) : Working w d (recordFailure d error)
  | toRetry : Working w d (toRetry d)
  | markFailed : Working w d (markFailed d)
  | toDlq (h : Progressed w.db.orders d.body.orderId) : Working w d (toDlq d)

/-- At work, or on its way out. -/
def Handling (w : World) (d : Delivery) (program : Worker Unit) : Prop :=
  Working w d program ∨ program = settle d ∨ program = request (.nack d)

/-- A failed call of the failure path finds the order accounted for: a message of it is
ready in `orders.billing.q` or in the retry queue, it failed for good, or it is billed and
not about to be marked `ERP_FAILED`. -/
def failuresHandedOn : Discipline where
  start _ _ := True
  call w q reply :=
    match q with
    | .createIntegrationAttempt attempt =>
      reply = .answered ∧ (w.db.createIntegrationAttempt attempt).isOk ∨ Settled w attempt.orderId
    | .markErpFailed id _ =>
      reply = .answered ∧ (w.db.orders.find? id).isSome ∨ Waiting w id ∨
        ¬reply.takesEffect ∧ Billed w.db.orders id
    | .publishToRetry d | .publishToDlq d => reply.takesEffect ∨ Settled w d.body.orderId
    | _ => True
  environment _ _ _ := True

/-- A handler's call leaves it at work, or its order accounted for. -/
def HandedOn (w : World) (d : Delivery) (program : Worker Unit) : Prop :=
  Working w d program ∨ program = settle d ∧ Settled w d.body.orderId

/-- An update that is answered with a row has written its status. -/
theorem status_updated {w : World} {id : String} {f : Order → Order} {hf : ∀ o, (f o).id = o.id}
    {s : OrderStatus} {order : Order} (hs : ∀ o, (f o).status = s)
    (h : (w.updateOrder P id f hf).2 = .ok order) :
    ((w.updateOrder P id f hf).1.db.orders.find? id).map Order.status = some s := by
  unfold World.updateOrder at h ⊢
  cases hu : w.db.updateOrder id f hf with
  | error e =>
    rw [hu] at h
    cases h
  | ok written =>
    obtain ⟨⟨o, ho⟩, hdb⟩ := updateOrder_ok hu
    show (written.2.orders.find? id).map Order.status = some s
    rw [hdb, status_update hs, if_pos rfl, ho]
    rfl

theorem perform_ok {w : World} {q : Call} {a : Reply} {answer : Answer q}
    (h : (perform P w q a).2 = .ok answer) : a = .answered ∧ (execute P w q).2 = .ok answer := by
  cases a with
  | answered => exact ⟨rfl, h⟩
  | failed message => cases h
  | lost message => cases h

variable {w w' : World} {d : Delivery} {a : Reply} {i : Nat} {next : Worker Unit}

theorem find_handedOn (h : (find d).resume (perform P) w i a = some (w', next)) : HandedOn w' d next := by
  obtain ⟨rfl, hnext⟩ := resume_await h
  cases hr : (perform P w (.findOrder d.body.orderId) a).2 with
  | error error =>
    rw [hr] at hnext
    exact .inl (hnext ▸ .recordFailure error)
  | ok order =>
    rw [hr] at hnext
    obtain ⟨rfl, hfind⟩ := perform_ok hr
    have ho : w.db.orders.find? d.body.orderId = some order := by
      change findOrder P w.db d.body.orderId = .ok order at hfind
      unfold findOrder at hfind
      split at hfind
      · rename_i found ho
        cases hfind
        exact ho
      · cases hfind
    change next = if order.status = .billed then settle d else bill d order at hnext
    by_cases hs : order.status = .billed
    · rw [if_pos hs] at hnext
      exact .inr ⟨hnext, .inr (billed_iff.mpr ⟨order, ho, hs⟩)⟩
    · rw [if_neg hs] at hnext
      exact .inl (hnext ▸ .bill (Table.key_of_find? ho))

theorem bill_handedOn {order : Order} (hid : order.id = d.body.orderId)
    (h : (bill d order).resume (perform P) w i a = some (w', next)) : HandedOn w' d next := by
  obtain ⟨rfl, hnext⟩ := resume_await h
  cases hr : (perform P w (.billOrder order.id (billingKey order.id)) a).2 with
  | error error =>
    rw [hr] at hnext
    exact .inl (hnext ▸ .recordFailure error)
  | ok invoice =>
    rw [hr] at hnext
    change next = mark d order.id invoice.invoiceId at hnext
    rw [hid] at hnext
    exact .inl (hnext ▸ .mark invoice.invoiceId)

theorem mark_handedOn {invoiceId : String}
    (h : (mark d d.body.orderId invoiceId).resume (perform P) w i a = some (w', next)) :
    HandedOn w' d next := by
  obtain ⟨rfl, hnext⟩ := resume_await h
  cases hr : (perform P w (.markBilled d.body.orderId invoiceId) a).2 with
  | error error =>
    rw [hr] at hnext
    exact .inl (hnext ▸ .recordFailure error)
  | ok order =>
    rw [hr] at hnext
    obtain ⟨rfl, hupdate⟩ := perform_ok hr
    exact .inr ⟨hnext, .inr (status_updated (fun _ => rfl) hupdate)⟩

theorem recordFailure_handedOn {error : String}
    (hD : failuresHandedOn.call w (.createIntegrationAttempt (attemptRow (withHeaders d) error)) a)
    (h : (recordFailure d error).resume (perform P) w i a = some (w', next)) : HandedOn w' d next := by
  obtain ⟨rfl, hnext⟩ := resume_await h
  cases hr : (perform P w (.createIntegrationAttempt (attemptRow (withHeaders d) error)) a).2 with
  | error e =>
    rw [hr] at hnext
    refine .inr ⟨hnext, ?_⟩
    rcases hD with ⟨rfl, hok⟩ | hsettled
    · change (w.write P (w.db.createIntegrationAttempt _)).2 = .error e at hr
      cases hcreate : w.db.createIntegrationAttempt (attemptRow (withHeaders d) error) with
      | error e' =>
        rw [hcreate] at hok
        cases hok
      | ok db =>
        rw [hcreate] at hr
        cases hr
    · exact (perform_executed w _ a).settled hsettled fun _ => nofun
  | ok u =>
    rw [hr] at hnext
    change next = if currentAttempt (withHeaders d) ≥ 4 then markFailed d else toRetry d at hnext
    by_cases hlast : currentAttempt (withHeaders d) ≥ 4
    · rw [if_pos hlast] at hnext
      exact .inl (hnext ▸ .markFailed)
    · rw [if_neg hlast] at hnext
      exact .inl (hnext ▸ .toRetry)

theorem markFailed_handedOn
    (hD : failuresHandedOn.call w (.markErpFailed d.body.orderId "Moved to DLQ after retries") a)
    (h : (markFailed d).resume (perform P) w i a = some (w', next)) : HandedOn w' d next := by
  obtain ⟨rfl, hnext⟩ := resume_await h
  cases hr : (perform P w (.markErpFailed d.body.orderId "Moved to DLQ after retries") a).2 with
  | error e =>
    rw [hr] at hnext
    refine .inr ⟨hnext, ?_⟩
    rcases hD with ⟨rfl, hsome⟩ | hwaiting | ⟨hnone, hbilled⟩
    · obtain ⟨order, ho⟩ := Option.isSome_iff_exists.mp hsome
      change (w.updateOrder P _ _ _).2 = .error e at hr
      unfold World.updateOrder Database.updateOrder at hr
      rw [ho] at hr
      cases hr
    · exact .inl ((perform_executed w _ a).waiting hwaiting)
    · rcases perform_cases (P := P) w (.markErpFailed d.body.orderId "Moved to DLQ after retries") a with
        hw | ⟨heffect, _⟩
      · rw [hw]
        exact .inr hbilled
      · exact absurd heffect hnone
  | ok order =>
    rw [hr] at hnext
    obtain ⟨rfl, hupdate⟩ := perform_ok hr
    exact .inl (hnext ▸ .toDlq (.inr (status_updated (fun _ => rfl) hupdate)))

theorem perform_effect {q : Call} (heffect : a.takesEffect) : (perform P w q a).1 = (execute P w q).1 := by
  cases a with
  | failed message => cases heffect
  | answered => rfl
  | lost message => rfl

theorem publishToRetry_settled {message : Delivery} (hid : message.body.orderId = d.body.orderId)
    (hD : failuresHandedOn.call w (.publishToRetry message) a) :
    Settled (perform P w (.publishToRetry message) a).1 d.body.orderId := by
  rcases hD with heffect | hsettled
  · rw [perform_effect heffect]
    exact .inl (.inr (.inl ⟨message, List.mem_append_right _ (.head _), hid⟩))
  · exact (perform_executed w _ a).settled (hid ▸ hsettled) fun _ => nofun

theorem publishToDlq_settled {message : Delivery} (hid : message.body.orderId = d.body.orderId)
    (hprogressed : Progressed w.db.orders d.body.orderId)
    (hD : failuresHandedOn.call w (.publishToDlq message) a) :
    Settled (perform P w (.publishToDlq message) a).1 d.body.orderId := by
  rcases hD with heffect | hsettled
  · have hdlq : Has (execute P w (.publishToDlq message)).1.broker.dlq d.body.orderId :=
      ⟨message, List.mem_append_right _ (.head _), hid⟩
    rw [perform_effect heffect]
    exact .inl (.inr (.inr ⟨(execute_executed w _).progressed hprogressed, hdlq⟩))
  · exact (perform_executed w _ a).settled (hid ▸ hsettled) fun _ => nofun

/-- One call of a handler at work. -/
theorem working_step {program : Worker Unit} (hW : Working w d program)
    (hD : ∀ q, program.awaited i = some q → failuresHandedOn.call w q a)
    (h : program.resume (perform P) w i a = some (w', next)) : HandedOn w' d next := by
  cases hW with
  | find => exact find_handedOn h
  | bill hid => exact bill_handedOn hid h
  | mark invoiceId => exact mark_handedOn h
  | recordFailure error => exact recordFailure_handedOn (hD _ rfl) h
  | markFailed => exact markFailed_handedOn (hD _ rfl) h
  | toRetry =>
    obtain ⟨rfl, hnext⟩ := resume_await h
    exact .inr ⟨hnext, publishToRetry_settled rfl (hD _ rfl)⟩
  | toDlq hprogressed =>
    obtain ⟨rfl, hnext⟩ := resume_await h
    exact .inr ⟨hnext, publishToDlq_settled rfl hprogressed (hD _ rfl)⟩

/-- A handler marks only its own order `ERP_FAILED`, and only while it is at work. -/
theorem Handling.marksFailed {program : Worker Unit} (hH : Handling w d program) {id reason : String}
    (h : program.awaited i = some (.markErpFailed id reason)) :
    id = d.body.orderId ∧ Working w d program := by
  rcases hH with hW | rfl | rfl
  · refine ⟨?_, hW⟩
    cases hW <;> cases h
    rfl
  · cases h
  · cases h

theorem handling_step {program : Worker Unit} (hH : Handling w d program)
    (hD : ∀ q, program.awaited i = some q → failuresHandedOn.call w q a)
    (h : program.resume (perform P) w i a = some (w', next)) :
    Handling w' d next ∨ ∃ result, next = .done result := by
  rcases hH with hW | rfl | rfl
  · rcases working_step hW hD h with hW' | ⟨hsettle, _⟩
    · exact .inl (.inl hW')
    · exact .inl (.inr (.inl hsettle))
  · obtain ⟨rfl, hnext⟩ := resume_await h
    cases hr : (perform P w .ack a).2 with
    | error e =>
      rw [hr] at hnext
      exact .inl (.inr (.inr hnext))
    | ok u =>
      rw [hr] at hnext
      exact .inr ⟨_, hnext⟩
  · exact .inr ⟨_, (resume_await h).2⟩

theorem Working.stable {program : Worker Unit} (h : Working w d program)
    (hp : ∀ id, Progressed w.db.orders id → Progressed w'.db.orders id) : Working w' d program := by
  cases h with
  | find => exact .find
  | bill hid => exact .bill hid
  | mark invoiceId => exact .mark invoiceId
  | recordFailure error => exact .recordFailure error
  | toRetry => exact .toRetry
  | markFailed => exact .markFailed
  | toDlq hprogressed => exact .toDlq (hp _ hprogressed)

theorem Working.alive {program : Worker Unit} (h : Working w d program) (task : Task) :
    Machine.alive task program = some ⟨task, program⟩ := by
  cases h <;> rfl

/-! ### Configurations -/

def MarksFailed : Call → Prop
  | .markErpFailed _ _ => True
  | _ => False

/-- A handler is where its program says; no other worker marks an order `ERP_FAILED`. -/
def Tended (w : World) (process : Machine.Process Task Call String Answer) : Prop :=
  match process.task with
  | .consume _ d => Handling w d process.program
  | _ => process.program.OnlyCalls fun q => ¬MarksFailed q

/-- A handler is at work on a message of the order. -/
def AtWork (c : Config) (id : String) : Prop :=
  ∃ n i d program, c.running n = some ⟨.consume i d, program⟩ ∧ d.body.orderId = id ∧
    Working c.world d program

/-- The invariant: every published order is settled or being worked on. -/
structure Carried (c : Config) : Prop where
  processes : ∀ n process, c.running n = some process → Tended c.world process
  published : ∀ d ∈ c.world.broker.published,
    Settled c.world d.body.orderId ∨ AtWork c d.body.orderId

theorem Tended.stable {process : Machine.Process Task Call String Answer} (h : Tended w process)
    (hp : ∀ id, Progressed w.db.orders id → Progressed w'.db.orders id) : Tended w' process := by
  obtain ⟨task, program⟩ := process
  cases task with
  | consume i d => exact h.imp_left (·.stable hp)
  | _ => exact h

theorem AtWork.stable {c c' : Config} {id : String} (h : AtWork c id)
    (hrunning : ∀ n process, c.running n = some process → c'.running n = some process)
    (hp : ∀ id, Progressed c.world.db.orders id → Progressed c'.world.db.orders id) : AtWork c' id := by
  obtain ⟨n, i, d, program, hrun, hid, hW⟩ := h
  exact ⟨n, i, d, program, hrunning n _ hrun, hid, hW.stable hp⟩

theorem Carried.accounted {c : Config} (hc : Carried c) (hd : d ∈ c.world.broker.published) :
    Accounted c d.body.orderId := by
  rcases hc.published d hd with ((hb | hr | ⟨hp, hdlq⟩) | hbilled) | ⟨n, i, d', program, hrun, hid, _⟩
  · exact .inr (.inl hb)
  · exact .inr (.inr (.inr (.inl hr)))
  · exact hp.imp_right fun hf => .inr (.inr (.inr ⟨hf, hdlq⟩))
  · exact .inl hbilled
  · exact .inr (.inr (.inl ⟨n, _, i, d', hrun, rfl, hid⟩))

theorem onStart_working {program : Worker Unit} (h : onStart w (.consume i d) = some (w', program)) :
    Working w' d program := by
  obtain ⟨_, _, rfl⟩ := onStart_consume h
  exact consume_eq d ▸ .find

theorem onStart_tended {task : Task} {program : Worker Unit} (h : onStart w task = some (w', program)) :
    Tended w' ⟨task, program⟩ := by
  cases task with
  | syncCatalog =>
    cases h
    refine onlyCalls_bind (onlyCalls_mono Reconciliation.syncCatalog_calls fun q hq => ?_) fun _ => trivial
    cases q <;> first | exact id | exact hq.elim
  | reconcileOrders =>
    cases h
    refine onlyCalls_bind (onlyCalls_mono Reconciliation.reconcileOrders_calls fun q hq => ?_) fun _ => trivial
    cases q <;> first | exact id | exact hq.elim
  | publishPending =>
    cases h
    refine onlyCalls_mono Outbox.publishPending_calls fun q hq => ?_
    cases q <;> first | exact id | exact hq.elim
  | consume i d => exact .inl (onStart_working h)

theorem mem_eraseIdx_of_ne {messages : List Delivery} {d d' : Delivery} (hd : d' ∈ messages)
    (hat : messages[i]? = some d) (hne : d' ≠ d) : d' ∈ messages.eraseIdx i := by
  obtain ⟨j, hj⟩ := List.mem_iff_getElem?.mp hd
  refine List.mem_eraseIdx_iff_getElem?.mpr ⟨j, fun hji => hne ?_, hj⟩
  rw [hji, hat] at hj
  exact (Option.some.inj hj).symm

/-- The message a start takes from the queue goes to the handler it starts. -/
theorem onStart_settled {task : Task} {program : Worker Unit} (h : onStart w task = some (w', program))
    {id : String} (hs : Settled w id) :
    Settled w' id ∨ ∃ i d, task = .consume i d ∧ d.body.orderId = id := by
  cases task with
  | consume i d =>
    obtain ⟨hat, rfl, _⟩ := onStart_consume h
    rcases hs with (⟨d', hd', hid⟩ | hrest) | hbilled
    · by_cases heq : d' = d
      · exact .inr ⟨i, d, rfl, heq ▸ hid⟩
      · refine .inl (.inl (.inl ⟨d', ?_, hid⟩))
        exact mem_eraseIdx_of_ne hd' hat heq
    · exact .inl (.inl (.inr hrest))
    · exact .inl (.inr hbilled)
  | _ =>
    cases h
    exact .inl hs

theorem onStart_published {task : Task} {program : Worker Unit} (h : onStart w task = some (w', program)) :
    w'.broker.published = w.broker.published := by
  cases task with
  | consume i d =>
    obtain ⟨_, rfl, _⟩ := onStart_consume h
    rfl
  | _ =>
    cases h
    rfl

theorem checkout_status (input : Checkout.CheckoutInput) {db : Database} {id : String} {s : OrderStatus}
    (h : (db.orders.find? id).map Order.status = some s) :
    ((Checkout.checkout P input db).2.1.orders.find? id).map Order.status = some s := by
  rcases Checkout.checkout_db P input db with hdb | ⟨_, _, _, _, _, _, hacc⟩
  · rw [hdb]
    exact h
  · obtain ⟨o, ho, hs⟩ := Option.map_eq_some_iff.mp h
    rw [Table.find?_insert hacc.order ho]
    exact congrArg some hs

theorem onEvent_status {event : Event} (h : onEvent P w event = some w') {id : String} {s : OrderStatus}
    (hs : (w.db.orders.find? id).map Order.status = some s) :
    (w'.db.orders.find? id).map Order.status = some s := by
  rcases onEvent_db h with hdb | ⟨input, hdb⟩
  · rw [hdb]
    exact hs
  · rw [hdb]
    exact checkout_status input hs

theorem onEvent_progressed {event : Event} (h : onEvent P w event = some w') {id : String}
    (hp : Progressed w.db.orders id) : Progressed w'.db.orders id :=
  hp.imp (onEvent_status h) (onEvent_status h)

theorem expire_has {b b' : Broker} (h : b.expire i = some b') {id : String}
    (hs : Has b.billing id ∨ Has b.retry id) : Has b'.billing id ∨ Has b'.retry id := by
  obtain ⟨d, hat, rfl⟩ := Option.map_eq_some_iff.mp h
  rcases hs with hb | ⟨d', hd', hid⟩
  · exact .inl (hb.mono fun _ hd => List.mem_append_left _ hd)
  · by_cases heq : d' = d
    · exact .inl ⟨d, List.mem_append_right _ (.head _), heq ▸ hid⟩
    · exact .inr ⟨d', mem_eraseIdx_of_ne hd' hat heq, hid⟩

/-- An event leaves every message in a queue. -/
theorem onEvent_broker {event : Event} (h : onEvent P w event = some w') (id : String) :
    (Has w.broker.billing id ∨ Has w.broker.retry id → Has w'.broker.billing id ∨ Has w'.broker.retry id) ∧
      w'.broker.dlq = w.broker.dlq ∧ w'.broker.published = w.broker.published := by
  cases event with
  | expireRetry i =>
    obtain ⟨broker, hexpire, rfl⟩ := Option.map_eq_some_iff.mp h
    obtain ⟨d, _, rfl⟩ := Option.map_eq_some_iff.mp hexpire
    exact ⟨expire_has hexpire, rfl, rfl⟩
  | duplicate i =>
    obtain ⟨broker, hduplicate, rfl⟩ := Option.map_eq_some_iff.mp h
    obtain ⟨d, _, rfl⟩ := Option.map_eq_some_iff.mp hduplicate
    exact ⟨.imp_left (·.mono fun _ hd => .tail _ hd), rfl, rfl⟩
  | _ =>
    cases h
    exact ⟨fun hs => hs, rfl, rfl⟩

theorem onEvent_settled {event : Event} (h : onEvent P w event = some w') {id : String}
    (hs : Settled w id) : Settled w' id := by
  obtain ⟨hqueues, hdlq, _⟩ := onEvent_broker h id
  rcases hs with (hb | hr | ⟨hp, hd⟩) | hbilled
  · exact .inl ((hqueues (.inl hb)).imp_right .inl)
  · exact .inl ((hqueues (.inr hr)).imp_right .inl)
  · exact .inl (.inr (.inr ⟨onEvent_progressed h hp, hdlq ▸ hd⟩))
  · exact .inr (onEvent_status h hbilled)

/-! ### Runs -/

theorem onCrash_settled {task : Task} {id : String} (hs : Settled w id) : Settled (onCrash w task) id := by
  cases task with
  | consume i d => exact hs.imp_left (.imp_left (·.mono fun _ hd => .tail _ hd))
  | _ => exact hs

theorem onCrash_published (w : World) (task : Task) :
    (onCrash w task).broker.published = w.broker.published := by
  cases task <;> rfl

theorem crash_carried {c : Config} (hc : Carried c) {n : Nat}
    {process : Machine.Process Task Call String Answer} (hrun : c.running n = some process) :
    Carried ⟨onCrash c.world process.task, Function.update c.running n none⟩ := by
  have hp : ∀ id, Progressed c.world.db.orders id → Progressed (onCrash c.world process.task).db.orders id :=
    fun id h => by rw [onCrash_db]; exact h
  refine ⟨fun m other hm => ?_, fun d hd => ?_⟩
  · rcases Machine.running_update hm with ⟨_, ho⟩ | ⟨_, hm⟩
    · cases ho
    · exact (hc.processes m other hm).stable hp
  · rw [onCrash_published] at hd
    rcases hc.published d hd with hs | ⟨m, i, d', program, hm, hid, hW⟩
    · exact .inl (onCrash_settled hs)
    · by_cases hmn : m = n
      · obtain rfl := Option.some.inj (hrun.symm.trans (hmn ▸ hm))
        exact .inl (.inl (.inl ⟨d', .head _, hid⟩))
      · exact .inr ⟨m, i, d', program, (Function.update_of_ne hmn _ _).trans hm, hid, hW.stable hp⟩

/-- One call of a process: what it did to the settled orders, and what it is now. -/
theorem resume_carried {process : Machine.Process Task Call String Answer}
    (hT : Tended w process) (hD : ∀ q, process.program.awaited i = some q → failuresHandedOn.call w q a)
    (h : process.program.resume (perform P) w i a = some (w', next)) :
    (Tended w' ⟨process.task, next⟩ ∨ ∃ result, next = .done result) ∧
      (∀ j d, process.task = .consume j d → Working w d process.program → HandedOn w' d next) ∧
      ∀ id, Settled w id → Settled w' id ∨
        ∃ j d, process.task = .consume j d ∧ d.body.orderId = id ∧ HandedOn w' d next := by
  obtain ⟨task, program⟩ := process
  have hkept : ∀ id, Settled w id → (∀ reason, program.awaited i ≠ some (.markErpFailed id reason)) →
      Settled w' id := by
    intro id hs hnot
    rcases resume_performs h with rfl | ⟨q, hq, rfl⟩
    · exact hs
    · exact (perform_executed w q a).settled hs fun reason he => hnot reason (he ▸ hq)
  cases task with
  | consume j d =>
    refine ⟨handling_step hT hD h, ?_, fun id hs => ?_⟩
    · intro j' d' htask hW
      cases htask
      exact working_step hW hD h
    · by_cases hmarks : ∃ reason, program.awaited i = some (.markErpFailed id reason)
      · obtain ⟨reason, hq⟩ := hmarks
        obtain ⟨hid, hW⟩ := hT.marksFailed hq
        exact .inr ⟨j, d, rfl, hid.symm, working_step hW hD h⟩
      · exact .inl (hkept id hs fun reason hq => hmarks ⟨reason, hq⟩)
  | _ =>
    have honly : program.OnlyCalls fun q => ¬MarksFailed q := hT
    refine ⟨.inl (honly.resume h), fun _ _ => nofun, fun id hs => .inl (hkept id hs fun reason hq => ?_)⟩
    exact honly.awaited hq trivial

theorem start_carried {c : Config} (hc : Carried c) {n : Nat} {task : Task} {program : Worker Unit}
    (hidle : c.running n = none) (h : onStart c.world task = some (w, program)) :
    Carried ⟨w, Function.update c.running n (Machine.alive task program)⟩ := by
  have hdb := onStart_db h
  have hold : ∀ m process, c.running m = some process →
      Function.update c.running n (Machine.alive task program) m = some process := by
    intro m process hm
    have hne : m ≠ n := by
      rintro rfl
      rw [hidle] at hm
      cases hm
    rw [Function.update_of_ne hne]
    exact hm
  refine ⟨fun m process hm => ?_, fun d hd => ?_⟩
  · rcases Machine.running_update hm with ⟨_, ho⟩ | ⟨_, hm⟩
    · rw [Machine.alive_eq_some ho]
      exact onStart_tended h
    · exact (hc.processes m process hm).stable fun id hp => hdb ▸ hp
  · rw [onStart_published h] at hd
    rcases hc.published d hd with hs | hwork
    · rcases onStart_settled h hs with hs' | ⟨i, d', rfl, hid⟩
      · exact .inl hs'
      · have hW := onStart_working h
        refine .inr ⟨n, i, d', program, ?_, hid, hW⟩
        exact (Function.update_self ..).trans (hW.alive _)
    · exact .inr (hwork.stable hold fun id hp => hdb ▸ hp)

theorem call_carried {c : Config} (hc : Carried c) {n : Nat}
    {process : Machine.Process Task Call String Answer} {program : Worker Unit}
    (hrun : c.running n = some process)
    (hD : ∀ q, process.program.awaited i = some q → failuresHandedOn.call c.world q a)
    (h : process.program.resume (perform P) c.world i a = some (w, program)) :
    Carried ⟨w, Function.update c.running n (Machine.alive process.task program)⟩ := by
  obtain ⟨htended, hwork, hsettled⟩ := resume_carried (hc.processes n process hrun) hD h
  have hmove : ∀ id, Progressed c.world.db.orders id → Progressed w.db.orders id := by
    intro id hp
    rcases resume_performs h with rfl | ⟨q, _, rfl⟩
    · exact hp
    · exact (perform_executed c.world q a).progressed hp
  have hpublished : ∀ d ∈ w.broker.published, d ∈ c.world.broker.published ∨ d ∈ w.broker.billing := by
    intro d hd
    rcases resume_performs h with rfl | ⟨q, _, rfl⟩
    · exact .inl hd
    · exact (perform_executed c.world q a).grows.published d hd
  have hhanded : ∀ j d, process.task = .consume j d → HandedOn w d program → Settled w d.body.orderId ∨
      AtWork ⟨w, Function.update c.running n (Machine.alive process.task program)⟩ d.body.orderId := by
    intro j d htask hhanded
    rcases hhanded with hW | ⟨_, hs⟩
    · refine .inr ⟨n, j, d, program, ?_, rfl, hW⟩
      exact (Function.update_self ..).trans ((hW.alive _).trans (by rw [htask]))
    · exact .inl hs
  refine ⟨fun m other hm => ?_, fun d hd => ?_⟩
  · rcases Machine.running_update hm with ⟨_, ho⟩ | ⟨_, hm⟩
    · rcases htended with hT | ⟨result, rfl⟩
      · rw [Machine.alive_eq_some ho]
        exact hT
      · cases ho
    · exact (hc.processes m other hm).stable hmove
  · rcases hpublished d hd with hd | hd
    · rcases hc.published d hd with hs | ⟨m, j, d', program', hm, hid, hW⟩
      · rcases hsettled _ hs with hs' | ⟨j, d', htask, hid, hto⟩
        · exact .inl hs'
        · exact hid ▸ hhanded j d' htask hto
      · by_cases hmn : m = n
        · obtain rfl := Option.some.inj (hrun.symm.trans (hmn ▸ hm))
          exact hid ▸ hhanded j d' rfl (hwork j d' rfl hW)
        · exact .inr ⟨m, j, d', program', (Function.update_of_ne hmn _ _).trans hm, hid, hW.stable hmove⟩
    · exact .inl (.inl (.inl ⟨d, hd, rfl⟩))

theorem event_carried {c : Config} (hc : Carried c) {event : Event} (h : onEvent P c.world event = some w) :
    Carried ⟨w, c.running⟩ := by
  refine ⟨fun m process hm => ?_, fun d hd => ?_⟩
  · exact (hc.processes m process hm).stable fun id hp => onEvent_progressed h hp
  · rw [(onEvent_broker h d.body.orderId).2.2] at hd
    rcases hc.published d hd with hs | hwork
    · exact .inl (onEvent_settled h hs)
    · exact .inr (hwork.stable (fun _ _ hm => hm) fun id hp => onEvent_progressed h hp)

theorem Carried.step {c c' : Config} {action : Action} (hc : Carried c)
    (hD : failuresHandedOn.allows c action) (h : (machine P).system.step c action = some c') :
    Carried c' := by
  cases (machine P).step_cases h with
  | started hidle hstart => exact start_carried hc hidle hstart
  | called hrun hres =>
    exact call_carried hc hrun (fun q hq => Machine.Discipline.allows_call hD hrun hq) hres
  | crashed hrun => exact crash_carried hc hrun
  | moved henv => exact event_carried hc henv

/-- As long as the failure path loses no message, every published order is accounted for. -/
theorem published_accounted (P : Checkout.Platform) (w : World) (actions : List Action) (c : Config)
    (hw : w.broker.published = [])
    (hhanded : (machine P).system.Guarded failuresHandedOn.allows (.idle w) actions)
    (hr : (machine P).system.run (.idle w) actions = some c) :
    ∀ d ∈ c.world.broker.published, Accounted c d.body.orderId := by
  have hidle : Carried (.idle w) := by
    refine ⟨fun _ _ => nofun, fun d hd => ?_⟩
    rw [show (Machine.Config.idle w : Config).world.broker.published = [] from hw] at hd
    cases hd
  have hc := Steps.System.run_guarded (fun _ _ _ hI hC hs => Carried.step hI hC hs) hidle hhanded hr
  exact fun d hd => hc.accounted hd

instance (w : World) (q : Call) (reply : Reply) : Decidable (failuresHandedOn.call w q reply) := by
  cases q <;> dsimp only [failuresHandedOn] <;> infer_instance

instance : ∀ w task, Decidable (failuresHandedOn.start w task) := fun _ _ => .isTrue trivial

instance : ∀ pending w event, Decidable (failuresHandedOn.environment pending w event) :=
  fun _ _ _ => .isTrue trivial

/-- The first handler records its attempt and crashes before it publishes the retry. The
message is delivered again, fails again, and its attempt is already recorded. -/
def crashedBeforeRetry : List Action :=
  orderPublished ++ .start 2 (.consume 0 firstMessage) ::
    replies 2 [.answered, .failed "timeout", .answered] ++ .crash 2 :: .start 3 (.consume 0 firstMessage) ::
    replies 3 [.answered, .failed "timeout", .answered, .answered]

theorem published_not_accounted :
    ¬∀ (P : Checkout.Platform) (w : World) (actions : List Action) (c : Config), w.broker.published = [] →
      (machine P).system.run (.idle w) actions = some c →
      ∀ d ∈ c.world.broker.published, Accounted c d.body.orderId := by
  intro h
  have hrun := run_after (.idle twoProducts) crashedBeforeRetry (by decide +kernel)
  have hidle := (machine plainPlatform).slots_free 4 (fun _ _ => rfl) (by decide) hrun
  have hdone : ∀ n < 4, ((after (.idle twoProducts) crashedBeforeRetry).running n).isNone := by decide +kernel
  rcases h _ _ _ _ rfl hrun firstMessage (by decide +kernel) with hb | hb | ⟨n, _, _, _, hn, _⟩ | hr | ⟨hf, _⟩
  · exact absurd hb (by decide +kernel)
  · exact absurd hb (by decide +kernel)
  · by_cases hlow : n < 4
    · have hnone := hdone n hlow
      rw [hn] at hnone
      cases hnone
    · rw [hidle n (by omega)] at hn
      cases hn
  · exact absurd hr (by decide +kernel)
  · exact absurd hf (by decide +kernel)

/-- Two failed attempts, then the order is billed. -/
def billedOnThirdAttempt : List Action :=
  orderPublished ++ failedAttempt 2 firstMessage ++ failedAttempt 3 (retried 2) ++
    .start 4 (.consume 0 (retried 3)) :: replies 4 [.answered, .answered, .answered, .answered]

theorem published_accounted_billed : ∃ c,
    (machine plainPlatform).system.run (.idle twoProducts) billedOnThirdAttempt = some c ∧
      ∀ d ∈ c.world.broker.published, Accounted c d.body.orderId :=
  have hrun := run_after (.idle twoProducts) billedOnThirdAttempt (by decide +kernel)
  ⟨_, hrun, published_accounted plainPlatform twoProducts billedOnThirdAttempt _ rfl
    (by decide +kernel) hrun⟩

end CaseCellShop.Shop
