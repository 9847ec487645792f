import CaseCellShop.Shop.Stranded

/-! Runs without failures.

While every call is answered and the ERP refuses no bill of the order, the order stays on
its way: it is billed, in a queue, with a handler that has met no failure, or its event
waits and no publisher is about to mark it. Any processes may run at the same time and any
may crash. So an order is billed in every state in which nothing is left to do
(`healthy_billed`). -/
namespace CaseCellShop.Shop
open Billing Outbox Program Queue Reconciliation

/-- Every call is answered, and the ERP is not told to refuse the order. -/
def healthy (id : String) : Discipline where
  start _ _ := True
  call _ _ reply := reply = .answered
  environment _ _ event :=
    match event with
    | .enableBillingFailure orderId => orderId ≠ id
    | _ => True

/-- The order exists. -/
def Placed (w : World) (id : String) : Prop := (w.db.orders.find? id).isSome

instance (w : World) (id : String) : Decidable (Placed w id) := inferInstanceAs (Decidable (_ = true))

/-- An event or a message of a queue is about the order. -/
def Concerned (w : World) (id : String) : Prop :=
  (∃ e ∈ w.db.outboxEvents.rows, e.payload.orderId = id) ∨ Has w.broker.billing id ∨ Has w.broker.retry id

/-! ### The processes -/

/-- What is left of a handler that has met no failure, before the order is billed. -/
inductive Handles (d : Delivery) : Worker Unit → Prop
  | find : Handles d (find d)
  | bill {order : Order} (h : order.id = d.body.orderId) : Handles d (bill d order)
  | mark (invoiceId : String) : Handles d (mark d d.body.orderId invoiceId)

/-- The calls of handlers of other orders, of syncs and of reconciliations. -/
def Elsewhere (id : String) : Call → Prop
  | .markErpFailed orderId _ => orderId ≠ id
  | .publishToRetry d | .nack d => d.body.orderId ≠ id
  | .publish _ | .markPublished _ | .markEventFailed _ _ => False
  | _ => True

/-- An event was handed to the broker and is to be marked, then the others follow. -/
def marking (e : OutboxEvent) (rest : List OutboxEvent) : Worker Unit :=
  await (.markPublished e.id) fun
    | .error error => request (.markEventFailed e.id error) >>= fun _ => each publishEvent rest
    | .ok _ => each publishEvent rest

/-- What is left of a cycle that has met no failure. -/
inductive Cycle (w : World) : Worker Unit → Prop
  | start : Cycle w publishPending
  | read : Cycle w (request .findPendingEvents >>= fun events => each publishEvent events)
  | publish {e : OutboxEvent} {rest : List OutboxEvent} (h : AllKnown (e :: rest) w) :
      Cycle w (each publishEvent (e :: rest))
  | mark {e : OutboxEvent} {rest : List OutboxEvent} (h : AllKnown (e :: rest) w) : Cycle w (marking e rest)

/-- A process that does the order no harm. -/
inductive Clean (id : String) (w : World) : Task → Worker Unit → Prop
  | other {task : Task} {program : Worker Unit} (htask : ∀ i d, task = .consume i d → d.body.orderId ≠ id)
      (h : program.OnlyCalls (Elsewhere id)) : Clean id w task program
  | handler {i : Nat} {d : Delivery} {program : Worker Unit} (hid : d.body.orderId = id) (hplaced : Placed w id)
      (h : Handles d program) : Clean id w (.consume i d) program
  | leaving {i : Nat} {d : Delivery} (hid : d.body.orderId = id) (hplaced : Placed w id) :
      Clean id w (.consume i d) (settle d)
  | cycle {program : Worker Unit} (h : Cycle w program) : Clean id w .publishPending program

variable {P : Checkout.Platform} {w w' : World} {id : String} {d : Delivery} {program next : Worker Unit} {i : Nat}

theorem publishEach_eq (e : OutboxEvent) (rest : List OutboxEvent) :
    each publishEvent (e :: rest) = await (.publish (messageOf e)) fun
      | .error error => request (.markEventFailed e.id error) >>= fun _ => each publishEvent rest
      | .ok _ => marking e rest := by
  rw [each, publishEvent_eq]
  refine await_congr fun r => ?_
  cases r with
  | error error => rfl
  | ok u => exact await_congr fun r => by cases r <;> rfl

/-- The calls of clean processes. -/
inductive Allowed (id : String) (w : World) : Call → Prop
  | elsewhere {q : Call} (h : Elsewhere id q) : Allowed id w q
  | publish {e : OutboxEvent} (h : Known w e) : Allowed id w (.publish (messageOf e))
  | mark {e : OutboxEvent} (h : Known w e) : Allowed id w (.markPublished e.id)

theorem Handles.awaited (h : Handles d program) {q : Call} (hq : program.awaited i = some q) : Elsewhere id q := by
  cases h <;> cases hq <;> trivial

theorem Cycle.awaited (h : Cycle w program) {q : Call} (hq : program.awaited i = some q) : Allowed id w q := by
  cases h with
  | start =>
    cases hq
    exact .elsewhere trivial
  | read =>
    cases hq
    exact .elsewhere trivial
  | publish h =>
    rw [publishEach_eq] at hq
    cases hq
    exact .publish (h _ (.head _))
  | mark h =>
    cases hq
    exact .mark (h _ (.head _))

theorem Clean.awaited {task : Task} (h : Clean id w task program) {q : Call} (hq : program.awaited i = some q) :
    Allowed id w q := by
  cases h with
  | other htask h => exact .elsewhere (h.awaited hq)
  | handler hid hplaced h => exact .elsewhere (h.awaited hq)
  | leaving hid hplaced =>
    cases hq
    exact .elsewhere trivial
  | cycle h => exact h.awaited hq

/-! ### What their calls do to the world -/

/-- What every step of a run without failures keeps. -/
structure Keeps (id : String) (w w' : World) : Prop where
  known : ∀ e, Known w e → Known w' e
  placed : Placed w id → Placed w' id
  billed : Billed w.db.orders id → Billed w'.db.orders id
  failures : id ∉ w.erp.failBillingFor → id ∉ w'.erp.failBillingFor

theorem Executed.failures {q : Call} (h : Executed w q w') : w'.erp.failBillingFor = w.erp.failBillingFor := by
  cases h with
  | billedByErp orderId billingKey =>
    rcases Erp.billOrder_cases w.erp w.clock.now orderId billingKey with
      ⟨_, hbill⟩ | ⟨_, _, hbill⟩ | ⟨_, _, _, hbill⟩ <;>
      simp only [hbill]
  | _ => rfl

theorem Executed.placed {q : Call} (h : Executed w q w') (id : String) : Placed w' id ↔ Placed w id := by
  have hafter := h.orders
  unfold Placed
  generalize w'.db.orders = orders at hafter
  cases hafter with
  | same => rfl
  | billed orderId invoiceId => exact Bool.eq_iff_iff.mp (found_update (f := Order.billed invoiceId) (fun _ => rfl) id)
  | erpFailed orderId reason => exact Bool.eq_iff_iff.mp (found_update (f := Order.erpFailed reason) (fun _ => rfl) id)

/-- The calls of clean processes keep the outbox. -/
theorem Allowed.outbox {q : Call} (hq : Allowed id w q) (h : Executed w q w') : OutboxKept w w' := by
  cases hq with
  | elsewhere helse =>
    refine (h.sameOutbox fun hwrite => ?_).kept
    cases q <;> first | exact hwrite | exact helse
  | publish he =>
    cases h with
    | nothing => exact .refl w
    | published => exact ⟨(OutboxKept.refl w).events, fun _ hd => List.mem_append_left _ hd⟩
  | mark he =>
    cases h with
    | nothing => exact .refl w
    | marked => exact updated_kept _ (fun _ => rfl) fun _ _ _ _ => rfl

theorem Allowed.keeps {q : Call} (hq : Allowed id w q) (h : Executed w q w') : Keeps id w w' where
  known _ he := (hq.outbox h).known he
  placed hplaced := (h.placed id).mpr hplaced
  billed hbilled := by
    refine h.stillBilled hbilled fun reason hq' => ?_
    subst hq'
    cases hq with
    | elsewhere helse => exact helse rfl
  failures hswitch := h.failures ▸ hswitch

/-- An event waits until it is marked. -/
theorem Allowed.waiting {q : Call} (hq : Allowed id w q) (h : Executed w q w') {e : OutboxEvent}
    (he : e ∈ waitingEvents w.db) (hnot : q ≠ .markPublished e.id) : e ∈ waitingEvents w'.db := by
  cases hq with
  | elsewhere helse =>
    have hsame : SameOutbox w w' := h.sameOutbox fun hwrite => by
      cases q <;> first | exact hwrite | exact helse
    rw [waitingEvents, hsame.events]
    exact he
  | publish hknown =>
    cases h with
    | nothing => exact he
    | published => exact he
  | mark hknown =>
    cases h with
    | nothing => exact he
    | marked eventId =>
      obtain ⟨hrow, hpending⟩ := List.mem_filter.mp he
      refine List.mem_filter.mpr ⟨List.mem_map.mpr ⟨e, hrow, if_neg fun hid => hnot (by rw [hid])⟩, hpending⟩

/-- They say nothing of an order of which nothing was said. -/
theorem Allowed.concerned {q : Call} (hq : Allowed id w q) (h : Executed w q w') (hw : Concerned w' id) :
    Concerned w id := by
  cases hq with
  | elsewhere helse =>
    have hsame : SameOutbox w w' := h.sameOutbox fun hwrite => by
      cases q <;> first | exact hwrite | exact helse
    rw [Concerned, hsame.events] at hw
    refine hw.imp_right ?_
    cases h with
    | sentToRetry d => exact .imp_right fun hhas => (has_append.mp hhas).resolve_right fun h => helse (has_singleton.mp h)
    | returned d => exact .imp_left fun hhas => (has_cons.mp hhas).resolve_left helse
    | published d => exact helse.elim
    | _ => exact fun hhas => hhas
  | publish hknown =>
    cases h with
    | nothing => exact hw
    | published =>
      refine hw.elim .inl fun hqueue => hqueue.elim (fun hhas => ?_) fun hretry => .inr (.inr hretry)
      rcases has_append.mp hhas with hold | hnew
      · exact .inr (.inl hold)
      · obtain ⟨row, hrow, hmessage⟩ := hknown
        refine .inl ⟨row, Table.mem_of_find? hrow, ?_⟩
        exact (congrArg (fun d : Delivery => d.body.orderId) hmessage).trans (has_singleton.mp hnew)
  | @mark e hknown =>
    cases h with
    | nothing => exact hw
    | marked =>
      refine hw.imp_left ?_
      rintro ⟨_, hmem, hid⟩
      obtain ⟨row, hrow, rfl⟩ := List.mem_map.mp hmem
      refine ⟨row, hrow, ?_⟩
      by_cases hevent : row.id = e.id
      · rwa [if_pos hevent] at hid
      · rwa [if_neg hevent] at hid

/-! ### One call of a process -/

/-- A handler that meets no failure gets on, or its order is billed. -/
theorem Handles.step (h : Handles d program) (hplaced : Placed w d.body.orderId)
    (hswitch : d.body.orderId ∉ w.erp.failBillingFor)
    (hres : program.resume (perform P) w i .answered = some (w', next)) :
    Handles d next ∨ next = settle d ∧ Billed w'.db.orders d.body.orderId := by
  obtain ⟨order, hfind⟩ := Option.isSome_iff_exists.mp hplaced
  have hid := Table.key_of_find? hfind
  cases h with
  | find =>
    obtain ⟨hw, hnext⟩ := resume_await hres
    have hanswer : (perform P w (.findOrder d.body.orderId) .answered).2 = .ok order := by
      simp only [perform, execute, findOrder, hfind]
    rw [hanswer] at hnext
    change next = if order.status = .billed then settle d else Billing.bill d order at hnext
    by_cases hbilled : order.status = .billed
    · rw [if_pos hbilled] at hnext
      exact .inr ⟨hnext, hw ▸ billed_iff.mpr ⟨order, hfind, hbilled⟩⟩
    · rw [if_neg hbilled] at hnext
      exact .inl (hnext ▸ .bill hid)
  | @bill order' horder =>
    obtain ⟨rfl, hnext⟩ := resume_await hres
    obtain ⟨erp, receipt, hanswer, _⟩ := billOrder_answers (P := P) w (horder ▸ hswitch) (billingKey order'.id)
    rw [show perform P w (.billOrder order'.id (billingKey order'.id)) .answered = _ from hanswer, horder] at hnext
    exact .inl (hnext ▸ .mark receipt.invoiceId)
  | mark invoiceId =>
    obtain ⟨rfl, hnext⟩ := resume_await hres
    have hanswer : perform P w (.markBilled d.body.orderId invoiceId) .answered = ({w with db := {w.db with
        orders := w.db.orders.update d.body.orderId (Order.billed invoiceId) (billed_id invoiceId)}},
        .ok (order.billed invoiceId)) := by
      simp only [perform, execute, World.updateOrder, Database.updateOrder, hfind]
    rw [hanswer] at hnext ⊢
    exact .inr ⟨hnext, (billed_update d.body.orderId).mpr (.inr ⟨rfl, hplaced⟩)⟩

/-- What the program is about to mark was known and has just been handed to the broker. -/
def HandedToMark (w w' : World) (next : Worker Unit) : Prop :=
  ∀ j eventId, next.awaited j = some (.markPublished eventId) →
    ∃ e, e.id = eventId ∧ Known w e ∧ messageOf e ∈ w'.broker.billing

/-- A publisher that meets no failure goes on, and is about to mark only what it has just
handed to the broker. -/
theorem Cycle.step (h : Cycle w program) (hk : ∀ e, Known w e → Known w' e)
    (hres : program.resume (perform P) w i .answered = some (w', next)) :
    (∃ result, next = .done result) ∨ Cycle w' next ∧ HandedToMark w w' next := by
  have hleft {events : List OutboxEvent} (hknown : AllKnown events w') :
      (∃ result, each publishEvent events = .done result) ∨
        Cycle w' (each publishEvent events) ∧ HandedToMark w w' (each publishEvent events) := by
    cases events with
    | nil => exact .inl ⟨_, rfl⟩
    | cons e rest =>
      refine .inr ⟨.publish hknown, fun j eventId hq => ?_⟩
      rw [publishEach_eq] at hq
      cases hq
  cases h with
  | start =>
    obtain ⟨rfl, rfl⟩ := resume_await hres
    exact .inr ⟨.read, nofun⟩
  | read =>
    obtain ⟨rfl, rfl⟩ := resume_await hres
    refine hleft fun e he => ?_
    exact ⟨e, Table.find?_key (List.mem_of_mem_filter (List.mem_of_mem_take he)), rfl⟩
  | @publish e rest hknown =>
    rw [publishEach_eq] at hres
    obtain ⟨rfl, rfl⟩ := resume_await hres
    refine .inr ⟨.mark fun e he => hk e (hknown e he), fun j eventId hq => ?_⟩
    cases hq
    exact ⟨e, rfl, hknown e (.head _), List.mem_append_right _ (.head _)⟩
  | @mark e rest hknown =>
    obtain ⟨rfl, rfl⟩ := resume_await hres
    obtain ⟨row, hrow, _⟩ := hknown e (.head _)
    have hanswer : (perform P w (.markPublished e.id) .answered).2 = .ok () := by
      simp only [perform, execute, Database.updateOutboxEvent, hrow, World.write]
    rw [hanswer]
    exact hleft fun e he => hk e (hknown e (.tail _ he))

theorem Cycle.mono (h : Cycle w program) (hk : ∀ e, Known w e → Known w' e) : Cycle w' program := by
  cases h with
  | start => exact .start
  | read => exact .read
  | publish h => exact .publish fun e he => hk e (h e he)
  | mark h => exact .mark fun e he => hk e (h e he)

theorem Clean.mono {task : Task} (h : Clean id w task program) (hk : Keeps id w w') : Clean id w' task program := by
  cases h with
  | other htask h => exact .other htask h
  | handler hid hplaced h => exact .handler hid (hk.placed hplaced) h
  | leaving hid hplaced => exact .leaving hid (hk.placed hplaced)
  | cycle h => exact .cycle (h.mono hk.known)

/-- A handler of the order that has met no failure. -/
def Serves (id : String) (task : Task) (program : Worker Unit) : Prop :=
  ∃ i d, task = .consume i d ∧ d.body.orderId = id ∧ Handles d program

theorem handedToMark_of_elsewhere (id : String) (w w' : World)
    (h : ∀ j q, next.awaited j = some q → Elsewhere id q) : HandedToMark w w' next :=
  fun j _ hq => (h j _ hq).elim

/-- One call of a clean process leaves it clean, or done; if it served the order, it does so
still, or the order is billed. -/
theorem Clean.step {task : Task} (h : Clean id w task program) (hk : Keeps id w w')
    (hswitch : id ∉ w.erp.failBillingFor)
    (hres : program.resume (perform P) w i .answered = some (w', next)) :
    ((∃ result, next = .done result) ∨ Clean id w' task next ∧ HandedToMark w w' next) ∧
      (Serves id task program → Serves id task next ∨ Billed w'.db.orders id) := by
  cases h with
  | other htask h =>
    have honly := h.resume hres
    refine ⟨.inr ⟨.other htask honly, handedToMark_of_elsewhere id w w' fun j q => honly.awaited⟩, ?_⟩
    rintro ⟨i, d, htask', hid, _⟩
    exact absurd hid (htask i d htask')
  | @handler n d _ hid hplaced h =>
    subst hid
    rcases h.step hplaced hswitch hres with hnext | ⟨hnext, hbilled⟩
    · exact ⟨.inr ⟨.handler rfl (hk.placed hplaced) hnext, handedToMark_of_elsewhere d.body.orderId w w' fun j q => hnext.awaited⟩,
        fun _ => .inl ⟨n, d, rfl, rfl, hnext⟩⟩
    · subst hnext
      refine ⟨.inr ⟨.leaving rfl (hk.placed hplaced), fun j eventId hq => ?_⟩, fun _ => .inr hbilled⟩
      cases hq
  | leaving hid hplaced =>
    obtain ⟨_, hnext⟩ := resume_await hres
    refine ⟨.inl ⟨_, hnext⟩, ?_⟩
    rintro ⟨_, _, _, _, hserves⟩
    cases hserves
  | cycle h =>
    refine ⟨(h.step hk.known hres).imp_right fun ⟨hcycle, hhanded⟩ => ⟨.cycle hcycle, hhanded⟩, ?_⟩
    rintro ⟨_, _, htask, _⟩
    cases htask

/-! ### Configurations -/

/-- A handler that has met no failure is at work on the order. -/
def Served (c : Config) (id : String) : Prop :=
  ∃ n process, c.running n = some process ∧ Serves id process.task process.program

/-- The order's event waits, and no publisher is about to mark it. -/
def Unmarked (c : Config) (id : String) : Prop :=
  ∃ e ∈ waitingEvents c.world.db, e.payload.orderId = id ∧
    ∀ n process, c.running n = some process → ∀ j, process.program.awaited j ≠ some (.markPublished e.id)

/-- Billed, or still on its way. -/
def Underway (c : Config) (id : String) : Prop :=
  Billed c.world.db.orders id ∨ Has c.world.broker.billing id ∨ Has c.world.broker.retry id ∨ Served c id ∨ Unmarked c id

/-- The invariant of the runs without failures. -/
structure Healthy (id : String) (c : Config) : Prop where
  failures : id ∉ c.world.erp.failBillingFor
  processes : ∀ n process, c.running n = some process → Clean id c.world process.task process.program
  placed : Concerned c.world id → Placed c.world id
  underway : Placed c.world id → Underway c id

variable {c : Config} {n : Nat} {X : Prop}

/-- A change of one process leaves the order served, unless that process did. -/
theorem Served.update {process : Option (Machine.Process Task Call String Answer)} (h : Served c id)
    (hthis : ∀ p, c.running n = some p → Serves id p.task p.program →
      (∃ p', process = some p' ∧ Serves id p'.task p'.program) ∨ X) :
    Served ⟨w, Function.update c.running n process⟩ id ∨ X := by
  obtain ⟨m, p, hrun, hserves⟩ := h
  by_cases hmn : m = n
  · subst hmn
    refine (hthis p hrun hserves).imp_left ?_
    rintro ⟨p', hp', hserves'⟩
    exact ⟨m, p', (Function.update_self ..).trans hp', hserves'⟩
  · exact .inl ⟨m, p, (Function.update_of_ne hmn ..).trans hrun, hserves⟩

/-- Nor does it mark the event, unless it is about to. -/
theorem Unmarked.update {process : Option (Machine.Process Task Call String Answer)} (h : Unmarked c id)
    (hwaits : ∀ e ∈ waitingEvents c.world.db, (∀ m p, c.running m = some p →
      ∀ j, p.program.awaited j ≠ some (.markPublished e.id)) → e ∈ waitingEvents w.db)
    (hthis : ∀ e ∈ waitingEvents c.world.db, e.payload.orderId = id → ∀ p, process = some p →
      ∀ j, p.program.awaited j = some (.markPublished e.id) → X) :
    Unmarked ⟨w, Function.update c.running n process⟩ id ∨ X := by
  obtain ⟨e, he, hid, hnone⟩ := h
  by_cases hmarks : ∃ p, process = some p ∧ ∃ j, p.program.awaited j = some (.markPublished e.id)
  · obtain ⟨p, hp, j, hq⟩ := hmarks
    exact .inr (hthis e he hid p hp j hq)
  · refine .inl ⟨e, hwaits e he hnone, hid, fun m p hp j hq => ?_⟩
    rcases Machine.running_update hp with ⟨_, hp⟩ | ⟨_, hp⟩
    · exact hmarks ⟨p, hp, j, hq⟩
    · exact hnone m p hp j hq

/-- The processes after a change of one. -/
theorem clean_update {process : Option (Machine.Process Task Call String Answer)} (hc : Healthy id c)
    (hk : Keeps id c.world w) (hthis : ∀ p, process = some p → Clean id w p.task p.program) :
    ∀ m p, Function.update c.running n process m = some p → Clean id w p.task p.program := by
  intro m p hp
  rcases Machine.running_update hp with ⟨_, hp⟩ | ⟨_, hp⟩
  · exact hthis p hp
  · exact (hc.processes m p hp).mono hk

theorem keeps_of_same (hdb : w'.db = w.db) (hfailures : id ∉ w.erp.failBillingFor → id ∉ w'.erp.failBillingFor) :
    Keeps id w w' where
  known e he := by
    rw [Known, hdb]
    exact he
  placed h := by
    rw [Placed, hdb]
    exact h
  billed h := by
    rw [hdb]
    exact h
  failures := hfailures

theorem Serves.alive {task : Task} (h : Serves id task program) :
    Machine.alive task program = some ⟨task, program⟩ := by
  obtain ⟨_, _, _, _, hhandles⟩ := h
  cases hhandles <;> rfl

/-- A call of any process, answered. -/
theorem call_healthy {process : Machine.Process Task Call String Answer} (hc : Healthy id c)
    (hrun : c.running n = some process)
    (hres : process.program.resume (perform P) c.world i .answered = some (w, program)) :
    Healthy id ⟨w, Function.update c.running n (Machine.alive process.task program)⟩ := by
  have hclean := hc.processes n process hrun
  -- what the call does to the world
  obtain ⟨hk, hgrows, hwaits, hconcerned, hplaced⟩ : Keeps id c.world w ∧ Broker.Grows c.world.broker w.broker ∧
      (∀ e ∈ waitingEvents c.world.db, process.program.awaited i ≠ some (.markPublished e.id) →
        e ∈ waitingEvents w.db) ∧
      (Concerned w id → Concerned c.world id) ∧ (Placed w id → Placed c.world id) := by
    rcases resume_performs hres with rfl | ⟨q, hq, rfl⟩
    · exact ⟨keeps_of_same rfl fun h => h, .refl _, fun _ he _ => he, fun h => h, fun h => h⟩
    · have hallowed := hclean.awaited hq
      have hexecuted := perform_executed (P := P) c.world q .answered
      refine ⟨hallowed.keeps hexecuted, hexecuted.grows, fun e he hnot => ?_, hallowed.concerned hexecuted,
        (hexecuted.placed id).mp⟩
      exact hallowed.waiting hexecuted he fun h => hnot (hq.trans (congrArg some h))
  obtain ⟨hnext, hserved⟩ := hclean.step hk hc.failures hres
  have halive : ∀ p, Machine.alive process.task program = some p →
      Clean id w p.task p.program ∧ HandedToMark c.world w p.program := by
    intro p hp
    rcases hnext with ⟨result, rfl⟩ | hnext
    · cases hp
    · rw [Machine.alive_eq_some hp]
      exact hnext
  refine ⟨hk.failures hc.failures, clean_update hc hk fun p hp => (halive p hp).1,
    fun h => hk.placed (hc.placed (hconcerned h)), fun h => ?_⟩
  rcases hc.underway (hplaced h) with hbilled | hbilling | hretry | hs | hu
  · exact .inl (hk.billed hbilled)
  · exact .inr (.inl (hbilling.mono hgrows.billing))
  · exact .inr (.inr (.inl (hretry.mono hgrows.retry)))
  · have hstill : Served ⟨w, Function.update c.running n (Machine.alive process.task program)⟩ id ∨
        Billed w.db.orders id := by
      refine hs.update fun p hp hserves => ?_
      obtain rfl := Option.some.inj (hrun.symm.trans hp)
      exact (hserved hserves).imp_left fun h => ⟨⟨process.task, program⟩, h.alive, h⟩
    exact hstill.elim (fun hs' => .inr (.inr (.inr (.inl hs')))) .inl
  · have hstill : Unmarked ⟨w, Function.update c.running n (Machine.alive process.task program)⟩ id ∨
        Has w.broker.billing id := by
      refine hu.update (fun e he hnone => hwaits e he (hnone n process hrun i)) fun e he hid p hp j hq => ?_
      obtain ⟨e', hid', ⟨row, hrow, hmessage⟩, hhanded⟩ := (halive p hp).2 j e.id hq
      have hsame : row = e := by
        rw [hid', Table.find?_key (List.mem_filter.mp he).1] at hrow
        exact (Option.some.inj hrow).symm
      exact ⟨messageOf e', hhanded, hmessage ▸ hsame ▸ hid⟩
    exact hstill.elim (fun hu' => .inr (.inr (.inr (.inr hu')))) fun h => .inr (.inl h)

theorem elsewhere_sync (id : String) : syncCatalog.OnlyCalls (Elsewhere id) :=
  onlyCalls_mono syncCatalog_calls fun q hq => by cases q <;> trivial

theorem elsewhere_reconcile (id : String) : reconcileOrders.OnlyCalls (Elsewhere id) :=
  onlyCalls_mono reconcileOrders_calls fun q hq => by cases q <;> trivial

/-- A handler of another order. -/
theorem elsewhere_consume (hd : d.body.orderId ≠ id) : (consume d).OnlyCalls (Elsewhere id) := by
  refine OnlyCallsGiven.any (consume_given (fun q hq => ?_) fun order _ => ⟨trivial, fun _ _ => trivial⟩)
  cases q with
  | markErpFailed | publishToRetry | nack => exact fun he => hd (hq.symm.trans he)
  | publish | markPublished | markEventFailed => exact hq.elim
  | _ => trivial

/-- A program elsewhere is not about to mark an event. -/
theorem elsewhere_awaited (h : program.OnlyCalls (Elsewhere id)) (j : Nat) (eventId : String) :
    program.awaited j ≠ some (.markPublished eventId) := by
  intro hq
  have hcall : Elsewhere id (.markPublished eventId) := h.awaited hq
  exact hcall

/-- A start finds the process clean, and about to mark nothing. -/
theorem onStart_clean {task : Task} (hw : Concerned w id → Placed w id) (h : onStart w task = some (w', program)) :
    Clean id w' task program ∧ ∀ j eventId, program.awaited j ≠ some (.markPublished eventId) := by
  cases task with
  | syncCatalog =>
    cases h
    have hcalls : (ignored syncCatalog).OnlyCalls (Elsewhere id) :=
      onlyCalls_bind (elsewhere_sync id) fun _ => trivial
    exact ⟨.other (fun _ _ htask => nomatch htask) hcalls, elsewhere_awaited hcalls⟩
  | reconcileOrders =>
    cases h
    have hcalls : (ignored reconcileOrders).OnlyCalls (Elsewhere id) :=
      onlyCalls_bind (elsewhere_reconcile id) fun _ => trivial
    exact ⟨.other (fun _ _ htask => nomatch htask) hcalls, elsewhere_awaited hcalls⟩
  | publishPending =>
    cases h
    exact ⟨.cycle .start, fun j eventId hq => nomatch hq⟩
  | consume i d =>
    obtain ⟨hat, rfl, rfl⟩ := onStart_consume h
    by_cases hid : d.body.orderId = id
    · rw [consume_eq]
      refine ⟨.handler hid ?_ .find, fun j eventId hq => nomatch hq⟩
      exact hw (.inr (.inl ⟨d, List.mem_of_getElem? hat, hid⟩))
    · have hcalls := elsewhere_consume hid
      refine ⟨.other (fun _ _ htask => ?_) hcalls, elsewhere_awaited hcalls⟩
      cases htask
      exact hid

/-- A start takes nothing but the message of the handler it starts. -/
theorem onStart_takes (id : String) {task : Task} (h : onStart w task = some (w', program)) :
    Keeps id w w' ∧ (Concerned w' id → Concerned w id) ∧ w'.broker.retry = w.broker.retry ∧
      (Has w.broker.billing id → Has w'.broker.billing id ∨ Serves id task program) := by
  cases task with
  | consume i d =>
    obtain ⟨hat, rfl, rfl⟩ := onStart_consume h
    refine ⟨keeps_of_same rfl fun h => h, ?_, rfl, ?_⟩
    · exact .imp_right (.imp_left (·.mono fun _ hd => List.mem_of_mem_eraseIdx hd))
    · rintro ⟨d', hd', hid⟩
      by_cases heq : d' = d
      · exact .inr ⟨i, d, rfl, heq ▸ hid, consume_eq d ▸ .find⟩
      · exact .inl ⟨d', mem_eraseIdx_of_ne hd' hat heq, hid⟩
  | _ =>
    cases h
    exact ⟨keeps_of_same rfl fun h => h, fun h => h, rfl, .inl⟩

theorem start_healthy {task : Task} (hc : Healthy id c) (hidle : c.running n = none)
    (h : onStart c.world task = some (w, program)) :
    Healthy id ⟨w, Function.update c.running n (Machine.alive task program)⟩ := by
  obtain ⟨hclean, hmarks⟩ := onStart_clean hc.placed h
  obtain ⟨hk, hconcerned, hretry, hbilling⟩ := onStart_takes id h
  have hdb := onStart_db h
  have halive : ∀ p, Machine.alive task program = some p → p = ⟨task, program⟩ := fun p => Machine.alive_eq_some
  refine ⟨hk.failures hc.failures, clean_update hc hk fun p hp => halive p hp ▸ hclean,
    fun h => hk.placed (hc.placed (hconcerned h)), fun hplaced => ?_⟩
  rw [Placed, show (Machine.Config.mk w _ : Config).world.db = _ from hdb] at hplaced
  rcases hc.underway hplaced with hbilled | hb | hr | hs | hu
  · exact .inl (hk.billed hbilled)
  · rcases hbilling hb with hb | hserves
    · exact .inr (.inl hb)
    · exact .inr (.inr (.inr (.inl ⟨n, _, (Function.update_self ..).trans hserves.alive, hserves⟩)))
  · exact .inr (.inr (.inl (hretry ▸ hr)))
  · have hstill : Served ⟨w, Function.update c.running n (Machine.alive task program)⟩ id ∨ False := by
      refine hs.update fun p hp _ => ?_
      rw [hidle] at hp
      cases hp
    exact hstill.elim (fun hs' => .inr (.inr (.inr (.inl hs')))) False.elim
  · have hstill : Unmarked ⟨w, Function.update c.running n (Machine.alive task program)⟩ id ∨ False := by
      refine hu.update (fun e he _ => by rwa [hdb]) fun e _ _ p hp j hq => ?_
      rw [halive p hp] at hq
      exact hmarks j e.id hq
    exact hstill.elim (fun hu' => .inr (.inr (.inr (.inr hu')))) False.elim

/-- A crash gives the message back. -/
theorem onCrash_returns (id : String) (w : World) (task : Task) :
    Keeps id w (onCrash w task) ∧ (onCrash w task).broker.retry = w.broker.retry ∧
      (∀ d ∈ w.broker.billing, d ∈ (onCrash w task).broker.billing) ∧
      ∀ d ∈ (onCrash w task).broker.billing, d ∈ w.broker.billing ∨ ∃ i, task = .consume i d := by
  cases task with
  | consume i d =>
    refine ⟨keeps_of_same rfl fun h => h, rfl, fun _ hd => .tail _ hd, fun d' hd' => ?_⟩
    rcases List.mem_cons.mp hd' with rfl | hold
    · exact .inr ⟨i, rfl⟩
    · exact .inl hold
  | _ => exact ⟨keeps_of_same rfl fun h => h, rfl, fun _ hd => hd, fun _ hd => .inl hd⟩

theorem crash_healthy {process : Machine.Process Task Call String Answer} (hc : Healthy id c)
    (hrun : c.running n = some process) :
    Healthy id ⟨onCrash c.world process.task, Function.update c.running n none⟩ := by
  obtain ⟨hk, hretry, hkept, hback⟩ := onCrash_returns id c.world process.task
  have hdb := onCrash_db c.world process.task
  have hplaced : ∀ i d, process.task = .consume i d → d.body.orderId = id → Placed c.world id := by
    intro i d htask hid
    obtain ⟨task, program⟩ := process
    cases hc.processes n _ hrun with
    | other hother => exact absurd hid (hother i d htask)
    | handler _ hplaced => exact hplaced
    | leaving _ hplaced => exact hplaced
    | cycle => cases htask
  refine ⟨hk.failures hc.failures, clean_update hc hk (fun p hp => by cases hp), fun h => ?_, fun h => ?_⟩
  · rw [Concerned, show (Machine.Config.mk (onCrash c.world process.task) _ : Config).world.db = _ from hdb] at h
    rcases h with hevent | ⟨d, hd, hid⟩ | hr
    · exact hk.placed (hc.placed (.inl hevent))
    · rcases hback d hd with hold | ⟨i, htask⟩
      · exact hk.placed (hc.placed (.inr (.inl ⟨d, hold, hid⟩)))
      · exact hk.placed (hplaced i d htask hid)
    · exact hk.placed (hc.placed (.inr (.inr (hretry ▸ hr))))
  · rw [Placed, show (Machine.Config.mk (onCrash c.world process.task) _ : Config).world.db = _ from hdb] at h
    rcases hc.underway h with hbilled | hb | hr | hs | hu
    · exact .inl (hk.billed hbilled)
    · exact .inr (.inl (hb.mono hkept))
    · exact .inr (.inr (.inl (hretry ▸ hr)))
    · have hstill : Served ⟨onCrash c.world process.task, Function.update c.running n none⟩ id ∨
          Has (onCrash c.world process.task).broker.billing id := by
        refine hs.update fun p hp hserves => .inr ?_
        obtain rfl := Option.some.inj (hrun.symm.trans hp)
        obtain ⟨i, d, htask, hid, _⟩ := hserves
        rw [htask]
        exact ⟨d, .head _, hid⟩
      exact hstill.elim (fun hs' => .inr (.inr (.inr (.inl hs')))) fun hb => .inr (.inl hb)
    · have hstill : Unmarked ⟨onCrash c.world process.task, Function.update c.running n none⟩ id ∨ False :=
        hu.update (fun e he _ => by rwa [hdb]) fun _ _ _ _ => nofun
      exact hstill.elim (fun hu' => .inr (.inr (.inr (.inr hu')))) False.elim

/-- An event that writes nothing to the store. -/
theorem moved_healthy (hc : Healthy id c) (hdb : w.db = c.world.db)
    (hfailures : id ∉ c.world.erp.failBillingFor → id ∉ w.erp.failBillingFor)
    (hqueues : Has w.broker.billing id ∨ Has w.broker.retry id ↔
      Has c.world.broker.billing id ∨ Has c.world.broker.retry id) : Healthy id ⟨w, c.running⟩ := by
  have hk : Keeps id c.world w := keeps_of_same hdb hfailures
  refine ⟨hk.failures hc.failures, fun n p hp => (hc.processes n p hp).mono hk, fun h => ?_, fun h => ?_⟩
  · rw [Concerned, hqueues, show (Machine.Config.mk w c.running : Config).world.db = _ from hdb] at h
    exact hk.placed (hc.placed h)
  · rw [Placed, show (Machine.Config.mk w c.running : Config).world.db = _ from hdb] at h
    have hqueued (h : Has c.world.broker.billing id ∨ Has c.world.broker.retry id) : Underway ⟨w, c.running⟩ id :=
      .inr ((hqueues.mpr h).imp_right .inl)
    rcases hc.underway h with hbilled | hb | hr | hs | ⟨e, he, hid, hnone⟩
    · exact .inl (hk.billed hbilled)
    · exact hqueued (.inl hb)
    · exact hqueued (.inr hr)
    · exact .inr (.inr (.inr (.inl hs)))
    · refine .inr (.inr (.inr (.inr ⟨e, ?_, hid, hnone⟩)))
      rw [show (Machine.Config.mk w c.running : Config).world.db = _ from hdb]
      exact he

/-- A clean process is about to mark only what is in the outbox. -/
theorem Clean.knows {task : Task} (h : Clean id w task program) {j : Nat} {eventId : String}
    (hq : program.awaited j = some (.markPublished eventId)) : (w.db.outboxEvents.find? eventId).isSome := by
  generalize hcall : Call.markPublished eventId = q at hq
  cases h.awaited hq with
  | elsewhere helse =>
    rw [← hcall] at helse
    exact helse.elim
  | publish => cases hcall
  | mark hknown =>
    cases hcall
    obtain ⟨row, hrow, _⟩ := hknown
    exact Option.isSome_of_mem hrow

/-- The event of an order that is placed waits. -/
theorem accepted_healthy {call : Checkout.CheckoutCall} {attempt : Checkout.Attempt} {db : Database}
    {result : Checkout.CheckoutResult} {items : List Checkout.PricedItem} (hc : Healthy id c)
    (hacc : Checkout.Accepted call attempt c.world.db c.world.db db result items)
    (hbilled : Billed c.world.db.orders id → Billed db.orders id) :
    Healthy id ⟨{c.world with db := db}, c.running⟩ := by
  obtain ⟨_, horders⟩ := Table.insert?_eq_some hacc.order
  obtain ⟨hfresh, hevents⟩ := Table.insert?_eq_some hacc.event
  have hk : Keeps id c.world {c.world with db := db} := by
    refine ⟨?_, fun h => ?_, hbilled, fun h => h⟩
    · rintro e ⟨row, hrow, hmessage⟩
      exact ⟨row, Table.find?_insert hacc.event hrow, hmessage⟩
    · obtain ⟨o, ho⟩ := Option.isSome_iff_exists.mp h
      exact Option.isSome_of_mem (Table.find?_insert hacc.order ho)
  have hwaits : ∀ e ∈ waitingEvents c.world.db, e ∈ waitingEvents db := by
    intro e he
    obtain ⟨hrow, hpending⟩ := List.mem_filter.mp he
    exact List.mem_filter.mpr ⟨hevents ▸ List.mem_append_left _ hrow, hpending⟩
  refine ⟨hc.failures, fun n p hp => (hc.processes n p hp).mono hk, ?_, fun h => ?_⟩
  · rintro (⟨e, he, hid⟩ | hqueue)
    · rw [hevents] at he
      rcases List.mem_append.mp he with hold | hnew
      · exact hk.placed (hc.placed (.inl ⟨e, hold, hid⟩))
      · rw [List.mem_singleton.mp hnew] at hid
        exact hid ▸ Option.isSome_of_mem (Table.find?_inserted hacc.order)
    · exact hk.placed (hc.placed (.inr hqueue))
  · by_cases hplaced : Placed c.world id
    · rcases hc.underway hplaced with hb | hb | hr | hs | ⟨e, he, hid, hnone⟩
      · exact .inl (hbilled hb)
      · exact .inr (.inl hb)
      · exact .inr (.inr (.inl hr))
      · exact .inr (.inr (.inr (.inl hs)))
      · exact .inr (.inr (.inr (.inr ⟨e, hwaits e he, hid, hnone⟩)))
    · obtain ⟨o, ho⟩ := Option.isSome_iff_exists.mp h
      rw [Table.find?_after_insert hacc.order] at ho
      by_cases hid : id = (Checkout.newOrder call attempt.orderId items).id
      · -- its event is new, so that no publisher has read it
        refine .inr (.inr (.inr (.inr ⟨_, List.mem_filter.mpr ⟨hevents ▸ List.mem_append_right _ (.head _), rfl⟩,
          hid.symm, fun n p hp j hq => ?_⟩)))
        have hknown := (hc.processes n p hp).knows hq
        rw [hfresh] at hknown
        cases hknown
      · rw [if_neg hid] at ho
        exact absurd (Option.isSome_of_mem ho) hplaced

/-- Everything that happens by itself. -/
theorem event_healthy {event : Event} (hc : Healthy id c)
    (hallowed : (healthy id).environment c.pending c.world event) (h : onEvent P c.world event = some w) :
    Healthy id ⟨w, c.running⟩ := by
  cases event with
  | checkout input =>
    have hbilled (h : Billed c.world.db.orders id) : Billed (Checkout.checkout P input c.world.db).2.1.orders id :=
      checkout_status input h
    cases h
    rcases Checkout.checkout_db P input c.world.db with hdb | ⟨_, _, _, _, _, _, hacc⟩
    · exact moved_healthy hc hdb (fun h => h) .rfl
    · exact accepted_healthy hc hacc hbilled
  | enableBillingFailure orderId =>
    cases h
    refine moved_healthy hc rfl (fun hnot hmem => ?_) .rfl
    exact (List.mem_cons.mp hmem).elim (fun hid => hallowed hid.symm) hnot
  | clearBillingFailure orderId =>
    cases h
    exact moved_healthy hc rfl (fun hnot hmem => hnot (List.mem_filter.mp hmem).1) .rfl
  | expireRetry i =>
    obtain ⟨broker, hexpire, rfl⟩ := Option.map_eq_some_iff.mp h
    refine moved_healthy hc rfl (fun h => h) ⟨?_, expire_has hexpire⟩
    obtain ⟨d, hat, rfl⟩ := Option.map_eq_some_iff.mp hexpire
    rintro (hb | hr)
    · exact (has_append.mp hb).imp_right fun hnew => ⟨d, List.mem_of_getElem? hat, has_singleton.mp hnew⟩
    · exact .inr (hr.mono fun _ hd => List.mem_of_mem_eraseIdx hd)
  | duplicate i =>
    obtain ⟨broker, hduplicate, rfl⟩ := Option.map_eq_some_iff.mp h
    obtain ⟨d, hat, rfl⟩ := Option.map_eq_some_iff.mp hduplicate
    refine moved_healthy hc rfl (fun h => h) (or_congr_left ⟨fun hhas => ?_, fun hhas => has_cons.mpr (.inr hhas)⟩)
    exact (has_cons.mp hhas).elim (fun hid => ⟨d, List.mem_of_getElem? hat, hid⟩) fun hold => hold
  | _ =>
    cases h
    exact moved_healthy hc rfl (fun h => h) .rfl

/-! ### Runs -/

theorem Healthy.step {c' : Config} {action : Action} (hc : Healthy id c) (hD : (healthy id).allows c action)
    (h : (machine P).system.step c action = some c') : Healthy id c' := by
  cases (machine P).step_cases h with
  | started hidle hstart => exact start_healthy hc hidle hstart
  | @called n i reply process _ _ hrun hres =>
    -- a reply that nothing waits for might as well be an answer
    have hanswered : process.program.resume (perform P) c.world i .answered =
        process.program.resume (perform P) c.world i reply := by
      cases hq : process.program.awaited i with
      | none => exact resume_unawaited hq .answered reply
      | some q => rw [show reply = .answered from Machine.Discipline.allows_call hD hrun hq]
    exact call_healthy hc hrun (hanswered.trans hres)
  | crashed hrun => exact crash_healthy hc hrun
  | moved henv => exact event_healthy hc hD henv

/-- In a run without failures an order that was placed is billed, in flight or with a handler,
and when nothing is left to do it is billed. -/
theorem healthy_billed (P : Checkout.Platform) (w : World) (id : String) (actions : List Action) (c : Config)
    (hswitch : id ∉ w.erp.failBillingFor) (hplaced : Concerned w id → Placed w id)
    (hway : Placed w id → Billed w.db.orders id ∨ InFlight w id)
    (hhealthy : (machine P).system.Guarded (healthy id).allows (.idle w) actions)
    (hr : (machine P).system.run (.idle w) actions = some c) (h : Placed c.world id) :
    (Billed c.world.db.orders id ∨ InFlight c.world id ∨ Held c id) ∧
      ((∀ n, c.running n = none) → Drained c.world → Billed c.world.db.orders id) := by
  have hidle : Healthy id (.idle w) := by
    refine ⟨hswitch, fun _ _ => nofun, hplaced, fun h => ?_⟩
    rcases hway h with hbilled | ⟨e, he, hid⟩ | hb | hr
    · exact .inl hbilled
    · exact .inr (.inr (.inr (.inr ⟨e, he, hid, fun _ _ => nofun⟩)))
    · exact .inr (.inl hb)
    · exact .inr (.inr (.inl hr))
  have hc := Steps.System.run_guarded (fun _ _ _ hI hC hs => Healthy.step hI hC hs) hidle hhealthy hr
  have hways : Billed c.world.db.orders id ∨ InFlight c.world id ∨ Held c id := by
    rcases hc.underway h with hbilled | hb | hr | ⟨n, process, hrun, i, d, htask, hid, _⟩ | ⟨e, he, hid, _⟩
    · exact .inl hbilled
    · exact .inr (.inl (.inr (.inl hb)))
    · exact .inr (.inl (.inr (.inr hr)))
    · exact .inr (.inr ⟨n, process, i, d, hrun, htask, hid⟩)
    · exact .inr (.inl (.inl ⟨e, he, hid⟩))
  refine ⟨hways, fun hnone hdrained => ?_⟩
  rcases hways with hbilled | (⟨e, he, _⟩ | ⟨d, hd, _⟩ | ⟨d, hd, _⟩) | ⟨n, process, _, _, hrun, _⟩
  · exact hbilled
  · rw [hdrained.events] at he
    cases he
  · rw [hdrained.billing] at hd
    cases hd
  · rw [hdrained.retry] at hd
    cases hd
  · rw [hnone n] at hrun
    cases hrun

instance (id : String) (w : World) (q : Call) (reply : Reply) : Decidable ((healthy id).call w q reply) :=
  inferInstanceAs (Decidable (reply = .answered))

instance (id : String) : ∀ w task, Decidable ((healthy id).start w task) := fun _ _ => .isTrue trivial

instance (id : String) : ∀ pending w event, Decidable ((healthy id).environment pending w event)
  | _, _, .enableBillingFailure orderId => inferInstanceAs (Decidable (orderId ≠ id))
  | _, _, .checkout _ | _, _, .tick _ | _, _, .setCatalog _ | _, _, .clearBillingFailure _ | _, _, .expireRetry _
  | _, _, .duplicate _ => .isTrue trivial

/-- The order's event is handed over by two publishers, of which one crashes before it marks
it; a handler of the one message crashes, another bills, and the second message finds the
order billed. -/
def publishedTwice : List Action :=
  wholeSync 0 2 ++ [.environment (.checkout firstOrder), .start 1 .publishPending, .start 2 .publishPending] ++
    replies 1 [.answered, .answered, .answered] ++ replies 2 [.answered, .answered, .answered] ++ .crash 1 ::
    replies 2 [.answered] ++ [.start 3 (.consume 0 firstMessage), .call 3 0 .answered, .crash 3,
      .start 4 (.consume 0 firstMessage)] ++ replies 4 [.answered, .answered, .answered, .answered] ++
    .start 5 (.consume 0 firstMessage) :: replies 5 [.answered, .answered]

theorem healthy_billed_twice : ∃ c,
    (machine plainPlatform).system.run (.idle twoProducts) publishedTwice = some c ∧
    Billed c.world.db.orders "o1" := by
  have hrun := run_after (.idle twoProducts) publishedTwice (by decide +kernel)
  have hfree := (machine plainPlatform).slots_free 6 (fun _ _ => rfl) (by decide) hrun
  have hdone : ∀ n < 6, ((after (.idle twoProducts) publishedTwice).running n).isNone := by decide +kernel
  have hconcerned : Concerned twoProducts "o1" → Placed twoProducts "o1" := by
    rintro (⟨e, he, _⟩ | ⟨d, hd, _⟩ | ⟨d, hd, _⟩)
    · cases he
    · cases hd
    · cases hd
  have hguarded : (machine plainPlatform).system.Guarded (healthy "o1").allows (.idle twoProducts) publishedTwice := by
    decide +kernel
  have hplaced : Placed (after (.idle twoProducts) publishedTwice).world "o1" := by decide +kernel
  obtain ⟨_, hbilled⟩ := healthy_billed plainPlatform twoProducts "o1" publishedTwice _ (by decide) hconcerned
    (fun h => by cases h) hguarded hrun hplaced
  refine ⟨_, hrun, hbilled (fun n => ?_) ⟨?_, ?_, ?_⟩⟩
  · by_cases hlow : n < 6
    · exact Option.isNone_iff_eq_none.mp (hdone n hlow)
    · exact hfree n (by omega)
  · decide +kernel
  · decide +kernel
  · decide +kernel

end CaseCellShop.Shop
