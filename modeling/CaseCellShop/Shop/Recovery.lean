import CaseCellShop.Shop.Cycles
import CaseCellShop.Shop.Repair

/-! What a restart can still save.

From any state, whatever has failed so far, crash and restart every worker, clear the
ERP's failure switches and let each worker run without a failure: the outbox cycles, the
handlers of what is in the queues, and a reconciliation. Then the queues are empty, no
event waits, and exactly those orders are billed that were billed already, were announced
by a waiting event, had a message in a queue or with a handler, or had an invoice at the
ERP (`recovers`). -/
namespace CaseCellShop.Shop
open Billing Erp Outbox Program Queue Reconciliation

/-- A waiting event announces the order. -/
def Announced (db : Database) (id : String) : Prop := ∃ e ∈ waitingEvents db, e.payload.orderId = id

/-- The order is announced, or has a message that will be handled. -/
def InFlight (w : World) (id : String) : Prop :=
  Announced w.db id ∨ Has w.broker.billing id ∨ Has w.broker.retry id

/-- The order exists, and is billed or can still be. -/
structure Recoverable (c : Config) (id : String) : Prop where
  found : (c.world.db.orders.find? id).isSome
  way : Billed c.world.db.orders id ∨ InFlight c.world id ∨ Held c id ∨ (invoice c.world id).isSome

/-- An action of a schedule without failures, on which no order is placed. -/
def Calm : Action → Prop
  | .start _ _ | .crash _ => True
  | .call _ _ reply => reply = .answered
  | .environment (.expireRetry _) | .environment (.clearBillingFailure _) => True
  | .environment _ => False

/-- Nothing is left to do. -/
structure Drained (w : World) : Prop where
  events : waitingEvents w.db = []
  billing : w.broker.billing = []
  retry : w.broker.retry = []

variable {P : Checkout.Platform} {w w' w'' : World} {id : String}

theorem has_cons {d : Delivery} {messages : List Delivery} :
    Has (d :: messages) id ↔ d.body.orderId = id ∨ Has messages id := by
  simp [Has]

theorem has_append {messages messages' : List Delivery} :
    Has (messages ++ messages') id ↔ Has messages id ∨ Has messages' id := by
  simp only [Has, List.mem_append, or_and_right, exists_or]

theorem has_singleton {d : Delivery} : Has [d] id ↔ d.body.orderId = id := by
  simp [Has]

theorem held_idle (w : World) (id : String) : ¬Held (.idle w) id := by
  rintro ⟨n, process, i, d, hrun, _⟩
  cases hrun

/-! ### Stages -/

variable (P) in
/-- A calm schedule leads from `w` to `w'`, and what could be saved can be. -/
structure Advances (w w' : World) : Prop where
  reaches : ∃ actions, (machine P).system.run (.idle w) actions = some (.idle w') ∧ ∀ action ∈ actions, Calm action
  recoverable : ∀ id, Recoverable (.idle w') id ↔ Recoverable (.idle w) id

theorem Advances.refl (w : World) : Advances P w w := ⟨⟨[], rfl, by simp⟩, fun _ => .rfl⟩

theorem Advances.trans (h : Advances P w w') (k : Advances P w' w'') : Advances P w w'' := by
  obtain ⟨as, has, hcalm⟩ := h.reaches
  obtain ⟨bs, hbs, hcalm'⟩ := k.reaches
  refine ⟨⟨as ++ bs, ?_, List.forall_mem_append.mpr ⟨hcalm, hcalm'⟩⟩,
    fun id => (k.recoverable id).trans (h.recoverable id)⟩
  rw [Steps.System.run_append, has]
  exact hbs

/-- An event without anything running. -/
theorem Advances.event (event : Event) (h : onEvent P w event = some w') (hcalm : Calm (.environment event))
    (hrecoverable : ∀ id, Recoverable (.idle w') id ↔ Recoverable (.idle w) id) : Advances P w w' :=
  ⟨⟨_, (machine P).run_event h, by simpa using hcalm⟩, hrecoverable⟩

/-- A task left alone. -/
theorem Advances.task (task : Task) {program : Worker Unit} {w₁ : World} {result : Except String Unit}
    (hstart : onStart w task = some (w₁, program)) (hrun : program.run (execute P) w₁ = (result, w'))
    (hrecoverable : ∀ id, Recoverable (.idle w') id ↔ Recoverable (.idle w) id) : Advances P w w' := by
  obtain ⟨k, hk⟩ := (machine P).task_alone .answered 0 hstart
  have hworld : (program.run ((machine P).answered .answered) w₁).2 = w' := congrArg Prod.snd hrun
  rw [hworld] at hk
  refine ⟨⟨_, hk, List.forall_mem_cons.mpr ⟨trivial, fun action haction => ?_⟩⟩, hrecoverable⟩
  rw [List.eq_of_mem_replicate haction]
  rfl

/-- Recoverable orders are known by the orders, what is in flight and the invoices. -/
theorem recoverable_congr (horders : w'.db.orders = w.db.orders) (hflight : InFlight w' id ↔ InFlight w id)
    (hinvoice : invoice w' id = invoice w id) : Recoverable (.idle w') id ↔ Recoverable (.idle w) id := by
  constructor
  · rintro ⟨hexists, hway⟩
    refine ⟨horders ▸ hexists, hway.imp (horders ▸ ·) (.imp hflight.mp (.imp (fun h => absurd h (held_idle w' id)) ?_))⟩
    exact fun h => hinvoice ▸ h
  · rintro ⟨hexists, hway⟩
    refine ⟨horders ▸ hexists, hway.imp (horders ▸ ·) (.imp hflight.mpr (.imp (fun h => absurd h (held_idle w id)) ?_))⟩
    exact fun h => hinvoice ▸ h

/-! ### The ERP's switches -/

theorem clear_failures (ids : List String) (w : World) :
    Advances P w {w with erp := {w.erp with failBillingFor := w.erp.failBillingFor.filter fun id => id ∉ ids}} := by
  induction ids generalizing w with
  | nil =>
    have hsame : w.erp.failBillingFor.filter (fun id => id ∉ ([] : List String)) = w.erp.failBillingFor := by simp
    rw [hsame]
    exact .refl w
  | cons id rest ih =>
    have hfirst : Advances P w {w with erp := w.erp.clearBillingFailure id} :=
      .event (.clearBillingFailure id) rfl trivial fun _ => recoverable_congr rfl .rfl rfl
    refine hfirst.trans ?_
    have hrest := ih {w with erp := w.erp.clearBillingFailure id}
    have hfilter : (w.erp.failBillingFor.filter fun id' => id' ≠ id).filter (fun id' => id' ∉ rest) =
        w.erp.failBillingFor.filter fun id' => id' ∉ id :: rest := by
      rw [List.filter_filter]
      exact List.filter_congr fun id' _ => by grind
    simp only [ErpService.clearBillingFailure, hfilter] at hrest
    exact hrest

/-! ### The outbox -/

theorem HandedOver.inFlight {n : Nat} (h : HandedOver w w' ((waitingEvents w.db).take n)) (id : String) :
    InFlight w' id ↔ InFlight w id := by
  have hwaiting := h.waiting
  have hsplit : Announced w.db id ↔
      Has (((waitingEvents w.db).take n).map messageOf) id ∨ ∃ e ∈ (waitingEvents w.db).drop n, e.payload.orderId = id := by
    unfold Announced Has
    conv_lhs => rw [← List.take_append_drop n (waitingEvents w.db)]
    simp only [List.mem_append, List.mem_map, or_and_right, exists_or]
    refine or_congr_left ⟨?_, ?_⟩
    · rintro ⟨e, he, rfl⟩
      exact ⟨_, ⟨e, he, rfl⟩, rfl⟩
    · rintro ⟨_, ⟨e, he, rfl⟩, hid⟩
      exact ⟨e, he, hid⟩
  have hbilling : Has w'.broker.billing id ↔
      Has w.broker.billing id ∨ Has (((waitingEvents w.db).take n).map messageOf) id := by
    rw [h.rest]
    exact has_append
  have hretry : w'.broker.retry = w.broker.retry := by rw [h.rest]
  unfold InFlight
  rw [hsplit, hbilling, hretry, Announced, hwaiting]
  simp only [or_comm, or_left_comm, or_assoc]

theorem publish_cycle (w : World) :
    ∃ w', Advances P w w' ∧ waitingEvents w'.db = (waitingEvents w.db).drop 50 ∧ w'.erp = w.erp := by
  obtain ⟨w', hrun, hhanded⟩ := publishPending_run (P := P) w
  have herp : w'.erp = w.erp := by rw [hhanded.rest]
  refine ⟨w', .task .publishPending rfl hrun fun id => ?_, HandedOver.waiting hhanded, herp⟩
  refine recoverable_congr (by rw [hhanded.rest]) (HandedOver.inFlight hhanded id) ?_
  rw [hhanded.rest]
  rfl

theorem publish_all (n : Nat) (w : World) (h : (waitingEvents w.db).length ≤ n) :
    ∃ w', Advances P w w' ∧ waitingEvents w'.db = [] ∧ w'.erp = w.erp := by
  induction n generalizing w with
  | zero => exact ⟨w, .refl w, List.length_eq_zero_iff.mp (by omega), rfl⟩
  | succ n ih =>
    obtain ⟨w₁, hfirst, hwaiting, herp⟩ := publish_cycle (P := P) w
    obtain ⟨w₂, hrest, hnone, herp'⟩ := ih w₁ (by rw [hwaiting, List.length_drop]; omega)
    exact ⟨w₂, hfirst.trans hrest, hnone, herp'.trans herp⟩

/-! ### The retry queue -/

theorem expire_all (w : World) :
    Advances P w {w with broker := {w.broker with retry := [], billing := w.broker.billing ++ w.broker.retry}} := by
  obtain ⟨db, erp, ⟨billing, retry, dlq, published⟩, clock⟩ := w
  induction retry generalizing billing with
  | nil => simpa using Advances.refl (P := P) ⟨db, erp, ⟨billing, [], dlq, published⟩, clock⟩
  | cons d rest ih =>
    have hfirst : Advances P ⟨db, erp, ⟨billing, d :: rest, dlq, published⟩, clock⟩
        ⟨db, erp, ⟨billing ++ [d], rest, dlq, published⟩, clock⟩ := by
      refine .event (.expireRetry 0) rfl trivial fun id => recoverable_congr rfl ?_ rfl
      simp only [InFlight, has_append, has_singleton]
      simp only [has_cons, or_assoc]
    have hrest := ih (billing ++ [d])
    simp only [List.append_assoc, List.singleton_append] at hrest
    exact hfirst.trans hrest

/-! ### One message -/

theorem billed_update {orders : Orders} {id invoiceId : String} (id' : String) :
    Billed (orders.update id (Order.billed invoiceId) (billed_id invoiceId)) id' ↔
      Billed orders id' ∨ id' = id ∧ (orders.find? id').isSome := by
  unfold Billed
  rw [status_update (s := .billed) fun _ => rfl]
  by_cases hid : id' = id
  · cases hfind : orders.find? id' <;> simp [hid]
  · simp [hid]

theorem found_update {orders : Orders} {id : String} {f : Order → Order} (hf : ∀ o, (f o).id = o.id) (id' : String) :
    ((orders.update id f hf).find? id').isSome = (orders.find? id').isSome := by
  rw [Table.find?_update, Option.isSome_map]

/-- What handling a message without a failure does: its order is billed, if it exists. -/
structure Handled (w w' : World) (d : Delivery) : Prop where
  outbox : w'.db.outboxEvents = w.db.outboxEvents
  broker : w'.broker = w.broker
  failures : w'.erp.failBillingFor = w.erp.failBillingFor
  found : ∀ id, (w'.db.orders.find? id).isSome = (w.db.orders.find? id).isSome
  billed : ∀ id, Billed w'.db.orders id ↔ Billed w.db.orders id ∨ id = d.body.orderId ∧ (w.db.orders.find? id).isSome
  invoices : ∀ id, ¬Billed w'.db.orders id → invoice w' id = invoice w id

/-- A handler that has its invoice marks the order and is done. -/
theorem mark_run {order : Order} (d : Delivery) (hfind : w.db.orders.find? order.id = some order)
    (invoiceId : String) :
    (mark d order.id invoiceId).run (execute P) w = (.ok (), {w with db := {w.db with
      orders := w.db.orders.update order.id (Order.billed invoiceId) fun _ => rfl}}) := by
  have hmark : execute P w (.markBilled order.id invoiceId) = ({w with db := {w.db with
      orders := w.db.orders.update order.id (Order.billed invoiceId) fun _ => rfl}}, .ok (order.billed invoiceId)) := by
    simp only [execute, World.updateOrder, Database.updateOrder, hfind]
  rw [mark, run_await, hmark]
  rfl

/-- Without a failure switch for the order the ERP answers, and only the order's own invoice
may be new. -/
theorem billOrder_answers (w : World) {orderId : String} (hswitch : orderId ∉ w.erp.failBillingFor) (key : String) :
    ∃ erp receipt, execute P w (.billOrder orderId key) = ({w with erp := erp}, .ok receipt) ∧
      erp.failBillingFor = w.erp.failBillingFor ∧
      ∀ id, id ≠ orderId → erp.billingByOrderId id = w.erp.billingByOrderId id := by
  cases hkey : w.erp.billingByKey key with
  | some receipt =>
    exact ⟨w.erp, receipt, by simp [execute, clientBillOrder, ErpService.billOrder, hswitch, hkey], rfl,
      fun _ _ => rfl⟩
  | none =>
    obtain ⟨receipt, hreceipt⟩ : ∃ receipt : BillingReceipt, receipt = ⟨"inv-" ++ orderId, w.clock.now⟩ := ⟨_, rfl⟩
    refine ⟨{w.erp with
      billingByKey := Function.update w.erp.billingByKey key (some receipt)
      billingByOrderId := Function.update w.erp.billingByOrderId orderId (some receipt)}, receipt, ?_, rfl, ?_⟩
    · simp [execute, clientBillOrder, ErpService.billOrder, hswitch, hkey, hreceipt]
    · exact fun id hid => Function.update_of_ne hid ..

theorem invoice_congr {id : String} (h : w'.erp.billingByOrderId id = w.erp.billingByOrderId id) :
    invoice w' id = invoice w id := by
  simp only [invoice, clientBillingStatus, ErpService.getBillingStatus, h]

theorem consume_run (d : Delivery) (w : World) (h : w.erp.failBillingFor = []) :
    ∃ w', (consume d).run (execute P) w = (.ok (), w') ∧ Handled w w' d := by
  rw [consume_eq, find, run_await]
  cases hfind : w.db.orders.find? d.body.orderId with
  | none =>
    -- the attempt cannot be recorded either, so the message is dropped
    have hmissing : ∀ id, ¬(id = d.body.orderId ∧ (w.db.orders.find? id).isSome) := by
      rintro id ⟨rfl, hsome⟩
      rw [hfind] at hsome
      cases hsome
    have hrecord : ∀ error, (recordFailure d error).run (execute P) w = (.ok (), w) := by
      intro error
      have hcreate : execute P w (.createIntegrationAttempt (attemptRow (withHeaders d) error)) =
          (w, .error (P.errorText .p2003)) := by
        have hnone : w.db.orders.find? (attemptRow (withHeaders d) error).orderId = none := hfind
        simp only [execute, Database.createIntegrationAttempt, hnone, World.write]
      rw [recordFailure, run_await, hcreate]
      rfl
    refine ⟨w, ?_, rfl, rfl, rfl, fun _ => rfl, fun id => (or_iff_left (hmissing id)).symm, fun _ _ => rfl⟩
    simp only [execute, findOrder, hfind]
    exact hrecord _
  | some order =>
    have hid := Table.key_of_find? hfind
    by_cases hbilled : order.status = .billed
    · have hstays : ∀ id, id = d.body.orderId ∧ (w.db.orders.find? id).isSome → Billed w.db.orders id := by
        rintro id ⟨rfl, _⟩
        exact billed_iff.mpr ⟨order, hfind, hbilled⟩
      refine ⟨w, ?_, rfl, rfl, rfl, fun _ => rfl, fun id => (or_iff_left_of_imp (hstays id)).symm, fun _ _ => rfl⟩
      simp only [execute, findOrder, hfind, if_pos hbilled]
      rfl
    · have hswitch : order.id ∉ w.erp.failBillingFor := by simp [h]
      obtain ⟨erp, receipt, hbill, hfails, hothers⟩ := billOrder_answers (P := P) w hswitch (billingKey order.id)
      refine ⟨{w with erp := erp, db := {w.db with
        orders := w.db.orders.update order.id (Order.billed receipt.invoiceId) fun _ => rfl}}, ?_, rfl, rfl,
        hfails, fun id => ?_, fun id => ?_, fun id hnot => ?_⟩
      · have hanswer : execute P w (.findOrder d.body.orderId) = (w, .ok order) := by
          simp only [execute, findOrder, hfind]
        simp only [hanswer, if_neg hbilled]
        rw [bill, run_await, hbill]
        exact mark_run (w := {w with erp := erp}) d (hid ▸ hfind) receipt.invoiceId
      · exact found_update (billed_id _) id
      · exact hid ▸ billed_update id
      · refine invoice_congr (hothers id fun he => hnot ((billed_update id).mpr (.inr ⟨he, ?_⟩)))
        rw [he, hid, hfind]
        rfl

theorem consume_first {d : Delivery} {rest : List Delivery} (hbilling : w.broker.billing = d :: rest)
    (h : w.erp.failBillingFor = []) :
    ∃ w', Advances P w w' ∧ Handled {w with broker := {w.broker with billing := rest}} w' d := by
  obtain ⟨w', hrun, hhandled⟩ := consume_run (P := P) d {w with broker := {w.broker with billing := rest}} h
  have hstart : onStart w (.consume 0 d) = some ({w with broker := {w.broker with billing := rest}}, consume d) := by
    simp [onStart, Broker.deliver, hbilling]
  refine ⟨w', .task _ hstart hrun fun id => ?_, hhandled⟩
  have hbroker := hhandled.broker
  have hflight : InFlight w id ↔ id = d.body.orderId ∨ InFlight w' id := by
    simp only [InFlight, Announced, waitingEvents, hhandled.outbox, hbroker, hbilling, has_cons, eq_comm (a := id)]
    simp only [or_left_comm, or_assoc]
  constructor
  · rintro ⟨hexists, hway⟩
    refine ⟨(hhandled.found id).symm.trans hexists, ?_⟩
    by_cases hbilled : Billed w'.db.orders id
    · rcases (hhandled.billed id).mp hbilled with hold | ⟨hid, _⟩
      · exact .inl hold
      · exact .inr (.inl (hflight.mpr (.inl hid)))
    · rcases hway with hbilled' | hfly | hheld | hinvoice
      · exact absurd hbilled' hbilled
      · exact .inr (.inl (hflight.mpr (.inr hfly)))
      · exact absurd hheld (held_idle w' id)
      · exact .inr (.inr (.inr ((congrArg Option.isSome (hhandled.invoices id hbilled)).symm.trans hinvoice)))
  · rintro ⟨hexists, hway⟩
    refine ⟨(hhandled.found id).trans hexists, ?_⟩
    by_cases hbilled : Billed w'.db.orders id
    · exact .inl hbilled
    · rcases hway with hold | hfly | hheld | hinvoice
      · exact .inl ((hhandled.billed id).mpr (.inl hold))
      · rcases hflight.mp hfly with hid | hfly
        · exact .inl ((hhandled.billed id).mpr (.inr ⟨hid, hexists⟩))
        · exact .inr (.inl hfly)
      · exact absurd hheld (held_idle w id)
      · exact .inr (.inr (.inr ((congrArg Option.isSome (hhandled.invoices id hbilled)).trans hinvoice)))

/-- Every message of the queue is handled. -/
theorem consume_all (n : Nat) (w : World) (hlength : w.broker.billing.length = n) (h : w.erp.failBillingFor = []) :
    ∃ w', Advances P w w' ∧ w'.db.outboxEvents = w.db.outboxEvents ∧ w'.broker = {w.broker with billing := []} := by
  induction n generalizing w with
  | zero =>
    have hnone := List.length_eq_zero_iff.mp hlength
    exact ⟨w, .refl w, rfl, by rw [← hnone]⟩
  | succ n ih =>
    cases hbilling : w.broker.billing with
    | nil => simp [hbilling] at hlength
    | cons d rest =>
      obtain ⟨w₁, hfirst, hhandled⟩ := consume_first (P := P) hbilling h
      have hbroker := hhandled.broker
      have hrest : w₁.broker.billing.length = n := by
        rw [hbroker]
        simpa [hbilling] using hlength
      obtain ⟨w₂, hothers, houtbox, hbroker'⟩ := ih w₁ hrest (hhandled.failures.trans h)
      exact ⟨w₂, hfirst.trans hothers, houtbox.trans hhandled.outbox, by rw [hbroker', hbroker]⟩

/-! ### A reconciliation -/

/-- What examining these orders without a failure does: those with an invoice are billed. -/
structure Examined (w w' : World) (examined : List String) : Prop where
  rest : w' = {w with db := {w.db with orders := w'.db.orders}}
  found : ∀ id, (w'.db.orders.find? id).isSome = (w.db.orders.find? id).isSome
  billed : ∀ id, Billed w'.db.orders id ↔
    Billed w.db.orders id ∨ id ∈ examined ∧ (w.db.orders.find? id).isSome ∧ (invoice w id).isSome

theorem Examined.invoice (h : Examined w w' examined) (id : String) : Shop.invoice w' id = Shop.invoice w id := by
  rw [h.rest]
  rfl

theorem Examined.refl (w : World) : Examined w w [] := ⟨rfl, fun _ => rfl, fun _ => by simp⟩

theorem Examined.trans {ids ids' : List String} (h : Examined w w' ids) (k : Examined w' w'' ids') :
    Examined w w'' (ids ++ ids') where
  rest := by
    rw [k.rest, h.rest]
  found id := (k.found id).trans (h.found id)
  billed id := by
    rw [k.billed, h.billed, h.found, h.invoice, List.mem_append]
    tauto

theorem examine_none {order : Order} (h : Shop.invoice w order.id = none) : Examined w w [order.id] where
  rest := rfl
  found _ := rfl
  billed id := by
    refine (or_iff_left ?_).symm
    rintro ⟨hid, _, hsome⟩
    rw [List.mem_singleton.mp hid, h] at hsome
    cases hsome

theorem examine_some {order : Order} {invoiceId : String} (h : Shop.invoice w order.id = some invoiceId) :
    Examined w {w with db := {w.db with
      orders := w.db.orders.update order.id (Order.billed invoiceId) (billed_id invoiceId)}} [order.id] where
  rest := rfl
  found := found_update (billed_id invoiceId)
  billed id := by
    refine (billed_update id).trans (or_congr_right ?_)
    rw [List.mem_singleton]
    refine and_congr_right fun hid => ?_
    rw [hid, h]
    simp

theorem reconcileEach_bills {orders : List Order} (w : World)
    (h : ∀ o ∈ orders, o.status ≠ .billed ∧ (w.db.orders.find? o.id).isSome) (repaired divergences : Nat) :
    ∃ result w', (reconcileEach orders repaired divergences).run (execute P) w = (.ok result, w') ∧
      Examined w w' (orders.map Order.id) := by
  induction orders generalizing w repaired divergences with
  | nil => exact ⟨_, w, rfl, .refl w⟩
  | cons order rest ih =>
    obtain ⟨⟨hstatus, hfound⟩, hrest⟩ := List.forall_mem_cons.mp h
    show ∃ result w', Program.run (execute P) (Program.bind (.done (.ok (clientBillingStatus w order.id))) _) w = _ ∧ _
    cases hc : clientBillingStatus w order.id with
    | none =>
      obtain ⟨result, w', hrun, hothers⟩ := ih w hrest repaired (divergences + 1)
      exact ⟨result, w', hrun, (examine_none (invoice_of_client_none hc)).trans hothers⟩
    | some receipt =>
      obtain ⟨hsome, hne⟩ := invoice_of_client hc
      obtain ⟨row, hrow⟩ := Option.isSome_iff_exists.mp hfound
      have hfirst := examine_some hsome
      have hmark : execute P w (.markBilled order.id receipt.invoiceId) = ({w with db := {w.db with
          orders := w.db.orders.update order.id (Order.billed receipt.invoiceId) (billed_id receipt.invoiceId)}},
          .ok (row.billed receipt.invoiceId)) := by
        simp only [execute, World.updateOrder, Database.updateOrder, hrow]
      obtain ⟨result, w', hrun, hothers⟩ := ih _ (fun o ho => ⟨(hrest o ho).1,
        (hfirst.found o.id).trans (hrest o ho).2⟩) (repaired + 1) divergences
      refine ⟨result, w', ?_, hfirst.trans hothers⟩
      show Program.run (execute P) (if _ then _ else _) w = _
      rw [if_pos ⟨hne, hstatus⟩]
      show Program.run (execute P) (Program.bind (.done (execute P w (.markBilled order.id receipt.invoiceId)).2) _)
        (execute P w (.markBilled order.id receipt.invoiceId)).1 = _
      rw [hmark]
      exact hrun

/-- A reconciliation bills every order that has an invoice. -/
theorem reconcile_all (w : World) :
    ∃ w', Advances P w w' ∧ w'.db.outboxEvents = w.db.outboxEvents ∧ w'.broker = w.broker ∧
      ∀ id, (w'.db.orders.find? id).isSome → (invoice w' id).isSome → Billed w'.db.orders id := by
  have hrows : ∀ o ∈ unbilledOrders w.db, o.status ≠ .billed ∧ (w.db.orders.find? o.id).isSome := by
    intro o ho
    obtain ⟨hrow, hstatus⟩ := List.mem_filter.mp ho
    rw [Table.find?_key hrow]
    exact ⟨by simpa using hstatus, rfl⟩
  obtain ⟨result, w', hrun, hexamined⟩ := reconcileEach_bills (P := P) w hrows 0 0
  have hignored : (ignored reconcileOrders).run (execute P) w = (.ok (), w') := by
    have hwhole : reconcileOrders.run (execute P) w = (.ok result, w') := hrun
    rw [ignored, run_bind, hwhole]
    rfl
  have hall : ∀ id, (w.db.orders.find? id).isSome → (invoice w id).isSome → Billed w'.db.orders id := by
    intro id hfound hinvoice
    rw [hexamined.billed]
    obtain ⟨order, horder⟩ := Option.isSome_iff_exists.mp hfound
    by_cases hstatus : order.status = .billed
    · exact .inl (billed_iff.mpr ⟨order, horder, hstatus⟩)
    · have hid := Table.key_of_find? horder
      refine .inr ⟨List.mem_map.mpr ⟨order, List.mem_filter.mpr ⟨Table.mem_of_find? horder, ?_⟩, hid⟩,
        hfound, hinvoice⟩
      simpa using hstatus
  refine ⟨w', .task .reconcileOrders rfl hignored fun id => ?_, ?_, ?_, fun id hfound hinvoice => ?_⟩
  · have hflight : InFlight w' id ↔ InFlight w id := by rw [hexamined.rest]; rfl
    constructor
    · rintro ⟨hexists, hway⟩
      refine ⟨(hexamined.found id).symm.trans hexists, ?_⟩
      rcases hway with hbilled | hfly | hheld | hinvoice
      · exact ((hexamined.billed id).mp hbilled).imp_right fun h => .inr (.inr h.2.2)
      · exact .inr (.inl (hflight.mp hfly))
      · exact absurd hheld (held_idle w' id)
      · exact .inr (.inr (.inr ((congrArg Option.isSome (hexamined.invoice id)).symm.trans hinvoice)))
    · rintro ⟨hexists, hway⟩
      refine ⟨(hexamined.found id).trans hexists, ?_⟩
      rcases hway with hbilled | hfly | hheld | hinvoice
      · exact .inl ((hexamined.billed id).mpr (.inl hbilled))
      · exact .inr (.inl (hflight.mpr hfly))
      · exact absurd hheld (held_idle w id)
      · exact .inl (hall id hexists hinvoice)
  · rw [hexamined.rest]
  · rw [hexamined.rest]
  · exact hall id ((hexamined.found id).symm.trans hfound) ((congrArg Option.isSome (hexamined.invoice id)).symm.trans hinvoice)

/-! ### A restart -/

/-- What crashing every process leaves: the messages that handlers held are in the queue again. -/
structure Restarted (w : World) (c : Config) : Prop where
  db : w.db = c.world.db
  erp : w.erp = c.world.erp
  retry : w.broker.retry = c.world.broker.retry
  billing : ∀ id, Has w.broker.billing id ↔ Has c.world.broker.billing id ∨ Held c id

theorem restarted_idle (w : World) : Restarted w (.idle w) :=
  ⟨rfl, rfl, rfl, fun id => (or_iff_left (held_idle w id)).symm⟩

theorem held_crash {c : Config} {n : Nat} {process : Machine.Process Task Call String Answer}
    (hrun : c.running n = some process) (id : String) :
    Held c id ↔ Held ⟨onCrash c.world process.task, Function.update c.running n none⟩ id ∨
      ∃ i d, process.task = .consume i d ∧ d.body.orderId = id := by
  constructor
  · rintro ⟨m, other, i, d, hm, htask, hid⟩
    by_cases hmn : m = n
    · rw [hmn, hrun] at hm
      cases hm
      exact .inr ⟨i, d, htask, hid⟩
    · exact .inl ⟨m, other, i, d, (Function.update_of_ne hmn _ _).trans hm, htask, hid⟩
  · rintro (⟨m, other, i, d, hm, htask, hid⟩ | ⟨i, d, htask, hid⟩)
    · rcases Machine.running_update hm with ⟨_, ho⟩ | ⟨_, hold⟩
      · cases ho
      · exact ⟨m, other, i, d, hold, htask, hid⟩
    · exact ⟨n, process, i, d, hrun, htask, hid⟩

theorem restarted_crash (w : World) (c : Config) (n : Nat) (process : Machine.Process Task Call String Answer)
    (hrun : c.running n = some process)
    (h : Restarted w ⟨onCrash c.world process.task, Function.update c.running n none⟩) : Restarted w c := by
  have hheld := held_crash hrun
  refine ⟨h.db.trans (onCrash_db _ _), h.erp.trans ?_, h.retry.trans ?_, fun id => ?_⟩
  · cases process.task <;> rfl
  · cases process.task <;> rfl
  · rw [h.billing, hheld]
    cases htask : process.task with
    | consume i d =>
      have hhead : Has (onCrash c.world (.consume i d)).broker.billing id ↔
          d.body.orderId = id ∨ Has c.world.broker.billing id := by
        simp [onCrash, Broker.requeue, Has]
      have htaken : (∃ j d', Task.consume i d = .consume j d' ∧ d'.body.orderId = id) ↔ d.body.orderId = id := by
        constructor
        · rintro ⟨_, _, he, hid⟩
          cases he
          exact hid
        · exact fun hid => ⟨i, d, rfl, hid⟩
      rw [hhead, htaken]
      tauto
    | _ =>
      have hnone : ∀ j d', process.task ≠ .consume j d' := by simp [htask]
      simp [onCrash, htask] at hnone ⊢

theorem Restarted.recoverable {c : Config} (h : Restarted w c) (id : String) :
    Recoverable (.idle w) id ↔ Recoverable c id := by
  have hinvoice : invoice w id = invoice c.world id := invoice_congr (by rw [h.erp])
  have hway : InFlight w id ↔ InFlight c.world id ∨ Held c id := by
    simp only [InFlight, Announced, h.db, h.retry, h.billing, or_comm, or_left_comm, or_assoc]
  constructor
  · rintro ⟨hfound, hbilled | hfly | hheld | hsome⟩
    · exact ⟨h.db ▸ hfound, .inl (h.db ▸ hbilled)⟩
    · exact ⟨h.db ▸ hfound, .inr ((hway.mp hfly).imp_right .inl)⟩
    · exact absurd hheld (held_idle w id)
    · exact ⟨h.db ▸ hfound, .inr (.inr (.inr (hinvoice ▸ hsome)))⟩
  · rintro ⟨hfound, hbilled | hfly | hheld | hsome⟩
    · exact ⟨h.db.symm ▸ hfound, .inl (h.db.symm ▸ hbilled)⟩
    · exact ⟨h.db.symm ▸ hfound, .inr (.inl (hway.mpr (.inl hfly)))⟩
    · exact ⟨h.db.symm ▸ hfound, .inr (.inl (hway.mpr (.inr hheld)))⟩
    · exact ⟨h.db.symm ▸ hfound, .inr (.inr (.inr (hinvoice.symm ▸ hsome)))⟩

/-- When nothing is left to do and no invoice is left to be read, what can be billed is. -/
theorem Drained.recoverable (h : Drained w)
    (hinvoices : (w.db.orders.find? id).isSome → (invoice w id).isSome → Billed w.db.orders id) :
    Recoverable (.idle w) id ↔ Billed w.db.orders id := by
  have hflight : ¬InFlight w id := by simp [InFlight, Announced, Has, h.events, h.billing, h.retry]
  constructor
  · rintro ⟨hfound, hbilled | hfly | hheld | hinvoice⟩
    · exact hbilled
    · exact absurd hfly hflight
    · exact absurd hheld (held_idle w id)
    · exact hinvoices hfound hinvoice
  · intro hbilled
    obtain ⟨order, horder, _⟩ := billed_iff.mp hbilled
    exact ⟨Option.isSome_iff_exists.mpr ⟨order, horder⟩, .inl hbilled⟩

theorem recover (P : Checkout.Platform) (c : Config) (k : Nat) (hk : Machine.Below k c) :
    ∃ actions w, (machine P).system.run c actions = some (.idle w) ∧ (∀ action ∈ actions, Calm action) ∧ Drained w ∧
      ∀ id, Billed w.db.orders id ↔ Recoverable c id := by
  obtain ⟨crashes, w₁, hcrashes, hrestarted, hall⟩ :=
    (machine P).restarts Restarted k c hk restarted_idle restarted_crash
  -- the switches, the outbox, the retry queue, the handlers, the reconciliation
  have hclear := clear_failures (P := P) w₁.erp.failBillingFor w₁
  obtain ⟨w₃, hpublish, hevents, herp⟩ := publish_all (P := P) _ _ (le_refl (waitingEvents
    (World.db {w₁ with erp := {w₁.erp with
      failBillingFor := w₁.erp.failBillingFor.filter fun id => id ∉ w₁.erp.failBillingFor}})).length)
  have hexpire := expire_all (P := P) w₃
  have hfailures : w₃.erp.failBillingFor = [] := by
    rw [herp]
    exact List.filter_eq_nil_iff.mpr fun id hid => by simpa using hid
  obtain ⟨w₅, hconsume, houtbox, hbroker⟩ := consume_all (P := P) _
    {w₃ with broker := {w₃.broker with retry := [], billing := w₃.broker.billing ++ w₃.broker.retry}} rfl hfailures
  obtain ⟨w₆, hreconcile, houtbox', hbroker', hinvoices⟩ := reconcile_all (P := P) w₅
  have hadvances := (((hclear.trans hpublish).trans hexpire).trans hconsume).trans hreconcile
  have hdrained : Drained w₆ := by
    refine ⟨?_, by rw [hbroker', hbroker], by rw [hbroker', hbroker]⟩
    rw [waitingEvents, houtbox', houtbox]
    exact hevents
  obtain ⟨actions, hactions, hcalm⟩ := hadvances.reaches
  refine ⟨crashes ++ actions, w₆, ?_, ?_, hdrained, fun id => ?_⟩
  · rw [Steps.System.run_append, hcrashes]
    exact hactions
  · refine List.forall_mem_append.mpr ⟨fun action haction => ?_, hcalm⟩
    obtain ⟨n, rfl⟩ := hall action haction
    trivial
  · exact (hdrained.recoverable (hinvoices id)).symm.trans ((hadvances.recoverable id).trans (hrestarted.recoverable id))

/-- From every state of every run there is a schedule of restarts and unfailing calls that
empties the queues and bills exactly the orders that can still be billed. -/
theorem recovers (P : Checkout.Platform) (w : World) (earlier : List Action) (c : Config)
    (hreached : (machine P).system.run (.idle w) earlier = some c) :
    ∃ actions w', (machine P).system.run c actions = some (.idle w') ∧ (∀ action ∈ actions, Calm action) ∧
      Drained w' ∧ ∀ id, Billed w'.db.orders id ↔ Recoverable c id := by
  obtain ⟨k, hk⟩ := (machine P).exists_below (k := 0) (fun _ _ => rfl) hreached
  exact recover P c k hk

/-- The handler of the first message has failed and sent it to the retry queue; an outbox
cycle is under way. -/
def halfway : List Action :=
  orderPublished ++ .start 2 (.consume 0 firstMessage) ::
    replies 2 [.answered, .failed "timeout", .answered, .answered] ++ .start 3 .publishPending :: replies 3 [.answered]

theorem recovers_halfway : ∃ c, (machine plainPlatform).system.run (.idle twoProducts) halfway = some c ∧
    ∃ actions w, (machine plainPlatform).system.run c actions = some (.idle w) ∧ Drained w ∧
      Billed w.db.orders "o1" := by
  have hrun := run_after (.idle twoProducts) halfway (by decide +kernel)
  obtain ⟨actions, w, hactions, _, hdrained, hbilled⟩ := recovers plainPlatform twoProducts halfway _ hrun
  refine ⟨_, hrun, actions, w, hactions, hdrained, (hbilled "o1").mpr ⟨by decide +kernel,
    .inr (.inl (.inr (.inr ?_)))⟩⟩
  decide +kernel

end CaseCellShop.Shop
