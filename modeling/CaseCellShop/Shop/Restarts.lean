import CaseCellShop.Erp.Catalog
import CaseCellShop.Shop.Stranded

/-! Restarts of the ERP.

The fake ERP keeps its receipts, its switches and its catalog in memory, so a restart
forgets who was billed and the same order is billed anew. What it answers does not depend
on what it forgot: the invoice id is made of the order id, and so whatever is restarted
when, an order has one invoice id, in the store and at the ERP. -/
namespace CaseCellShop.Shop
open Billing Erp Outbox Program Reconciliation

inductive Incident where
  | event (event : Event)
  | restartErp

variable (P : Checkout.Platform)

def onIncident (w : World) : Incident → Option World
  | .event event => onEvent P w event
  | .restartErp => some {w with erp := .start}

/-- The back office with an ERP that may restart at any time. -/
def restarting : Machine World Task Reply Incident Call String Answer where
  perform := perform P
  start := onStart
  crash := onCrash
  environment := onIncident P

variable {P}

/-- The invoice id of an order. -/
def invoiceIdOf (orderId : String) : String := "inv-" ++ orderId

/-- Every receipt and every order row has the order's invoice id. -/
structure Invoices (w : World) : Prop where
  byKey : ∀ id receipt, w.erp.billingByKey (billingKey id) = some receipt → receipt.invoiceId = invoiceIdOf id
  byOrderId : ∀ id receipt, w.erp.billingByOrderId id = some receipt → receipt.invoiceId = invoiceIdOf id
  orders : ∀ id i, (id, some i) ∈ invoiceColumn w.db → i = invoiceIdOf id

/-- Orders are billed under their key and marked with their invoice id. -/
def Named : Call → Prop
  | .billOrder orderId key => key = billingKey orderId
  | .markBilled orderId invoiceId => invoiceId = invoiceIdOf orderId
  | _ => True

/-- The ERP answers with the order's invoice id. -/
def AnswersNamed : (q : Call) → Except String (Answer q) → Prop
  | .billOrder orderId _, .ok receipt | .getBillingStatus orderId, .ok (some receipt) =>
    receipt.invoiceId = invoiceIdOf orderId
  | _, _ => True

variable {w w' : World}

/-! ### One call -/

theorem Invoices.of_same (h : Invoices w) (herp : w'.erp = w.erp)
    (hinvoices : invoiceColumn w'.db = invoiceColumn w.db) :
    Invoices w' := by
  refine ⟨?_, ?_, ?_⟩
  · rw [herp]
    exact h.byKey
  · rw [herp]
    exact h.byOrderId
  · rw [hinvoices]
    exact h.orders

/-- A receipt of the order is added to a map of receipts. -/
theorem named_update {receipts : String → Option BillingReceipt} {key : String → String}
    (hkey : Function.Injective key)
    (h : ∀ id receipt, receipts (key id) = some receipt → receipt.invoiceId = invoiceIdOf id) {orderId : String}
    {receipt : BillingReceipt} (hreceipt : receipt.invoiceId = invoiceIdOf orderId) (id : String) (r : BillingReceipt)
    (hr : Function.update receipts (key orderId) (some receipt) (key id) = some r) :
    r.invoiceId = invoiceIdOf id := by
  by_cases hid : id = orderId
  · rw [hid, Function.update_self] at hr
    cases hr
    rw [hid]
    exact hreceipt
  · rw [Function.update_of_ne fun hk => hid (hkey hk)] at hr
    exact h id r hr

theorem Invoices.bill (h : Invoices w) (orderId : String) :
    Invoices {w with erp := (w.erp.billOrder w.clock.now orderId (billingKey orderId)).1} ∧
      ∀ receipt, (w.erp.billOrder w.clock.now orderId (billingKey orderId)).2 = .ok receipt →
        receipt.invoiceId = invoiceIdOf orderId := by
  rcases billOrder_cases w.erp w.clock.now orderId (billingKey orderId) with
    ⟨message, hbill⟩ | ⟨receipt, hkey, hbill⟩ | ⟨receipt, _, hinvoice, hbill⟩
  · rw [hbill]
    exact ⟨h, nofun⟩
  · rw [hbill]
    refine ⟨h, fun r hr => ?_⟩
    cases hr
    exact h.byKey orderId receipt hkey
  · rw [hbill]
    refine ⟨⟨named_update billingKey_injective h.byKey hinvoice, ?_, h.orders⟩, fun r hr => ?_⟩
    · exact named_update Function.injective_id h.byOrderId hinvoice
    · cases hr
      exact hinvoice

theorem Executed.invoices {q : Call} (h : Executed w q w') (hq : Named q) (hw : Invoices w) : Invoices w' := by
  cases h with
  | billedByErp orderId key =>
    obtain rfl : key = billingKey orderId := hq
    exact (hw.bill orderId).1
  | billed orderId invoiceId =>
    refine {hw with orders := fun id i hi => ?_}
    obtain ⟨o', ho', he⟩ := List.mem_map.mp hi
    obtain ⟨o, ho, rfl⟩ := List.mem_map.mp ho'
    by_cases hid : o.id = orderId
    · rw [if_pos hid] at he
      cases he
      exact hq.trans (congrArg invoiceIdOf hid.symm)
    · rw [if_neg hid] at he
      exact hw.orders id i (List.mem_map.mpr ⟨o, ho, he⟩)
  | erpFailed id reason => exact hw.of_same rfl (Table.map_update _ _ (Order.erpFailed reason) (fun _ => rfl) fun _ => rfl)
  | synced hs => exact hw.of_same rfl (by rw [hs.others]; rfl)
  | _ => exact hw.of_same rfl rfl

theorem execute_answersNamed (hw : Invoices w) {q : Call} (hq : Named q) : AnswersNamed q (execute P w q).2 := by
  cases q with
  | billOrder orderId key =>
    obtain rfl : key = billingKey orderId := hq
    have hreceipt := (hw.bill orderId).2
    show AnswersNamed (.billOrder orderId _) (clientBillOrder w orderId (billingKey orderId)).2
    unfold clientBillOrder
    split
    · rename_i erp receipt hbill
      exact hreceipt receipt (by rw [hbill])
    · trivial
  | getBillingStatus orderId =>
    show AnswersNamed (.getBillingStatus orderId) (.ok (clientBillingStatus w orderId))
    cases hstatus : clientBillingStatus w orderId with
    | none => trivial
    | some receipt => exact hw.byOrderId orderId receipt (clientBillingStatus_some hstatus)
  | _ => generalize (execute P w _).2 = r; cases r <;> trivial

theorem perform_named (hw : Invoices w) {q : Call} (hq : Named q) (a : Reply) :
    Invoices (perform P w q a).1 ∧ AnswersNamed q (perform P w q a).2 := by
  refine ⟨(perform_executed w q a).invoices hq hw, ?_⟩
  cases a with
  | answered => exact execute_answersNamed hw hq
  | failed message => cases q <;> trivial
  | lost message => cases q <;> trivial

/-! ### The programs -/

abbrev NamesAll {α : Type} (p : Worker α) : Prop := p.OnlyCallsGiven AnswersNamed Named

theorem consume_names (d : Queue.Delivery) : NamesAll (consume d) := by
  refine consume_given (fun q hq => ?_) fun order _ => ⟨rfl, fun receipt hreceipt => hreceipt⟩
  cases q with
  | billOrder | markBilled => exact hq.elim
  | _ => trivial

theorem reconcileOrders_names : NamesAll reconcileOrders :=
  onlyCallsGiven_call trivial fun orders _ => reconcileEach_given (fun _ => trivial) (fun _ _ h => h) orders 0 0

theorem onStart_names {task : Task} {program : Worker Unit} (h : onStart w task = some (w', program)) :
    w'.erp = w.erp ∧ NamesAll program := by
  cases task with
  | consume i d =>
    obtain ⟨_, rfl, rfl⟩ := onStart_consume h
    exact ⟨rfl, consume_names d⟩
  | syncCatalog =>
    cases h
    have hcalls : Reconciliation.syncCatalog.OnlyCalls Named :=
      onlyCalls_mono syncCatalog_calls fun q hq => by cases q <;> trivial
    exact ⟨rfl, onlyCallsGiven_bind hcalls.given fun _ => trivial⟩
  | reconcileOrders =>
    cases h
    exact ⟨rfl, onlyCallsGiven_bind reconcileOrders_names fun _ => trivial⟩
  | publishPending =>
    cases h
    exact ⟨rfl, (onlyCalls_mono publishPending_calls fun q hq => by cases q <;> trivial).given⟩

/-! ### Every run -/

theorem onEvent_invoices {event : Event} (h : onEvent P w event = some w') (hw : Invoices w) : Invoices w' := by
  cases event with
  | checkout input =>
    cases h
    exact {hw with orders := fun id i hi => hw.orders id i (checkout_invoices P input w.db id i hi)}
  | expireRetry i =>
    obtain ⟨broker, _, rfl⟩ := Option.map_eq_some_iff.mp h
    exact hw.of_same rfl rfl
  | duplicate i =>
    obtain ⟨broker, _, rfl⟩ := Option.map_eq_some_iff.mp h
    exact hw.of_same rfl rfl
  | _ =>
    cases h
    exact ⟨hw.byKey, hw.byOrderId, hw.orders⟩

theorem invoices_confined (P : Checkout.Platform) :
    Machine.Confined Invoices (fun _ => True) Named AnswersNamed (restarting P) where
  start w task w' p hw h := by
    obtain ⟨herp, hcalls⟩ := onStart_names h
    exact ⟨hw.of_same herp (by rw [onStart_db h]), trivial, hcalls⟩
  call w q a hw hq := perform_named hw hq a
  crash w task hw _ := by
    refine hw.of_same ?_ (by rw [show ((restarting P).crash w task).db = w.db from onCrash_db w task])
    cases task <;> rfl
  environment w incident w' hw h := by
    cases incident with
    | event event => exact onEvent_invoices h hw
    | restartErp =>
      cases h
      exact ⟨nofun, nofun, hw.orders⟩

theorem invoice_update (orders : Orders) (orderId : String) (f : Order → Order) {hf : ∀ o, (f o).id = o.id}
    (hinvoice : ∀ o, o.erpInvoiceId.isSome → (f o).erpInvoiceId.isSome) {id : String}
    (h : ∃ o ∈ orders.rows, o.id = id ∧ o.erpInvoiceId.isSome) :
    ∃ o ∈ (orders.update orderId f hf).rows, o.id = id ∧ o.erpInvoiceId.isSome := by
  obtain ⟨o, ho, hid, hsome⟩ := h
  refine ⟨_, List.mem_map_of_mem ho, ?_⟩
  by_cases hown : o.id = orderId
  · rw [if_pos hown]
    exact ⟨(hf o).trans hid, hinvoice o hsome⟩
  · rw [if_neg hown]
    exact ⟨hid, hsome⟩

/-- An order that has an invoice id keeps one. -/
theorem invoiced_kept (P : Checkout.Platform) (id : String) :
    (restarting P).Kept .any fun w => ∃ o ∈ w.db.orders.rows, o.id = id ∧ o.erpInvoiceId.isSome where
  start w task w' program h _ hstart := by
    rw [onStart_db hstart]
    exact h
  call w q reply h _ := by
    have hafter := (perform_executed (P := P) w q reply).orders
    rw [show (restarting P).perform w q reply = perform P w q reply from rfl]
    generalize (perform P w q reply).1.db.orders = orders at hafter
    cases hafter with
    | same => exact h
    | billed orderId invoiceId => exact invoice_update _ orderId (Order.billed invoiceId) (fun _ _ => rfl) h
    | erpFailed orderId reason => exact invoice_update _ orderId (Order.erpFailed reason) (fun _ hsome => hsome) h
  crash w task h := by
    rw [show ((restarting P).crash w task).db = w.db from onCrash_db w task]
    exact h
  environment pending w incident w' h _ hincident := by
    cases incident with
    | restartErp =>
      cases hincident
      exact h
    | event event =>
      rcases onEvent_db hincident with hdb | ⟨input, hdb⟩
      · rw [hdb]
        exact h
      · rw [hdb]
        rcases Checkout.checkout_db P input w.db with hsame | ⟨_, _, _, _, _, _, hacc⟩
        · rw [hsame]
          exact h
        · obtain ⟨o, ho, hinvoiced⟩ := h
          refine ⟨o, ?_, hinvoiced⟩
          rw [(Table.insert?_eq_some hacc.order).2]
          exact List.mem_append_left _ ho

/-- However often the ERP restarts and the workers crash, an order has one invoice id at the
ERP and in the store; and once the store has it, it keeps it. -/
theorem invoices_survive_restarts (P : Checkout.Platform) (w : World)
    (earlier later : List (Machine.Action Task Reply Incident))
    (c c' : Config) (hw : Invoices w) (hr : (restarting P).system.run (.idle w) earlier = some c)
    (hr' : (restarting P).system.run c later = some c') :
    Invoices c'.world ∧ ∀ o ∈ c.world.db.orders.rows, ∀ invoiceId, o.erpInvoiceId = some invoiceId →
      ∃ o' ∈ c'.world.db.orders.rows, o'.id = o.id ∧ o'.erpInvoiceId = some invoiceId := by
  have hboth : (restarting P).system.run (.idle w) (earlier ++ later) = some c' := by
    rw [Steps.System.run_append, hr]
    exact hr'
  have hnow := (invoices_confined P).run hw hr
  have hthen := (invoices_confined P).run hw hboth
  refine ⟨hthen, fun o ho invoiceId hinvoice => ?_⟩
  have hname : invoiceId = invoiceIdOf o.id := hnow.orders o.id invoiceId (List.mem_map.mpr ⟨o, ho, by rw [hinvoice]⟩)
  obtain ⟨o', ho', hid, hsome⟩ := (invoiced_kept P o.id).run_any ⟨o, ho, rfl, by rw [hinvoice]; rfl⟩ hr'
  obtain ⟨i, hi⟩ := Option.isSome_iff_exists.mp hsome
  have hname' : i = invoiceIdOf o'.id := hthen.orders o'.id i (List.mem_map.mpr ⟨o', ho', by rw [hi]⟩)
  exact ⟨o', ho', hid, by rw [hi, hname', hname, hid]⟩

theorem World.fresh_invoices (catalog : List Catalog.ErpCatalogProduct) : Invoices (World.fresh catalog) where
  byKey _ _ h := by cases h
  byOrderId _ _ h := by cases h
  orders _ _ h := by cases h

/-- An action beside an ERP that may restart. -/
def besideErp : Action → Machine.Action Task Reply Incident
  | .start n task => .start n task
  | .call n i reply => .call n i reply
  | .crash n => .crash n
  | .environment event => .environment (.event event)

/-- The ERP bills `firstOrder`, its answer is lost, and it restarts; the retry bills again. -/
def billedTwice : List (Machine.Action Task Reply Incident) :=
  lostAnswer.map besideErp ++ .environment .restartErp :: retryBills.map besideErp

/-- Then it restarts once more. -/
def restartedAgain : List (Machine.Action Task Reply Incident) := [.environment .restartErp]

theorem invoices_survive_restarts_twice : ∃ c c',
    (restarting plainPlatform).system.run (.idle twoProducts) billedTwice = some c ∧
    (restarting plainPlatform).system.run c restartedAgain = some c' ∧
    c'.world.erp.billingByOrderId "o1" = none ∧
    ∃ o ∈ c'.world.db.orders.rows, o.id = "o1" ∧ o.erpInvoiceId = some "inv-o1" := by
  have hrun := (restarting plainPlatform).system.run_after (.idle twoProducts) billedTwice (by decide +kernel)
  have hrow : ⟨"o1", "c1", "k", .billed, 1700, "BRL", some "inv-o1", none⟩ ∈
      ((restarting plainPlatform).system.after (.idle twoProducts) billedTwice).world.db.orders.rows := by
    decide +kernel
  refine ⟨_, _, hrun, rfl, rfl, ?_⟩
  exact (invoices_survive_restarts plainPlatform twoProducts billedTwice restartedAgain _ _
    (World.fresh_invoices _) hrun rfl).2 _ hrow _ rfl

end CaseCellShop.Shop
