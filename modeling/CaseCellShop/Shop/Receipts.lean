import CaseCellShop.Shop.System

/-! The store and the ERP agree on billing.

The ERP's two maps are one map, receipts are never replaced, and every invoice id in
the store is that of the order's own receipt. A handler that has its receipt, or a
reconciliation that has read one, relies on receipts being kept until it has written
the invoice id; every call keeps them. -/
namespace CaseCellShop.Shop
open Billing Checkout Machine Program

/-- The invoice id column of the orders. -/
def invoiceColumn (db : Database) : List (String × Option String) :=
  db.orders.rows.map fun o => (o.id, o.erpInvoiceId)

structure Agreement (w : World) : Prop where
  maps : ∀ id, w.erp.billingByKey (billingKey id) = w.erp.billingByOrderId id
  invoices : ∀ id i, (id, some i) ∈ invoiceColumn w.db →
    ∃ receipt, w.erp.billingByOrderId id = some receipt ∧ receipt.invoiceId = i

/-- Every receipt is still there and the same. -/
def ReceiptsKept (w w' : World) : Prop :=
  ∀ id receipt, w.erp.billingByOrderId id = some receipt → w'.erp.billingByOrderId id = some receipt

theorem ReceiptsKept.refl (w : World) : ReceiptsKept w w := fun _ _ h => h

theorem ReceiptsKept.trans {u v w : World} (h : ReceiptsKept u v) (k : ReceiptsKept v w) : ReceiptsKept u w :=
  fun id receipt hr => k id receipt (h id receipt hr)

theorem ReceiptsKept.of_erp {w w' : World} (h : w'.erp = w.erp) : ReceiptsKept w w' := fun id receipt hr => by
  rw [h]
  exact hr

theorem billingKey_injective : Function.Injective billingKey := by
  intro a b h
  have hchars := congrArg String.toList h
  simp only [billingKey, String.toList_append, List.append_assoc] at hchars
  have hrest := List.append_cancel_left hchars
  exact String.toList_inj.mp (List.append_cancel_right hrest)

variable {P : Platform}

/-! ### Calls that do not bill -/

/-- The calls that leave receipts and invoice ids alone. -/
def Unbilling : Call → Prop
  | .billOrder _ _ => False
  | .markBilled _ _ => False
  | _ => True

theorem Executed.unbilling {w w' : World} {q : Call} (h : Executed w q w') (hq : Unbilling q) :
    w'.erp = w.erp ∧ invoiceColumn w'.db = invoiceColumn w.db := by
  cases h with
  | billedByErp orderId billingKey => exact hq.elim
  | billed id invoiceId => exact hq.elim
  | erpFailed id reason => exact ⟨rfl, Table.map_update _ _ (Order.erpFailed reason) (fun _ => rfl) fun _ => rfl⟩
  | synced hs =>
    rw [hs.others]
    exact ⟨rfl, rfl⟩
  | _ => exact ⟨rfl, rfl⟩

theorem Agreement.of_same {w w' : World} (h : Agreement w) (herp : w'.erp = w.erp)
    (hinvoices : invoiceColumn w'.db = invoiceColumn w.db) : Agreement w' := by
  refine ⟨fun id => ?_, fun id i hi => ?_⟩
  · rw [herp]
    exact h.maps id
  · rw [herp]
    rw [hinvoices] at hi
    exact h.invoices id i hi

theorem perform_unbilling {q : Call} (hq : Unbilling q) (w : World) (a : Reply) (hI : Agreement w) :
    Agreement (perform P w q a).1 ∧ ReceiptsKept w (perform P w q a).1 := by
  obtain ⟨herp, hinvoices⟩ := (perform_executed (P := P) w q a).unbilling hq
  exact ⟨hI.of_same herp hinvoices, .of_erp herp⟩

/-! ### Calls that bill -/

/-- A billing request: afterwards its receipt, if it got one, is the order's. -/
theorem execute_billOrder (w : World) (orderId : String) (hI : Agreement w) :
    Agreement (execute P w (.billOrder orderId (billingKey orderId))).1 ∧
      ReceiptsKept w (execute P w (.billOrder orderId (billingKey orderId))).1 ∧
      ∀ receipt, (execute P w (.billOrder orderId (billingKey orderId))).2 = .ok receipt →
        (execute P w (.billOrder orderId (billingKey orderId))).1.erp.billingByOrderId orderId =
          some receipt := by
  show Agreement (clientBillOrder w orderId (billingKey orderId)).1 ∧
    ReceiptsKept w (clientBillOrder w orderId (billingKey orderId)).1 ∧
    ∀ receipt, (clientBillOrder w orderId (billingKey orderId)).2 = .ok receipt →
      (clientBillOrder w orderId (billingKey orderId)).1.erp.billingByOrderId orderId = some receipt
  unfold clientBillOrder
  rcases Erp.billOrder_cases w.erp w.clock.now orderId (billingKey orderId) with
    ⟨message, hbill⟩ | ⟨receipt, hkey, hbill⟩ | ⟨receipt, hkey, _, hbill⟩
  · rw [hbill]
    exact ⟨hI, .refl w, fun receipt hr => by cases hr⟩
  · rw [hbill]
    refine ⟨hI, .refl w, fun receipt' hr => ?_⟩
    cases hr
    rw [← hkey]
    exact (hI.maps orderId).symm
  · rw [hbill]
    have hfresh : w.erp.billingByOrderId orderId = none := by
      rw [← hI.maps orderId]
      exact hkey
    refine ⟨⟨fun id => ?_, fun id i hi => ?_⟩, fun id r hr => ?_, fun receipt' hr => ?_⟩
    · show Function.update w.erp.billingByKey (billingKey orderId) (some receipt) (billingKey id) =
        Function.update w.erp.billingByOrderId orderId (some receipt) id
      by_cases h : id = orderId
      · rw [h, Function.update_self, Function.update_self]
      · rw [Function.update_of_ne h, Function.update_of_ne fun hk => h (billingKey_injective hk)]
        exact hI.maps id
    · obtain ⟨r, hr, hi⟩ := hI.invoices id i hi
      refine ⟨r, ?_, hi⟩
      have hne : id ≠ orderId := by
        rintro rfl
        rw [hfresh] at hr
        cases hr
      show Function.update w.erp.billingByOrderId orderId (some receipt) id = some r
      rw [Function.update_of_ne hne]
      exact hr
    · have hne : id ≠ orderId := by
        rintro rfl
        rw [hfresh] at hr
        cases hr
      show Function.update w.erp.billingByOrderId orderId (some receipt) id = some r
      rw [Function.update_of_ne hne]
      exact hr
    · cases hr
      exact Function.update_self ..

theorem perform_markBilled (w : World) (orderId invoiceId : String) (a : Reply) (hI : Agreement w)
    (hreceipt : ∃ receipt, w.erp.billingByOrderId orderId = some receipt ∧ receipt.invoiceId = invoiceId) :
    Agreement (perform P w (.markBilled orderId invoiceId) a).1 ∧
      ReceiptsKept w (perform P w (.markBilled orderId invoiceId) a).1 := by
  rcases perform_cases (P := P) w (.markBilled orderId invoiceId) a with hw | ⟨_, hw⟩
  · rw [hw]
    exact ⟨hI, .refl w⟩
  · rw [hw]
    show Agreement (w.updateOrder P orderId (Order.billed invoiceId) _).1 ∧
      ReceiptsKept w (w.updateOrder P orderId (Order.billed invoiceId) _).1
    unfold World.updateOrder
    split
    · rename_i order db h
      refine ⟨⟨hI.maps, fun id i hi => ?_⟩, .of_erp rfl⟩
      rw [(updateOrder_ok h).2] at hi
      obtain ⟨o', ho', heq⟩ := List.mem_map.mp hi
      obtain ⟨o, ho, rfl⟩ := List.mem_map.mp ho'
      by_cases hid : o.id = orderId
      · rw [if_pos hid] at heq
        cases heq
        rw [← hid] at hreceipt
        exact hreceipt
      · rw [if_neg hid] at heq
        exact hI.invoices id i (List.mem_map.mpr ⟨o, ho, heq⟩)
    · exact ⟨hI, .refl w⟩

/-! ### The programs -/

/-- What a program of the back office owes: agreement is kept, and so are receipts. -/
abbrev Sound {α : Type} (P : Platform) (p : Worker α) (w : World) : Prop :=
  Machine.Sound (machine P) .any Agreement (fun _ => ReceiptsKept) ReceiptsKept (fun _ _ => True) p w

theorem sound_unbilling {α : Type} {p : Worker α} (hp : p.OnlyCalls Unbilling) (w : World) : Sound P p w :=
  sound_of_onlyCalls (fun _ w a hq hI _ => perform_unbilling hq w a hI) hp w

theorem settle_unbilling (delivery : Queue.Delivery) : (settle delivery).OnlyCalls Unbilling :=
  ⟨trivial, fun r => by cases r with
    | error e => exact onlyCalls_call trivial
    | ok u => trivial⟩

theorem recordFailure_unbilling (delivery : Queue.Delivery) (error : String) :
    (recordFailure delivery error).OnlyCalls Unbilling := by
  refine ⟨trivial, fun r => ?_⟩
  cases r with
  | error e => exact settle_unbilling delivery
  | ok u =>
    show (if currentAttempt (withHeaders delivery) ≥ 4 then markFailed delivery else toRetry delivery).OnlyCalls _
    by_cases h : currentAttempt (withHeaders delivery) ≥ 4
    · rw [if_pos h]
      refine ⟨trivial, fun r => ?_⟩
      cases r with
      | error e => exact settle_unbilling delivery
      | ok order => exact ⟨trivial, fun _ => settle_unbilling delivery⟩
    · rw [if_neg h]
      exact ⟨trivial, fun _ => settle_unbilling delivery⟩

/-- A handler with a receipt of the order writes its invoice id. -/
theorem mark_sound (delivery : Queue.Delivery) {orderId invoiceId : String} {w : World}
    (hreceipt : ∃ receipt, w.erp.billingByOrderId orderId = some receipt ∧ receipt.invoiceId = invoiceId) :
    Sound P (mark delivery orderId invoiceId) w := by
  intro w₁ a hI hkept _
  obtain ⟨receipt, hr, hi⟩ := hreceipt
  obtain ⟨hI', hguar⟩ := perform_markBilled (P := P) w₁ orderId invoiceId a hI ⟨receipt, hkept _ _ hr, hi⟩
  refine ⟨hI', hguar, ?_⟩
  cases ((machine P).perform w₁ (.markBilled orderId invoiceId) a).2 with
  | error e => exact sound_unbilling (recordFailure_unbilling delivery e) _
  | ok order => exact sound_unbilling (settle_unbilling delivery) _

theorem bill_sound (delivery : Queue.Delivery) (order : Order) (w : World) :
    Sound P (bill delivery order) w := by
  intro w₁ a hI _ _
  obtain ⟨hI', hguar, hreceipt⟩ := execute_billOrder (P := P) w₁ order.id hI
  cases a with
  | failed e => exact ⟨hI, .refl w₁, sound_unbilling (recordFailure_unbilling delivery e) _⟩
  | lost e => exact ⟨hI', hguar, sound_unbilling (recordFailure_unbilling delivery e) _⟩
  | answered =>
    refine ⟨hI', hguar, ?_⟩
    cases hanswer : ((machine P).perform w₁ (.billOrder order.id (billingKey order.id)) .answered).2 with
    | error e => exact sound_unbilling (recordFailure_unbilling delivery e) _
    | ok invoice => exact mark_sound delivery ⟨invoice, hreceipt invoice hanswer, rfl⟩

theorem consume_sound (delivery : Queue.Delivery) (w : World) : Sound P (consume delivery) w := by
  rw [consume_eq]
  intro w₁ a hI _ _
  obtain ⟨hI', hguar⟩ := perform_unbilling (P := P) (q := .findOrder delivery.body.orderId) trivial w₁ a hI
  refine ⟨hI', hguar, ?_⟩
  cases ((machine P).perform w₁ (.findOrder delivery.body.orderId) a).2 with
  | error e => exact sound_unbilling (recordFailure_unbilling _ e) _
  | ok order =>
    show Sound P (if order.status = .billed then settle delivery else bill delivery order) _
    by_cases h : order.status = .billed
    · rw [if_pos h]
      exact sound_unbilling (settle_unbilling delivery) _
    · rw [if_neg h]
      exact bill_sound _ order _

open Reconciliation in
/-- The loop marks an order only with the invoice id it has just read. -/
theorem reconcileEach_sound (orders : List Order) (repaired divergences : Nat) (w : World) :
    Sound P (reconcileEach orders repaired divergences) w := by
  induction orders generalizing repaired divergences w with
  | nil => trivial
  | cons order rest ih =>
    intro w₁ a hI _ _
    obtain ⟨hI', hguar⟩ := perform_unbilling (P := P) (q := .getBillingStatus order.id) trivial w₁ a hI
    refine ⟨hI', hguar, ?_⟩
    cases a with
    | failed e => trivial
    | lost e => trivial
    | answered =>
      have hanswer : ((machine P).perform w₁ (.getBillingStatus order.id) .answered).2 =
          .ok (clientBillingStatus w₁ order.id) := rfl
      rw [hanswer]
      cases hstatus : clientBillingStatus w₁ order.id with
      | none => exact ih _ _ _
      | some receipt =>
        show Sound P (if receipt.invoiceId ≠ "" ∧ order.status ≠ .billed then _
          else if receipt.invoiceId = "" then reconcileEach rest repaired (divergences + 1)
          else reconcileEach rest repaired divergences) w₁
        have hreceipt : w₁.erp.billingByOrderId order.id = some receipt := clientBillingStatus_some hstatus
        by_cases hmark : receipt.invoiceId ≠ "" ∧ order.status ≠ .billed
        · rw [if_pos hmark]
          intro w₂ b hI₂ hkept _
          obtain ⟨hI₃, hguar₃⟩ := perform_markBilled (P := P) w₂ order.id receipt.invoiceId b hI₂
            ⟨receipt, hkept _ _ hreceipt, rfl⟩
          refine ⟨hI₃, hguar₃, ?_⟩
          cases ((machine P).perform w₂ (.markBilled order.id receipt.invoiceId) b).2 with
          | error e => trivial
          | ok updated => exact ih _ _ _
        · rw [if_neg hmark]
          by_cases hempty : receipt.invoiceId = ""
          · rw [if_pos hempty]
            exact ih _ _ _
          · rw [if_neg hempty]
            exact ih _ _ _

theorem reconcileOrders_sound (w : World) : Sound P Reconciliation.reconcileOrders w := by
  intro w₁ a hI _ _
  obtain ⟨hI', hguar⟩ := perform_unbilling (P := P) (q := .findUnbilledOrders) trivial w₁ a hI
  refine ⟨hI', hguar, ?_⟩
  cases ((machine P).perform w₁ .findUnbilledOrders a).2 with
  | error e => trivial
  | ok orders => exact reconcileEach_sound orders 0 0 _

theorem syncCatalog_unbilling : Reconciliation.syncCatalog.OnlyCalls Unbilling :=
  onlyCalls_mono Reconciliation.syncCatalog_calls fun q hq => by cases q <;> trivial

theorem publishPending_unbilling : Outbox.publishPending.OnlyCalls Unbilling :=
  onlyCalls_mono Outbox.publishPending_calls fun q hq => by cases q <;> trivial

/-! ### Runs -/

theorem onStart_sound {w w' : World} {task : Task} {program : Worker Unit}
    (h : onStart w task = some (w', program)) : w'.erp = w.erp ∧ Sound P program w' := by
  cases task with
  | syncCatalog =>
    cases h
    exact ⟨rfl, sound_ignored (sound_unbilling syncCatalog_unbilling w)⟩
  | reconcileOrders =>
    cases h
    exact ⟨rfl, sound_ignored (reconcileOrders_sound w)⟩
  | publishPending =>
    cases h
    exact ⟨rfl, sound_unbilling publishPending_unbilling w⟩
  | consume i delivery =>
    obtain ⟨_, rfl, rfl⟩ := onStart_consume h
    exact ⟨rfl, consume_sound delivery _⟩

theorem checkout_invoices (P : Platform) (input : CheckoutInput) (db : Database) (id i : String)
    (h : (id, some i) ∈ invoiceColumn (checkout P input db).2.1) : (id, some i) ∈ invoiceColumn db := by
  rcases checkout_db P input db with hdb | ⟨_, _, _, _, _, _, hacc⟩
  · rw [hdb] at h
    exact h
  · unfold invoiceColumn at h
    rw [(Table.insert?_eq_some hacc.order).2, List.map_append, List.mem_append] at h
    rcases h with hold | hnew
    · exact hold
    · cases List.mem_singleton.mp hnew

theorem onEvent_agreement {w w' : World} {event : Event} (h : onEvent P w event = some w')
    (hI : Agreement w) : Agreement w' ∧ ReceiptsKept w w' := by
  cases event with
  | checkout input =>
    cases h
    exact ⟨⟨hI.maps, fun id i hi => hI.invoices id i (checkout_invoices P input w.db id i hi)⟩, .refl w⟩
  | expireRetry i =>
    simp only [onEvent, Option.map_eq_some_iff] at h
    obtain ⟨broker, _, rfl⟩ := h
    exact ⟨⟨hI.maps, hI.invoices⟩, .refl w⟩
  | duplicate i =>
    simp only [onEvent, Option.map_eq_some_iff] at h
    obtain ⟨broker, _, rfl⟩ := h
    exact ⟨⟨hI.maps, hI.invoices⟩, .refl w⟩
  | _ =>
    cases h
    exact ⟨⟨hI.maps, hI.invoices⟩, .refl w⟩

theorem onCrash_agreement (w : World) (task : Task) (hI : Agreement w) :
    Agreement (onCrash w task) ∧ ReceiptsKept w (onCrash w task) := by
  cases task <;> exact ⟨⟨hI.maps, hI.invoices⟩, .refl w⟩

theorem relyGuarantee_receipts :
    (machine P).RelyGuarantee .any Agreement (fun _ => ReceiptsKept) ReceiptsKept where
  refl _ := .refl
  trans _ _ _ _ := .trans
  guarantee _ _ h _ := h
  start w task w' program hI _ h := by
    obtain ⟨herp, hsound⟩ := onStart_sound (P := P) h
    exact ⟨hI.of_same herp (by rw [onStart_db h]), hsound, fun _ => .of_erp herp⟩
  crash w task hI := ⟨(onCrash_agreement w task hI).1, fun _ => (onCrash_agreement w task hI).2⟩
  environment _ w event w' hI _ h := ⟨(onEvent_agreement h hI).1, fun _ _ => (onEvent_agreement h hI).2⟩

theorem moves_receipts : (machine P).Moves .any Agreement ReceiptsKept ReceiptsKept where
  refl := .refl
  trans _ _ _ := .trans
  guarantee _ _ h := h
  start _ _ _ _ _ h := .of_erp (onStart_sound (P := P) h).1
  crash w task hI := (onCrash_agreement w task hI).2
  environment _ _ _ _ hI _ h := (onEvent_agreement h hI).2

/-- In every state of every run the ERP's two maps agree and every invoice id is that of
the order's own receipt; and a receipt of any state is in every later one. -/
theorem billing_agreement (P : Platform) (w : World) (earlier later : List Action) (c c' : Config)
    (hw : Agreement w) (hr : (machine P).system.run (.idle w) earlier = some c)
    (hr' : (machine P).system.run c later = some c') :
    Agreement c'.world ∧ ReceiptsKept c.world c'.world := by
  have hR := relyGuarantee_receipts (P := P)
  have hc := hR.run (invariant_idle hw) (guarded_any _ _) hr
  exact ⟨(hR.run hc (guarded_any _ _) hr').1, hR.run_move moves_receipts hc (guarded_any _ _) hr'⟩

theorem World.fresh_agreement (catalog : List Catalog.ErpCatalogProduct) : Agreement (World.fresh catalog) where
  maps _ := rfl
  invoices id i h := by cases h

/-- The ERP bills the order but its answer is lost; the handler of the retry gets the
same receipt. -/
def lostAnswer : List Action :=
  orderPublished ++ .start 2 (.consume 0 firstMessage) ::
    replies 2 [.answered, .lost "timeout", .answered, .answered, .answered]

def retryBills : List Action :=
  [.environment (.expireRetry 0), .environment (.tick ⟨7, fun slug => slug⟩), .start 3 (.consume 0 (retried 2))] ++
    replies 3 [.answered, .answered, .answered, .answered]

theorem billing_agreement_lost :
    ∃ c c', (machine plainPlatform).system.run (.idle twoProducts) lostAnswer = some c ∧
      (machine plainPlatform).system.run c retryBills = some c' ∧
      Agreement c'.world ∧ ReceiptsKept c.world c'.world :=
  have hrun := run_after (.idle twoProducts) lostAnswer (by decide +kernel)
  have hrun' := run_after (after (.idle twoProducts) lostAnswer) retryBills (by decide +kernel)
  ⟨_, _, hrun, hrun', billing_agreement plainPlatform twoProducts lostAnswer retryBills _ _
    (World.fresh_agreement _) hrun hrun'⟩

end CaseCellShop.Shop
