import CaseCellShop.Shop.System

/-! The repair of orders the ERP has billed (`ReconciliationRunner.reconcileOrders`).

A run with nothing in between repairs every order the ERP has an invoice for and counts
the rest; a run that a query of the ERP fails has repaired the orders before it. -/
namespace CaseCellShop.Shop
open Erp Program Reconciliation

/-! ### What the ERP answers -/

/-- The body of `GET /erp/billing/:orderId`. -/
structure BillingStatus where
  orderId : String
  invoiceId : Option String
  billedAt : Option Nat
  deriving DecidableEq, Repr

/-- `BillingController.getBillingStatus`: without a receipt, a null invoice id. -/
def BillingController.getBillingStatus (erp : ErpService) (orderId : String) : BillingStatus :=
  match erp.getBillingStatus orderId with
  | none => ⟨orderId, none, none⟩
  | some billing => ⟨orderId, some billing.invoiceId, some billing.billedAt⟩

/-- What the request for an order's billing status is answered with. -/
inductive StatusResponse where
  | ok (payload : BillingStatus)
  | refused (status : Nat) (statusText : String)
  deriving DecidableEq, Repr

/-- `ErpCatalogClient.getBillingStatus`: a 404, a null and an empty invoice id are all no billing. -/
def ErpCatalogClient.getBillingStatus : StatusResponse → Except String (Option BillingStatus)
  | .refused status statusText =>
    if status = 404 then .ok none
    else .error s!"ERP billing status request failed: {status} {statusText}"
  | .ok payload =>
    match payload.invoiceId with
    | none => .ok none
    | some invoiceId => .ok (if invoiceId = "" then none else some payload)

/-- The client's reading of the controller's answer is the call of the workers. -/
theorem clientBillingStatus_eq (w : World) (orderId : String) :
    ErpCatalogClient.getBillingStatus (.ok (BillingController.getBillingStatus w.erp orderId)) =
      .ok ((clientBillingStatus w orderId).map fun billing =>
        ⟨orderId, some billing.invoiceId, some billing.billedAt⟩) := by
  unfold BillingController.getBillingStatus clientBillingStatus
  cases w.erp.getBillingStatus orderId with
  | none => rfl
  | some billing => by_cases h : billing.invoiceId = "" <;> simp [ErpCatalogClient.getBillingStatus, h]

/-- The ERP has a receipt for the order that names an invoice. -/
def Invoiced (w : World) (orderId invoiceId : String) : Prop :=
  ∃ receipt, w.erp.billingByOrderId orderId = some receipt ∧ receipt.invoiceId = invoiceId ∧ invoiceId ≠ ""

theorem clientBillingStatus_invoiced {w : World} {orderId invoiceId : String} :
    Invoiced w orderId invoiceId ↔
      ∃ receipt, clientBillingStatus w orderId = some receipt ∧ receipt.invoiceId = invoiceId := by
  unfold Invoiced clientBillingStatus ErpService.getBillingStatus
  cases w.erp.billingByOrderId orderId with
  | none => simp
  | some receipt =>
    by_cases h : receipt.invoiceId = "" <;> grind

/-! ### The column `updatedAt` -/

/-- The shop with the `updatedAt` of each order. -/
structure Stamped where
  world : World
  updatedAt : String → Nat

/-- The rows of the orders. -/
abbrev Stamped.orders (s : Stamped) : Table Order.id := s.world.db.orders

/-- `@updatedAt`: an update that finds its order writes the time. -/
def Stamped.touch (s : Stamped) (id : String) : String → Nat :=
  if (s.orders.find? id).isSome then Function.update s.updatedAt id s.world.clock.now else s.updatedAt

def Stamped.updated (s : Stamped) : Call → String → Nat
  | .markBilled id _ | .markErpFailed id _ => s.touch id
  | _ => s.updatedAt

variable (P : Checkout.Platform)

def executeStamped (s : Stamped) (q : Call) : Stamped × Except String (Answer q) :=
  (⟨(execute P s.world q).1, s.updated q⟩, (execute P s.world q).2)

def performStamped (s : Stamped) (q : Call) : Reply → Stamped × Except String (Answer q)
  | .answered => executeStamped P s q
  | .failed message => (s, .error message)
  | .lost message => ((executeStamped P s q).1, .error message)

/-- The column is beside the shop: calls do and answer what they did without it. -/
theorem performStamped_perform (s : Stamped) (q : Call) (reply : Reply) :
    ((performStamped P s q reply).1.world, (performStamped P s q reply).2) = perform P s.world q reply := by
  cases reply <;> rfl

/-! ### What a run leaves -/

/-- The invoice the ERP has for an order, as the worker reads it. -/
def invoice (w : World) (orderId : String) : Option String :=
  (clientBillingStatus w orderId).map BillingReceipt.invoiceId

theorem invoice_eq_some {w : World} {orderId invoiceId : String} :
    invoice w orderId = some invoiceId ↔ Invoiced w orderId invoiceId := by
  simp [invoice, clientBillingStatus_invoiced]

/-- The orders that a run repairs when it examines these. -/
def Repairs (w : World) (examined : List String) (o : Order) : Prop :=
  o.id ∈ examined ∧ o.status ≠ .billed ∧ (invoice w o.id).isSome

instance (w : World) (examined : List String) (o : Order) : Decidable (Repairs w examined o) :=
  inferInstanceAs (Decidable (_ ∧ _ ∧ _))

def reconciled (w : World) (examined : List String) (o : Order) : Order :=
  if Repairs w examined o then o.billed ((invoice w o.id).getD "") else o

@[simp] theorem reconciled_id (w : World) (examined : List String) (o : Order) :
    (reconciled w examined o).id = o.id := by
  unfold reconciled
  split <;> rfl

/-- The state `t` of a run from `s` that has examined these orders. -/
structure Reconciled (s t : Stamped) (examined : List String) : Prop where
  rows : t.orders.rows = s.orders.rows.map (reconciled s.world examined)
  updatedAt : ∀ id, t.updatedAt id =
    if ∃ o ∈ s.orders.rows, o.id = id ∧ Repairs s.world examined o then s.world.clock.now else s.updatedAt id
  rest : t.world = {s.world with db := {s.world.db with orders := t.orders}}

variable {P} {s t : Stamped} {examined : List String} {o : Order}

theorem reconciled_congr {w : World} {examined' : List String}
    (h : Repairs w examined' o ↔ Repairs w examined o) : reconciled w examined' o = reconciled w examined o := by
  unfold reconciled
  by_cases ho : Repairs w examined o
  · rw [if_pos ho, if_pos (h.mpr ho)]
  · rw [if_neg ho, if_neg (mt h.mp ho)]

theorem reconciled_of_notMem (w : World) (h : o.id ∉ examined) : reconciled w examined o = o :=
  if_neg fun ho => h ho.1

theorem repairs_other {w : World} {orderId : String} (h : o.id ≠ orderId) :
    Repairs w (examined ++ [orderId]) o ↔ Repairs w examined o := by
  simp [Repairs, h]

theorem Reconciled.start (s : Stamped) : Reconciled s s [] where
  rows := by
    have hsame : reconciled s.world [] = id := funext fun o => reconciled_of_notMem s.world List.not_mem_nil
    rw [hsame, List.map_id]
  updatedAt id := by simp [Repairs]
  rest := rfl

theorem Reconciled.invoice (h : Reconciled s t examined) (orderId : String) :
    Shop.invoice t.world orderId = Shop.invoice s.world orderId := by
  rw [h.rest]
  rfl

/-- An order not examined yet is as it was. -/
theorem Reconciled.find? (h : Reconciled s t examined) (ho : o ∈ s.orders.rows) (hnew : o.id ∉ examined) :
    t.orders.find? o.id = some o := by
  rw [Table.find?_eq_some, h.rows]
  exact ⟨List.mem_map.mpr ⟨o, ho, reconciled_of_notMem _ hnew⟩, rfl⟩

/-- An order the ERP has no invoice for is passed over. -/
theorem Reconciled.skip (h : Reconciled s t examined) {orderId : String}
    (hnone : Shop.invoice s.world orderId = none) : Reconciled s t (examined ++ [orderId]) := by
  have hsame (o : Order) : Repairs s.world (examined ++ [orderId]) o ↔ Repairs s.world examined o := by
    by_cases ho : o.id = orderId
    · simp [Repairs, ho, hnone]
    · exact repairs_other ho
  have hrows : reconciled s.world (examined ++ [orderId]) = reconciled s.world examined :=
    funext fun o => reconciled_congr (hsame o)
  refine ⟨hrows ▸ h.rows, fun id => ?_, h.rest⟩
  simp only [hsame]
  exact h.updatedAt id

theorem billed_id (invoiceId : String) (o : Order) : (o.billed invoiceId).id = o.id := rfl

/-- An order the ERP has an invoice for is written. -/
theorem Reconciled.mark (h : Reconciled s t examined) (ho : o ∈ s.orders.rows) (hstatus : o.status ≠ .billed)
    (hnew : o.id ∉ examined) {invoiceId : String} (hinvoice : Shop.invoice s.world o.id = some invoiceId) :
    ∃ t', executeStamped P t (.markBilled o.id invoiceId) = (t', .ok (o.billed invoiceId)) ∧
      Reconciled s t' (examined ++ [o.id]) := by
  have hfind := h.find? ho hnew
  have hrepairs : Repairs s.world (examined ++ [o.id]) o := by simp [Repairs, hstatus, hinvoice]
  have hdb : t.world.db.updateOrder o.id (Order.billed invoiceId) (billed_id invoiceId) =
      .ok (o.billed invoiceId,
        {t.world.db with orders := t.orders.update o.id (Order.billed invoiceId) (billed_id invoiceId)}) := by
    simp only [Database.updateOrder, hfind]
  refine ⟨⟨{t.world with db := {t.world.db with
    orders := t.orders.update o.id (Order.billed invoiceId) (billed_id invoiceId)}}, t.touch o.id⟩, ?_, ?_, ?_, ?_⟩
  · simp only [executeStamped, execute, World.updateOrder, hdb]
    rfl
  · show (t.orders.update o.id (Order.billed invoiceId) (billed_id invoiceId)).rows = _
    rw [Table.update_rows, h.rows, List.map_map]
    refine List.map_congr_left fun r hr => ?_
    show (if (reconciled s.world examined r).id = o.id then _ else _) = _
    rw [reconciled_id]
    by_cases hid : r.id = o.id
    · have he := s.orders.eq_of_key hr ho hid
      subst he
      rw [if_pos rfl, reconciled_of_notMem _ hnew, reconciled, if_pos hrepairs, hinvoice]
      rfl
    · rw [if_neg hid, reconciled_congr (repairs_other hid)]
  · intro id
    show t.touch o.id id = _
    have htouch : t.touch o.id = Function.update t.updatedAt o.id t.world.clock.now := by simp [Stamped.touch, hfind]
    rw [htouch]
    by_cases hid : id = o.id
    · subst hid
      rw [Function.update_self, if_pos ⟨o, ho, rfl, hrepairs⟩, h.rest]
    · rw [Function.update_of_ne hid, h.updatedAt]
      have hsame : (∃ r ∈ s.orders.rows, r.id = id ∧ Repairs s.world (examined ++ [o.id]) r) ↔
          ∃ r ∈ s.orders.rows, r.id = id ∧ Repairs s.world examined r := by
        constructor
        · rintro ⟨r, hr, rfl, hr'⟩
          exact ⟨r, hr, rfl, (repairs_other hid).mp hr'⟩
        · rintro ⟨r, hr, rfl, hr'⟩
          exact ⟨r, hr, rfl, (repairs_other hid).mpr hr'⟩
      simp only [hsame]
  · show _ = {s.world with db := {s.world.db with
      orders := t.orders.update o.id (Order.billed invoiceId) (billed_id invoiceId)}}
    rw [h.rest]

/-! ### The loop -/

theorem invoice_of_client {w : World} {orderId : String} {receipt : BillingReceipt}
    (h : clientBillingStatus w orderId = some receipt) :
    Shop.invoice w orderId = some receipt.invoiceId ∧ receipt.invoiceId ≠ "" := by
  have hinvoice : Shop.invoice w orderId = some receipt.invoiceId := by simp [Shop.invoice, h]
  obtain ⟨_, _, _, hne⟩ := invoice_eq_some.mp hinvoice
  exact ⟨hinvoice, hne⟩

theorem invoice_of_client_none {w : World} {orderId : String} (h : clientBillingStatus w orderId = none) :
    Shop.invoice w orderId = none := by
  simp [Shop.invoice, h]

/-- The orders still to be examined: unbilled rows, each of them once. -/
structure Remaining (s : Stamped) (examined : List String) (orders : List Order) : Prop where
  rows : ∀ o ∈ orders, o ∈ s.orders.rows ∧ o.status ≠ .billed
  nodup : (examined ++ orders.map Order.id).Nodup

theorem Remaining.head {rest : List Order} (h : Remaining s examined (o :: rest)) : o.id ∉ examined := by
  have hnodup := h.nodup
  grind

theorem Remaining.tail {rest : List Order} (h : Remaining s examined (o :: rest)) :
    Remaining s (examined ++ [o.id]) rest :=
  ⟨fun r hr => h.rows r (.tail o hr), by simpa using h.nodup⟩

/-- The loop with nothing in between. -/
theorem reconcileEach_run {orders : List Order} (h : Reconciled s t examined) (hrest : Remaining s examined orders)
    (repaired divergences : Nat) :
    ∃ t', (reconcileEach orders repaired divergences).run (executeStamped P) t =
        (.ok ⟨repaired + orders.countP fun o => (Shop.invoice s.world o.id).isSome,
          divergences + orders.countP fun o => (Shop.invoice s.world o.id).isNone⟩, t') ∧
      Reconciled s t' (examined ++ orders.map Order.id) := by
  induction orders generalizing t examined repaired divergences with
  | nil => exact ⟨t, rfl, by simpa using h⟩
  | cons order rest ih =>
    have hinvoice := h.invoice order.id
    obtain ⟨hrow, hstatus⟩ := hrest.rows order (.head rest)
    show ∃ t', Program.run (executeStamped P)
      (Program.bind (.done (.ok (clientBillingStatus t.world order.id))) _) t = _ ∧ _
    cases hc : clientBillingStatus t.world order.id with
    | none =>
      have hnone : Shop.invoice s.world order.id = none := hinvoice ▸ invoice_of_client_none hc
      obtain ⟨t', hrun, hend⟩ := ih (h.skip hnone) hrest.tail repaired (divergences + 1)
      refine ⟨t', hrun.trans ?_, by simpa using hend⟩
      simp [hnone, Nat.add_assoc, Nat.add_comm]
    | some receipt =>
      obtain ⟨hsome, hne⟩ := invoice_of_client hc
      rw [hinvoice] at hsome
      obtain ⟨t₁, hmark, hprogress⟩ := h.mark (P := P) hrow hstatus hrest.head hsome
      obtain ⟨t', hrun, hend⟩ := ih hprogress hrest.tail (repaired + 1) divergences
      refine ⟨t', ?_, by simpa using hend⟩
      show Program.run (executeStamped P) (if _ then _ else _) t = _
      rw [if_pos ⟨hne, hstatus⟩]
      show Program.run (executeStamped P)
        (Program.bind (.done (executeStamped P t (.markBilled order.id receipt.invoiceId)).2) _)
        (executeStamped P t (.markBilled order.id receipt.invoiceId)).1 = _
      rw [hmark]
      refine hrun.trans ?_
      simp [hsome, Nat.add_assoc, Nat.add_comm]

theorem perform_status (t : Stamped) (orderId : String) (reply : Reply) :
    performStamped P t (.getBillingStatus orderId) reply = (t, .ok (clientBillingStatus t.world orderId)) ∨
      ∃ e, performStamped P t (.getBillingStatus orderId) reply = (t, .error e) := by
  cases reply with
  | answered => exact .inl rfl
  | failed message => exact .inr ⟨message, rfl⟩
  | lost message => exact .inr ⟨message, rfl⟩

/-- A failed query comes after a call that is none. -/
theorem failed_query_later {orderId e : String} {q : Call} (hq : q ≠ .getBillingStatus orderId)
    {r : Except String (Answer q)} {calls : List ((q : Call) × Except String (Answer q))}
    (h : ⟨.getBillingStatus orderId, .error e⟩ ∈ (⟨q, r⟩ : (q : Call) × Except String (Answer q)) :: calls) :
    (⟨.getBillingStatus orderId, .error e⟩ : (q : Call) × Except String (Answer q)) ∈ calls := by
  obtain hhead | htail := List.mem_cons.mp h
  · exact absurd (congrArg Sigma.fst hhead).symm hq
  · exact htail

/-- The loop up to a query that the ERP fails. -/
theorem reconcileEach_failed {orders : List Order} (h : Reconciled s t examined) (hrest : Remaining s examined orders)
    {repaired divergences : Nat} {choices : List (Nat × Reply)}
    {calls : List ((q : Call) × Except String (Answer q))} {result : Except String ReconcileResult} {s' : Stamped}
    (hrun : complete (performStamped P) choices (reconcileEach orders repaired divergences) t =
      some (calls, result, s')) {orderId e : String} (hfail : ⟨.getBillingStatus orderId, .error e⟩ ∈ calls) :
    result = .error e ∧ ∃ earlier order later, orders = earlier ++ order :: later ∧ order.id = orderId ∧
      Reconciled s s' (examined ++ earlier.map Order.id) := by
  induction orders generalizing t examined repaired divergences choices calls with
  | nil =>
    obtain ⟨rfl, _, _⟩ := complete_done hrun
    cases hfail
  | cons order rest ih =>
    have hinvoice := h.invoice order.id
    obtain ⟨hrow, hstatus⟩ := hrest.rows order (.head rest)
    -- the rest of the loop, with one more order before the failing one
    have hlater {t : Stamped} {repaired divergences : Nat} {choices : List (Nat × Reply)}
        {calls : List ((q : Call) × Except String (Answer q))} (hprogress : Reconciled s t (examined ++ [order.id]))
        (hrun : complete (performStamped P) choices (reconcileEach rest repaired divergences) t =
          some (calls, result, s')) (hfail : ⟨.getBillingStatus orderId, .error e⟩ ∈ calls) :
        result = .error e ∧ ∃ earlier failing later, order :: rest = earlier ++ failing :: later ∧
          failing.id = orderId ∧ Reconciled s s' (examined ++ earlier.map Order.id) := by
      obtain ⟨hresult, earlier, failing, later, rfl, hid, hend⟩ := ih hprogress hrest.tail hrun hfail
      exact ⟨hresult, order :: earlier, failing, later, rfl, hid, by simpa using hend⟩
    obtain ⟨_, reply, choices, calls, rfl, rfl, hnext⟩ := complete_await hrun
    obtain hreply | ⟨e', hreply⟩ := perform_status (P := P) t order.id reply
    · rw [hreply] at hnext hfail
      have hfail : ⟨.getBillingStatus orderId, .error e⟩ ∈ calls := by
        obtain hhead | htail := List.mem_cons.mp hfail
        · grind
        · exact htail
      cases hc : clientBillingStatus t.world order.id with
      | none =>
        rw [hc] at hnext
        exact hlater (h.skip (hinvoice ▸ invoice_of_client_none hc)) hnext hfail
      | some receipt =>
        obtain ⟨hsome, hne⟩ := invoice_of_client hc
        rw [hinvoice] at hsome
        obtain ⟨t₁, hmark, hprogress⟩ := h.mark (P := P) hrow hstatus hrest.head hsome
        rw [hc] at hnext
        replace hnext : complete (performStamped P) choices (if _ then _ else _) t = _ := hnext
        rw [if_pos ⟨hne, hstatus⟩] at hnext
        obtain ⟨_, reply, choices, calls, rfl, rfl, hwritten⟩ := complete_await hnext
        have hin := failed_query_later (by simp) hfail
        cases reply with
        | answered =>
          replace hwritten : complete (performStamped P) choices
            (Program.bind (.done (executeStamped P t (.markBilled order.id receipt.invoiceId)).2) _)
            (executeStamped P t (.markBilled order.id receipt.invoiceId)).1 = _ := hwritten
          rw [hmark] at hwritten
          exact hlater hprogress hwritten hin
        | failed message =>
          obtain ⟨rfl, _, _⟩ := complete_done hwritten
          cases hin
        | lost message =>
          obtain ⟨rfl, _, _⟩ := complete_done hwritten
          cases hin
    · rw [hreply] at hnext hfail
      obtain ⟨rfl, rfl, rfl⟩ := complete_done hnext
      obtain hhead | htail := List.mem_cons.mp hfail
      · refine ⟨by grind, [], order, rest, rfl, by grind, by simpa using h⟩
      · cases htail

theorem remaining_unbilled (s : Stamped) : Remaining s [] (unbilledOrders s.world.db) where
  rows o ho := by simpa [unbilledOrders] using ho
  nodup := by
    rw [List.nil_append]
    exact (List.filter_sublist.map Order.id).nodup s.orders.nodup

/-! ### The whole run -/

/-- What a run leaves that examined these orders: those the ERP has billed carry their
invoice and the time of the write, and nothing else is touched. -/
structure RepairedOrders (s s' : Stamped) (examined : List String) : Prop where
  repaired : ∀ o ∈ s.orders.rows, o.id ∈ examined → o.status ≠ .billed → ∀ invoiceId,
    Invoiced s.world o.id invoiceId →
      s'.orders.find? o.id = some (o.billed invoiceId) ∧ s'.updatedAt o.id = s.world.clock.now
  unchanged : ∀ o ∈ s.orders.rows,
    (o.id ∉ examined ∨ o.status = .billed ∨ ∀ invoiceId, ¬Invoiced s.world o.id invoiceId) →
      s'.orders.find? o.id = some o ∧ s'.updatedAt o.id = s.updatedAt o.id
  ids : s'.orders.rows.map Order.id = s.orders.rows.map Order.id
  rest : s'.world = {s.world with db := {s.world.db with orders := s'.orders}}

theorem invoice_isSome {w : World} {orderId : String} :
    (Shop.invoice w orderId).isSome ↔ ∃ invoiceId, Invoiced w orderId invoiceId := by
  simp [Option.isSome_iff_exists, invoice_eq_some]

theorem Reconciled.found (h : Reconciled s t examined) (ho : o ∈ s.orders.rows) :
    t.orders.find? o.id = some (reconciled s.world examined o) := by
  rw [Table.find?_eq_some, h.rows]
  exact ⟨List.mem_map_of_mem ho, reconciled_id s.world examined o⟩

theorem Reconciled.stamp (h : Reconciled s t examined) (ho : o ∈ s.orders.rows) :
    t.updatedAt o.id = if Repairs s.world examined o then s.world.clock.now else s.updatedAt o.id := by
  have hone : (∃ r ∈ s.orders.rows, r.id = o.id ∧ Repairs s.world examined r) ↔ Repairs s.world examined o := by
    constructor
    · rintro ⟨r, hr, hid, hrepairs⟩
      exact s.orders.eq_of_key hr ho hid ▸ hrepairs
    · exact fun hrepairs => ⟨o, ho, rfl, hrepairs⟩
  rw [h.updatedAt]
  simp only [hone]

theorem Reconciled.repairedOrders (h : Reconciled s t examined) : RepairedOrders s t examined where
  repaired o ho hmem hstatus invoiceId hinvoiced := by
    have hinvoice := invoice_eq_some.mpr hinvoiced
    have hrepairs : Repairs s.world examined o := ⟨hmem, hstatus, by rw [hinvoice]; rfl⟩
    rw [h.found ho, h.stamp ho, reconciled, if_pos hrepairs, if_pos hrepairs, hinvoice]
    exact ⟨rfl, rfl⟩
  unchanged o ho hother := by
    have hnot : ¬Repairs s.world examined o := by
      rintro ⟨hmem, hstatus, hinvoice⟩
      obtain ⟨invoiceId, hinvoiced⟩ := invoice_isSome.mp hinvoice
      obtain hout | hbilled | hnone := hother
      · exact hout hmem
      · exact hstatus hbilled
      · exact hnone invoiceId hinvoiced
    rw [h.found ho, h.stamp ho, reconciled, if_neg hnot, if_neg hnot]
    exact ⟨rfl, rfl⟩
  ids := by
    rw [h.rows, List.map_map]
    exact List.map_congr_left fun o _ => reconciled_id s.world examined o
  rest := h.rest

/-- A run that has nothing to repair leaves the state as it is. -/
theorem Reconciled.eq_of_none (h : Reconciled s t examined)
    (hnone : ∀ o ∈ s.orders.rows, ¬Repairs s.world examined o) :
    t = s := by
  have horders : t.orders = s.orders := by
    apply Table.ext
    rw [h.rows]
    exact (List.map_congr_left fun o ho => if_neg (hnone o ho)).trans (List.map_id _)
  have hworld : t.world = s.world := by
    rw [h.rest, horders]
  have hupdated : t.updatedAt = s.updatedAt := by
    funext id
    rw [h.updatedAt, if_neg]
    rintro ⟨o, ho, _, hrepairs⟩
    exact hnone o ho hrepairs
  calc
    t = ⟨t.world, t.updatedAt⟩ := rfl
    _ = s := by rw [hworld, hupdated]

/-- What a run that examined every unbilled order leaves unbilled. -/
theorem Reconciled.unbilled (h : Reconciled s t ((unbilledOrders s.world.db).map Order.id)) :
    unbilledOrders t.world.db =
      (unbilledOrders s.world.db).filter fun o => (Shop.invoice s.world o.id).isNone := by
  have hmem (o : Order) (ho : o ∈ s.orders.rows) (hstatus : o.status ≠ .billed) :
      o.id ∈ (unbilledOrders s.world.db).map Order.id :=
    List.mem_map_of_mem (by simpa [unbilledOrders] using ⟨ho, hstatus⟩)
  generalize (unbilledOrders s.world.db).map Order.id = ids at h hmem
  have hkept : ∀ o ∈ s.orders.rows, ((reconciled s.world ids o).status ≠ .billed ↔
      Shop.invoice s.world o.id = none ∧ o.status ≠ .billed) := by
    intro o ho
    by_cases hrepairs : Repairs s.world ids o
    · have hsome := hrepairs.2.2
      rw [reconciled, if_pos hrepairs]
      simp [Order.billed, Option.ne_none_iff_isSome.mpr hsome]
    · rw [reconciled, if_neg hrepairs]
      refine ⟨fun hstatus => ⟨?_, hstatus⟩, And.right⟩
      simpa [Repairs, hmem o ho hstatus, hstatus] using hrepairs
  have hsame : ∀ o ∈ s.orders.rows, Shop.invoice s.world o.id = none → reconciled s.world ids o = o :=
    fun o _ hnone => if_neg fun hrepairs => by simp [Repairs, hnone] at hrepairs
  calc
    unbilledOrders t.world.db =
        (s.orders.rows.map (reconciled s.world ids)).filter fun o => o.status ≠ .billed := by
      rw [← h.rows]
      rfl
    _ = (s.orders.rows.filter fun o => (Shop.invoice s.world o.id).isNone && decide (o.status ≠ .billed)).map
        (reconciled s.world ids) := by
      rw [List.filter_map]
      congr 1
      apply List.filter_congr
      intro o ho
      rw [Bool.eq_iff_iff, Bool.and_eq_true, Option.isNone_iff_eq_none, decide_eq_true_iff]
      exact (decide_eq_true_iff).trans (hkept o ho)
    _ = s.orders.rows.filter fun o => (Shop.invoice s.world o.id).isNone && decide (o.status ≠ .billed) := by
      conv_rhs => rw [← List.map_id (s.orders.rows.filter _)]
      apply List.map_congr_left
      intro o ho
      simp only [List.mem_filter, Bool.and_eq_true, Option.isNone_iff_eq_none] at ho
      exact hsame o ho.1 ho.2.1
    _ = _ := by rw [unbilledOrders, List.filter_filter]

/-- The same state at another time. -/
def Stamped.at (s : Stamped) (clock : Catalog.Clock) : Stamped := {s with world := {s.world with clock := clock}}

/-- A run with nothing in between, counted. -/
theorem reconcileOrders_run (P : Checkout.Platform) (s : Stamped) :
    ∃ s', reconcileOrders.run (executeStamped P) s =
        (.ok ⟨(unbilledOrders s.world.db).countP fun o => (Shop.invoice s.world o.id).isSome,
          (unbilledOrders s.world.db).countP fun o => (Shop.invoice s.world o.id).isNone⟩, s') ∧
      Reconciled s s' ((unbilledOrders s.world.db).map Order.id) := by
  obtain ⟨s', hrun, hend⟩ := reconcileEach_run (P := P) (.start s) (remaining_unbilled s) 0 0
  rw [Nat.zero_add, Nat.zero_add] at hrun
  exact ⟨s', hrun, hend⟩

/-- Where every unbilled order is without an invoice, a run only counts them. -/
theorem reconcileOrders_idle (P : Checkout.Platform) (s : Stamped)
    (h : ∀ o ∈ unbilledOrders s.world.db, Shop.invoice s.world o.id = none) :
    reconcileOrders.run (executeStamped P) s = (.ok ⟨0, (unbilledOrders s.world.db).length⟩, s) := by
  obtain ⟨s', hrun, hend⟩ := reconcileOrders_run P s
  have hrepaired : ((unbilledOrders s.world.db).countP fun o => (Shop.invoice s.world o.id).isSome) = 0 :=
    List.countP_eq_zero.mpr fun o ho => by simp [h o ho]
  have hdivergences : ((unbilledOrders s.world.db).countP fun o => (Shop.invoice s.world o.id).isNone) =
      (unbilledOrders s.world.db).length :=
    List.countP_eq_length.mpr fun o ho => by simp [h o ho]
  have hsame : s' = s := by
    apply hend.eq_of_none
    rintro o ho ⟨_, hstatus, hinvoice⟩
    rw [h o (by simpa [unbilledOrders] using ⟨ho, hstatus⟩)] at hinvoice
    cases hinvoice
  rw [hrun, hrepaired, hdivergences, hsame]

/-- The repair of billed orders: with nothing in between, every unbilled order that the
ERP has billed is repaired, the others are counted, and a second run has nothing to
repair; when the ERP fails a query, the orders before it are as such a run leaves them
and the rest as they were. -/
theorem reconcileOrders_repairs (P : Checkout.Platform) (s : Stamped) :
    (∃ s' repaired divergences, reconcileOrders.run (executeStamped P) s = (.ok ⟨repaired, divergences⟩, s') ∧
      RepairedOrders s s' ((unbilledOrders s.world.db).map Order.id) ∧
      (∀ o ∈ s.orders.rows, ∀ o', s'.orders.find? o.id = some o' →
        (o'.status = .billed ↔ o.status = .billed ∨ ∃ invoiceId, Invoiced s.world o.id invoiceId)) ∧
      repaired + divergences = (unbilledOrders s.world.db).length ∧
      ∀ clock, reconcileOrders.run (executeStamped P) (s'.at clock) = (.ok ⟨0, divergences⟩, s'.at clock)) ∧
    ∀ choices calls result s' orderId e,
      complete (performStamped P) choices reconcileOrders s = some (calls, result, s') →
      ⟨.getBillingStatus orderId, .error e⟩ ∈ calls →
        result = .error e ∧ ∃ earlier order later,
          unbilledOrders s.world.db = earlier ++ order :: later ∧ order.id = orderId ∧
          RepairedOrders s s' (earlier.map Order.id) := by
  constructor
  · obtain ⟨s', hrun, hend⟩ := reconcileOrders_run P s
    have hleft := hend.unbilled
    refine ⟨s', _, _, hrun, hend.repairedOrders, ?_, ?_, ?_⟩
    · intro o ho o' hfound
      rw [hend.found ho, Option.some_inj] at hfound
      by_cases hrepairs : Repairs s.world ((unbilledOrders s.world.db).map Order.id) o
      · rw [← hfound, reconciled, if_pos hrepairs]
        exact ⟨fun _ => .inr (invoice_isSome.mp hrepairs.2.2), fun _ => rfl⟩
      · rw [← hfound, reconciled, if_neg hrepairs, ← invoice_isSome]
        refine ⟨.inl, fun h => ?_⟩
        by_contra hstatus
        have hmem : o.id ∈ (unbilledOrders s.world.db).map Order.id :=
          List.mem_map_of_mem (by simpa [unbilledOrders] using ⟨ho, hstatus⟩)
        exact hrepairs ⟨hmem, hstatus, h.resolve_left hstatus⟩
    · have hnot := List.length_eq_countP_add_countP (fun o : Order => (Shop.invoice s.world o.id).isSome)
        (l := unbilledOrders s.world.db)
      rw [hnot]
      congr 1
      exact List.countP_congr fun o _ => by simp
    · intro clock
      have hnone : ∀ o ∈ unbilledOrders (s'.at clock).world.db, Shop.invoice (s'.at clock).world o.id = none := by
        intro o ho
        replace ho : o ∈ unbilledOrders s'.world.db := ho
        rw [hleft, List.mem_filter, Option.isNone_iff_eq_none] at ho
        exact (hend.invoice o.id).trans ho.2
      have hcount : (unbilledOrders (s'.at clock).world.db).length =
          (unbilledOrders s.world.db).countP fun o => (Shop.invoice s.world o.id).isNone := by
        rw [List.countP_eq_length_filter, ← hleft]
        rfl
      rw [reconcileOrders_idle P _ hnone, hcount]
  · intro choices calls result s' orderId e hrun hfail
    obtain ⟨_, reply, choices, calls, rfl, rfl, hnext⟩ := complete_await hrun
    have hin := failed_query_later (by simp) hfail
    cases reply with
    | answered =>
      obtain ⟨hresult, earlier, order, later, horders, hid, hend⟩ :=
        reconcileEach_failed (.start s) (remaining_unbilled s) hnext hin
      exact ⟨hresult, earlier, order, later, horders, hid, hend.repairedOrders⟩
    | failed message =>
      obtain ⟨rfl, _, _⟩ := complete_done hnext
      cases hin
    | lost message =>
      obtain ⟨rfl, _, _⟩ := complete_done hnext
      cases hin

/-! ### Three orders -/

def waitingOrder (id : String) : Order := ⟨id, "c1", id, .pendingErp, 500, "BRL", none, some "waiting"⟩

/-- The ERP has billed the first order and holds a receipt without an invoice for the second. -/
def threeWaiting : Stamped where
  world := {World.fresh [] with
    db := {Database.empty with orders := ⟨[waitingOrder "o1", waitingOrder "o2", waitingOrder "o3"], by decide⟩}
    erp := ⟨[], [], fun _ => none, fun id =>
      if id = "o1" then some ⟨"inv-o1", 1⟩ else if id = "o2" then some ⟨"", 1⟩ else none⟩
    clock := ⟨5, fun slug => slug⟩}
  updatedAt _ := 0

/-- The query for the third order times out. -/
def thirdFails : List (Nat × Reply) := List.replicate 4 (0, .answered) ++ [(0, .failed "timeout")]

def failedQuery : ((q : Call) × Except String (Answer q)) → Option (String × String)
  | ⟨.getBillingStatus orderId, .error e⟩ => some (orderId, e)
  | _ => none

theorem of_failedQuery {call : (q : Call) × Except String (Answer q)} {orderId e : String}
    (h : failedQuery call = some (orderId, e)) : call = ⟨.getBillingStatus orderId, .error e⟩ := by
  obtain ⟨q, r⟩ := call
  cases q <;> try cases h
  cases r with
  | ok _ => cases h
  | error _ =>
    cases h
    rfl

/-- A run whose last query failed, with what it leaves. -/
theorem exists_failed (run : Option (List ((q : Call) × Except String (Answer q)) ×
      Except String ReconcileResult × Stamped)) (orderId e : String) (check : Stamped → Bool)
    (h : run.any (fun r => decide (r.1.getLast?.bind failedQuery = some (orderId, e)) && check r.2.2) = true) :
    ∃ calls result s', run = some (calls, result, s') ∧ ⟨.getBillingStatus orderId, .error e⟩ ∈ calls ∧
      check s' = true := by
  cases run with
  | none => cases h
  | some r =>
    obtain ⟨calls, result, s'⟩ := r
    obtain ⟨hlast, hcheck⟩ : calls.getLast?.bind failedQuery = some (orderId, e) ∧ check s' = true := by
      simpa using h
    obtain ⟨call, hcall, hfailed⟩ := Option.bind_eq_some_iff.mp hlast
    refine ⟨calls, result, s', rfl, ?_, hcheck⟩
    rw [← of_failedQuery hfailed]
    exact List.mem_of_getLast? hcall

theorem reconcileOrders_spares :
    (¬∀ (P : Checkout.Platform) (s : Stamped), ∀ o ∈ s.orders.rows,
      (reconcileOrders.run (executeStamped P) s).2.updatedAt o.id = s.updatedAt o.id) ∧
    (¬∀ (P : Checkout.Platform) (s : Stamped), ∀ o ∈ s.orders.rows, (s.world.erp.billingByOrderId o.id).isSome →
      ((reconcileOrders.run (executeStamped P) s).2.orders.find? o.id).map Order.status = some .billed) ∧
    ¬∀ (P : Checkout.Platform) (s s' : Stamped) (choices : List (Nat × Reply))
      (calls : List ((q : Call) × Except String (Answer q))) (result : Except String ReconcileResult)
      (orderId e : String), complete (performStamped P) choices reconcileOrders s = some (calls, result, s') →
      ⟨.getBillingStatus orderId, .error e⟩ ∈ calls → ∀ earlier order later,
        unbilledOrders s.world.db = earlier ++ order :: later → order.id = orderId →
        ∀ o ∈ earlier, (s'.orders.find? o.id).map Order.status = some .billed := by
  refine ⟨fun h => ?_, fun h => ?_, fun h => ?_⟩
  · exact absurd (h plainPlatform threeWaiting (waitingOrder "o1") (by decide)) (by decide +kernel)
  · exact absurd (h plainPlatform threeWaiting (waitingOrder "o2") (by decide) (by decide)) (by decide +kernel)
  · obtain ⟨calls, result, s', hrun, hfail, hcheck⟩ := exists_failed
      (complete (performStamped plainPlatform) thirdFails reconcileOrders threeWaiting) "o3" "timeout"
      (fun s' => (s'.orders.find? "o2").map Order.status = some .pendingErp) (by decide +kernel)
    have hbilled := h plainPlatform threeWaiting s' thirdFails calls result "o3" "timeout" hrun hfail
      [waitingOrder "o1", waitingOrder "o2"] (waitingOrder "o3") [] rfl rfl (waitingOrder "o2") (by decide)
    cases (of_decide_eq_true hcheck).symm.trans hbilled

/-- The third query fails: what holds of the orders before it. -/
theorem reconcileOrders_repairs_two :
    ∃ calls s', complete (performStamped plainPlatform) thirdFails reconcileOrders threeWaiting =
        some (calls, .error "timeout", s') ∧
      ∃ earlier order later, unbilledOrders threeWaiting.world.db = earlier ++ order :: later ∧ order.id = "o3" ∧
        RepairedOrders threeWaiting s' (earlier.map Order.id) := by
  obtain ⟨calls, result, s', hrun, hfail, _⟩ := exists_failed
    (complete (performStamped plainPlatform) thirdFails reconcileOrders threeWaiting) "o3" "timeout"
    (fun _ => true) (by decide +kernel)
  obtain ⟨rfl, hearlier⟩ := (reconcileOrders_repairs plainPlatform threeWaiting).2 _ _ _ _ _ _ hrun hfail
  exact ⟨calls, s', hrun, hearlier⟩

end CaseCellShop.Shop
