import CaseCellShop.Library.Refinement
import CaseCellShop.Shop.Receipts
import CaseCellShop.Shop.Recovery

/-! Orders that no run bills any more.

An unbilled order that no waiting event announces, no message of the two queues is about
and no invoice exists for is written by nothing that can still happen: every later message
is about an order of a message or a waiting event, and a reconciliation marks only what has
an invoice. So after a restart an order can be billed exactly if it is recoverable
(`billable_iff`). -/
namespace CaseCellShop.Shop
open Billing Erp Outbox Program Queue Reconciliation

/-- The order is unbilled, and nothing that can happen concerns it. -/
structure Stranded (o : Order) (w : World) : Prop where
  row : w.db.orders.find? o.id = some o
  inFlight : ¬InFlight w o.id
  invoice : invoice w o.id = none

/-- The call does not concern the order. -/
def Spares (id : String) : Call → Prop
  | .billOrder orderId _ | .markBilled orderId _ | .markErpFailed orderId _ => orderId ≠ id
  | .publish d | .publishToRetry d | .nack d => d.body.orderId ≠ id
  | _ => True

/-- Nor does what it answers. -/
def AnswersSpare (id : String) : (q : Call) → Except String (Answer q) → Prop
  | .findOrder orderId, .ok order => order.id = orderId
  | .getBillingStatus orderId, .ok (some _) => orderId ≠ id
  | .findPendingEvents, .ok events => ∀ e ∈ events, e.payload.orderId ≠ id
  | _, _ => True

/-- The task does not handle a message of the order. -/
def TaskSpares (id : String) : Task → Prop
  | .consume _ d => d.body.orderId ≠ id
  | _ => True

variable {P : Checkout.Platform} {o : Order} {w w' : World} {id : String}

/-! ### One call -/

theorem Stranded.congr (h : Stranded o w) (hrow : w'.db.orders.find? o.id = w.db.orders.find? o.id)
    (hflight : InFlight w' o.id → InFlight w o.id) (hinvoice : Shop.invoice w' o.id = Shop.invoice w o.id) :
    Stranded o w' :=
  ⟨hrow.trans h.row, fun hf => h.inFlight (hflight hf), hinvoice.trans h.invoice⟩

/-- An update of an event leaves none waiting that did not wait before. -/
theorem announced_update {events : Table OutboxEvent.id} {eventId : String} {f : OutboxEvent → OutboxEvent}
    {hf : ∀ e, (f e).id = e.id} (hstatus : ∀ e, (f e).status ≠ .pending) {db : Database}
    (h : Announced {db with outboxEvents := events.update eventId f hf} id) :
    Announced {db with outboxEvents := events} id := by
  obtain ⟨e, he, hid⟩ := h
  obtain ⟨hrow, hpending⟩ := List.mem_filter.mp he
  obtain ⟨e', he', rfl⟩ := List.mem_map.mp hrow
  by_cases hevent : e'.id = eventId
  · simp only [if_pos hevent, decide_eq_true_eq] at hpending
    exact absurd hpending (hstatus e')
  · simp only [if_neg hevent] at hpending hid
    exact ⟨e', List.mem_filter.mpr ⟨he', hpending⟩, hid⟩

theorem find?_update_other {orders : Orders} {orderId : String} {f : Order → Order} (hf : ∀ o, (f o).id = o.id)
    (h : orderId ≠ id) : (orders.update orderId f hf).find? id = orders.find? id := by
  rw [Table.find?_update]
  simp [h.symm]

theorem Executed.stranded {q : Call} (h : Executed w q w') (hq : Spares o.id q) (hw : Stranded o w) :
    Stranded o w' := by
  cases h with
  | nothing => exact hw
  | synced hs =>
    refine hw.congr (by rw [hs.others]) ?_ rfl
    rintro (⟨e, he, hid⟩ | hqueue)
    · rw [waitingEvents, hs.others] at he
      exact .inl ⟨e, he, hid⟩
    · exact .inr hqueue
  | billedByErp orderId billingKey =>
    refine hw.congr rfl (fun hf => hf) (invoice_congr ?_)
    rcases billOrder_cases w.erp w.clock.now orderId billingKey with ⟨_, hbill⟩ | ⟨_, _, hbill⟩ | ⟨_, _, _, hbill⟩
    · simp only [hbill]
    · simp only [hbill]
    · simp only [hbill]
      exact Function.update_of_ne (Ne.symm hq) ..
  | billed orderId invoiceId =>
    exact hw.congr (find?_update_other (f := Order.billed invoiceId) (fun _ => rfl) hq) (fun hf => hf) rfl
  | erpFailed orderId reason =>
    exact hw.congr (find?_update_other (f := Order.erpFailed reason) (fun _ => rfl) hq) (fun hf => hf) rfl
  | marked eventId => exact hw.congr rfl (.imp_left (announced_update fun _ h => by cases h)) rfl
  | eventFailed eventId lastError => exact hw.congr rfl (.imp_left (announced_update fun _ h => by cases h)) rfl
  | sentToRetry d =>
    refine hw.congr rfl (.imp_right (.imp_right fun hhas => ?_)) rfl
    exact (has_append.mp hhas).resolve_right fun hnew => hq (has_singleton.mp hnew)
  | published d =>
    refine hw.congr rfl (.imp_right (.imp_left fun hhas => ?_)) rfl
    exact (has_append.mp hhas).resolve_right fun hnew => hq (has_singleton.mp hnew)
  | returned d =>
    exact hw.congr rfl (.imp_right (.imp_left fun hhas => (has_cons.mp hhas).resolve_left hq)) rfl
  | _ => exact hw.congr rfl (fun hf => hf) rfl

theorem execute_spares (hw : Stranded o w) (q : Call) : AnswersSpare o.id q (execute P w q).2 := by
  cases q with
  | findOrder orderId =>
    show AnswersSpare o.id (.findOrder orderId) (findOrder P w.db orderId)
    unfold findOrder
    cases hfind : w.db.orders.find? orderId with
    | none => trivial
    | some order => exact Table.key_of_find? hfind
  | getBillingStatus orderId =>
    show AnswersSpare o.id (.getBillingStatus orderId) (.ok (clientBillingStatus w orderId))
    cases hstatus : clientBillingStatus w orderId with
    | none => trivial
    | some receipt =>
      rintro rfl
      have hnone := hw.invoice
      rw [(invoice_of_client hstatus).1] at hnone
      cases hnone
  | findPendingEvents => exact fun e he hid => hw.inFlight (.inl ⟨e, List.mem_of_mem_take he, hid⟩)
  | _ => generalize (execute P w _).2 = r; cases r <;> trivial

theorem perform_spares (hw : Stranded o w) {q : Call} (hq : Spares o.id q) (a : Reply) :
    Stranded o (perform P w q a).1 ∧ AnswersSpare o.id q (perform P w q a).2 := by
  refine ⟨(perform_executed w q a).stranded hq hw, ?_⟩
  cases a with
  | answered => exact execute_spares hw q
  | failed message => cases q <;> trivial
  | lost message => cases q <;> trivial

/-! ### The programs -/

/-- What the programs owe. -/
abbrev SparesAll {α : Type} (id : String) (p : Worker α) : Prop := p.OnlyCallsGiven (AnswersSpare id) (Spares id)

/-- The calls of a handler, but those about the order it has found. -/
def OwnCall (d : Delivery) : Call → Prop
  | .findOrder orderId | .markErpFailed orderId _ => orderId = d.body.orderId
  | .publishToRetry d' | .publishToDlq d' | .nack d' => d'.body.orderId = d.body.orderId
  | .createIntegrationAttempt _ | .ack => True
  | _ => False

/-- A handler makes its own calls, and bills the order it is answered with the invoice it is
answered. -/
theorem consume_given {good : (q : Call) → Except String (Answer q) → Prop} {ok : Call → Prop} {d : Delivery}
    (hown : ∀ q, OwnCall d q → ok q)
    (hbill : ∀ order, good (.findOrder d.body.orderId) (.ok order) → ok (.billOrder order.id (billingKey order.id)) ∧
      ∀ receipt, good (.billOrder order.id (billingKey order.id)) (.ok receipt) →
        ok (.markBilled order.id receipt.invoiceId)) :
    (consume d).OnlyCallsGiven good ok := by
  have hsettle : (settle d).OnlyCallsGiven good ok := by
    refine ⟨hown _ trivial, fun r _ => ?_⟩
    cases r with
    | error e => exact ⟨hown _ rfl, fun _ _ => trivial⟩
    | ok u => trivial
  have hrecord : ∀ error, (recordFailure d error).OnlyCallsGiven good ok := by
    intro error
    refine ⟨hown _ trivial, fun r _ => ?_⟩
    cases r with
    | error e => exact hsettle
    | ok u =>
      show (if currentAttempt (withHeaders d) ≥ 4 then markFailed d else toRetry d).OnlyCallsGiven good ok
      by_cases hlast : currentAttempt (withHeaders d) ≥ 4
      · rw [if_pos hlast]
        refine ⟨hown _ rfl, fun r _ => ?_⟩
        cases r with
        | error e => exact hsettle
        | ok order => exact ⟨hown _ rfl, fun _ _ => hsettle⟩
      · rw [if_neg hlast]
        exact ⟨hown _ rfl, fun _ _ => hsettle⟩
  rw [consume_eq]
  refine ⟨hown _ rfl, fun r hr => ?_⟩
  cases r with
  | error e => exact hrecord e
  | ok order =>
    show (if order.status = .billed then settle d else bill d order).OnlyCallsGiven good ok
    by_cases hbilled : order.status = .billed
    · rw [if_pos hbilled]
      exact hsettle
    · rw [if_neg hbilled]
      obtain ⟨hbillOrder, hmark⟩ := hbill order hr
      refine ⟨hbillOrder, fun r hreceipt => ?_⟩
      cases r with
      | error e => exact hrecord e
      | ok invoice =>
        refine ⟨hmark invoice hreceipt, fun r _ => ?_⟩
        cases r with
        | error e => exact hrecord e
        | ok updated => exact hsettle

/-- A reconciliation asks for receipts and marks orders with what it is told. -/
theorem reconcileEach_given {good : (q : Call) → Except String (Answer q) → Prop} {ok : Call → Prop}
    (hask : ∀ orderId, ok (.getBillingStatus orderId))
    (hmark : ∀ orderId receipt, good (.getBillingStatus orderId) (.ok (some receipt)) →
      ok (.markBilled orderId receipt.invoiceId)) (orders : List Order) (repaired divergences : Nat) :
    (reconcileEach orders repaired divergences).OnlyCallsGiven good ok := by
  induction orders generalizing repaired divergences with
  | nil => trivial
  | cons order rest ih =>
    refine onlyCallsGiven_call (hask order.id) fun billing hbilling => ?_
    cases billing with
    | none => exact ih _ _
    | some receipt =>
      dsimp only
      by_cases hunmarked : receipt.invoiceId ≠ "" ∧ order.status ≠ .billed
      · rw [if_pos hunmarked]
        exact onlyCallsGiven_call (hmark order.id receipt hbilling) fun _ _ => ih _ _
      · rw [if_neg hunmarked]
        by_cases hempty : receipt.invoiceId = ""
        · rw [if_pos hempty]
          exact ih _ _
        · rw [if_neg hempty]
          exact ih _ _

/-- A handler of another order. -/
theorem consume_spares {d : Delivery} (hd : d.body.orderId ≠ id) : SparesAll id (consume d) := by
  refine consume_given (fun q hq => ?_) fun order horder => ?_
  · cases q with
    | markErpFailed | publishToRetry | nack => exact fun he => hd (hq.symm.trans he)
    | billOrder | markBilled | publish => exact hq.elim
    | _ => trivial
  · have hother : order.id ≠ id := fun he => hd (horder.symm.trans he)
    exact ⟨hother, fun _ _ => hother⟩

theorem publishPending_spares : SparesAll id publishPending := by
  refine onlyCallsGiven_call trivial fun _ _ => onlyCallsGiven_call trivial fun events hevents => ?_
  refine onlyCallsGiven_each fun e he => onlyCallsGiven_handle ?_ fun error => ⟨trivial, fun _ _ => trivial⟩
  exact onlyCallsGiven_call (hevents e he) fun _ _ => ⟨trivial, fun _ _ => trivial⟩

theorem reconcileEach_spares (orders : List Order) (repaired divergences : Nat) :
    SparesAll id (reconcileEach orders repaired divergences) :=
  reconcileEach_given (fun _ => trivial) (fun _ _ hother => hother) orders repaired divergences

theorem syncCatalog_spares : SparesAll id syncCatalog :=
  (onlyCalls_mono syncCatalog_calls fun q hq => by cases q <;> trivial).given

/-! ### Every run -/

theorem checkout_stranded (input : Checkout.CheckoutInput) (hw : Stranded o w) :
    Stranded o {w with db := (Checkout.checkout P input w.db).2.1} := by
  rcases Checkout.checkout_db P input w.db with hdb | ⟨_, _, _, _, _, _, hacc⟩
  · rw [hdb]
    exact hw
  · refine hw.congr ((Table.find?_insert hacc.order hw.row).trans hw.row.symm) (.imp_left ?_) rfl
    -- the new event is of the new order
    rintro ⟨e, he, hid⟩
    obtain ⟨hrow, hpending⟩ := List.mem_filter.mp he
    rw [(Table.insert?_eq_some hacc.event).2, List.mem_append, List.mem_singleton] at hrow
    rcases hrow with hold | rfl
    · exact ⟨e, List.mem_filter.mpr ⟨hold, hpending⟩, hid⟩
    · have hfresh := (Table.insert?_eq_some hacc.order).1
      have htaken : w.db.orders.find? o.id = none := hid ▸ hfresh
      rw [hw.row] at htaken
      cases htaken

theorem stranded_confined (P : Checkout.Platform) (o : Order) :
    Machine.Confined (Stranded o) (TaskSpares o.id) (Spares o.id) (AnswersSpare o.id) (machine P) where
  start w task w' p hw h := by
    cases task with
    | consume i d =>
      obtain ⟨hat, rfl, rfl⟩ := onStart_consume h
      have hd : d.body.orderId ≠ o.id := fun hid => hw.inFlight (.inr (.inl ⟨d, List.mem_of_getElem? hat, hid⟩))
      have hleft : Has (w.broker.billing.eraseIdx i) o.id → Has w.broker.billing o.id := fun hhas =>
        hhas.mono fun _ hd => List.mem_of_mem_eraseIdx hd
      exact ⟨hw.congr rfl (.imp_right (.imp_left hleft)) rfl, hd, consume_spares hd⟩
    | syncCatalog =>
      cases h
      exact ⟨hw, trivial, onlyCallsGiven_bind syncCatalog_spares fun _ => trivial⟩
    | reconcileOrders =>
      cases h
      refine ⟨hw, trivial, onlyCallsGiven_bind (onlyCallsGiven_call trivial fun orders _ => ?_) fun _ => trivial⟩
      exact reconcileEach_spares orders 0 0
    | publishPending =>
      cases h
      exact ⟨hw, trivial, publishPending_spares⟩
  call w q a hw hq := perform_spares hw hq a
  crash w task hw htask := by
    cases task with
    | consume i d =>
      exact hw.congr rfl (.imp_right (.imp_left fun hhas => (has_cons.mp hhas).resolve_left htask)) rfl
    | _ => exact hw
  environment w event w' hw h := by
    cases event with
    | checkout input =>
      cases h
      exact checkout_stranded input hw
    | expireRetry i =>
      obtain ⟨broker, hexpire, rfl⟩ := Option.map_eq_some_iff.mp h
      obtain ⟨d, hat, rfl⟩ := Option.map_eq_some_iff.mp hexpire
      refine hw.congr rfl (.imp_right ?_) rfl
      rintro (hbilling | hretry)
      · exact (has_append.mp hbilling).imp_right fun hnew => ⟨d, List.mem_of_getElem? hat, has_singleton.mp hnew⟩
      · exact .inr (hretry.mono fun _ hd => List.mem_of_mem_eraseIdx hd)
    | duplicate i =>
      obtain ⟨broker, hduplicate, rfl⟩ := Option.map_eq_some_iff.mp h
      obtain ⟨d, hat, rfl⟩ := Option.map_eq_some_iff.mp hduplicate
      refine hw.congr rfl (.imp_right (.imp_left fun hhas => ?_)) rfl
      exact (has_cons.mp hhas).elim (fun hid => ⟨d, List.mem_of_getElem? hat, hid⟩) fun hold => hold
    | _ =>
      cases h
      exact hw.congr rfl (fun hf => hf) rfl

theorem stranded_of_not_recoverable (hrow : w.db.orders.find? o.id = some o) (h : ¬Recoverable (.idle w) o.id) :
    Stranded o w := by
  have hfound : (w.db.orders.find? o.id).isSome := by
    rw [hrow]
    rfl
  refine ⟨hrow, fun hflight => h ⟨hfound, .inr (.inl hflight)⟩, Option.not_isSome_iff_eq_none.mp fun hinvoice => ?_⟩
  exact h ⟨hfound, .inr (.inr (.inr hinvoice))⟩

/-- After a restart some run bills the order exactly if it is recoverable, and if it is not,
no run changes its row. -/
theorem billable_iff (P : Checkout.Platform) (w : World) (o : Order) (hrow : w.db.orders.find? o.id = some o) :
    ((∃ actions c, (machine P).system.run (.idle w) actions = some c ∧ Billed c.world.db.orders o.id) ↔
      Recoverable (.idle w) o.id) ∧
    (¬Recoverable (.idle w) o.id → ∀ actions c, (machine P).system.run (.idle w) actions = some c →
      c.world.db.orders.find? o.id = some o) := by
  have hfixed : ¬Recoverable (.idle w) o.id → ∀ actions c, (machine P).system.run (.idle w) actions = some c →
      c.world.db.orders.find? o.id = some o := fun hnot actions c hr =>
    ((stranded_confined P o).run (stranded_of_not_recoverable hrow hnot) hr).row
  refine ⟨⟨?_, fun h => ?_⟩, hfixed⟩
  · rintro ⟨actions, c, hr, hbilled⟩
    by_contra hnot
    obtain ⟨o', ho', hstatus⟩ := billed_iff.mp hbilled
    rw [hfixed hnot actions c hr] at ho'
    cases ho'
    have hfound : (w.db.orders.find? o.id).isSome := by
      rw [hrow]
      rfl
    exact hnot ⟨hfound, .inl (billed_iff.mpr ⟨o, hrow, hstatus⟩)⟩
  · obtain ⟨actions, w', hr, _, _, hbilled⟩ := recover P (.idle w) 0 fun _ _ => rfl
    exact ⟨actions, _, hr, (hbilled o.id).mpr h⟩

/-- The publish of the order's event fails. -/
def publishFailed : List Action :=
  wholeSync 0 2 ++ [.environment (.checkout firstOrder), .start 1 .publishPending] ++
    replies 1 [.answered, .answered, .failed "channel closed", .answered]

theorem billable_iff_failed : ¬∃ actions c,
    (machine plainPlatform).system.run (.idle (after (.idle twoProducts) publishFailed).world) actions = some c ∧
      Billed c.world.db.orders "o1" := by
  intro hbillable
  have hrow : (after (.idle twoProducts) publishFailed).world.db.orders.find? "o1" =
      some ⟨"o1", "c1", "k", .pendingErp, 1700, "BRL", none, none⟩ := by
    decide +kernel
  obtain ⟨_, hbilled' | (hevent | hqueue | hretry) | hheld | hinvoice⟩ :=
    (billable_iff plainPlatform _ ⟨"o1", "c1", "k", .pendingErp, 1700, "BRL", none, none⟩ hrow).1.mp hbillable
  · exact absurd hbilled' (by decide +kernel)
  · exact absurd hevent (by unfold Announced; decide +kernel)
  · exact absurd hqueue (by decide +kernel)
  · exact absurd hretry (by decide +kernel)
  · exact held_idle _ _ hheld
  · exact absurd hinvoice (by decide +kernel)

end CaseCellShop.Shop
