import CaseCellShop.Shop.System

/-! The status of an order.

`BILLED` and the invoice id are written together and nothing clears either, except the
`ERP_FAILED` update of a handler that has given up: it is unconditional, so it may hit
an order that another handler or the reconciliation has billed meanwhile. -/
namespace CaseCellShop.Shop
open Checkout

abbrev Orders := Table Order.id

def Billed (orders : Orders) (id : String) : Prop :=
  (orders.find? id).map Order.status = some .billed

instance (orders : Orders) (id : String) : Decidable (Billed orders id) :=
  inferInstanceAs (Decidable (_ = _))

theorem billed_iff {orders : Orders} {id : String} :
    Billed orders id ↔ ∃ o, orders.find? id = some o ∧ o.status = .billed :=
  Option.map_eq_some_iff

/-- An order is billed exactly when it has an invoice id. -/
def StatusMatches (orders : Orders) : Prop :=
  ∀ o ∈ orders.rows, o.status = .billed ↔ o.erpInvoiceId.isSome

/-- The order a call is to mark `ERP_FAILED`. -/
def erpFailedOrder : Call → Option String
  | .markErpFailed id _ => some id
  | _ => none

/-- No `ERP_FAILED` update takes effect on a billed order. -/
def failuresSpareBilled : Discipline where
  start _ _ := True
  call w q reply :=
    match erpFailedOrder q with
    | none => True
    | some id => reply.takesEffect → ¬Billed w.db.orders id
  environment _ _ _ := True

variable {P : Platform} {orders : Orders}

/-! ### One write of the orders table -/

theorem billed_after_update {id id' : String} {f : Order → Order} {hf : ∀ o, (f o).id = o.id}
    (h : Billed orders id')
    (hstatus : ∀ o, orders.find? id' = some o → id' = id → (f o).status = .billed) :
    Billed (orders.update id f hf) id' := by
  obtain ⟨o, ho, hb⟩ := billed_iff.mp h
  refine billed_iff.mpr ⟨if id' = id then f o else o, ?_, ?_⟩
  · rw [Table.find?_update, ho]
    rfl
  · by_cases hid : id' = id
    · rw [if_pos hid]
      exact hstatus o ho hid
    · rw [if_neg hid]
      exact hb

theorem statusMatches_update {id : String} {f : Order → Order} {hf : ∀ o, (f o).id = o.id}
    (h : StatusMatches orders)
    (hrow : ∀ o ∈ orders.rows, o.id = id → ((f o).status = .billed ↔ (f o).erpInvoiceId.isSome)) :
    StatusMatches (orders.update id f hf) := by
  intro o ho
  obtain ⟨o', ho', rfl⟩ := List.mem_map.mp ho
  by_cases hid : o'.id = id
  · rw [if_pos hid]
    exact hrow o' ho' hid
  · rw [if_neg hid]
    exact h o' ho'

/-- What is kept of the orders table: the statuses match, and a given order is billed if
it was. -/
def BilledState (id : String) (wasBilled : Prop) (orders : Orders) : Prop :=
  StatusMatches orders ∧ (wasBilled → Billed orders id)

variable {id : String} {wasBilled : Prop}

theorem billedState_executed {w w' : World} {q : Call} (hexecuted : Executed w q w')
    (h : BilledState id wasBilled w.db.orders)
    (hq : ∀ orderId reason, q = .markErpFailed orderId reason → ¬Billed w.db.orders orderId) :
    BilledState id wasBilled w'.db.orders := by
  have hafter := hexecuted.orders
  generalize w'.db.orders = orders at hafter
  cases hafter with
  | same => exact h
  | billed orderId invoiceId =>
    refine ⟨?_, fun hb => ?_⟩
    · exact statusMatches_update h.1 fun o _ _ => ⟨fun _ => rfl, fun _ => rfl⟩
    · exact billed_after_update (h.2 hb) fun o _ _ => rfl
  | erpFailed orderId reason =>
    have hspared := hq orderId reason rfl
    refine ⟨?_, fun hb => ?_⟩
    · refine statusMatches_update h.1 fun o ho hid => ?_
      have hnot : o.status ≠ .billed := fun hs =>
        hspared (billed_iff.mpr ⟨o, hid ▸ Table.find?_key ho, hs⟩)
      have hnone : ¬o.erpInvoiceId.isSome := fun hi => hnot ((h.1 o ho).mpr hi)
      show OrderStatus.erpFailed = .billed ↔ o.erpInvoiceId.isSome
      exact ⟨nofun, fun hi => absurd hi hnone⟩
    · refine billed_after_update (h.2 hb) fun o _ hid => ?_
      exact absurd (hid ▸ h.2 hb) hspared

theorem billedState_checkout {db : Database} (input : CheckoutInput)
    (h : BilledState id wasBilled db.orders) :
    BilledState id wasBilled (checkout P input db).2.1.orders := by
  rcases checkout_db P input db with hdb | ⟨_, _, _, _, _, _, hacc⟩
  · rw [hdb]
    exact h
  · refine ⟨fun o ho => ?_, fun hb => ?_⟩
    · rw [(Table.insert?_eq_some hacc.order).2] at ho
      rcases List.mem_append.mp ho with hold | hnew
      · exact h.1 o hold
      · rw [List.mem_singleton.mp hnew]
        exact ⟨nofun, nofun⟩
    · obtain ⟨o, ho, hs⟩ := billed_iff.mp (h.2 hb)
      exact billed_iff.mpr ⟨o, Table.find?_insert hacc.order ho, hs⟩

theorem kept_billed (id : String) (wasBilled : Prop) :
    (machine P).Kept failuresSpareBilled fun w => BilledState id wasBilled w.db.orders where
  start w task w' program hI _ h := by
    rw [onStart_db h]
    exact hI
  call w q a hI hD := by
    rcases perform_cases (P := P) w q a with hw | ⟨heffect, hw⟩
    · rw [show ((machine P).perform w q a).1 = w from hw]
      exact hI
    · rw [show ((machine P).perform w q a).1 = (execute P w q).1 from hw]
      apply billedState_executed (execute_executed w q) hI
      intro orderId reason hq
      rw [hq] at hD
      exact hD heffect
  crash w task hI := by
    rw [show ((machine P).crash w task).db = w.db from onCrash_db w task]
    exact hI
  environment pending w event w' hI _ h := by
    rcases onEvent_db h with hdb | ⟨input, hdb⟩
    · rw [hdb]
      exact hI
    · rw [hdb]
      exact billedState_checkout input hI

/-- As long as no `ERP_FAILED` update hits a billed order, billed orders stay billed and
status and invoice id agree, from any state of the back office on. -/
theorem billed_is_final (P : Platform) (c c' : Config) (actions : List Action)
    (hc : StatusMatches c.world.db.orders)
    (hspared : (machine P).system.Guarded failuresSpareBilled.allows c actions)
    (hr : (machine P).system.run c actions = some c') :
    StatusMatches c'.world.db.orders ∧
      ∀ id, Billed c.world.db.orders id → Billed c'.world.db.orders id := by
  have hrun := fun id =>
    (kept_billed (P := P) id (Billed c.world.db.orders id)).run ⟨hc, fun h => h⟩ hspared hr
  exact ⟨(hrun "").1, fun id hb => (hrun id).2 hb⟩

instance (w : World) (q : Call) (reply : Reply) : Decidable (failuresSpareBilled.call w q reply) :=
  match h : erpFailedOrder q with
  | none => .isTrue (by simp only [failuresSpareBilled, h])
  | some id => decidable_of_iff (reply.takesEffect → ¬Billed w.db.orders id)
      (by simp only [failuresSpareBilled, h])

instance : ∀ w task, Decidable (failuresSpareBilled.start w task) := fun _ _ => .isTrue trivial

instance : ∀ pending w event, Decidable (failuresSpareBilled.environment pending w event) :=
  fun _ _ _ => .isTrue trivial

/-! ### A late failure -/

/-- Three failed attempts; the fourth message is delivered twice. Handler 5 fails at the
ERP and records its attempt, handler 6 bills the order. -/
def billedByDuplicate : List Action :=
  orderPublished ++ failedAttempt 2 firstMessage ++ failedAttempt 3 (retried 2) ++
    failedAttempt 4 (retried 3) ++
    [.environment (.duplicate 0), .start 5 (.consume 0 (retried 4)), .start 6 (.consume 0 (retried 4))] ++
    replies 5 [.answered, .failed "timeout", .answered] ++
    replies 6 [.answered, .answered, .answered, .answered]

/-- The `ERP_FAILED` update of handler 5 then overwrites the status. -/
theorem billed_overwritten :
    ¬∀ (P : Platform) (w : World) (earlier later : List Action) (c c' : Config),
      w.db.orders.rows = [] → (machine P).system.run (.idle w) earlier = some c →
      (machine P).system.run c later = some c' →
      StatusMatches c'.world.db.orders ∧
        ∀ id, Billed c.world.db.orders id → Billed c'.world.db.orders id := by
  intro h
  have hrun := (h plainPlatform twoProducts billedByDuplicate (replies 5 [.answered]) _ _ rfl
    (run_after _ _ (by decide +kernel)) (run_after _ _ (by decide +kernel))).2 "o1"
  revert hrun
  decide +kernel

/-- A fourth attempt is waiting. -/
def lastAttempt : World := {twoProducts with broker := {Queue.Broker.empty with billing := [retried 4]}}

/-- Its handler loses the ERP's answer and marks the order failed; a reconciliation then
finds the receipt. -/
def repairedAfterFailure : List Action :=
  wholeSync 0 2 ++ [.environment (.checkout firstOrder), .start 1 (.consume 0 (retried 4))] ++
    replies 1 [.answered, .lost "timeout", .answered, .answered, .answered, .answered] ++
    .start 2 .reconcileOrders :: replies 2 [.answered, .answered, .answered]

theorem billed_is_final_repaired :
    ∃ c, (machine plainPlatform).system.run (.idle lastAttempt) repairedAfterFailure = some c ∧
      StatusMatches c.world.db.orders ∧
      ∀ id, Billed lastAttempt.db.orders id → Billed c.world.db.orders id :=
  have hrun := run_after (.idle lastAttempt) repairedAfterFailure (by decide +kernel)
  ⟨_, hrun, billed_is_final plainPlatform (.idle lastAttempt) _ repairedAfterFailure nofun
    (by decide +kernel) hrun⟩

end CaseCellShop.Shop
