import CaseCellShop.Shop.Book

/-! The ledger: orders, idempotency rows, outbox events, items and reservations tell the
same story in every reachable state of the back office. -/
namespace CaseCellShop.Shop
open Catalog Checkout Correspondence

/-- The idempotency row of an order, with the response it stores. -/
def StoredFor (o : Order) (k : IdempotencyKey) : Prop :=
  k.status = .completed ∧ k.customerId = o.customerId ∧ k.key = o.idempotencyKey ∧
    k.orderId = some o.id ∧ ∃ response, k.responseBody = some response ∧ response.orderId = o.id ∧
      response.totalCents = o.totalCents ∧ response.currency = o.currency

/-- The `OrderAccepted` event of an order. -/
def AnnouncedBy (o : Order) (e : OutboxEvent) : Prop :=
  e.eventType = "OrderAccepted" ∧ e.aggregateId = o.id ∧ e.payload.orderId = o.id

def itemsOf (db : Database) (orderId : String) : List OrderItem :=
  db.orderItems.filter fun item => item.orderId = orderId

structure Ledger (db : Database) : Prop where
  keys : OneToOne StoredFor db.orders.rows db.idempotencyKeys.rows
  events : OneToOne AnnouncedBy db.orders.rows db.outboxEvents.rows
  oneOrderPerKey : ∀ o ∈ db.orders.rows, ∀ o' ∈ db.orders.rows,
    o.customerId = o'.customerId → o.idempotencyKey = o'.idempotencyKey → o = o'
  total : ∀ o ∈ db.orders.rows, o.totalCents = numberTotal (itemsOf db o.id)
  exact : ∀ o ∈ db.orders.rows, (∀ item ∈ itemsOf db o.id, 0 ≤ item.unitPriceCents) →
    o.totalCents = exactTotal (itemsOf db o.id)
  reserved : ∀ productId, reservedQty db.inventory productId = orderedQty db.orderItems productId

variable {book : List Entry} {db : Database}

theorem Represents.ids (h : Represents book db) : book.map Entry.orderId = db.orders.rows.map Order.id := by
  have hids := congrArg (List.map OrderFacts.id) h.orders
  rw [List.map_map, List.map_map] at hids
  exact hids.symm

theorem Represents.ids_nodup (h : Represents book db) : (book.map Entry.orderId).Nodup := by
  rw [h.ids]
  exact db.orders.nodup

theorem facts_nodup (db : Database) : (db.orders.rows.map orderFacts).Nodup := by
  apply List.Nodup.of_map OrderFacts.id
  rw [List.map_map]
  exact db.orders.nodup

theorem events_nodup (db : Database) : (db.outboxEvents.rows.map eventFacts).Nodup := by
  apply List.Nodup.of_map EventFacts.id
  rw [List.map_map]
  exact db.outboxEvents.nodup

theorem Represents.entry_eq (h : Represents book db) {x y : Entry} (hx : x ∈ book) (hy : y ∈ book)
    (hid : x.orderId = y.orderId) : x = y :=
  List.inj_on_of_nodup_map h.ids_nodup hx hy hid

theorem Represents.keys_oneToOne (h : Represents book db) :
    OneToOne StoredFor db.orders.rows db.idempotencyKeys.rows := by
  have hkeys : db.idempotencyKeys.rows.map id = book.map Entry.key := by
    rw [List.map_id]
    exact h.keys
  have hnodup : (db.idempotencyKeys.rows.map id).Nodup := by
    rw [List.map_id]
    exact db.idempotencyKeys.rows_nodup
  refine oneToOne_of_images (r := fun (o : OrderFacts) (k : IdempotencyKey) =>
    k.status = .completed ∧ k.customerId = o.customerId ∧ k.key = o.idempotencyKey ∧
      k.orderId = some o.id ∧ ∃ response, k.responseBody = some response ∧ response.orderId = o.id ∧
        response.totalCents = o.totalCents ∧ response.currency = o.currency)
    h.orders hkeys (facts_nodup db) hnodup ?_ ?_
  · intro x _
    exact ⟨rfl, rfl, rfl, rfl, _, rfl, rfl, rfl, rfl⟩
  · intro x hx y hy ⟨_, _, _, hid, _⟩
    exact h.entry_eq hx hy (Option.some.inj hid).symm

theorem Represents.events_oneToOne (h : Represents book db) :
    OneToOne AnnouncedBy db.orders.rows db.outboxEvents.rows := by
  refine oneToOne_of_images (r := fun (o : OrderFacts) (e : EventFacts) =>
    e.eventType = "OrderAccepted" ∧ e.aggregateId = o.id ∧ e.payload.orderId = o.id)
    h.orders h.events (facts_nodup db) (events_nodup db) ?_ ?_
  · intro x _
    exact ⟨rfl, rfl, rfl⟩
  · intro x hx y hy ⟨_, hid, _⟩
    exact h.entry_eq hx hy hid.symm

/-- The items stored for an accepted order are its own. -/
theorem Represents.itemsOf_entry (h : Represents book db) {e : Entry} (he : e ∈ book) :
    itemsOf db e.orderId = e.orderItems := by
  unfold itemsOf
  rw [h.items]
  apply filter_flatMap_group h.ids_nodup _ he
  intro x _ item hitem
  obtain ⟨priced, _, rfl⟩ := List.mem_map.mp hitem
  rfl

theorem Represents.ledger (h : Represents book db) : Ledger db := by
  have horder : ∀ o ∈ db.orders.rows, ∃ e ∈ book, orderFacts e.order = orderFacts o :=
    fun o ho => exists_fact h.orders ho
  have htotal : ∀ o ∈ db.orders.rows, o.totalCents = numberTotal (itemsOf db o.id) ∧
      Int4 (numberTotal (itemsOf db o.id)) := by
    intro o ho
    obtain ⟨e, he, hfacts⟩ := horder o ho
    have hid : e.orderId = o.id := congrArg OrderFacts.id hfacts
    have hcents : totalCents e.items = o.totalCents := congrArg OrderFacts.totalCents hfacts
    have hsum : numberTotal (itemsOf db o.id) = totalCents e.items := by
      rw [← hid, h.itemsOf_entry he]
      exact numberTotal_items _ _
    rw [hsum]
    exact ⟨hcents.symm, h.column e he⟩
  refine ⟨h.keys_oneToOne, h.events_oneToOne, ?_, fun o ho => (htotal o ho).1, ?_, h.reserved⟩
  · intro o ho o' ho' hcustomer hkey
    obtain ⟨e, he, hfacts⟩ := horder o ho
    obtain ⟨e', he', hfacts'⟩ := horder o' ho'
    have hnodup : (book.map fun x => x.key.customerKey).Nodup := by
      have hkeys := db.idempotencyKeys.nodup
      rw [h.keys, List.map_map] at hkeys
      exact hkeys
    have hsame : e.key.customerKey = e'.key.customerKey := by
      have hc : e.call.customerId = o.customerId := congrArg OrderFacts.customerId hfacts
      have hk : e.call.idempotencyKey = o.idempotencyKey := congrArg OrderFacts.idempotencyKey hfacts
      have hc' : e'.call.customerId = o'.customerId := congrArg OrderFacts.customerId hfacts'
      have hk' : e'.call.idempotencyKey = o'.idempotencyKey := congrArg OrderFacts.idempotencyKey hfacts'
      show (e.call.customerId, e.call.idempotencyKey) = (e'.call.customerId, e'.call.idempotencyKey)
      rw [hc, hk, hc', hk', hcustomer, hkey]
    have hentry := List.inj_on_of_nodup_map hnodup he he' hsame
    apply List.inj_on_of_nodup_map (facts_nodup db) ho ho'
    rw [← hfacts, ← hfacts', hentry]
  · intro o ho hprices
    rw [(htotal o ho).1]
    apply numberTotal_exact _ (htotal o ho).2
    intro item hitem
    exact ⟨(h.positive item (List.mem_of_mem_filter hitem)).le, hprices item hitem⟩

/-- Every state reached from a store without orders has a consistent ledger. -/
theorem ledger_reachable (P : Platform) (w : World) (actions : List Action) (c : Config)
    (hw : Pristine w.db) (hr : (machine P).system.run (.idle w) actions = some c) : Ledger c.world.db := by
  obtain ⟨book, hbook⟩ := represented_run ⟨[], hw.represents⟩ hr
  exact hbook.ledger

/-- Two lines whose Numbers cancel: 2^54 + 2^28 + 1 is rounded, its counterpart is not. -/
def cancellingOrder : List Action :=
  wholeSync 0 2 ++
    [.environment (.checkout (orderRequest "c" "k" "o" [⟨"p1", 134217729⟩, ⟨"p2", 134217728⟩]))]

def cancellingPrices : World :=
  World.fresh [listed "p1" 134217729 134217729, listed "p2" (-134217730) 134217728]

/-- With a negative price a total need not be the exact sum: it is 0 here, the sum 1. -/
theorem exact_total_fails :
    ¬∀ (P : Platform) (w : World) (actions : List Action) (c : Config), Pristine w.db →
      (machine P).system.run (.idle w) actions = some c →
      ∀ o ∈ c.world.db.orders.rows, o.totalCents = exactTotal (itemsOf c.world.db o.id) := by
  intro h
  have hrun := h plainPlatform cancellingPrices cancellingOrder _ (World.fresh_pristine _)
    (run_after _ _ (by decide +kernel))
  revert hrun
  decide +kernel

/-- Orders of two customers, one of them sent twice. -/
def threeCheckouts : List Action :=
  wholeSync 0 2 ++
    [.environment (.checkout (orderRequest "c1" "k" "o1" [⟨"p2", 1⟩, ⟨"p1", 2⟩])),
      .environment (.checkout (orderRequest "c1" "k" "o2" [⟨"p2", 1⟩, ⟨"p1", 2⟩])),
      .environment (.checkout (orderRequest "c2" "k" "o3" [⟨"p2", 1⟩]))]

theorem ledger_reachable_orders :
    ∃ c, (machine plainPlatform).system.run (.idle twoProducts) threeCheckouts = some c ∧
      Ledger c.world.db :=
  have hrun := run_after (.idle twoProducts) threeCheckouts (by decide +kernel)
  ⟨_, hrun, ledger_reachable plainPlatform twoProducts threeCheckouts _ (World.fresh_pristine _) hrun⟩

end CaseCellShop.Shop
