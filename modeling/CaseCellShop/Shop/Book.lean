import CaseCellShop.Checkout.Pricing
import CaseCellShop.Library.Correspondence
import CaseCellShop.Shop.System

/-! The order book: what the store is about.

A book lists the accepted checkouts in the order of their acceptance. It is the
abstract state of the ledger: the order, idempotency, outbox and item tables are its
images, up to the columns the workers rewrite, and the reservations are its
quantities. Every action of the back office either appends one entry or leaves the
book as it is (`represents_write`). -/
namespace CaseCellShop.Shop
open Catalog Checkout Correspondence

/-- One accepted checkout. -/
structure Entry where
  call : CheckoutCall
  orderId : String
  eventId : String
  items : List PricedItem

def Entry.order (e : Entry) : Order := newOrder e.call e.orderId e.items

def Entry.event (e : Entry) : OutboxEvent := orderAccepted e.call e.eventId e.order

def Entry.key (e : Entry) : IdempotencyKey := completedKey e.call e.order

def Entry.orderItems (e : Entry) : List OrderItem := e.items.map (newOrderItem e.orderId)

/-- The columns of an order that are written once. -/
structure OrderFacts where
  id : String
  customerId : String
  idempotencyKey : String
  totalCents : Int
  currency : String

def orderFacts (o : Order) : OrderFacts := ⟨o.id, o.customerId, o.idempotencyKey, o.totalCents, o.currency⟩

/-- The columns of an event that are written once. -/
structure EventFacts where
  id : String
  aggregateType : String
  aggregateId : String
  eventType : String
  payload : OrderAcceptedPayload
  orderId : Option String

def eventFacts (e : OutboxEvent) : EventFacts :=
  ⟨e.id, e.aggregateType, e.aggregateId, e.eventType, e.payload, e.orderId⟩

/-- The tables are the images of the book. -/
structure Represents (book : List Entry) (db : Database) : Prop where
  orders : db.orders.rows.map orderFacts = book.map fun e => orderFacts e.order
  keys : db.idempotencyKeys.rows = book.map Entry.key
  events : db.outboxEvents.rows.map eventFacts = book.map fun e => eventFacts e.event
  items : db.orderItems = book.flatMap Entry.orderItems
  reserved : ∀ productId, reservedQty db.inventory productId = orderedQty db.orderItems productId
  positive : ∀ item ∈ db.orderItems, 0 < item.quantity
  column : ∀ e ∈ book, Int4 e.order.totalCents

/-- A store without orders or reservations. -/
structure Pristine (db : Database) : Prop where
  orders : db.orders.rows = []
  keys : db.idempotencyKeys.rows = []
  events : db.outboxEvents.rows = []
  items : db.orderItems = []
  reserved : ∀ row ∈ db.inventory.rows, row.reservedQty = 0

theorem World.fresh_pristine (catalog : List ErpCatalogProduct) : Pristine (World.fresh catalog).db where
  orders := rfl
  keys := rfl
  events := rfl
  items := rfl
  reserved row hrow := by cases hrow

theorem Pristine.represents {db : Database} (h : Pristine db) : Represents [] db where
  orders := by rw [h.orders]; rfl
  keys := h.keys
  events := by rw [h.events]; rfl
  items := h.items
  reserved productId := by
    rw [h.items]
    unfold reservedQty
    cases hrow : db.inventory.find? productId with
    | none => rfl
    | some row => exact h.reserved row (Table.mem_of_find? hrow)
  positive item hitem := by
    rw [h.items] at hitem
    cases hitem
  column e he := by cases he

/-! ### Every action keeps the book or appends to it -/

theorem represents_accepted {book : List Entry} {db db' : Database} {call : CheckoutCall}
    {attempt : Attempt} {result : CheckoutResult} {items : List PricedItem} (h : Represents book db)
    (positive : ∀ line ∈ call.lines, 0 < line.quantity) (ha : Accepted call attempt db db db' result items) :
    Represents (book ++ [⟨call, attempt.orderId, attempt.eventId, items⟩]) db' where
  orders := by
    rw [(Table.insert?_eq_some ha.order).2, List.map_append, List.map_append, h.orders]
    rfl
  keys := by
    rw [(Table.insert?_eq_some ha.key).2, List.map_append, h.keys]
    rfl
  events := by
    rw [(Table.insert?_eq_some ha.event).2, List.map_append, List.map_append, h.events]
    rfl
  items := by
    rw [ha.orderItems, List.flatMap_append, h.items]
    simp [Entry.orderItems]
  reserved productId := by
    rw [ha.orderItems, orderedQty_append, orderedQty_priced ha.priced, ha.reserved.reservedQty_eq, h.reserved]
  positive item hitem := by
    rw [ha.orderItems, List.mem_append] at hitem
    rcases hitem with hold | hnew
    · exact h.positive item hold
    · obtain ⟨priced, hpriced, rfl⟩ := List.mem_map.mp hnew
      obtain ⟨line, hline, hprice⟩ := Script.mem_of_mapM_ok ha.priced hpriced
      have hqty := (priceItem_ok hprice).2.1
      have hpos := positive line hline
      show (0 : Int) < priced.quantity
      omega
  column e he := by
    rcases List.mem_append.mp he with hold | hnew
    · exact h.column e hold
    · rw [List.mem_singleton.mp hnew]
      exact ha.total

theorem represents_synced {book : List Entry} {db db' : Database} {clock : Clock}
    {current : Option Inventory} {product : ErpCatalogProduct} (h : Represents book db)
    (hs : Synced clock current product db db') : Represents book db' := by
  have hothers := hs.others
  refine ⟨?_, ?_, ?_, ?_, ?_, ?_, h.column⟩
  · rw [hothers]
    exact h.orders
  · rw [hothers]
    exact h.keys
  · rw [hothers]
    exact h.events
  · rw [hothers]
    exact h.items
  · intro productId
    have hitems : db'.orderItems = db.orderItems := by rw [hothers]
    rw [hitems, hs.inventory, reservedQty_set, ← h.reserved]
    -- The row keeps its reservation if there is one, and starts with none if it is new.
    unfold syncedInventory reservedQty
    cases hrow : db.inventory.find? product.id with
    | none =>
      show (if productId = product.id then 0 else _) = _
      by_cases hp : productId = product.id
      · rw [if_pos hp, hp, hrow]
      · rw [if_neg hp]
    | some row =>
      have hid : row.productId = product.id := Table.key_of_find? hrow
      show (if productId = row.productId then row.reservedQty else _) = _
      by_cases hp : productId = row.productId
      · rw [if_pos hp, hp, hid, hrow]
      · rw [if_neg hp]
  · rw [show db'.orderItems = db.orderItems by rw [hothers]]
    exact h.positive

theorem Represents.orders_update {book : List Entry} {db : Database} (h : Represents book db) (id : String)
    (f : Order → Order) {hf : ∀ o, (f o).id = o.id} (hfacts : ∀ o, orderFacts (f o) = orderFacts o) :
    Represents book {db with orders := db.orders.update id f hf} :=
  {h with orders := (Table.map_update db.orders id f hf hfacts).trans h.orders}

theorem Represents.events_update {book : List Entry} {db : Database} (h : Represents book db) (id : String)
    (f : OutboxEvent → OutboxEvent) {hf : ∀ e, (f e).id = e.id}
    (hfacts : ∀ e, eventFacts (f e) = eventFacts e) :
    Represents book {db with outboxEvents := db.outboxEvents.update id f hf} :=
  {h with events := (Table.map_update db.outboxEvents id f hf hfacts).trans h.events}

theorem Represents.same {book : List Entry} {db : Database} (h : Represents book db) :
    ∃ added, Represents (book ++ added) db :=
  ⟨[], by rw [List.append_nil]; exact h⟩

/-- One write of the store is one step of the book, or none. -/
theorem represents_write {book : List Entry} {db db' : Database} (h : Represents book db)
    (hw : Write db db') : ∃ added, Represents (book ++ added) db' := by
  cases hw with
  | accepted positive ha => exact ⟨_, represents_accepted h positive ha⟩
  | synced hs => exact (represents_synced h hs).same
  | billed id invoiceId => exact (h.orders_update id (Order.billed invoiceId) fun _ => rfl).same
  | erpFailed id reason => exact (h.orders_update id (Order.erpFailed reason) fun _ => rfl).same
  | published id => exact (h.events_update id OutboxEvent.markPublished fun _ => rfl).same
  | eventFailed id lastError => exact (h.events_update id (OutboxEvent.markFailed lastError) fun _ => rfl).same
  | nothing => exact h.same
  | deactivated now activeIds => exact Represents.same {h with}
  | bumped version => exact Represents.same {h with}
  | attempted attempts => exact Represents.same {h with}

/-- The store of every reachable state is represented by some book. -/
theorem represented_run {P : Platform} {c c' : Config} {actions : List Action}
    (h : ∃ book, Represents book c.world.db) (hr : (machine P).system.run c actions = some c') :
    ∃ book, Represents book c'.world.db := by
  have hkept := kept_of_write (P := P) (J := fun db => ∃ book, Represents book db)
    (fun db db' hw hbook => by
      obtain ⟨book, hbook⟩ := hbook
      obtain ⟨added, hadded⟩ := represents_write hbook hw
      exact ⟨_, hadded⟩) .any
  exact hkept.run_any h hr

end CaseCellShop.Shop
