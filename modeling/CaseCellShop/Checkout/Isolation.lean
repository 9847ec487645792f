import CaseCellShop.Checkout.Failures
import CaseCellShop.Checkout.Service

/-! What one customer's checkouts have to do with another's.

A checkout reads the catalog, the inventory rows of its lines and the rows under its
customer and key, and it writes only these and new rows under new ids. So two runs that
agree there answer alike, whatever others have ordered in between. The ids a run
generates are its own, so two runs are compared up to a renaming of ids. -/
namespace CaseCellShop

/-! ### Renamed ids -/

section Rename
variable (ρ : String → String)

def CheckoutAcceptedResponse.rename (r : CheckoutAcceptedResponse) : CheckoutAcceptedResponse :=
  {r with orderId := ρ r.orderId}

def Order.rename (o : Order) : Order := {o with id := ρ o.id}

def OrderItem.rename (item : OrderItem) : OrderItem := {item with orderId := ρ item.orderId}

def IdempotencyKey.rename (r : IdempotencyKey) : IdempotencyKey :=
  {r with responseBody := r.responseBody.map (CheckoutAcceptedResponse.rename ρ), orderId := r.orderId.map ρ}

def OutboxEvent.rename (e : OutboxEvent) : OutboxEvent :=
  {e with
    id := ρ e.id
    aggregateId := ρ e.aggregateId
    payload := {e.payload with orderId := ρ e.payload.orderId}
    orderId := e.orderId.map ρ}

end Rename

end CaseCellShop

namespace CaseCellShop.Checkout
open Script

section Rename
variable (ρ : String → String)

def CheckoutResult.rename (r : CheckoutResult) : CheckoutResult := {r with body := r.body.rename ρ}

def Attempt.rename (a : Attempt) : Attempt := {a with orderId := ρ a.orderId, eventId := ρ a.eventId}

/-- The same request, to which other ids are handed. -/
def CheckoutInput.rename (input : CheckoutInput) : CheckoutInput :=
  {input with attempts := fun n => (input.attempts n).rename ρ}

def Existing.rename : Existing → Existing
  | .refuse message => .refuse message
  | .replay orderId response => .replay (orderId.map ρ) (response.rename ρ)
  | .proceed => .proceed

theorem checkExisting_rename (requestHash : String) (row : Option IdempotencyKey) :
    checkExisting requestHash (row.map (IdempotencyKey.rename ρ)) = (checkExisting requestHash row).rename ρ := by
  cases row with
  | none => rfl
  | some existing =>
    by_cases hhash : existing.requestHash = requestHash
    · cases hstatus : existing.status <;> cases hbody : existing.responseBody <;>
        simp [checkExisting, IdempotencyKey.rename, Existing.rename, hhash, hstatus, hbody]
    · simp [checkExisting, IdempotencyKey.rename, Existing.rename, hhash]

end Rename

/-! ### The rows of a customer -/

structure CustomerRows where
  orders : List Order
  items : List OrderItem
  idempotencyKeys : List IdempotencyKey
  outboxEvents : List OutboxEvent
  deriving DecidableEq

/-- The orders of a customer, their items, and the customer's idempotency rows and
events. -/
def customerRows (customerId : String) (db : Database) : CustomerRows where
  orders := db.orders.rows.filter fun o => o.customerId = customerId
  items := db.orderItems.filter fun item => (db.orders.find? item.orderId).any fun o => o.customerId = customerId
  idempotencyKeys := db.idempotencyKeys.rows.filter fun r => r.customerId = customerId
  outboxEvents := db.outboxEvents.rows.filter fun e => e.payload.customerId = customerId

def CustomerRows.rename (ρ : String → String) (rows : CustomerRows) : CustomerRows where
  orders := rows.orders.map (Order.rename ρ)
  items := rows.items.map (OrderItem.rename ρ)
  idempotencyKeys := rows.idempotencyKeys.map (IdempotencyKey.rename ρ)
  outboxEvents := rows.outboxEvents.map (OutboxEvent.rename ρ)

def CustomerRows.append (rows new : CustomerRows) : CustomerRows where
  orders := rows.orders ++ new.orders
  items := rows.items ++ new.items
  idempotencyKeys := rows.idempotencyKeys ++ new.idempotencyKeys
  outboxEvents := rows.outboxEvents ++ new.outboxEvents

theorem CustomerRows.rename_append (ρ : String → String) (rows new : CustomerRows) :
    (rows.append new).rename ρ = (rows.rename ρ).append (new.rename ρ) := by
  simp [CustomerRows.rename, CustomerRows.append]

/-- The rows of an accepted order. -/
def acceptedRows (call : CheckoutCall) (attempt : Attempt) (items : List PricedItem) : CustomerRows where
  orders := [newOrder call attempt.orderId items]
  items := items.map (newOrderItem attempt.orderId)
  idempotencyKeys := [completedKey call (newOrder call attempt.orderId items)]
  outboxEvents := [orderAccepted call attempt.eventId (newOrder call attempt.orderId items)]

theorem acceptedRows_rename (ρ : String → String) (call : CheckoutCall) (attempt : Attempt)
    (items : List PricedItem) :
    (acceptedRows call attempt items).rename ρ = acceptedRows call (attempt.rename ρ) items := by
  simp only [acceptedRows, CustomerRows.rename, List.map_map, List.map_cons, List.map_nil]
  rfl

/-- The foreign key of the items. -/
def ItemsReferred (db : Database) : Prop := ∀ item ∈ db.orderItems, (db.orders.find? item.orderId).isSome

section Accepted
variable {call : CheckoutCall} {attempt : Attempt} {db db' : Database} {result : CheckoutResult}
    {items : List PricedItem}

theorem Accepted.find?_order (h : Accepted call attempt db db db' result items) {id : String} {o : Order}
    (ho : db.orders.find? id = some o) : db'.orders.find? id = some o :=
  Table.find?_insert h.order ho

theorem Accepted.find?_newOrder (h : Accepted call attempt db db db' result items) :
    db'.orders.find? attempt.orderId = some (newOrder call attempt.orderId items) :=
  Table.find?_inserted h.order

theorem Accepted.referred (h : Accepted call attempt db db db' result items) (hdb : ItemsReferred db) :
    ItemsReferred db' := by
  intro item hitem
  rw [h.orderItems, List.mem_append, List.mem_map] at hitem
  rcases hitem with hitem | ⟨_, _, rfl⟩
  · obtain ⟨o, ho⟩ := Option.isSome_iff_exists.mp (hdb item hitem)
    simp [h.find?_order ho]
  · simp [newOrderItem, h.find?_newOrder]

/-- An accepted order adds its rows to those of its customer, and none to those of
others. -/
theorem Accepted.customerRows (h : Accepted call attempt db db db' result items) (hdb : ItemsReferred db)
    (customerId : String) :
    customerRows customerId db' =
      if call.customerId = customerId then (customerRows customerId db).append (acceptedRows call attempt items)
      else customerRows customerId db := by
  have horders := (Table.insert?_eq_some h.order).2
  have hkeys := (Table.insert?_eq_some h.key).2
  have hevents := (Table.insert?_eq_some h.event).2
  have hold : db.orderItems.filter (fun item => (db'.orders.find? item.orderId).any fun o => o.customerId = customerId) =
      db.orderItems.filter (fun item => (db.orders.find? item.orderId).any fun o => o.customerId = customerId) := by
    apply List.filter_congr
    intro item hitem
    obtain ⟨o, ho⟩ := Option.isSome_iff_exists.mp (hdb item hitem)
    rw [h.find?_order ho, ho]
  have hnew : (items.map (newOrderItem attempt.orderId)).filter
      (fun item => (db'.orders.find? item.orderId).any fun o => o.customerId = customerId) =
        if call.customerId = customerId then items.map (newOrderItem attempt.orderId) else [] := by
    by_cases hcustomer : call.customerId = customerId <;>
      simp [List.filter_map, Function.comp_def, newOrderItem, h.find?_newOrder, newOrder, hcustomer]
  simp only [Checkout.customerRows, horders, hkeys, hevents, h.orderItems, List.filter_append, hold, hnew]
  by_cases hcustomer : call.customerId = customerId <;>
    simp [CustomerRows.append, acceptedRows, newOrder, completedKey, orderAccepted, hcustomer]

end Accepted

/-! ### One transaction in two runs -/

section TwoRuns
variable (ρ : String → String) (call : CheckoutCall) (attempt : Attempt)

/-- What decides the insert of the idempotency row, and the faults still to come. -/
structure KeysAlike (tx tx' : Tx) : Prop where
  faults : tx'.faults = tx.faults
  key : tx'.db.idempotencyKeys.find? (call.customerId, call.idempotencyKey) =
    (tx.db.idempotencyKeys.find? (call.customerId, call.idempotencyKey)).map (IdempotencyKey.rename ρ)
  unused : ∀ r ∈ tx.db.idempotencyKeys.rows, r.orderId ≠ some attempt.orderId
  unused' : ∀ r ∈ tx'.db.idempotencyKeys.rows, r.orderId ≠ some (ρ attempt.orderId)

/-- What decides the inserts after the order's. -/
structure EventsAlike (tx tx' : Tx) : Prop extends KeysAlike ρ call attempt tx tx' where
  event : tx.db.outboxEvents.find? attempt.eventId = none
  event' : tx'.db.outboxEvents.find? (ρ attempt.eventId) = none

/-- What decides a whole attempt. -/
structure TxAlike (tx tx' : Tx) : Prop extends EventsAlike ρ call attempt tx tx' where
  products : tx'.snapshot.products = tx.snapshot.products
  prices : tx'.snapshot.prices = tx.snapshot.prices
  row : tx'.snapshot.idempotencyKeys.find? (call.customerId, call.idempotencyKey) =
    (tx.snapshot.idempotencyKeys.find? (call.customerId, call.idempotencyKey)).map (IdempotencyKey.rename ρ)
  snapshot : ∀ line ∈ call.lines,
    tx'.snapshot.inventory.find? line.productId = tx.snapshot.inventory.find? line.productId
  inventory : ∀ line ∈ call.lines, tx'.db.inventory.find? line.productId = tx.db.inventory.find? line.productId
  placed : (∃ o ∈ tx'.db.orders.rows, o.customerId = call.customerId ∧ o.idempotencyKey = call.idempotencyKey) ↔
    ∃ o ∈ tx.db.orders.rows, o.customerId = call.customerId ∧ o.idempotencyKey = call.idempotencyKey
  order : tx.db.orders.find? attempt.orderId = none
  order' : tx'.db.orders.find? (ρ attempt.orderId) = none

variable {ρ call attempt}

/-- A statement meets the same fault in both runs. -/
theorem statement_matched {R : Tx → Tx → Prop} {tx tx' : Tx} (hfaults : tx'.faults = tx.faults)
    (hR : ∀ rest, R {tx with faults := rest} {tx' with faults := rest}) :
    Matched (fun _ _ => True) R (statement tx) (statement tx') := by
  have htx : R tx tx' := by
    obtain ⟨_, _, _, faults⟩ := tx
    obtain ⟨_, _, _, _⟩ := tx'
    cases hfaults
    exact hR faults
  unfold statement
  rw [hfaults]
  match tx.faults with
  | [] => exact .ok trivial htx
  | none :: rest => exact .ok trivial (hR rest)
  | some e :: rest => exact .error _ _ _

theorem TxAlike.under {tx tx' : Tx} (h : TxAlike ρ call attempt tx tx') (rest : List (Option DbError)) :
    TxAlike ρ call attempt {tx with faults := rest} {tx' with faults := rest} :=
  {h with faults := rfl}

theorem acquireLocks_matched (locks : List String) {tx tx' : Tx} (h : TxAlike ρ call attempt tx tx') :
    Matched (fun _ _ => True) (TxAlike ρ call attempt) (acquireLocks locks tx) (acquireLocks locks tx') := by
  induction locks generalizing tx tx' with
  | nil => exact .ok trivial h
  | cons lock rest ih =>
    exact matched_bind (statement_matched h.faults h.under) fun _ _ _ _ _ h => ih h

theorem priceItem_congr {db db' : Database} (hprices : db'.prices = db.prices) (products : List Product) :
    priceItem db' products = priceItem db products := by
  funext line
  simp only [priceItem, hprices]

theorem priceItems_matched {tx tx' : Tx} (h : TxAlike ρ call attempt tx tx') :
    Matched (fun items items' => items' = items) (TxAlike ρ call attempt) (priceItems call tx) (priceItems call tx') := by
  refine matched_bind (statement_matched h.faults h.under) fun _ _ tx tx' _ h => ?_
  rw [get_bind, get_bind]
  have hproducts : requestedProducts call.lines tx'.snapshot = requestedProducts call.lines tx.snapshot := by
    simp only [requestedProducts, h.products]
  rw [hproducts, priceItem_congr h.prices]
  by_cases hlength : (requestedProducts call.lines tx.snapshot).length ≠ call.lines.length
  · rw [if_pos hlength]
    exact .error _ _ _
  · rw [if_neg hlength]
    cases call.lines.mapM (priceItem tx.snapshot (requestedProducts call.lines tx.snapshot)) with
    | ok items => exact .ok rfl h
    | error e => exact .error _ _ _

theorem reserve_matched {line : CheckoutLine} (hline : line ∈ call.lines) {tx tx' : Tx}
    (h : TxAlike ρ call attempt tx tx') :
    Matched (fun _ _ => True) (TxAlike ρ call attempt) (reserve line tx) (reserve line tx') := by
  refine matched_require_bind Iff.rfl fun _ => ?_
  refine matched_bind (statement_matched h.faults h.under) fun _ _ tx tx' _ h => ?_
  rw [get_bind, get_bind, h.snapshot line hline]
  cases tx.snapshot.inventory.find? line.productId with
  | none => exact .error _ _ _
  | some row =>
    dsimp only
    by_cases hlow : row.availableQty < line.quantity
    · rw [if_pos hlow, if_pos hlow]
      exact .error _ _ _
    · rw [if_neg hlow, if_neg hlow]
      have hstore : tx'.db.inventory.find? line.productId = some row ↔ tx.db.inventory.find? line.productId = some row := by
        rw [h.inventory line hline]
      refine matched_require_bind hstore fun _ => ?_
      refine matched_require_bind Iff.rfl fun _ => .ok trivial ?_
      exact {h with
        snapshot := fun l hl => Table.find?_set_congr (h.snapshot l hl)
        inventory := fun l hl => Table.find?_set_congr (h.inventory l hl)}

theorem reserveAll_matched {lines : List CheckoutLine} (hlines : ∀ line ∈ lines, line ∈ call.lines) {tx tx' : Tx}
    (h : TxAlike ρ call attempt tx tx') :
    Matched (fun _ _ => True) (TxAlike ρ call attempt) (reserveAll lines tx) (reserveAll lines tx') := by
  induction lines generalizing tx tx' with
  | nil => exact .ok trivial h
  | cons line rest ih =>
    refine matched_bind (reserve_matched (hlines line (.head rest)) h) fun _ _ _ _ _ h => ?_
    exact ih (fun l hl => hlines l (.tail line hl)) h

theorem createOrder_matched (items : List PricedItem) {tx tx' : Tx} (h : TxAlike ρ call attempt tx tx') :
    Matched (fun _ _ => True) (EventsAlike ρ call attempt) (createOrder (newOrder call attempt.orderId items) items tx)
      (createOrder (newOrder call (ρ attempt.orderId) items) items tx') := by
  refine matched_require_bind Iff.rfl fun _ => ?_
  refine matched_bind (statement_matched h.faults h.under) fun _ _ tx tx' _ h => ?_
  rw [get_bind, get_bind]
  have hplaced : (∀ o ∈ tx'.db.orders.rows, ¬(o.customerId = call.customerId ∧ o.idempotencyKey = call.idempotencyKey)) ↔
      ∀ o ∈ tx.db.orders.rows, ¬(o.customerId = call.customerId ∧ o.idempotencyKey = call.idempotencyKey) := by
    have := not_congr h.placed
    push Not at this
    simpa using this
  refine matched_require_bind hplaced fun _ => ?_
  obtain ⟨orders, horders, _⟩ := Table.insert?_of_fresh (r := newOrder call attempt.orderId items) h.order
  obtain ⟨orders', horders', _⟩ := Table.insert?_of_fresh (r := newOrder call (ρ attempt.orderId) items) h.order'
  rw [horders, horders']
  exact .ok trivial {h with}

theorem record_matched (f g : Telemetry → Telemetry) {tx tx' : Tx} (h : EventsAlike ρ call attempt tx tx') :
    Matched (fun _ _ => True) (EventsAlike ρ call attempt) (record f tx) (record g tx') :=
  .ok trivial {h with}

theorem createOutboxEvent_matched (items : List PricedItem) {tx tx' : Tx} (h : EventsAlike ρ call attempt tx tx') :
    Matched (fun _ _ => True) (KeysAlike ρ call attempt)
      (createOutboxEvent (orderAccepted call attempt.eventId (newOrder call attempt.orderId items)) tx)
      (createOutboxEvent (orderAccepted call (ρ attempt.eventId) (newOrder call (ρ attempt.orderId) items)) tx') := by
  have hunder : ∀ rest, EventsAlike ρ call attempt {tx with faults := rest} {tx' with faults := rest} :=
    fun rest => {h with faults := rfl}
  refine matched_bind (statement_matched h.faults hunder) fun _ _ tx tx' _ h => ?_
  rw [get_bind, get_bind]
  obtain ⟨events, hevents, _⟩ := Table.insert?_of_fresh
    (r := orderAccepted call attempt.eventId (newOrder call attempt.orderId items)) h.event
  obtain ⟨events', hevents', _⟩ := Table.insert?_of_fresh
    (r := orderAccepted call (ρ attempt.eventId) (newOrder call (ρ attempt.orderId) items)) h.event'
  rw [hevents, hevents']
  exact .ok trivial {h with}

theorem createIdempotencyKey_matched (items : List PricedItem) {tx tx' : Tx} (h : KeysAlike ρ call attempt tx tx') :
    Matched (fun _ _ => True) (fun tx tx' => tx'.faults = tx.faults)
      (createIdempotencyKey (completedKey call (newOrder call attempt.orderId items)) tx)
      (createIdempotencyKey (completedKey call (newOrder call (ρ attempt.orderId) items)) tx') := by
  have hunder : ∀ rest, KeysAlike ρ call attempt {tx with faults := rest} {tx' with faults := rest} :=
    fun rest => {h with faults := rfl}
  refine matched_bind (statement_matched h.faults hunder) fun _ _ tx tx' _ h => ?_
  rw [get_bind, get_bind]
  refine matched_require_bind (iff_of_true (fun r hr => .inr (h.unused' r hr)) fun r hr => .inr (h.unused r hr)) fun _ => ?_
  have hkey := h.key
  cases hrow : tx.db.idempotencyKeys.find? (call.customerId, call.idempotencyKey) with
  | none =>
    rw [hrow] at hkey
    obtain ⟨keys, hkeys, _⟩ := Table.insert?_of_fresh
      (r := completedKey call (newOrder call attempt.orderId items)) hrow
    obtain ⟨keys', hkeys', _⟩ := Table.insert?_of_fresh
      (r := completedKey call (newOrder call (ρ attempt.orderId) items)) hkey
    rw [hkeys, hkeys']
    exact .ok trivial h.faults
  | some row =>
    rw [hrow] at hkey
    have htaken : tx.db.idempotencyKeys.insert? (completedKey call (newOrder call attempt.orderId items)) = none :=
      Table.insert?_eq_none.mpr ⟨row, Table.find?_eq_some.mp hrow⟩
    have htaken' : tx'.db.idempotencyKeys.insert? (completedKey call (newOrder call (ρ attempt.orderId) items)) = none :=
      Table.insert?_eq_none.mpr ⟨_, Table.find?_eq_some.mp hkey⟩
    rw [htaken, htaken']
    exact .error _ _ _

/-- Up to the ids an attempt returns or throws the same in both runs. -/
theorem transact_matched {tx tx' : Tx} (h : TxAlike ρ call attempt tx tx') :
    Matched (fun result result' => result' = result.rename ρ) (fun _ _ => True) (transact call attempt tx)
      (transact call (attempt.rename ρ) tx') := by
  have hcallback : Matched (fun result result' => result' = result.rename ρ) (fun tx tx' => tx'.faults = tx.faults)
      (checkoutTransaction call attempt tx) (checkoutTransaction call (attempt.rename ρ) tx') := by
    refine matched_bind (acquireLocks_matched _ h) fun _ _ tx tx' _ h => ?_
    refine matched_bind (statement_matched h.faults h.under) fun _ _ tx tx' _ h => ?_
    rw [get_bind, get_bind, h.row, checkExisting_rename]
    cases checkExisting call.requestHash
        (tx.snapshot.idempotencyKeys.find? (call.customerId, call.idempotencyKey)) with
    | refuse message => exact .error _ _ _
    | replay orderId response => exact .ok rfl h.faults
    | proceed =>
      refine matched_bind (priceItems_matched h) fun _ items tx tx' hitems h => ?_
      subst hitems
      refine matched_bind (reserveAll_matched (fun _ hline => hline) h) fun _ _ tx tx' _ h => ?_
      refine matched_bind (createOrder_matched items h) fun _ _ tx tx' _ h => ?_
      refine matched_bind (record_matched _ _ h) fun _ _ tx tx' _ h => ?_
      refine matched_bind (createOutboxEvent_matched items h) fun _ _ tx tx' _ h => ?_
      refine matched_bind (createIdempotencyKey_matched items h) fun _ _ tx tx' _ h => ?_
      exact .ok rfl h
  refine matched_bind hcallback fun result _ tx tx' hresult h => ?_
  subst hresult
  exact matched_bind (statement_matched (R := fun _ _ => True) h fun _ => trivial) fun _ _ _ _ _ _ => .ok rfl trivial

end TwoRuns

/-! ### One checkout in two runs -/

/-- What a customer's checkouts depend on: the products and the keys of the checkouts they
are compared among, and how ids are renamed. -/
structure Scope where
  rename : String → String
  products : Set String
  keys : Set (String × String)
  customer : String

/-- Two stores agree on what is in scope. -/
structure Alike (S : Scope) (db db' : Database) : Prop where
  products : db'.products = db.products
  prices : db'.prices = db.prices
  inventory : ∀ id ∈ S.products, db'.inventory.find? id = db.inventory.find? id
  keys : ∀ key ∈ S.keys, db'.idempotencyKeys.find? key =
    (db.idempotencyKeys.find? key).map (IdempotencyKey.rename S.rename)
  placed : ∀ key ∈ S.keys, (∃ o ∈ db'.orders.rows, (o.customerId, o.idempotencyKey) = key) ↔
    ∃ o ∈ db.orders.rows, (o.customerId, o.idempotencyKey) = key
  referred : ItemsReferred db
  referred' : ItemsReferred db'
  rows : customerRows S.customer db' = (customerRows S.customer db).rename S.rename

/-- The lines and the key of a call are in scope. -/
structure InScope (S : Scope) (call : CheckoutCall) : Prop where
  lines : ∀ line ∈ call.lines, line.productId ∈ S.products
  key : (call.customerId, call.idempotencyKey) ∈ S.keys

section Alike
variable {S : Scope} {call : CheckoutCall} {db db' : Database}

theorem Alike.start (h : Alike S db db') (hcall : InScope S call) {attempt : Attempt} (hids : FreshIds attempt db)
    (hids' : FreshIds (attempt.rename S.rename) db') (telemetry telemetry' : Telemetry)
    (faults : List (Option DbError)) :
    TxAlike S.rename call attempt (.start db telemetry faults) (.start db' telemetry' faults) where
  faults := rfl
  key := h.keys _ hcall.key
  unused := hids.key
  unused' := hids'.key
  event := hids.event
  event' := hids'.event
  products := h.products
  prices := h.prices
  row := h.keys _ hcall.key
  snapshot line hline := h.inventory _ (hcall.lines line hline)
  inventory line hline := h.inventory _ (hcall.lines line hline)
  placed := by simpa only [Tx.start, Prod.mk.injEq] using h.placed _ hcall.key
  order := hids.order
  order' := hids'.order

/-- Reservations of the same lines leave rows that agreed in agreement. -/
theorem reserved_agree {lines : List CheckoutLine} {K : Set String} (hlines : ∀ line ∈ lines, line.productId ∈ K)
    {t t₁ t' t₁' : Table Inventory.productId} (h : Reserved lines t t₁) (h' : Reserved lines t' t₁')
    (hagree : ∀ id ∈ K, t'.find? id = t.find? id) : ∀ id ∈ K, t₁'.find? id = t₁.find? id := by
  induction h generalizing t' with
  | nil =>
    cases h'
    exact hagree
  | @cons line rest row t t₁ found _ _ _ _ ih =>
    cases h' with
    | @cons _ _ row' _ _ found' _ _ _ tail' =>
      rw [hagree _ (hlines line (.head rest)), found] at found'
      cases found'
      refine ih (fun l hl => hlines l (.tail line hl)) tail' fun id hid => ?_
      exact Table.find?_set_congr (hagree id hid)

variable {attempt : Attempt} {db₁ db₁' : Database} {result result' : CheckoutResult} {items items' : List PricedItem}

theorem Accepted.find?_key (h : Accepted call attempt db db db₁ result items) (key : String × String) :
    db₁.idempotencyKeys.find? key =
      if key = (call.customerId, call.idempotencyKey) then some (completedKey call (newOrder call attempt.orderId items))
      else db.idempotencyKeys.find? key :=
  Table.find?_after_insert h.key key

theorem Accepted.placed (h : Accepted call attempt db db db₁ result items) (key : String × String) :
    (∃ o ∈ db₁.orders.rows, (o.customerId, o.idempotencyKey) = key) ↔
      (∃ o ∈ db.orders.rows, (o.customerId, o.idempotencyKey) = key) ∨
      (call.customerId, call.idempotencyKey) = key := by
  simp [(Table.insert?_eq_some h.order).2, or_and_right, exists_or, newOrder]

theorem Accepted.catalog (h : Accepted call attempt db db db₁ result items) :
    db₁.products = db.products ∧ db₁.prices = db.prices := by
  rw [h.others]
  exact ⟨rfl, rfl⟩

/-- Two accepted orders of one call price it alike. -/
theorem Alike.items_eq (h : Alike S db db') (hacc : Accepted call attempt db db db₁ result items)
    {attempt' : Attempt} (hacc' : Accepted call attempt' db' db' db₁' result' items') : items' = items := by
  have hproducts : requestedProducts call.lines db' = requestedProducts call.lines db := by
    simp only [requestedProducts, h.products]
  have hpriced := hacc'.priced
  rw [hproducts, priceItem_congr h.prices, hacc.priced] at hpriced
  exact (Except.ok.inj hpriced).symm

/-- The same call accepted in both runs. -/
theorem Alike.accepted (h : Alike S db db') (hcall : InScope S call)
    (hacc : Accepted call attempt db db db₁ result items)
    (hacc' : Accepted call (attempt.rename S.rename) db' db' db₁' result' items) : Alike S db₁ db₁' where
  products := by rw [hacc.catalog.1, hacc'.catalog.1, h.products]
  prices := by rw [hacc.catalog.2, hacc'.catalog.2, h.prices]
  inventory := reserved_agree hcall.lines hacc.reserved hacc'.reserved h.inventory
  keys key hkey := by
    rw [hacc.find?_key, hacc'.find?_key, h.keys key hkey]
    by_cases he : key = (call.customerId, call.idempotencyKey)
    · rw [if_pos he, if_pos he]
      rfl
    · rw [if_neg he, if_neg he]
  placed key hkey := by rw [hacc.placed, hacc'.placed, h.placed key hkey]
  referred := hacc.referred h.referred
  referred' := hacc'.referred h.referred'
  rows := by
    rw [hacc.customerRows h.referred, hacc'.customerRows h.referred', h.rows]
    by_cases hcustomer : call.customerId = S.customer
    · rw [if_pos hcustomer, if_pos hcustomer, CustomerRows.rename_append, acceptedRows_rename]
    · rw [if_neg hcustomer, if_neg hcustomer]

/-- A call of another customer that is out of scope, accepted in one run only. -/
theorem Alike.accepted_other (h : Alike S db db') (hacc : Accepted call attempt db db db₁ result items)
    (hlines : ∀ line ∈ call.lines, line.productId ∉ S.products)
    (hkey : (call.customerId, call.idempotencyKey) ∉ S.keys) (hcustomer : call.customerId ≠ S.customer) :
    Alike S db₁ db' where
  products := by rw [hacc.catalog.1, h.products]
  prices := by rw [hacc.catalog.2, h.prices]
  inventory id hid := by
    rw [h.inventory id hid]
    refine (hacc.reserved.find?_other fun line hline he => ?_).symm
    exact hlines line hline (he ▸ hid)
  keys key hmem := by
    have hne : ¬key = (call.customerId, call.idempotencyKey) := fun he => hkey (he ▸ hmem)
    rw [h.keys key hmem, hacc.find?_key, if_neg hne]
  placed key hmem := by
    have hne : (call.customerId, call.idempotencyKey) ≠ key := fun he => hkey (he ▸ hmem)
    rw [hacc.placed, h.placed key hmem]
    exact (or_iff_left hne).symm
  referred := hacc.referred h.referred
  referred' := h.referred'
  rows := by rw [hacc.customerRows h.referred, if_neg hcustomer, h.rows]

/-- One attempt returns in both runs, leaving stores that are alike, or throws the same in
both. -/
theorem Alike.transact (h : Alike S db db') (hcall : InScope S call) (hids : FreshIds attempt db)
    (hids' : FreshIds (attempt.rename S.rename) db') (telemetry telemetry' : Telemetry)
    (faults : List (Option DbError)) :
    (∃ result tx tx', transact call attempt (.start db telemetry faults) = (.ok result, tx) ∧
        transact call (attempt.rename S.rename) (.start db' telemetry' faults) = (.ok (result.rename S.rename), tx') ∧
        Alike S tx.db tx'.db) ∨
      ∃ error tx tx', transact call attempt (.start db telemetry faults) = (.error error, tx) ∧
        transact call (attempt.rename S.rename) (.start db' telemetry' faults) = (.error error, tx') := by
  have hmatched := transact_matched (h.start hcall hids hids' telemetry telemetry' faults)
  rcases hx : Checkout.transact call attempt (.start db telemetry faults) with ⟨r, tx⟩
  rcases hy : Checkout.transact call (attempt.rename S.rename) (.start db' telemetry' faults) with ⟨r', tx'⟩
  rw [hx, hy] at hmatched
  cases hmatched with
  | error e => exact .inr ⟨e, tx, tx', rfl, rfl⟩
  | @ok result _ _ _ hresult _ =>
    subst hresult
    refine .inl ⟨result, tx, tx', rfl, rfl, ?_⟩
    rcases transact_ok hx with hreplayed | ⟨items, hacc⟩ <;> rcases transact_ok hy with hreplayed' | ⟨items', hacc'⟩
    · rw [hreplayed.unchanged, hreplayed'.unchanged]
      exact h
    · obtain ⟨_, _, _, rfl⟩ := hreplayed.found
      cases hacc'.response
    · obtain ⟨_, _, _, hstatus⟩ := hreplayed'.found
      rw [hacc.response] at hstatus
      cases hstatus
    · obtain rfl := h.items_eq hacc hacc'
      exact h.accepted hcall hacc hacc'

/-- The attempts of a call under their new ids. -/
def renamed (ρ : String → String) (attempts : Nat → Attempt) (n : Nat) : Attempt := (attempts n).rename ρ

/-- The retries end alike. -/
theorem Alike.retryFrom (h : Alike S db db') (hcall : InScope S call) {attempts : Nat → Attempt}
    (hids : ∀ n, FreshIds (attempts n) db) (hids' : ∀ n, FreshIds ((attempts n).rename S.rename) db')
    (left n : Nat) (telemetry telemetry' : Telemetry) :
    (Checkout.retryFrom call (renamed S.rename attempts) db' left n telemetry').1 =
        (Checkout.retryFrom call attempts db left n telemetry).1.map (CheckoutResult.rename S.rename) ∧
      Alike S (Checkout.retryFrom call attempts db left n telemetry).2.1
        (Checkout.retryFrom call (renamed S.rename attempts) db' left n telemetry').2.1 := by
  have hfaults : (renamed S.rename attempts n).faults = (attempts n).faults := rfl
  have hattempt := h.transact hcall (hids n) (hids' n) telemetry telemetry' (attempts n).faults
  induction left generalizing n telemetry telemetry' with
  | zero =>
    unfold Checkout.retryFrom
    rw [hfaults, renamed]
    rcases hattempt with ⟨result, tx, tx', hx, hy, halike⟩ | ⟨error, tx, tx', hx, hy⟩
    · rw [hx, hy]
      exact ⟨rfl, halike⟩
    · rw [hx, hy]
      exact ⟨rfl, h⟩
  | succ left ih =>
    unfold Checkout.retryFrom
    rw [hfaults, renamed]
    rcases hattempt with ⟨result, tx, tx', hx, hy, halike⟩ | ⟨error, tx, tx', hx, hy⟩
    · rw [hx, hy]
      exact ⟨rfl, halike⟩
    · rw [hx, hy]
      dsimp only
      by_cases hretry : isRetryableTransactionError error
      · rw [if_pos hretry, if_pos hretry]
        exact ih (n + 1) _ _ rfl (h.transact hcall (hids _) (hids' _) _ _ _)
      · rw [if_neg hretry, if_neg hretry]
        exact ⟨rfl, h⟩

end Alike

/-- The two headers a checkout needs. -/
def customerKey (input : CheckoutInput) : Option (String × String) :=
  (header input.customerId).bind fun customerId => (header input.idempotencyKey).map fun key => (customerId, key)

/-- The products a checkout asks for. -/
def requested (input : CheckoutInput) : List String := input.body.items.map CheckoutItemInput.productId

theorem normalizeRequest_requested {P : Platform} {input : CheckoutInput} {line : CheckoutLine}
    (h : line ∈ normalizeRequest P input.body) : line.productId ∈ requested input := by
  unfold normalizeRequest at h
  rw [List.mem_insertionSort, List.mem_map] at h
  obtain ⟨item, hitem, rfl⟩ := h
  exact List.mem_map_of_mem hitem

section Step
variable {S : Scope} {P : Platform} {input : CheckoutInput} {db db' : Database}

theorem Alike.process {call : CheckoutCall} (h : Alike S db db') (hcall : InScope S call)
    (hids : ∀ n, FreshIds (input.attempts n) db) (hids' : ∀ n, FreshIds ((input.rename S.rename).attempts n) db') :
    (Checkout.process call (input.rename S.rename) db').1 =
        (Checkout.process call input db).1.map (CheckoutResult.rename S.rename) ∧
      Alike S (Checkout.process call input db).2.1 (Checkout.process call (input.rename S.rename) db').2.1 := by
  have hrun := h.retryFrom hcall hids hids' (checkoutRetryAttempts - 1) 0 {checkoutStarted := 1} {checkoutStarted := 1}
  have hattempts : (input.rename S.rename).attempts = renamed S.rename input.attempts := rfl
  have hfault : (input.rename S.rename).invalidationFault = input.invalidationFault := rfl
  unfold Checkout.process runCheckoutTransactionWithRetry
  rw [hattempts, hfault]
  rcases hx : Checkout.retryFrom call input.attempts db (checkoutRetryAttempts - 1) 0 {checkoutStarted := 1} with
    ⟨r, db₁, telemetry⟩
  rcases hy : Checkout.retryFrom call (renamed S.rename input.attempts) db' (checkoutRetryAttempts - 1) 0
    {checkoutStarted := 1} with ⟨r', db₁', telemetry'⟩
  rw [hx, hy] at hrun
  obtain ⟨hresult, halike⟩ := hrun
  dsimp only at hresult halike
  subst hresult
  cases r with
  | error error => exact ⟨rfl, halike⟩
  | ok result => cases hinvalidation : input.invalidationFault <;> exact ⟨rfl, halike⟩

/-- A checkout in scope is answered alike in both runs. -/
theorem Alike.checkout (h : Alike S db db') (hproducts : ∀ id ∈ requested input, id ∈ S.products)
    (hkey : ∀ key ∈ customerKey input, key ∈ S.keys) (hids : ∀ n, FreshIds (input.attempts n) db)
    (hids' : ∀ n, FreshIds ((input.rename S.rename).attempts n) db') :
    (Checkout.checkout P (input.rename S.rename) db').1 =
        (Checkout.checkout P input db).1.map (CheckoutResult.rename S.rename) ∧
      Alike S (Checkout.checkout P input db).2.1 (Checkout.checkout P (input.rename S.rename) db').2.1 := by
  have hheaders : header (input.rename S.rename).customerId = header input.customerId ∧
      header (input.rename S.rename).idempotencyKey = header input.idempotencyKey := ⟨rfl, rfl⟩
  unfold Checkout.checkout
  rw [hheaders.1, hheaders.2]
  cases hcustomer : header input.customerId with
  | none => exact ⟨rfl, h⟩
  | some customerId =>
    cases hidempotency : header input.idempotencyKey with
    | none => exact ⟨rfl, h⟩
    | some key =>
      have hbody : validateRequest (input.rename S.rename).body = validateRequest input.body := rfl
      dsimp only
      rw [hbody]
      cases validateRequest input.body with
      | error error => exact ⟨rfl, h⟩
      | ok u =>
        have hmem : (customerId, key) ∈ S.keys := hkey _ (by simp [customerKey, hcustomer, hidempotency])
        have hcall : InScope S (callOf P customerId key input) :=
          ⟨fun line hline => hproducts _ (normalizeRequest_requested hline), hmem⟩
        exact h.process hcall hids hids'

/-- A checkout of another customer that is out of scope changes nothing in scope. -/
theorem Alike.skip (h : Alike S db db') (hproducts : ∀ id ∈ requested input, id ∉ S.products)
    (hkey : ∀ key ∈ customerKey input, key ∉ S.keys) (hcustomer : header input.customerId ≠ some S.customer) :
    Alike S (Checkout.checkout P input db).2.1 db' := by
  rcases checkout_cases P input db with ⟨error, hrefused⟩ | ⟨customerId, key, hid, hkeyHeader, _, hprocess⟩
  · rwa [hrefused]
  · rw [hprocess]
    obtain ⟨result, hran, _⟩ := process_cases (callOf P customerId key input) input db
    cases hran with
    | replayed hreplayed => rwa [hreplayed.unchanged]
    | accepted n items haccepted =>
      refine h.accepted_other haccepted (fun line hline => hproducts _ (normalizeRequest_requested hline)) ?_ ?_
      · exact hkey _ (by simp [customerKey, hid, hkeyHeader, callOf])
      · exact fun he => hcustomer (hid.trans (congrArg some he))
    | failed _ hsame => rwa [hsame]

end Step

/-! ### Runs -/

/-- The store after checkouts one at a time. -/
def serve (P : Platform) (inputs : List CheckoutInput) (db : Database) : Database :=
  inputs.foldl (fun db input => (Checkout.checkout P input db).2.1) db

/-- The responses a customer gets in such a run. -/
def responsesTo (P : Platform) (customerId : String) :
    List CheckoutInput → Database → List (Except CheckoutError CheckoutResult)
  | [], _ => []
  | input :: rest, db =>
    (if header input.customerId = some customerId then [(Checkout.checkout P input db).1] else []) ++
      responsesTo P customerId rest (Checkout.checkout P input db).2.1

/-- The ids of every checkout are new when it comes. -/
def NewIds (P : Platform) : List CheckoutInput → Database → Prop
  | [], _ => True
  | input :: rest, db => (∀ n, FreshIds (input.attempts n) db) ∧ NewIds P rest (Checkout.checkout P input db).2.1

/-- The renaming leaves the ids of a store alone. -/
structure Fixes (ρ : String → String) (db : Database) : Prop where
  orders : ∀ o ∈ db.orders.rows, o.rename ρ = o
  items : ∀ item ∈ db.orderItems, item.rename ρ = item
  idempotencyKeys : ∀ r ∈ db.idempotencyKeys.rows, r.rename ρ = r
  outboxEvents : ∀ e ∈ db.outboxEvents.rows, e.rename ρ = e

/-- A run without some of its checkouts, under other ids. -/
def without (removed : CheckoutInput → Bool) (ρ : String → String) (inputs : List CheckoutInput) :
    List CheckoutInput :=
  (inputs.filter fun input => !removed input).map (CheckoutInput.rename ρ)

/-- Those removed are other customers', and none of them asks for a product that one of
those left asks for, or has its customer and key. -/
structure Unrelated (customerId : String) (removed : CheckoutInput → Bool) (inputs : List CheckoutInput) : Prop where
  customer : ∀ input ∈ inputs, removed input → header input.customerId ≠ some customerId
  products : ∀ input ∈ inputs, removed input → ∀ other ∈ inputs, ¬removed other →
    ∀ id ∈ requested input, id ∉ requested other
  keys : ∀ input ∈ inputs, removed input → ∀ other ∈ inputs, ¬removed other →
    ∀ key ∈ customerKey input, key ∉ customerKey other

theorem Alike.serve {S : Scope} {P : Platform} {removed : CheckoutInput → Bool} {inputs : List CheckoutInput}
    {db db' : Database} (h : Alike S db db')
    (hin : ∀ input ∈ inputs, ¬removed input →
      (∀ id ∈ requested input, id ∈ S.products) ∧ ∀ key ∈ customerKey input, key ∈ S.keys)
    (hout : ∀ input ∈ inputs, removed input → (∀ id ∈ requested input, id ∉ S.products) ∧
      (∀ key ∈ customerKey input, key ∉ S.keys) ∧ header input.customerId ≠ some S.customer)
    (hids : NewIds P inputs db) (hids' : NewIds P (without removed S.rename inputs) db') :
    responsesTo P S.customer (without removed S.rename inputs) db' =
        (responsesTo P S.customer inputs db).map (Except.map (CheckoutResult.rename S.rename)) ∧
      Alike S (serve P inputs db) (serve P (without removed S.rename inputs) db') := by
  induction inputs generalizing db db' with
  | nil => exact ⟨rfl, h⟩
  | cons input rest ih =>
    have hin' := fun other hother => hin other (.tail input hother)
    have hout' := fun other hother => hout other (.tail input hother)
    by_cases hremoved : removed input
    · obtain ⟨hproducts, hkeys, hcustomer⟩ := hout input (.head rest) hremoved
      have hwithout : without removed S.rename (input :: rest) = without removed S.rename rest := by
        simp [without, hremoved]
      rw [hwithout] at hids' ⊢
      rw [responsesTo, if_neg hcustomer]
      exact ih (h.skip hproducts hkeys hcustomer) hin' hout' hids.2 hids'
    · obtain ⟨hproducts, hkeys⟩ := hin input (.head rest) hremoved
      have hwithout : without removed S.rename (input :: rest) =
          input.rename S.rename :: without removed S.rename rest := by
        simp [without, hremoved]
      rw [hwithout] at hids' ⊢
      obtain ⟨hresult, halike⟩ := h.checkout (P := P) hproducts hkeys hids.1 hids'.1
      obtain ⟨hresponses, hend⟩ := ih halike hin' hout' hids.2 hids'.2
      refine ⟨?_, hend⟩
      have hheader : header (input.rename S.rename).customerId = header input.customerId := rfl
      rw [responsesTo, responsesTo, hheader, hresult, hresponses]
      by_cases hcustomer : header input.customerId = some S.customer <;> simp [hcustomer]

/-- Renaming what it leaves alone changes nothing. -/
theorem map_filter_fixed {α : Type} {f : α → α} {l : List α} (h : ∀ a ∈ l, f a = a) (p : α → Bool) :
    (l.filter p).map f = l.filter p := by
  refine (List.map_congr_left fun a ha => ?_).trans (List.map_id _)
  exact h a (List.mem_filter.mp ha).1

theorem Fixes.alike {S : Scope} {db : Database} (h : Fixes S.rename db) (href : ItemsReferred db) :
    Alike S db db where
  products := rfl
  prices := rfl
  inventory _ _ := rfl
  keys key _ := by
    cases hrow : db.idempotencyKeys.find? key with
    | none => rfl
    | some r => simp [h.idempotencyKeys r (Table.mem_of_find? hrow)]
  placed _ _ := Iff.rfl
  referred := href
  referred' := href
  rows := by
    simp only [customerRows, CustomerRows.rename, map_filter_fixed h.orders, map_filter_fixed h.items,
      map_filter_fixed h.idempotencyKeys, map_filter_fixed h.outboxEvents]

/-- Without checkouts that are unrelated to those left, a customer gets the same responses
and is left with the same rows, up to the ids that are generated. -/
theorem customer_isolated (P : Platform) (customerId : String) (inputs : List CheckoutInput)
    (removed : CheckoutInput → Bool) (ρ : String → String) (db : Database) (href : ItemsReferred db)
    (hfixes : Fixes ρ db) (hunrelated : Unrelated customerId removed inputs) (hids : NewIds P inputs db)
    (hids' : NewIds P (without removed ρ inputs) db) :
    responsesTo P customerId (without removed ρ inputs) db =
        (responsesTo P customerId inputs db).map (Except.map (CheckoutResult.rename ρ)) ∧
      customerRows customerId (serve P (without removed ρ inputs) db) =
        (customerRows customerId (serve P inputs db)).rename ρ := by
  have halike : Alike ⟨ρ, {id | ∃ input ∈ inputs, ¬removed input ∧ id ∈ requested input},
      {key | ∃ input ∈ inputs, ¬removed input ∧ key ∈ customerKey input}, customerId⟩ db db :=
    Fixes.alike hfixes href
  obtain ⟨hresponses, hend⟩ := halike.serve
    (fun input hinput hkept => ⟨fun id hid => ⟨input, hinput, hkept, hid⟩,
      fun key hkey => ⟨input, hinput, hkept, hkey⟩⟩)
    (fun input hinput hremoved => by
      refine ⟨?_, ?_, hunrelated.customer input hinput hremoved⟩
      · rintro id hid ⟨other, hother, hkept, hmem⟩
        exact hunrelated.products input hinput hremoved other hother hkept id hid hmem
      · rintro key hkey ⟨other, hother, hkept, hmem⟩
        exact hunrelated.keys input hinput hremoved other hother hkept key hkey hmem)
    hids hids'
  exact ⟨hresponses, hend.rows⟩

/-! ### Three customers -/

def orderedPlatform : Platform := ⟨compare, String.ofList, fun _ => "error"⟩

/-- A store with one unit each of two cases. -/
def twoCases : Database :=
  {Database.empty with
    products := (Table.empty.set ⟨"p1", "s1", "Case", none, none, none, true, 0⟩).set
      ⟨"p2", "s2", "Case", none, none, none, true, 0⟩
    prices := (Table.empty.set ⟨"p1", 1000, "BRL"⟩).set ⟨"p2", 1000, "BRL"⟩
    inventory := (Table.empty.set ⟨"p1", 1, 0, 1, 1⟩).set ⟨"p2", 1, 0, 1, 1⟩}

/-- A customer buys one unit of each of some products, always under the same key. -/
def buys (customerId id : String) (products : List String) : CheckoutInput :=
  ⟨some customerId, some "k", ⟨products.map fun product => ⟨product, 1⟩⟩, ⟨none, none, none⟩, fun _ => ⟨id, id, []⟩, none,
    true⟩

instance (attempt : Attempt) (db : Database) : Decidable (FreshIds attempt db) :=
  decidable_of_iff (db.orders.find? attempt.orderId = none ∧ db.outboxEvents.find? attempt.eventId = none ∧
      ∀ r ∈ db.idempotencyKeys.rows, r.orderId ≠ some attempt.orderId)
    ⟨fun h => ⟨h.1, h.2.1, h.2.2⟩, fun h => ⟨h.order, h.event, h.key⟩⟩

/-- Every attempt of a checkout gets the same ids. -/
def SameAttempts (inputs : List CheckoutInput) : Prop :=
  ∀ input ∈ inputs, ∀ n, input.attempts n = input.attempts 0

theorem SameAttempts.without {inputs : List CheckoutInput} (h : SameAttempts inputs) (removed : CheckoutInput → Bool)
    (ρ : String → String) : SameAttempts (without removed ρ inputs) := by
  intro input hinput n
  obtain ⟨original, horiginal, rfl⟩ := List.mem_map.mp hinput
  exact congrArg (Attempt.rename ρ) (h original (List.mem_filter.mp horiginal).1 n)

/-- The ids of such checkouts can be checked. -/
def newIds (P : Platform) : List CheckoutInput → Database → Bool
  | [], _ => true
  | input :: rest, db => FreshIds (input.attempts 0) db && newIds P rest (Checkout.checkout P input db).2.1

theorem newIds_sound {P : Platform} {inputs : List CheckoutInput} {db : Database}
    (hsame : SameAttempts inputs) (h : newIds P inputs db = true) :
    NewIds P inputs db := by
  induction inputs generalizing db with
  | nil => trivial
  | cons input rest ih =>
    rw [newIds, Bool.and_eq_true, decide_eq_true_iff] at h
    refine ⟨fun n => ?_, ih (fun other hother => hsame other (.tail input hother)) h.2⟩
    rw [hsame input (.head rest) n]
    exact h.1

/-- Somebody else buys another product under the same key, and the customer asks twice. -/
def strangers : List CheckoutInput := [buys "d" "o1" ["p2"], buys "b" "o2" ["p1"], buys "b" "o3" ["p1"]]

theorem strangers_same : SameAttempts strangers := by
  simp [SameAttempts, strangers, buys]

/-- Another id for the order. -/
def reissued (id : String) : String := if id = "o2" then "n2" else id

theorem twoCases_referred : ItemsReferred twoCases := fun item hitem => by cases hitem

theorem twoCases_fixed (ρ : String → String) : Fixes ρ twoCases where
  orders o ho := by cases ho
  items item hitem := by cases hitem
  idempotencyKeys r hr := by cases hr
  outboxEvents e he := by cases he

theorem customer_isolated_b :
    responsesTo orderedPlatform "b" (without (fun input => input.customerId = some "d") reissued strangers) twoCases =
        (responsesTo orderedPlatform "b" strangers twoCases).map (Except.map (CheckoutResult.rename reissued)) ∧
      customerRows "b" (serve orderedPlatform (without (fun input => input.customerId = some "d") reissued strangers) twoCases) =
        (customerRows "b" (serve orderedPlatform strangers twoCases)).rename reissued := by
  exact customer_isolated orderedPlatform "b" strangers (fun input => input.customerId = some "d") reissued twoCases
    twoCases_referred (twoCases_fixed reissued) ⟨by decide, by decide, by decide⟩
    (newIds_sound strangers_same (by decide +kernel)) (newIds_sound (strangers_same.without _ _) (by decide +kernel))

/-- Another customer's checkout without a product the customer ever asks for. -/
def noProductOf (customerId : String) (inputs : List CheckoutInput) (input : CheckoutInput) : Bool :=
  header input.customerId ≠ some customerId ∧
    ∀ own ∈ inputs, header own.customerId = some customerId → ∀ id ∈ requested input, id ∉ requested own

/-- The last unit of `p2` is sold before a customer asks for it together with `p1`. -/
def chained : List CheckoutInput := [buys "d" "o1" ["p2"], buys "c" "o2" ["p1", "p2"], buys "b" "o3" ["p1"]]

theorem customer_not_isolated : ¬∀ (P : Platform) (customerId : String) (inputs : List CheckoutInput)
    (ρ : String → String) (db : Database), ItemsReferred db → Fixes ρ db → NewIds P inputs db →
    NewIds P (without (noProductOf customerId inputs) ρ inputs) db →
    responsesTo P customerId (without (noProductOf customerId inputs) ρ inputs) db =
        (responsesTo P customerId inputs db).map (Except.map (CheckoutResult.rename ρ)) ∧
      customerRows customerId (serve P (without (noProductOf customerId inputs) ρ inputs) db) =
        (customerRows customerId (serve P inputs db)).rename ρ := by
  intro h
  have hsame : SameAttempts chained := by simp [SameAttempts, chained, buys]
  have hresponses := (h orderedPlatform "b" chained id twoCases twoCases_referred (twoCases_fixed id)
    (newIds_sound hsame (by decide +kernel)) (newIds_sound (hsame.without _ _) (by decide +kernel))).1
  have hserved := congrArg (List.map Except.isOk) hresponses
  revert hserved
  decide +kernel

end CaseCellShop.Checkout
