import CaseCellShop.Checkout.Transaction

/-! What a transaction attempt can do.

`transact_ok` is the inversion of the whole transaction: an attempt that returns has
either re-delivered a stored response and written nothing, or accepted the order with
exactly the writes of `Accepted`. Everything proved about checkouts goes through it;
the statements of the transaction are unfolded nowhere else. -/
namespace CaseCellShop.Checkout
open Script

/-- Nothing was written. -/
def SameStores (tx tx' : Tx) : Prop := tx'.snapshot = tx.snapshot ∧ tx'.db = tx.db

theorem SameStores.refl (tx : Tx) : SameStores tx tx := ⟨rfl, rfl⟩

theorem SameStores.trans {a b c : Tx} (h : SameStores a b) (k : SameStores b c) : SameStores a c :=
  ⟨k.1.trans h.1, k.2.trans h.2⟩

theorem statement_ok {tx tx' : Tx} {u : Unit} (h : statement tx = (.ok u, tx')) :
    SameStores tx tx' ∧ tx'.telemetry = tx.telemetry := by
  unfold statement at h
  split at h
  · cases h
    exact ⟨.refl tx, rfl⟩
  · cases h
    exact ⟨⟨rfl, rfl⟩, rfl⟩
  · cases h

theorem record_bind {α : Type} (f : Telemetry → Telemetry) (g : Unit → TxM α) (tx : Tx) :
    (record f >>= g) tx = g () {tx with telemetry := f tx.telemetry} := rfl

theorem acquireLocks_ok {locks : List String} {tx tx' : Tx} {u : Unit}
    (h : acquireLocks locks tx = (.ok u, tx')) : SameStores tx tx' ∧ tx'.telemetry = tx.telemetry := by
  induction locks generalizing tx with
  | nil =>
    cases h
    exact ⟨.refl _, rfl⟩
  | cons lock rest ih =>
    obtain ⟨_, t, hs, hrest⟩ := bind_eq_ok.mp h
    obtain ⟨hsame, htel⟩ := statement_ok hs
    obtain ⟨hsame', htel'⟩ := ih hrest
    exact ⟨hsame.trans hsame', htel'.trans htel⟩

/-! ### Reservations -/

/-- The lines reserved one after the other: each took its quantity from a row that had
it, and each row stayed inside its integer columns. -/
inductive Reserved : List CheckoutLine → Table Inventory.productId → Table Inventory.productId → Prop
  | nil {t} : Reserved [] t t
  | cons {line : CheckoutLine} {rest : List CheckoutLine} {row : Inventory}
      {t t' : Table Inventory.productId}
      (found : t.find? line.productId = some row) (enough : (line.quantity : Int) ≤ row.availableQty)
      (quantity : Int4 line.quantity) (column : Int4 (row.reservedQty + line.quantity) ∧ Int4 (row.version + 1))
      (tail : Reserved rest (t.set (reservedRow row line.quantity)) t') :
      Reserved (line :: rest) t t'

/-- The rows of other products stay as they are. -/
theorem Reserved.find?_other {lines : List CheckoutLine} {t t' : Table Inventory.productId}
    (h : Reserved lines t t') {productId : String} (hother : ∀ line ∈ lines, line.productId ≠ productId) :
    t'.find? productId = t.find? productId := by
  induction h with
  | nil => rfl
  | @cons line rest row t t' found _ _ _ _ ih =>
    rw [ih fun l hl => hother l (.tail line hl)]
    apply Table.find?_set_ne
    show productId ≠ row.productId
    rw [Table.key_of_find? found]
    exact (hother line (.head rest)).symm

theorem reserve_ok {line : CheckoutLine} {tx tx' : Tx} {u : Unit} (h : reserve line tx = (.ok u, tx')) :
    ∃ row, tx.snapshot.inventory.find? line.productId = some row ∧
      tx.db.inventory.find? line.productId = some row ∧ (line.quantity : Int) ≤ row.availableQty ∧
      Int4 line.quantity ∧ (Int4 (row.reservedQty + line.quantity) ∧ Int4 (row.version + 1)) ∧
      tx'.snapshot = {tx.snapshot with
        inventory := tx.snapshot.inventory.set (reservedRow row line.quantity)} ∧
      tx'.db = {tx.db with inventory := tx.db.inventory.set (reservedRow row line.quantity)} := by
  unfold reserve at h
  obtain ⟨hq, h₁⟩ := require_bind_eq_ok.mp h
  obtain ⟨_, t, hs, h₂⟩ := bind_eq_ok.mp h₁
  obtain ⟨⟨hsnap, hdb⟩, _⟩ := statement_ok hs
  rw [get_bind, hsnap] at h₂
  cases hrow : tx.snapshot.inventory.find? line.productId with
  | none =>
    rw [hrow] at h₂
    exact absurd h₂ fail_ne_ok
  | some row =>
    rw [hrow] at h₂
    dsimp only at h₂
    by_cases hlt : row.availableQty < line.quantity
    · rw [if_pos hlt] at h₂
      exact absurd h₂ fail_ne_ok
    · rw [if_neg hlt] at h₂
      obtain ⟨hc, h₃⟩ := require_bind_eq_ok.mp h₂
      obtain ⟨hi, h₄⟩ := require_bind_eq_ok.mp h₃
      cases h₄
      rw [hdb] at hc
      exact ⟨row, rfl, hc, not_lt.mp hlt, hq, hi, by simp only [hsnap], by simp only [hdb]⟩

theorem reserveAll_ok {lines : List CheckoutLine} {tx tx' : Tx} {u : Unit}
    (h : reserveAll lines tx = (.ok u, tx')) :
    Reserved lines tx.db.inventory tx'.db.inventory ∧
      tx'.db = {tx.db with inventory := tx'.db.inventory} := by
  induction lines generalizing tx with
  | nil =>
    cases h
    exact ⟨.nil, rfl⟩
  | cons line rest ih =>
    obtain ⟨_, t, hr, hrest⟩ := bind_eq_ok.mp h
    obtain ⟨row, _, hrow, hle, hq, hi, _, hdb⟩ := reserve_ok hr
    obtain ⟨htail, hframe⟩ := ih hrest
    rw [hdb] at htail hframe
    exact ⟨.cons hrow hle hq hi htail, hframe⟩

/-! ### Pricing -/

theorem priceItems_ok {call : CheckoutCall} {tx tx' : Tx} {items : List PricedItem}
    (h : priceItems call tx = (.ok items, tx')) :
    SameStores tx tx' ∧
      (requestedProducts call.lines tx.snapshot).length = call.lines.length ∧
      call.lines.mapM (priceItem tx.snapshot (requestedProducts call.lines tx.snapshot)) = .ok items := by
  unfold priceItems at h
  obtain ⟨_, t, hs, h₁⟩ := bind_eq_ok.mp h
  have hsame := (statement_ok hs).1
  rw [get_bind, hsame.1] at h₁
  by_cases hlen : (requestedProducts call.lines tx.snapshot).length ≠ call.lines.length
  · rw [if_pos hlen] at h₁
    exact absurd h₁ fail_ne_ok
  · rw [if_neg hlen] at h₁
    obtain ⟨hitems, rfl⟩ := ofExcept_eq_ok.mp h₁
    exact ⟨hsame, not_not.mp hlen, hitems⟩

/-! ### Inserts -/

theorem createOrder_ok {order : Order} {items : List PricedItem} {tx tx' : Tx} {u : Unit}
    (h : createOrder order items tx = (.ok u, tx')) :
    Int4 order.totalCents ∧
      (∀ o ∈ tx.db.orders.rows,
        ¬(o.customerId = order.customerId ∧ o.idempotencyKey = order.idempotencyKey)) ∧
      ∃ orders, tx.db.orders.insert? order = some orders ∧
        tx'.db = {tx.db with
          orders := orders
          orderItems := tx.db.orderItems ++ items.map (newOrderItem order.id)} := by
  unfold createOrder at h
  obtain ⟨htotal, h₁⟩ := require_bind_eq_ok.mp h
  obtain ⟨_, t, hs, h₂⟩ := bind_eq_ok.mp h₁
  have hdb := (statement_ok hs).1.2
  rw [get_bind, hdb] at h₂
  obtain ⟨hnew, h₃⟩ := require_bind_eq_ok.mp h₂
  cases hins : tx.db.orders.insert? order with
  | none =>
    rw [hins] at h₃
    exact absurd h₃ fail_ne_ok
  | some orders =>
    rw [hins] at h₃
    cases h₃
    exact ⟨htotal, hnew, orders, rfl, by simp only [hdb]⟩

theorem createOutboxEvent_ok {event : OutboxEvent} {tx tx' : Tx} {u : Unit}
    (h : createOutboxEvent event tx = (.ok u, tx')) :
    ∃ events, tx.db.outboxEvents.insert? event = some events ∧
      tx'.db = {tx.db with outboxEvents := events} := by
  unfold createOutboxEvent at h
  obtain ⟨_, t, hs, h₁⟩ := bind_eq_ok.mp h
  have hdb := (statement_ok hs).1.2
  rw [get_bind, hdb] at h₁
  cases hins : tx.db.outboxEvents.insert? event with
  | none =>
    rw [hins] at h₁
    exact absurd h₁ fail_ne_ok
  | some events =>
    rw [hins] at h₁
    cases h₁
    exact ⟨events, rfl, by simp only [hdb]⟩

theorem createIdempotencyKey_ok {entry : IdempotencyKey} {tx tx' : Tx} {u : Unit}
    (h : createIdempotencyKey entry tx = (.ok u, tx')) :
    (∀ r ∈ tx.db.idempotencyKeys.rows, r.orderId = none ∨ r.orderId ≠ entry.orderId) ∧
      ∃ keys, tx.db.idempotencyKeys.insert? entry = some keys ∧
        tx'.db = {tx.db with idempotencyKeys := keys} := by
  unfold createIdempotencyKey at h
  obtain ⟨_, t, hs, h₁⟩ := bind_eq_ok.mp h
  have hdb := (statement_ok hs).1.2
  rw [get_bind, hdb] at h₁
  obtain ⟨hfresh, h₂⟩ := require_bind_eq_ok.mp h₁
  cases hins : tx.db.idempotencyKeys.insert? entry with
  | none =>
    rw [hins] at h₂
    exact absurd h₂ fail_ne_ok
  | some keys =>
    rw [hins] at h₂
    cases h₂
    exact ⟨hfresh, keys, rfl, by simp only [hdb]⟩

/-! ### The transaction -/

/-- A stored response was found and is returned; the stores are untouched. -/
structure Replayed (call : CheckoutCall) (snapshot db db' : Database) (result : CheckoutResult) : Prop where
  found : ∃ orderId response,
    checkExisting call.requestHash (snapshot.idempotencyKeys.find? (call.customerId, call.idempotencyKey)) =
      .replay orderId response ∧ result = ⟨200, response⟩
  unchanged : db' = db

/-- The order was accepted: what the attempt saw, and every row it wrote. -/
structure Accepted (call : CheckoutCall) (attempt : Attempt) (snapshot db db' : Database)
    (result : CheckoutResult) (items : List PricedItem) : Prop where
  proceed : checkExisting call.requestHash
    (snapshot.idempotencyKeys.find? (call.customerId, call.idempotencyKey)) = .proceed
  available : (requestedProducts call.lines snapshot).length = call.lines.length
  priced : call.lines.mapM (priceItem snapshot (requestedProducts call.lines snapshot)) = .ok items
  total : Int4 (totalCents items)
  newKey : ∀ o ∈ db.orders.rows,
    ¬(o.customerId = call.customerId ∧ o.idempotencyKey = call.idempotencyKey)
  newOrderId : ∀ r ∈ db.idempotencyKeys.rows, r.orderId = none ∨ r.orderId ≠ some attempt.orderId
  reserved : Reserved call.lines db.inventory db'.inventory
  order : db.orders.insert? (newOrder call attempt.orderId items) = some db'.orders
  orderItems : db'.orderItems = db.orderItems ++ items.map (newOrderItem attempt.orderId)
  event : db.outboxEvents.insert?
    (orderAccepted call attempt.eventId (newOrder call attempt.orderId items)) = some db'.outboxEvents
  key : db.idempotencyKeys.insert? (completedKey call (newOrder call attempt.orderId items)) =
    some db'.idempotencyKeys
  others : db' = {db with
    inventory := db'.inventory
    orders := db'.orders
    orderItems := db'.orderItems
    outboxEvents := db'.outboxEvents
    idempotencyKeys := db'.idempotencyKeys}
  response : result = ⟨202, responseBody (newOrder call attempt.orderId items)⟩

theorem checkoutTransaction_ok {call : CheckoutCall} {attempt : Attempt} {tx tx' : Tx}
    {result : CheckoutResult} (h : checkoutTransaction call attempt tx = (.ok result, tx')) :
    Replayed call tx.snapshot tx.db tx'.db result ∨
      ∃ items, Accepted call attempt tx.snapshot tx.db tx'.db result items := by
  unfold checkoutTransaction at h
  obtain ⟨_, t₁, hlocks, h₁⟩ := bind_eq_ok.mp h
  obtain ⟨_, t₂, hs, h₂⟩ := bind_eq_ok.mp h₁
  have hsame₂ := (acquireLocks_ok hlocks).1.trans (statement_ok hs).1
  rw [get_bind, hsame₂.1] at h₂
  cases hexisting : checkExisting call.requestHash
      (tx.snapshot.idempotencyKeys.find? (call.customerId, call.idempotencyKey)) with
  | refuse message =>
    rw [hexisting] at h₂
    exact absurd h₂ fail_ne_ok
  | replay orderId response =>
    rw [hexisting] at h₂
    cases h₂
    exact .inl ⟨⟨orderId, response, hexisting, rfl⟩, hsame₂.2⟩
  | proceed =>
    rw [hexisting] at h₂
    obtain ⟨items, t₃, hprice, h₃⟩ := bind_eq_ok.mp h₂
    obtain ⟨hsame₃, hlen, hitems⟩ := priceItems_ok hprice
    rw [hsame₂.1] at hlen hitems
    obtain ⟨_, t₄, hres, h₄⟩ := bind_eq_ok.mp h₃
    obtain ⟨hreserved, hdb₄⟩ := reserveAll_ok hres
    rw [(hsame₂.trans hsame₃).2] at hreserved hdb₄
    obtain ⟨_, t₅, horder, h₅⟩ := bind_eq_ok.mp h₄
    obtain ⟨htotal, hnew, orders, hins, hdb₅⟩ := createOrder_ok horder
    rw [hdb₄] at hnew hins hdb₅
    rw [record_bind] at h₅
    obtain ⟨_, t₆, hevent, h₆⟩ := bind_eq_ok.mp h₅
    obtain ⟨events, hev, hdb₆⟩ := createOutboxEvent_ok hevent
    simp only [hdb₅] at hev hdb₆
    obtain ⟨_, t₇, hkey, h₇⟩ := bind_eq_ok.mp h₆
    obtain ⟨hfresh, keys, hk, hdb₇⟩ := createIdempotencyKey_ok hkey
    rw [hdb₆] at hfresh hk hdb₇
    rw [record_bind] at h₇
    cases h₇
    refine .inr ⟨items, hexisting, hlen, hitems, htotal, hnew, hfresh, ?_, ?_, ?_, ?_, ?_, ?_, rfl⟩
    all_goals simp only [hdb₇]
    · exact hreserved
    · exact hins
    · rfl
    · exact hev
    · exact hk

theorem transact_ok {call : CheckoutCall} {attempt : Attempt} {tx tx' : Tx} {result : CheckoutResult}
    (h : transact call attempt tx = (.ok result, tx')) :
    Replayed call tx.snapshot tx.db tx'.db result ∨
      ∃ items, Accepted call attempt tx.snapshot tx.db tx'.db result items := by
  unfold transact at h
  obtain ⟨r, t, hr, h₁⟩ := bind_eq_ok.mp h
  obtain ⟨_, t', hs, h₂⟩ := bind_eq_ok.mp h₁
  cases h₂
  rw [(statement_ok hs).1.2]
  exact checkoutTransaction_ok hr

end CaseCellShop.Checkout
