import CaseCellShop.Checkout.Failures
import CaseCellShop.Checkout.Service

/-! An attempt under any faults.

`Passes` says of a script what it does when no fault is met, and that it fails with the
first one otherwise. It is closed under sequencing, so on a store that can serve the
call the outcome of a whole attempt, and of the retries, is decided by the faults of the
attempts alone (`run_serves`). -/
namespace CaseCellShop.Checkout
open Script

/-- The first fault that `k` statements meet. -/
def firstFault (k : Nat) (faults : List (Option DbError)) : Option DbError := (faults.take k).findSome? id

@[simp] theorem firstFault_nil (k : Nat) : firstFault k [] = none := by simp [firstFault]

@[simp] theorem firstFault_zero (faults : List (Option DbError)) : firstFault 0 faults = none := rfl

theorem firstFault_add (k l : Nat) (faults : List (Option DbError)) :
    firstFault (k + l) faults = (firstFault k faults).or (firstFault l (faults.drop k)) := by
  simp only [firstFault, List.take_add, List.findSome?_append]

/-- The transaction with other faults ahead of it. -/
def Tx.under (tx : Tx) (faults : List (Option DbError)) : Tx := {tx with faults := faults}

/-- In `k` statements the script returns `a` and leaves `tx'`, or fails with the first
fault it meets. -/
structure Passes {α : Type} (x : TxM α) (k : Nat) (tx : Tx) (a : α) (tx' : Tx) : Prop where
  clear : ∀ faults, firstFault k faults = none → x (tx.under faults) = (.ok a, tx'.under (faults.drop k))
  struck : ∀ faults e, firstFault k faults = some e → (x (tx.under faults)).1 = .error (.database e)

variable {α β : Type} {k l : Nat} {tx t tx' : Tx} {a : α} {b : β}

theorem bind_fst_error {x : TxM α} {f : α → TxM β} {e : CheckoutError} (h : (x tx).1 = .error e) :
    ((x >>= f) tx).1 = .error e := by
  rcases hx : x tx with ⟨r, t⟩
  rw [hx] at h
  subst h
  rw [bind_of_error hx]

theorem Passes.bind {x : TxM α} {f : α → TxM β} (hx : Passes x k tx a t) (hf : Passes (f a) l t b tx') :
    Passes (x >>= f) (k + l) tx b tx' := by
  constructor
  · intro faults h
    rw [firstFault_add, Option.or_eq_none_iff] at h
    rw [bind_of_ok (hx.clear faults h.1), hf.clear _ h.2, List.drop_drop]
  · intro faults e h
    rw [firstFault_add, Option.or_eq_some_iff] at h
    rcases h with h | ⟨hnone, h⟩
    · exact bind_fst_error (hx.struck faults e h)
    · rw [bind_of_ok (hx.clear faults hnone)]
      exact hf.struck _ e h

theorem Passes.then {x : TxM α} {f : α → TxM β} (hx : Passes x k tx a t) (hf : ∃ tx', Passes (f a) l t b tx') :
    ∃ tx', Passes (x >>= f) (k + l) tx b tx' := by
  obtain ⟨tx', hf⟩ := hf
  exact ⟨tx', hx.bind hf⟩

/-- A script that makes no statement. -/
theorem Passes.of_eq {x : TxM α} (h : ∀ faults, x (tx.under faults) = (.ok a, tx'.under faults)) :
    Passes x 0 tx a tx' :=
  ⟨fun faults _ => h faults, fun faults e hstruck => by simp at hstruck⟩

theorem Passes.get_bind {f : Tx → TxM α} (hf : ∀ faults, f (tx.under faults) = f tx) (h : Passes (f tx) k tx a tx') :
    Passes (Script.get >>= f) k tx a tx' := by
  constructor
  · intro faults hnone
    rw [Script.get_bind, hf]
    exact h.clear faults hnone
  · intro faults e hsome
    rw [Script.get_bind, hf]
    exact h.struck faults e hsome

theorem passes_statement : Passes statement 1 tx () tx := by
  constructor
  · intro faults h
    match faults with
    | [] => rfl
    | none :: rest => rfl
    | some e :: rest => simp [firstFault] at h
  · intro faults e h
    match faults with
    | [] => simp at h
    | none :: rest => simp [firstFault] at h
    | some e' :: rest =>
      have he : e' = e := by simpa [firstFault] using h
      subst he
      rfl

theorem passes_require {p : Prop} [Decidable p] {e : CheckoutError} (hp : p) : Passes (require p e) 0 tx () tx := by
  apply Passes.of_eq
  intro faults
  rw [require, if_pos hp]
  rfl

/-! ### The parts of the transaction -/

theorem acquireLocks_passes (locks : List String) : Passes (acquireLocks locks) locks.length tx () tx := by
  induction locks with
  | nil => exact .of_eq fun _ => rfl
  | cons lock rest ih =>
    have h := passes_statement.bind (f := fun _ => acquireLocks rest) ih
    rwa [Nat.add_comm] at h

theorem priceItems_passes {call : CheckoutCall} {items : List PricedItem}
    (hlength : (requestedProducts call.lines tx.snapshot).length = call.lines.length)
    (hitems : call.lines.mapM (priceItem tx.snapshot (requestedProducts call.lines tx.snapshot)) = .ok items) :
    Passes (priceItems call) 1 tx items tx := by
  refine passes_statement.bind (l := 0) (Passes.get_bind (fun _ => rfl) (.of_eq fun faults => ?_))
  rw [if_neg (not_not.mpr hlength), hitems]
  rfl

/-- What a reservation leaves when the snapshot and the store have the same inventory. -/
def Tx.withInventory (tx : Tx) (inventory : Table Inventory.productId) : Tx :=
  {tx with
    snapshot := {tx.snapshot with inventory := inventory}
    db := {tx.db with inventory := inventory}}

theorem reserve_passes {line : CheckoutLine} {row : Inventory} {inventory : Table Inventory.productId}
    (hrow : inventory.find? line.productId = some row) (henough : (line.quantity : Int) ≤ row.availableQty)
    (hquantity : Int4 line.quantity) (hcolumn : Int4 (row.reservedQty + line.quantity) ∧ Int4 (row.version + 1)) :
    Passes (reserve line) 1 (tx.withInventory inventory) ()
      (tx.withInventory (inventory.set (reservedRow row line.quantity))) := by
  refine (passes_require hquantity).bind (l := 1) (passes_statement.bind (l := 0)
    (Passes.get_bind (fun _ => rfl) ?_))
  dsimp only [Tx.withInventory]
  rw [hrow]
  dsimp only
  rw [if_neg (not_lt.mpr henough)]
  exact (passes_require rfl).bind (l := 0) ((passes_require hcolumn).bind (l := 0) (.of_eq fun _ => rfl))

theorem reserveAll_passes {lines : List CheckoutLine} {inventory inventory' : Table Inventory.productId}
    (h : Reserved lines inventory inventory') :
    Passes (reserveAll lines) lines.length (tx.withInventory inventory) () (tx.withInventory inventory') := by
  induction h with
  | nil => exact .of_eq fun _ => rfl
  | @cons line rest row t t' found enough quantity column _ ih =>
    have hline : Passes (reserve line) 1 (tx.withInventory t) ()
        (tx.withInventory (t.set (reservedRow row line.quantity))) :=
      reserve_passes found enough quantity column
    have h := hline.bind (f := fun _ => reserveAll rest) ih
    rwa [Nat.add_comm] at h

theorem createOrder_passes {order : Order} {items : List PricedItem} {orders : Table Order.id}
    (htotal : Int4 order.totalCents)
    (hnew : ∀ o ∈ tx.db.orders.rows, ¬(o.customerId = order.customerId ∧ o.idempotencyKey = order.idempotencyKey))
    (hinsert : tx.db.orders.insert? order = some orders) :
    Passes (createOrder order items) 1 tx ()
      {tx with db := {tx.db with
        orders := orders
        orderItems := tx.db.orderItems ++ items.map (newOrderItem order.id)}} := by
  refine (passes_require htotal).bind (l := 1) (passes_statement.bind (l := 0) (Passes.get_bind (fun _ => rfl) ?_))
  refine (passes_require hnew).bind (l := 0) ?_
  rw [hinsert]
  exact .of_eq fun _ => rfl

theorem createOutboxEvent_passes {event : OutboxEvent} {events : Table OutboxEvent.id}
    (hinsert : tx.db.outboxEvents.insert? event = some events) :
    Passes (createOutboxEvent event) 1 tx () {tx with db := {tx.db with outboxEvents := events}} := by
  refine passes_statement.bind (l := 0) (Passes.get_bind (fun _ => rfl) ?_)
  rw [hinsert]
  exact .of_eq fun _ => rfl

theorem createIdempotencyKey_passes {entry : IdempotencyKey} {keys : Table IdempotencyKey.customerKey}
    (hfresh : ∀ r ∈ tx.db.idempotencyKeys.rows, r.orderId = none ∨ r.orderId ≠ entry.orderId)
    (hinsert : tx.db.idempotencyKeys.insert? entry = some keys) :
    Passes (createIdempotencyKey entry) 1 tx () {tx with db := {tx.db with idempotencyKeys := keys}} := by
  refine passes_statement.bind (l := 0) (Passes.get_bind (fun _ => rfl) ?_)
  refine (passes_require hfresh).bind (l := 0) ?_
  rw [hinsert]
  exact .of_eq fun _ => rfl

theorem passes_record (f : Telemetry → Telemetry) :
    Passes (record f) 0 tx () {tx with telemetry := f tx.telemetry} :=
  .of_eq fun _ => rfl

/-! ### The transaction -/

/-- The store can serve the call, at these prices and leaving this inventory. -/
structure Serves (call : CheckoutCall) (db : Database) (items : List PricedItem)
    (inventory : Table Inventory.productId) : Prop where
  unused : Unused call.customerId call.idempotencyKey db
  available : (requestedProducts call.lines db).length = call.lines.length
  priced : call.lines.mapM (priceItem db (requestedProducts call.lines db)) = .ok items
  total : Int4 (totalCents items)
  reserved : Reserved call.lines db.inventory inventory

/-- How many statements an attempt makes up to its commit. -/
def statements (call : CheckoutCall) : Nat :=
  (lockKeys call.customerId call.idempotencyKey call.lines).length + call.lines.length + 6

/-- An accepted call was one the store could serve. -/
theorem Accepted.serves {call : CheckoutCall} {attempt : Attempt} {db db' : Database} {result : CheckoutResult}
    {items : List PricedItem} (h : Accepted call attempt db db db' result items) :
    Serves call db items db'.inventory where
  unused := ⟨h.newKey, (Table.insert?_eq_some h.key).1⟩
  available := h.available
  priced := h.priced
  total := h.total
  reserved := h.reserved

/-- The inserts on an unused key, with new ids. -/
theorem inserts_pass {call : CheckoutCall} {attempt : Attempt} {items : List PricedItem} {db : Database}
    {f g : Telemetry → Telemetry} (hdb : tx.db = {db with inventory := tx.db.inventory})
    (htotal : Int4 (totalCents items)) (hunused : Unused call.customerId call.idempotencyKey db)
    (hids : FreshIds attempt db) :
    ∃ tx', Passes (do
      createOrder (newOrder call attempt.orderId items) items
      record f
      createOutboxEvent (orderAccepted call attempt.eventId (newOrder call attempt.orderId items))
      createIdempotencyKey (completedKey call (newOrder call attempt.orderId items))
      record g
      return (⟨202, responseBody (newOrder call attempt.orderId items)⟩ : CheckoutResult)) 3 tx
        ⟨202, responseBody (newOrder call attempt.orderId items)⟩ tx' := by
  have horders : tx.db.orders = db.orders := by rw [hdb]
  have hevents : tx.db.outboxEvents = db.outboxEvents := by rw [hdb]
  have hkeys : tx.db.idempotencyKeys = db.idempotencyKeys := by rw [hdb]
  obtain ⟨orders, horder, _⟩ := Table.insert?_of_fresh (r := newOrder call attempt.orderId items) hids.order
  obtain ⟨events, hevent, _⟩ := Table.insert?_of_fresh
    (r := orderAccepted call attempt.eventId (newOrder call attempt.orderId items)) hids.event
  obtain ⟨keys, hkey, _⟩ := Table.insert?_of_fresh
    (r := completedKey call (newOrder call attempt.orderId items)) hunused.row
  rw [← horders] at horder
  rw [← hevents] at hevent
  rw [← hkeys] at hkey
  have hnew : ∀ o ∈ tx.db.orders.rows, ¬(o.customerId = call.customerId ∧ o.idempotencyKey = call.idempotencyKey) := by
    rw [horders]
    exact hunused.order
  have hfresh : ∀ r ∈ tx.db.idempotencyKeys.rows, r.orderId = none ∨ r.orderId ≠ some attempt.orderId := by
    rw [hkeys]
    exact fun r hr => .inr (hids.key r hr)
  refine (createOrder_passes htotal hnew horder).then (l := 2) ?_
  refine (passes_record f).then (l := 2) ((createOutboxEvent_passes (by exact hevent)).then (l := 1) ?_)
  refine (createIdempotencyKey_passes (by exact hfresh) (by exact hkey)).then (l := 0) ?_
  exact (passes_record g).then (l := 0) ⟨_, .of_eq fun _ => rfl⟩

/-- On a store that can serve the call an attempt with new ids succeeds, unless one of its
statements fails. -/
theorem transact_passes {call : CheckoutCall} {attempt : Attempt} {db : Database} {items : List PricedItem}
    {inventory : Table Inventory.productId} (h : Serves call db items inventory) (hids : FreshIds attempt db)
    (telemetry : Telemetry) :
    ∃ tx', Passes (transact call attempt) (statements call) (.start db telemetry [])
      ⟨202, responseBody (newOrder call attempt.orderId items)⟩ tx' := by
  have hlocks : Passes (acquireLocks (lockKeys call.customerId call.idempotencyKey call.lines)) _
      (.start db telemetry []) () (.start db telemetry []) := acquireLocks_passes _
  have hexisting : checkExisting call.requestHash
      ((Tx.start db telemetry []).snapshot.idempotencyKeys.find? (call.customerId, call.idempotencyKey)) =
        .proceed := by
    show checkExisting _ (db.idempotencyKeys.find? _) = _
    rw [h.unused.row]
    rfl
  have hprice : Passes (priceItems call) 1 (.start db telemetry []) items (.start db telemetry []) :=
    priceItems_passes h.available h.priced
  have hreserved : Passes (reserveAll call.lines) call.lines.length
      ((Tx.start db telemetry []).withInventory db.inventory) ()
      ((Tx.start db telemetry []).withInventory inventory) := reserveAll_passes h.reserved
  have hreserve : Passes (reserveAll call.lines) call.lines.length (.start db telemetry []) ()
      ((Tx.start db telemetry []).withInventory inventory) := hreserved
  have hdb : ((Tx.start db telemetry []).withInventory inventory).db = {db with inventory := inventory} := rfl
  obtain ⟨tx', hinserts⟩ := inserts_pass (f := fun t => {t with orderId := some attempt.orderId})
    (g := fun t => {t with outcome := .accepted, checkoutAccepted := t.checkoutAccepted + 1})
    hdb h.total h.unused hids
  have hcallback : Passes (checkoutTransaction call attempt) _ (.start db telemetry []) _ tx' :=
    hlocks.bind (passes_statement.bind (l := 1 + (call.lines.length + 3)) (Passes.get_bind (fun _ => rfl) (by
      rw [hexisting]
      exact hprice.bind (hreserve.bind hinserts))))
  have htransact := hcallback.bind (f := fun result => statement >>= fun _ => pure result)
    (passes_statement.bind (l := 0) (.of_eq fun _ => rfl))
  have hcount : (lockKeys call.customerId call.idempotencyKey call.lines).length +
      (1 + (1 + (call.lines.length + 3))) + (1 + 0) = statements call := by
    unfold statements
    omega
  rw [hcount] at htransact
  exact ⟨tx', htransact⟩

/-! ### The retries -/

/-- One of the attempts meets no fault, and those before it a conflict each, which is
retried. -/
def GetsThrough (call : CheckoutCall) (attempts : Nat → Attempt) : Prop :=
  ∃ n < checkoutRetryAttempts, (∀ m < n, firstFault (statements call) (attempts m).faults = some .p2034) ∧
    firstFault (statements call) (attempts n).faults = none

instance (call : CheckoutCall) (attempts : Nat → Attempt) : Decidable (GetsThrough call attempts) :=
  inferInstanceAs (Decidable (∃ n, n < checkoutRetryAttempts ∧ _))

theorem first_success_succ {conflict success : Nat → Prop} {left : Nat} :
    (∃ n ≤ left + 1, (∀ m < n, conflict m) ∧ success n) ↔
      success 0 ∨ conflict 0 ∧ ∃ n ≤ left, (∀ m < n, conflict (m + 1)) ∧ success (n + 1) := by
  constructor
  · rintro ⟨n, hn, hconflict, hsuccess⟩
    cases n with
    | zero => exact .inl hsuccess
    | succ n =>
      refine .inr ⟨hconflict 0 (Nat.succ_pos n), n, Nat.le_of_succ_le_succ hn, fun m hm => ?_, hsuccess⟩
      exact hconflict (m + 1) (Nat.succ_lt_succ hm)
  · rintro (hsuccess | ⟨hfirst, n, hn, hconflict, hsuccess⟩)
    · exact ⟨0, Nat.zero_le _, nofun, hsuccess⟩
    · refine ⟨n + 1, Nat.succ_le_succ hn, fun m hm => ?_, hsuccess⟩
      cases m with
      | zero => exact hfirst
      | succ m => exact hconflict m (Nat.lt_of_succ_lt_succ hm)

section Retries
variable {call : CheckoutCall} {attempts : Nat → Attempt} {db : Database}

/-- One attempt of the loop. -/
def tried (call : CheckoutCall) (attempts : Nat → Attempt) (db : Database) (attempt : Nat) (telemetry : Telemetry) :
    Except CheckoutError CheckoutResult × Tx :=
  transact call (attempts attempt) (.start db telemetry (attempts attempt).faults)

theorem retryFrom_zero (attempt : Nat) (telemetry : Telemetry) :
    (retryFrom call attempts db 0 attempt telemetry).1 = (tried call attempts db attempt telemetry).1 := by
  unfold retryFrom tried
  rcases transact call (attempts attempt) (.start db telemetry (attempts attempt).faults) with ⟨_ | _, tx⟩ <;> rfl

theorem retryFrom_succ (left attempt : Nat) (telemetry : Telemetry) :
    (∃ result, (retryFrom call attempts db (left + 1) attempt telemetry).1 = .ok result) ↔
      (∃ result, (tried call attempts db attempt telemetry).1 = .ok result) ∨
        (tried call attempts db attempt telemetry).1 = .error (.database .p2034) ∧ ∃ result,
          (retryFrom call attempts db left (attempt + 1) (tried call attempts db attempt telemetry).2.telemetry).1 =
            .ok result := by
  rw [retryFrom]
  unfold tried
  rcases transact call (attempts attempt) (.start db telemetry (attempts attempt).faults) with ⟨error | result, tx⟩
  · dsimp only
    by_cases hconflict : error = .database .p2034
    · subst hconflict
      simp [isRetryableTransactionError]
    · have hretry : isRetryableTransactionError error = false := by
        unfold isRetryableTransactionError
        split
        · exact absurd rfl hconflict
        · rfl
      simp [hretry, hconflict]
  · simp

/-- An attempt that does not fail with a conflict is the last. -/
theorem run_first {telemetry : Telemetry} {r : Except CheckoutError CheckoutResult} {tx : Tx}
    (h : tried call attempts db 0 telemetry = (r, tx))
    (hfinal : ∀ error, r = .error error → isRetryableTransactionError error = false) :
    runCheckoutTransactionWithRetry call attempts db telemetry =
      (r, if r.isOk then tx.db else db, tx.telemetry) := by
  unfold tried at h
  unfold runCheckoutTransactionWithRetry
  rw [checkoutRetryAttempts, retryFrom, h]
  cases r with
  | ok result => rfl
  | error error =>
    dsimp only
    rw [hfinal error rfl]
    rfl

/-- A call whose first attempt meets no fault and does not fail with a conflict ends as that attempt. -/
theorem process_first {input : CheckoutInput} {r : Except CheckoutError CheckoutResult} {tx : Tx}
    (hfaults : (input.attempts 0).faults = []) (hfault : input.invalidationFault = none)
    (h : transact call (input.attempts 0) (.start db {checkoutStarted := 1} []) = (r, tx))
    (hfinal : ∀ error, r = .error error → isRetryableTransactionError error = false) :
    process call input db = (r, if r.isOk then tx.db else db, observed (leaveSpan input.traced tx.telemetry)) := by
  have htried : tried call input.attempts db 0 {checkoutStarted := 1} = (r, tx) := by
    unfold tried
    rw [hfaults, h]
  rw [process_eq call hfault, run_first htried hfinal]

/-- Where the store can serve the call, each attempt's end is decided by its faults. -/
theorem tried_serves {items : List PricedItem} {inventory : Table Inventory.productId}
    (h : Serves call db items inventory) (hids : ∀ n, FreshIds (attempts n) db) (attempt : Nat)
    (telemetry : Telemetry) :
    (tried call attempts db attempt telemetry).1 =
      match firstFault (statements call) (attempts attempt).faults with
      | none => .ok ⟨202, responseBody (newOrder call (attempts attempt).orderId items)⟩
      | some e => .error (.database e) := by
  obtain ⟨tx', hpass⟩ := transact_passes h (hids attempt) telemetry
  cases hfault : firstFault (statements call) (attempts attempt).faults with
  | none => exact congrArg Prod.fst (hpass.clear _ hfault)
  | some e => exact hpass.struck _ e hfault

theorem retryFrom_serves {items : List PricedItem} {inventory : Table Inventory.productId}
    (h : Serves call db items inventory) (hids : ∀ n, FreshIds (attempts n) db) (left attempt : Nat)
    (telemetry : Telemetry) :
    (∃ result, (retryFrom call attempts db left attempt telemetry).1 = .ok result) ↔
      ∃ n ≤ left, (∀ m < n, firstFault (statements call) (attempts (attempt + m)).faults = some .p2034) ∧
        firstFault (statements call) (attempts (attempt + n)).faults = none := by
  have hok : ∀ n t, (∃ result, (tried call attempts db n t).1 = .ok result) ↔
      firstFault (statements call) (attempts n).faults = none := by
    intro n t
    rw [tried_serves h hids]
    cases firstFault (statements call) (attempts n).faults <;> simp
  have hconflict : ∀ n t, (tried call attempts db n t).1 = .error (.database .p2034) ↔
      firstFault (statements call) (attempts n).faults = some .p2034 := by
    intro n t
    rw [tried_serves h hids]
    cases firstFault (statements call) (attempts n).faults <;> simp
  induction left generalizing attempt telemetry with
  | zero =>
    rw [retryFrom_zero, hok]
    simp
  | succ left ih =>
    have hrest := ih (attempt + 1) (tried call attempts db attempt telemetry).2.telemetry
    simp only [Nat.add_assoc, Nat.add_comm 1] at hrest
    rw [retryFrom_succ, first_success_succ]
    exact or_congr (hok attempt telemetry) (and_congr (hconflict attempt telemetry) hrest)

/-- On a store that can serve the call, the transaction and its retries succeed exactly
when one of the attempts gets through. -/
theorem run_serves {items : List PricedItem} {inventory : Table Inventory.productId}
    (h : Serves call db items inventory) (hids : ∀ n, FreshIds (attempts n) db) (telemetry : Telemetry) :
    (∃ result, (runCheckoutTransactionWithRetry call attempts db telemetry).1 = .ok result) ↔
      GetsThrough call attempts := by
  unfold runCheckoutTransactionWithRetry GetsThrough
  rw [retryFrom_serves h hids]
  simp only [Nat.zero_add, checkoutRetryAttempts, Nat.lt_succ_iff, Nat.add_one_sub_one]

end Retries

end CaseCellShop.Checkout
