import CaseCellShop.Checkout.Faults

/-! A transaction attempt in parts.

Between the statements of the callback stand the lines that note something outside the
store: the order id of the current context, a counter, the outcome. What an attempt has
noted when it meets a fault therefore depends on the part it is in: finding the
idempotency row, placing the order, inserting the rows that go with it, or the commit. -/
namespace CaseCellShop.Checkout
open Script

/-! ### Scripts that count nothing -/

/-- The telemetry without the rejections. -/
def accounts (t : Telemetry) : Telemetry := {t with checkoutRejectedOutOfStock := 0}

/-- The accounts of a request, whose context does not see what is set under a span. -/
def requestAccounts (traced : Bool) (t : Telemetry) : Telemetry := leaveSpan traced (accounts t)

/-- Whatever comes of the script, the accounts stay as they are. -/
def Quiet {α : Type} (x : TxM α) : Prop := ∀ tx, accounts (x tx).2.telemetry = accounts tx.telemetry

theorem kept_quiet : Kept fun tx tx' => accounts tx'.telemetry = accounts tx.telemetry where
  refl _ := rfl
  trans h h' := h'.trans h
  statement tx := by
    unfold statement
    split <;> rfl
  stores _ _ _ := rfl
  rejected _ := rfl

/-! ### The transaction in parts -/

/-- The locks and the idempotency row. -/
def lookUp (call : CheckoutCall) : TxM Existing := do
  acquireLocks (lockKeys call.customerId call.idempotencyKey call.lines)
  statement
  let tx ← Script.get
  return checkExisting call.requestHash (tx.snapshot.idempotencyKeys.find? (call.customerId, call.idempotencyKey))

/-- The prices, the reservations and the order's row. -/
def placeOrder (call : CheckoutCall) (attempt : Attempt) : TxM Order := do
  let items ← priceItems call
  reserveAll call.lines
  createOrder (newOrder call attempt.orderId items) items
  return newOrder call attempt.orderId items

/-- The rows that go with the order. -/
def insertRows (call : CheckoutCall) (attempt : Attempt) (order : Order) : TxM Unit := do
  createOutboxEvent (orderAccepted call attempt.eventId order)
  createIdempotencyKey (completedKey call order)

/-- The order id is in the current context. -/
def noted (orderId : String) (t : Telemetry) : Telemetry := {t with orderId := some orderId}

def countedAccepted (t : Telemetry) : Telemetry :=
  {t with outcome := .accepted, checkoutAccepted := t.checkoutAccepted + 1}

def countedDuplicate (orderId : Option String) (t : Telemetry) : Telemetry :=
  {t with
    outcome := .idempotent
    idempotencyDuplicate := t.idempotencyDuplicate + 1
    orderId := orderId.or t.orderId}

/-- The callback on an unused key. -/
def accept (call : CheckoutCall) (attempt : Attempt) : TxM CheckoutResult := do
  let order ← placeOrder call attempt
  record (noted order.id)
  insertRows call attempt order
  record countedAccepted
  return ⟨202, responseBody order⟩

/-- What the callback does about the row it found. -/
def respond (call : CheckoutCall) (attempt : Attempt) : Existing → TxM CheckoutResult
  | .refuse message => fail (.conflict message)
  | .replay orderId response => replay orderId response
  | .proceed => accept call attempt

def commit (result : CheckoutResult) : TxM CheckoutResult := do
  statement
  return result

theorem transact_eq (call : CheckoutCall) (attempt : Attempt) :
    transact call attempt = lookUp call >>= fun existing => respond call attempt existing >>= commit := by
  have haccept : accept call attempt = (do
      let items ← priceItems call
      reserveAll call.lines
      let order := newOrder call attempt.orderId items
      createOrder order items
      record (noted order.id)
      createOutboxEvent (orderAccepted call attempt.eventId order)
      createIdempotencyKey (completedKey call order)
      record countedAccepted
      return ⟨202, responseBody order⟩) := by
    simp only [accept, placeOrder, insertRows, bind_bind]
    rfl
  have hcallback : checkoutTransaction call attempt = lookUp call >>= respond call attempt := by
    simp only [checkoutTransaction, lookUp, bind_bind]
    congr 1
    funext _
    congr 1
    funext _
    funext tx
    rw [get_bind, get_bind]
    cases checkExisting call.requestHash
        (tx.snapshot.idempotencyKeys.find? (call.customerId, call.idempotencyKey)) with
    | refuse message => rfl
    | replay orderId response => rfl
    | proceed => exact (congrFun haccept tx).symm
  rw [transact, hcallback, bind_bind]
  rfl

theorem accept_commit (call : CheckoutCall) (attempt : Attempt) :
    accept call attempt >>= commit = placeOrder call attempt >>= fun order => record (noted order.id) >>= fun _ =>
      insertRows call attempt order >>= fun _ => record countedAccepted >>= fun _ =>
        commit ⟨202, responseBody order⟩ := by
  simp only [accept, bind_bind]
  rfl

/-! ### Faults -/

/-- The attempt meets a fault in its first `k` statements. -/
def Struck (k : Nat) (attempt : Attempt) : Prop := firstFault k attempt.faults ≠ none

instance (k : Nat) (attempt : Attempt) : Decidable (Struck k attempt) :=
  inferInstanceAs (Decidable (_ ≠ _))

/-- All faults are conflicts. -/
def Conflicts (attempt : Attempt) : Prop := ∀ fault ∈ attempt.faults, fault = none ∨ fault = some .p2034

theorem Struck.mono {k l : Nat} {attempt : Attempt} (h : Struck k attempt) (hkl : k ≤ l) : Struck l attempt := by
  obtain ⟨m, rfl⟩ := Nat.exists_eq_add_of_le hkl
  unfold Struck at *
  rw [firstFault_add, Ne, Option.or_eq_none_iff]
  exact fun hnone => h hnone.1

theorem Conflicts.firstFault_eq {k : Nat} {attempt : Attempt} (h : Conflicts attempt) (hstruck : Struck k attempt) :
    firstFault k attempt.faults = some .p2034 := by
  obtain ⟨e, he⟩ := Option.ne_none_iff_exists'.mp hstruck
  obtain ⟨fault, hmem, hfault⟩ := List.exists_of_findSome?_eq_some he
  obtain rfl : fault = some e := hfault
  rcases h _ (List.mem_of_mem_take hmem) with hnone | hsome
  · cases hnone
  · rw [he, hsome]

theorem not_struck {k : Nat} {attempt : Attempt} : ¬Struck k attempt ↔ firstFault k attempt.faults = none := not_not

/-! ### An attempt -/

/-- The attempt throws the error, and the request has these accounts. -/
structure Throws (traced : Bool) (r : Except CheckoutError CheckoutResult × Tx) (e : CheckoutError) (t : Telemetry) :
    Prop where
  error : r.1 = .error e
  accounts_eq : requestAccounts traced r.2.telemetry = requestAccounts traced t

structure Returns (traced : Bool) (r : Except CheckoutError CheckoutResult × Tx) (result : CheckoutResult)
    (t : Telemetry) : Prop where
  ok : r.1 = .ok result
  accounts_eq : requestAccounts traced r.2.telemetry = requestAccounts traced t

/-- Under a span the request's context does not see an order id. -/
theorem Throws.unnoted {r : Except CheckoutError CheckoutResult × Tx} {e : CheckoutError} {id : String}
    {t : Telemetry}
    (h : Throws true r e (noted id t)) : Throws true r e t := ⟨h.error, h.accounts_eq⟩

variable {traced : Bool}

section Parts
variable {α : Type} {x : TxM α} {k : Nat} {tx t : Tx} {a : α} {faults : List (Option DbError)}

/-- A quiet part that meets a fault. -/
theorem Passes.throws (h : Passes x k tx a t) (hx : Quiet x) {e : DbError} (hfault : firstFault k faults = some e)
    (f : α → TxM CheckoutResult) : Throws traced ((x >>= f) (tx.under faults)) (.database e) tx.telemetry := by
  have herror := h.struck faults e hfault
  have hquiet := hx (tx.under faults)
  rcases hrun : x (tx.under faults) with ⟨r, t'⟩
  rw [hrun] at herror hquiet
  obtain rfl : r = .error (.database e) := herror
  rw [bind_of_error hrun]
  exact ⟨rfl, congrArg (leaveSpan traced) hquiet⟩

theorem Passes.goes_on (h : Passes x k tx a t) (hfault : firstFault k faults = none) (f : α → TxM CheckoutResult) :
    (x >>= f) (tx.under faults) = f a (t.under (faults.drop k)) := by
  rw [bind_of_ok (h.clear faults hfault)]

end Parts

/-- The statements that find the idempotency row. -/
def lookUpStatements (call : CheckoutCall) : Nat :=
  (lockKeys call.customerId call.idempotencyKey call.lines).length + 1

/-- The statements up to the order's row. -/
def orderStatements (call : CheckoutCall) : Nat := lookUpStatements call + (call.lines.length + 2)

section LookUp
variable {call : CheckoutCall} {attempt : Attempt} {db : Database} {existing : Existing}
  (hexisting : checkExisting call.requestHash (db.idempotencyKeys.find? (call.customerId, call.idempotencyKey)) = existing)
include hexisting

theorem lookUp_passes (t : Telemetry) :
    Passes (lookUp call) (lookUpStatements call) (.start db t []) existing (.start db t []) := by
  refine (acquireLocks_passes _).bind (l := 1) (passes_statement.bind (l := 0) (Passes.get_bind (fun _ => rfl) ?_))
  exact .of_eq fun _ => by rw [← hexisting]; rfl

/-- An attempt that meets a fault before it has the idempotency row. -/
theorem lookUp_throws (hconflicts : Conflicts attempt) (hstruck : Struck (lookUpStatements call) attempt)
    (t : Telemetry) :
    Throws traced (transact call attempt (.start db t attempt.faults)) (.database .p2034) t := by
  have hquiet : Quiet (lookUp call) := kept_quiet.bind (kept_quiet.acquireLocks _) fun _ =>
    kept_quiet.statement_bind fun _ => kept_quiet.get_bind fun _ => kept_quiet.returns _
  rw [transact_eq]
  exact (lookUp_passes hexisting t).throws hquiet (hconflicts.firstFault_eq hstruck) _

theorem lookUp_goes_on (hclear : ¬Struck (lookUpStatements call) attempt) (t : Telemetry) :
    transact call attempt (.start db t attempt.faults) = (respond call attempt existing >>= commit)
      ((Tx.start db t []).under (attempt.faults.drop (lookUpStatements call))) := by
  rw [transact_eq]
  exact (lookUp_passes hexisting t).goes_on (not_struck.mp hclear) _

end LookUp

/-- The commit after a callback of `k` statements. -/
theorem commit_ends {k : Nat} {attempt : Attempt} (hconflicts : Conflicts attempt) (hk : ¬Struck k attempt)
    (result : CheckoutResult) (tx : Tx) :
    (Struck (k + 1) attempt → Throws traced (commit result (tx.under (attempt.faults.drop k))) (.database .p2034) tx.telemetry) ∧
      (¬Struck (k + 1) attempt → Returns traced (commit result (tx.under (attempt.faults.drop k))) result tx.telemetry) := by
  have hsplit : firstFault (k + 1) attempt.faults = firstFault 1 (attempt.faults.drop k) := by
    rw [firstFault_add, not_struck.mp hk, Option.none_or]
  constructor
  · intro hstruck
    have hfault := hconflicts.firstFault_eq hstruck
    rw [hsplit] at hfault
    exact (@passes_statement tx).throws kept_quiet.statement hfault _
  · intro hclear
    have hfault := not_struck.mp hclear
    rw [hsplit] at hfault
    have hrun : commit result (tx.under (attempt.faults.drop k)) = _ := (@passes_statement tx).goes_on hfault _
    rw [hrun]
    exact ⟨rfl, rfl⟩

/-- An attempt that finds a stored response. -/
theorem replay_ends {call : CheckoutCall} {attempt : Attempt} {db : Database} {orderId : Option String}
    {response : CheckoutAcceptedResponse} (hconflicts : Conflicts attempt)
    (hclear : ¬Struck (lookUpStatements call) attempt)
    (h : checkExisting call.requestHash (db.idempotencyKeys.find? (call.customerId, call.idempotencyKey)) =
      .replay orderId response) (t : Telemetry) :
    (Struck (lookUpStatements call + 1) attempt →
      Throws traced (transact call attempt (.start db t attempt.faults)) (.database .p2034) (countedDuplicate orderId t)) ∧
    (¬Struck (lookUpStatements call + 1) attempt →
      Returns traced (transact call attempt (.start db t attempt.faults)) ⟨200, response⟩ (countedDuplicate orderId t)) := by
  rw [lookUp_goes_on h hclear]
  exact commit_ends hconflicts hclear ⟨200, response⟩ (.start db (countedDuplicate orderId t) [])

/-! ### An attempt at a new order -/

/-- The store lets the call create its order, at these prices and leaving this inventory. -/
structure Creates (call : CheckoutCall) (db : Database) (items : List PricedItem)
    (inventory : Table Inventory.productId) : Prop where
  proceed : checkExisting call.requestHash (db.idempotencyKeys.find? (call.customerId, call.idempotencyKey)) = .proceed
  available : (requestedProducts call.lines db).length = call.lines.length
  priced : call.lines.mapM (priceItem db (requestedProducts call.lines db)) = .ok items
  total : Int4 (totalCents items)
  reserved : Reserved call.lines db.inventory inventory
  unused : ∀ o ∈ db.orders.rows, ¬(o.customerId = call.customerId ∧ o.idempotencyKey = call.idempotencyKey)

theorem quiet_placeOrder (call : CheckoutCall) (attempt : Attempt) : Quiet (placeOrder call attempt) :=
  kept_quiet.bind (kept_quiet.priceItems call) fun _ => kept_quiet.bind (kept_quiet.reserveAll _) fun _ =>
    kept_quiet.bind (kept_quiet.createOrder _ _) fun _ => kept_quiet.returns _

theorem quiet_insertRows (call : CheckoutCall) (attempt : Attempt) (order : Order) :
    Quiet (insertRows call attempt order) :=
  kept_quiet.bind (kept_quiet.createOutboxEvent _) fun _ => kept_quiet.createIdempotencyKey _

/-- An order is only placed where the store lets it. -/
theorem placeOrder_ok {call : CheckoutCall} {attempt : Attempt} {db : Database} {t : Telemetry}
    {faults : List (Option DbError)} {order : Order} {tx' : Tx}
    (hproceed : checkExisting call.requestHash (db.idempotencyKeys.find? (call.customerId, call.idempotencyKey)) = .proceed)
    (h : placeOrder call attempt (.start db t faults) = (.ok order, tx')) :
    (∃ items inventory, Creates call db items inventory) ∧ order.id = attempt.orderId ∧
      tx'.db.idempotencyKeys = db.idempotencyKeys := by
  obtain ⟨items, t₁, hprice, h₁⟩ := bind_eq_ok.mp h
  obtain ⟨hsame, hlength, hitems⟩ := priceItems_ok hprice
  obtain ⟨_, t₂, hreserve, h₂⟩ := bind_eq_ok.mp h₁
  obtain ⟨hreserved, hdb₂⟩ := reserveAll_ok hreserve
  obtain ⟨_, t₃, hcreate, h₃⟩ := bind_eq_ok.mp h₂
  obtain ⟨htotal, hnew, orders, _, hdb₃⟩ := createOrder_ok hcreate
  cases h₃
  rw [hsame.2] at hreserved hdb₂
  rw [hdb₂] at hnew hdb₃
  exact ⟨⟨items, t₂.db.inventory, hproceed, hlength, hitems, htotal, hreserved, hnew⟩, rfl, by rw [hdb₃]; rfl⟩

/-- What is left to do once the order has its row. -/
def finish (call : CheckoutCall) (attempt : Attempt) (order : Order) : TxM CheckoutResult := do
  insertRows call attempt order
  record countedAccepted
  commit ⟨202, responseBody order⟩

section Creates
variable {call : CheckoutCall} {attempt : Attempt} {db : Database} {items : List PricedItem}
  {inventory : Table Inventory.productId} (h : Creates call db items inventory) (hids : FreshIds attempt db)
include h hids

theorem placeOrder_passes (t : Telemetry) :
    ∃ tx, Passes (placeOrder call attempt) (call.lines.length + 2) (.start db t [])
        (newOrder call attempt.orderId items) tx ∧
      tx.telemetry = t ∧ tx.db.outboxEvents = db.outboxEvents ∧ tx.db.idempotencyKeys = db.idempotencyKeys := by
  have hprice : Passes (priceItems call) 1 (.start db t []) items (.start db t []) :=
    priceItems_passes h.available h.priced
  have hreserved : Passes (reserveAll call.lines) call.lines.length ((Tx.start db t []).withInventory db.inventory) ()
      ((Tx.start db t []).withInventory inventory) := reserveAll_passes h.reserved
  have hreserve : Passes (reserveAll call.lines) call.lines.length (.start db t []) ()
      ((Tx.start db t []).withInventory inventory) := hreserved
  obtain ⟨orders, horder, _⟩ := Table.insert?_of_fresh (r := newOrder call attempt.orderId items) hids.order
  have hcreate : Passes (createOrder (newOrder call attempt.orderId items) items) 1
      ((Tx.start db t []).withInventory inventory) () _ := createOrder_passes h.total h.unused horder
  have hplace : Passes (placeOrder call attempt) (1 + (call.lines.length + (1 + 0))) (.start db t [])
      (newOrder call attempt.orderId items) _ :=
    hprice.bind (hreserve.bind (hcreate.bind (.of_eq fun _ => rfl)))
  rw [show 1 + (call.lines.length + (1 + 0)) = call.lines.length + 2 by omega] at hplace
  exact ⟨_, hplace, rfl, rfl, rfl⟩

/-- An attempt that meets a fault before it has created its order. -/
theorem create_throws (hconflicts : Conflicts attempt) (hstruck : Struck (orderStatements call) attempt)
    (t : Telemetry) :
    Throws traced (transact call attempt (.start db t attempt.faults)) (.database .p2034) t := by
  by_cases hlook : Struck (lookUpStatements call) attempt
  · exact lookUp_throws h.proceed hconflicts hlook t
  · have hfault := hconflicts.firstFault_eq hstruck
    rw [orderStatements, firstFault_add, not_struck.mp hlook, Option.none_or] at hfault
    obtain ⟨tx, hplace, _⟩ := placeOrder_passes h hids t
    rw [lookUp_goes_on h.proceed hlook]
    show Throws traced ((accept call attempt >>= commit) _) _ _
    rw [accept_commit]
    exact hplace.throws (quiet_placeOrder call attempt) hfault _

/-- An attempt that has created its order. -/
theorem create_goes_on (hclear : ¬Struck (orderStatements call) attempt) (t : Telemetry) :
    ∃ tx : Tx, transact call attempt (.start db t attempt.faults) =
        finish call attempt (newOrder call attempt.orderId items) (tx.under (attempt.faults.drop (orderStatements call))) ∧
      tx.telemetry = noted attempt.orderId t ∧ tx.db.outboxEvents = db.outboxEvents ∧
        tx.db.idempotencyKeys = db.idempotencyKeys := by
  have hlook : ¬Struck (lookUpStatements call) attempt := fun hstruck => hclear (hstruck.mono (Nat.le_add_right _ _))
  have hfault := not_struck.mp hclear
  rw [orderStatements, firstFault_add, not_struck.mp hlook, Option.none_or] at hfault
  obtain ⟨tx, hplace, htelemetry, hevents, hkeys⟩ := placeOrder_passes h hids t
  refine ⟨{tx with telemetry := noted attempt.orderId tx.telemetry}, ?_, by rw [htelemetry], hevents, hkeys⟩
  rw [lookUp_goes_on h.proceed hlook]
  show (accept call attempt >>= commit) _ = _
  rw [accept_commit, hplace.goes_on hfault, List.drop_drop]
  rfl

/-- On a key whose row stores no response the attempt cannot insert its own. -/
theorem create_taken (hkey : db.idempotencyKeys.find? (call.customerId, call.idempotencyKey) ≠ none)
    (hclear : ¬Struck (orderStatements call) attempt) (t : Telemetry) :
    ∃ e, Throws traced (transact call attempt (.start db t attempt.faults)) e (noted attempt.orderId t) := by
  obtain ⟨tx, hrun, htelemetry, _, hkeys⟩ := create_goes_on h hids hclear t
  rw [hrun, ← htelemetry]
  have hquiet := quiet_insertRows call attempt (newOrder call attempt.orderId items)
    (tx.under (attempt.faults.drop (orderStatements call)))
  rcases hinsert : insertRows call attempt (newOrder call attempt.orderId items)
    (tx.under (attempt.faults.drop (orderStatements call))) with ⟨e | u, t'⟩
  · rw [hinsert] at hquiet
    refine ⟨e, ?_⟩
    unfold finish
    rw [bind_of_error hinsert]
    exact ⟨rfl, congrArg (leaveSpan traced) hquiet⟩
  · obtain ⟨_, t₁, hevent, hrow⟩ := bind_eq_ok.mp hinsert
    obtain ⟨_, _, hdb⟩ := createOutboxEvent_ok hevent
    obtain ⟨_, keys, hkeys', _⟩ := createIdempotencyKey_ok hrow
    rw [hdb] at hkeys'
    have hnone := (Table.insert?_eq_some hkeys').1
    exact absurd ((congrArg (Table.find? · _) hkeys).symm.trans hnone) hkey

section UnusedKey
variable (hkey : db.idempotencyKeys.find? (call.customerId, call.idempotencyKey) = none)
include hkey

omit h in
theorem insertRows_passes {tx : Tx} (hevents : tx.db.outboxEvents = db.outboxEvents)
    (hkeys : tx.db.idempotencyKeys = db.idempotencyKeys) :
    ∃ tx', Passes (insertRows call attempt (newOrder call attempt.orderId items)) 2 tx () tx' ∧
      tx'.telemetry = tx.telemetry := by
  obtain ⟨events, hevent, _⟩ := Table.insert?_of_fresh
    (r := orderAccepted call attempt.eventId (newOrder call attempt.orderId items)) hids.event
  obtain ⟨keys, hrow, _⟩ := Table.insert?_of_fresh (r := completedKey call (newOrder call attempt.orderId items)) hkey
  rw [← hevents] at hevent
  rw [← hkeys] at hrow
  have hfresh : ∀ r ∈ tx.db.idempotencyKeys.rows, r.orderId = none ∨ r.orderId ≠ some attempt.orderId := by
    rw [hkeys]
    exact fun r hr => .inr (hids.key r hr)
  let tx₁ : Tx := {tx with db := {tx.db with outboxEvents := events}}
  have hinsert : Passes (createIdempotencyKey (completedKey call (newOrder call attempt.orderId items))) 1 tx₁ () _ :=
    createIdempotencyKey_passes hfresh hrow
  have hboth : Passes (insertRows call attempt (newOrder call attempt.orderId items)) (1 + 1) tx () _ :=
    (createOutboxEvent_passes hevent).bind hinsert
  exact ⟨_, hboth, rfl⟩

/-- An attempt that fails after its order. -/
theorem create_late (hconflicts : Conflicts attempt) (hclear : ¬Struck (orderStatements call) attempt)
    (hstruck : Struck (orderStatements call + 2) attempt) (t : Telemetry) :
    Throws traced (transact call attempt (.start db t attempt.faults)) (.database .p2034) (noted attempt.orderId t) := by
  obtain ⟨tx, hrun, htelemetry, hevents, hkeys⟩ := create_goes_on h hids hclear t
  obtain ⟨tx', hinsert, _⟩ := @insertRows_passes call attempt db items hids hkey tx hevents hkeys
  have hfault := hconflicts.firstFault_eq hstruck
  rw [firstFault_add, not_struck.mp hclear, Option.none_or] at hfault
  rw [hrun, ← htelemetry]
  exact hinsert.throws (quiet_insertRows _ _ _) hfault _

/-- An attempt whose callback is done. -/
theorem create_ends (hconflicts : Conflicts attempt) (hclear : ¬Struck (orderStatements call + 2) attempt)
    (t : Telemetry) :
    (Struck (orderStatements call + 2 + 1) attempt →
      Throws traced (transact call attempt (.start db t attempt.faults)) (.database .p2034)
        (countedAccepted (noted attempt.orderId t))) ∧
    (¬Struck (orderStatements call + 2 + 1) attempt →
      Returns traced (transact call attempt (.start db t attempt.faults))
        ⟨202, responseBody (newOrder call attempt.orderId items)⟩ (countedAccepted (noted attempt.orderId t))) := by
  have horder : ¬Struck (orderStatements call) attempt := fun hstruck => hclear (hstruck.mono (Nat.le_add_right _ _))
  obtain ⟨tx, hrun, htelemetry, hevents, hkeys⟩ := create_goes_on h hids horder t
  obtain ⟨tx', hinsert, hsame⟩ := @insertRows_passes call attempt db items hids hkey tx hevents hkeys
  have hfault := not_struck.mp hclear
  rw [firstFault_add, not_struck.mp horder, Option.none_or] at hfault
  have hfinish := hinsert.goes_on hfault fun _ => do
    record countedAccepted
    commit ⟨202, responseBody (newOrder call attempt.orderId items)⟩
  rw [List.drop_drop] at hfinish
  let counted : Tx := {tx' with telemetry := countedAccepted (noted attempt.orderId t)}
  have hrecord : (record countedAccepted >>= fun _ =>
      commit ⟨202, responseBody (newOrder call attempt.orderId items)⟩)
        (tx'.under (attempt.faults.drop (orderStatements call + 2))) =
      commit ⟨202, responseBody (newOrder call attempt.orderId items)⟩
        (counted.under (attempt.faults.drop (orderStatements call + 2))) := by
    rw [record_bind]
    show commit _ {tx'.under _ with telemetry := countedAccepted tx'.telemetry} = _
    rw [hsame, htelemetry]
    rfl
  rw [hrun]
  unfold finish
  rw [hfinish, hrecord]
  exact commit_ends hconflicts hclear _ counted

end UnusedKey

end Creates

end CaseCellShop.Checkout
