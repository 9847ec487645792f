import CaseCellShop.Checkout.Pricing

/-! How a transaction attempt fails when no call to the database meets a fault.

A snapshot that is behind the store makes a write fail with a conflict and an insert
with a unique violation; everything else is a refusal of the request or a number that
does not fit its column. `transact_error` is the inversion of a failing attempt, as
`transact_ok` is of one that returns. -/
namespace CaseCellShop.Checkout
open Script

theorem statement_succeeds {tx : Tx} (h : tx.faults = []) : statement tx = (.ok (), tx) := by
  unfold statement
  rw [h]

theorem acquireLocks_succeeds (locks : List String) {tx : Tx} (h : tx.faults = []) :
    acquireLocks locks tx = (.ok (), tx) := by
  induction locks with
  | nil => rfl
  | cons lock rest ih =>
    unfold acquireLocks
    rw [bind_of_ok (statement_succeeds h)]
    exact ih

/-! ### What every part keeps -/

/-- A relation between a transaction before and after that holds as long as all that happens is statements, writes
to its stores and rejections. -/
structure Kept (R : Tx → Tx → Prop) : Prop where
  refl : ∀ tx, R tx tx
  trans : ∀ {a b c}, R a b → R b c → R a c
  statement : ∀ tx, R tx (statement tx).2
  stores : ∀ (tx : Tx) (snapshot db : Database), R tx {tx with snapshot := snapshot, db := db}
  rejected : ∀ tx, R tx {tx with telemetry := rejectedOutOfStock tx.telemetry}

def Keeps {α : Type} (R : Tx → Tx → Prop) (x : TxM α) : Prop := ∀ tx, R tx (x tx).2

section Kept
variable {α β : Type} {R : Tx → Tx → Prop} (hR : Kept R)
include hR

theorem Kept.bind {x : TxM α} {f : α → TxM β} (hx : Keeps R x) (hf : ∀ a, Keeps R (f a)) : Keeps R (x >>= f) := by
  intro tx
  have hkept := hx tx
  rcases h : x tx with ⟨_ | a, t⟩
  · rw [bind_of_error h]
    rwa [h] at hkept
  · rw [bind_of_ok h]
    rw [h] at hkept
    exact hR.trans hkept (hf a t)

theorem Kept.returns (a : α) : Keeps R (pure a : TxM α) := fun tx => hR.refl tx

theorem Kept.throws (e : CheckoutError) : Keeps R (fail e : TxM α) := fun tx => hR.refl tx

theorem Kept.get_bind {f : Tx → TxM α} (hf : ∀ tx, Keeps R (f tx)) : Keeps R (Script.get >>= f) :=
  hR.bind (fun tx => hR.refl tx) hf

theorem Kept.require_bind {p : Prop} [Decidable p] {e : CheckoutError} {f : Unit → TxM α} (hf : ∀ u, Keeps R (f u)) :
    Keeps R (require p e >>= f) := by
  refine hR.bind (fun tx => ?_) hf
  unfold require
  split <;> exact hR.refl tx

theorem Kept.statement_bind {f : Unit → TxM α} (hf : ∀ u, Keeps R (f u)) : Keeps R (Checkout.statement >>= f) :=
  hR.bind hR.statement hf

/-- A refusal for want of stock. -/
theorem Kept.refusal (e : CheckoutError) : Keeps R (do
    record rejectedOutOfStock
    fail e : TxM α) :=
  hR.bind hR.rejected fun _ => hR.throws e

theorem Kept.acquireLocks (locks : List String) : Keeps R (acquireLocks locks) := by
  induction locks with
  | nil => exact hR.returns ()
  | cons lock rest ih => exact hR.statement_bind fun _ => ih

theorem Kept.priceItems (call : CheckoutCall) : Keeps R (priceItems call) := by
  refine hR.statement_bind fun _ => hR.get_bind fun tx => ?_
  dsimp only
  by_cases hlength : (requestedProducts call.lines tx.snapshot).length ≠ call.lines.length
  · rw [if_pos hlength]
    exact hR.refusal _
  · rw [if_neg hlength]
    cases call.lines.mapM (priceItem tx.snapshot (requestedProducts call.lines tx.snapshot)) with
    | error e => exact hR.throws e
    | ok items => exact hR.returns items

theorem Kept.reserve (line : CheckoutLine) : Keeps R (reserve line) := by
  refine hR.require_bind fun _ => hR.statement_bind fun _ => hR.get_bind fun tx => ?_
  cases tx.snapshot.inventory.find? line.productId with
  | none => exact hR.refusal _
  | some row =>
    dsimp only
    by_cases hlt : row.availableQty < line.quantity
    · rw [if_pos hlt]
      exact hR.refusal _
    · rw [if_neg hlt]
      exact hR.require_bind fun _ => hR.require_bind fun _ t => hR.stores t _ _

theorem Kept.reserveAll (lines : List CheckoutLine) : Keeps R (reserveAll lines) := by
  induction lines with
  | nil => exact hR.returns ()
  | cons line rest ih => exact hR.bind (hR.reserve line) fun _ => ih

theorem Kept.createOrder (order : Order) (items : List PricedItem) : Keeps R (createOrder order items) := by
  refine hR.require_bind fun _ => hR.statement_bind fun _ => hR.get_bind fun tx => hR.require_bind fun _ => ?_
  cases tx.db.orders.insert? order with
  | none => exact hR.throws _
  | some orders => exact fun t => hR.stores t t.snapshot _

theorem Kept.createOutboxEvent (event : OutboxEvent) : Keeps R (createOutboxEvent event) := by
  refine hR.statement_bind fun _ => hR.get_bind fun tx => ?_
  cases tx.db.outboxEvents.insert? event with
  | none => exact hR.throws _
  | some events => exact fun t => hR.stores t t.snapshot _

theorem Kept.createIdempotencyKey (entry : IdempotencyKey) : Keeps R (createIdempotencyKey entry) := by
  refine hR.statement_bind fun _ => hR.get_bind fun tx => hR.require_bind fun _ => ?_
  cases tx.db.idempotencyKeys.insert? entry with
  | none => exact hR.throws _
  | some keys => exact fun t => hR.stores t t.snapshot _

end Kept

/-! ### Without faults -/

/-- The script meets no fault if none is left to meet. -/
def Faultless {α : Type} (x : TxM α) : Prop := ∀ tx : Tx, tx.faults = [] → (x tx).2.faults = []

theorem Faultless.of_eq {α : Type} {x : TxM α} {r : Except CheckoutError α} {tx tx' : Tx}
    (hx : Faultless x) (hf : tx.faults = []) (h : x tx = (r, tx')) : tx'.faults = [] := by
  have hfaults := hx tx hf
  rw [h] at hfaults
  exact hfaults

theorem kept_faultless : Kept fun tx tx' => tx.faults = [] → tx'.faults = [] where
  refl _ h := h
  trans h h' hf := h' (h hf)
  statement tx h := by
    rw [statement_succeeds h]
    exact h
  stores _ _ _ h := h
  rejected _ h := h

theorem Faultless.bind {α β : Type} {x : TxM α} {f : α → TxM β} (hx : Faultless x)
    (hf : ∀ a, Faultless (f a)) : Faultless (x >>= f) :=
  kept_faultless.bind hx hf

theorem faultless_reserve (line : CheckoutLine) : Faultless (reserve line) := kept_faultless.reserve line

theorem faultless_reserveAll (lines : List CheckoutLine) : Faultless (reserveAll lines) :=
  kept_faultless.reserveAll lines

theorem faultless_priceItems (call : CheckoutCall) : Faultless (priceItems call) := kept_faultless.priceItems call

theorem faultless_createOrder (order : Order) (items : List PricedItem) : Faultless (createOrder order items) :=
  kept_faultless.createOrder order items

theorem faultless_createOutboxEvent (event : OutboxEvent) : Faultless (createOutboxEvent event) :=
  kept_faultless.createOutboxEvent event

theorem faultless_checkoutTransaction (call : CheckoutCall) (attempt : Attempt) :
    Faultless (checkoutTransaction call attempt) := by
  refine Faultless.bind (kept_faultless.acquireLocks _) fun _ => Faultless.bind kept_faultless.statement fun _ => ?_
  refine Faultless.bind (fun _ h => h) fun tx => ?_
  cases checkExisting call.requestHash
      (tx.snapshot.idempotencyKeys.find? (call.customerId, call.idempotencyKey)) with
  | refuse message => exact fun _ h => h
  | replay orderId response => exact fun _ h => h
  | proceed =>
    refine (faultless_priceItems call).bind fun items => (faultless_reserveAll _).bind fun _ => ?_
    refine (faultless_createOrder _ _).bind fun _ => Faultless.bind (fun _ h => h) fun _ => ?_
    refine (faultless_createOutboxEvent _).bind fun _ => Faultless.bind (kept_faultless.createIdempotencyKey _) fun _ => ?_
    exact fun _ h => h

/-- A 409 or a 422. -/
def Refusal : CheckoutError → Prop
  | .conflict _ | .unprocessableEntity _ => True
  | _ => False

/-! ### Reservations -/

/-- No reservation leaves the integer columns, up to the first that is refused or
conflicts. -/
def LinesFit (snapshot db : Table Inventory.productId) : List CheckoutLine → Prop
  | [] => True
  | line :: rest => Int4 line.quantity ∧
    match snapshot.find? line.productId with
    | none => True
    | some row => (line.quantity : Int) ≤ row.availableQty → db.find? line.productId = some row →
      (Int4 (row.reservedQty + line.quantity) ∧ Int4 (row.version + 1)) ∧ LinesFit snapshot db rest

/-- Every line finds its quantity, in a row nobody has written since the snapshot. -/
def Reservable (snapshot db : Table Inventory.productId) (lines : List CheckoutLine) : Prop :=
  ∀ line ∈ lines,
    match snapshot.find? line.productId with
    | none => False
    | some row => (line.quantity : Int) ≤ row.availableQty ∧ db.find? line.productId = some row

instance decidableLinesFit (snapshot db : Table Inventory.productId) :
    ∀ lines, Decidable (LinesFit snapshot db lines)
  | [] => .isTrue trivial
  | line :: rest => by
    have := decidableLinesFit snapshot db rest
    unfold LinesFit
    split <;> infer_instance

instance (snapshot db : Table Inventory.productId) (lines : List CheckoutLine) :
    Decidable (Reservable snapshot db lines) :=
  @List.decidableBAll _ _ (fun line => by split <;> infer_instance) lines

variable {line : CheckoutLine} {lines : List CheckoutLine} {tx tx' : Tx} {e : CheckoutError}

/-- Why the reservations of the lines fail: for the stock, for a row written since the
snapshot, or for a number that does not fit. -/
inductive Unreserved (snapshot db : Table Inventory.productId) (lines : List CheckoutLine) : CheckoutError → Prop
  | short (message : String) (fit : LinesFit snapshot db lines) (h : ¬Reservable snapshot db lines) :
      Unreserved snapshot db lines (.unprocessableEntity message)
  | conflict (h : ∃ line ∈ lines, snapshot.find? line.productId ≠ db.find? line.productId) :
      Unreserved snapshot db lines (.database .p2034)
  | outOfRange (h : ¬LinesFit snapshot db lines) : Unreserved snapshot db lines (.database .valueOutOfRange)

theorem reserve_error (hf : tx.faults = []) (h : reserve line tx = (.error e, tx')) (rest : List CheckoutLine) :
    Unreserved tx.snapshot.inventory tx.db.inventory (line :: rest) e := by
  unfold reserve at h
  rcases require_bind_eq_error.mp h with ⟨hquantity, rfl, _⟩ | ⟨hquantity, h₁⟩
  · exact .outOfRange fun hfit => hquantity hfit.1
  · rw [bind_of_ok (statement_succeeds hf), get_bind] at h₁
    cases hrow : tx.snapshot.inventory.find? line.productId with
    | none =>
      rw [hrow] at h₁
      cases h₁
      refine .short _ ?_ fun hstock => ?_
      · unfold LinesFit
        rw [hrow]
        exact ⟨hquantity, trivial⟩
      · have hline := hstock line (.head rest)
        rw [hrow] at hline
        exact hline
    | some row =>
      rw [hrow] at h₁
      dsimp only at h₁
      by_cases hlt : row.availableQty < line.quantity
      · rw [if_pos hlt] at h₁
        cases h₁
        refine .short _ ?_ fun hstock => ?_
        · unfold LinesFit
          rw [hrow]
          exact ⟨hquantity, fun henough => absurd hlt (not_lt.mpr henough)⟩
        · have hline := hstock line (.head rest)
          rw [hrow] at hline
          exact not_le.mpr hlt hline.1
      · rw [if_neg hlt] at h₁
        rcases require_bind_eq_error.mp h₁ with ⟨hchanged, rfl, _⟩ | ⟨hsame, h₂⟩
        · exact .conflict ⟨line, .head rest, fun he => hchanged (he ▸ hrow)⟩
        · rcases require_bind_eq_error.mp h₂ with ⟨hcolumn, rfl, _⟩ | ⟨_, h₃⟩
          · refine .outOfRange fun hfit => hcolumn ?_
            unfold LinesFit at hfit
            rw [hrow] at hfit
            exact (hfit.2 (not_lt.mp hlt) hsame).1
          · cases h₃

/-- What the lines ask of the rows depends on the rows they name. -/
theorem linesFit_congr {s s' t t' : Table Inventory.productId}
    (hs : ∀ line ∈ lines, s'.find? line.productId = s.find? line.productId)
    (ht : ∀ line ∈ lines, t'.find? line.productId = t.find? line.productId) (h : LinesFit s t lines) :
    LinesFit s' t' lines := by
  induction lines with
  | nil => trivial
  | cons line rest ih =>
    unfold LinesFit at h ⊢
    rw [hs line (.head rest), ht line (.head rest)]
    refine ⟨h.1, ?_⟩
    split
    · trivial
    · rename_i row hrow
      intro hle hsame
      rw [hrow] at h
      obtain ⟨hcolumn, hrest⟩ := h.2 hle hsame
      exact ⟨hcolumn, ih (fun l hl => hs l (.tail line hl)) (fun l hl => ht l (.tail line hl)) hrest⟩

section Rows
variable {snapshot db : Table Inventory.productId} {row : Inventory} {rest : List CheckoutLine}

theorem find?_reserved {t : Table Inventory.productId} (hrow : row.productId = line.productId)
    (hnodup : ((line :: rest).map CheckoutLine.productId).Nodup) (quantity : Int) :
    ∀ l ∈ rest, (t.set (reservedRow row quantity)).find? l.productId = t.find? l.productId := by
  intro l hl
  apply Table.find?_set_ne
  rintro heq
  have hkey : l.productId = line.productId := heq.trans hrow
  exact (List.nodup_cons.mp hnodup).1 (hkey ▸ List.mem_map_of_mem hl)

/-- Once the first line is reserved, the others are left to fit. -/
theorem linesFit_cons (hs : snapshot.find? line.productId = some row) (hd : db.find? line.productId = some row)
    (henough : (line.quantity : Int) ≤ row.availableQty)
    (hnodup : ((line :: rest).map CheckoutLine.productId).Nodup) :
    LinesFit snapshot db (line :: rest) ↔
      Int4 line.quantity ∧ (Int4 (row.reservedQty + line.quantity) ∧ Int4 (row.version + 1)) ∧
      LinesFit (snapshot.set (reservedRow row line.quantity)) (db.set (reservedRow row line.quantity)) rest := by
  have hrow := Table.key_of_find? hs
  have hsnapshot := find?_reserved (t := snapshot) hrow hnodup (line.quantity : Int)
  have hdb := find?_reserved (t := db) hrow hnodup (line.quantity : Int)
  have hsame : LinesFit (snapshot.set (reservedRow row line.quantity)) (db.set (reservedRow row line.quantity)) rest ↔
      LinesFit snapshot db rest :=
    ⟨linesFit_congr (fun l hl => (hsnapshot l hl).symm) fun l hl => (hdb l hl).symm, linesFit_congr hsnapshot hdb⟩
  rw [hsame]
  show Int4 _ ∧ _ ↔ _
  rw [hs]
  exact and_congr_right fun _ => ⟨fun h => h henough hd, fun h _ _ => h⟩

theorem reservable_cons (hs : snapshot.find? line.productId = some row) (hd : db.find? line.productId = some row)
    (henough : (line.quantity : Int) ≤ row.availableQty)
    (hnodup : ((line :: rest).map CheckoutLine.productId).Nodup) :
    Reservable snapshot db (line :: rest) ↔
      Reservable (snapshot.set (reservedRow row line.quantity)) (db.set (reservedRow row line.quantity)) rest := by
  have hrow := Table.key_of_find? hs
  have hsnapshot := find?_reserved (t := snapshot) hrow hnodup (line.quantity : Int)
  have hdb := find?_reserved (t := db) hrow hnodup (line.quantity : Int)
  constructor
  · intro h l hl
    rw [hsnapshot l hl, hdb l hl]
    exact h l (.tail line hl)
  · intro h l hl
    rcases List.mem_cons.mp hl with rfl | hl
    · rw [hs]
      exact ⟨henough, hd⟩
    · have hrest := h l hl
      rwa [hsnapshot l hl, hdb l hl] at hrest

end Rows

/-- The first line that cannot be reserved decides how the reservations fail. -/
theorem reserveAll_error (hf : tx.faults = []) (hnodup : (lines.map CheckoutLine.productId).Nodup)
    (h : reserveAll lines tx = (.error e, tx')) : Unreserved tx.snapshot.inventory tx.db.inventory lines e := by
  induction lines generalizing tx with
  | nil => cases h
  | cons line rest ih =>
    rcases bind_eq_error.mp h with hline | ⟨_, t, hline, hrest⟩
    · exact reserve_error hf hline rest
    · obtain ⟨row, hs, hd, henough, hquantity, hcolumn, hsnap, hdb⟩ := reserve_ok hline
      have hfails := ih ((faultless_reserve line).of_eq hf hline) (List.nodup_cons.mp hnodup).2 hrest
      rw [hsnap, hdb] at hfails
      have hfit := linesFit_cons hs hd henough hnodup
      cases hfails with
      | short message hrestFit hshort =>
        exact .short message (hfit.mpr ⟨hquantity, hcolumn, hrestFit⟩)
          fun hstock => hshort ((reservable_cons hs hd henough hnodup).mp hstock)
      | conflict hchanged =>
        obtain ⟨l, hl, hne⟩ := hchanged
        have hrow := Table.key_of_find? hs
        rw [find?_reserved hrow hnodup _ l hl, find?_reserved hrow hnodup _ l hl] at hne
        exact .conflict ⟨l, .tail line hl, hne⟩
      | outOfRange hnot => exact .outOfRange fun hall => hnot (hfit.mp hall).2.2

theorem reserveAll_reservable {u : Unit} (hnodup : (lines.map CheckoutLine.productId).Nodup)
    (h : reserveAll lines tx = (.ok u, tx')) : Reservable tx.snapshot.inventory tx.db.inventory lines := by
  induction lines generalizing tx with
  | nil => exact nofun
  | cons line rest ih =>
    obtain ⟨_, t, hline, hrest⟩ := bind_eq_ok.mp h
    obtain ⟨row, hs, hd, henough, _, _, hsnap, hdb⟩ := reserve_ok hline
    have hstock := ih (List.nodup_cons.mp hnodup).2 hrest
    rw [hsnap, hdb] at hstock
    exact (reservable_cons hs hd henough hnodup).mpr hstock

/-! ### Pricing -/

theorem mem_requestedProducts {db : Database} {product : Product} :
    product ∈ requestedProducts lines db ↔
      product ∈ db.products.rows ∧ product.id ∈ lines.map CheckoutLine.productId ∧ product.active := by
  simp [requestedProducts]

theorem requestedProducts_nodup (lines : List CheckoutLine) (db : Database) :
    ((requestedProducts lines db).map Product.id).Nodup :=
  (List.filter_sublist.map _).nodup db.products.nodup

theorem requestedProducts_subset {db : Database} :
    (requestedProducts lines db).map Product.id ⊆ lines.map CheckoutLine.productId := by
  intro id hid
  obtain ⟨product, hproduct, rfl⟩ := List.mem_map.mp hid
  exact (mem_requestedProducts.mp hproduct).2.1

theorem priceItem_error {db : Database} {products : List Product}
    (h : priceItem db products line = .error e) : ∃ message, e = .unprocessableEntity message := by
  unfold priceItem at h
  split at h
  · cases h
    exact ⟨_, rfl⟩
  · split at h
    · cases h
      exact ⟨_, rfl⟩
    · cases h

/-- Pricing refuses the request, for the number of its products or for a price. -/
theorem priceItems_error {call : CheckoutCall} (hf : tx.faults = [])
    (h : priceItems call tx = (.error e, tx')) :
    (∃ message, e = .unprocessableEntity message) ∧
      ((requestedProducts call.lines tx.snapshot).length ≠ call.lines.length ∨
        ∃ e', call.lines.mapM (priceItem tx.snapshot (requestedProducts call.lines tx.snapshot)) = .error e') := by
  unfold priceItems at h
  rw [bind_of_ok (statement_succeeds hf), get_bind] at h
  by_cases hlen : (requestedProducts call.lines tx.snapshot).length ≠ call.lines.length
  · rw [if_pos hlen] at h
    cases h
    exact ⟨⟨_, rfl⟩, .inl hlen⟩
  · rw [if_neg hlen] at h
    obtain ⟨hmap, _⟩ := ofExcept_eq_error.mp h
    obtain ⟨_, _, hitem⟩ := mapM_error hmap
    exact ⟨priceItem_error hitem, .inr ⟨e, hmap⟩⟩

/-! ### Inserts -/

theorem insert?_ne_none {ρ κ : Type} [DecidableEq κ] {key : ρ → κ} {t : Table key} {r : ρ}
    (h : t.find? (key r) = none) : t.insert? r ≠ none := by
  obtain ⟨t', ht', _⟩ := Table.insert?_of_fresh h
  rw [ht']
  exact nofun

theorem createOrder_error {order : Order} {items : List PricedItem} (hf : tx.faults = [])
    (h : createOrder order items tx = (.error e, tx')) :
    e = .database .valueOutOfRange ∧ ¬Int4 order.totalCents ∨
      e = .database .p2002 ∧
        ((∃ o ∈ tx.db.orders.rows, o.customerId = order.customerId ∧ o.idempotencyKey = order.idempotencyKey) ∨
          tx.db.orders.insert? order = none) := by
  unfold createOrder at h
  rcases require_bind_eq_error.mp h with ⟨htotal, rfl, _⟩ | ⟨_, h₁⟩
  · exact .inl ⟨rfl, htotal⟩
  · rw [bind_of_ok (statement_succeeds hf), get_bind] at h₁
    rcases require_bind_eq_error.mp h₁ with ⟨htaken, rfl, _⟩ | ⟨_, h₂⟩
    · exact .inr ⟨rfl, .inl (by simpa using htaken)⟩
    · cases hins : tx.db.orders.insert? order with
      | none =>
        rw [hins] at h₂
        cases h₂
        exact .inr ⟨rfl, .inr rfl⟩
      | some orders =>
        rw [hins] at h₂
        cases h₂

theorem createOutboxEvent_error {event : OutboxEvent} (hf : tx.faults = [])
    (h : createOutboxEvent event tx = (.error e, tx')) : tx.db.outboxEvents.insert? event = none := by
  unfold createOutboxEvent at h
  rw [bind_of_ok (statement_succeeds hf), get_bind] at h
  cases hins : tx.db.outboxEvents.insert? event with
  | none => rfl
  | some events =>
    rw [hins] at h
    cases h

theorem createIdempotencyKey_error {entry : IdempotencyKey} (hf : tx.faults = [])
    (h : createIdempotencyKey entry tx = (.error e, tx')) :
    (∃ r ∈ tx.db.idempotencyKeys.rows, r.orderId = entry.orderId) ∨
      tx.db.idempotencyKeys.insert? entry = none := by
  unfold createIdempotencyKey at h
  rw [bind_of_ok (statement_succeeds hf), get_bind] at h
  rcases require_bind_eq_error.mp h with ⟨htaken, _⟩ | ⟨_, h₁⟩
  · refine .inl ?_
    by_contra hnone
    exact htaken fun r hr => .inr fun he => hnone ⟨r, hr, he⟩
  · cases hins : tx.db.idempotencyKeys.insert? entry with
    | none => exact .inr rfl
    | some keys =>
      rw [hins] at h₁
      cases h₁

/-! ### The transaction -/

/-- An attempt on the snapshot and the store finds no number that does not fit, and no
order under its key that its snapshot does not show, or it does not get that far. -/
def Unhindered (call : CheckoutCall) (snapshot db : Database) : Prop :=
  match snapshot.idempotencyKeys.find? (call.customerId, call.idempotencyKey),
    call.lines.mapM (priceItem snapshot (requestedProducts call.lines snapshot)) with
  | none, .ok items =>
    (requestedProducts call.lines snapshot).length = call.lines.length →
      LinesFit snapshot.inventory db.inventory call.lines ∧
        (Reservable snapshot.inventory db.inventory call.lines →
          Int4 (totalCents items) ∧
            db.idempotencyKeys.find? (call.customerId, call.idempotencyKey) = none)
  | _, _ => True

instance (call : CheckoutCall) (snapshot db : Database) : Decidable (Unhindered call snapshot db) := by
  unfold Unhindered
  split <;> infer_instance

/-- The ids an attempt brings are in no table yet. -/
structure FreshIds (attempt : Attempt) (db : Database) : Prop where
  order : db.orders.find? attempt.orderId = none
  event : db.outboxEvents.find? attempt.eventId = none
  key : ∀ r ∈ db.idempotencyKeys.rows, r.orderId ≠ some attempt.orderId

/-- Nobody has used the key. -/
structure Unused (customerId key : String) (db : Database) : Prop where
  order : ∀ o ∈ db.orders.rows, ¬(o.customerId = customerId ∧ o.idempotencyKey = key)
  row : db.idempotencyKeys.find? (customerId, key) = none

/-- A row under the key stores a response. -/
def Answered (customerId key : String) (db : Database) : Prop :=
  ∀ row, db.idempotencyKeys.find? (customerId, key) = some row →
    row.status = .completed ∧ row.responseBody.isSome

theorem checkExisting_of_answered {row : IdempotencyKey} {requestHash : String}
    (hrow : row.status = .completed ∧ row.responseBody.isSome) :
    checkExisting requestHash (some row) ≠ .proceed := by
  obtain ⟨hstatus, hbody⟩ := hrow
  obtain ⟨response, hresponse⟩ := Option.isSome_iff_exists.mp hbody
  dsimp only [checkExisting]
  by_cases hhash : row.requestHash ≠ requestHash
  · rw [if_pos hhash]
    exact nofun
  · rw [if_neg hhash, hstatus, hresponse]
    exact nofun

/-- Products enough for the lines are products that no two lines share. -/
theorem lines_nodup {db : Database} (h : (requestedProducts lines db).length = lines.length) :
    (lines.map CheckoutLine.productId).Nodup := by
  have hids := requestedProducts_nodup lines db
  have hperm := (List.subperm_of_subset hids requestedProducts_subset).perm_of_length_le (by simp [h])
  exact hperm.nodup_iff.mp hids

/-- With new ids and no row under the key, the inserts fail only for a total that does not
fit or for an order under the key. -/
theorem inserts_error {call : CheckoutCall} {attempt : Attempt} {items : List PricedItem} {db : Database}
    {f g : Telemetry → Telemetry} {result : CheckoutResult} (hf : tx.faults = [])
    (hdb : tx.db = {db with inventory := tx.db.inventory})
    (hrow : db.idempotencyKeys.find? (call.customerId, call.idempotencyKey) = none) (hfresh : FreshIds attempt db)
    (h : (do
      createOrder (newOrder call attempt.orderId items) items
      record f
      createOutboxEvent (orderAccepted call attempt.eventId (newOrder call attempt.orderId items))
      createIdempotencyKey (completedKey call (newOrder call attempt.orderId items))
      record g
      return result) tx = (.error e, tx')) :
    e = .database .valueOutOfRange ∧ ¬Int4 (totalCents items) ∨
      e = .database .p2002 ∧
        ∃ o ∈ db.orders.rows, o.customerId = call.customerId ∧ o.idempotencyKey = call.idempotencyKey := by
  have horders : tx.db.orders = db.orders := by rw [hdb]
  have hevents : tx.db.outboxEvents = db.outboxEvents := by rw [hdb]
  have hkeys : tx.db.idempotencyKeys = db.idempotencyKeys := by rw [hdb]
  rcases bind_eq_error.mp h with horder | ⟨_, t₁, horder, h₁⟩
  · refine (createOrder_error hf horder).imp_right fun ⟨he, htaken⟩ => ⟨he, ?_⟩
    rw [horders] at htaken
    exact htaken.resolve_right (insert?_ne_none hfresh.order)
  · obtain ⟨_, _, orders, _, hdb₁⟩ := createOrder_ok horder
    have hf₁ : t₁.faults = [] := (faultless_createOrder _ _).of_eq hf horder
    obtain ⟨t, ht, hdbt, hft⟩ : ∃ t : Tx, {t₁ with telemetry := f t₁.telemetry} = t ∧ t.db = t₁.db ∧
        t.faults = [] := ⟨_, rfl, rfl, hf₁⟩
    rw [record_bind, ht] at h₁
    rcases bind_eq_error.mp h₁ with hevent | ⟨_, t₂, hevent, h₂⟩
    · have htaken := createOutboxEvent_error hft hevent
      rw [hdbt, hdb₁] at htaken
      exact absurd htaken (insert?_ne_none (hevents ▸ hfresh.event))
    · obtain ⟨events, _, hdb₂⟩ := createOutboxEvent_ok hevent
      have hkeys₂ : t₂.db.idempotencyKeys = db.idempotencyKeys := by
        rw [hdb₂, hdbt, hdb₁]
        exact hkeys
      rcases bind_eq_error.mp h₂ with hkey | ⟨_, t₃, _, h₃⟩
      · rcases createIdempotencyKey_error ((faultless_createOutboxEvent _).of_eq hft hevent) hkey with
          ⟨r, hr, hid⟩ | htaken
        · rw [hkeys₂] at hr
          exact absurd hid (hfresh.key r hr)
        · rw [hkeys₂] at htaken
          exact absurd htaken (insert?_ne_none hrow)
      · cases h₃

theorem checkoutTransaction_error {call : CheckoutCall} {attempt : Attempt} (hf : tx.faults = [])
    (hu : Unhindered call tx.snapshot tx.db) (ha : Answered call.customerId call.idempotencyKey tx.snapshot)
    (hfresh : tx.db.idempotencyKeys.find? (call.customerId, call.idempotencyKey) = none →
      Unused call.customerId call.idempotencyKey tx.db ∧ FreshIds attempt tx.db)
    (h : checkoutTransaction call attempt tx = (.error e, tx')) : Refusal e ∨ e = .database .p2034 := by
  unfold checkoutTransaction at h
  rw [bind_of_ok (acquireLocks_succeeds _ hf), bind_of_ok (statement_succeeds hf), get_bind] at h
  cases hrow : tx.snapshot.idempotencyKeys.find? (call.customerId, call.idempotencyKey) with
  | some row =>
    rw [hrow] at h
    cases hexisting : checkExisting call.requestHash (some row) with
    | refuse message =>
      rw [hexisting] at h
      cases h
      exact .inl trivial
    | replay orderId response =>
      rw [hexisting] at h
      cases h
    | proceed => exact absurd hexisting (checkExisting_of_answered (ha row hrow))
  | none =>
    rw [hrow] at h
    rcases bind_eq_error.mp h with hprice | ⟨items, t₃, hprice, h₃⟩
    · obtain ⟨⟨_, rfl⟩, _⟩ := priceItems_error hf hprice
      exact .inl trivial
    · obtain ⟨hsame₃, hlen, hitems⟩ := priceItems_ok hprice
      have hf₃ := (faultless_priceItems call).of_eq hf hprice
      have hnodup := lines_nodup hlen
      unfold Unhindered at hu
      rw [hrow, hitems] at hu
      obtain ⟨hfit, hgoes⟩ := hu hlen
      rw [← hsame₃.1, ← hsame₃.2] at hfit hgoes
      rcases bind_eq_error.mp h₃ with hreserve | ⟨_, t₄, hreserve, h₄⟩
      · cases reserveAll_error hf₃ hnodup hreserve with
        | short => exact .inl trivial
        | conflict => exact .inr rfl
        | outOfRange hnot => exact absurd hfit hnot
      · obtain ⟨htotal, hkey⟩ := hgoes (reserveAll_reservable hnodup hreserve)
        have hdb₄ := (reserveAll_ok hreserve).2
        rw [hsame₃.2] at hkey hdb₄
        obtain ⟨hunused, hids⟩ := hfresh hkey
        have hf₄ := (faultless_reserveAll call.lines).of_eq hf₃ hreserve
        rcases inserts_error hf₄ hdb₄ hunused.row hids h₄ with ⟨_, hbad⟩ | ⟨_, o, ho, htaken⟩
        · exact absurd htotal hbad
        · exact absurd htaken (hunused.order o ho)

/-- A failing attempt of an unhindered call was refused, or conflicts and will be retried. -/
theorem transact_error {call : CheckoutCall} {attempt : Attempt} (hf : tx.faults = [])
    (hu : Unhindered call tx.snapshot tx.db) (ha : Answered call.customerId call.idempotencyKey tx.snapshot)
    (hfresh : tx.db.idempotencyKeys.find? (call.customerId, call.idempotencyKey) = none →
      Unused call.customerId call.idempotencyKey tx.db ∧ FreshIds attempt tx.db)
    (h : transact call attempt tx = (.error e, tx')) : Refusal e ∨ e = .database .p2034 := by
  unfold transact at h
  rcases bind_eq_error.mp h with hcallback | ⟨result, t, hcallback, h₁⟩
  · exact checkoutTransaction_error hf hu ha hfresh hcallback
  · have hft := (faultless_checkoutTransaction call attempt).of_eq hf hcallback
    rw [bind_of_ok (statement_succeeds hft)] at h₁
    cases h₁

end CaseCellShop.Checkout
