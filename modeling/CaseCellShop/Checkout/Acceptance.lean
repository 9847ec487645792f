import CaseCellShop.Checkout.Faults

/-! Which requests a checkout accepts.

`Rejected` says of every way an attempt fails on a store nobody else writes to what was
wrong with the request or the store, and `Serves` (with `transact_passes`) that nothing
else can be. The criterion of the shop is `Available`: every product is offered and in
stock for all the lines that name it. The code decides by it as long as no product is
on two lines and every number fits (`Decides`). -/
namespace CaseCellShop.Checkout
open Script

variable {lines : List CheckoutLine} {line : CheckoutLine} {db : Database} {call : CheckoutCall}

/-! ### Offered products -/

/-- The product is active and has a price. -/
def OffersProduct (db : Database) (productId : String) : Prop :=
  (∃ product, db.products.find? productId = some product ∧ product.active) ∧ (db.prices.find? productId).isSome

/-- No product is on two lines, and each is offered. -/
structure Offered (lines : List CheckoutLine) (db : Database) : Prop where
  nodup : (lines.map CheckoutLine.productId).Nodup
  offers : ∀ line ∈ lines, OffersProduct db line.productId

theorem requestedProducts_length (hnodup : (lines.map CheckoutLine.productId).Nodup)
    (hfound : ∀ line ∈ lines, ∃ product, db.products.find? line.productId = some product ∧ product.active) :
    (requestedProducts lines db).length = lines.length := by
  have hsubset : lines.map CheckoutLine.productId ⊆ (requestedProducts lines db).map Product.id := by
    intro id hid
    obtain ⟨line, hline, rfl⟩ := List.mem_map.mp hid
    obtain ⟨product, hproduct, hactive⟩ := hfound line hline
    obtain ⟨hrow, hkey⟩ := Table.find?_eq_some.mp hproduct
    exact List.mem_map.mpr ⟨product, mem_requestedProducts.mpr ⟨hrow, hkey ▸ hid, hactive⟩, hkey⟩
  have hle := (List.subperm_of_subset (requestedProducts_nodup lines db) requestedProducts_subset).length_le
  have hge := (List.subperm_of_subset hnodup hsubset).length_le
  simp only [List.length_map] at hle hge
  omega

/-- The lookup among the active products finds what the table has. -/
theorem find_requested {product : Product} (hline : line ∈ lines)
    (hfind : db.products.find? line.productId = some product) (hactive : product.active) :
    (requestedProducts lines db).find? (fun candidate => candidate.id = line.productId) = some product := by
  obtain ⟨hrow, hkey⟩ := Table.find?_eq_some.mp hfind
  have hmem : product ∈ requestedProducts lines db :=
    mem_requestedProducts.mpr ⟨hrow, hkey ▸ List.mem_map_of_mem hline, hactive⟩
  cases hfound : (requestedProducts lines db).find? fun candidate => candidate.id = line.productId with
  | none => simpa [hkey] using List.find?_eq_none.mp hfound product hmem
  | some other =>
    have hother : other.id = line.productId := by simpa using List.find?_some hfound
    have hrow' := (mem_requestedProducts.mp (List.mem_of_find?_eq_some hfound)).1
    rw [db.products.eq_of_key hrow' hrow (hother.trans hkey.symm)]

theorem priceItem_ok_iff (hline : line ∈ lines) :
    (∃ item, priceItem db (requestedProducts lines db) line = .ok item) ↔ OffersProduct db line.productId := by
  constructor
  · rintro ⟨item, h⟩
    obtain ⟨_, _, product, hproduct, price, hid, hprice, _⟩ := priceItem_ok h
    obtain ⟨hrow, _, hactive⟩ := mem_requestedProducts.mp hproduct
    rw [hid] at hprice
    exact ⟨⟨product, Table.find?_eq_some.mpr ⟨hrow, hid⟩, hactive⟩, by rw [hprice]; rfl⟩
  · rintro ⟨⟨product, hfind, hactive⟩, hprice⟩
    obtain ⟨price, hprice⟩ := Option.isSome_iff_exists.mp hprice
    unfold priceItem
    rw [find_requested hline hfind hactive]
    dsimp only
    rw [Table.key_of_find? hfind, hprice]
    exact ⟨_, rfl⟩

/-- What the transaction checks of the products is that they are offered. -/
theorem offered_iff :
    Offered lines db ↔ (requestedProducts lines db).length = lines.length ∧
      ∃ items, lines.mapM (priceItem db (requestedProducts lines db)) = .ok items := by
  rw [mapM_ok_iff]
  constructor
  · intro h
    exact ⟨requestedProducts_length h.nodup fun line hline => (h.offers line hline).1,
      fun line hline => (priceItem_ok_iff hline).mpr (h.offers line hline)⟩
  · rintro ⟨hlength, hpriced⟩
    exact ⟨lines_nodup hlength, fun line hline => (priceItem_ok_iff hline).mp (hpriced line hline)⟩

/-! ### Stock -/

/-- Every line finds its quantity in its product's row. -/
abbrev InStock (inventory : Table Inventory.productId) (lines : List CheckoutLine) : Prop :=
  Reservable inventory inventory lines

/-- No reservation leaves the integer columns, up to the first that is refused. -/
abbrev Fit (inventory : Table Inventory.productId) (lines : List CheckoutLine) : Prop :=
  LinesFit inventory inventory lines

variable {inventory : Table Inventory.productId}

/-- Lines in stock whose numbers fit can be reserved. -/
theorem reserved_of_inStock (hnodup : (lines.map CheckoutLine.productId).Nodup) (hfit : Fit inventory lines)
    (hstock : InStock inventory lines) : ∃ inventory', Reserved lines inventory inventory' := by
  induction lines generalizing inventory with
  | nil => exact ⟨inventory, .nil⟩
  | cons line rest ih =>
    have hline := hstock line (.head rest)
    cases hrow : inventory.find? line.productId with
    | none =>
      rw [hrow] at hline
      exact hline.elim
    | some row =>
      rw [hrow] at hline
      obtain ⟨hquantity, hcolumn, hrest⟩ := (linesFit_cons hrow hrow hline.1 hnodup).mp hfit
      obtain ⟨inventory', htail⟩ := ih (List.nodup_cons.mp hnodup).2 hrest
        ((reservable_cons hrow hrow hline.1 hnodup).mp hstock)
      exact ⟨inventory', .cons hrow hline.1 hquantity hcolumn htail⟩

/-- An unused key, offered products, all in stock, and numbers that fit. -/
structure Servable (call : CheckoutCall) (db : Database) : Prop where
  unused : Unused call.customerId call.idempotencyKey db
  offered : Offered call.lines db
  stock : InStock db.inventory call.lines
  fit : Fit db.inventory call.lines
  total : ∀ items, call.lines.mapM (priceItem db (requestedProducts call.lines db)) = .ok items → Int4 (totalCents items)

theorem Servable.serves (h : Servable call db) : ∃ items inventory, Serves call db items inventory := by
  obtain ⟨hlength, items, hitems⟩ := offered_iff.mp h.offered
  obtain ⟨inventory, hreserved⟩ := reserved_of_inStock h.offered.nodup h.fit h.stock
  exact ⟨items, inventory, h.unused, hlength, hitems, h.total items hitems, hreserved⟩

theorem Reserved.fit_and_inStock {inventory' : Table Inventory.productId} (h : Reserved lines inventory inventory')
    (hnodup : (lines.map CheckoutLine.productId).Nodup) : Fit inventory lines ∧ InStock inventory lines := by
  induction h with
  | nil => exact ⟨trivial, nofun⟩
  | cons found enough quantity column _ ih =>
    obtain ⟨hfit, hstock⟩ := ih (List.nodup_cons.mp hnodup).2
    exact ⟨(linesFit_cons found found enough hnodup).mpr ⟨quantity, column, hfit⟩,
      (reservable_cons found found enough hnodup).mpr hstock⟩

theorem Serves.servable {items : List PricedItem} (h : Serves call db items inventory) : Servable call db := by
  have hnodup := lines_nodup h.available
  obtain ⟨hfit, hstock⟩ := h.reserved.fit_and_inStock hnodup
  refine ⟨h.unused, offered_iff.mpr ⟨h.available, items, h.priced⟩, hstock, hfit, fun items' hitems' => ?_⟩
  have hitems := h.priced
  rw [hitems'] at hitems
  cases hitems
  exact h.total

/-! ### Failing attempts -/

/-- Why an attempt on an unused key fails. -/
inductive Rejected (call : CheckoutCall) (db : Database) : CheckoutError → Prop
  | notOffered (message : String) (h : ¬Offered call.lines db) : Rejected call db (.unprocessableEntity message)
  | outOfStock (message : String) (offered : Offered call.lines db) (fit : Fit db.inventory call.lines)
      (h : ¬InStock db.inventory call.lines) : Rejected call db (.unprocessableEntity message)
  | outOfRange (offered : Offered call.lines db) (h : ¬Fit db.inventory call.lines) :
      Rejected call db (.database .valueOutOfRange)
  | totalOutOfRange (offered : Offered call.lines db) (stock : InStock db.inventory call.lines)
      (items : List PricedItem) (priced : call.lines.mapM (priceItem db (requestedProducts call.lines db)) = .ok items)
      (h : ¬Int4 (totalCents items)) : Rejected call db (.database .valueOutOfRange)
  | orderTaken (offered : Offered call.lines db) (stock : InStock db.inventory call.lines)
      (order : Order) (mem : order ∈ db.orders.rows)
      (h : order.customerId = call.customerId ∧ order.idempotencyKey = call.idempotencyKey) :
      Rejected call db (.database .p2002)

variable {tx tx' : Tx} {e : CheckoutError}

theorem priceItems_fails (hf : tx.faults = []) (h : priceItems call tx = (.error e, tx')) :
    (∃ message, e = .unprocessableEntity message) ∧ ¬Offered call.lines tx.snapshot := by
  obtain ⟨hmessage, hwrong⟩ := priceItems_error hf h
  refine ⟨hmessage, fun hoffered => ?_⟩
  obtain ⟨hlength, items, hitems⟩ := offered_iff.mp hoffered
  rcases hwrong with hwrong | ⟨e', herror⟩
  · exact hwrong hlength
  · rw [hitems] at herror
    cases herror

/-- Where an attempt fails that has found no answer: at the prices, at the reservations, or in what follows them. -/
inductive BuyingFails (call : CheckoutCall) (db : Database) (rest : List PricedItem → TxM CheckoutResult) (tx' : Tx) :
    CheckoutError → Prop
  | prices (message : String) (h : ¬Offered call.lines db) : BuyingFails call db rest tx' (.unprocessableEntity message)
  | reservations {e : CheckoutError} (offered : Offered call.lines db) (h : Unreserved db.inventory db.inventory call.lines e) :
      BuyingFails call db rest tx' e
  | following {e : CheckoutError} (offered : Offered call.lines db) (stock : InStock db.inventory call.lines) (items : List PricedItem)
      (priced : call.lines.mapM (priceItem db (requestedProducts call.lines db)) = .ok items) (t : Tx)
      (faults : t.faults = []) (store : t.db = {db with inventory := t.db.inventory})
      (h : rest items t = (.error e, tx')) : BuyingFails call db rest tx' e

theorem buying_fails {rest : List PricedItem → TxM CheckoutResult} {telemetry : Telemetry}
    (h : (do
      let items ← priceItems call
      reserveAll call.lines
      rest items) (.start db telemetry []) = (.error e, tx')) : BuyingFails call db rest tx' e := by
  have hf : (Tx.start db telemetry []).faults = [] := rfl
  have hsnapshot : (Tx.start db telemetry []).snapshot = db := rfl
  rcases bind_eq_error.mp h with hprice | ⟨items, t₁, hprice, h₁⟩
  · obtain ⟨⟨message, rfl⟩, hoffered⟩ := priceItems_fails hf hprice
    exact .prices message hoffered
  · obtain ⟨hsame, hlength, hitems⟩ := priceItems_ok hprice
    have hoffered : Offered call.lines db := offered_iff.mpr ⟨hlength, items, hitems⟩
    have hf₁ := (faultless_priceItems call).of_eq hf hprice
    have hsnap₁ : t₁.snapshot = db := hsame.1
    have hdb₁ : t₁.db = db := hsame.2
    rcases bind_eq_error.mp h₁ with hreserve | ⟨_, t₂, hreserve, h₂⟩
    · have hfails := reserveAll_error hf₁ hoffered.nodup hreserve
      rw [hsnap₁, hdb₁] at hfails
      exact .reservations hoffered hfails
    · have hstock := reserveAll_reservable hoffered.nodup hreserve
      have hdb₂ := (reserveAll_ok hreserve).2
      rw [hsnap₁, hdb₁] at hstock
      rw [hdb₁] at hdb₂
      exact .following hoffered hstock items hitems t₂ ((faultless_reserveAll call.lines).of_eq hf₁ hreserve) hdb₂ h₂

/-- An attempt that fails without faults fails in its callback. -/
theorem transact_callback {attempt : Attempt} {telemetry : Telemetry}
    (h : transact call attempt (.start db telemetry []) = (.error e, tx')) :
    checkoutTransaction call attempt (.start db telemetry []) = (.error e, tx') := by
  unfold transact at h
  rcases bind_eq_error.mp h with hcallback | ⟨result, t, hcallback, h₁⟩
  · exact hcallback
  · have hft := (faultless_checkoutTransaction call attempt).of_eq rfl hcallback
    rw [bind_of_ok (statement_succeeds hft)] at h₁
    cases h₁

/-- An attempt with new ids on an unused key fails for a reason. -/
theorem transact_fails {attempt : Attempt} {telemetry : Telemetry}
    (hrow : db.idempotencyKeys.find? (call.customerId, call.idempotencyKey) = none) (hids : FreshIds attempt db)
    (h : transact call attempt (.start db telemetry []) = (.error e, tx')) : Rejected call db e := by
  have hf : (Tx.start db telemetry []).faults = [] := rfl
  have hsnapshot : (Tx.start db telemetry []).snapshot = db := rfl
  have hcallback := transact_callback h
  unfold checkoutTransaction at hcallback
  rw [bind_of_ok (acquireLocks_succeeds _ hf), bind_of_ok (statement_succeeds hf), get_bind, hsnapshot,
    hrow] at hcallback
  cases buying_fails hcallback with
  | prices message hoffered => exact .notOffered message hoffered
  | reservations hoffered hfails =>
    cases hfails with
    | short message hfit hstock => exact .outOfStock message hoffered hfit hstock
    | conflict hchanged =>
      obtain ⟨_, _, hne⟩ := hchanged
      exact absurd rfl hne
    | outOfRange hnot => exact .outOfRange hoffered hnot
  | following hoffered hstock items hitems t hft hdb h₂ =>
    rcases inserts_error hft hdb hrow hids h₂ with ⟨rfl, htotal⟩ | ⟨rfl, order, hmem, htaken⟩
    · exact .totalOutOfRange hoffered hstock items hitems htotal
    · exact .orderTaken hoffered hstock order hmem htaken

theorem Rejected.final (h : Rejected call db e) : isRetryableTransactionError e = false := by
  cases h <;> rfl

/-! ### The criterion -/

/-- The lines of a request, in the order of the body. -/
def requestLines (body : CheckoutRequest) : List CheckoutLine :=
  body.items.map fun item => ⟨item.productId, item.quantity.num.toNat⟩

/-- Every product named is offered, and in stock for all the lines that name it. -/
def Available (db : Database) (lines : List CheckoutLine) : Prop :=
  ∀ line ∈ lines, OffersProduct db line.productId ∧
    ∃ row, db.inventory.find? line.productId = some row ∧ requestedQty lines line.productId ≤ row.availableQty

/-- Every product's row has moved what the lines ask for of it, and the other rows are as
they were. -/
def StockMoved (lines : List CheckoutLine) (before after : Table Inventory.productId) : Prop :=
  ∀ productId, after.find? productId =
    if productId ∈ lines.map CheckoutLine.productId then
      (before.find? productId).map fun row => reservedRow row (requestedQty lines productId)
    else before.find? productId

theorem normalizeRequest_perm (P : Platform) (body : CheckoutRequest) :
    (normalizeRequest P body).Perm (requestLines body) :=
  List.perm_insertionSort _ _

theorem requestedQty_perm {lines' : List CheckoutLine} (h : lines.Perm lines') (productId : String) :
    requestedQty lines productId = requestedQty lines' productId :=
  ((h.filter _).map _).sum_eq

theorem available_perm {lines' : List CheckoutLine} (h : lines.Perm lines') :
    Available db lines ↔ Available db lines' := by
  unfold Available
  simp only [h.mem_iff, requestedQty_perm h]

theorem stockMoved_perm {lines' : List CheckoutLine} {before after : Table Inventory.productId}
    (h : lines.Perm lines') : StockMoved lines before after ↔ StockMoved lines' before after := by
  unfold StockMoved
  simp only [(h.map CheckoutLine.productId).mem_iff, requestedQty_perm h]

/-! ### Lines that share no product -/

theorem requestedQty_unnamed {productId : String} (h : productId ∉ lines.map CheckoutLine.productId) :
    requestedQty lines productId = 0 := by
  induction lines with
  | nil => rfl
  | cons line rest ih =>
    rw [List.map_cons, List.mem_cons, not_or] at h
    rw [requestedQty_cons, if_neg (Ne.symm h.1), ih h.2, Int.add_zero]

theorem requestedQty_nodup (hnodup : (lines.map CheckoutLine.productId).Nodup) (hline : line ∈ lines) :
    requestedQty lines line.productId = line.quantity := by
  induction lines with
  | nil => cases hline
  | cons first rest ih =>
    obtain ⟨hfirst, hrest⟩ := List.nodup_cons.mp hnodup
    rw [requestedQty_cons]
    rcases List.mem_cons.mp hline with rfl | hline
    · rw [if_pos rfl, requestedQty_unnamed hfirst, Int.add_zero]
    · have hother : first.productId ≠ line.productId := fun he => hfirst (he ▸ List.mem_map_of_mem hline)
      rw [if_neg hother, ih hrest hline, Int.zero_add]

theorem available_nodup (hnodup : (lines.map CheckoutLine.productId).Nodup) :
    Available db lines ↔ Offered lines db ∧ InStock db.inventory lines := by
  constructor
  · intro h
    refine ⟨⟨hnodup, fun line hline => (h line hline).1⟩, fun line hline => ?_⟩
    obtain ⟨row, hrow, henough⟩ := (h line hline).2
    rw [requestedQty_nodup hnodup hline] at henough
    rw [hrow]
    exact ⟨henough, rfl⟩
  · rintro ⟨hoffered, hstock⟩ line hline
    refine ⟨hoffered.offers line hline, ?_⟩
    have hrow := hstock line hline
    cases hfind : db.inventory.find? line.productId with
    | none =>
      rw [hfind] at hrow
      exact hrow.elim
    | some row =>
      rw [hfind] at hrow
      exact ⟨row, rfl, by rw [requestedQty_nodup hnodup hline]; exact hrow.1⟩

theorem Reserved.find?_line {inventory' : Table Inventory.productId} (h : Reserved lines inventory inventory')
    (hnodup : (lines.map CheckoutLine.productId).Nodup) (hline : line ∈ lines) :
    inventory'.find? line.productId =
      (inventory.find? line.productId).map fun row => reservedRow row line.quantity := by
  induction h with
  | nil => cases hline
  | @cons first rest row t t' found _ _ _ tail ih =>
    obtain ⟨hfirst, hrest⟩ := List.nodup_cons.mp hnodup
    have hrow := Table.key_of_find? found
    rcases List.mem_cons.mp hline with rfl | hline
    · have hset : (t.set (reservedRow row line.quantity)).find? line.productId =
          some (reservedRow row line.quantity) := by
        rw [← hrow]
        exact Table.find?_set_self t (reservedRow row line.quantity)
      have hother : ∀ l ∈ rest, l.productId ≠ line.productId := by
        intro l hl he
        exact hfirst (List.mem_map.mpr ⟨l, hl, he⟩)
      rw [tail.find?_other hother, found, hset]
      rfl
    · rw [ih hrest hline, find?_reserved hrow hnodup _ line hline]

theorem Reserved.stockMoved {inventory' : Table Inventory.productId} (h : Reserved lines inventory inventory')
    (hnodup : (lines.map CheckoutLine.productId).Nodup) : StockMoved lines inventory inventory' := by
  intro productId
  by_cases hmem : productId ∈ lines.map CheckoutLine.productId
  · rw [if_pos hmem]
    obtain ⟨line, hline, rfl⟩ := List.mem_map.mp hmem
    rw [requestedQty_nodup hnodup hline]
    exact h.find?_line hnodup hline
  · rw [if_neg hmem]
    exact h.find?_other fun line hline he => hmem (he ▸ List.mem_map_of_mem hline)

/-! ### The decision -/

/-- The call was decided by the criterion: accepted, and the stock moved, if the request is
available, and refused with a 422 without a change otherwise. -/
structure Decided (db : Database) (lines : List CheckoutLine) (result : Except CheckoutError CheckoutResult)
    (db' : Database) : Prop where
  criterion : (∃ body, result = .ok ⟨202, body⟩) ↔ Available db lines
  moved : ∀ body, result = .ok ⟨202, body⟩ → StockMoved lines db.inventory db'.inventory
  refused : (¬∃ body, result = .ok ⟨202, body⟩) →
    (∃ message, result = .error (.unprocessableEntity message)) ∧ db' = db

/-- A product on two lines is not available for them, and where the products are offered
every number fits and no order stands under the key. -/
structure Regular (call : CheckoutCall) (db : Database) : Prop where
  repeated : ¬(call.lines.map CheckoutLine.productId).Nodup → ¬Available db call.lines
  fit : Offered call.lines db → Fit db.inventory call.lines
  total : Offered call.lines db → InStock db.inventory call.lines → ∀ items,
    call.lines.mapM (priceItem db (requestedProducts call.lines db)) = .ok items → Int4 (totalCents items)
  order : Offered call.lines db → InStock db.inventory call.lines → ∀ o ∈ db.orders.rows,
    ¬(o.customerId = call.customerId ∧ o.idempotencyKey = call.idempotencyKey)

theorem Accepted.servable {attempt : Attempt} {db' : Database} {result : CheckoutResult} {items : List PricedItem}
    (h : Accepted call attempt db db db' result items) : Servable call db :=
  h.serves.servable

theorem Accepted.decided {attempt : Attempt} {db' : Database} {result : CheckoutResult} {items : List PricedItem}
    (h : Accepted call attempt db db db' result items) : Decided db call.lines (.ok result) db' := by
  have hnodup := h.servable.offered.nodup
  refine ⟨⟨fun _ => ?_, fun _ => ⟨_, by rw [h.response]⟩⟩, fun _ _ => h.reserved.stockMoved hnodup, fun hnot => ?_⟩
  · exact (available_nodup hnodup).mpr ⟨h.servable.offered, h.servable.stock⟩
  · exact absurd ⟨_, by rw [h.response]⟩ hnot

theorem Servable.regular (h : Servable call db) : Regular call db :=
  ⟨fun hrepeated => absurd h.offered.nodup hrepeated, fun _ => h.fit, fun _ _ => h.total, fun _ _ => h.unused.order⟩

/-- A refusal is right exactly when the call is regular. -/
theorem Rejected.decided_iff (h : Rejected call db e) :
    Decided db call.lines (.error e) db ↔ Regular call db := by
  have hdecided : ∀ message, Decided db call.lines (.error (.unprocessableEntity message)) db ↔
      ¬Available db call.lines := by
    intro message
    constructor
    · intro hd hav
      obtain ⟨_, hok⟩ := hd.criterion.mpr hav
      cases hok
    · intro hnot
      refine ⟨⟨?_, fun hav => absurd hav hnot⟩, nofun, fun _ => ⟨⟨message, rfl⟩, rfl⟩⟩
      rintro ⟨_, hok⟩
      cases hok
  have hbroken : ∀ error, ¬Decided db call.lines (.error (.database error)) db := by
    intro error hd
    have hnot : ¬∃ body, (.error (.database error) : Except CheckoutError CheckoutResult) = .ok ⟨202, body⟩ := by
      rintro ⟨_, hok⟩
      cases hok
    obtain ⟨⟨_, hmessage⟩, _⟩ := hd.refused hnot
    cases hmessage
  cases h with
  | notOffered message hnot =>
    rw [hdecided]
    constructor
    · exact fun hav => ⟨fun _ => hav, fun ho => absurd ho hnot, fun ho => absurd ho hnot, fun ho => absurd ho hnot⟩
    · intro hregular
      by_cases hnodup : (call.lines.map CheckoutLine.productId).Nodup
      · exact fun hav => hnot ((available_nodup hnodup).mp hav).1
      · exact hregular.repeated hnodup
  | outOfStock message offered fit hnot =>
    rw [hdecided, available_nodup offered.nodup]
    refine ⟨fun _ => ?_, fun _ hav => hnot hav.2⟩
    exact ⟨fun hrepeated => absurd offered.nodup hrepeated, fun _ => fit, fun _ hs => absurd hs hnot,
      fun _ hs => absurd hs hnot⟩
  | outOfRange offered hnot =>
    exact ⟨fun hd => absurd hd (hbroken _), fun hregular => absurd (hregular.fit offered) hnot⟩
  | totalOutOfRange offered stock items priced hnot =>
    exact ⟨fun hd => absurd hd (hbroken _), fun hregular => absurd (hregular.total offered stock items priced) hnot⟩
  | orderTaken offered stock order mem htaken =>
    exact ⟨fun hd => absurd hd (hbroken _), fun hregular => absurd htaken (hregular.order offered stock order mem)⟩

/-- A valid request under an unused key, met by no fault, is decided by the criterion exactly
when it is regular. -/
theorem checkout_decided_iff (P : Platform) (input : CheckoutInput) (db : Database) (customerId key : String)
    (hcustomer : header input.customerId = some customerId) (hkey : header input.idempotencyKey = some key)
    (hvalid : validateRequest input.body = .ok ()) (hrow : db.idempotencyKeys.find? (customerId, key) = none)
    (hids : FreshIds (input.attempts 0) db) (hfaults : (input.attempts 0).faults = [])
    (hfault : input.invalidationFault = none) :
    Decided db (requestLines input.body) (checkout P input db).1 (checkout P input db).2.1 ↔
      Regular (callOf P customerId key input) db := by
  have hperm : (callOf P customerId key input).lines.Perm (requestLines input.body) :=
    normalizeRequest_perm P input.body
  have hlines : ∀ result db', Decided db (requestLines input.body) result db' ↔
      Decided db (callOf P customerId key input).lines result db' := by
    intro result db'
    exact ⟨fun h => ⟨h.criterion.trans (available_perm hperm).symm,
      fun b hb => (stockMoved_perm hperm).mpr (h.moved b hb), h.refused⟩,
      fun h => ⟨h.criterion.trans (available_perm hperm), fun b hb => (stockMoved_perm hperm).mp (h.moved b hb), h.refused⟩⟩
  rw [hlines, checkout_of_valid hcustomer hkey hvalid]
  change db.idempotencyKeys.find? ((callOf P customerId key input).customerId,
    (callOf P customerId key input).idempotencyKey) = none at hrow
  generalize callOf P customerId key input = call at hrow ⊢
  rcases hattempt : transact call (input.attempts 0) (.start db {checkoutStarted := 1} []) with ⟨r, tx⟩
  cases r with
  | error error =>
    have hrejected := transact_fails hrow hids hattempt
    rw [process_first hfaults hfault hattempt fun e he => by cases he; exact hrejected.final]
    exact hrejected.decided_iff
  | ok result =>
    rw [process_first hfaults hfault hattempt nofun]
    rcases transact_ok hattempt with hreplayed | ⟨items, haccepted⟩
    · obtain ⟨_, _, hfound, _⟩ := hreplayed.found
      change checkExisting _ (db.idempotencyKeys.find? _) = _ at hfound
      rw [hrow] at hfound
      cases hfound
    · exact ⟨fun _ => haccepted.servable.regular, fun _ => haccepted.decided⟩

/-- A store that sells one case, at 1000 cents. -/
def oneCase (availableQty : Int) : Database :=
  {Database.empty with
    products := Table.empty.set ⟨"p1", "s1", "Case", none, none, none, true, 0⟩
    prices := Table.empty.set ⟨"p1", 1000, "BRL"⟩
    inventory := Table.empty.set ⟨"p1", availableQty, 0, availableQty, 1⟩}

/-- A call for cases, one number of them on each line. -/
def casesOrder (quantities : List Nat) : CheckoutInput :=
  ⟨some "c1", some "k", ⟨quantities.map fun quantity => ⟨"p1", quantity⟩⟩, ⟨none, none, none⟩,
    fun _ => ⟨"o1", "e1", []⟩, none, true⟩

/-- Two lines of one case each, with three in stock. -/
theorem checkout_refuses_repeated :
    ¬∀ (P : Platform) (input : CheckoutInput) (db : Database) (customerId key : String),
      header input.customerId = some customerId → header input.idempotencyKey = some key →
      validateRequest input.body = .ok () → db.idempotencyKeys.find? (customerId, key) = none →
      FreshIds (input.attempts 0) db → (input.attempts 0).faults = [] → input.invalidationFault = none →
      Decided db (requestLines input.body) (checkout P input db).1 (checkout P input db).2.1 := by
  intro h
  have hdecided := h ⟨compare, String.ofList, fun _ => "error"⟩ (casesOrder [1, 1]) (oneCase 3) "c1" "k" rfl rfl
    (by decide +kernel) rfl ⟨rfl, rfl, nofun⟩ rfl rfl
  have havailable : Available (oneCase 3) (requestLines (casesOrder [1, 1]).body) := by
    intro line hline
    have hp1 : line.productId = "p1" := by
      revert line
      decide +kernel
    rw [hp1]
    exact ⟨⟨⟨_, rfl, rfl⟩, rfl⟩, _, rfl, by decide +kernel⟩
  obtain ⟨body, hbody⟩ := hdecided.criterion.mpr havailable
  have hthrows : (checkout ⟨compare, String.ofList, fun _ => "error"⟩ (casesOrder [1, 1])
      (oneCase 3)).1.isOk = false := by
    decide +kernel
  rw [hbody] at hthrows
  cases hthrows

/-- Two cases on one line, of which three are in stock. -/
theorem checkout_decided_two : Decided (oneCase 3) [⟨"p1", 2⟩]
    (checkout ⟨compare, String.ofList, fun _ => "error"⟩ (casesOrder [2]) (oneCase 3)).1
    (checkout ⟨compare, String.ofList, fun _ => "error"⟩ (casesOrder [2]) (oneCase 3)).2.1 := by
  refine (checkout_decided_iff ⟨compare, String.ofList, fun _ => "error"⟩ (casesOrder [2]) (oneCase 3) "c1" "k"
    rfl rfl (by decide +kernel) rfl ⟨rfl, rfl, nofun⟩ rfl rfl).mpr ?_
  refine ⟨fun hrepeated => absurd (by decide +kernel) hrepeated, fun _ => by decide +kernel, ?_,
    fun _ _ _ ho => by cases ho⟩
  intro _ _ items hitems
  have htotal : ((callOf ⟨compare, String.ofList, fun _ => "error"⟩ "c1" "k" (casesOrder [2])).lines.mapM
      (priceItem (oneCase 3) (requestedProducts [⟨"p1", 2⟩] (oneCase 3)))).toOption.all
        (fun items => Int4 (totalCents items)) = true := by decide +kernel
  change List.mapM (priceItem (oneCase 3) (requestedProducts [⟨"p1", 2⟩] (oneCase 3))) _ = _ at hitems
  rw [hitems] at htotal
  exact of_decide_eq_true htotal

end CaseCellShop.Checkout
