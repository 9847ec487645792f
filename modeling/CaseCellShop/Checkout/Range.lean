import CaseCellShop.Checkout.Acceptance

/-! The range of a checkout's arithmetic.

Validation bounds a quantity only from below, so whether the numbers of a request fit the
integer columns is found out by the database, after the products were priced. `Stopped`
says what each way to fail says of the call; with `Accepted` for the way to succeed this
gives the exact condition under which a call's numbers stay in range and its total is
computed without rounding (`checkout_inRange_iff`). -/
namespace CaseCellShop.Checkout
open Script

variable {lines : List CheckoutLine} {db : Database} {call : CheckoutCall}

/-! ### The rounding of a total -/

/-- No product and no partial sum of the total is rounded. -/
def Unrounded (sum : Int) : List OrderItem → Prop
  | [] => True
  | item :: rest =>
    Number.mul item.quantity item.unitPriceCents = item.quantity * item.unitPriceCents ∧
      addItem sum item = sum + item.quantity * item.unitPriceCents ∧ Unrounded (addItem sum item) rest

/-- What an item costs. -/
def itemCents (item : PricedItem) : Int := item.quantity * item.unitPriceCents

/-- Every product and every partial sum has at most 53 significant bits. -/
structure ShortSums (items : List PricedItem) : Prop where
  products : ∀ item ∈ items, Number.IsNumber (itemCents item)
  sums : ∀ n, Number.IsNumber ((items.take n).map itemCents).sum

theorem unrounded_iff (orderId : String) (items : List PricedItem) (sum : Int) (hsum : Number.IsNumber sum) :
    Unrounded sum (items.map (newOrderItem orderId)) ↔
      (∀ item ∈ items, Number.IsNumber (itemCents item)) ∧
        ∀ n, Number.IsNumber (sum + ((items.take n).map itemCents).sum) := by
  induction items generalizing sum with
  | nil => simp [Unrounded, hsum]
  | cons item rest ih =>
    have hsums : (∀ n, Number.IsNumber (sum + (((item :: rest).take n).map itemCents).sum)) ↔
        ∀ n, Number.IsNumber (sum + itemCents item + ((rest.take n).map itemCents).sum) := by
      constructor
      · intro h n
        have hn := h (n + 1)
        simp only [List.take_succ_cons, List.map_cons, List.sum_cons] at hn
        rwa [Int.add_assoc]
      · intro h n
        cases n with
        | zero => simpa using hsum
        | succ n =>
          simp only [List.take_succ_cons, List.map_cons, List.sum_cons]
          rw [← Int.add_assoc]
          exact h n
    rw [hsums, List.forall_mem_cons]
    show Number.round (itemCents item) = itemCents item ∧
      Number.round (sum + Number.round (itemCents item)) = sum + itemCents item ∧
        Unrounded (Number.round (sum + Number.round (itemCents item))) (rest.map (newOrderItem orderId)) ↔ _
    constructor
    · rintro ⟨hproduct, hadd, hrest⟩
      rw [hproduct] at hadd hrest
      have hnext := Number.round_eq_iff.mp hadd
      rw [hadd, ih _ hnext] at hrest
      exact ⟨⟨Number.round_eq_iff.mp hproduct, hrest.1⟩, hrest.2⟩
    · rintro ⟨⟨hproduct, hproducts⟩, hpartial⟩
      have hnext : Number.IsNumber (sum + itemCents item) := by simpa using hpartial 0
      have hround := Number.round_eq_iff.mpr hproduct
      have hadd := Number.round_eq_iff.mpr hnext
      rw [hround, hadd, ih _ hnext]
      exact ⟨rfl, rfl, hproducts, hpartial⟩

/-- A total without rounding is the exact sum. -/
theorem Unrounded.foldl_eq {items : List OrderItem} {sum : Int} (h : Unrounded sum items) :
    items.foldl addItem sum = sum + exactTotal items := by
  induction items generalizing sum with
  | nil => simp [exactTotal]
  | cons item rest ih =>
    obtain ⟨_, hadd, hrest⟩ := h
    rw [List.foldl_cons, ih hrest, hadd]
    simp only [exactTotal, List.map_cons, List.sum_cons]
    omega

theorem exactTotal_items (orderId : String) (items : List PricedItem) :
    exactTotal (items.map (newOrderItem orderId)) = (items.map itemCents).sum := by
  unfold exactTotal
  rw [List.map_map]
  rfl

theorem shortSums_iff (orderId : String) (items : List PricedItem) :
    Unrounded 0 (items.map (newOrderItem orderId)) ↔ ShortSums items := by
  rw [unrounded_iff orderId items 0 (by decide)]
  simp only [Int.zero_add]
  exact ⟨fun h => ⟨h.1, h.2⟩, fun h => ⟨h.1, h.2⟩⟩

theorem ShortSums.totalCents_eq {items : List PricedItem} (h : ShortSums items) :
    totalCents items = (items.map itemCents).sum := by
  have hexact := ((shortSums_iff "" items).mpr h).foldl_eq
  rw [Int.zero_add, exactTotal_items] at hexact
  rw [← numberTotal_items "" items]
  exact hexact

/-- Without a negative price, sums that fit the column are short. -/
theorem shortSums_of_nonneg {items : List PricedItem} (h : ∀ item ∈ items, 0 ≤ item.unitPriceCents)
    (htotal : Int4 (items.map itemCents).sum) : ShortSums items := by
  have hcents : ∀ cents ∈ items.map itemCents, 0 ≤ cents := by
    intro cents hmem
    obtain ⟨item, hitem, rfl⟩ := List.mem_map.mp hmem
    exact Int.mul_nonneg (Int.natCast_nonneg _) (h item hitem)
  have hsmall : ∀ sum : Int, 0 ≤ sum → sum ≤ (items.map itemCents).sum → Number.IsNumber sum := by
    intro sum h0 hle
    have hlt := htotal.2
    exact Number.isNumber_of_lt (by omega)
  constructor
  · intro item hitem
    have hmem := List.mem_map_of_mem (f := itemCents) hitem
    exact hsmall _ (hcents _ hmem) (List.single_le_sum hcents _ hmem)
  · intro n
    rw [List.map_take]
    have hsplit := List.sum_take_add_sum_drop (items.map itemCents) n
    have hdrop : 0 ≤ ((items.map itemCents).drop n).sum :=
      List.sum_nonneg fun cents hmem => hcents cents (List.mem_of_mem_drop hmem)
    have htake : 0 ≤ ((items.map itemCents).take n).sum :=
      List.sum_nonneg fun cents hmem => hcents cents (List.mem_of_mem_take hmem)
    exact hsmall _ htake (by omega)

/-! ### Failing attempts -/

/-- The script brings no fault, and without one it fails only with errors of the database
client that are not retried. -/
structure Unretried {α : Type} (x : TxM α) : Prop where
  faultless : Faultless x
  fails : ∀ tx, tx.faults = [] → ∀ e tx', x tx = (.error e, tx') → ∃ error, e = .database error ∧ error ≠ .p2034

theorem Unretried.bind {α β : Type} {x : TxM α} {f : α → TxM β} (hx : Unretried x)
    (hf : ∀ a, Unretried (f a)) : Unretried (x >>= f) := by
  refine ⟨hx.faultless.bind fun a => (hf a).faultless, fun tx htx e tx' h => ?_⟩
  rcases bind_eq_error.mp h with herror | ⟨a, t, hok, hrest⟩
  · exact hx.fails tx htx e tx' herror
  · exact (hf a).fails t (hx.faultless.of_eq htx hok) e tx' hrest

theorem unretried_of_ok {α : Type} {x : TxM α} (h : ∀ tx, tx.faults = [] → ∃ a tx', x tx = (.ok a, tx') ∧ tx'.faults = []) :
    Unretried x := by
  refine ⟨fun tx htx => ?_, fun tx htx e tx' herror => ?_⟩
  · obtain ⟨a, t, hok, ht⟩ := h tx htx
    rw [hok]
    exact ht
  · obtain ⟨a, t, hok, _⟩ := h tx htx
    rw [hok] at herror
    cases herror

theorem unretried_statement : Unretried statement :=
  unretried_of_ok fun tx htx => ⟨(), tx, statement_succeeds htx, htx⟩

theorem unretried_get : Unretried Script.get := unretried_of_ok fun tx htx => ⟨tx, tx, rfl, htx⟩

theorem unretried_record (f : Telemetry → Telemetry) : Unretried (record f) :=
  unretried_of_ok fun _ htx => ⟨(), _, rfl, htx⟩

theorem unretried_fail {α : Type} {error : DbError} (h : error ≠ .p2034) :
    Unretried (fail (.database error) : TxM α) := by
  refine ⟨fun _ htx => htx, fun tx _ e tx' herror => ?_⟩
  cases herror
  exact ⟨error, rfl, h⟩

theorem unretried_require (p : Prop) [Decidable p] {error : DbError} (h : error ≠ .p2034) :
    Unretried (require p (.database error) : TxM Unit) := by
  unfold require
  by_cases hp : p
  · rw [if_pos hp]
    exact unretried_of_ok fun tx htx => ⟨(), tx, rfl, htx⟩
  · rw [if_neg hp]
    exact unretried_fail h

theorem unretried_createOrder (order : Order) (items : List PricedItem) : Unretried (createOrder order items) := by
  refine (unretried_require _ (by decide)).bind fun _ => unretried_statement.bind fun _ =>
    unretried_get.bind fun tx => (unretried_require _ (by decide)).bind fun _ => ?_
  cases tx.db.orders.insert? order with
  | none => exact unretried_fail (by decide)
  | some orders => exact unretried_of_ok fun _ htx => ⟨(), _, rfl, htx⟩

theorem unretried_createOutboxEvent (event : OutboxEvent) : Unretried (createOutboxEvent event) := by
  refine unretried_statement.bind fun _ => unretried_get.bind fun tx => ?_
  cases tx.db.outboxEvents.insert? event with
  | none => exact unretried_fail (by decide)
  | some events => exact unretried_of_ok fun _ htx => ⟨(), _, rfl, htx⟩

theorem unretried_createIdempotencyKey (entry : IdempotencyKey) : Unretried (createIdempotencyKey entry) := by
  refine unretried_statement.bind fun _ => unretried_get.bind fun tx =>
    (unretried_require _ (by decide)).bind fun _ => ?_
  cases tx.db.idempotencyKeys.insert? entry with
  | none => exact unretried_fail (by decide)
  | some keys => exact unretried_of_ok fun _ htx => ⟨(), _, rfl, htx⟩

theorem unretried_inserts {order : Order} {items : List PricedItem} {event : OutboxEvent}
    {entry : IdempotencyKey} {f g : Telemetry → Telemetry} {result : CheckoutResult} :
    Unretried (do
      createOrder order items
      record f
      createOutboxEvent event
      createIdempotencyKey entry
      record g
      return result) := by
  refine (unretried_createOrder order items).bind fun _ => (unretried_record f).bind fun _ => ?_
  refine (unretried_createOutboxEvent event).bind fun _ => (unretried_createIdempotencyKey entry).bind fun _ => ?_
  exact (unretried_record g).bind fun _ => unretried_of_ok fun tx htx => ⟨result, tx, rfl, htx⟩

/-- The row under the key leaves the request to be processed. -/
def Proceeds (call : CheckoutCall) (db : Database) : Prop :=
  checkExisting call.requestHash (db.idempotencyKeys.find? (call.customerId, call.idempotencyKey)) = .proceed

/-- What an attempt that fails says of the call. -/
inductive Stopped (call : CheckoutCall) (db : Database) : CheckoutError → Prop
  | answered (message : String) (h : ¬Proceeds call db) : Stopped call db (.conflict message)
  | refused (message : String) (h : Offered call.lines db → ¬InStock db.inventory call.lines ∧ Fit db.inventory call.lines) :
      Stopped call db (.unprocessableEntity message)
  | broken (error : DbError) (proceeds : Proceeds call db) (offered : Offered call.lines db)
      (final : error ≠ .p2034) (h : Fit db.inventory call.lines → InStock db.inventory call.lines) :
      Stopped call db (.database error)

theorem Stopped.final {e : CheckoutError} (h : Stopped call db e) : isRetryableTransactionError e = false := by
  cases h with
  | answered => rfl
  | refused => rfl
  | broken error _ _ hfinal _ =>
    cases error <;> first | rfl | exact absurd rfl hfinal

theorem transact_stopped {attempt : Attempt} {telemetry : Telemetry} {tx' : Tx} {e : CheckoutError}
    (h : transact call attempt (.start db telemetry []) = (.error e, tx')) : Stopped call db e := by
  have hf : (Tx.start db telemetry []).faults = [] := rfl
  have hsnapshot : (Tx.start db telemetry []).snapshot = db := rfl
  have hcallback := transact_callback h
  unfold checkoutTransaction at hcallback
  rw [bind_of_ok (acquireLocks_succeeds _ hf), bind_of_ok (statement_succeeds hf), get_bind, hsnapshot] at hcallback
  cases hexisting : checkExisting call.requestHash
      (db.idempotencyKeys.find? (call.customerId, call.idempotencyKey)) with
  | refuse message =>
    rw [hexisting] at hcallback
    cases hcallback
    refine .answered message fun hproceeds => ?_
    rw [Proceeds, hexisting] at hproceeds
    cases hproceeds
  | replay orderId response =>
    rw [hexisting] at hcallback
    cases hcallback
  | proceed =>
    rw [hexisting] at hcallback
    cases buying_fails hcallback with
    | prices message hoffered => exact .refused message fun h => absurd h hoffered
    | reservations hoffered hfails =>
      cases hfails with
      | short message hfit hstock => exact .refused message fun _ => ⟨hstock, hfit⟩
      | conflict hchanged =>
        obtain ⟨_, _, hne⟩ := hchanged
        exact absurd rfl hne
      | outOfRange hnot => exact .broken _ hexisting hoffered nofun fun hfit => absurd hfit hnot
    | following hoffered hstock items hitems t hft hdb h₂ =>
      obtain ⟨error, rfl, hfinal⟩ := unretried_inserts.fails t hft e tx' h₂
      exact .broken error hexisting hoffered hfinal fun _ => hstock

/-! ### The columns -/

/-- The row's numbers fit their columns. -/
def RowInRange (row : Inventory) : Prop := Int4 row.availableQty ∧ Int4 row.reservedQty ∧ Int4 row.version

instance (row : Inventory) : Decidable (RowInRange row) := inferInstanceAs (Decidable (_ ∧ _ ∧ _))

/-- The integer columns that a checkout reads hold valid numbers. -/
structure ColumnsInRange (db : Database) : Prop where
  stock : ∀ row ∈ db.inventory.rows, RowInRange row
  prices : ∀ price ∈ db.prices.rows, Int4 price.priceCents

theorem Reserved.inRange {t t' : Table Inventory.productId} (h : Reserved lines t t')
    (ht : ∀ row ∈ t.rows, RowInRange row) : ∀ row ∈ t'.rows, RowInRange row := by
  induction h with
  | nil => exact ht
  | @cons line rest row t t' found enough quantity column _ ih =>
    refine ih fun other hother => ?_
    rcases Table.mem_set.mp hother with rfl | ⟨hother, _⟩
    · obtain ⟨havailable, _, _⟩ := ht row (Table.find?_eq_some.mp found).1
      refine ⟨?_, column.1, column.2⟩
      show Int4 (row.availableQty - line.quantity)
      unfold Int4 at havailable ⊢
      omega
    · exact ht other hother

theorem Reserved.quantities {t t' : Table Inventory.productId} (h : Reserved lines t t') :
    ∀ line ∈ lines, Int4 line.quantity := by
  induction h with
  | nil => simp
  | cons _ _ quantity _ _ ih => exact List.forall_mem_cons.mpr ⟨quantity, ih⟩

/-! ### The condition -/

/-- Every integer that a call sends to the database fits its column, its total is exact and
computed without rounding, and the call does not fail with an error of the database. -/
structure InRange (call : CheckoutCall) (db : Database) (result : Except CheckoutError CheckoutResult)
    (db' : Database) : Prop where
  classified : ∀ error, result ≠ .error (.database error)
  quantities : ∀ body, result = .ok ⟨202, body⟩ → ∀ line ∈ call.lines, Int4 line.quantity
  stock : ∀ body, result = .ok ⟨202, body⟩ → ∀ row ∈ db'.inventory.rows, RowInRange row
  total : ∀ body, result = .ok ⟨202, body⟩ → ∃ order items, db'.orders.find? body.orderId = some order ∧
    db'.orderItems = db.orderItems ++ items ∧ (∀ item ∈ items, Int4 item.quantity ∧ Int4 item.unitPriceCents) ∧
    Int4 order.totalCents ∧ order.totalCents = exactTotal items ∧ Unrounded 0 items

/-- A call that is processed, for products that are offered, reserves within the columns;
and if they are all in stock its key is unused, the sum of its lines fits its column and no
product or partial sum has more than 53 significant bits. -/
def ArithmeticFits (call : CheckoutCall) (db : Database) : Prop :=
  Proceeds call db → Offered call.lines db → Fit db.inventory call.lines ∧ (InStock db.inventory call.lines →
    Unused call.customerId call.idempotencyKey db ∧ ∀ items,
      call.lines.mapM (priceItem db (requestedProducts call.lines db)) = .ok items →
        Int4 (items.map itemCents).sum ∧ ShortSums items)

/-- What fits is served. -/
theorem ArithmeticFits.servable (h : ArithmeticFits call db) (hproceeds : Proceeds call db)
    (hoffered : Offered call.lines db) (hstock : InStock db.inventory call.lines) : Servable call db := by
  obtain ⟨hfit, hall⟩ := h hproceeds hoffered
  obtain ⟨hunused, hitems⟩ := hall hstock
  refine ⟨hunused, hoffered, hstock, hfit, fun items hpriced => ?_⟩
  obtain ⟨htotal, hshort⟩ := hitems items hpriced
  rw [hshort.totalCents_eq]
  exact htotal

theorem priced_inRange {products : List Product} {items : List PricedItem} (hcolumns : ColumnsInRange db)
    (hlines : ∀ line ∈ lines, Int4 line.quantity) (h : lines.mapM (priceItem db products) = .ok items) :
    ∀ item ∈ items, Int4 item.quantity ∧ Int4 item.unitPriceCents := by
  induction lines generalizing items with
  | nil =>
    cases h
    simp
  | cons line rest ih =>
    obtain ⟨item, items', hitem, hrest, rfl⟩ := mapM_cons_ok h
    obtain ⟨_, hquantity, _, _, price, _, hprice, hunit⟩ := priceItem_ok hitem
    obtain ⟨hline, hlines⟩ := List.forall_mem_cons.mp hlines
    refine List.forall_mem_cons.mpr ⟨⟨hquantity ▸ hline, ?_⟩, ih hlines hrest⟩
    rw [hunit]
    exact hcolumns.prices price (Table.find?_eq_some.mp hprice).1

/-- A call that stops is in range if it was refused. -/
theorem Stopped.inRange_iff {e : CheckoutError} (h : Stopped call db e) (hfails : ¬Servable call db) :
    InRange call db (.error e) db ↔ ArithmeticFits call db := by
  have hrefused : (∀ error, e ≠ .database error) → InRange call db (.error e) db := by
    intro hnot
    refine ⟨fun error he => hnot error ?_, nofun, nofun, nofun⟩
    cases he
    rfl
  cases h with
  | answered message hanswered =>
    exact ⟨fun _ hproceeds => absurd hproceeds hanswered, fun _ => hrefused nofun⟩
  | refused message hnot =>
    refine ⟨fun _ _ hoffered => ?_, fun _ => hrefused nofun⟩
    obtain ⟨hstock, hfit⟩ := hnot hoffered
    exact ⟨hfit, fun h => absurd h hstock⟩
  | broken error hproceeds hoffered _ hstock =>
    refine ⟨fun h => absurd rfl (h.classified error), fun h => ?_⟩
    exact absurd (h.servable hproceeds hoffered (hstock (h hproceeds hoffered).1)) hfails

/-- A call that is accepted is in range if its sums fit. -/
theorem Accepted.inRange_iff {attempt : Attempt} {db' : Database} {result : CheckoutResult} {items : List PricedItem}
    (h : Accepted call attempt db db db' result items) (hcolumns : ColumnsInRange db) :
    InRange call db (.ok result) db' ↔ ArithmeticFits call db := by
  have hservable := h.servable
  have hresult := h.response
  subst hresult
  have horder : db'.orders.find? attempt.orderId = some (newOrder call attempt.orderId items) :=
    Table.find?_inserted h.order
  constructor
  · rintro hrange _ _
    refine ⟨hservable.fit, fun _ => ⟨hservable.unused, fun items' hitems => ?_⟩⟩
    have hpriced := h.priced
    rw [hitems] at hpriced
    cases hpriced
    obtain ⟨order, rows, hfind, hrows, _, hcolumn, hexact, hunrounded⟩ := hrange.total _ rfl
    change db'.orders.find? attempt.orderId = _ at hfind
    rw [horder] at hfind
    cases hfind
    rw [h.orderItems] at hrows
    obtain rfl := List.append_cancel_left hrows
    rw [exactTotal_items] at hexact
    exact ⟨hexact ▸ hcolumn, (shortSums_iff _ _).mp hunrounded⟩
  · intro hfits
    have hquantities := h.reserved.quantities
    obtain ⟨htotal, hshort⟩ := ((hfits h.proceed hservable.offered).2 hservable.stock).2 items h.priced
    refine ⟨nofun, fun _ _ => hquantities, fun _ _ => h.reserved.inRange hcolumns.stock, fun body hbody => ?_⟩
    cases hbody
    refine ⟨_, _, horder, h.orderItems, ?_, ?_, ?_, (shortSums_iff _ _).mpr hshort⟩
    · intro row hrow
      obtain ⟨item, hitem, rfl⟩ := List.mem_map.mp hrow
      exact priced_inRange hcolumns hquantities h.priced item hitem
    · exact h.total
    · rw [exactTotal_items]
      exact hshort.totalCents_eq

/-- A valid request, met by no fault, keeps the arithmetic in range exactly when it fits. -/
theorem checkout_inRange_iff (P : Platform) (input : CheckoutInput) (db : Database) (customerId key : String)
    (hcustomer : header input.customerId = some customerId) (hkey : header input.idempotencyKey = some key)
    (hvalid : validateRequest input.body = .ok ()) (hcolumns : ColumnsInRange db)
    (hids : FreshIds (input.attempts 0) db) (hfaults : (input.attempts 0).faults = [])
    (hfault : input.invalidationFault = none) :
    InRange (callOf P customerId key input) db (checkout P input db).1 (checkout P input db).2.1 ↔
      ArithmeticFits (callOf P customerId key input) db := by
  rw [checkout_of_valid hcustomer hkey hvalid]
  generalize callOf P customerId key input = call
  rcases hattempt : transact call (input.attempts 0) (.start db {checkoutStarted := 1} []) with ⟨r, tx⟩
  cases r with
  | error error =>
    have hstopped := transact_stopped hattempt
    have hnot : ¬Servable call db := by
      intro hservable
      obtain ⟨items, inventory, hserves⟩ := hservable.serves
      obtain ⟨tx', hpasses⟩ := transact_passes hserves hids {checkoutStarted := 1}
      have hok := hpasses.clear [] (firstFault_nil _)
      exact absurd (hattempt.symm.trans hok) nofun
    rw [process_first hfaults hfault hattempt fun e he => by cases he; exact hstopped.final]
    exact hstopped.inRange_iff hnot
  | ok result =>
    rw [process_first hfaults hfault hattempt nofun]
    rcases transact_ok hattempt with hreplayed | ⟨items, haccepted⟩
    · obtain ⟨orderId, response, hfound, hresult⟩ := hreplayed.found
      subst hresult
      refine ⟨fun _ hproceeds => ?_, fun _ => ⟨nofun, nofun, nofun, nofun⟩⟩
      exact absurd (hproceeds.symm.trans hfound) nofun
    · exact haccepted.inRange_iff hcolumns

/-- An order of three thousand million cases is not refused for the stock of three. -/
theorem checkout_out_of_range :
    ¬∀ (P : Platform) (input : CheckoutInput) (db : Database) (customerId key : String),
      header input.customerId = some customerId → header input.idempotencyKey = some key →
      validateRequest input.body = .ok () → ColumnsInRange db → FreshIds (input.attempts 0) db →
      (input.attempts 0).faults = [] → input.invalidationFault = none →
      InRange (callOf P customerId key input) db (checkout P input db).1 (checkout P input db).2.1 := by
  intro h
  have hrange := h ⟨compare, String.ofList, fun _ => "error"⟩ (casesOrder [3000000000]) (oneCase 3) "c1" "k" rfl rfl
    (by decide +kernel) ⟨by decide +kernel, by decide +kernel⟩ ⟨rfl, rfl, nofun⟩ rfl rfl
  exact hrange.classified .valueOutOfRange (by decide +kernel)

/-- Two cases, at 1000 cents. -/
theorem checkout_inRange_two :
    InRange (callOf ⟨compare, String.ofList, fun _ => "error"⟩ "c1" "k" (casesOrder [2])) (oneCase 3)
      (checkout ⟨compare, String.ofList, fun _ => "error"⟩ (casesOrder [2]) (oneCase 3)).1
      (checkout ⟨compare, String.ofList, fun _ => "error"⟩ (casesOrder [2]) (oneCase 3)).2.1 := by
  refine (checkout_inRange_iff ⟨compare, String.ofList, fun _ => "error"⟩ (casesOrder [2]) (oneCase 3) "c1" "k" rfl rfl
    (by decide +kernel) ⟨by decide +kernel, by decide +kernel⟩ ⟨rfl, rfl, nofun⟩ rfl rfl).mpr fun _ _ => ?_
  refine ⟨by decide +kernel, fun _ => ⟨⟨nofun, rfl⟩, fun items hitems => ?_⟩⟩
  have hpriced : List.mapM (priceItem (oneCase 3) (requestedProducts [⟨"p1", 2⟩] (oneCase 3)))
      [⟨"p1", 2⟩] = .ok items :=
    hitems
  have hitem : List.mapM (priceItem (oneCase 3) (requestedProducts [⟨"p1", 2⟩] (oneCase 3))) [⟨"p1", 2⟩] =
      .ok [⟨"p1", "s1", "Case", 2, 1000⟩] := by
    decide +kernel
  rw [hitem] at hpriced
  cases hpriced
  have htotal : Int4 (List.map itemCents [⟨"p1", "s1", "Case", 2, 1000⟩]).sum := by decide
  exact ⟨htotal, shortSums_of_nonneg (by simp) htotal⟩

end CaseCellShop.Checkout
