import CaseCellShop.Library.Reader
import CaseCellShop.Orders.Controller
import CaseCellShop.Shop.Ledger

/-! The order lookups beside the back office.

An order, its items and its event are written together and the columns a lookup is about
are never written again, so the reads of a lookup fit together although others write
between them, and they show what the checkout answered. -/
namespace CaseCellShop.Shop
open Checkout Correspondence Orders Reader

variable {P : Platform} {book : List Entry} {db : Database} {e : Entry}

/-- `p`, begun in `c` among the steps of the back office, answers `result` in `c'`. -/
abbrev LookedUp {α : Type} (P : Platform) (c : Config) (p : Lookup α) (result : Except LookupError α)
    (c' : Config) : Prop :=
  Reads (machine P).system (fun c => Orders.read c.world.db) Unavailable c p result c'

/-! ### What the store shows of an entry -/

def Booked (e : Entry) (db : Database) : Prop := ∃ book, Represents book db ∧ e ∈ book

theorem booked_reaches {c c' : Config} (h : (machine P).system.Reaches c c') (he : Booked e c.world.db) :
    Booked e c'.world.db := by
  obtain ⟨actions, hr⟩ := h
  have hwrite : ∀ db db', Write db db' → Booked e db → Booked e db' := by
    intro db db' hw ⟨book, hbook, he⟩
    obtain ⟨added, hadded⟩ := represents_write hbook hw
    exact ⟨_, hadded, List.mem_append_left added he⟩
  exact (kept_of_write (P := P) hwrite .any).run_any he hr

theorem Represents.order_of (h : Represents book db) (he : e ∈ book) :
    ∃ o, db.orders.find? e.orderId = some o ∧ orderFacts o = orderFacts e.order := by
  obtain ⟨o, ho, hfacts⟩ := exists_fact h.orders.symm he
  have hid : o.id = e.orderId := congrArg OrderFacts.id hfacts
  exact ⟨o, Table.find?_eq_some.mpr ⟨ho, hid⟩, hfacts⟩

/-- Conversely every order row is an entry's. -/
theorem Represents.entry_of (h : Represents book db) {id : String} {o : Order} (ho : db.orders.find? id = some o) :
    ∃ e ∈ book, e.orderId = id ∧ orderFacts o = orderFacts e.order := by
  obtain ⟨hmem, hid⟩ := Table.find?_eq_some.mp ho
  obtain ⟨e, he, hfacts⟩ := exists_fact h.orders hmem
  have heid : e.orderId = o.id := congrArg OrderFacts.id hfacts
  exact ⟨e, he, heid.trans hid, hfacts.symm⟩

theorem Represents.key_of (h : Represents book db) (he : e ∈ book) :
    db.idempotencyKeys.find? (e.call.customerId, e.call.idempotencyKey) = some e.key := by
  have hmem : e.key ∈ db.idempotencyKeys.rows := by
    rw [h.keys]
    exact List.mem_map_of_mem he
  exact Table.find?_key hmem

theorem Represents.event_of (h : Represents book db) (he : e ∈ book) :
    ∃ event, db.outboxEvents.rows.filter (fun event => event.orderId = some e.orderId) = [event] ∧
      eventFacts event = eventFacts e.event := by
  have hnodup : (book.map fun x => some x.orderId).Nodup := by
    have hsome := h.ids_nodup.map (Option.some_injective String)
    rwa [List.map_map] at hsome
  have htag : ∀ x ∈ book, ∀ facts ∈ [eventFacts x.event], EventFacts.orderId facts = some x.orderId := by
    intro x _ facts hfacts
    rw [List.mem_singleton.mp hfacts]
    rfl
  have hgroup := filter_flatMap_group hnodup htag he
  rw [← List.map_eq_flatMap, ← h.events, List.filter_map] at hgroup
  exact List.map_eq_singleton_iff.mp hgroup

/-! ### What a lookup shows -/

/-- The response is the entry's. -/
structure Shows (e : Entry) (view : OrderResponse) : Prop where
  order : orderFacts view.order = orderFacts e.order
  items : view.items = e.orderItems
  event : ∃ event, view.outboxEvents = [event] ∧ eventFacts event = eventFacts e.event
  attempts : ∀ attempt ∈ view.attempts, attempt.orderId = e.orderId

/-- A good answer, or the failure of a read. -/
def OrUnavailable {α : Type} (good : α → Prop) : Except LookupError α → Prop
  | .ok a => good a
  | .error e => Unavailable e

theorem orUnavailable_error {α : Type} {good : α → Prop} :
    ∀ e, Unavailable e → OrUnavailable good (.error e) :=
  fun _ h => h

theorem included_shows {o : Order} (hfacts : orderFacts o = orderFacts e.order) :
    Ends (fun c : Config => Orders.read c.world.db) Unavailable (fun c => Booked e c.world.db)
      (OrUnavailable (Shows e)) (included o) := by
  have hid : o.id = e.orderId := congrArg OrderFacts.id hfacts
  unfold included
  refine ends_call_bind ?_ orUnavailable_error
  intro c₁ ⟨book₁, hbook₁, he₁⟩
  refine ends_call_bind ?_ orUnavailable_error
  intro c₂ ⟨book₂, hbook₂, he₂⟩
  refine ends_call_bind ?_ orUnavailable_error
  intro c₃ _
  refine ⟨hfacts, ?_, ?_, fun attempt hattempt => ?_⟩
  · rw [hid]
    exact hbook₁.itemsOf_entry he₁
  · rw [hid]
    exact hbook₂.event_of he₂
  · have hmem := List.of_mem_filter hattempt
    exact (of_decide_eq_true hmem).trans hid

theorem getById_shows : Ends (fun c : Config => Orders.read c.world.db) Unavailable (fun c => Booked e c.world.db)
    (OrUnavailable (Shows e)) (getById e.orderId) := by
  unfold getById
  refine ends_call_bind ?_ orUnavailable_error
  intro c ⟨book, hbook, he⟩
  obtain ⟨o, ho, hfacts⟩ := hbook.order_of he
  rw [show Orders.read c.world.db (.findOrder e.orderId) = some o from ho]
  exact included_shows hfacts

theorem getByIdempotencyKey_shows {customerId key : String} (hcustomer : header (some customerId) = some customerId)
    (hc : e.call.customerId = customerId) (hk : e.call.idempotencyKey = key) :
    Ends (fun c : Config => Orders.read c.world.db) Unavailable (fun c => Booked e c.world.db)
      (OrUnavailable fun row => row = e.key) (getByIdempotencyKey (some customerId) key) := by
  unfold getByIdempotencyKey
  rw [hcustomer]
  refine ends_call_bind ?_ orUnavailable_error
  intro c ⟨book, hbook, he⟩
  have hrow := hbook.key_of he
  rw [hc, hk] at hrow
  rw [show Orders.read c.world.db (.findIdempotencyKey customerId key) = some e.key from hrow]
  rfl

/-! ### What was accepted -/

theorem header_eq_some {value : Option String} {s : String} (h : header value = some s) :
    value = some s ∧ header (some s) = some s := by
  cases value with
  | none => cases h
  | some t =>
    have ht : t ≠ "" := by
      rintro rfl
      cases h
    have hs : header (some t) = some t := if_neg ht
    cases hs.symm.trans h
    exact ⟨rfl, hs⟩

/-- The order of an accepted checkout: its columns, its lines at the prices of the moment,
and the event that announces it. -/
structure Confirms (customerId key : String) (lines : List CheckoutLine) (prices : Table ProductPrice.productId)
    (response : CheckoutAcceptedResponse) (view : OrderResponse) : Prop where
  order : orderFacts view.order = ⟨response.orderId, customerId, key, response.totalCents, response.currency⟩
  lines : (view.items.map fun item => (item.orderId, item.productId, item.quantity)) =
    lines.map fun line => (response.orderId, line.productId, (line.quantity : Int))
  prices : ∀ item ∈ view.items, ∃ price, prices.find? item.productId = some price ∧
    item.unitPriceCents = price.priceCents
  total : response.totalCents = numberTotal view.items
  event : ∃ event, view.outboxEvents = [event] ∧ event.eventType = "OrderAccepted" ∧
    event.payload.orderId = response.orderId ∧ event.payload.customerId = customerId ∧
    event.payload.idempotencyKey = key
  attempts : ∀ attempt ∈ view.attempts, attempt.orderId = response.orderId

theorem priced_lines {products : List Product} {lines : List CheckoutLine} {items : List PricedItem}
    (h : lines.mapM (priceItem db products) = .ok items) (orderId : String) :
    ((items.map (newOrderItem orderId)).map fun item => (item.orderId, item.productId, item.quantity)) =
      lines.map fun line => (orderId, line.productId, (line.quantity : Int)) := by
  induction lines generalizing items with
  | nil =>
    cases h
    rfl
  | cons line rest ih =>
    obtain ⟨item, items', hitem, hrest, rfl⟩ := Script.mapM_cons_ok h
    obtain ⟨hid, hquantity, _⟩ := priceItem_ok hitem
    have htail := ih hrest
    simp only [List.map_cons, newOrderItem, hid, hquantity] at htail ⊢
    rw [htail]

theorem confirms_of_shows {call : CheckoutCall} {attempt : Attempt} {db' : Database}
    {response : CheckoutAcceptedResponse}
    {items : List PricedItem} (hacc : Accepted call attempt db db db' ⟨202, response⟩ items) {view : OrderResponse}
    (h : Shows ⟨call, attempt.orderId, attempt.eventId, items⟩ view) :
    Confirms call.customerId call.idempotencyKey call.lines db.prices response view := by
  have hresponse : response = responseBody (newOrder call attempt.orderId items) :=
    congrArg CheckoutResult.body hacc.response
  have hitems : view.items = items.map (newOrderItem attempt.orderId) := h.items
  subst hresponse
  refine ⟨h.order, ?_, fun item hitem => ?_, ?_, ?_, h.attempts⟩
  · rw [hitems]
    exact priced_lines hacc.priced _
  · rw [hitems] at hitem
    obtain ⟨priced, hpriced, rfl⟩ := List.mem_map.mp hitem
    obtain ⟨line, _, hline⟩ := Script.mem_of_mapM_ok hacc.priced hpriced
    obtain ⟨hid, _, product, _, price, hproduct, hprice, hunit⟩ := priceItem_ok hline
    rw [hproduct] at hprice
    exact ⟨price, by rw [show (newOrderItem attempt.orderId priced).productId = line.productId from hid]; exact hprice, hunit⟩
  · rw [hitems, numberTotal_items]
    rfl
  · obtain ⟨event, hevent, hfacts⟩ := h.event
    have hpayload := congrArg EventFacts.payload hfacts
    exact ⟨event, hevent, congrArg EventFacts.eventType hfacts, congrArg OrderAcceptedPayload.orderId hpayload,
      congrArg OrderAcceptedPayload.customerId hpayload, congrArg OrderAcceptedPayload.idempotencyKey hpayload⟩

/-- What a checkout has accepted, every later lookup shows, by id and by key, whatever is
written between its reads; only the database can keep it from answering. -/
theorem lookups_confirm (P : Platform) (w : World) (actions : List Action) (c₀ c₁ : Config) (input : CheckoutInput)
    (response : CheckoutAcceptedResponse) (hw : Pristine w.db)
    (hr : (machine P).system.run (.idle w) actions = some c₀)
    (haccepted : (checkout P input c₀.world.db).1 = .ok ⟨202, response⟩)
    (hstep : (machine P).system.step c₀ (.environment (.checkout input)) = some c₁) :
    ∃ customerId key, input.customerId = some customerId ∧ input.idempotencyKey = some key ∧
      (∀ result c₂, LookedUp P c₁ (getById response.orderId) result c₂ →
        OrUnavailable (Confirms customerId key (normalizeRequest P input.body) c₀.world.db.prices response) result) ∧
      ∀ result c₂, LookedUp P c₁ (getByIdempotencyKey (some customerId) key) result c₂ →
        OrUnavailable (fun row => row.customerId = customerId ∧ row.key = key ∧ row.status = .completed ∧
          row.orderId = some response.orderId ∧ row.responseBody = some response) result := by
  obtain ⟨customerId, key, hc, hk, hvalid, n, items, hacc⟩ := checkout_accepted haccepted
  obtain ⟨book, hbook⟩ := represented_run ⟨[], hw.represents⟩ hr
  let e : Entry := ⟨callOf P customerId key input, (input.attempts n).orderId, (input.attempts n).eventId, items⟩
  have hbooked : Booked e c₁.world.db := by
    cases hstep
    exact ⟨_, represents_accepted hbook (normalizeRequest_pos hvalid) hacc,
      List.mem_append_right book (.head [])⟩
  have hresponse : response = responseBody (newOrder (callOf P customerId key input) (input.attempts n).orderId items) :=
    congrArg CheckoutResult.body hacc.response
  have hid : response.orderId = e.orderId := by rw [hresponse]; rfl
  refine ⟨customerId, key, (header_eq_some hc).1, (header_eq_some hk).1, fun result c₂ h => ?_, fun result c₂ h => ?_⟩
  · rw [hid] at h
    have hshows := (Reads.ends (fun _ _ => booked_reaches) h hbooked getById_shows).1
    cases result with
    | error failure => exact hshows
    | ok view => exact confirms_of_shows hacc hshows
  · have hrow := (Reads.ends (fun _ _ => booked_reaches) h hbooked
      (getByIdempotencyKey_shows (header_eq_some hc).2 rfl rfl)).1
    cases result with
    | error failure => exact hrow
    | ok row =>
      cases hrow
      exact ⟨rfl, rfl, rfl, congrArg some hid.symm, congrArg some hresponse.symm⟩

/-- `firstOrder` is placed. -/
def placed : Config := after (after (.idle twoProducts) (wholeSync 0 2)) [.environment (.checkout firstOrder)]

/-- Its event is published. -/
def publishing : List Action := .start 1 .publishPending :: replies 1 [.answered, .answered, .answered, .answered]

/-- The order row is read before its event is published, the rows it includes afterwards. -/
theorem lookups_confirm_published : ∃ c₀ view,
    (machine plainPlatform).system.run (.idle twoProducts) (wholeSync 0 2) = some c₀ ∧
    (machine plainPlatform).system.step c₀ (.environment (.checkout firstOrder)) = some placed ∧
    LookedUp plainPlatform placed (getById "o1") (.ok view) (after placed publishing) ∧
    view.outboxEvents.map OutboxEvent.status = [.published] ∧
    Confirms "c1" "k" [⟨"p1", 2⟩, ⟨"p2", 1⟩] c₀.world.db.prices ⟨"o1", .pendingErp, 1700, "BRL"⟩ view := by
  have hrun := run_after (.idle twoProducts) (wholeSync 0 2) (by decide +kernel)
  have hpublish := run_after placed publishing (by decide +kernel)
  obtain ⟨customerId, key, hc, hk, hid, _⟩ := lookups_confirm plainPlatform twoProducts (wholeSync 0 2) _ placed firstOrder
    ⟨"o1", .pendingErp, 1700, "BRL"⟩ (World.fresh_pristine _) hrun (by decide +kernel) rfl
  cases hc
  cases hk
  let order : Order := ⟨"o1", "c1", "k", .pendingErp, 1700, "BRL", none, none⟩
  have hfound : Orders.read placed.world.db (.findOrder "o1") = some order := by decide +kernel
  let later := Orders.read (after placed publishing).world.db
  have hread : LookedUp plainPlatform placed (getById "o1")
      (.ok ⟨order, later (.items "o1"), later (.outboxEvents "o1"), later (.attempts "o1")⟩)
      (after placed publishing) := by
    unfold getById
    apply Reads.call (.refl _ _)
    rw [hfound]
    exact .answered ⟨publishing, hpublish⟩ (reads_alone _ _)
  exact ⟨_, _, hrun, rfl, hread, by decide +kernel, hid _ _ hread⟩

/-! ### The two lookups -/

/-- Every order has a customer a lookup by key can name. -/
def Scoped (orders : Table Order.id) : Prop := ∀ o ∈ orders.rows, header (some o.customerId) = some o.customerId

theorem checkout_scoped (input : CheckoutInput) (h : Scoped db.orders) : Scoped (checkout P input db).2.1.orders := by
  rcases checkout_cases P input db with ⟨error, hrefused⟩ | ⟨customerId, key, hcustomer, _, _, hprocess⟩
  · rw [hrefused]
    exact h
  · rw [hprocess]
    obtain ⟨result, hran, _⟩ := process_cases (callOf P customerId key input) input db
    cases hran with
    | replayed hreplayed =>
      rw [hreplayed.unchanged]
      exact h
    | accepted n items hacc =>
      intro o ho
      rw [(Table.insert?_eq_some hacc.order).2, List.mem_append, List.mem_singleton] at ho
      rcases ho with hold | rfl
      · exact h o hold
      · exact (header_eq_some hcustomer).2
    | failed _ hunchanged =>
      rw [hunchanged]
      exact h

theorem Scoped.update {orders : Table Order.id} (h : Scoped orders) (id : String) (f : Order → Order)
    {hf : ∀ o, (f o).id = o.id} (hcustomer : ∀ o, (f o).customerId = o.customerId) :
    Scoped (orders.update id f hf) := by
  intro o ho
  have hmem : o.customerId ∈ (orders.update id f hf).rows.map Order.customerId := List.mem_map_of_mem ho
  rw [Table.map_update orders id f hf hcustomer] at hmem
  obtain ⟨o', ho', hsame⟩ := List.mem_map.mp hmem
  rw [← hsame]
  exact h o' ho'

theorem OrdersAfter.scoped {w : World} {q : Call} {orders : Table Order.id} (h : OrdersAfter w q orders)
    (hw : Scoped w.db.orders) : Scoped orders := by
  cases h with
  | same => exact hw
  | billed id invoiceId => exact hw.update id _ fun _ => rfl
  | erpFailed id reason => exact hw.update id _ fun _ => rfl

theorem scoped_kept (P : Platform) : (machine P).Kept .any fun w => Scoped w.db.orders where
  start w task w' program h _ hstart := by
    rw [onStart_db hstart]
    exact h
  call w q reply h _ := (perform_executed w q reply).orders.scoped h
  crash w task h := by
    rw [show ((machine P).crash w task).db = w.db from onCrash_db w task]
    exact h
  environment pending w event w' h _ hevent := by
    rcases onEvent_db hevent with hdb | ⟨input, hdb⟩
    · rw [hdb]
      exact h
    · rw [hdb]
      exact checkout_scoped input h

theorem Pristine.scoped (h : Pristine db) : Scoped db.orders := by
  intro o ho
  rw [h.orders] at ho
  cases ho

theorem Booked.scoped (h : Booked e db) (hscoped : Scoped db.orders) :
    header (some e.call.customerId) = some e.call.customerId := by
  obtain ⟨book, hbook, he⟩ := h
  obtain ⟨o, ho, hfacts⟩ := hbook.order_of he
  rw [show e.call.customerId = o.customerId from (congrArg OrderFacts.customerId hfacts).symm]
  exact hscoped o (Table.mem_of_find? ho)

theorem booked_now {c c' : Config} (h : ∃ book, Represents book c.world.db) (hc : (machine P).system.Reaches c c') :
    ∃ book, Represents book c'.world.db := by
  obtain ⟨actions, hr⟩ := hc
  exact represented_run h hr

/-- A lookup by id that finds an order shows an entry. -/
theorem getById_entry {c c' : Config} (hbook : ∃ book, Represents book c.world.db) {id : String}
    {view : OrderResponse}
    (h : LookedUp P c (getById id) (.ok view) c') : ∃ e, e.orderId = id ∧ Shows e view ∧ Booked e c'.world.db := by
  obtain ⟨s, hreaches, hrest⟩ | ⟨failure, _, hfailed⟩ := reads_call_bind h
  · obtain ⟨book, hbook⟩ := booked_now hbook hreaches
    cases hfound : s.world.db.orders.find? id with
    | none =>
      rw [show Orders.read s.world.db (.findOrder id) = none from hfound] at hrest
      cases hrest
    | some o =>
      rw [show Orders.read s.world.db (.findOrder id) = some o from hfound] at hrest
      obtain ⟨e, he, hid, hfacts⟩ := hbook.entry_of hfound
      have hends := Reads.ends (fun _ _ => booked_reaches) hrest ⟨book, hbook, he⟩ (included_shows hfacts)
      exact ⟨e, hid, hends⟩
  · cases hfailed

/-- So does a lookup by key. -/
theorem getByIdempotencyKey_entry {c c' : Config} (hbook : ∃ book, Represents book c.world.db)
    {customerId : Option String} {key : String} {row : IdempotencyKey}
    (h : LookedUp P c (getByIdempotencyKey customerId key) (.ok row) c') :
    ∃ e, row = e.key ∧ customerId = some e.call.customerId ∧ e.call.idempotencyKey = key ∧ Booked e c'.world.db := by
  unfold getByIdempotencyKey at h
  cases hheader : header customerId with
  | none =>
    rw [hheader] at h
    cases h
  | some customer =>
    rw [hheader] at h
    obtain ⟨s, hreaches, hrest⟩ | ⟨failure, _, hfailed⟩ := reads_call_bind h
    · obtain ⟨book, hbook⟩ := booked_now hbook hreaches
      cases hfound : s.world.db.idempotencyKeys.find? (customer, key) with
      | none =>
        rw [show Orders.read s.world.db (.findIdempotencyKey customer key) = none from hfound] at hrest
        cases hrest
      | some stored =>
        rw [show Orders.read s.world.db (.findIdempotencyKey customer key) = some stored from hfound] at hrest
        cases hrest
        obtain ⟨hmem, hkey⟩ := Table.find?_eq_some.mp hfound
        rw [hbook.keys] at hmem
        obtain ⟨e, he, rfl⟩ := List.mem_map.mp hmem
        cases hkey
        exact ⟨e, rfl, (header_eq_some hheader).1, rfl, book, hbook, he⟩
    · cases hfailed

/-- An order that is found by its id is found by its key from then on, and one that is found
by a key by its id: the lookups agree on the customer, the key and the amount. -/
theorem lookups_agree (P : Platform) (w : World) (actions : List Action) (c : Config) (hw : Pristine w.db)
    (hr : (machine P).system.run (.idle w) actions = some c) :
    (∀ id view c₁, LookedUp P c (getById id) (.ok view) c₁ →
      view.order.id = id ∧ view.order.totalCents = numberTotal view.items ∧
      ∀ result c₂, LookedUp P c₁ (getByIdempotencyKey (some view.order.customerId) view.order.idempotencyKey) result c₂ →
        OrUnavailable (fun row => row.orderId = some id ∧
          row.responseBody = some ⟨id, .pendingErp, view.order.totalCents, view.order.currency⟩) result) ∧
    ∀ customerId key row c₁, LookedUp P c (getByIdempotencyKey customerId key) (.ok row) c₁ →
      ∃ id response, row.orderId = some id ∧ row.responseBody = some response ∧
        ∀ result c₂, LookedUp P c₁ (getById id) result c₂ →
          OrUnavailable (fun view => some view.order.customerId = customerId ∧ view.order.idempotencyKey = key ∧
            view.order.totalCents = response.totalCents ∧ view.order.currency = response.currency) result := by
  have hbook := represented_run ⟨[], hw.represents⟩ hr
  have hscoped : ∀ {c₁ : Config}, (machine P).system.Reaches c c₁ → Scoped c₁.world.db.orders := by
    intro c₁ ⟨as, has⟩
    exact (scoped_kept P).run_any ((scoped_kept P).run_any hw.scoped hr) has
  refine ⟨fun id view c₁ h => ?_, fun customerId key row c₁ h => ?_⟩
  · obtain ⟨e, rfl, hshows, hbooked⟩ := getById_entry hbook h
    have hc : e.call.customerId = view.order.customerId := (congrArg OrderFacts.customerId hshows.order).symm
    have hk : e.call.idempotencyKey = view.order.idempotencyKey :=
      (congrArg OrderFacts.idempotencyKey hshows.order).symm
    have htotal : view.order.totalCents = totalCents e.items := congrArg OrderFacts.totalCents hshows.order
    refine ⟨congrArg OrderFacts.id hshows.order, ?_, fun result c₂ hkey => ?_⟩
    · rw [hshows.items, htotal]
      exact (numberTotal_items _ _).symm
    · have hheader : header (some view.order.customerId) = some view.order.customerId := by
        rw [← hc]
        exact hbooked.scoped (hscoped (Reads.reaches h))
      have hrow := (Reads.ends (fun _ _ => booked_reaches) hkey hbooked (getByIdempotencyKey_shows hheader hc hk)).1
      cases result with
      | error failure => exact hrow
      | ok row =>
        cases hrow
        rw [htotal, show view.order.currency = "BRL" from congrArg OrderFacts.currency hshows.order]
        exact ⟨rfl, rfl⟩
  · obtain ⟨e, rfl, rfl, rfl, hbooked⟩ := getByIdempotencyKey_entry hbook h
    refine ⟨e.orderId, responseBody e.order, rfl, rfl, fun result c₂ hid => ?_⟩
    have hview := (Reads.ends (fun _ _ => booked_reaches) hid hbooked getById_shows).1
    cases result with
    | error failure => exact hview
    | ok view =>
      have hfacts := hview.order
      exact ⟨congrArg some (congrArg OrderFacts.customerId hfacts), congrArg OrderFacts.idempotencyKey hfacts,
        congrArg OrderFacts.totalCents hfacts, congrArg OrderFacts.currency hfacts⟩

/-- The order is found by its id, its event is published, and then its key is looked up. -/
theorem lookups_agree_placed : ∃ view row,
    (machine plainPlatform).system.run (.idle twoProducts) (wholeSync 0 2 ++ [.environment (.checkout firstOrder)]) =
      some placed ∧
    LookedUp plainPlatform placed (getById "o1") (.ok view) placed ∧
    LookedUp plainPlatform placed (getByIdempotencyKey (some "c1") "k") (.ok row) (after placed publishing) ∧
    row.orderId = some "o1" ∧ row.responseBody = some ⟨"o1", .pendingErp, view.order.totalCents, "BRL"⟩ := by
  have hrun : (machine plainPlatform).system.run (.idle twoProducts)
      (wholeSync 0 2 ++ [.environment (.checkout firstOrder)]) = some placed := by
    rw [Steps.System.run_append, run_after _ (wholeSync 0 2) (by decide +kernel)]
    exact run_after _ _ (by decide +kernel)
  have hpublish := run_after placed publishing (by decide +kernel)
  let order : Order := ⟨"o1", "c1", "k", .pendingErp, 1700, "BRL", none, none⟩
  have horder : Orders.read placed.world.db (.findOrder "o1") = some order := by decide +kernel
  let now := Orders.read placed.world.db
  have hview : LookedUp plainPlatform placed (getById "o1")
      (.ok ⟨order, now (.items "o1"), now (.outboxEvents "o1"), now (.attempts "o1")⟩) placed := by
    unfold getById
    apply Reads.call (.refl _ _)
    rw [horder]
    exact reads_alone _ _
  have hstored : ((after placed publishing).world.db.idempotencyKeys.find? ("c1", "k")).isSome := by decide +kernel
  obtain ⟨key, hkey⟩ := Option.isSome_iff_exists.mp hstored
  have hrow : LookedUp plainPlatform placed (getByIdempotencyKey (some "c1") "k") (.ok key) (after placed publishing) := by
    apply Reads.call ⟨publishing, hpublish⟩
    rw [show Orders.read (after placed publishing).world.db (.findIdempotencyKey "c1" "k") = some key from hkey]
    exact reads_alone _ _
  obtain ⟨hid, _⟩ := lookups_agree plainPlatform twoProducts _ placed (World.fresh_pristine _) hrun
  obtain ⟨_, _, hagree⟩ := hid "o1" _ _ hview
  exact ⟨_, _, hrun, hview, hrow, hagree _ _ hrow⟩

end CaseCellShop.Shop
