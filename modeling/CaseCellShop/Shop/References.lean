import CaseCellShop.Catalog.Mirror
import CaseCellShop.Checkout.Failures
import CaseCellShop.Checkout.Pricing
import CaseCellShop.Library.References
import CaseCellShop.Shop.System

/-! The foreign keys of the schema.

Every reference between the tables leads to a row in every state of every run, and every
product has its price, its inventory and its stats. So of the writes of the apps only the
insert of a billing attempt can meet a foreign key, and no product is read without the
rows that are read with it (`references_resolve`). -/
namespace CaseCellShop.Shop
open Catalog Checkout Table

/-- Every `@relation` of the schema resolves, and each product has its price, its inventory and
its stats. -/
structure References (db : Database) : Prop where
  prices : SameKeys db.prices db.products
  inventory : SameKeys db.inventory db.products
  stats : SameKeys db.stats db.products
  compatibilities : db.products.Resolves (fun r => some r.productId) db.compatibilities.rows
  deviceModels : db.deviceModels.Resolves (fun r => some r.deviceModelId) db.compatibilities.rows
  items : db.orders.Resolves (fun r => some r.orderId) db.orderItems
  itemProducts : db.products.Resolves (fun r => some r.productId) db.orderItems
  keys : db.orders.Resolves IdempotencyKey.orderId db.idempotencyKeys.rows
  events : db.orders.Resolves OutboxEvent.orderId db.outboxEvents.rows
  attempts : db.orders.Resolves (fun r => some r.orderId) db.integrationAttempts.rows

variable {P : Checkout.Platform} {db db' : Database} {w w' : World}

theorem References.empty : References .empty := by
  constructor <;> first | exact fun _ => rfl | exact fun _ hr => nomatch hr

/-! ### A sync -/

/-- A product's transaction writes the rows it refers to first. -/
theorem syncProduct_references {clock : Clock} {current : Option Inventory} {p : ErpCatalogProduct}
    (hsync : syncProduct clock current p db = .ok db') (h : References db) : References db' := by
  have hsynced := syncProduct_ok hsync
  obtain ⟨db₁, hstats, hmodels, hcompatibilities, hdevices⟩ := syncProduct_ends hsync
  obtain ⟨hmodels', hcompatibilities'⟩ := upsertStats_devices p db₁
  obtain ⟨hkept, deviceModels, _, hfound, hrows⟩ := syncCompatibilities_rows hdevices
  have hproducts : KeysKept db.products db'.products := hsynced.products ▸ keysKept_set _ _
  have hnew : (db'.products.find? p.id).isSome := by
    rw [hsynced.products]
    exact Option.isSome_of_mem (find?_set_self ..)
  have hdeviceModels : KeysKept db.deviceModels db'.deviceModels := by
    intro k hk
    obtain ⟨d, hd⟩ := Option.isSome_iff_exists.mp hk
    obtain ⟨d', hd', hid, _⟩ := hkept d (by
      rw [hmodels', hmodels]
      exact mem_of_find? hd)
    rw [← key_of_find? hd, ← hid, find?_key hd']
    rfl
  refine ⟨?_, ?_, ?_, ?_, ?_, ?_, ?_, ?_, ?_, ?_⟩
  · rw [hsynced.prices, hsynced.products]
    exact h.prices.set rfl
  · rw [hsynced.inventory, hsynced.products]
    exact h.inventory.set (syncedInventory_productId ..)
  · intro k
    have hwritten := upsertStats_find p db₁ k
    rw [hstats] at hwritten
    have hread : db'.stats.find? k = (upsertStats p db₁).stats.find? k := by
      rw [(syncCompatibilities_ok hdevices).rest]
    rw [hread, hwritten, hsynced.products, find?_set]
    split
    · rfl
    · exact h.stats k
  · intro c hc k hk
    cases hk
    rcases (hrows c).mp hc with ⟨hold, _⟩ | ⟨d, _, rfl⟩
    · rw [hcompatibilities', hcompatibilities] at hold
      exact hproducts _ (h.compatibilities c hold _ rfl)
    · exact hnew
  · intro c hc k hk
    cases hk
    rcases (hrows c).mp hc with ⟨hold, _⟩ | ⟨d, hd, rfl⟩
    · rw [hcompatibilities', hcompatibilities] at hold
      exact hdeviceModels _ (h.deviceModels c hold _ rfl)
    · exact Option.isSome_of_mem (find?_key (hfound d hd))
  · rw [hsynced.others]
    exact h.items
  · rw [show db'.orderItems = db.orderItems by rw [hsynced.others]]
    exact h.itemProducts.kept hproducts
  · rw [hsynced.others]
    exact h.keys
  · rw [hsynced.others]
    exact h.events
  · rw [hsynced.others]
    exact h.attempts

/-! ### A checkout -/

/-- Reservations rewrite rows that are there. -/
theorem Reserved.sameKeys {lines : List CheckoutLine} {t t' : Table Inventory.productId} (h : Reserved lines t t')
    {s : Table Product.id} (hs : SameKeys t s) : SameKeys t' s := by
  induction h with
  | nil => exact hs
  | @cons line rest row t t' found _ _ _ _ ih =>
    have hrow : (t.find? row.productId).isSome := Option.isSome_of_mem (find?_key (mem_of_find? found))
    exact ih (hs.overwrite hrow)

/-- An accepted order writes itself before the rows that refer to it, and its items are of
products that were found. -/
theorem accepted_references {call : CheckoutCall} {attempt : Attempt} {result : CheckoutResult}
    {items : List PricedItem} (hacc : Accepted call attempt db db db' result items) (h : References db) :
    References db' := by
  have hsame : db'.products = db.products ∧ db'.prices = db.prices ∧ db'.stats = db.stats ∧
      db'.deviceModels = db.deviceModels ∧ db'.compatibilities = db.compatibilities ∧
      db'.integrationAttempts = db.integrationAttempts := by
    rw [hacc.others]
    exact ⟨rfl, rfl, rfl, rfl, rfl, rfl⟩
  obtain ⟨hproducts, hprices, hstats, hmodels, hcompatibilities, hattempts⟩ := hsame
  have horders : KeysKept db.orders db'.orders := keysKept_insert hacc.order
  have hnew : (db'.orders.find? attempt.orderId).isSome := Option.isSome_of_mem (find?_inserted hacc.order)
  refine ⟨?_, ?_, ?_, ?_, ?_, ?_, ?_, ?_, ?_, ?_⟩
  · rw [hprices, hproducts]
    exact h.prices
  · rw [hproducts]
    exact Reserved.sameKeys hacc.reserved h.inventory
  · rw [hstats, hproducts]
    exact h.stats
  · rw [hproducts, hcompatibilities]
    exact h.compatibilities
  · rw [hmodels, hcompatibilities]
    exact h.deviceModels
  · rw [hacc.orderItems]
    refine (h.items.kept horders).append fun item hitem k hk => ?_
    obtain ⟨priced, _, rfl⟩ := List.mem_map.mp hitem
    cases hk
    exact hnew
  · rw [hproducts, hacc.orderItems]
    refine h.itemProducts.append fun item hitem k hk => ?_
    obtain ⟨priced, hpriced, rfl⟩ := List.mem_map.mp hitem
    cases hk
    obtain ⟨line, _, hprice⟩ := Script.mem_of_mapM_ok hacc.priced hpriced
    obtain ⟨hid, _, product, hproduct, _, hproductId, _⟩ := priceItem_ok hprice
    have hrow := (mem_requestedProducts.mp hproduct).1
    rw [show (newOrderItem attempt.orderId priced).productId = product.id from hid.trans hproductId.symm]
    exact Option.isSome_of_mem (find?_key hrow)
  · exact (h.keys.kept horders).insert hacc.key fun k hk => by
      cases hk
      exact hnew
  · exact (h.events.kept horders).insert hacc.event fun k hk => by
      cases hk
      exact hnew
  · rw [hattempts]
    exact h.attempts.kept horders

/-! ### Every run -/

theorem References.orders_update (h : References db) (id : String) {f : Order → Order} {hf : ∀ o, (f o).id = o.id} :
    References {db with orders := db.orders.update id f hf} :=
  have horders := keysKept_update db.orders id f hf
  {h with
    items := h.items.kept horders
    keys := h.keys.kept horders
    events := h.events.kept horders
    attempts := h.attempts.kept horders}

theorem References.events_update (h : References db) (id : String) {f : OutboxEvent → OutboxEvent}
    {hf : ∀ e, (f e).id = e.id} (horder : ∀ e, (f e).orderId = e.orderId) :
    References {db with outboxEvents := db.outboxEvents.update id f hf} :=
  {h with events := h.events.update id hf horder}

theorem updateOrder_references (h : References w.db) (id : String) {f : Order → Order} {hf : ∀ o, (f o).id = o.id} :
    References (w.updateOrder P id f hf).1.db := by
  unfold World.updateOrder
  split
  · rename_i order db hupdate
    rw [(updateOrder_ok hupdate).2]
    exact h.orders_update id
  · exact h

theorem write_references {r : Except DbError Database} (h : References w.db) (hr : ∀ db, r = .ok db → References db) :
    References (w.write P r).1.db := by
  cases r with
  | error e => exact h
  | ok db => exact hr db rfl

theorem execute_references (h : References w.db) (q : Call) : References (execute P w q).1.db := by
  cases q with
  | syncProduct current product => exact write_references h fun db hsync => syncProduct_references hsync h
  | deactivateAbsent activeIds =>
    have hid := deactivate_id w.clock.now activeIds
    have hproducts := keysKept_modify w.db.products _ hid
    exact {h with
      prices := h.prices.modify _ hid
      inventory := h.inventory.modify _ hid
      stats := h.stats.modify _ hid
      compatibilities := h.compatibilities.kept hproducts
      itemProducts := h.itemProducts.kept hproducts}
  | bumpCatalogVersion =>
    simp only [execute]
    split
    · rename_i db hbump
      rw [bumpCatalogVersion_ok hbump]
      exact {h with}
    · exact h
  | billOrder orderId billingKey =>
    show References (clientBillOrder w orderId billingKey).1.db
    unfold clientBillOrder
    split <;> exact h
  | markBilled orderId invoiceId => exact updateOrder_references h orderId
  | markErpFailed orderId reason => exact updateOrder_references h orderId
  | createIntegrationAttempt attempt =>
    refine write_references h fun db hcreate => ?_
    obtain ⟨attempts, hinsert, rfl⟩ := createIntegrationAttempt_ok hcreate
    refine {h with attempts := h.attempts.insert hinsert fun k hk => ?_}
    cases hk
    cases horder : w.db.orders.find? attempt.orderId with
    | some order => rfl
    | none => simp [Database.createIntegrationAttempt, horder] at hcreate
  | markPublished eventId =>
    refine write_references h fun db hmark => ?_
    rw [updateOutboxEvent_ok hmark]
    exact h.events_update eventId fun _ => rfl
  | markEventFailed eventId lastError =>
    refine write_references h fun db hmark => ?_
    rw [updateOutboxEvent_ok hmark]
    exact h.events_update eventId fun _ => rfl
  | _ => exact h

theorem references_kept (P : Checkout.Platform) : (machine P).Kept .any fun w => References w.db where
  start w task w' program h _ hstart := by
    rw [onStart_db hstart]
    exact h
  call w q a h _ := by
    rcases perform_cases (P := P) w q a with hnone | ⟨_, hdone⟩
    · rw [show (machine P).perform w q a = perform P w q a from rfl, hnone]
      exact h
    · rw [show (machine P).perform w q a = perform P w q a from rfl, hdone]
      exact execute_references h q
  crash w task h := by
    rw [show ((machine P).crash w task).db = w.db from onCrash_db w task]
    exact h
  environment pending w event w' h _ hevent := by
    rcases onEvent_db hevent with hdb | ⟨input, hdb⟩
    · rw [hdb]
      exact h
    · rw [hdb]
      rcases checkout_db P input w.db with hsame | ⟨_, _, _, _, _, _, hacc⟩
      · rw [hsame]
        exact h
      · exact accepted_references hacc h

/-- Whatever runs and fails, every reference leads to a row and every product has the rows
that are read with it. -/
theorem references_resolve (P : Checkout.Platform) (w : World) (actions : List Action) (c : Config)
    (hw : References w.db) (hr : (machine P).system.run (.idle w) actions = some c) : References c.world.db :=
  (references_kept P).run_any hw hr

theorem references_resolve_published : ∃ c,
    (machine plainPlatform).system.run (.idle twoProducts) orderPublished = some c ∧ References c.world.db :=
  have hrun := run_after (.idle twoProducts) orderPublished (by decide +kernel)
  ⟨_, hrun, references_resolve plainPlatform twoProducts orderPublished _ .empty hrun⟩

end CaseCellShop.Shop
