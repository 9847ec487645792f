import CaseCellShop.Catalog.Concurrency

/-! What a sync leaves in the store.

A sync that returns has written every listed product as the list has it last, and
deactivated the others (`Mirrored`). The products are written one after the other, so the
lemmas follow one product through the list: a listed one from its last transaction on, an
unlisted one past all of them. -/
namespace CaseCellShop.Catalog
open UniqueColumn

/-- The occurrence that counts. -/
def lastListed (products : List ErpCatalogProduct) (id : String) : Option ErpCatalogProduct :=
  (products.filter fun p => p.id = id).getLast?

theorem lastListed_cons (p : ErpCatalogProduct) (rest : List ErpCatalogProduct) (id : String) :
    lastListed (p :: rest) id = (lastListed rest id).or (if p.id = id then some p else none) := by
  unfold lastListed
  by_cases hid : p.id = id
  · simp only [hid, decide_true, List.filter_cons_of_pos, List.getLast?_cons, if_true]
    cases (rest.filter fun p => p.id = id).getLast? <;> rfl
  · simp [hid]

theorem lastListed_eq_some {products : List ErpCatalogProduct} {id : String} {p : ErpCatalogProduct}
    (h : lastListed products id = some p) : p ∈ products ∧ p.id = id := by
  have hmem := List.mem_of_getLast? h
  simpa using hmem

theorem lastListed_eq_none {products : List ErpCatalogProduct} {id : String} :
    lastListed products id = none ↔ id ∉ products.map ErpCatalogProduct.id := by
  simp [lastListed]

theorem timesListed_eq_zero {products : List ErpCatalogProduct} {id : String} (h : lastListed products id = none) :
    timesListed products id = 0 := by
  rw [timesListed, List.countP_eq_zero]
  intro p hp he
  exact lastListed_eq_none.mp h (List.mem_map.mpr ⟨p, hp, of_decide_eq_true he⟩)

/-! ### Rows -/

/-- The row a product's transaction writes. -/
def productRow (now : Nat) (p : ErpCatalogProduct) : Product :=
  ⟨p.id, p.sku, p.name, some p.description, some p.imageUrl, some p.brand, p.active, now⟩

def priceRow (p : ErpCatalogProduct) : ProductPrice := ⟨p.id, p.priceCents, "BRL"⟩

def reservedBefore (before : Option Inventory) : Int := (before.map Inventory.reservedQty).getD 0

/-- The inventory of a synced product: the reservations are kept, and what is available is
computed from them, except for a new row, which takes the quantity as it is. -/
structure Stocked (before : Option Inventory) (p : ErpCatalogProduct) (row : Inventory) : Prop where
  erpQty : row.erpQty = p.erpQty
  reservedQty : row.reservedQty = reservedBefore before
  availableQty : row.availableQty = availability before p.erpQty ∨ before = none ∧ row.availableQty = p.erpQty

/-- The compatibilities of a product are the device models with these slugs. -/
structure LinkedTo (db : Database) (id : String) (slugs : List String) : Prop where
  exist : ∀ slug ∈ slugs, ∃ d ∈ db.deviceModels.rows, d.slug = slug
  linked : ∀ deviceModelId, ⟨id, deviceModelId⟩ ∈ db.compatibilities.rows ↔
    ∃ d ∈ db.deviceModels.rows, d.id = deviceModelId ∧ d.slug ∈ slugs

def slugsOf (p : ErpCatalogProduct) : List String := p.compatibilities.map ErpCatalogCompatibility.slug

theorem LinkedTo.kept {db db' : Database} {id : String} {slugs : List String} (h : LinkedTo db id slugs)
    (hkept : SlugsKept db db') (hslugs : UniqueSlugs db')
    (hrows : ∀ c, c.productId = id → (c ∈ db'.compatibilities.rows ↔ c ∈ db.compatibilities.rows)) :
    LinkedTo db' id slugs := by
  constructor
  · intro slug hslug
    obtain ⟨d, hd, rfl⟩ := h.exist slug hslug
    obtain ⟨d', hd', _, hslug'⟩ := hkept d hd
    exact ⟨d', hd', hslug'⟩
  · intro deviceModelId
    rw [hrows _ rfl, h.linked]
    constructor
    · rintro ⟨d, hd, rfl, hslug⟩
      obtain ⟨d', hd', hid, hslug'⟩ := hkept d hd
      exact ⟨d', hd', hid, hslug'.symm ▸ hslug⟩
    · rintro ⟨d', hd', rfl, hslug⟩
      obtain ⟨d, hd, hslugd⟩ := h.exist _ hslug
      obtain ⟨d'', hd'', hid, hslug''⟩ := hkept d hd
      obtain rfl := hslugs d'' hd'' d' hd' (hslug''.trans hslugd)
      exact ⟨d, hd, hid.symm, hslugd ▸ hslug⟩

/-! ### One product -/

/-- All that a product's transaction leaves. -/
structure Written (clock : Clock) (p : ErpCatalogProduct) (db db' : Database) : Prop where
  products : db'.products = db.products.set (productRow clock.now p)
  prices : db'.prices = db.prices.set (priceRow p)
  inventory : ∃ row, Stocked (db.inventory.find? p.id) p row ∧
    ∀ id, db'.inventory.find? id = if id = p.id then some row else db.inventory.find? id
  stats : ∀ id, db'.stats.find? id =
    if id = p.id then some ((db.stats.find? id).getD ⟨id, 0, 0, 0⟩) else db.stats.find? id
  linked : LinkedTo db' p.id (slugsOf p)
  compatibilities : ∀ c, c.productId ≠ p.id → (c ∈ db'.compatibilities.rows ↔ c ∈ db.compatibilities.rows)
  slugsKept : SlugsKept db db'
  slugs : UniqueSlugs db'
  column : deviceColumn db' = upserts (deviceColumn db) (p.compatibilities.map deviceEntry)

theorem each_upsertDeviceModel_column {clock : Clock} {cs : List ErpCatalogCompatibility} {db db' : Database}
    (h : each (upsertDeviceModel clock) cs db = .ok db') (hdb : UniqueSlugs db) :
    deviceColumn db' = upserts (deviceColumn db) (cs.map deviceEntry) := by
  induction cs generalizing db with
  | nil =>
    cases h
    rfl
  | cons c rest ih =>
    obtain ⟨db₁, h₁, hrest⟩ := bind_ok.mp h
    obtain ⟨id, hput⟩ := upsertDeviceModel_puts h₁ hdb
    rw [ih hrest (hdb.put hput), hdb.put_column hput]
    rfl

theorem syncCompatibilities_column {clock : Clock} {p : ErpCatalogProduct} {db db' : Database}
    (h : syncCompatibilities clock p db = .ok db') (hdb : UniqueSlugs db) :
    deviceColumn db' = upserts (deviceColumn db) (p.compatibilities.map deviceEntry) := by
  obtain ⟨db₁, hupserts, h⟩ := bind_ok.mp h
  obtain ⟨deviceModels, _, hcreate⟩ := bind_ok.mp h
  rw [deviceColumn_congr (createCompatibilities_rows hcreate).2, each_upsertDeviceModel_column hupserts hdb]
  rfl

theorem syncCompatibilities_linked {clock : Clock} {p : ErpCatalogProduct} {db db' : Database}
    (h : syncCompatibilities clock p db = .ok db') (hdb : UniqueSlugs db) : LinkedTo db' p.id (slugsOf p) := by
  have hslugs := syncCompatibilities_slugs h hdb
  obtain ⟨_, deviceModels, hsame, hmodels, hrows⟩ := syncCompatibilities_rows h
  have hmem (slug : String) : slug ∈ slugsOf p ↔ ∃ d ∈ deviceModels, d.slug = slug := by
    rw [slugsOf, ← hsame, List.mem_map]
  constructor
  · intro slug hslug
    obtain ⟨d, hd, he⟩ := (hmem slug).mp hslug
    exact ⟨d, hmodels d hd, he⟩
  · intro deviceModelId
    rw [hrows]
    constructor
    · rintro (⟨_, hne⟩ | ⟨d, hd, he⟩)
      · exact absurd rfl hne
      · exact ⟨d, hmodels d hd, congrArg ProductCompatibility.deviceModelId he, (hmem _).mpr ⟨d, hd, rfl⟩⟩
    · rintro ⟨d, hd, rfl, hslug⟩
      obtain ⟨d', hd', he⟩ := (hmem _).mp hslug
      obtain rfl := hslugs d' (hmodels d' hd') d hd he
      exact .inr ⟨d', hd', rfl⟩

theorem upsertStats_find (p : ErpCatalogProduct) (db : Database) (id : String) :
    (upsertStats p db).stats.find? id =
      if id = p.id then some ((db.stats.find? id).getD ⟨id, 0, 0, 0⟩) else db.stats.find? id := by
  unfold upsertStats
  by_cases hid : id = p.id
  · subst hid
    cases hfind : db.stats.find? p.id with
    | none => simp
    | some row => simp [hfind]
  · cases hfind : db.stats.find? p.id with
    | none => simp [Table.find?_set, hid]
    | some row => simp [hid]

/-- The inventory row after a transaction that read it at its start. -/
theorem syncedInventory_stocked (p : ErpCatalogProduct) (db : Database) :
    Stocked (db.inventory.find? p.id) p (syncedInventory (db.inventory.find? p.id) p db) := by
  unfold syncedInventory
  cases hfind : db.inventory.find? p.id with
  | none => exact ⟨rfl, rfl, .inr ⟨rfl, rfl⟩⟩
  | some row => exact ⟨rfl, rfl, .inl rfl⟩

/-- The last part of a product's transaction starts from stats and devices as they were. -/
theorem syncProduct_ends {clock : Clock} {current : Option Inventory} {p : ErpCatalogProduct} {db db' : Database}
    (h : syncProduct clock current p db = .ok db') :
    ∃ db₁ : Database, db₁.stats = db.stats ∧ db₁.deviceModels = db.deviceModels ∧
      db₁.compatibilities = db.compatibilities ∧ syncCompatibilities clock p (upsertStats p db₁) = .ok db' := by
  obtain ⟨db₁, hproduct, h₁⟩ := bind_ok.mp h
  obtain ⟨_, _, hdb₁⟩ := bind_ok.mp hproduct
  cases hdb₁
  obtain ⟨db₂, hprice, h₂⟩ := bind_ok.mp h₁
  obtain ⟨_, _, hdb₂⟩ := bind_ok.mp hprice
  cases hdb₂
  obtain ⟨db₃, hinventory, h₃⟩ := bind_ok.mp h₂
  obtain ⟨_, _, hdb₃⟩ := bind_ok.mp hinventory
  cases hdb₃
  exact ⟨_, by rfl, by rfl, by rfl, h₃⟩

theorem syncProduct_written {clock : Clock} {p : ErpCatalogProduct} {db db' : Database}
    (h : syncProduct clock (db.inventory.find? p.id) p db = .ok db') (hdb : UniqueSlugs db) :
    Written clock p db db' := by
  have hsynced := syncProduct_ok h
  obtain ⟨db₁, hstats, hmodels, hcompatibilities, hdevices⟩ := syncProduct_ends h
  obtain ⟨hmodels', hcompatibilities'⟩ := upsertStats_devices p db₁
  have hslugs : UniqueSlugs (upsertStats p db₁) := by
    rw [UniqueSlugs, hmodels', hmodels]
    exact hdb
  obtain ⟨hkept, _, _, _, hrows⟩ := syncCompatibilities_rows hdevices
  refine ⟨hsynced.products, hsynced.prices, ⟨_, syncedInventory_stocked p db, fun id => ?_⟩, fun id => ?_,
    syncCompatibilities_linked hdevices hslugs, fun c hc => ?_, ?_, syncCompatibilities_slugs hdevices hslugs, ?_⟩
  · rw [hsynced.inventory, Table.find?_set, syncedInventory_productId]
  · rw [(syncCompatibilities_ok hdevices).rest]
    exact (upsertStats_find p db₁ id).trans (by rw [hstats])
  · rw [hrows, hcompatibilities', hcompatibilities]
    constructor
    · rintro (⟨hmem, _⟩ | ⟨d, _, rfl⟩)
      · exact hmem
      · exact absurd rfl hc
    · exact fun hmem => .inl ⟨hmem, hc⟩
  · exact (slugsKept_of_eq (hmodels'.trans hmodels)).trans hkept
  · rw [syncCompatibilities_column hdevices hslugs, deviceColumn_congr (hmodels'.trans hmodels)]

/-! ### All products -/

/-- What the transactions of a list of products leave. -/
structure AllWritten (clock : Clock) (products : List ErpCatalogProduct) (db db' : Database) : Prop where
  product : ∀ id, db'.products.find? id =
    ((lastListed products id).map (productRow clock.now)).or (db.products.find? id)
  price : ∀ id, db'.prices.find? id = ((lastListed products id).map priceRow).or (db.prices.find? id)
  stocked : ∀ id p, lastListed products id = some p →
    ∃ row, db'.inventory.find? id = some row ∧ Stocked (db.inventory.find? id) p row
  updated : ∀ id p row, lastListed products id = some p → 1 < timesListed products id →
    db'.inventory.find? id = some row → row.availableQty = availability (db.inventory.find? id) p.erpQty
  inventory : ∀ id, lastListed products id = none → db'.inventory.find? id = db.inventory.find? id
  stats : ∀ id, db'.stats.find? id =
    if (lastListed products id).isSome then some ((db.stats.find? id).getD ⟨id, 0, 0, 0⟩) else db.stats.find? id
  linked : ∀ id p, lastListed products id = some p → LinkedTo db' id (slugsOf p)
  compatibilities : ∀ c, lastListed products c.productId = none →
    (c ∈ db'.compatibilities.rows ↔ c ∈ db.compatibilities.rows)
  slugsKept : SlugsKept db db'
  slugs : UniqueSlugs db'
  column : deviceColumn db' = upserts (deviceColumn db) (deviceEntries products)

/-- Where there was a row the availability is computed. -/
theorem Stocked.updated {row row' : Inventory} {p : ErpCatalogProduct} (h : Stocked (some row) p row') :
    row'.availableQty = availability (some row) p.erpQty := by
  rcases h.availableQty with havailable | ⟨hnone, _⟩
  · exact havailable
  · cases hnone

/-- A row that is synced once more keeps the reservations it had before both. -/
theorem Stocked.again {before : Option Inventory} {p q : ErpCatalogProduct} {row row' : Inventory}
    (h : Stocked before p row) (h' : Stocked (some row) q row') :
    Stocked before q row' ∧ row'.availableQty = availability before q.erpQty := by
  have hreserved : reservedBefore (some row) = reservedBefore before := h.reservedQty
  have havailable : row'.availableQty = availability before q.erpQty :=
    h'.updated.trans (congrArg (fun reserved => max (q.erpQty - reserved) 0) hreserved)
  exact ⟨⟨h'.erpQty, h'.reservedQty.trans hreserved, .inl havailable⟩, havailable⟩

/-- A row that is set counts unless the product is listed once more. -/
theorem set_lastListed {ρ : Type} {key : ρ → String} (table : Table key) (row : ErpCatalogProduct → ρ)
    {p : ErpCatalogProduct} (hkey : key (row p) = p.id) (rest : List ErpCatalogProduct) (id : String) :
    ((lastListed rest id).map row).or ((table.set (row p)).find? id) =
      ((lastListed (p :: rest) id).map row).or (table.find? id) := by
  rw [lastListed_cons, Table.find?_set, hkey]
  by_cases hid : id = p.id
  · subst hid
    cases lastListed rest p.id <;> simp
  · have hne : ¬p.id = id := fun he => hid he.symm
    simp [hid, hne]

theorem syncProducts_written {clock : Clock} {products : List ErpCatalogProduct} {db db' : Database}
    (h : syncProducts clock products db = (.ok (), db')) (hdb : UniqueSlugs db) :
    AllWritten clock products db db' := by
  induction products generalizing db with
  | nil =>
    cases h
    exact ⟨fun _ => rfl, fun _ => rfl, fun _ _ => nofun, fun _ _ _ => nofun, fun _ _ => rfl, fun _ => rfl,
      fun _ _ => nofun,
      fun _ _ => Iff.rfl, SlugsKept.refl _, hdb, rfl⟩
  | cons p rest ih =>
    unfold syncProducts at h
    cases hstep : syncProduct clock (db.inventory.find? p.id) p db with
    | error e =>
      rw [hstep] at h
      cases h
    | ok db₁ =>
      rw [hstep] at h
      have hp := syncProduct_written hstep hdb
      have hrest := ih h hp.slugs
      obtain ⟨row, hrow, hinventory⟩ := hp.inventory
      have hcons (id : String) := lastListed_cons p rest id
      refine ⟨fun id => ?_, fun id => ?_, fun id q hq => ?_, fun id q row' hq htwice hrow' => ?_, fun id hnone => ?_,
        fun id => ?_, fun id q hq => ?_, fun c hnone => ?_, hp.slugsKept.trans hrest.slugsKept, hrest.slugs, ?_⟩
      · rw [hrest.product, hp.products]
        exact set_lastListed _ (productRow clock.now) rfl rest id
      · rw [hrest.price, hp.prices]
        exact set_lastListed _ priceRow rfl rest id
      · cases hlast : lastListed rest id with
        | some q' =>
          obtain ⟨row', hrow', hstocked⟩ := hrest.stocked id q' hlast
          obtain rfl : q' = q := by simpa [hcons, hlast] using hq
          refine ⟨row', hrow', ?_⟩
          rw [hinventory] at hstocked
          by_cases hid : id = p.id
          · rw [if_pos hid] at hstocked
            rw [hid]
            exact (hrow.again hstocked).1
          · rwa [if_neg hid] at hstocked
        | none =>
          rw [hcons, hlast] at hq
          by_cases hid : p.id = id
          · obtain rfl : p = q := by simpa [hid] using hq
            refine ⟨row, ?_, hid ▸ hrow⟩
            rw [hrest.inventory id hlast, hinventory, if_pos hid.symm]
          · simp [hid] at hq
      · cases hlast : lastListed rest id with
        | some q' =>
          obtain rfl : q' = q := by simpa [hcons, hlast] using hq
          by_cases hid : id = p.id
          · obtain ⟨row₁, hrow₁, hstocked⟩ := hrest.stocked id q' hlast
            obtain rfl : row₁ = row' := Option.some.inj (hrow₁.symm.trans hrow')
            rw [hinventory, if_pos hid] at hstocked
            rw [hid]
            exact (hrow.again hstocked).2
          · have htwice' : 1 < timesListed rest id := by
              simpa [timesListed, List.countP_cons, Ne.symm hid] using htwice
            have hrest' := hrest.updated id q' row' hlast htwice' hrow'
            rwa [hinventory, if_neg hid] at hrest'
        | none =>
          have hzero := timesListed_eq_zero hlast
          rw [timesListed] at hzero htwice
          rw [List.countP_cons, hzero] at htwice
          split at htwice <;> omega
      · rw [hcons, Option.or_eq_none_iff] at hnone
        have hid : id ≠ p.id := fun he => by simp [he] at hnone
        rw [hrest.inventory id hnone.1, hinventory, if_neg hid]
      · rw [hrest.stats, hp.stats, hcons]
        by_cases hid : id = p.id
        · subst hid
          cases lastListed rest p.id <;> simp
        · have hne : ¬p.id = id := fun he => hid he.symm
          simp [hid, hne]
      · cases hlast : lastListed rest id with
        | some q' =>
          obtain rfl : q' = q := by simpa [hcons, hlast] using hq
          exact hrest.linked id q' hlast
        | none =>
          rw [hcons, hlast] at hq
          by_cases hid : p.id = id
          · obtain rfl : p = q := by simpa [hid] using hq
            subst hid
            refine hp.linked.kept hrest.slugsKept hrest.slugs fun c hc => ?_
            exact hrest.compatibilities c (by rwa [hc])
          · simp [hid] at hq
      · rw [hcons, Option.or_eq_none_iff] at hnone
        have hid : c.productId ≠ p.id := fun he => by simp [he] at hnone
        rw [hrest.compatibilities c hnone.1, hp.compatibilities c hid]
      · rw [hrest.column, hp.column, show deviceEntries (p :: rest) =
          p.compatibilities.map deviceEntry ++ deviceEntries rest from rfl]
        exact (List.foldl_append ..).symm

/-! ### The whole sync -/

/-- The tables that a sync has no business with. -/
structure SameOrders (db db' : Database) : Prop where
  orders : db'.orders = db.orders
  orderItems : db'.orderItems = db.orderItems
  idempotencyKeys : db'.idempotencyKeys = db.idempotencyKeys
  outboxEvents : db'.outboxEvents = db.outboxEvents
  integrationAttempts : db'.integrationAttempts = db.integrationAttempts

theorem SameOrders.trans {a b c : Database} (h : SameOrders a b) (k : SameOrders b c) : SameOrders a c :=
  ⟨k.orders.trans h.orders, k.orderItems.trans h.orderItems, k.idempotencyKeys.trans h.idempotencyKeys,
    k.outboxEvents.trans h.outboxEvents, k.integrationAttempts.trans h.integrationAttempts⟩

theorem Synced.sameOrders {clock : Clock} {current : Option Inventory} {p : ErpCatalogProduct} {db db' : Database}
    (h : Synced clock current p db db') : SameOrders db db' := by
  constructor <;> rw [h.others]

theorem syncProducts_sameOrders (clock : Clock) (products : List ErpCatalogProduct) (db : Database) :
    SameOrders db (syncProducts clock products db).2 := by
  induction products generalizing db with
  | nil => exact ⟨rfl, rfl, rfl, rfl, rfl⟩
  | cons p rest ih =>
    unfold syncProducts
    cases hstep : syncProduct clock (db.inventory.find? p.id) p db with
    | error e => exact ⟨rfl, rfl, rfl, rfl, rfl⟩
    | ok db₁ => exact (syncProduct_ok hstep).sameOrders.trans (ih db₁)

def deactivated (now : Nat) (r : Product) : Product := {r with active := false, updatedAt := now}

/-- What the store shows of the ERP's list after a sync. -/
structure Mirrored (clock : Clock) (products : List ErpCatalogProduct) (db db' : Database) : Prop where
  product : ∀ id p, lastListed products id = some p → db'.products.find? id = some (productRow clock.now p)
  price : ∀ id p, lastListed products id = some p → db'.prices.find? id = some (priceRow p)
  inventory : ∀ id p, lastListed products id = some p →
    ∃ row, db'.inventory.find? id = some row ∧ Stocked (db.inventory.find? id) p row
  updated : ∀ id p row, lastListed products id = some p → 1 < timesListed products id →
    db'.inventory.find? id = some row → row.availableQty = availability (db.inventory.find? id) p.erpQty
  stats : ∀ id p, lastListed products id = some p →
    db'.stats.find? id = some ((db.stats.find? id).getD ⟨id, 0, 0, 0⟩)
  compatibilities : ∀ id p, lastListed products id = some p → LinkedTo db' id (slugsOf p)
  absent : ∀ id, lastListed products id = none →
    db'.products.find? id = (db.products.find? id).map (deactivated clock.now) ∧
      db'.prices.find? id = db.prices.find? id ∧ db'.inventory.find? id = db.inventory.find? id ∧
      db'.stats.find? id = db.stats.find? id ∧
      ∀ c, c.productId = id → (c ∈ db'.compatibilities.rows ↔ c ∈ db.compatibilities.rows)
  orders : SameOrders db db'

theorem find?_deactivateAbsent (now : Nat) (activeIds : List String) (db : Database) (id : String) :
    (deactivateAbsent now activeIds db).products.find? id =
      if id ∈ activeIds then db.products.find? id else (db.products.find? id).map (deactivated now) := by
  simp only [deactivateAbsent, Table.find?_modify]
  cases hfind : db.products.find? id with
  | none => simp
  | some r =>
    have hid : r.id = id := Table.key_of_find? hfind
    by_cases hmem : id ∈ activeIds <;> simp [deactivate, deactivated, hid, hmem]

theorem AllWritten.mirrored {clock : Clock} {products : List ErpCatalogProduct} {db db₁ db' : Database}
    (h : AllWritten clock products db db₁) (horders : SameOrders db db₁) {version : Option Int}
    (hdb' : db' = {deactivateAbsent clock.now (products.map ErpCatalogProduct.id) db₁ with catalogVersion := version}) :
    Mirrored clock products db db' := by
  subst hdb'
  refine ⟨fun id p hp => ?_, fun id p hp => ?_, h.stocked, h.updated, fun id p hp => ?_,
    fun id p hp => ⟨(h.linked id p hp).exist, (h.linked id p hp).linked⟩,
    fun id hnone => ⟨?_, ?_, h.inventory id hnone, ?_,
      fun c hc => h.compatibilities c (by rwa [hc])⟩,
    ⟨horders.orders, horders.orderItems, horders.idempotencyKeys, horders.outboxEvents, horders.integrationAttempts⟩⟩
  · obtain ⟨hmem, rfl⟩ := lastListed_eq_some hp
    dsimp only
    rw [find?_deactivateAbsent, if_pos (List.mem_map_of_mem hmem), h.product, hp]
    rfl
  · exact (h.price id).trans (by rw [hp]; rfl)
  · exact (h.stats id).trans (by rw [hp]; rfl)
  · dsimp only
    rw [find?_deactivateAbsent, if_neg (lastListed_eq_none.mp hnone), h.product, hnone]
    rfl
  · exact (h.price id).trans (by rw [hnone]; rfl)
  · exact (h.stats id).trans (by rw [hnone]; rfl)

/-- A sync that returns mirrors the list, and knows the devices of the list besides its own. -/
theorem syncCatalog_mirrored {clock : Clock} {products : List ErpCatalogProduct} {db db' : Database}
    (hdb : UniqueSlugs db)
    (h : syncCatalog clock products db = (.ok (), db')) :
    Mirrored clock products db db' ∧ SlugsKept db db' ∧ UniqueSlugs db' ∧
      deviceColumn db' = upserts (deviceColumn db) (deviceEntries products) := by
  obtain ⟨db₁, hproducts, rfl⟩ := syncCatalog_parts h
  have hwritten := syncProducts_written hproducts hdb
  have horders := syncProducts_sameOrders clock products db
  rw [hproducts] at horders
  exact ⟨hwritten.mirrored horders rfl, hwritten.slugsKept, hwritten.slugs, hwritten.column⟩

/-! ### The same sync again -/

/-- Device models with the same ids, slugs, brands and models are the same. -/
theorem deviceModels_same {db db' : Database} (hkept : SlugsKept db db') (hdb : UniqueSlugs db)
    (hdb' : UniqueSlugs db')
    (hcolumn : deviceColumn db' = deviceColumn db) (d : DeviceModel) :
    d ∈ db'.deviceModels.rows ↔ d ∈ db.deviceModels.rows := by
  have hforth : ∀ d ∈ db.deviceModels.rows, d ∈ db'.deviceModels.rows := by
    intro d hd
    obtain ⟨d', hd', hid, hslug⟩ := hkept d hd
    have hdevice : deviceColumn db d.slug = some (d.brand, d.model) :=
      (deviceColumn_eq_some hdb).mpr ⟨d, hd, rfl, rfl⟩
    rw [← hcolumn, ← hslug, (deviceColumn_eq_some hdb').mpr ⟨d', hd', rfl, rfl⟩] at hdevice
    have hsame : d' = d := by
      cases d
      cases d'
      simp_all
    exact hsame ▸ hd'
  refine ⟨fun hd => ?_, hforth d⟩
  have hdevice : deviceColumn db' d.slug = some (d.brand, d.model) :=
    (deviceColumn_eq_some hdb').mpr ⟨d, hd, rfl, rfl⟩
  rw [hcolumn] at hdevice
  obtain ⟨d', hd', hslug, _⟩ := (deviceColumn_eq_some hdb).mp hdevice
  exact hdb' d hd d' (hforth d' hd') hslug.symm ▸ hd'

/-- A row without its timestamp. -/
def unstamped (r : Product) : Product := {r with updatedAt := 0}

/-- The sync creates the product's inventory row, from a negative quantity, and does not
update it. -/
def CreatedNegative (products : List ErpCatalogProduct) (db : Database) (id : String) : Prop :=
  db.inventory.find? id = none ∧ timesListed products id = 1 ∧
    ∃ p, lastListed products id = some p ∧ p.erpQty < 0

/-- What the same sync leaves the second time: other timestamps and versions, and another
availability at most where the first created a row from a negative quantity. -/
structure Resynced (products : List ErpCatalogProduct) (before db db' : Database) : Prop where
  product : ∀ id, (db'.products.find? id).map unstamped = (db.products.find? id).map unstamped
  price : ∀ id, db'.prices.find? id = db.prices.find? id
  quantities : ∀ id, (db'.inventory.find? id).map (fun row => (row.erpQty, row.reservedQty)) =
    (db.inventory.find? id).map fun row => (row.erpQty, row.reservedQty)
  available : ∀ id, ¬CreatedNegative products before id →
    (db'.inventory.find? id).map Inventory.availableQty = (db.inventory.find? id).map Inventory.availableQty
  stats : ∀ id, db'.stats.find? id = db.stats.find? id
  deviceModels : ∀ d, d ∈ db'.deviceModels.rows ↔ d ∈ db.deviceModels.rows
  compatibilities : ∀ c, c ∈ db'.compatibilities.rows ↔ c ∈ db.compatibilities.rows
  orders : SameOrders db db'

/-- Only a new row can have another availability than is computed. -/
theorem Mirrored.available {clock : Clock} {products : List ErpCatalogProduct} {db db' : Database}
    (h : Mirrored clock products db db') {id : String} {p : ErpCatalogProduct} {row : Inventory}
    (hp : lastListed products id = some p) (hrow : db'.inventory.find? id = some row)
    (hcreated : ¬CreatedNegative products db id) : row.availableQty = availability (db.inventory.find? id) p.erpQty := by
  obtain ⟨row', hrow', hstocked⟩ := h.inventory id p hp
  obtain rfl : row' = row := Option.some.inj (hrow'.symm.trans hrow)
  rcases hstocked.availableQty with havailable | ⟨hnone, havailable⟩
  · exact havailable
  · by_cases htwice : 1 < timesListed products id
    · exact h.updated id p row' hp htwice hrow
    · have honce : timesListed products id = 1 := by
        have hpos : 0 < timesListed products id :=
          List.countP_pos_iff.mpr ⟨p, (lastListed_eq_some hp).1, decide_eq_true (lastListed_eq_some hp).2⟩
        omega
      have hqty : 0 ≤ p.erpQty := by
        by_contra hneg
        exact hcreated ⟨hnone, honce, p, hp, by omega⟩
      rw [havailable, hnone]
      simp [availability, hqty]

theorem Mirrored.resynced {clock clock' : Clock} {products : List ErpCatalogProduct} {db db' db'' : Database}
    (h : Mirrored clock products db db') (h' : Mirrored clock' products db' db'')
    (hmodels : ∀ d, d ∈ db''.deviceModels.rows ↔ d ∈ db'.deviceModels.rows) : Resynced products db db' db'' := by
  have hstock : ∀ id p, lastListed products id = some p → ∃ row row', db'.inventory.find? id = some row ∧
      db''.inventory.find? id = some row' ∧ Stocked (db.inventory.find? id) p row ∧ Stocked (some row) p row' := by
    intro id p hp
    obtain ⟨row, hrow, hstocked⟩ := h.inventory id p hp
    obtain ⟨row', hrow', hstocked'⟩ := h'.inventory id p hp
    exact ⟨row, row', hrow, hrow', hstocked, hrow ▸ hstocked'⟩
  refine ⟨fun id => ?_, fun id => ?_, fun id => ?_, fun id hcreated => ?_, fun id => ?_, hmodels,
    fun c => ?_, h'.orders⟩
  · cases hlast : lastListed products id with
    | some p =>
      rw [h.product id p hlast, h'.product id p hlast]
      rfl
    | none =>
      rw [(h'.absent id hlast).1, (h.absent id hlast).1]
      cases db.products.find? id <;> rfl
  · cases hlast : lastListed products id with
    | some p => rw [h.price id p hlast, h'.price id p hlast]
    | none => exact (h'.absent id hlast).2.1
  · cases hlast : lastListed products id with
    | some p =>
      obtain ⟨row, row', hrow, hrow', hstocked, hstocked'⟩ := hstock id p hlast
      have hagain := (hstocked.again hstocked').1
      simp [hrow, hrow', hagain.erpQty, hagain.reservedQty, hstocked.erpQty, hstocked.reservedQty]
    | none => rw [(h'.absent id hlast).2.2.1]
  · cases hlast : lastListed products id with
    | some p =>
      obtain ⟨row, row', hrow, hrow', hstocked, hstocked'⟩ := hstock id p hlast
      simp [hrow, hrow', (hstocked.again hstocked').2, h.available hlast hrow hcreated]
    | none => rw [(h'.absent id hlast).2.2.1]
  · cases hlast : lastListed products id with
    | some p =>
      rw [h'.stats id p hlast, h.stats id p hlast]
      rfl
    | none => exact (h'.absent id hlast).2.2.2.1
  · cases hlast : lastListed products c.productId with
    | some p =>
      have hlinked := (h.compatibilities _ p hlast).linked c.deviceModelId
      have hlinked' := (h'.compatibilities _ p hlast).linked c.deviceModelId
      simp only [hmodels] at hlinked'
      exact hlinked'.trans hlinked.symm
    | none => exact (h'.absent _ hlast).2.2.2.2 c rfl

/-- A sync that returns mirrors the ERP's list and touches nothing else, and once more it
changes no more than versions, timestamps and the availability of what it has created from
a negative quantity. -/
theorem sync_mirrors (clock : Clock) (products : List ErpCatalogProduct) (db db' : Database) (hdb : UniqueSlugs db)
    (h : syncCatalog clock products db = (.ok (), db')) :
    Mirrored clock products db db' ∧
      ∀ clock' db'', syncCatalog clock' products db' = (.ok (), db'') → Resynced products db db' db'' := by
  obtain ⟨hfirst, _, hdb', hcolumn⟩ := syncCatalog_mirrored hdb h
  refine ⟨hfirst, fun clock' db'' h' => ?_⟩
  obtain ⟨hsecond, hkept, hdb'', hcolumn'⟩ := syncCatalog_mirrored hdb' h'
  rw [hcolumn, upserts_upserts, ← hcolumn] at hcolumn'
  exact hfirst.resynced hsecond (deviceModels_same hkept hdb' hdb'' hcolumn')

/-! ### Lists of cases -/

/-- A case for devices, each with its slug and model. -/
def caseFor (id : String) (priceCents erpQty : Int) (devices : List (String × String)) : ErpCatalogProduct :=
  ⟨id, id, "Case", "", "", "", true, priceCents, erpQty, devices.map fun d => ⟨"brand", d.2, d.1⟩⟩

def synced (products : List ErpCatalogProduct) (db : Database) : Database := (syncCatalog slugClock products db).2

theorem syncCatalog_synced {products : List ErpCatalogProduct} {db : Database}
    (h : (syncCatalog slugClock products db).1 = .ok ()) :
    syncCatalog slugClock products db = (.ok (), synced products db) :=
  Prod.ext h rfl

theorem empty_slugs : UniqueSlugs .empty := fun d hd => by cases hd

/-- A case repeated at another price, between them a device that changes hands: the second
sync stops before it has the last price. -/
def renamedDevice : List ErpCatalogProduct :=
  [caseFor "q" 100 1 [], caseFor "p1" 500 1 [("s1", "X")], caseFor "p1" 500 1 [("s1", "Y")],
    caseFor "p2" 500 1 [("s2", "X")], caseFor "q" 200 1 []]

/-- The timestamp of an absent product changes, a negative quantity is only cut off by the
second sync, and a list that contradicts itself may stop the second sync on its way. -/
theorem sync_does_not_mirror :
    (¬∀ (clock : Clock) (products : List ErpCatalogProduct) (db db' : Database), UniqueSlugs db →
      syncCatalog clock products db = (.ok (), db') → ∀ id, lastListed products id = none →
        db'.products.find? id = (db.products.find? id).map fun r => {r with active := false}) ∧
    (¬∀ (clock : Clock) (products : List ErpCatalogProduct) (db db' : Database), UniqueSlugs db →
      syncCatalog clock products db = (.ok (), db') → ∀ id,
        ((syncCatalog clock products db').2.inventory.find? id).map Inventory.availableQty =
          (db'.inventory.find? id).map Inventory.availableQty) ∧
    ¬∀ (clock : Clock) (products : List ErpCatalogProduct) (db db' : Database), UniqueSlugs db →
      (∀ p ∈ products, 0 ≤ p.erpQty) → syncCatalog clock products db = (.ok (), db') → ∀ id,
        (syncCatalog clock products db').2.prices.find? id = db'.prices.find? id := by
  refine ⟨fun h => ?_, fun h => ?_, fun h => ?_⟩
  · let db : Database := {Database.empty with products := Table.empty.set (productRow 0 (caseFor "p1" 500 1 []))}
    have hstamp := h ⟨1, id⟩ [] db (syncCatalog ⟨1, id⟩ [] db).2 empty_slugs (Prod.ext (by decide) rfl) "p1" rfl
    exact absurd hstamp (by decide)
  · have hcut := h slugClock [caseFor "p1" 500 (-1) []] .empty _ empty_slugs (syncCatalog_synced (by decide +kernel)) "p1"
    exact absurd hcut (by decide +kernel)
  · have hstops := h slugClock renamedDevice .empty _ empty_slugs (by decide +kernel)
      (syncCatalog_synced (by decide +kernel)) "q"
    exact absurd hstops (by decide +kernel)

/-- A case listed twice and one that shares its device. -/
def sharedDevice : List ErpCatalogProduct :=
  [caseFor "p1" 500 1 [("s1", "X")], caseFor "p2" 700 4 [("s1", "X"), ("s2", "Y")], caseFor "p1" 600 2 [("s2", "Y")]]

theorem sync_mirrors_shared :
    Mirrored slugClock sharedDevice .empty (synced sharedDevice .empty) ∧
      Resynced sharedDevice .empty (synced sharedDevice .empty)
        (synced sharedDevice (synced sharedDevice .empty)) := by
  obtain ⟨hmirrored, hresynced⟩ := sync_mirrors slugClock sharedDevice .empty (synced sharedDevice .empty) empty_slugs
    (syncCatalog_synced (by decide +kernel))
  exact ⟨hmirrored, hresynced slugClock _ (syncCatalog_synced (by decide +kernel))⟩

end CaseCellShop.Catalog
