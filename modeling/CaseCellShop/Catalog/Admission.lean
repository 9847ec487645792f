import CaseCellShop.Catalog.Mirror

/-! Which products a sync can write.

The store refuses a product for its sku, its numbers or its devices. What the sync has
written before does not matter but for skus and devices, so that a list of products is
admitted or not by the store before the sync (`syncProducts_iff`). -/
namespace CaseCellShop.Catalog
open UniqueColumn

/-- No constraint of the store refuses one of the products. -/
structure Admitted (db : Database) (products : List ErpCatalogProduct) : Prop where
  skus : Accepts (skuColumn db) (products.map skuEntry)
  devices : Accepts (deviceColumn db) (deviceEntries products)
  fits : ∀ before p after, products = before ++ p :: after → Fits db before p
  slugs : ∀ p ∈ products, (slugsOf p).Nodup

/-- A device listed twice would be linked twice. -/
theorem syncProduct_slugs_nodup {clock : Clock} {current : Option Inventory} {p : ErpCatalogProduct}
    {db db' : Database} (h : syncProduct clock current p db = .ok db') (hdb : UniqueSlugs db) :
    (slugsOf p).Nodup := by
  have hslugs := syncProduct_slugs h hdb
  obtain ⟨db₁, _, _, _, hdevices⟩ := syncProduct_ends h
  obtain ⟨db₂, _, hrest⟩ := bind_ok.mp hdevices
  obtain ⟨deviceModels, hfind, hcreate⟩ := bind_ok.mp hrest
  obtain ⟨hrows, hsame⟩ := createCompatibilities_rows hcreate
  obtain ⟨hfound, hmodels⟩ := findDeviceModels_eq_ok hfind
  have hlinks : (deviceModels.map fun d => (⟨p.id, d.id⟩ : ProductCompatibility)).Nodup := by
    have hnodup := db'.compatibilities.rows_nodup
    rw [hrows] at hnodup
    exact hnodup.of_append_right
  rw [slugsOf, ← hfound]
  refine List.Nodup.map_on (fun d hd d' hd' => ?_) hlinks.of_map
  exact hslugs d (hsame ▸ hmodels d hd) d' (hsame ▸ hmodels d' hd')

theorem Written.availability {clock : Clock} {p : ErpCatalogProduct} {db db' : Database} (h : Written clock p db db')
    (id : String) (erpQty : Int) :
    availability (db'.inventory.find? id) erpQty = availability (db.inventory.find? id) erpQty := by
  obtain ⟨row, hrow, hinventory⟩ := h.inventory
  rw [hinventory]
  by_cases hid : id = p.id
  · rw [if_pos hid, hid]
    exact congrArg (fun reserved => max (erpQty - reserved) 0) hrow.reservedQty
  · rw [if_neg hid]

theorem Synced.nextVersion {clock : Clock} {p : ErpCatalogProduct} {db db' : Database}
    (h : Synced clock (db.inventory.find? p.id) p db db') (id : String) :
    nextVersion (db'.inventory.find? id) = nextVersion (db.inventory.find? id) + if p.id = id then 1 else 0 := by
  rw [h.inventory, Table.find?_set, syncedInventory_productId]
  by_cases hid : id = p.id
  · rw [if_pos hid, if_pos hid.symm, hid]
    exact nextVersion_syncedInventory ..
  · rw [if_neg hid, if_neg (Ne.symm hid), Int.add_zero]

/-- The numbers of the products after the first. -/
theorem fits_cons {clock : Clock} {p : ErpCatalogProduct} {db db' : Database}
    (hok : syncProduct clock (db.inventory.find? p.id) p db = .ok db') (hdb : UniqueSlugs db)
    (earlier : List ErpCatalogProduct) (q : ErpCatalogProduct) : Fits db' earlier q ↔ Fits db (p :: earlier) q := by
  have havailable := (syncProduct_written hok hdb).availability q.id q.erpQty
  have hversion : nextVersion (db'.inventory.find? q.id) + timesListed earlier q.id =
      nextVersion (db.inventory.find? q.id) + timesListed (p :: earlier) q.id := by
    rw [(syncProduct_ok hok).nextVersion, timesListed, timesListed, List.countP_cons]
    by_cases hid : p.id = q.id
    · simp [hid]
      omega
    · simp [hid]
  constructor <;> intro hq <;> refine ⟨hq.price, hq.quantity, ?_, ?_⟩
  · exact havailable ▸ hq.available
  · exact hversion ▸ hq.version
  · exact havailable.symm ▸ hq.available
  · exact hversion.symm ▸ hq.version

theorem fits_all {db db' : Database} {p : ErpCatalogProduct} (rest : List ErpCatalogProduct)
    (h : ∀ earlier q, Fits db' earlier q ↔ Fits db (p :: earlier) q) :
    (∀ before q after, p :: rest = before ++ q :: after → Fits db before q) ↔
      Fits db [] p ∧ ∀ before q after, rest = before ++ q :: after → Fits db' before q := by
  constructor
  · intro hall
    refine ⟨hall [] p rest rfl, fun before q after hsplit => (h before q).mpr ?_⟩
    exact hall (p :: before) q after (congrArg (p :: ·) hsplit)
  · rintro ⟨hp, hall⟩ before q after hsplit
    cases before with
    | nil =>
      cases hsplit
      exact hp
    | cons p' before =>
      obtain ⟨rfl, hrest⟩ := List.cons.inj hsplit
      exact (h before q).mp (hall before q after hrest)

theorem syncProducts_iff {clock : Clock} (products : List ErpCatalogProduct) {db : Database} (h : Devices clock db) :
    (syncProducts clock products db).1 = .ok () ↔ Admitted db products := by
  induction products generalizing db with
  | nil => exact ⟨fun _ => ⟨trivial, trivial, by simp, List.forall_mem_nil _⟩, fun _ => rfl⟩
  | cons p rest ih =>
    unfold syncProducts
    by_cases hslugs : (slugsOf p).Nodup
    · rcases syncProduct_decided h hslugs with ⟨⟨hfree, hfits, haccepts⟩, db', hok, hcolumns⟩ | ⟨hnot, e, he⟩
      · have hfitsAll := fits_all rest (fits_cons hok h.slugs)
        rw [hok]
        dsimp only
        rw [ih hcolumns.devices]
        constructor
        · intro hrest
          refine ⟨⟨hfree, hcolumns.sku ▸ hrest.skus⟩, ?_, hfitsAll.mpr ⟨hfits, hrest.fits⟩,
            List.forall_mem_cons.mpr ⟨hslugs, hrest.slugs⟩⟩
          exact (accepts_append _ _ _).mpr ⟨haccepts, hcolumns.device ▸ hrest.devices⟩
        · intro hall
          refine ⟨hcolumns.sku.symm ▸ hall.skus.2, ?_, (hfitsAll.mp hall.fits).2,
            fun q hq => hall.slugs q (.tail p hq)⟩
          rw [hcolumns.device]
          exact ((accepts_append _ _ _).mp hall.devices).2
      · rw [he]
        refine ⟨fun hok => (by cases hok), fun hall => absurd ?_ hnot⟩
        exact ⟨hall.skus.1, hall.fits [] p rest rfl, ((accepts_append _ _ _).mp hall.devices).1⟩
    · refine ⟨fun hok => ?_, fun hall => absurd (hall.slugs p (.head rest)) hslugs⟩
      cases hstep : syncProduct clock (db.inventory.find? p.id) p db with
      | error e =>
        rw [hstep] at hok
        cases hok
      | ok db' => exact absurd (syncProduct_slugs_nodup hstep h.slugs) hslugs

theorem syncProduct_iff {clock : Clock} (p : ErpCatalogProduct) {db : Database} (h : Devices clock db) :
    (∃ db', syncProduct clock (db.inventory.find? p.id) p db = .ok db') ↔ Admitted db [p] := by
  rw [← syncProducts_iff [p] h]
  cases hstep : syncProduct clock (db.inventory.find? p.id) p db with
  | ok db' => simp [syncProducts, hstep]
  | error e => simp [syncProducts, hstep]

end CaseCellShop.Catalog
