import CaseCellShop.Catalog.Mirror
import CaseCellShop.Products.Pages
import CaseCellShop.Products.Service
import CaseCellShop.Shop.System

/-! The device filter of a product list, on a catalog that was synced.

A sync stores the slug of a device as the ERP writes it, and a query looks for the text it
was asked for, trimmed and in lower case. So a device is found under its slug only if a
product lists it in that form (`deviceFilter_iff`). -/
namespace CaseCellShop.Storefront
open Catalog Number Products Program

/-- What `toLowerCase` promises: text in lower case stays as it is, no white space comes or goes
at the ends, and nothing disappears. -/
structure Lowers (toLowerCase : String → String) : Prop where
  again : ∀ text, toLowerCase (toLowerCase text) = toLowerCase text
  trimmed : ∀ text, Text.trim text = text → Text.trim (toLowerCase text) = toLowerCase text
  nonempty : ∀ text, toLowerCase text = "" → text = ""

section Text
variable {P : Products.Platform}

/-- A device's slug equals the text up to letter case and the white space around it. -/
def SameSlug (P : Products.Platform) (slug device : String) : Prop :=
  normalizeText P (some slug) = normalizeText P (some device)

instance (P : Products.Platform) (slug device : String) : Decidable (SameSlug P slug device) :=
  inferInstanceAs (Decidable (_ = _))

theorem normalizeText_again (hlower : Lowers P.toLowerCase) (text : String) :
    normalizeText P (some (normalizeText P (some text))) = normalizeText P (some text) := by
  show P.toLowerCase (Text.trim (P.toLowerCase (Text.trim text))) = P.toLowerCase (Text.trim text)
  rw [hlower.trimmed _ (Text.trim_trim text), hlower.again]

theorem normalizeText_ne_empty (hlower : Lowers P.toLowerCase) {text : String} (h : Text.trim text ≠ "") :
    normalizeText P (some text) ≠ "" :=
  fun hempty => h (hlower.nonempty _ hempty)

end Text

/-! ### A page, read with an empty cache -/

/-- The page of the products for a device, asked of a store with nothing cached. -/
def devicePage (P : Products.Platform) (shop : Shop.World) (device : String) (page : Nat) :
    Except String (List ProductListItem) :=
  (run (execute P) (listProducts P ⟨none, some device, none, some (.finite page), none⟩) (.opening shop)).1.map
    ProductList.items

/-- A list that is not cached is fetched from the store. -/
theorem run_listProducts (P : Products.Platform) (shop : Shop.World) (query : ProductQuery) :
    (run (execute P) (listProducts P query) (.opening shop)).1.map ProductList.items =
      fetchProducts P shop.db (normalizeQuery P query) none := by
  let catalogVersion := readerVersion shop.db.catalogVersion
  let lockKey := queryLockKey (buildProductsQueryCacheKey P catalogVersion (normalizeQuery P query))
  let locked := (execute P (.opening shop) (.acquireLock lockKey 5)).1
  have hpopulate : run (execute P) (listProducts P query) (.opening shop) =
      run (execute P) (ensure (do
        let items : List ProductListItem ← done (fetchProducts P shop.db (normalizeQuery P query) none)
        callAll (.setIds (buildProductsQueryCacheKey P catalogVersion (normalizeQuery P query))
          (items.map ProductListItem.id) 90 :: items.map (cacheProductCard catalogVersion))
        return ⟨items, normalizeQuery P query, catalogVersion, .missPopulated, [], false⟩)
        (releaseLock lockKey)) locked :=
    rfl
  rw [hpopulate]
  cases fetchProducts P shop.db (normalizeQuery P query) none <;> rfl

/-- The query of the pages, with the first of them. -/
def deviceQuery (P : Products.Platform) (device : String) : NormalizedQuery :=
  ⟨"", normalizeText P (some device), "relevance", .finite 1, .finite 24⟩

/-- A card is on one of the pages. -/
def OnPage (P : Products.Platform) (shop : Shop.World) (device : String) (card : ProductListItem) : Prop :=
  ∃ (page : Nat) (items : List ProductListItem), 1 ≤ page ∧ IsNumber page ∧
    devicePage P shop device page = .ok items ∧ card ∈ items

section Pages
variable {P : Products.Platform} {shop : Shop.World} {device : String}

theorem devicePage_eq {page : Nat} (h : 1 ≤ page) :
    devicePage P shop device page = fetchProducts P shop.db ((deviceQuery P device).at page) none := by
  have hpos : (JsNumber.finite page).positive = true := by
    simpa [JsNumber.positive] using Nat.pos_of_ne_zero (Nat.ne_zero_of_lt h)
  have hquery : normalizeQuery P ⟨none, some device, none, some (.finite page), none⟩ =
      (deviceQuery P device).at page := by
    simp [normalizeQuery, hpos, deviceQuery, NormalizedQuery.at, normalizeText]
  rw [devicePage, run_listProducts, hquery]

/-- The pages show the cards of the products the store selects, if these are not too many. -/
theorem onPage_iff
    (hfits : CatalogFits (shop.db.products.rows.filter (selected P shop.db (deviceQuery P device) none)).length 24)
    {card : ProductListItem} : OnPage P shop device card ↔ ∃ product ∈ shop.db.products.rows,
      selected P shop.db (deviceQuery P device) none product ∧ card = toListItem shop.db product := by
  have hperm : (listed P shop.db (deviceQuery P device)).Perm
      (shop.db.products.rows.filter (selected P shop.db (deviceQuery P device) none)) :=
    List.perm_insertionSort _ _
  constructor
  · rintro ⟨page, items, hpage, _, hitems, hcard⟩
    rw [devicePage_eq hpage] at hitems
    exact fetchProducts_mem hitems card hcard
  · rintro ⟨product, hmem, hselected, rfl⟩
    have hlisted : toListItem shop.db product ∈ (listed P shop.db (deviceQuery P device)).map (toListItem shop.db) :=
      List.mem_map_of_mem (hperm.mem_iff.mpr (List.mem_filter.mpr ⟨hmem, hselected⟩))
    obtain ⟨k, hk, hwindow⟩ := Pages.exists_mem_window (show 0 < 24 by decide) hlisted
    rw [Pages.lt_count_iff (by decide), List.length_map, hperm.length_eq] at hk
    obtain ⟨hpage, hoffset⟩ := hfits k hk
    refine ⟨k + 1, _, k.succ_pos, hpage, ?_, hwindow⟩
    rw [devicePage_eq k.succ_pos]
    exact fetchProducts_window rfl (by decide) (by decide) hpage hoffset

end Pages

/-! ### What the sync stored -/

section Mirrored
variable {P : Products.Platform} {clock : Clock} {products : List ErpCatalogProduct} {db db' : Database}
    {device : String}

theorem compatibleWith_iff {slugs : List String} {product : Product} (h : LinkedTo db product.id slugs)
    {slug : String} :
    compatibleWith db slug product = true ↔ slug ∈ slugs := by
  simp only [compatibleWith, List.any_eq_true, Bool.and_eq_true, decide_eq_true_eq]
  constructor
  · rintro ⟨⟨productId, deviceModelId⟩, hc, rfl, d, hd, rfl, rfl⟩
    obtain ⟨d', hd', hid, hslug⟩ := (h.linked _).mp hc
    rwa [db.deviceModels.eq_of_key hd hd' hid.symm]
  · intro hslug
    obtain ⟨d, hd, rfl⟩ := h.exist slug hslug
    exact ⟨⟨product.id, d.id⟩, (h.linked d.id).mpr ⟨d, hd, rfl, hslug⟩, rfl, d, hd, rfl, rfl⟩

/-- The store selects the active products that list the text that is looked for. -/
theorem selected_iff (h : Mirrored clock products db db') (hdevice : normalizeText P (some device) ≠ "")
    {product : Product} :
    product ∈ db'.products.rows ∧ selected P db' (deviceQuery P device) none product = true ↔
      ∃ p, lastListed products p.id = some p ∧ p.active = true ∧ normalizeText P (some device) ∈ slugsOf p ∧
        product = productRow clock.now p := by
  have hselected : selected P db' (deviceQuery P device) none product = true ↔
      product.active = true ∧ compatibleWith db' (normalizeText P (some device)) product = true := by
    simp [selected, deviceQuery, hdevice]
  rw [hselected]
  constructor
  · rintro ⟨hmem, hactive, hcompatible⟩
    have hfind := Table.find?_key hmem
    cases hlast : lastListed products product.id with
    | none =>
      rw [(h.absent _ hlast).1] at hfind
      obtain ⟨r, _, rfl⟩ := Option.map_eq_some_iff.mp hfind
      cases hactive
    | some p =>
      obtain ⟨_, hid⟩ := lastListed_eq_some hlast
      rw [h.product _ p hlast] at hfind
      cases hfind
      exact ⟨p, hlast, hactive, (compatibleWith_iff (h.compatibilities _ p hlast)).mp hcompatible, rfl⟩
  · rintro ⟨p, hlast, hactive, hslug, rfl⟩
    exact ⟨Table.mem_of_find? (h.product _ p hlast), hactive,
      (@compatibleWith_iff db' _ (productRow clock.now p) (h.compatibilities _ p hlast) _).mpr hslug⟩

/-- No more products are selected than the ERP lists. -/
theorem selected_length_le (h : Mirrored clock products db db') (hdevice : normalizeText P (some device) ≠ "") :
    (db'.products.rows.filter (selected P db' (deviceQuery P device) none)).length ≤ products.length := by
  have hids : ((db'.products.rows.filter (selected P db' (deviceQuery P device) none)).map Product.id).Nodup :=
    (List.filter_sublist.map _).nodup db'.products.nodup
  have hsubset : ((db'.products.rows.filter (selected P db' (deviceQuery P device) none)).map Product.id) ⊆
      products.map ErpCatalogProduct.id := by
    intro id hid
    obtain ⟨product, hproduct, rfl⟩ := List.mem_map.mp hid
    obtain ⟨p, hlast, _, _, rfl⟩ := (selected_iff h hdevice).mp (List.mem_filter.mp hproduct)
    exact List.mem_map_of_mem (lastListed_eq_some hlast).1
  simpa using (List.subperm_of_subset hids hsubset).length_le

end Mirrored

/-! ### The filter -/

/-- The catalog declares the active product compatible with the device. -/
def Declares (P : Products.Platform) (products : List ErpCatalogProduct) (device : String)
    (p : ErpCatalogProduct) : Prop :=
  lastListed products p.id = some p ∧ p.active = true ∧ ∃ slug ∈ slugsOf p, SameSlug P slug device

/-- The pages for the device show the products that are declared compatible with it. -/
def Finds (P : Products.Platform) (products : List ErpCatalogProduct) (shop : Shop.World) (device : String) : Prop :=
  ∀ card, OnPage P shop device card ↔
    ∃ p, Declares P products device p ∧ ∃ row, shop.db.products.find? p.id = some row ∧ card = toListItem shop.db row

/-- Each of the products lists the device's slug in the form that is looked for. -/
def Spelled (P : Products.Platform) (products : List ErpCatalogProduct) (device : String) : Prop :=
  ∀ p, Declares P products device p → normalizeText P (some device) ∈ slugsOf p

section Synced
variable {P : Products.Platform} {clock : Clock} {products : List ErpCatalogProduct} {db : Database}
    {shop : Shop.World}
  {device : String}

/-- What the pages show after a sync. -/
theorem onPage_synced (hlower : Lowers P.toLowerCase) (hlength : products.length < 2 ^ 32)
    (h : Mirrored clock products db shop.db) (hdevice : Text.trim device ≠ "") {card : ProductListItem} :
    OnPage P shop device card ↔ ∃ p, lastListed products p.id = some p ∧ p.active = true ∧
      normalizeText P (some device) ∈ slugsOf p ∧ card = toListItem shop.db (productRow clock.now p) := by
  have hnormal := normalizeText_ne_empty hlower hdevice
  have hmatching := selected_length_le h hnormal
  rw [onPage_iff (catalogFits_of_le (by decide) (by omega))]
  constructor
  · rintro ⟨product, hmem, hselected, rfl⟩
    obtain ⟨p, hlast, hactive, hslug, rfl⟩ := (selected_iff h hnormal).mp ⟨hmem, hselected⟩
    exact ⟨p, hlast, hactive, hslug, rfl⟩
  · rintro ⟨p, hlast, hactive, hslug, rfl⟩
    obtain ⟨hmem, hselected⟩ := (selected_iff h hnormal).mpr ⟨p, hlast, hactive, hslug, rfl⟩
    exact ⟨_, hmem, hselected, rfl⟩

end Synced

/-- After a sync the device filter finds the products that are declared compatible with a device
exactly when each of them lists the device's slug trimmed and in lower case. -/
theorem deviceFilter_iff (P : Products.Platform) (hlower : Lowers P.toLowerCase) (clock : Clock)
    (products : List ErpCatalogProduct) (hlength : products.length < 2 ^ 32) (db : Database) (hdb : UniqueSlugs db)
    (shop : Shop.World) (hsync : syncCatalog clock products db = (.ok (), shop.db)) (device : String)
    (hdevice : Text.trim device ≠ "") : Finds P products shop device ↔ Spelled P products device := by
  have h := (syncCatalog_mirrored hdb hsync).1
  have hrow {p : ErpCatalogProduct} (hlast : lastListed products p.id = some p) :
      shop.db.products.find? p.id = some (productRow clock.now p) := h.product _ p hlast
  constructor
  · intro hfinds p hp
    have honPage := (hfinds (toListItem shop.db (productRow clock.now p))).mpr ⟨p, hp, _, hrow hp.1, rfl⟩
    obtain ⟨q, hlast, _, hslug, hcard⟩ := (onPage_synced hlower hlength h hdevice).mp honPage
    have hid : p.id = q.id := congrArg ProductListItem.id hcard
    rw [← hid, hp.1] at hlast
    cases hlast
    exact hslug
  · intro hspelled card
    rw [onPage_synced hlower hlength h hdevice]
    constructor
    · rintro ⟨p, hlast, hactive, hslug, rfl⟩
      exact ⟨p, ⟨hlast, hactive, _, hslug, normalizeText_again hlower device⟩, _, hrow hlast, rfl⟩
    · rintro ⟨p, hp, row, hfind, rfl⟩
      rw [hrow hp.1] at hfind
      cases hfind
      exact ⟨p, hp.1, hp.2.1, hspelled p hp, rfl⟩

/-! ### Slugs with capitals -/

theorem toNat_toLower (c : Char) :
    c.toLower.toNat = if 65 ≤ c.toNat ∧ c.toNat ≤ 90 then c.toNat + 32 else c.toNat := by
  have hupper : c.val ≥ 'A'.val ∧ c.val ≤ 'Z'.val ↔ 65 ≤ c.toNat ∧ c.toNat ≤ 90 := by
    simp [UInt32.le_iff_toNat_le]
  unfold Char.toLower
  by_cases h : c.val ≥ 'A'.val ∧ c.val ≤ 'Z'.val
  · rw [dif_pos h, if_pos (hupper.mp h)]
    have hlt := (hupper.mp h).2
    show (c.val + 32).toNat = c.toNat + 32
    rw [UInt32.toNat_add]
    exact Nat.mod_eq_of_lt (show c.toNat + 32 < 2 ^ 32 by omega)
  · rw [dif_neg h, if_neg (hupper.not.mp h)]

theorem toLower_toLower (c : Char) : c.toLower.toLower = c.toLower := by
  apply Char.toNat_inj.mp
  rw [toNat_toLower c.toLower, toNat_toLower c]
  split
  · rw [if_neg (by omega)]
  · rfl

theorem isSpace_letter {c : Char} (h : 65 ≤ c.toNat ∧ c.toNat ≤ 122) : Text.isSpace c = false := by
  simp [Text.isSpace]
  omega

theorem isSpace_toLower (c : Char) : Text.isSpace c.toLower = Text.isSpace c := by
  have hlower := toNat_toLower c
  by_cases hc : 65 ≤ c.toNat ∧ c.toNat ≤ 90
  · rw [if_pos hc] at hlower
    rw [isSpace_letter (c := c) (by omega), isSpace_letter (by omega)]
  · rw [if_neg hc] at hlower
    rw [Char.toNat_inj.mp hlower]

theorem toList_toLower (text : String) : text.toLower.toList = text.toList.map Char.toLower := String.toList_map

theorem trim_toLower (text : String) : Text.trim text.toLower = (Text.trim text).toLower := by
  have hspace : Text.isSpace ∘ Char.toLower = Text.isSpace := funext isSpace_toLower
  apply String.toList_injective
  simp [Text.trim, toList_toLower, List.dropWhile_map, ← List.map_reverse, hspace]

theorem numberLibraries_lowers : Lowers numberLibraries.toLowerCase := by
  refine ⟨fun text => ?_, fun text h => ?_, fun text h => String.map_eq_empty.mp h⟩
  · apply String.toList_injective
    show text.toLower.toLower.toList = text.toLower.toList
    rw [toList_toLower, toList_toLower, List.map_map]
    exact List.map_congr_left fun c _ => toLower_toLower c
  · show Text.trim text.toLower = text.toLower
    rw [trim_toLower, h]

/-- A store that was empty and has this catalog now. -/
def stocked (catalog : List ErpCatalogProduct) : Shop.World :=
  {Shop.World.fresh catalog with db := synced catalog .empty}

/-- A device that the ERP writes with a capital: nobody finds it under its own slug. -/
theorem deviceFilter_misses :
    ¬∀ (P : Products.Platform), Lowers P.toLowerCase → ∀ (clock : Clock) (products : List ErpCatalogProduct),
      products.length < 2 ^ 32 → ∀ (db : Database), UniqueSlugs db → ∀ (shop : Shop.World),
      syncCatalog clock products db = (.ok (), shop.db) → ∀ (device : String), Text.trim device ≠ "" →
        Finds P products shop device := by
  intro h
  let catalog := [caseFor "p1" 500 1 [("iPhone-15", "X")]]
  have hsync := @syncCatalog_synced catalog .empty (by decide +kernel)
  have hfinds := h numberLibraries numberLibraries_lowers slugClock catalog (by decide) .empty empty_slugs (stocked catalog)
    hsync "iPhone-15" (by decide +kernel)
  have hp : Declares numberLibraries catalog "iPhone-15" (caseFor "p1" 500 1 [("iPhone-15", "X")]) :=
    ⟨rfl, rfl, "iPhone-15", by decide, rfl⟩
  have hmirrored := (syncCatalog_mirrored empty_slugs hsync).1
  obtain ⟨q, hlast, _, hslug, _⟩ := (onPage_synced numberLibraries_lowers (by decide) hmirrored (by decide +kernel)).mp
    ((hfinds _).mpr ⟨_, hp, _, hmirrored.product _ _ hp.1, rfl⟩)
  obtain rfl := List.mem_singleton.mp (lastListed_eq_some hlast).1
  exact absurd hslug (by decide +kernel)

/-- Cases for devices whose slugs are in lower case, as the shop's own catalog has them. -/
def lowerCaseSlugs : List ErpCatalogProduct :=
  [caseFor "p1" 500 1 [("iphone-15", "X")], caseFor "p2" 700 4 [("galaxy-s24", "Y"), ("iphone-15", "X")],
    caseFor "p3" 600 2 [("galaxy-s24", "Y")]]

theorem deviceFilter_finds : Finds numberLibraries lowerCaseSlugs (stocked lowerCaseSlugs) " iPhone-15" := by
  refine (deviceFilter_iff numberLibraries numberLibraries_lowers slugClock lowerCaseSlugs (by decide) .empty empty_slugs
    (stocked lowerCaseSlugs) (syncCatalog_synced (by decide +kernel)) " iPhone-15" (by decide +kernel)).mpr ?_
  rintro p ⟨hlast, _, hslug⟩
  have hlisted : ∀ p ∈ lowerCaseSlugs, (∃ slug ∈ slugsOf p, SameSlug numberLibraries slug " iPhone-15") →
      normalizeText numberLibraries (some " iPhone-15") ∈ slugsOf p := by
    simp only [SameSlug, normalizeText_numberLibraries]
    decide +kernel
  exact hlisted p (lastListed_eq_some hlast).1 hslug

end CaseCellShop.Storefront
