import CaseCellShop.Catalog.Sync
import CaseCellShop.Library.UniqueColumn

/-! When a catalog sync goes through.

Products are upserted by id and device models by slug, while the sku and the pair of
brand and model are unique as well. Rows that left the catalog are kept, so a value may
still stand under an id or a slug that no later upsert frees in time
(`syncCatalog_iff`). -/
namespace CaseCellShop.Catalog
open UniqueColumn

/-- A catalog that does not contradict itself. -/
structure ConsistentCatalog (products : List ErpCatalogProduct) : Prop where
  ids : (products.map ErpCatalogProduct.id).Nodup
  skus : (products.map ErpCatalogProduct.sku).Nodup
  slugs : ∀ p ∈ products, (p.compatibilities.map ErpCatalogCompatibility.slug).Nodup
  devices : ∀ p ∈ products, ∀ c ∈ p.compatibilities, ∀ p' ∈ products, ∀ c' ∈ p'.compatibilities,
    (c.slug = c'.slug ↔ (c.brand, c.model) = (c'.brand, c'.model))

/-! ### The unique columns -/

def skuColumn (db : Database) (id : String) : Option String := (db.products.find? id).map Product.sku

def findSlug (db : Database) (slug : String) : Option DeviceModel :=
  db.deviceModels.rows.find? fun d => d.slug = slug

def deviceColumn (db : Database) (slug : String) : Option (String × String) :=
  (findSlug db slug).map fun d => (d.brand, d.model)

def skuEntry (p : ErpCatalogProduct) : String × String := (p.id, p.sku)

def deviceEntry (c : ErpCatalogCompatibility) : String × String × String := (c.slug, c.brand, c.model)

/-- The device models in the order a sync upserts them. -/
def deviceEntries (products : List ErpCatalogProduct) : List (String × String × String) :=
  products.flatMap fun p => p.compatibilities.map deviceEntry

theorem ConsistentCatalog.skuEntries {products : List ErpCatalogProduct} (h : ConsistentCatalog products) :
    OneToOne (products.map skuEntry) := by
  constructor
  · intro e he e' he' hid
    obtain ⟨p, hp, rfl⟩ := List.mem_map.mp he
    obtain ⟨p', hp', rfl⟩ := List.mem_map.mp he'
    rw [List.inj_on_of_nodup_map h.ids hp hp' hid]
  · intro e he e' he' hsku
    obtain ⟨p, hp, rfl⟩ := List.mem_map.mp he
    obtain ⟨p', hp', rfl⟩ := List.mem_map.mp he'
    rw [List.inj_on_of_nodup_map h.skus hp hp' hsku]

theorem mem_deviceEntries {products : List ErpCatalogProduct} {e : String × String × String} :
    e ∈ deviceEntries products ↔ ∃ p ∈ products, ∃ c ∈ p.compatibilities, e = deviceEntry c := by
  simp only [deviceEntries, List.mem_flatMap, List.mem_map, eq_comm]

theorem ConsistentCatalog.deviceEntries {products : List ErpCatalogProduct} (h : ConsistentCatalog products) :
    OneToOne (deviceEntries products) := by
  constructor
  · intro e he e' he' hslug
    obtain ⟨p, hp, c, hc, rfl⟩ := mem_deviceEntries.mp he
    obtain ⟨p', hp', c', hc', rfl⟩ := mem_deviceEntries.mp he'
    exact (h.devices p hp c hc p' hp' c' hc').mp hslug
  · intro e he e' he' hdevice
    obtain ⟨p, hp, c, hc, rfl⟩ := mem_deviceEntries.mp he
    obtain ⟨p', hp', c', hc', rfl⟩ := mem_deviceEntries.mp he'
    exact (h.devices p hp c hc p' hp' c' hc').mpr hdevice

theorem skuColumn_eq_some {db : Database} {id sku : String} :
    skuColumn db id = some sku ↔ ∃ r ∈ db.products.rows, r.id = id ∧ r.sku = sku := by
  simp only [skuColumn, Option.map_eq_some_iff, Table.find?_eq_some, and_assoc]

/-- The unique index on the slug. -/
def UniqueSlugs (db : Database) : Prop :=
  ∀ d ∈ db.deviceModels.rows, ∀ d' ∈ db.deviceModels.rows, d.slug = d'.slug → d = d'

theorem findSlug_eq_some {db : Database} (hdb : UniqueSlugs db) {slug : String} {d : DeviceModel} :
    findSlug db slug = some d ↔ d ∈ db.deviceModels.rows ∧ d.slug = slug := by
  constructor
  · intro h
    exact ⟨List.mem_of_find?_eq_some h, by simpa using List.find?_some h⟩
  · rintro ⟨hd, rfl⟩
    cases hfind : findSlug db d.slug with
    | none => simpa using List.find?_eq_none.mp hfind d hd
    | some d' =>
      have hslug : d'.slug = d.slug := by simpa using List.find?_some hfind
      rw [hdb d' (List.mem_of_find?_eq_some hfind) d hd hslug]

theorem findSlug_eq_none {db : Database} {slug : String} :
    findSlug db slug = none ↔ ∀ d ∈ db.deviceModels.rows, d.slug ≠ slug := by
  simp [findSlug]

theorem deviceColumn_eq_some {db : Database} (hdb : UniqueSlugs db) {slug : String} {device : String × String} :
    deviceColumn db slug = some device ↔
      ∃ d ∈ db.deviceModels.rows, d.slug = slug ∧ (d.brand, d.model) = device := by
  simp only [deviceColumn, Option.map_eq_some_iff, findSlug_eq_some hdb, and_assoc]

/-- The clock has an id of its own for every slug, and under none of those that have no
row yet is there a row already. -/
structure NewDeviceIds (clock : Clock) (db : Database) : Prop where
  own : Function.Injective clock.deviceModelId
  unused : ∀ slug, findSlug db slug = none → ∀ d ∈ db.deviceModels.rows, d.id ≠ clock.deviceModelId slug

/-! ### One upsert -/

theorem free_sku (db : Database) (p : ErpCatalogProduct) :
    Free (skuColumn db) p.id p.sku ↔ ∀ r ∈ db.products.rows, r.sku = p.sku → r.id = p.id := by
  unfold Free
  simp only [skuColumn_eq_some]
  constructor
  · exact fun h r hr hsku => h r.id ⟨r, hr, rfl, hsku⟩
  · rintro h k ⟨r, hr, rfl, hsku⟩
    exact h r hr hsku

theorem Synced.skuColumn {clock : Clock} {current : Option Inventory} {p : ErpCatalogProduct} {db db' : Database}
    (h : Synced clock current p db db') :
    skuColumn db' = Function.update (Catalog.skuColumn db) p.id (some p.sku) := by
  funext id
  by_cases hid : id = p.id <;> simp [Catalog.skuColumn, h.products, Table.find?_set, hid]

/-- What the upserts of device models keep. -/
structure Devices (clock : Clock) (db : Database) : Prop where
  slugs : UniqueSlugs db
  ids : NewDeviceIds clock db

theorem deviceColumn_congr {db db' : Database} (h : db'.deviceModels = db.deviceModels) :
    deviceColumn db' = deviceColumn db := by
  funext slug
  simp only [deviceColumn, findSlug, h]

theorem Devices.congr {clock : Clock} {db db' : Database} (hdb : Devices clock db)
    (h : db'.deviceModels = db.deviceModels) : Devices clock db' := by
  refine ⟨?_, hdb.ids.own, ?_⟩
  · simpa only [UniqueSlugs, h] using hdb.slugs
  · simpa only [findSlug, h] using hdb.ids.unused

/-- `n` takes the place of the row with its slug. -/
def Puts (n : DeviceModel) (db db' : Database) : Prop :=
  ∀ d, d ∈ db'.deviceModels.rows ↔ d = n ∨ d ∈ db.deviceModels.rows ∧ d.slug ≠ n.slug

theorem puts_set {db : Database} (h : UniqueSlugs db) {found : DeviceModel} (hfound : found ∈ db.deviceModels.rows)
    (brand model : String) :
    Puts {found with brand := brand, model := model} db
      {db with deviceModels := db.deviceModels.set {found with brand := brand, model := model}} := by
  intro d
  rw [Table.mem_set]
  refine or_congr_right (and_congr_right fun hd => not_congr ⟨fun hid => ?_, fun hslug => ?_⟩)
  · rw [db.deviceModels.eq_of_key hd hfound hid]
  · rw [h d hd found hfound hslug]

theorem puts_insert {db : Database} {n : DeviceModel} (hnone : findSlug db n.slug = none)
    {deviceModels : Table DeviceModel.id} (hrows : deviceModels.rows = db.deviceModels.rows ++ [n]) :
    Puts n db {db with deviceModels := deviceModels} := by
  intro d
  simp only [hrows, List.mem_append, List.mem_singleton]
  constructor
  · rintro (hd | rfl)
    · exact .inr ⟨hd, findSlug_eq_none.mp hnone d hd⟩
    · exact .inl rfl
  · rintro (rfl | ⟨hd, _⟩)
    · exact .inr rfl
    · exact .inl hd

theorem UniqueSlugs.put {db db' : Database} (h : UniqueSlugs db) {n : DeviceModel} (hput : Puts n db db') :
    UniqueSlugs db' := by
  intro d hd d' hd' hslug
  rcases (hput d).mp hd with rfl | ⟨hd, hne⟩ <;> rcases (hput d').mp hd' with rfl | ⟨hd', hne'⟩
  · rfl
  · exact absurd hslug.symm hne'
  · exact absurd hslug hne
  · exact h d hd d' hd' hslug

theorem UniqueSlugs.put_column {db db' : Database} (h : UniqueSlugs db) {n : DeviceModel} (hput : Puts n db db') :
    deviceColumn db' = Function.update (deviceColumn db) n.slug (some (n.brand, n.model)) := by
  funext slug
  refine Option.ext fun device => ?_
  rw [deviceColumn_eq_some (h.put hput)]
  by_cases hslug : slug = n.slug
  · subst hslug
    simp only [hput _, Function.update_self, Option.some.injEq]
    constructor
    · rintro ⟨d, rfl | ⟨_, hne⟩, hd, hdevice⟩
      · exact hdevice
      · exact absurd hd hne
    · intro hdevice
      exact ⟨n, .inl rfl, rfl, hdevice⟩
  · rw [Function.update_of_ne hslug, deviceColumn_eq_some h]
    constructor
    · rintro ⟨d, hd, rfl, hdevice⟩
      rcases (hput d).mp hd with rfl | ⟨hd, _⟩
      · exact absurd rfl hslug
      · exact ⟨d, hd, rfl, hdevice⟩
    · rintro ⟨d, hd, rfl, hdevice⟩
      exact ⟨d, (hput d).mpr (.inr ⟨hd, hslug⟩), rfl, hdevice⟩

theorem Devices.put {clock : Clock} {db db' : Database} (h : Devices clock db) {n : DeviceModel}
    (hput : Puts n db db')
    (hid : ∀ slug, findSlug db slug = none → n.slug ≠ slug → n.id ≠ clock.deviceModelId slug) :
    Devices clock db' ∧ deviceColumn db' = Function.update (deviceColumn db) n.slug (some (n.brand, n.model)) := by
  refine ⟨⟨h.slugs.put hput, h.ids.own, ?_⟩, h.slugs.put_column hput⟩
  intro slug hnone d hd
  rw [findSlug_eq_none] at hnone
  have hne : n.slug ≠ slug := hnone n ((hput n).mpr (.inl rfl))
  have hnone' : findSlug db slug = none := by
    refine findSlug_eq_none.mpr fun d' hd' hslug => ?_
    exact hnone d' ((hput d').mpr (.inr ⟨hd', fun he => hne (he.symm.trans hslug)⟩)) hslug
  rcases (hput d).mp hd with rfl | ⟨hd, _⟩
  · exact hid slug hnone' hne
  · exact h.ids.unused slug hnone' d hd

/-- The write of an upsert that finds its row. -/
theorem Devices.update {clock : Clock} {db : Database} (h : Devices clock db) {found : DeviceModel}
    (hfound : found ∈ db.deviceModels.rows) (brand model : String) :
    Devices clock {db with deviceModels := db.deviceModels.set {found with brand := brand, model := model}} ∧
      deviceColumn {db with deviceModels := db.deviceModels.set {found with brand := brand, model := model}} =
        Function.update (deviceColumn db) found.slug (some (brand, model)) := by
  exact h.put (puts_set h.slugs hfound brand model) fun slug hnone _ => h.ids.unused slug hnone found hfound

/-- The write of an upsert that finds none. -/
theorem Devices.create {clock : Clock} {db : Database} (h : Devices clock db) {slug : String}
    (hnone : findSlug db slug = none) (brand model : String) :
    ∃ deviceModels, db.deviceModels.insert? ⟨clock.deviceModelId slug, brand, model, slug⟩ = some deviceModels ∧
      Devices clock {db with deviceModels := deviceModels} ∧
      deviceColumn {db with deviceModels := deviceModels} =
        Function.update (deviceColumn db) slug (some (brand, model)) := by
  have hnew : db.deviceModels.find? (clock.deviceModelId slug) = none :=
    Table.find?_eq_none.mpr fun d hd => h.ids.unused slug hnone d hd
  obtain ⟨deviceModels, hinsert, hrows⟩ :=
    Table.insert?_of_fresh (r := (⟨clock.deviceModelId slug, brand, model, slug⟩ : DeviceModel)) hnew
  have hput : Puts ⟨clock.deviceModelId slug, brand, model, slug⟩ db {db with deviceModels := deviceModels} :=
    puts_insert hnone hrows
  exact ⟨deviceModels, hinsert, h.put hput fun slug' _ hne he => hne (h.ids.own he)⟩

theorem free_device {clock : Clock} {db : Database} (h : Devices clock db) (c : ErpCatalogCompatibility) :
    Free (deviceColumn db) c.slug (c.brand, c.model) ↔
      ∀ d ∈ db.deviceModels.rows, d.brand = c.brand ∧ d.model = c.model → d.slug = c.slug := by
  unfold Free
  simp only [deviceColumn_eq_some h.slugs, Prod.mk.injEq]
  constructor
  · exact fun hf d hd hdevice => hf d.slug ⟨d, hd, rfl, hdevice⟩
  · rintro hf slug ⟨d, hd, rfl, hdevice⟩
    exact hf d hd hdevice

/-- A device model is written if no other slug has its brand and model. -/
theorem upsertDeviceModel_cases {clock : Clock} {db : Database} (h : Devices clock db) (c : ErpCatalogCompatibility) :
    Free (deviceColumn db) c.slug (c.brand, c.model) ∧ (∃ db', upsertDeviceModel clock c db = .ok db' ∧
        Devices clock db' ∧ deviceColumn db' = Function.update (deviceColumn db) c.slug (some (c.brand, c.model)) ∧
        db'.compatibilities = db.compatibilities) ∨
      ¬Free (deviceColumn db) c.slug (c.brand, c.model) ∧ ∃ e, upsertDeviceModel clock c db = .error e := by
  rw [free_device h]
  cases hfind : findSlug db c.slug with
  | some found =>
    obtain ⟨hfound, hslug⟩ := (findSlug_eq_some h.slugs).mp hfind
    have hsame (d : DeviceModel) (hd : d ∈ db.deviceModels.rows) : d.id = found.id ↔ d.slug = c.slug := by
      rw [← hslug]
      exact ⟨fun hid => congrArg DeviceModel.slug (db.deviceModels.eq_of_key hd hfound hid),
        fun hd' => congrArg DeviceModel.id (h.slugs d hd found hfound hd')⟩
    unfold findSlug at hfind
    have hrequire := forall₂_congr fun d hd => imp_congr_right fun (_ : d.brand = c.brand ∧ d.model = c.model) => hsame d hd
    by_cases hok : ∀ d ∈ db.deviceModels.rows, d.brand = c.brand ∧ d.model = c.model → d.slug = c.slug
    · obtain ⟨hdevices, hcolumn⟩ := h.update hfound c.brand c.model
      refine .inl ⟨hok, _, ?_, hdevices, by rw [hcolumn, hslug], rfl⟩
      simp only [upsertDeviceModel, hfind]
      exact bind_ok.mpr ⟨(), require_ok.mpr (hrequire.mpr hok), rfl⟩
    · refine .inr ⟨hok, .p2002, ?_⟩
      simp only [upsertDeviceModel, hfind, require, if_neg (fun hr => hok (hrequire.mp hr))]
      rfl
  | none =>
    have hnone := findSlug_eq_none.mp hfind
    have hrequire := forall₂_congr fun d hd =>
      imp_congr_right fun (_ : d.brand = c.brand ∧ d.model = c.model) => (iff_false_intro (hnone d hd)).symm
    obtain ⟨deviceModels, hinsert, hdevices, hcolumn⟩ := h.create hfind c.brand c.model
    unfold findSlug at hfind
    by_cases hok : ∀ d ∈ db.deviceModels.rows, d.brand = c.brand ∧ d.model = c.model → d.slug = c.slug
    · refine .inl ⟨hok, _, ?_, hdevices, hcolumn, rfl⟩
      simp only [upsertDeviceModel, hfind]
      refine bind_ok.mpr ⟨(), require_ok.mpr (hrequire.mpr hok), ?_⟩
      rw [hinsert]
      rfl
    · refine .inr ⟨hok, .p2002, ?_⟩
      simp only [upsertDeviceModel, hfind, require, if_neg (fun hr => hok (hrequire.mp hr))]
      rfl

/-! ### The device models of one product -/

theorem each_upsertDeviceModel_cases {clock : Clock} (cs : List ErpCatalogCompatibility) {db : Database}
    (h : Devices clock db) :
    Accepts (deviceColumn db) (cs.map deviceEntry) ∧ (∃ db', each (upsertDeviceModel clock) cs db = .ok db' ∧
        Devices clock db' ∧ deviceColumn db' = upserts (deviceColumn db) (cs.map deviceEntry) ∧
        db'.compatibilities = db.compatibilities) ∨
      ¬Accepts (deviceColumn db) (cs.map deviceEntry) ∧ ∃ e, each (upsertDeviceModel clock) cs db = .error e := by
  induction cs generalizing db with
  | nil => exact .inl ⟨trivial, db, rfl, h, rfl, rfl⟩
  | cons c rest ih =>
    rw [List.map_cons, accepts_cons]
    rcases upsertDeviceModel_cases h c with ⟨hfree, db₁, hok, hdb₁, hcolumn, hkept⟩ | ⟨hfree, e, he⟩
    · have hstep : each (upsertDeviceModel clock) (c :: rest) db = each (upsertDeviceModel clock) rest db₁ := by
        simp only [each, hok]
        rfl
      have hrest := ih hdb₁
      rw [hcolumn, hkept] at hrest
      rw [hstep]
      rcases hrest with ⟨haccepts, hwritten⟩ | ⟨haccepts, herror⟩
      · exact .inl ⟨⟨hfree, haccepts⟩, hwritten⟩
      · exact .inr ⟨fun ha => haccepts ha.2, herror⟩
    · refine .inr ⟨fun ha => hfree ha.1, e, ?_⟩
      simp only [each, he]
      rfl

theorem findDeviceModels_ok (cs : List ErpCatalogCompatibility) {db : Database}
    (h : ∀ c ∈ cs, (findSlug db c.slug).isSome) :
    ∃ deviceModels, cs.mapM (fun c => findDeviceModel c db) = .ok deviceModels ∧
      deviceModels.map DeviceModel.slug = cs.map ErpCatalogCompatibility.slug ∧
      ∀ d ∈ deviceModels, d ∈ db.deviceModels.rows := by
  induction cs with
  | nil => exact ⟨[], rfl, rfl, nofun⟩
  | cons c rest ih =>
    obtain ⟨deviceModels, hok, hslugs, hrows⟩ := ih fun c' hc' => h c' (.tail c hc')
    obtain ⟨d, hfind⟩ := Option.isSome_iff_exists.mp (h c (.head rest))
    have hslug : d.slug = c.slug := by simpa using List.find?_some hfind
    refine ⟨d :: deviceModels, ?_, ?_, ?_⟩
    · unfold findSlug at hfind
      simp only [List.mapM_cons, findDeviceModel, hfind]
      exact bind_ok.mpr ⟨d, rfl, bind_ok.mpr ⟨deviceModels, hok, rfl⟩⟩
    · rw [List.map_cons, List.map_cons, hslug, hslugs]
    · intro d' hd'
      rcases List.mem_cons.mp hd' with rfl | hd'
      · exact List.mem_of_find?_eq_some hfind
      · exact hrows d' hd'

theorem each_createCompatibility_ok (p : ErpCatalogProduct) (deviceModels : List DeviceModel) {db : Database}
    (hids : (deviceModels.map DeviceModel.id).Nodup)
    (hnew : ∀ d ∈ deviceModels, db.compatibilities.find? (p.id, d.id) = none) :
    ∃ db', each (createCompatibility p) deviceModels db = .ok db' ∧ db'.deviceModels = db.deviceModels := by
  induction deviceModels generalizing db with
  | nil => exact ⟨db, rfl, rfl⟩
  | cons d rest ih =>
    rw [List.map_cons, List.nodup_cons] at hids
    obtain ⟨compatibilities, hinsert, hrows⟩ :=
      Table.insert?_of_fresh (r := (⟨p.id, d.id⟩ : ProductCompatibility)) (hnew d (.head rest))
    have hrest : ∀ d' ∈ rest, compatibilities.find? (p.id, d'.id) = none := by
      intro d' hd'
      refine Table.find?_eq_none.mpr fun c hc he => ?_
      rw [hrows, List.mem_append, List.mem_singleton] at hc
      rcases hc with hc | rfl
      · exact Table.find?_eq_none.mp (hnew d' (.tail d hd')) c hc he
      · exact hids.1 (List.mem_map.mpr ⟨d', hd', (Prod.mk.inj he).2.symm⟩)
    have hcreate : createCompatibility p d db = .ok {db with compatibilities := compatibilities} := by
      simp only [createCompatibility, hinsert]
    have hcreateRest : ∃ db', each (createCompatibility p) rest {db with compatibilities := compatibilities} = .ok db' ∧
        db'.deviceModels = db.deviceModels := ih hids.2 hrest
    obtain ⟨db', hok, hsame⟩ := hcreateRest
    exact ⟨db', bind_ok.mpr ⟨_, hcreate, hok⟩, hsame⟩

/-- Only the device models can stand in the way. -/
theorem syncCompatibilities_cases {clock : Clock} {p : ErpCatalogProduct} {db : Database} (h : Devices clock db)
    (hslugs : (p.compatibilities.map ErpCatalogCompatibility.slug).Nodup) :
    Accepts (deviceColumn db) (p.compatibilities.map deviceEntry) ∧ (∃ db', syncCompatibilities clock p db = .ok db' ∧
        Devices clock db' ∧ deviceColumn db' = upserts (deviceColumn db) (p.compatibilities.map deviceEntry)) ∨
      ¬Accepts (deviceColumn db) (p.compatibilities.map deviceEntry) ∧
      ∃ e, syncCompatibilities clock p db = .error e := by
  have hdelete : Devices clock (deleteCompatibilities p db) := h.congr rfl
  rcases each_upsertDeviceModel_cases p.compatibilities hdelete with
    ⟨haccepts, db₁, hupsert, hdevices, hcolumn, hsameCompatibilities⟩ | ⟨haccepts, e, he⟩
  · left
    refine ⟨haccepts, ?_⟩
    have hfound : ∀ c ∈ p.compatibilities, (findSlug db₁ c.slug).isSome := by
      intro c hc
      have hput : (deviceColumn db₁ c.slug).isSome := by
        rw [hcolumn]
        exact upserts_isSome (.inr (List.mem_map.mpr ⟨deviceEntry c, List.mem_map_of_mem hc, rfl⟩))
      simpa [deviceColumn] using hput
    obtain ⟨deviceModels, hfind, hsame, hrows⟩ := findDeviceModels_ok p.compatibilities hfound
    have hids : (deviceModels.map DeviceModel.id).Nodup := by
      rw [← hsame] at hslugs
      refine List.Nodup.map_on (fun d hd d' hd' hid => ?_) hslugs.of_map
      exact db₁.deviceModels.eq_of_key (hrows d hd) (hrows d' hd') hid
    have hnew : ∀ d ∈ deviceModels, db₁.compatibilities.find? (p.id, d.id) = none := by
      intro d _
      refine Table.find?_eq_none.mpr fun c hc he => ?_
      rw [hsameCompatibilities] at hc
      have hother : c.productId ≠ p.id := by simpa using (List.mem_filter.mp hc).2
      exact hother (Prod.mk.inj he).1
    obtain ⟨db', hcreate, hkept⟩ := each_createCompatibility_ok p deviceModels hids hnew
    refine ⟨db', bind_ok.mpr ⟨db₁, hupsert, bind_ok.mpr ⟨deviceModels, hfind, hcreate⟩⟩, hdevices.congr hkept, ?_⟩
    rw [deviceColumn_congr hkept, hcolumn]
    rfl
  · right
    refine ⟨haccepts, e, ?_⟩
    simp only [syncCompatibilities, he]
    rfl

/-! ### One product -/

/-- `version: { increment: 1 }`, or 1 for a new row. -/
def nextVersion (row : Option Inventory) : Int := (row.map Inventory.version).getD 0 + 1

/-- How often a list has a product. -/
def timesListed (products : List ErpCatalogProduct) (id : String) : Nat := products.countP fun p => p.id = id

/-- The numbers a product's transaction writes are in the range of their columns, when it
comes after those of `earlier`. -/
structure Fits (db : Database) (earlier : List ErpCatalogProduct) (p : ErpCatalogProduct) : Prop where
  price : Int4 p.priceCents
  quantity : Int4 p.erpQty
  available : Int4 (availability (db.inventory.find? p.id) p.erpQty)
  version : Int4 (nextVersion (db.inventory.find? p.id) + timesListed earlier p.id)

theorem fits_congr {db db' : Database} {earlier : List ErpCatalogProduct} {p : ErpCatalogProduct}
    (h : db'.inventory.find? p.id = db.inventory.find? p.id) : Fits db' earlier p ↔ Fits db earlier p := by
  constructor <;> intro hfits <;> refine ⟨hfits.price, hfits.quantity, ?_, ?_⟩
  · exact h ▸ hfits.available
  · exact h ▸ hfits.version
  · exact h.symm ▸ hfits.available
  · exact h.symm ▸ hfits.version

theorem syncedInventory_version (current : Option Inventory) (p : ErpCatalogProduct) (db : Database) :
    (syncedInventory current p db).version = nextVersion (db.inventory.find? p.id) := by
  unfold syncedInventory
  cases db.inventory.find? p.id <;> rfl

theorem nextVersion_syncedInventory (current : Option Inventory) (p : ErpCatalogProduct) (db : Database) :
    nextVersion (some (syncedInventory current p db)) = nextVersion (db.inventory.find? p.id) + 1 :=
  congrArg (· + 1) (syncedInventory_version current p db)

theorem upsertStats_devices (p : ErpCatalogProduct) (db : Database) :
    (upsertStats p db).deviceModels = db.deviceModels ∧ (upsertStats p db).compatibilities = db.compatibilities := by
  rw [upsertStats_rest]
  exact ⟨rfl, rfl⟩

theorem upsertInventory_cases (current : Option Inventory) (p : ErpCatalogProduct) (db : Database) :
    (Int4 p.erpQty ∧ Int4 (availability current p.erpQty) ∧ Int4 (nextVersion (db.inventory.find? p.id))) ∧
        upsertInventory current p db = .ok {db with inventory := db.inventory.set (syncedInventory current p db)} ∨
      ¬(Int4 p.erpQty ∧ Int4 (availability current p.erpQty) ∧ Int4 (nextVersion (db.inventory.find? p.id))) ∧
        upsertInventory current p db = .error .valueOutOfRange := by
  rw [← syncedInventory_version current]
  unfold upsertInventory require
  by_cases hnumbers : Int4 p.erpQty ∧ Int4 (availability current p.erpQty) ∧ Int4 (syncedInventory current p db).version
  · rw [if_pos hnumbers]
    exact .inl ⟨hnumbers, rfl⟩
  · rw [if_neg hnumbers]
    exact .inr ⟨hnumbers, rfl⟩

/-- Before the device models nothing but the sku and the numbers can fail. -/
theorem syncProduct_cases (clock : Clock) (current : Option Inventory) (p : ErpCatalogProduct) (db : Database) :
    (Free (skuColumn db) p.id p.sku ∧ Int4 p.priceCents ∧ Int4 p.erpQty ∧ Int4 (availability current p.erpQty) ∧
        Int4 (nextVersion (db.inventory.find? p.id))) ∧
        (∃ db₁, (db₁.deviceModels = db.deviceModels ∧ db₁.compatibilities = db.compatibilities) ∧
          syncProduct clock current p db = syncCompatibilities clock p db₁) ∨
      ¬(Free (skuColumn db) p.id p.sku ∧ Int4 p.priceCents ∧ Int4 p.erpQty ∧ Int4 (availability current p.erpQty) ∧
          Int4 (nextVersion (db.inventory.find? p.id))) ∧
        ∃ e, syncProduct clock current p db = .error e := by
  rw [free_sku]
  by_cases hsku : ∀ r ∈ db.products.rows, r.sku = p.sku → r.id = p.id
  · by_cases hprice : Int4 p.priceCents
    · let db₂ : Database := {db with
        products := db.products.set
          ⟨p.id, p.sku, p.name, some p.description, some p.imageUrl, some p.brand, p.active, clock.now⟩
        prices := db.prices.set ⟨p.id, p.priceCents, "BRL"⟩}
      have hstep : syncProduct clock current p db =
          upsertInventory current p db₂ >>= fun db => syncCompatibilities clock p (upsertStats p db) := by
        simp only [syncProduct, upsertProduct, upsertPrice, require, if_pos hsku, if_pos hprice]
        rfl
      rcases upsertInventory_cases current p db₂ with ⟨hnumbers, hok⟩ | ⟨hnumbers, herror⟩
      · rw [hstep, hok]
        have hdevices := upsertStats_devices p {db₂ with inventory := db₂.inventory.set (syncedInventory current p db₂)}
        exact .inl ⟨⟨hsku, hprice, hnumbers⟩, _, hdevices, rfl⟩
      · rw [hstep, herror]
        exact .inr ⟨fun h => hnumbers h.2.2, .valueOutOfRange, rfl⟩
    · refine .inr ⟨fun h => hprice h.2.1, .valueOutOfRange, ?_⟩
      simp only [syncProduct, upsertProduct, upsertPrice, require, if_pos hsku, if_neg hprice]
      rfl
  · refine .inr ⟨fun h => hsku h.1, .p2002, ?_⟩
    simp only [syncProduct, upsertProduct, require, if_neg hsku]
    rfl

/-- The columns after a product's transaction, if it commits. -/
structure Columns (clock : Clock) (p : ErpCatalogProduct) (db db' : Database) : Prop where
  devices : Devices clock db'
  sku : skuColumn db' = Function.update (skuColumn db) p.id (some p.sku)
  device : deviceColumn db' = upserts (deviceColumn db) (p.compatibilities.map deviceEntry)
  inventory : ∀ id, id ≠ p.id → db'.inventory.find? id = db.inventory.find? id

theorem syncedInventory_productId (current : Option Inventory) (p : ErpCatalogProduct) (db : Database) :
    (syncedInventory current p db).productId = p.id := by
  unfold syncedInventory
  cases hrow : db.inventory.find? p.id with
  | none => rfl
  | some row =>
    have hkey : row.productId = p.id := Table.key_of_find? hrow
    exact hkey

theorem syncProduct_decided {clock : Clock} {p : ErpCatalogProduct} {db : Database} (h : Devices clock db)
    (hslugs : (p.compatibilities.map ErpCatalogCompatibility.slug).Nodup) :
    (Free (skuColumn db) p.id p.sku ∧ Fits db [] p ∧ Accepts (deviceColumn db) (p.compatibilities.map deviceEntry)) ∧
        (∃ db', syncProduct clock (db.inventory.find? p.id) p db = .ok db' ∧ Columns clock p db db') ∨
      ¬(Free (skuColumn db) p.id p.sku ∧ Fits db [] p ∧
          Accepts (deviceColumn db) (p.compatibilities.map deviceEntry)) ∧
        ∃ e, syncProduct clock (db.inventory.find? p.id) p db = .error e := by
  rcases syncProduct_cases clock (db.inventory.find? p.id) p db with
    ⟨⟨hsku, hprice, hqty, havailable, hversion⟩, db₁, ⟨hsame, _⟩, hstep⟩ | ⟨hnot, herror⟩
  · rcases syncCompatibilities_cases (h.congr hsame) hslugs with
      ⟨haccepts, db', hok, hdevices, hcolumn⟩ | ⟨hnot, herror⟩
    · rw [deviceColumn_congr hsame] at haccepts hcolumn
      have hsynced := syncProduct_ok (hstep.trans hok)
      have hfits : Fits db [] p := ⟨hprice, hqty, havailable, by simpa [timesListed] using hversion⟩
      refine .inl ⟨⟨hsku, hfits, haccepts⟩, db', hstep.trans hok, hdevices, hsynced.skuColumn,
        hcolumn, fun id hid => ?_⟩
      rw [hsynced.inventory]
      apply Table.find?_set_ne
      rwa [syncedInventory_productId]
    · rw [deviceColumn_congr hsame] at hnot
      rw [hstep]
      exact .inr ⟨fun hall => hnot hall.2.2, herror⟩
  · refine .inr ⟨fun hall => hnot ?_, herror⟩
    have hfits := hall.2.1
    exact ⟨hall.1, hfits.price, hfits.quantity, hfits.available, by simpa [timesListed] using hfits.version⟩

/-! ### The whole catalog -/

theorem syncProducts_isOk_iff {clock : Clock} (products : List ErpCatalogProduct) {db : Database}
    (h : Devices clock db) (hids : (products.map ErpCatalogProduct.id).Nodup)
    (hslugs : ∀ p ∈ products, (p.compatibilities.map ErpCatalogCompatibility.slug).Nodup) :
    (syncProducts clock products db).1 = .ok () ↔
      Accepts (skuColumn db) (products.map skuEntry) ∧ Accepts (deviceColumn db) (deviceEntries products) ∧
        ∀ p ∈ products, Fits db [] p := by
  induction products generalizing db with
  | nil => exact ⟨fun _ => ⟨trivial, trivial, List.forall_mem_nil _⟩, fun _ => rfl⟩
  | cons p rest ih =>
    obtain ⟨hp, hrest⟩ := List.nodup_cons.mp hids
    rw [List.map_cons, accepts_cons, show deviceEntries (p :: rest) =
      p.compatibilities.map deviceEntry ++ deviceEntries rest from rfl, accepts_append, List.forall_mem_cons]
    unfold syncProducts
    rcases syncProduct_decided h (hslugs p (.head rest)) with
      ⟨⟨hfree, hfits, haccepts⟩, db', hok, hcolumns⟩ | ⟨hnot, e, he⟩
    · have hfitsRest : (∀ p' ∈ rest, Fits db' [] p') ↔ ∀ p' ∈ rest, Fits db [] p' := by
        refine forall₂_congr fun p' hp' => ?_
        have hne : p'.id ≠ p.id := fun he => hp (he ▸ List.mem_map_of_mem hp')
        exact fits_congr (hcolumns.inventory p'.id hne)
      rw [hok]
      dsimp only
      rw [ih hcolumns.devices hrest fun p' hp' => hslugs p' (.tail p hp'), hcolumns.sku, hcolumns.device, hfitsRest]
      constructor
      · rintro ⟨hsku, hdevice, hall⟩
        exact ⟨⟨hfree, hsku⟩, ⟨haccepts, hdevice⟩, hfits, hall⟩
      · rintro ⟨⟨_, hsku⟩, ⟨_, hdevice⟩, _, hall⟩
        exact ⟨hsku, hdevice, hall⟩
    · rw [he]
      constructor
      · intro hok
        cases hok
      · rintro ⟨⟨hfree, _⟩, ⟨haccepts, _⟩, hfits, _⟩
        exact absurd ⟨hfree, hfits, haccepts⟩ hnot

theorem syncCatalog_isOk_iff (clock : Clock) (products : List ErpCatalogProduct) (db : Database) :
    (syncCatalog clock products db).1 = .ok () ↔
      (syncProducts clock products db).1 = .ok () ∧ Int4 (nextCatalogVersion db.catalogVersion) := by
  have hversion := syncProducts_version clock products db
  unfold syncCatalog
  rcases hproducts : syncProducts clock products db with ⟨result, db₁⟩
  rw [hproducts] at hversion
  cases result with
  | error e => exact ⟨nofun, nofun⟩
  | ok u =>
    rw [← hversion]
    dsimp only [bumpCatalogVersion, require]
    split
    · rename_i db₂ hbump
      exact ⟨fun _ => ⟨rfl, require_ok.mp (bind_ok.mp hbump).choose_spec.1⟩, fun _ => rfl⟩
    · rename_i e hbump
      refine ⟨nofun, fun h => ?_⟩
      have hfits : Int4 (nextCatalogVersion
        (deactivateAbsent clock.now (products.map ErpCatalogProduct.id) db₁).catalogVersion) := h.2
      rw [if_pos hfits] at hbump
      cases hbump

/-- A consistent catalog is synced if the skus and the devices that changed hands are
given up before they are taken, and the numbers fit. -/
theorem syncCatalog_iff {clock : Clock} {products : List ErpCatalogProduct} {db : Database} (h : Devices clock db)
    (hcatalog : ConsistentCatalog products) :
    (syncCatalog clock products db).1 = .ok () ↔
      MovesInOrder (skuColumn db) (products.map skuEntry) ∧ MovesInOrder (deviceColumn db) (deviceEntries products) ∧
        (∀ p ∈ products, Fits db [] p) ∧ Int4 (nextCatalogVersion db.catalogVersion) := by
  rw [syncCatalog_isOk_iff, syncProducts_isOk_iff products h hcatalog.ids hcatalog.slugs,
    accepts_iff hcatalog.skuEntries, accepts_iff hcatalog.deviceEntries]
  simp only [and_assoc]

/-! ### The slugs stay unique -/

/-- A device model that is written takes the place of the row with its slug. -/
theorem upsertDeviceModel_puts {clock : Clock} {c : ErpCatalogCompatibility} {db db' : Database}
    (h : upsertDeviceModel clock c db = .ok db') (hdb : UniqueSlugs db) :
    ∃ id, Puts ⟨id, c.brand, c.model, c.slug⟩ db db' := by
  unfold upsertDeviceModel at h
  split at h
  · rename_i found hfind
    obtain ⟨_, _, h₁⟩ := bind_ok.mp h
    cases h₁
    have hslug : found.slug = c.slug := by simpa using List.find?_some hfind
    refine ⟨found.id, ?_⟩
    rw [← hslug]
    exact puts_set hdb (List.mem_of_find?_eq_some hfind) c.brand c.model
  · rename_i hnone
    obtain ⟨_, _, h₁⟩ := bind_ok.mp h
    split at h₁
    · cases h₁
    · rename_i deviceModels hinsert
      cases h₁
      refine ⟨clock.deviceModelId c.slug, ?_⟩
      exact puts_insert (n := ⟨clock.deviceModelId c.slug, c.brand, c.model, c.slug⟩) hnone
        (Table.insert?_eq_some hinsert).2

theorem upsertDeviceModel_slugs {clock : Clock} {c : ErpCatalogCompatibility} {db db' : Database}
    (h : upsertDeviceModel clock c db = .ok db') (hdb : UniqueSlugs db) : UniqueSlugs db' := by
  obtain ⟨id, hput⟩ := upsertDeviceModel_puts h hdb
  exact hdb.put hput

theorem syncCompatibilities_slugs {clock : Clock} {p : ErpCatalogProduct} {db db' : Database}
    (h : syncCompatibilities clock p db = .ok db') (hdb : UniqueSlugs db) : UniqueSlugs db' := by
  obtain ⟨db₁, h₁, hrest⟩ := bind_ok.mp h
  obtain ⟨deviceModels, _, h₂⟩ := bind_ok.mp hrest
  have hupsert := each_ok (R := fun a b => UniqueSlugs a → UniqueSlugs b) (fun _ => id) (fun hab hbc ha => hbc (hab ha))
    (fun _ _ _ h => upsertDeviceModel_slugs h) h₁ hdb
  have hcreate : db'.deviceModels = db₁.deviceModels := by
    refine each_ok (R := fun a b => b.deviceModels = a.deviceModels) (fun _ => rfl) (fun hab hbc => hbc.trans hab) ?_ h₂
    intro d a b hab
    unfold createCompatibility at hab
    split at hab <;> cases hab
    rfl
  simpa only [UniqueSlugs, hcreate] using hupsert

theorem syncProduct_slugs {clock : Clock} {current : Option Inventory} {p : ErpCatalogProduct} {db db' : Database}
    (h : syncProduct clock current p db = .ok db') (hdb : UniqueSlugs db) : UniqueSlugs db' := by
  rcases syncProduct_cases clock current p db with ⟨_, db₁, ⟨hsame, _⟩, hstep⟩ | ⟨_, e, he⟩
  · exact syncCompatibilities_slugs (hstep ▸ h) (by simpa only [UniqueSlugs, hsame] using hdb)
  · rw [he] at h
    cases h

theorem syncProducts_slugs (clock : Clock) (products : List ErpCatalogProduct) {db : Database}
    (hdb : UniqueSlugs db) :
    UniqueSlugs (syncProducts clock products db).2 := by
  induction products generalizing db with
  | nil => exact hdb
  | cons p rest ih =>
    unfold syncProducts
    cases hsync : syncProduct clock (db.inventory.find? p.id) p db with
    | ok db' => exact ih (syncProduct_slugs hsync hdb)
    | error e => exact hdb

theorem syncCatalog_slugs (clock : Clock) (products : List ErpCatalogProduct) {db : Database} (hdb : UniqueSlugs db) :
    UniqueSlugs (syncCatalog clock products db).2 := by
  have hproducts := syncProducts_slugs clock products hdb
  unfold syncCatalog
  rcases hsync : syncProducts clock products db with ⟨result, db₁⟩
  rw [hsync] at hproducts
  cases result with
  | error e => exact hproducts
  | ok u =>
    dsimp only
    cases hbump : bumpCatalogVersion (deactivateAbsent clock.now (products.map ErpCatalogProduct.id) db₁) with
    | error e => exact hproducts
    | ok db₂ =>
      rw [bumpCatalogVersion_ok hbump]
      exact hproducts

end CaseCellShop.Catalog
