import CaseCellShop.Platform.Number
import CaseCellShop.Store.Schema

/-! The catalog sync (`ReconciliationRunner.syncCatalog`).

Each ERP product is written in a transaction of its own, which first reads the
inventory row and computes the availability from that reading; then the products the
ERP no longer lists are deactivated, and last the catalog version is incremented.
`syncProduct` is the part of the transaction after the reading, so that a run may put
other transactions between the two. -/
namespace CaseCellShop.Catalog

structure ErpCatalogCompatibility where
  brand : String
  model : String
  slug : String
  deriving DecidableEq, Repr

structure ErpCatalogProduct where
  id : String
  sku : String
  name : String
  description : String
  imageUrl : String
  brand : String
  active : Bool
  priceCents : Int
  erpQty : Int
  compatibilities : List ErpCatalogCompatibility
  deriving DecidableEq, Repr

/-- What the store hands a sync: the time of its writes, and the id `cuid()` gives a
device model that is new under its slug. -/
structure Clock where
  now : Nat
  deviceModelId : String → String

def require (p : Prop) [Decidable p] (e : DbError) : Except DbError Unit :=
  if p then .ok () else .error e

/-- `product.upsert`, under the unique index on the sku. -/
def upsertProduct (now : Nat) (p : ErpCatalogProduct) (db : Database) : Except DbError Database := do
  require (∀ r ∈ db.products.rows, r.sku = p.sku → r.id = p.id) .p2002
  return {db with
    products := db.products.set
      ⟨p.id, p.sku, p.name, some p.description, some p.imageUrl, some p.brand, p.active, now⟩}

def upsertPrice (p : ErpCatalogProduct) (db : Database) : Except DbError Database := do
  require (Int4 p.priceCents) .valueOutOfRange
  return {db with prices := db.prices.set ⟨p.id, p.priceCents, "BRL"⟩}

/-- `Math.max(erpQty - (currentInventory?.reservedQty ?? 0), 0)` -/
def availability (current : Option Inventory) (erpQty : Int) : Int :=
  max (erpQty - (current.map Inventory.reservedQty).getD 0) 0

/-- The inventory row after the sync: the update branch uses the reading made at the
start of the transaction, the create branch the quantity of the ERP as it is. -/
def syncedInventory (current : Option Inventory) (p : ErpCatalogProduct) (db : Database) : Inventory :=
  match db.inventory.find? p.id with
  | some row =>
    {row with
      erpQty := p.erpQty
      availableQty := availability current p.erpQty
      version := row.version + 1}
  | none => ⟨p.id, p.erpQty, 0, p.erpQty, 1⟩

def upsertInventory (current : Option Inventory) (p : ErpCatalogProduct) (db : Database) :
    Except DbError Database := do
  require (Int4 p.erpQty ∧ Int4 (availability current p.erpQty) ∧ Int4 (syncedInventory current p db).version)
    .valueOutOfRange
  return {db with inventory := db.inventory.set (syncedInventory current p db)}

/-- `productStats.upsert` with an empty update. -/
def upsertStats (p : ErpCatalogProduct) (db : Database) : Database :=
  match db.stats.find? p.id with
  | some _ => db
  | none => {db with stats := db.stats.set ⟨p.id, 0, 0, 0⟩}

def deleteCompatibilities (p : ErpCatalogProduct) (db : Database) : Database :=
  {db with compatibilities := db.compatibilities.filter fun c => c.productId ≠ p.id}

/-- `deviceModel.upsert` by slug, under the unique index on brand and model. -/
def upsertDeviceModel (clock : Clock) (c : ErpCatalogCompatibility) (db : Database) :
    Except DbError Database := do
  match db.deviceModels.rows.find? fun d => d.slug = c.slug with
  | some found =>
    require (∀ d ∈ db.deviceModels.rows, d.brand = c.brand ∧ d.model = c.model → d.id = found.id) .p2002
    return {db with deviceModels := db.deviceModels.set {found with brand := c.brand, model := c.model}}
  | none =>
    require (∀ d ∈ db.deviceModels.rows, ¬(d.brand = c.brand ∧ d.model = c.model)) .p2002
    match db.deviceModels.insert? ⟨clock.deviceModelId c.slug, c.brand, c.model, c.slug⟩ with
    | none => .error .p2002
    | some deviceModels => return {db with deviceModels := deviceModels}

/-- `deviceModel.findUniqueOrThrow` by slug. -/
def findDeviceModel (c : ErpCatalogCompatibility) (db : Database) : Except DbError DeviceModel :=
  match db.deviceModels.rows.find? fun d => d.slug = c.slug with
  | some found => .ok found
  | none => .error .p2025

def createCompatibility (p : ErpCatalogProduct) (d : DeviceModel) (db : Database) :
    Except DbError Database :=
  match db.compatibilities.insert? ⟨p.id, d.id⟩ with
  | none => .error .p2002
  | some compatibilities => .ok {db with compatibilities := compatibilities}

/-- One write after the other. -/
def each {α : Type} (f : α → Database → Except DbError Database) :
    List α → Database → Except DbError Database
  | [], db => .ok db
  | a :: rest, db => do
    let db ← f a db
    each f rest db

/-- The compatibilities of a product, rebuilt from the ERP's list. -/
def syncCompatibilities (clock : Clock) (p : ErpCatalogProduct) (db : Database) :
    Except DbError Database := do
  let db ← each (upsertDeviceModel clock) p.compatibilities (deleteCompatibilities p db)
  let deviceModels ← p.compatibilities.mapM fun c => findDeviceModel c db
  each (createCompatibility p) deviceModels db

/-- A product's transaction after its reading of the inventory row. -/
def syncProduct (clock : Clock) (current : Option Inventory) (p : ErpCatalogProduct) (db : Database) :
    Except DbError Database := do
  let db ← upsertProduct clock.now p db
  let db ← upsertPrice p db
  let db ← upsertInventory current p db
  syncCompatibilities clock p (upsertStats p db)

/-- A row under `updateMany({ id: { notIn: activeIds } }, { active: false })`. -/
def deactivate (now : Nat) (activeIds : List String) (r : Product) : Product :=
  if r.id ∈ activeIds then r else {r with active := false, updatedAt := now}

theorem deactivate_id (now : Nat) (activeIds : List String) (r : Product) :
    (deactivate now activeIds r).id = r.id := by
  unfold deactivate
  split <;> rfl

def deactivateAbsent (now : Nat) (activeIds : List String) (db : Database) : Database :=
  {db with products := db.products.modify (deactivate now activeIds) (deactivate_id now activeIds)}

/-- `catalogVersion.upsert`: incremented, or created at 1. -/
def nextCatalogVersion : Option Int → Int
  | some version => version + 1
  | none => 1

def bumpCatalogVersion (db : Database) : Except DbError Database := do
  require (Int4 (nextCatalogVersion db.catalogVersion)) .valueOutOfRange
  return {db with catalogVersion := some (nextCatalogVersion db.catalogVersion)}

/-- The products one after the other, each reading its inventory row first. The store
keeps the products that were committed before one failed. -/
def syncProducts (clock : Clock) : List ErpCatalogProduct → Database → Except DbError Unit × Database
  | [], db => (.ok (), db)
  | p :: rest, db =>
    match syncProduct clock (db.inventory.find? p.id) p db with
    | .ok db' => syncProducts clock rest db'
    | .error e => (.error e, db)

/-- The whole sync, with nothing in between. -/
def syncCatalog (clock : Clock) (erpProducts : List ErpCatalogProduct) (db : Database) :
    Except DbError Unit × Database :=
  match syncProducts clock erpProducts db with
  | (.error e, db') => (.error e, db')
  | (.ok (), db') =>
    let db'' := deactivateAbsent clock.now (erpProducts.map ErpCatalogProduct.id) db'
    match bumpCatalogVersion db'' with
    | .ok db''' => (.ok (), db''')
    | .error e => (.error e, db'')

/-! ### What a product's transaction can do -/

theorem bind_ok {α β : Type} {x : Except DbError α} {f : α → Except DbError β} {b : β} :
    (x >>= f) = .ok b ↔ ∃ a, x = .ok a ∧ f a = .ok b := by
  cases x with
  | error e => exact ⟨nofun, nofun⟩
  | ok a =>
    constructor
    · intro h
      exact ⟨a, rfl, h⟩
    · rintro ⟨a', ha, hf⟩
      cases ha
      exact hf

theorem require_ok {p : Prop} [Decidable p] {e : DbError} {u : Unit} : require p e = .ok u ↔ p := by
  unfold require
  by_cases h : p
  · rw [if_pos h]
    exact ⟨fun _ => h, fun _ => rfl⟩
  · rw [if_neg h]
    exact ⟨nofun, fun hp => absurd hp h⟩

/-- A relation that every write keeps holds across a list of writes. -/
theorem each_ok {α : Type} {f : α → Database → Except DbError Database}
    {R : Database → Database → Prop} (hrefl : ∀ db, R db db)
    (htrans : ∀ {a b c}, R a b → R b c → R a c) (hf : ∀ a db db', f a db = .ok db' → R db db')
    {as : List α} {db db' : Database} (h : each f as db = .ok db') : R db db' := by
  induction as generalizing db with
  | nil =>
    cases h
    exact hrefl _
  | cons a rest ih =>
    obtain ⟨db₁, h₁, hrest⟩ := bind_ok.mp h
    exact htrans (hf a db db₁ h₁) (ih hrest)

/-- Only device models and compatibilities were written. -/
structure SameButDevices (db db' : Database) : Prop where
  rest : db' = {db with deviceModels := db'.deviceModels, compatibilities := db'.compatibilities}

theorem SameButDevices.refl (db : Database) : SameButDevices db db := ⟨rfl⟩

theorem SameButDevices.trans {a b c : Database} (h : SameButDevices a b) (k : SameButDevices b c) :
    SameButDevices a c := by
  constructor
  rw [k.rest, h.rest]

theorem upsertDeviceModel_ok {clock : Clock} {c : ErpCatalogCompatibility} {db db' : Database}
    (h : upsertDeviceModel clock c db = .ok db') : SameButDevices db db' := by
  unfold upsertDeviceModel at h
  split at h
  · obtain ⟨_, _, h₁⟩ := bind_ok.mp h
    cases h₁
    exact ⟨rfl⟩
  · obtain ⟨_, _, h₁⟩ := bind_ok.mp h
    split at h₁
    · cases h₁
    · cases h₁
      exact ⟨rfl⟩

theorem createCompatibility_ok {p : ErpCatalogProduct} {d : DeviceModel} {db db' : Database}
    (h : createCompatibility p d db = .ok db') : SameButDevices db db' := by
  unfold createCompatibility at h
  split at h
  · cases h
  · cases h
    exact ⟨rfl⟩

theorem syncCompatibilities_ok {clock : Clock} {p : ErpCatalogProduct} {db db' : Database}
    (h : syncCompatibilities clock p db = .ok db') : SameButDevices db db' := by
  obtain ⟨db₁, h₁, hrest⟩ := bind_ok.mp h
  obtain ⟨deviceModels, _, h₂⟩ := bind_ok.mp hrest
  have hdelete : SameButDevices db (deleteCompatibilities p db) := ⟨rfl⟩
  have hupsert := each_ok SameButDevices.refl SameButDevices.trans
    (fun _ _ _ h => upsertDeviceModel_ok h) h₁
  have hcreate := each_ok SameButDevices.refl SameButDevices.trans
    (fun _ _ _ h => createCompatibility_ok h) h₂
  exact (hdelete.trans hupsert).trans hcreate

/-- The rows a product's transaction writes: the product's own in four tables, and the
two device tables. Orders, their items, the outbox, the idempotency rows and the
attempts are not touched. -/
structure Synced (clock : Clock) (current : Option Inventory) (p : ErpCatalogProduct)
    (db db' : Database) : Prop where
  sku : ∀ r ∈ db.products.rows, r.sku = p.sku → r.id = p.id
  price : Int4 p.priceCents
  quantity : Int4 p.erpQty
  available : Int4 (availability current p.erpQty)
  version : Int4 (syncedInventory current p db).version
  products : db'.products = db.products.set
    ⟨p.id, p.sku, p.name, some p.description, some p.imageUrl, some p.brand, p.active, clock.now⟩
  prices : db'.prices = db.prices.set ⟨p.id, p.priceCents, "BRL"⟩
  inventory : db'.inventory = db.inventory.set (syncedInventory current p db)
  others : db' = {db with
    products := db'.products
    prices := db'.prices
    inventory := db'.inventory
    stats := db'.stats
    deviceModels := db'.deviceModels
    compatibilities := db'.compatibilities}

theorem upsertStats_rest (p : ErpCatalogProduct) (db : Database) :
    upsertStats p db = {db with stats := (upsertStats p db).stats} := by
  unfold upsertStats
  split <;> rfl

theorem syncProduct_ok {clock : Clock} {current : Option Inventory} {p : ErpCatalogProduct}
    {db db' : Database} (h : syncProduct clock current p db = .ok db') :
    Synced clock current p db db' := by
  obtain ⟨db₁, hproduct, h₁⟩ := bind_ok.mp h
  obtain ⟨_, hsku, hdb₁⟩ := bind_ok.mp hproduct
  cases hdb₁
  obtain ⟨db₂, hprice, h₂⟩ := bind_ok.mp h₁
  obtain ⟨_, hcents, hdb₂⟩ := bind_ok.mp hprice
  cases hdb₂
  obtain ⟨db₃, hinventory, h₃⟩ := bind_ok.mp h₂
  obtain ⟨_, hqty, hdb₃⟩ := bind_ok.mp hinventory
  cases hdb₃
  have hdevices := (syncCompatibilities_ok h₃).rest
  rw [upsertStats_rest] at hdevices
  obtain ⟨hquantity, havailable, hversion⟩ := require_ok.mp hqty
  refine ⟨require_ok.mp hsku, require_ok.mp hcents, hquantity, havailable, hversion, ?_, ?_, ?_, ?_⟩
  · rw [hdevices]
  · rw [hdevices]
  · rw [hdevices]
    rfl
  · rw [hdevices]

/-! ### The whole sync -/

theorem syncProducts_version (clock : Clock) (products : List ErpCatalogProduct) (db : Database) :
    (syncProducts clock products db).2.catalogVersion = db.catalogVersion := by
  induction products generalizing db with
  | nil => rfl
  | cons p rest ih =>
    unfold syncProducts
    cases h : syncProduct clock (db.inventory.find? p.id) p db with
    | error e => rfl
    | ok db' =>
      dsimp only
      rw [ih, (syncProduct_ok h).others]

theorem bumpCatalogVersion_ok {db db' : Database} (h : bumpCatalogVersion db = .ok db') :
    db' = {db with catalogVersion := some (nextCatalogVersion db.catalogVersion)} := by
  obtain ⟨_, _, he⟩ := bind_ok.mp h
  cases he
  rfl

/-- A sync that returns, in three parts. -/
theorem syncCatalog_parts {clock : Clock} {products : List ErpCatalogProduct} {db db' : Database}
    (h : syncCatalog clock products db = (.ok (), db')) :
    ∃ db₁, syncProducts clock products db = (.ok (), db₁) ∧
      db' = {deactivateAbsent clock.now (products.map ErpCatalogProduct.id) db₁ with
        catalogVersion := some (nextCatalogVersion db₁.catalogVersion)} := by
  unfold syncCatalog at h
  cases hsync : syncProducts clock products db with
  | mk result db₁ =>
    rw [hsync] at h
    cases result with
    | error e => cases h
    | ok u =>
      dsimp only at h
      cases hbump : bumpCatalogVersion (deactivateAbsent clock.now (products.map ErpCatalogProduct.id) db₁) with
      | error e =>
        rw [hbump] at h
        cases h
      | ok db₂ =>
        rw [hbump] at h
        cases h
        exact ⟨db₁, rfl, bumpCatalogVersion_ok hbump⟩

/-- A sync that returns has left the next catalog version. -/
theorem syncCatalog_version {clock : Clock} {products : List ErpCatalogProduct} {db db' : Database}
    (h : syncCatalog clock products db = (.ok (), db')) :
    db'.catalogVersion = some (nextCatalogVersion db.catalogVersion) := by
  obtain ⟨db₁, hsync, rfl⟩ := syncCatalog_parts h
  have hproducts := syncProducts_version clock products db
  rw [hsync] at hproducts
  exact congrArg (fun row => some (nextCatalogVersion row)) hproducts

end CaseCellShop.Catalog
