import CaseCellShop.Products.Query
import Mathlib.Data.List.Sort

/-! Reading products from the store (`ProductsService.fetchProducts`). -/
namespace CaseCellShop.Products

/-- A product card. -/
structure ProductListItem where
  id : String
  sku : String
  name : String
  imageUrl : Option String
  brand : Option String
  priceCents : Int
  currency : String
  availableQty : Int
  inStock : Bool
  deriving DecidableEq, Repr

/-- `inventory?.availableQty ?? 0` -/
def availableQty (db : Database) (productId : String) : Int :=
  ((db.inventory.find? productId).map Inventory.availableQty).getD 0

/-- The card of a product. -/
def toListItem (db : Database) (product : Product) : ProductListItem where
  id := product.id
  sku := product.sku
  name := product.name
  imageUrl := product.imageUrl
  brand := product.brand
  priceCents := ((db.prices.find? product.id).map ProductPrice.priceCents).getD 0
  currency := ((db.prices.find? product.id).map ProductPrice.currency).getD "BRL"
  availableQty := availableQty db product.id
  inStock := 0 < availableQty db product.id

/-- The card says of its product what the inventory row says. -/
structure Carries (db : Database) (card : ProductListItem) : Prop where
  quantity : card.availableQty = availableQty db card.id
  inStock : card.inStock = decide (0 < availableQty db card.id)

instance (db : Database) (card : ProductListItem) : Decidable (Carries db card) :=
  decidable_of_iff (card.availableQty = availableQty db card.id ∧ card.inStock = decide (0 < availableQty db card.id))
    ⟨fun h => ⟨h.1, h.2⟩, fun h => ⟨h.1, h.2⟩⟩

/-- A card stays right as long as its inventory row does not change. -/
theorem Carries.of_row {db db' : Database} {card : ProductListItem} (h : Carries db card)
    (hrow : db'.inventory.find? card.id = db.inventory.find? card.id) : Carries db' card := by
  have hqty : availableQty db' card.id = availableQty db card.id := by
    unfold availableQty
    rw [hrow]
  constructor
  · rw [hqty]
    exact h.quantity
  · rw [hqty]
    exact h.inStock

/-! ### Filter -/

/-- `compatibilities: { some: { deviceModel: { slug } } }` -/
def compatibleWith (db : Database) (slug : String) (product : Product) : Bool :=
  db.compatibilities.rows.any fun c =>
    c.productId = product.id && db.deviceModels.rows.any fun d => d.id = c.deviceModelId && d.slug = slug

/-- The `where` of the query; `only` is the further condition on the id. -/
def selected (P : Platform) (db : Database) (query : NormalizedQuery) (only : Option (List String))
    (product : Product) : Bool :=
  product.active && only.all (fun ids => product.id ∈ ids) &&
    (query.brand = "" || product.brand.any fun brand => P.insensitiveEquals brand query.brand) &&
    (query.device = "" || compatibleWith db query.device product)

/-! ### Order -/

/-- Ascending, a missing value last. -/
def ascending : Option Int → Option Int → Ordering
  | none, none => .eq
  | none, some _ => .gt
  | some _, none => .lt
  | some a, some b => compare a b

def priceOf (db : Database) (product : Product) : Option Int :=
  (db.prices.find? product.id).map ProductPrice.priceCents

def popularityOf (db : Database) (product : Product) : Option Int :=
  (db.stats.find? product.id).map ProductStats.popularityScore

def buildOrderBy (P : Platform) (db : Database) (sort : String) (a b : Product) : Ordering :=
  if sort = "price_asc" then (ascending (priceOf db a) (priceOf db b)).then (P.collate a.id b.id)
  else if sort = "price_desc" then (ascending (priceOf db b) (priceOf db a)).then (P.collate a.id b.id)
  else (ascending (popularityOf db b) (popularityOf db a)).then
    ((compare b.updatedAt a.updatedAt).then (P.collate a.id b.id))

/-! ### Window -/

/-- A `skip` or `take` the database client accepts. -/
def windowNumber : JsNumber → Option Nat
  | .finite n => if n.den = 1 ∧ 0 ≤ n ∧ n < 2 ^ 63 then some n.num.toNat else none
  | _ => none

/-- `(query.page - 1) * query.pageSize` -/
def skipOf (query : NormalizedQuery) : JsNumber := (query.page.sub (.finite 1)).mul query.pageSize

def fetchProducts (P : Platform) (db : Database) (query : NormalizedQuery) (only : Option (List String)) :
    Except String (List ProductListItem) :=
  match windowNumber (skipOf query), windowNumber query.pageSize with
  | some skip, some take =>
    let products := (db.products.rows.filter (selected P db query only)).insertionSort fun a b =>
      buildOrderBy P db query.sort a b ≠ .gt
    .ok (((products.drop skip).take take).map (toListItem db))
  | _, _ => .error P.invalidArgument

/-- Every card fetched is that of a selected product. -/
theorem fetchProducts_mem {P : Platform} {db : Database} {query : NormalizedQuery} {only : Option (List String)}
    {items : List ProductListItem} (h : fetchProducts P db query only = .ok items) :
    ∀ item ∈ items, ∃ product ∈ db.products.rows, selected P db query only product ∧
    item = toListItem db product := by
  unfold fetchProducts at h
  split at h
  · cases h
    intro item hitem
    obtain ⟨product, hproduct, rfl⟩ := List.mem_map.mp hitem
    have hmem := List.mem_of_mem_drop (List.mem_of_mem_take hproduct)
    rw [List.mem_insertionSort, List.mem_filter] at hmem
    exact ⟨product, hmem.1, hmem.2, rfl⟩
  · cases h

end CaseCellShop.Products
