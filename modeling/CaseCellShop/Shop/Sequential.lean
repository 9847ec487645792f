import CaseCellShop.Shop.Stock

/-! Checkouts and product syncs one at a time.

With nothing between a sync's reading and its write the reading always stands, so the
rows stay consistent whatever the ERP reports, but for one case: the create branch
writes the quantity as it is, where the update branch cuts it off at zero. -/
namespace CaseCellShop.Shop
open Catalog Checkout

inductive Operation where
  | checkout (input : CheckoutInput)
  | syncProduct (clock : Clock) (product : ErpCatalogProduct)

/-- The transaction of a product, its reading included. -/
def syncAtOnce (clock : Clock) (product : ErpCatalogProduct) (db : Database) : Except DbError Database :=
  Catalog.syncProduct clock (db.inventory.find? product.id) product db

/-- One operation; a transaction that fails leaves the store as it was. -/
def operate (P : Platform) (db : Database) : Operation → Database
  | .checkout input => (Checkout.checkout P input db).2.1
  | .syncProduct clock product =>
    match syncAtOnce clock product db with
    | .ok db' => db'
    | .error _ => db

def sequential (P : Platform) : Steps.System Database Operation := ⟨fun db operation => some (operate P db operation)⟩

/-- A sync that goes through does not create a row from a negative quantity. -/
def CreatesFromStock (db : Database) : Operation → Prop
  | .checkout _ => True
  | .syncProduct clock product =>
    (syncAtOnce clock product db).isOk → db.inventory.find? product.id = none → 0 ≤ product.erpQty

instance (db : Database) (operation : Operation) : Decidable (CreatesFromStock db operation) := by
  cases operation <;> dsimp only [CreatesFromStock] <;> infer_instance

variable {P : Platform}

/-- A reading that nothing came after stands. -/
theorem readingStands_now (product : ErpCatalogProduct) (inventory : Table Inventory.productId) :
    ReadingStands (inventory.find? product.id) product inventory := by
  unfold ReadingStands
  cases h : inventory.find? product.id with
  | none => trivial
  | some row => exact .inl rfl

theorem operate_consistent {db : Database} {operation : Operation} (hdb : StockConsistent db.inventory)
    (hcreates : CreatesFromStock db operation) : StockConsistent (operate P db operation).inventory := by
  cases operation with
  | checkout input => exact (checkout_stock P input hdb).1
  | syncProduct clock product =>
    cases hsync : syncAtOnce clock product db with
    | error e =>
      simp only [operate, hsync]
      exact hdb
    | ok db' =>
      simp only [operate, hsync]
      have hqty : db.inventory.find? product.id = none → 0 ≤ product.erpQty := hcreates (by rw [hsync]; rfl)
      exact synced_consistent (syncProduct_ok hsync) hqty (readingStands_now product db.inventory) hdb

/-- In every run whose syncs create no row from a negative quantity every row has the
availability of its quantities, and so has the row that the next sync leaves, whichever
its branch. -/
theorem availability_consistent (P : Platform) (db db' : Database) (operations : List Operation)
    (hdb : StockConsistent db.inventory) (hcreates : (sequential P).Guarded CreatesFromStock db operations)
    (hr : (sequential P).run db operations = some db') :
    (∀ row ∈ db'.inventory.rows, row.availableQty = max (row.erpQty - row.reservedQty) 0 ∧ 0 ≤ row.availableQty) ∧
      ∀ clock product, CreatesFromStock db' (.syncProduct clock product) →
        (syncAtOnce clock product db').isOk →
          (syncedInventory (db'.inventory.find? product.id) product db').availableQty =
            max (product.erpQty - readReserved (db'.inventory.find? product.id)) 0 := by
  have hconsistent : StockConsistent db'.inventory := by
    refine Steps.System.run_guarded (I := fun db => StockConsistent db.inventory) ?_ hdb hcreates hr
    intro s operation s' hs hC hstep
    cases hstep
    exact operate_consistent hs hC
  refine ⟨fun row hrow => ?_, fun clock product hC hok => ?_⟩
  · have hrow' := hconsistent row hrow
    unfold Consistent at hrow'
    omega
  · have hqty := hC hok
    unfold syncedInventory
    cases hrow : db'.inventory.find? product.id with
    | none =>
      have hpos := hqty hrow
      show product.erpQty = max (product.erpQty - 0) 0
      omega
    | some row => rfl

def stocked (id sku : String) (erpQty : Int) : ErpCatalogProduct :=
  ⟨id, sku, "Case", "", "", "acme", true, 1000, erpQty, []⟩

def plainClock : Clock := ⟨0, fun slug => "device-" ++ slug⟩

/-- A new product of which the ERP reports one unit less than none. -/
theorem availability_negative :
    ¬∀ (P : Platform) (db db' : Database) (operations : List Operation), StockConsistent db.inventory →
      (sequential P).run db operations = some db' →
        ∀ row ∈ db'.inventory.rows, row.availableQty = max (row.erpQty - row.reservedQty) 0 ∧
        0 ≤ row.availableQty := by
  intro h
  have hrows := h plainPlatform .empty _ [.syncProduct plainClock (stocked "p1" "s1" (-1))] (fun _ hrow => by cases hrow)
    ((sequential plainPlatform).run_after _ _ (by decide +kernel))
  revert hrows
  decide +kernel

/-- A product is synced, bought, and synced again when its stock has dropped below what is
reserved, and then below zero. -/
theorem availability_consistent_dropping : ∃ db',
    (sequential plainPlatform).run .empty [.syncProduct plainClock (stocked "p1" "s1" 3),
      .checkout (orderRequest "c1" "k" "o1" [⟨"p1", 2⟩]), .syncProduct plainClock (stocked "p1" "s1" 1),
      .syncProduct plainClock (stocked "p1" "s1" (-1))] = some db' ∧
    ∀ row ∈ db'.inventory.rows, row.availableQty = max (row.erpQty - row.reservedQty) 0 ∧ 0 ≤ row.availableQty :=
  have hrun := (sequential plainPlatform).run_after .empty [.syncProduct plainClock (stocked "p1" "s1" 3),
    .checkout (orderRequest "c1" "k" "o1" [⟨"p1", 2⟩]), .syncProduct plainClock (stocked "p1" "s1" 1),
    .syncProduct plainClock (stocked "p1" "s1" (-1))] (by decide +kernel)
  ⟨_, hrun, (availability_consistent plainPlatform .empty _ _ (fun _ hrow => by cases hrow) (by decide +kernel) hrun).1⟩

end CaseCellShop.Shop
