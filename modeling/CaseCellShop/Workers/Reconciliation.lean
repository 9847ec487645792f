import CaseCellShop.Shop.Calls

/-! The reconciliation runner (`apps/reconciliation-worker/src/reconciliation.runner.ts`):
the catalog sync and the repair of orders the ERP has billed. -/
namespace CaseCellShop.Reconciliation
open Catalog Erp Program Shop

structure SyncResult where
  synced : Nat
  catalogVersion : Int
  deriving DecidableEq, Repr

/-- One product: its inventory row is read, then the rest of its transaction runs. -/
def syncOne (product : ErpCatalogProduct) : Worker Unit := do
  let current : Option Inventory ← request (.findInventory product.id)
  request (.syncProduct current product)

def syncCatalog : Worker SyncResult := do
  let erpProducts : List ErpCatalogProduct ← request .getProducts
  each syncOne erpProducts
  request (.deactivateAbsent (erpProducts.map ErpCatalogProduct.id))
  let catalogVersion : Int ← request .bumpCatalogVersion
  return ⟨erpProducts.length, catalogVersion⟩

structure ReconcileResult where
  repaired : Nat
  divergences : Nat
  deriving DecidableEq, Repr

/-- The loop over the fetched orders, with its two counters. -/
def reconcileEach : List Order → Nat → Nat → Worker ReconcileResult
  | [], repaired, divergences => return ⟨repaired, divergences⟩
  | order :: rest, repaired, divergences => do
    let billing : Option BillingReceipt ← request (.getBillingStatus order.id)
    match billing with
    | none => reconcileEach rest repaired (divergences + 1)
    | some receipt =>
      if receipt.invoiceId ≠ "" ∧ order.status ≠ .billed then do
        let _ ← request (.markBilled order.id receipt.invoiceId)
        reconcileEach rest (repaired + 1) divergences
      else if receipt.invoiceId = "" then reconcileEach rest repaired (divergences + 1)
      else reconcileEach rest repaired divergences

def reconcileOrders : Worker ReconcileResult := do
  let orders : List Order ← request .findUnbilledOrders
  reconcileEach orders 0 0

/-! ### The calls they make -/

def SyncCall : Call → Prop
  | .getProducts | .findInventory _ | .syncProduct _ _ | .deactivateAbsent _ | .bumpCatalogVersion => True
  | _ => False

theorem syncCatalog_calls : syncCatalog.OnlyCalls SyncCall := by
  apply onlyCalls_bind (onlyCalls_call trivial)
  intro products
  apply onlyCalls_bind
  · apply onlyCalls_each
    intro product _
    exact onlyCalls_bind (onlyCalls_call trivial) fun _ => onlyCalls_call trivial
  · intro _
    apply onlyCalls_bind (onlyCalls_call trivial)
    intro _
    exact onlyCalls_bind (onlyCalls_call trivial) fun _ => trivial

def ReconcileCall : Call → Prop
  | .findUnbilledOrders | .getBillingStatus _ | .markBilled _ _ => True
  | _ => False

theorem reconcileEach_calls (orders : List Order) (repaired divergences : Nat) :
    (reconcileEach orders repaired divergences).OnlyCalls ReconcileCall := by
  induction orders generalizing repaired divergences with
  | nil => trivial
  | cons order rest ih =>
    refine onlyCalls_bind (onlyCalls_call trivial) fun billing => ?_
    cases billing with
    | none => exact ih _ _
    | some receipt =>
      dsimp only
      by_cases hmark : receipt.invoiceId ≠ "" ∧ order.status ≠ .billed
      · rw [if_pos hmark]
        exact onlyCalls_bind (onlyCalls_call trivial) fun _ => ih _ _
      · rw [if_neg hmark]
        by_cases hempty : receipt.invoiceId = ""
        · rw [if_pos hempty]
          exact ih _ _
        · rw [if_neg hempty]
          exact ih _ _

theorem reconcileOrders_calls : reconcileOrders.OnlyCalls ReconcileCall :=
  onlyCalls_bind (onlyCalls_call trivial) fun orders => reconcileEach_calls orders 0 0

/-! ### A sync with nothing in between -/

variable (P : Checkout.Platform)

theorem syncEach_run (products : List ErpCatalogProduct) (w : World) :
    (each syncOne products).run (execute P) w =
      match syncProducts w.clock products w.db with
      | (.ok (), db) => (.ok (), {w with db := db})
      | (.error e, db) => (.error (P.errorText e), {w with db := db}) := by
  induction products generalizing w with
  | nil => rfl
  | cons product rest ih =>
    show (syncOne product >>= fun _ => each syncOne rest).run (execute P) w = _
    have hone : (syncOne product).run (execute P) w =
        ((w.write P (Catalog.syncProduct w.clock (w.db.inventory.find? product.id) product w.db)).2,
          (w.write P (Catalog.syncProduct w.clock (w.db.inventory.find? product.id) product w.db)).1) := rfl
    rw [run_bind, hone]
    unfold syncProducts
    cases Catalog.syncProduct w.clock (w.db.inventory.find? product.id) product w.db with
    | error e => rfl
    | ok db => exact ih {w with db := db}

/-- Run alone, the worker's sync is the sync of the store. -/
theorem syncCatalog_run (w : World) :
    syncCatalog.run (execute P) w =
      match Catalog.syncCatalog w.clock w.erp.catalog w.db with
      | (.ok (), db) => (.ok ⟨w.erp.catalog.length, nextCatalogVersion w.db.catalogVersion⟩, {w with db := db})
      | (.error e, db) => (.error (P.errorText e), {w with db := db}) := by
  show (each syncOne w.erp.catalog >>= fun _ => do
    request (.deactivateAbsent (w.erp.catalog.map ErpCatalogProduct.id))
    let catalogVersion : Int ← request .bumpCatalogVersion
    return (⟨w.erp.catalog.length, catalogVersion⟩ : SyncResult)).run (execute P) w = _
  have hversion := syncProducts_version w.clock w.erp.catalog w.db
  rw [run_bind, syncEach_run]
  unfold Catalog.syncCatalog
  rcases hsync : syncProducts w.clock w.erp.catalog w.db with ⟨result, db⟩
  rw [hsync] at hversion
  cases result with
  | error e => rfl
  | ok u =>
    have hnext : nextCatalogVersion (deactivateAbsent w.clock.now (w.erp.catalog.map ErpCatalogProduct.id) db).catalogVersion =
        nextCatalogVersion w.db.catalogVersion := congrArg nextCatalogVersion hversion
    show (request .bumpCatalogVersion >>= fun catalogVersion : Int =>
        (return (⟨w.erp.catalog.length, catalogVersion⟩ : SyncResult) : Worker SyncResult)).run (execute P)
          {w with db := deactivateAbsent w.clock.now (w.erp.catalog.map ErpCatalogProduct.id) db} = _
    rw [← hnext]
    dsimp only
    generalize deactivateAbsent w.clock.now (w.erp.catalog.map ErpCatalogProduct.id) db = db'
    have hcall : (request .bumpCatalogVersion : Worker Int).run (execute P) {w with db := db'} =
        ((execute P {w with db := db'} .bumpCatalogVersion).2,
          (execute P {w with db := db'} .bumpCatalogVersion).1) := rfl
    rw [run_bind, hcall]
    simp only [execute]
    cases bumpCatalogVersion db' with
    | error e => rfl
    | ok db'' => rfl

end CaseCellShop.Reconciliation
