import CaseCellShop.Catalog.Convergence
import CaseCellShop.Shop.Sequential

/-! Syncs after a history of checkouts and syncs.

Whatever the history, the slugs are unique, so a sync of a consistent catalog fails
only over a sku or a device that some row still has when another takes it, or over a
number that its column cannot hold (`sync_returns_iff`). Nothing makes a catalog name
the products in an order that avoids this, and for two skus that change places there is
none. -/
namespace CaseCellShop.Shop
open Catalog Checkout UniqueColumn

inductive Change where
  | checkout (input : CheckoutInput)
  | syncCatalog (clock : Clock) (catalog : List ErpCatalogProduct)

def change (P : Platform) (db : Database) : Change → Database
  | .checkout input => (Checkout.checkout P input db).2.1
  | .syncCatalog clock catalog => (Catalog.syncCatalog clock catalog db).2

def histories (P : Platform) : Steps.System Database Change := ⟨fun db c => some (change P db c)⟩

variable {P : Platform}

theorem checkout_slugs (input : CheckoutInput) {db : Database} (hdb : UniqueSlugs db) :
    UniqueSlugs (Checkout.checkout P input db).2.1 := by
  rcases checkout_db P input db with hsame | ⟨_, _, _, _, _, _, hacc⟩
  · rwa [hsame]
  · rw [hacc.others]
    exact hdb

theorem change_slugs {db : Database} (c : Change) (hdb : UniqueSlugs db) : UniqueSlugs (change P db c) := by
  cases c with
  | checkout input => exact checkout_slugs input hdb
  | syncCatalog clock catalog => exact syncCatalog_slugs clock catalog hdb

theorem history_slugs {db : Database} {changes : List Change} (h : (histories P).run .empty changes = some db) :
    UniqueSlugs db := by
  refine Steps.System.run_invariant (I := UniqueSlugs) ?_ (fun _ hd => by cases hd) h
  intro s c s' hs hstep
  cases hstep
  exact change_slugs c hs

/-- A sync of the history: of a consistent catalog, and successful. -/
def SuccessfulSync (db : Database) : Change → Prop
  | .checkout _ => True
  | .syncCatalog clock catalog =>
    ConsistentCatalog catalog ∧ NewDeviceIds clock db ∧ (Catalog.syncCatalog clock catalog db).1 = .ok ()

/-- After any history, a sync of a consistent catalog returns exactly if every sku and
every device that changes hands is given up before it is taken, and the numbers fit. -/
theorem sync_returns_iff (P : Platform) (changes : List Change) (db : Database)
    (h : (histories P).run .empty changes = some db) (clock : Clock) (hclock : NewDeviceIds clock db)
    (catalog : List ErpCatalogProduct) (hcatalog : ConsistentCatalog catalog) :
    (Catalog.syncCatalog clock catalog db).1 = .ok () ↔
      MovesInOrder (skuColumn db) (catalog.map skuEntry) ∧ MovesInOrder (deviceColumn db) (deviceEntries catalog) ∧
        (∀ p ∈ catalog, Fits db [] p) ∧ Int4 (nextCatalogVersion db.catalogVersion) :=
  syncCatalog_iff ⟨history_slugs h, hclock⟩ hcatalog

/-! ### Two products -/

/-- A clock that has named all device models so far. -/
theorem plainClock_new {db : Database} (h : ∀ d ∈ db.deviceModels.rows, d.id = "device-" ++ d.slug) :
    NewDeviceIds plainClock db := by
  constructor
  · intro slug slug' he
    exact (String.append_right_inj "device-").mp he
  · intro slug hnone d hd he
    have hslug : d.slug = slug := (String.append_right_inj "device-").mp ((h d hd).symm.trans he)
    exact findSlug_eq_none.mp hnone d hd hslug

/-- The ERP gives each of two products the sku of the other. -/
theorem sync_fails_on_swap :
    ¬∀ (P : Platform) (changes : List Change) (db : Database), (histories P).Guarded SuccessfulSync .empty changes →
      (histories P).run .empty changes = some db →
        ∀ clock, NewDeviceIds clock db → ∀ catalog, ConsistentCatalog catalog →
          (Catalog.syncCatalog clock catalog db).1 = .ok () := by
  intro h
  have hrun := (histories plainPlatform).run_after .empty
    [.syncCatalog plainClock [stocked "p1" "s1" 3, stocked "p2" "s2" 3]] (by decide +kernel)
  have hfirst : ConsistentCatalog [stocked "p1" "s1" 3, stocked "p2" "s2" 3] :=
    ⟨by decide, by decide, by decide, by decide⟩
  have hguarded : (histories plainPlatform).Guarded SuccessfulSync .empty
      [.syncCatalog plainClock [stocked "p1" "s1" 3, stocked "p2" "s2" 3]] :=
    ⟨⟨hfirst, plainClock_new (by decide), by decide +kernel⟩, fun _ _ => trivial⟩
  have hok := h plainPlatform _ _ hguarded hrun plainClock (plainClock_new (by decide +kernel))
    [stocked "p1" "s2" 3, stocked "p2" "s1" 3] ⟨by decide, by decide, by decide, by decide⟩
  revert hok
  decide +kernel

/-- A product that has left the catalog and returns gives up its sku before another
takes it. -/
theorem sync_returns_in_order : ∃ db,
    (histories plainPlatform).run .empty [.syncCatalog plainClock [stocked "p1" "s1" 3],
      .checkout (orderRequest "c1" "k" "o1" [⟨"p1", 2⟩]), .syncCatalog plainClock [stocked "p2" "s2" 3]] = some db ∧
    MovesInOrder (skuColumn db) [("p1", "s3"), ("p2", "s1")] :=
  have hrun := (histories plainPlatform).run_after .empty [.syncCatalog plainClock [stocked "p1" "s1" 3],
      .checkout (orderRequest "c1" "k" "o1" [⟨"p1", 2⟩]), .syncCatalog plainClock [stocked "p2" "s2" 3]]
    (by decide +kernel)
  ⟨_, hrun, ((sync_returns_iff plainPlatform _ _ hrun plainClock (plainClock_new (by decide +kernel))
    [stocked "p1" "s3" 3, stocked "p2" "s1" 3]
    ⟨by decide, by decide, by decide, by decide⟩).mp (by decide +kernel)).1⟩

end CaseCellShop.Shop
