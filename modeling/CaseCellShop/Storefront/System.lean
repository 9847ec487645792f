import CaseCellShop.Library.Interleave
import CaseCellShop.Products.Service

/-! The API processes as one machine.

Any number of product reads and checkouts run at the same time, one call to the store or
the cache at a time; the transaction of a checkout is one call, since it commits
entirely or not at all. Entries of the cache may expire between any two calls. -/
namespace CaseCellShop.Storefront
open Products Program Shop

inductive Task where
  | listProducts (query : ProductQuery)
  | getProductById (id : String)
  | checkout (input : Checkout.CheckoutInput)

inductive Event where
  | expireQuery (key : String)
  | expireCard (key : String)
  | expireLock (key : String)

/-- A request whose response nobody reads. -/
def unread {α : Type} (p : Api α) : Api Unit := do
  let _ ← p

def Task.program (P : Products.Platform) : Task → Api Unit
  | .listProducts query => unread (Products.listProducts P query)
  | .getProductById id => unread (Products.getProductById id)
  | .checkout input => unread (Products.checkout P input)

def onEvent (w : Products.World) : Event → Option Products.World
  | .expireQuery key => some ⟨w.shop, w.redis.expireQuery key⟩
  | .expireCard key => some ⟨w.shop, w.redis.expireCard key⟩
  | .expireLock key => some ⟨w.shop, w.redis.expireLock key⟩

def machine (P : Products.Platform) :
    Machine Products.World Task Reply Event Products.Call String Products.Answer where
  perform := Products.perform P
  start w task := some (w, task.program P)
  crash w _ := w
  environment := onEvent

abbrev Config := Machine.Config Products.World Task Products.Call String Products.Answer

abbrev Action := Machine.Action Task Reply Event

/-! ### A checkout -/

variable {P : Products.Platform}

/-- What a transaction leaves as it was. -/
structure BoughtOnly (bought : List String) (db db' : Database) : Prop where
  rows : ∀ id, id ∉ bought → db'.inventory.find? id = db.inventory.find? id
  catalogVersion : db'.catalogVersion = db.catalogVersion

theorem accepted_boughtOnly {call : Checkout.CheckoutCall} {attempt : Checkout.Attempt} {db db' : Database}
    {result : Checkout.CheckoutResult} {items : List Checkout.PricedItem}
    (h : Checkout.Accepted call attempt db db db' result items) :
    BoughtOnly (call.lines.map Checkout.CheckoutLine.productId) db db' := by
  constructor
  · intro id hid
    apply h.reserved.find?_other
    intro line hline he
    exact hid (he ▸ List.mem_map_of_mem hline)
  · rw [h.others]

/-- A transaction that throws changes nothing, and one that returns writes no inventory
row but those of the products it buys. -/
theorem runTransaction_cases (w : Products.World) (input : Checkout.CheckoutInput) :
    (∃ message, runTransaction P w input = (w, .error message)) ∨
      ∃ result db, runTransaction P w input = (⟨{w.shop with db := db}, w.redis⟩, .ok result) ∧
        BoughtOnly (boughtProducts P input.body) w.shop.db db := by
  have hends := Checkout.checkout_ends P.toPlatform {input with invalidationFault := none} w.shop.db rfl
  unfold runTransaction
  rcases hrun : Checkout.checkout P.toPlatform {input with invalidationFault := none} w.shop.db with
    ⟨result, db, telemetry⟩
  rw [hrun] at hends
  rcases hends with ⟨error, rfl, rfl⟩ | ⟨result, rfl, hdb⟩
  · exact .inl ⟨_, rfl⟩
  · refine .inr ⟨result, db, rfl, ?_⟩
    rcases hdb with rfl | ⟨customerId, key, n, items, hacc⟩
    · exact ⟨fun _ _ => rfl, rfl⟩
    · exact accepted_boughtOnly hacc

end CaseCellShop.Storefront
