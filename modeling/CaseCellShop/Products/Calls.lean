import CaseCellShop.Checkout.Service
import CaseCellShop.Products.Fetch
import CaseCellShop.Shop.Calls

/-! The calls that the product code and a checkout await, and what each does to the
store and the cache (`libs/cache/src/cache.service.ts`).

The cache holds three kinds of entries, told apart by the first words of their keys:
query lists, product cards and locks. An entry may expire at any time, so the times to
live are only recorded. -/
namespace CaseCellShop.Products
open Shop

structure Redis where
  queries : String → Option (List String)
  cards : String → Option ProductListItem
  locks : String → Bool

def Redis.empty : Redis := ⟨fun _ => none, fun _ => none, fun _ => false⟩

/-! An entry that expires or is deleted. -/

def Redis.expireQuery (redis : Redis) (key : String) : Redis :=
  {redis with queries := Function.update redis.queries key none}

def Redis.expireCard (redis : Redis) (key : String) : Redis :=
  {redis with cards := Function.update redis.cards key none}

def Redis.expireLock (redis : Redis) (key : String) : Redis :=
  {redis with locks := Function.update redis.locks key false}

/-- What is left after an entry is gone was there before. -/
theorem update_none {κ α : Type} [DecidableEq κ] {entries : κ → Option α} {key key' : κ} {a : α}
    (h : Function.update entries key none key' = some a) : entries key' = some a := by
  by_cases he : key' = key
  · rw [he, Function.update_self] at h
    cases h
  · rwa [Function.update_of_ne he] at h

/-- The back office and the cache. -/
structure World where
  shop : Shop.World
  redis : Redis

/-- A store with nothing cached. -/
def World.opening (shop : Shop.World) : World := ⟨shop, .empty⟩

inductive Call where
  | findCatalogVersion
  | fetchProducts (query : NormalizedQuery) (only : Option (List String))
  | getIds (key : String)
  | getCard (key : String)
  | getCards (keys : List String)
  | setIds (key : String) (ids : List String) (ttlSeconds : Nat)
  | setCard (key : String) (card : ProductListItem) (ttlSeconds : Nat)
  | deleteCard (key : String)
  | acquireLock (key : String) (ttlSeconds : Nat)
  | releaseLock (key : String)
  /-- The transaction of a checkout with its retries. -/
  | checkoutTransaction (input : Checkout.CheckoutInput)

/-- What each call answers. -/
@[reducible] def Answer : Call → Type
  | .findCatalogVersion => Option Int
  | .fetchProducts _ _ => List ProductListItem
  | .getIds _ => Option (List String)
  | .getCard _ => Option ProductListItem
  | .getCards _ => List (Option ProductListItem)
  | .acquireLock _ _ => Bool
  | .checkoutTransaction _ => Checkout.CheckoutResult
  | _ => Unit

/-- The program type of the API. -/
abbrev Api (α : Type) := Program Call Answer String α

abbrev request (q : Call) : Api (Answer q) := Program.call q

/-- The text of a checkout's exception. -/
def checkoutMessage (P : Platform) : Checkout.CheckoutError → String
  | .badRequest message | .conflict message | .unprocessableEntity message => message
  | .database error => P.errorText error

/-- A checkout up to its commit; the invalidation that follows is made of calls of its
own. -/
def runTransaction (P : Platform) (w : World) (input : Checkout.CheckoutInput) :
    World × Except String Checkout.CheckoutResult :=
  match Checkout.checkout P.toPlatform {input with invalidationFault := none} w.shop.db with
  | (.ok result, db, _) => ({w with shop := {w.shop with db := db}}, .ok result)
  | (.error error, db, _) => ({w with shop := {w.shop with db := db}}, .error (checkoutMessage P error))

/-- A call that takes effect, and its answer. -/
def execute (P : Platform) (w : World) : (q : Call) → World × Except String (Answer q)
  | .findCatalogVersion => (w, .ok w.shop.db.catalogVersion)
  | .fetchProducts query only => (w, Products.fetchProducts P w.shop.db query only)
  | .getIds key => (w, .ok (w.redis.queries key))
  | .getCard key => (w, .ok (w.redis.cards key))
  | .getCards keys => (w, .ok (keys.map w.redis.cards))
  | .setIds key ids _ =>
    ({w with redis := {w.redis with queries := Function.update w.redis.queries key (some ids)}}, .ok ())
  | .setCard key card _ =>
    ({w with redis := {w.redis with cards := Function.update w.redis.cards key (some card)}}, .ok ())
  | .deleteCard key => ({w with redis := w.redis.expireCard key}, .ok ())
  | .acquireLock key _ =>
    ({w with redis := {w.redis with locks := Function.update w.redis.locks key true}}, .ok !w.redis.locks key)
  | .releaseLock key => ({w with redis := w.redis.expireLock key}, .ok ())
  | .checkoutTransaction input => runTransaction P w input

/-- A call under the reply it meets. -/
def perform (P : Platform) (w : World) (q : Call) : Reply → World × Except String (Answer q)
  | .answered => execute P w q
  | .failed message => (w, .error message)
  | .lost message => ((execute P w q).1, .error message)

end CaseCellShop.Products
