import CaseCellShop.Checkout.Range
import CaseCellShop.Library.Refinement
import CaseCellShop.Products.Cache
import CaseCellShop.Products.CacheKeys
import CaseCellShop.Shop.System
import CaseCellShop.Storefront.Freshness
import CaseCellShop.Storefront.System

/-! The API over the texts of Redis, beside the back office.

The processes share one keyspace of texts, any entry of which may expire at any time, and
the workers of the back office write to the store between any two calls. Lists, cards and
locks are told apart by the words their keys begin with, no process looks a text up under
another word than it was written under, and what `JSON.stringify` wrote is what
`JSON.parse` returns. So every run of the API over Redis is one of the API over a cache of
lists, cards and locks (`entries_refine`). -/
namespace CaseCellShop.Storefront
open Products Program Shop

/-! ### The machine -/

/-- What the back office does next: a call of one of its workers, or an event of its own. -/
inductive Office where
  | call (q : Shop.Call) (reply : Reply)
  | event (e : Shop.Event)

def Office.act (P : Products.Platform) (w : Shop.World) : Office → Option Shop.World
  | .call q reply => some (Shop.perform P.toPlatform w q reply).1
  | .event e => Shop.onEvent P.toPlatform w e

/-- What happens beside the API. -/
inductive Beside (E : Type) where
  /-- An entry's time is over. -/
  | expiry (e : E)
  | office (o : Office)

def Beside.map {E E' : Type} (f : E → E') : Beside E → Beside E'
  | .expiry e => .expiry (f e)
  | .office o => .office o

def onTexts (P : Products.Platform) (w : Cache.World) : Beside String → Option Cache.World
  | .expiry key => some (w.drop key)
  | .office o => (o.act P w.shop).map fun shop => {w with shop := shop}

def onEntries (P : Products.Platform) (w : Products.World) : Beside Event → Option Products.World
  | .expiry e => onEvent w e
  | .office o => (o.act P w.shop).map fun shop => {w with shop := shop}

/-- The API over Redis. -/
def entriesMachine (P : Products.Platform) :
    Machine Cache.World Task Reply (Beside String) Products.Call String Products.Answer where
  perform := Cache.perform P
  start w task := some (w, task.program P)
  crash w _ := w
  environment := onTexts P

/-- The API over lists, cards and locks. -/
def officeMachine (P : Products.Platform) :
    Machine Products.World Task Reply (Beside Event) Products.Call String Products.Answer where
  perform := (machine P).perform
  start := (machine P).start
  crash := (machine P).crash
  environment := onEntries P

/-! ### Kinds of keys -/

inductive Kind where
  | list
  | card
  | lock
  deriving DecidableEq, Repr

/-- The word that the keys of a kind begin with. -/
def Kind.word : Kind → String
  | .list => "products:query:v"
  | .card => "product:card:v"
  | .lock => "lock:"

def Kind.Has (kind : Kind) (key : String) : Prop := kind.word.toList <+: key.toList

instance (kind : Kind) : DecidablePred kind.Has :=
  fun key => inferInstanceAs (Decidable (kind.word.toList <+: key.toList))

theorem Kind.word_apart : ∀ kind kind' : Kind, kind.word.toList <+: kind'.word.toList → kind = kind' := by
  rintro (_ | _ | _) (_ | _ | _) <;> decide

theorem Kind.unique {kind kind' : Kind} {key : String} (h : kind.Has key) (h' : kind'.Has key) : kind = kind' := by
  rcases List.prefix_or_prefix_of_prefix h h' with hword | hword
  · exact Kind.word_apart _ _ hword
  · exact (Kind.word_apart _ _ hword).symm

theorem Kind.has_append {kind : Kind} {word : String} (h : kind.word.toList <+: word.toList) (rest : String) :
    kind.Has (word ++ rest) := by
  rw [Kind.Has, String.toList_append]
  exact h.trans (List.prefix_append _ _)

theorem list_has (P : Products.Platform) (v : Int) (query : NormalizedQuery) :
    Kind.list.Has (buildProductsQueryCacheKey P v query) := by
  rw [queryKey_shown, String.append_assoc, String.append_assoc]
  exact Kind.has_append List.prefix_rfl _

theorem card_has (v : Int) (id : String) : Kind.card.Has (productCardKey v id) := by
  show Kind.card.Has ("product:card:v" ++ versionText v ++ ":" ++ id)
  rw [String.append_assoc, String.append_assoc]
  exact Kind.has_append List.prefix_rfl _

theorem queryLock_has (queryKey : String) : Kind.lock.Has (queryLockKey queryKey) :=
  Kind.has_append List.prefix_rfl queryKey

theorem hydrationLock_has (P : Products.Platform) (v : Int) (missingIds : List String) :
    Kind.lock.Has (buildProductHydrationLockKey P v missingIds) := by
  have hword : Kind.lock.word.toList <+: "lock:product:hydrate:v".toList := by decide
  unfold buildProductHydrationLockKey
  generalize versionText v = version
  rw [String.append_assoc, String.append_assoc]
  exact Kind.has_append hword _

/-! ### What the texts hold -/

variable (P : Products.Platform)

/-- The text of an entry of the cache. -/
def entryOf (redis : Redis) : Kind → String → Option String
  | .list, key => (redis.queries key).map fun ids => Cache.textOf P (Cache.encodeIds ids)
  | .card, key => (redis.cards key).map fun card => Cache.textOf P (Cache.encodeCard card)
  | .lock, key => bif redis.locks key then some "1" else none

/-- Redis holds the texts of what the cache holds, and the numbers of all cards print in full, also
of those to come. -/
structure Holds (w : Cache.World) (v : Products.World) : Prop where
  shop : w.shop = v.shop
  entries : ∀ kind key, Kind.Has kind key → w.entries key = entryOf P v.redis kind key
  cards : ∀ key card, v.redis.cards key = some card → Cache.Printable card
  columns : Checkout.ColumnsInRange v.shop.db

/-- The event of the cache for an entry that expires. -/
def expiry (key : String) : Event :=
  if Kind.list.Has key then .expireQuery key
  else if Kind.card.Has key then .expireCard key
  else .expireLock key

/-- The calls of the API: under keys of their kind, and with cards that print in full. -/
def KeysKept : Products.Call → Prop
  | .getIds key | .setIds key _ _ => Kind.list.Has key
  | .getCard key | .deleteCard key => Kind.card.Has key
  | .getCards keys => ∀ key ∈ keys, Kind.card.Has key
  | .setCard key card _ => Kind.card.Has key ∧ Cache.Printable card
  | .acquireLock key _ | .releaseLock key => Kind.lock.Has key
  | _ => True

/-- Products come from the database with numbers that print in full. -/
def FetchesPrintable : (q : Products.Call) → Except String (Products.Answer q) → Prop
  | .fetchProducts _ _, .ok items => ∀ item ∈ items, Cache.Printable item
  | _, _ => True

variable {P}

section
variable {w w' : Cache.World} {v : Products.World}

/-- What was counted does not matter. -/
theorem Holds.congr (h : Holds P w v) (hshop : w'.shop = w.shop) (hentries : w'.entries = w.entries) : Holds P w' v :=
  ⟨hshop.trans h.shop, fun kind key hkey => hentries ▸ h.entries kind key hkey, h.cards, h.columns⟩

/-- One entry changes on both sides, and no other of the cache. -/
theorem Holds.update (h : Holds P w v) {kind : Kind} {key : String} (hkey : kind.Has key) {o : Option String}
    {redis : Redis} (hself : entryOf P redis kind key = o)
    (hothers : ∀ kind' key', key' ≠ key → entryOf P redis kind' key' = entryOf P v.redis kind' key')
    (hcards : ∀ key card, redis.cards key = some card → Cache.Printable card) :
    Holds P {w with entries := Function.update w.entries key o} ⟨v.shop, redis⟩ := by
  refine ⟨h.shop, fun kind' key' hkey' => ?_, hcards, h.columns⟩
  by_cases hsame : key' = key
  · subst hsame
    rw [Kind.unique hkey' hkey, hself]
    exact Function.update_self ..
  · rw [hothers kind' key' hsame, ← h.entries kind' key' hkey']
    exact Function.update_of_ne hsame ..

theorem Holds.setIds (h : Holds P w v) {key : String} (hkey : Kind.list.Has key) (ids : List String) :
    Holds P (w.put key (Cache.textOf P (Cache.encodeIds ids)))
      ⟨v.shop, {v.redis with queries := Function.update v.redis.queries key (some ids)}⟩ := by
  refine h.update hkey ?_ (fun kind' key' hne => ?_) h.cards
  · simp [entryOf]
  · cases kind' <;> simp [entryOf, hne]

theorem Holds.setCard (h : Holds P w v) {key : String} (hkey : Kind.card.Has key) {card : ProductListItem}
    (hcard : Cache.Printable card) :
    Holds P (w.put key (Cache.textOf P (Cache.encodeCard card)))
      ⟨v.shop, {v.redis with cards := Function.update v.redis.cards key (some card)}⟩ := by
  refine h.update hkey ?_ (fun kind' key' hne => ?_) fun key' card' hfind => ?_
  · simp [entryOf]
  · cases kind' <;> simp [entryOf, hne]
  · by_cases hsame : key' = key
    · simp only [hsame, Function.update_self, Option.some.injEq] at hfind
      exact hfind ▸ hcard
    · simp only [Function.update_of_ne hsame] at hfind
      exact h.cards key' card' hfind

theorem Holds.setLock (h : Holds P w v) {key : String} (hkey : Kind.lock.Has key) :
    Holds P (w.put key "1") ⟨v.shop, {v.redis with locks := Function.update v.redis.locks key true}⟩ := by
  refine h.update hkey ?_ (fun kind' key' hne => ?_) h.cards
  · simp [entryOf]
  · cases kind' <;> simp [entryOf, hne]

theorem Holds.expireQuery (h : Holds P w v) {key : String} (hkey : Kind.list.Has key) :
    Holds P (w.drop key) ⟨v.shop, v.redis.expireQuery key⟩ := by
  refine h.update hkey ?_ (fun kind' key' hne => ?_) h.cards
  · simp [entryOf, Redis.expireQuery]
  · cases kind' <;> simp [entryOf, Redis.expireQuery, hne]

theorem Holds.expireCard (h : Holds P w v) {key : String} (hkey : Kind.card.Has key) :
    Holds P (w.drop key) ⟨v.shop, v.redis.expireCard key⟩ := by
  refine h.update hkey ?_ (fun kind' key' hne => ?_) fun key' card' hfind => h.cards key' card' (update_none hfind)
  · simp [entryOf, Redis.expireCard]
  · cases kind' <;> simp [entryOf, Redis.expireCard, hne]

theorem Holds.expireLock (h : Holds P w v) {key : String} (hkey : Kind.lock.Has key) :
    Holds P (w.drop key) ⟨v.shop, v.redis.expireLock key⟩ := by
  refine h.update hkey ?_ (fun kind' key' hne => ?_) h.cards
  · simp [entryOf, Redis.expireLock]
  · cases kind' <;> simp [entryOf, Redis.expireLock, hne]

/-- A key of no kind is no entry of the cache. -/
theorem Holds.drop_other (h : Holds P w v) {key : String} (hkey : ∀ kind, ¬Kind.Has kind key) :
    Holds P (w.drop key) ⟨v.shop, v.redis.expireLock key⟩ := by
  refine ⟨h.shop, fun kind key' hkey' => ?_, h.cards, h.columns⟩
  have hne : key' ≠ key := fun he => hkey kind (he ▸ hkey')
  refine (Function.update_of_ne hne ..).trans ((h.entries kind key' hkey').trans ?_)
  cases kind <;> simp [entryOf, Redis.expireLock, hne]

theorem Holds.expiry (h : Holds P w v) (key : String) :
    ∃ v', onEvent v (Storefront.expiry key) = some v' ∧ Holds P (w.drop key) v' := by
  unfold Storefront.expiry
  by_cases hlist : Kind.list.Has key
  · exact ⟨_, by rw [if_pos hlist]; rfl, h.expireQuery hlist⟩
  · by_cases hcard : Kind.card.Has key
    · exact ⟨_, by rw [if_neg hlist, if_pos hcard]; rfl, h.expireCard hcard⟩
    · refine ⟨_, by rw [if_neg hlist, if_neg hcard]; rfl, ?_⟩
      by_cases hlock : Kind.lock.Has key
      · exact h.expireLock hlock
      · exact h.drop_other fun kind => by cases kind <;> assumption

/-! ### Reading -/

/-- What reading a text gives. -/
def Reads {α : Type} (decode : Json → Option α) (text : Option String) (value : Option α) : Prop :=
  match Cache.present text with
  | none => value = none
  | some t => ∃ a, value = some a ∧ Cache.parseAs decode t = .ok a

section
variable {α : Type} {decode : Json → Option α}

theorem reads_of_encode (hprints : Json.PrintsIntegers P.numberText) {encode : α → Json}
    (hwritable : ∀ a, value = some a → (encode a).Writable) (hdecode : ∀ a, decode (encode a) = some a) :
    Reads decode (value.map fun a => Cache.textOf P (encode a)) value := by
  cases value with
  | none => rfl
  | some a =>
    obtain ⟨hpresent, hparse⟩ := Cache.parse_textOf hprints (hwritable a rfl) (hdecode a)
    rw [Reads, Option.map_some, hpresent]
    exact ⟨a, rfl, hparse⟩

theorem getJson_reads {key : String} {value : Option α} (h : Reads decode (w.entries key) value) :
    (Cache.getJson decode key w).2 = .ok value := by
  unfold Reads at h
  unfold Cache.getJson
  dsimp only
  cases hpresent : Cache.present (w.entries key) with
  | none =>
    rw [hpresent] at h
    rw [h]
  | some text =>
    rw [hpresent] at h
    obtain ⟨a, rfl, hparse⟩ := h
    simp only [hparse]
    rfl

variable (decode) in
theorem getJson_frame (key : String) (w : Cache.World) :
    (Cache.getJson decode key w).1.shop = w.shop ∧ (Cache.getJson decode key w).1.entries = w.entries := by
  unfold Cache.getJson
  dsimp only
  cases Cache.present (w.entries key) <;> exact ⟨rfl, rfl⟩

theorem collectJson_reads {keys : List String} {texts : String → Option String} {values : String → Option α}
    (h : ∀ key ∈ keys, Reads decode (texts key) (values key)) (m : Cache.Metrics) :
    (Cache.collectJson decode (keys.map fun key => (key, texts key)) m).2 = .ok (keys.map values) := by
  induction keys generalizing m with
  | nil => rfl
  | cons key rest ih =>
    obtain ⟨hkey, hrest⟩ := List.forall_mem_cons.mp h
    unfold Reads at hkey
    rw [List.map_cons, List.map_cons, Cache.collectJson]
    cases hpresent : Cache.present (texts key) with
    | none =>
      rw [hpresent] at hkey
      have htail := ih hrest (m.recordCacheMiss key)
      simp only [htail, hkey]
      rfl
    | some text =>
      rw [hpresent] at hkey
      obtain ⟨a, ha, hparse⟩ := hkey
      have htail := ih hrest (m.recordCacheHit key)
      simp only [hparse, htail, ha]
      rfl

theorem getJsonMany_reads {keys : List String} {values : String → Option α}
    (h : ∀ key ∈ keys, Reads decode (w.entries key) (values key)) :
    (Cache.getJsonMany decode keys w).2 = .ok (keys.map values) := by
  unfold Cache.getJsonMany
  by_cases hkeys : keys = []
  · simp [hkeys]
  · rw [if_neg hkeys]
    exact collectJson_reads h _

variable (decode) in
theorem getJsonMany_frame (keys : List String) (w : Cache.World) :
    (Cache.getJsonMany decode keys w).1.shop = w.shop ∧ (Cache.getJsonMany decode keys w).1.entries = w.entries := by
  unfold Cache.getJsonMany
  by_cases hkeys : keys = []
  · simp [hkeys]
  · rw [if_neg hkeys]
    exact ⟨rfl, rfl⟩

end

theorem Holds.reads_list (h : Holds P w v) (hprints : Json.PrintsIntegers P.numberText) {key : String}
    (hkey : Kind.list.Has key) : Reads Cache.idsOf (w.entries key) (v.redis.queries key) := by
  rw [h.entries .list key hkey]
  exact reads_of_encode hprints (fun ids _ => Cache.encodeIds_writable ids) Cache.idsOf_encode

theorem Holds.reads_card (h : Holds P w v) (hprints : Json.PrintsIntegers P.numberText) {key : String}
    (hkey : Kind.card.Has key) : Reads Cache.cardOf (w.entries key) (v.redis.cards key) := by
  rw [h.entries .card key hkey]
  exact reads_of_encode hprints (fun card hcard => Cache.encodeCard_writable (h.cards key card hcard)) Cache.cardOf_encode

/-! ### One call -/

theorem toListItem_printable {db : Database} (h : Checkout.ColumnsInRange db) (product : Product) :
    Cache.Printable (toListItem db product) := by
  constructor
  · show Int.natAbs (((db.prices.find? product.id).map ProductPrice.priceCents).getD 0) < 2 ^ 53
    cases hprice : db.prices.find? product.id with
    | none => decide
    | some price =>
      have hcolumn := h.prices price (Table.find?_eq_some.mp hprice).1
      simp only [Option.map_some, Option.getD_some]
      unfold Int4 at hcolumn
      omega
  · show Int.natAbs (((db.inventory.find? product.id).map Inventory.availableQty).getD 0) < 2 ^ 53
    cases hrow : db.inventory.find? product.id with
    | none => decide
    | some row =>
      obtain ⟨hcolumn, _⟩ := h.stock row (Table.find?_eq_some.mp hrow).1
      simp only [Option.map_some, Option.getD_some]
      unfold Int4 at hcolumn
      omega

theorem fetchProducts_printable {db : Database} (h : Checkout.ColumnsInRange db) (query : NormalizedQuery)
    (only : Option (List String)) :
    FetchesPrintable (.fetchProducts query only) (Products.fetchProducts P db query only) := by
  cases hfetch : Products.fetchProducts P db query only with
  | error e => trivial
  | ok items =>
    intro item hitem
    obtain ⟨product, _, _, rfl⟩ := fetchProducts_mem hfetch item hitem
    exact toListItem_printable h product

theorem Accepted.columns {call : Checkout.CheckoutCall} {attempt : Checkout.Attempt} {db db' : Database}
    {result : Checkout.CheckoutResult} {items : List Checkout.PricedItem}
    (h : Checkout.Accepted call attempt db db db' result items) (hdb : Checkout.ColumnsInRange db) :
    Checkout.ColumnsInRange db' := by
  have hprices : db'.prices = db.prices := (congrArg Database.prices h.others :)
  exact ⟨h.reserved.inRange hdb.stock, fun price hprice => hdb.prices price (hprices ▸ hprice)⟩

theorem Synced.columns {clock : Catalog.Clock} {current : Option Inventory} {product : Catalog.ErpCatalogProduct}
    {db db' : Database} (h : Catalog.Synced clock current product db db') (hdb : Checkout.ColumnsInRange db) :
    Checkout.ColumnsInRange db' := by
  constructor
  · intro row hrow
    rw [h.inventory] at hrow
    rcases Table.mem_set.mp hrow with rfl | ⟨hrow, _⟩
    · have hversion := h.version
      unfold Catalog.syncedInventory at hversion ⊢
      cases hfind : db.inventory.find? product.id with
      | none => exact ⟨h.quantity, (by decide : Int4 0), (by decide : Int4 1)⟩
      | some row =>
        rw [hfind] at hversion
        exact ⟨h.available, (hdb.stock row (Table.mem_of_find? hfind)).2.1, hversion⟩
    · exact hdb.stock row hrow
  · intro price hprice
    rw [h.prices] at hprice
    rcases Table.mem_set.mp hprice with rfl | ⟨hprice, _⟩
    · exact h.price
    · exact hdb.prices price hprice

/-- Whatever is written, the columns stay in range. -/
theorem columns_write {db db' : Database} (h : Shop.Write db db') (hdb : Checkout.ColumnsInRange db) :
    Checkout.ColumnsInRange db' := by
  cases h with
  | accepted _ h => exact Accepted.columns h hdb
  | synced h => exact Synced.columns h hdb
  | nothing | deactivated | bumped | billed | erpFailed | attempted | published | eventFailed =>
    exact ⟨hdb.stock, hdb.prices⟩

theorem Office.act_columns {w w' : Shop.World} {o : Office} (h : o.act P w = some w')
    (hw : Checkout.ColumnsInRange w.db) : Checkout.ColumnsInRange w'.db := by
  cases o with
  | call q reply =>
    cases h
    exact columns_write (perform_executed w q reply).write hw
  | event e => exact columns_write (onEvent_write h) hw

/-- A checkout keeps the columns in range. -/
theorem runTransaction_columns (w : Products.World) (input : Checkout.CheckoutInput)
    (h : Checkout.ColumnsInRange w.shop.db) : Checkout.ColumnsInRange (runTransaction P w input).1.shop.db := by
  have hends := Checkout.checkout_ends P.toPlatform {input with invalidationFault := none} w.shop.db rfl
  unfold runTransaction
  rcases hrun : Checkout.checkout P.toPlatform {input with invalidationFault := none} w.shop.db with
    ⟨result, db, telemetry⟩
  rw [hrun] at hends
  rcases hends with ⟨error, rfl, rfl⟩ | ⟨result, rfl, rfl | ⟨customerId, key, n, items, hacc⟩⟩
  · exact h
  · exact h
  · exact Accepted.columns hacc h

theorem runTransaction_shop (w : Products.World) {w' : Products.World} (h : w.shop = w'.shop)
    (input : Checkout.CheckoutInput) :
    (runTransaction P w input).1.shop = (runTransaction P w' input).1.shop ∧
      (runTransaction P w input).2 = (runTransaction P w' input).2 ∧
      (runTransaction P w' input).1.redis = w'.redis := by
  unfold runTransaction
  rw [h]
  rcases Checkout.checkout P.toPlatform {input with invalidationFault := none} w'.shop.db with
    ⟨result | result, db, telemetry⟩ <;> exact ⟨rfl, rfl, rfl⟩

/-- A call is answered from the texts as it is from the cache. -/
theorem execute_reads (hprints : Json.PrintsIntegers P.numberText) (h : Holds P w v) {q : Products.Call}
    (hq : KeysKept q) :
    (Products.execute P v q).2 = (Cache.execute P w q).2 ∧
      Holds P (Cache.execute P w q).1 (Products.execute P v q).1 ∧ FetchesPrintable q (Cache.execute P w q).2 := by
  cases q with
  | findCatalogVersion => exact ⟨by rw [Products.execute, Cache.execute, h.shop], h, trivial⟩
  | fetchProducts query only =>
    have hgood := fetchProducts_printable (P := P) h.columns query only
    rw [← h.shop] at hgood
    exact ⟨by rw [Products.execute, Cache.execute, h.shop], h, hgood⟩
  | getIds key =>
    obtain ⟨hshop, hentries⟩ := getJson_frame Cache.idsOf key w
    exact ⟨(getJson_reads (h.reads_list hprints hq)).symm, h.congr hshop hentries, trivial⟩
  | getCard key =>
    obtain ⟨hshop, hentries⟩ := getJson_frame Cache.cardOf key w
    exact ⟨(getJson_reads (h.reads_card hprints hq)).symm, h.congr hshop hentries, trivial⟩
  | getCards keys =>
    obtain ⟨hshop, hentries⟩ := getJsonMany_frame Cache.cardOf keys w
    have hreads := getJsonMany_reads fun key hkey => h.reads_card hprints (hq key hkey)
    exact ⟨hreads.symm, h.congr hshop hentries, trivial⟩
  | setIds key ids ttlSeconds => exact ⟨rfl, (h.setIds hq ids).congr rfl rfl, trivial⟩
  | setCard key card ttlSeconds => exact ⟨rfl, (h.setCard hq.1 hq.2).congr rfl rfl, trivial⟩
  | deleteCard key => exact ⟨rfl, (h.expireCard hq).congr rfl rfl, trivial⟩
  | releaseLock key => exact ⟨rfl, (h.expireLock hq).congr rfl rfl, trivial⟩
  | acquireLock key ttlSeconds =>
    have hentry := h.entries .lock key hq
    cases hlock : v.redis.locks key with
    | false =>
      rw [entryOf, hlock, cond_false] at hentry
      refine ⟨?_, ?_, trivial⟩
      · simp only [Products.execute, Cache.execute, Cache.acquireLock, hentry, hlock]
        rfl
      · simp only [Cache.execute, Cache.acquireLock, hentry]
        exact (h.setLock hq).congr rfl rfl
    | true =>
      rw [entryOf, hlock, cond_true] at hentry
      have hsame : Function.update v.redis.locks key true = v.redis.locks := by
        rw [← hlock]
        exact Function.update_eq_self key _
      refine ⟨?_, ?_, trivial⟩
      · simp only [Products.execute, Cache.execute, Cache.acquireLock, hentry, hlock]
        rfl
      · simp only [Products.execute, Cache.execute, Cache.acquireLock, hentry, hsame]
        exact h.congr rfl rfl
  | checkoutTransaction input =>
    obtain ⟨hshop, hresult, hredis⟩ := runTransaction_shop (P := P) ⟨w.shop, .empty⟩ h.shop input
    refine ⟨hresult.symm, ⟨hshop, fun kind key hkey => ?_, fun key card hfind => ?_, ?_⟩, trivial⟩
    · exact (h.entries kind key hkey).trans (congrArg (entryOf P · kind key) hredis.symm)
    · exact h.cards key card (congrArg (Redis.cards · key) hredis ▸ hfind)
    · exact runTransaction_columns v input h.columns

theorem perform_reads (hprints : Json.PrintsIntegers P.numberText) :
    Agrees (fun q => q) (Holds P) KeysKept FetchesPrintable (Cache.perform P) (Products.perform P) := by
  intro w v q reply h hq
  have hexecute := execute_reads hprints h hq
  have herror : ∀ message, FetchesPrintable q (.error message) := fun message => by cases q <;> trivial
  have hcount : ∀ w' : Cache.World, (Cache.countError q w').shop = w'.shop ∧ (Cache.countError q w').entries = w'.entries := by
    intro w'
    unfold Cache.countError
    cases Cache.operationOf q <;> exact ⟨rfl, rfl⟩
  cases reply with
  | answered => exact hexecute
  | failed message => exact ⟨rfl, h.congr (hcount w).1 (hcount w).2, herror message⟩
  | lost message => exact ⟨rfl, hexecute.2.1.congr (hcount _).1 (hcount _).2, herror message⟩

end

/-! ### The calls of the API -/

/-- A program that keeps to the keys, as far as the products it is given print in full. -/
abbrev KeepsKeys {α : Type} (p : Api α) : Prop := p.OnlyCallsGiven FetchesPrintable KeysKept

theorem orElse_keeps {q : Products.Call} (h : KeysKept q) (a : Products.Answer q) :
    KeepsKeys (orElse (request q) a) :=
  (onlyCalls_orElse (onlyCalls_call h) a).given

theorem cacheProductCards_keep {items : List ProductListItem} (h : ∀ item ∈ items, Cache.Printable item) (v : Int) :
    ∀ q ∈ items.map (cacheProductCard v), KeysKept q := by
  intro q hq
  obtain ⟨item, hitem, rfl⟩ := List.mem_map.mp hq
  exact ⟨card_has v item.id, h item hitem⟩

theorem getCards_keeps (v : Int) (ids : List String) : KeysKept (.getCards (ids.map (productCardKey v))) := by
  intro key hkey
  obtain ⟨id, _, rfl⟩ := List.mem_map.mp hkey
  exact card_has v id

theorem refillCards_keeps (v : Int) (missingIds : List String) (productsById : ProductsById) :
    KeepsKeys (refillCards v missingIds productsById) := by
  refine onlyCallsGiven_call trivial fun fetched hfetched => ?_
  exact onlyCallsGiven_bind (onlyCalls_callAll (cacheProductCards_keep hfetched v)).given fun _ => trivial

theorem rereadCards_keeps (v : Int) (missingIds : List String) (productsById : ProductsById) :
    KeepsKeys (rereadCards v missingIds productsById) :=
  onlyCallsGiven_bind (orElse_keeps (getCards_keeps v missingIds) _) fun _ => trivial

theorem hydrateProducts_keeps (v : Int) (ids : List String) : KeepsKeys (hydrateProducts P v ids) := by
  unfold hydrateProducts
  by_cases hids : ids = []
  · rw [if_pos hids]
    trivial
  · rw [if_neg hids]
    refine onlyCallsGiven_bind (orElse_keeps (getCards_keeps v ids) _) fun cachedProducts => ?_
    dsimp only
    by_cases hmissing : findMissingProductIds ids (collectCachedProducts ids cachedProducts fun _ => none) = []
    · rw [if_pos hmissing]
      trivial
    · rw [if_neg hmissing]
      have hlock := hydrationLock_has P v (findMissingProductIds ids (collectCachedProducts ids cachedProducts fun _ => none))
      refine onlyCallsGiven_bind (orElse_keeps (q := .acquireLock _ 5) hlock false) fun hasLock => ?_
      cases hasLock with
      | true =>
        have hrelease := orElse_keeps (q := .releaseLock _) hlock ()
        exact onlyCallsGiven_bind (onlyCallsGiven_ensure (refillCards_keeps v _ _) hrelease) fun _ => trivial
      | false => exact onlyCallsGiven_bind (rereadCards_keeps v _ _) fun _ => trivial

theorem populateQuery_keeps (v : Int) (query : NormalizedQuery) : KeepsKeys (populateQuery P v query) := by
  refine onlyCallsGiven_call trivial fun items hitems => ?_
  refine onlyCallsGiven_bind (onlyCalls_callAll fun q hq => ?_).given fun _ => trivial
  rcases List.mem_cons.mp hq with rfl | hq
  · exact list_has P v query
  · exact cacheProductCards_keep hitems v q hq

theorem acquireQueryLock_keeps (queryKey : String) : KeepsKeys (acquireQueryLockWithRetry (queryLockKey queryKey)) := by
  have htry : KeepsKeys (tryAcquireQueryLock (queryLockKey queryKey)) :=
    orElse_keeps (q := .acquireLock _ 5) (queryLock_has queryKey) false
  refine onlyCallsGiven_bind htry fun acquired => ?_
  cases acquired with
  | true => trivial
  | false => exact htry

theorem getCatalogVersion_keeps {α : Type} {rest : Int → Api α} (h : ∀ v, KeepsKeys (rest v)) :
    KeepsKeys (getCatalogVersion >>= rest) :=
  onlyCallsGiven_bind (onlyCallsGiven_call trivial fun _ _ => trivial) h

theorem listProducts_keeps (query : ProductQuery) : KeepsKeys (Products.listProducts P query) := by
  refine getCatalogVersion_keeps fun v => ?_
  refine onlyCallsGiven_bind (orElse_keeps (q := .getIds _) (list_has P v _) none) fun cachedIds => ?_
  cases cachedIds with
  | some ids => exact onlyCallsGiven_bind (hydrateProducts_keeps v ids) fun _ => trivial
  | none =>
    refine onlyCallsGiven_bind (acquireQueryLock_keeps _) fun hasLock => ?_
    cases hasLock with
    | false => trivial
    | true =>
      exact onlyCallsGiven_ensure (populateQuery_keeps v _) (orElse_keeps (q := .releaseLock _) (queryLock_has _) ())

theorem getProductById_keeps (id : String) : KeepsKeys (Products.getProductById id) := by
  refine getCatalogVersion_keeps fun v => ?_
  refine onlyCallsGiven_bind (orElse_keeps (q := .getCard _) (card_has v id) none) fun cached => ?_
  cases cached with
  | some card => trivial
  | none =>
    refine onlyCallsGiven_call trivial fun products hproducts => ?_
    cases hhead : products.head? with
    | none => trivial
    | some product =>
      have hcard := hproducts product (List.mem_of_mem_head? hhead)
      exact onlyCallsGiven_bind (orElse_keeps (q := cacheProductCard v product) ⟨card_has v _, hcard⟩ ())
        fun _ => trivial

theorem invalidateAvailability_keeps (productIds : List String) : KeepsKeys (invalidateAvailability productIds) := by
  refine getCatalogVersion_keeps fun v => (onlyCalls_callAll fun q hq => ?_).given
  obtain ⟨id, _, rfl⟩ := List.mem_map.mp hq
  exact card_has v id

theorem checkout_keeps (input : Checkout.CheckoutInput) : KeepsKeys (Products.checkout P input) := by
  refine onlyCallsGiven_call trivial fun result _ => ?_
  have hinvalidate := invalidateAvailability_keeps (boughtProducts P input.body)
  exact onlyCallsGiven_bind hinvalidate fun _ => trivial

theorem program_keeps (task : Task) : KeepsKeys (task.program P) := by
  cases task with
  | listProducts query => exact onlyCallsGiven_bind (listProducts_keeps query) fun _ => trivial
  | getProductById id => exact onlyCallsGiven_bind (getProductById_keeps id) fun _ => trivial
  | checkout input => exact onlyCallsGiven_bind (checkout_keeps input) fun _ => trivial

/-! ### Every run -/

theorem entriesMachine_refines (hprints : Json.PrintsIntegers P.numberText) :
    Machine.Refines (fun q => q) id (Beside.map expiry) (Holds P) (fun _ => True) KeysKept FetchesPrintable
      (entriesMachine P) (officeMachine P) where
  start := by
    rintro w v task w' p h hstart
    cases hstart
    refine ⟨v, ?_, h, trivial, program_keeps task⟩
    rw [mapCalls_id]
    rfl
  call := perform_reads hprints
  crash _ _ _ h _ := h
  environment := by
    rintro w v (key | o) w' h hevent
    · cases hevent
      exact h.expiry key
    · obtain ⟨shop, hact, rfl⟩ := Option.map_eq_some_iff.mp hevent
      rw [h.shop] at hact
      refine ⟨{v with shop := shop}, Option.map_eq_some_iff.mpr ⟨shop, hact, rfl⟩, ?_⟩
      exact ⟨rfl, h.entries, h.cards, Office.act_columns hact h.columns⟩

theorem holds_opening {shop : Shop.World} (h : Checkout.ColumnsInRange shop.db) :
    Holds P (.opening shop) (.opening shop) := by
  refine ⟨rfl, fun kind key _ => ?_, fun key card hfind => ?_, h⟩
  · cases kind <;> rfl
  · cases hfind

/-- A run of the API over Redis is one over a cache of lists, cards and locks, with the same
processes and the same back office, and Redis holds the texts of that cache. -/
theorem entries_refine (P : Products.Platform) (hprints : Json.PrintsIntegers P.numberText) (shop : Shop.World)
    (hdb : Checkout.ColumnsInRange shop.db) (actions : List (Machine.Action Task Reply (Beside String)))
    (c : Machine.Config Cache.World Task Products.Call String Products.Answer)
    (h : (entriesMachine P).system.run (.idle (.opening shop)) actions = some c) :
    ∃ d, (officeMachine P).system.run (.idle (.opening shop))
        (actions.map (Machine.Action.translate id (Beside.map expiry))) = some d ∧
      Holds P c.world d.world ∧ d.running = c.running := by
  obtain ⟨d, hd, halike⟩ := (entriesMachine_refines hprints).run (Machine.alike_idle (holds_opening hdb)) h
  refine ⟨d, hd, halike.world, funext fun n => (halike.running n).trans ?_⟩
  cases c.running n with
  | none => rfl
  | some process =>
    rw [Option.map_some, Machine.Process.translate, mapCalls_id]
    rfl

/-- All products are listed twice: the first read fills Redis, and the second is answered from
the texts; then the list expires, and a sync moves the catalog version. -/
def listedTwice : List (Machine.Action Task Reply (Beside String)) :=
  .start 0 (.listProducts ⟨none, none, none, none, none⟩) :: List.replicate 8 (.call 0 0 .answered) ++
    .start 0 (.listProducts ⟨none, none, none, none, none⟩) :: List.replicate 3 (.call 0 0 .answered) ++
    [.environment (.expiry (buildProductsQueryCacheKey plainLibraries 1 ⟨"", "", "relevance", .finite 1, .finite 24⟩)),
      .environment (.office (.call .bumpCatalogVersion .answered)), .start 0 (.getProductById "p1")]

theorem entries_refine_listed :
    ∃ c, (entriesMachine plainLibraries).system.run
        (.idle (.opening {Shop.World.fresh [] with db := Checkout.oneCase 3})) listedTwice = some c ∧
      ∃ d, (officeMachine plainLibraries).system.run
          (.idle (.opening {Shop.World.fresh [] with db := Checkout.oneCase 3}))
          (listedTwice.map (Machine.Action.translate id (Beside.map expiry))) = some d ∧
        Holds plainLibraries c.world d.world := by
  have hsome : ((entriesMachine plainLibraries).system.run
      (.idle (.opening {Shop.World.fresh [] with db := Checkout.oneCase 3})) listedTwice).isSome = true := by
    decide +kernel
  have hrun := (entriesMachine plainLibraries).system.run_after _ _ hsome
  have hprints : Json.PrintsIntegers plainLibraries.numberText := fun n _ => by simp [plainLibraries]
  obtain ⟨d, hd, hholds, _⟩ := entries_refine plainLibraries hprints {Shop.World.fresh [] with db := Checkout.oneCase 3}
    ⟨by decide +kernel, by decide +kernel⟩ listedTwice _ hrun
  exact ⟨_, hrun, d, hd, hholds⟩

end CaseCellShop.Storefront
