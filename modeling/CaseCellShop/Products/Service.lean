import CaseCellShop.Products.Calls

/-! The product queries (`apps/api/src/products/products.service.ts`).

A failing call of the cache is caught everywhere: a read counts as a miss, a lock as
not granted, a write as done. -/
namespace CaseCellShop.Products
open Program

/-- `version?.version ?? 1` -/
def readerVersion (row : Option Int) : Int := row.getD 1

/-- The version a read meets. -/
def version (w : World) : Int := readerVersion w.shop.db.catalogVersion

def getCatalogVersion : Api Int := do
  let row : Option Int ← request .findCatalogVersion
  return readerVersion row

def cacheProductCard (catalogVersion : Int) (product : ProductListItem) : Call :=
  .setCard (productCardKey catalogVersion product.id) product 300

def releaseLock (lockKey : String) : Api Unit := orElse (request (.releaseLock lockKey)) ()

/-! ### Hydration -/

structure HydratedProducts where
  items : List ProductListItem
  missingProductCardIds : List String
  deriving DecidableEq, Repr

/-- The products found so far. -/
abbrev ProductsById := String → Option ProductListItem

def collectCachedProducts (ids : List String) (cachedProducts : List (Option ProductListItem))
    (productsById : ProductsById) : ProductsById :=
  (ids.zip cachedProducts).foldl
    (fun found (id, cached) =>
      match cached with
      | some product => Function.update found id (some product)
      | none => found)
    productsById

def findMissingProductIds (ids : List String) (productsById : ProductsById) : List String :=
  ids.filter fun id => (productsById id).isNone

def orderHydratedProducts (ids : List String) (productsById : ProductsById) : List ProductListItem :=
  ids.filterMap productsById

/-- The query for the products of given ids. -/
def queryOfIds (count : Nat) : NormalizedQuery := ⟨"", "", "relevance", .finite 1, .finite count⟩

/-- Another process has the lock: the cards are read once more after a moment. -/
def rereadCards (catalogVersion : Int) (missingIds : List String) (productsById : ProductsById) :
    Api ProductsById := do
  let reread : List (Option ProductListItem) ←
    orElse (request (.getCards (missingIds.map (productCardKey catalogVersion)))) (missingIds.map fun _ => none)
  return collectCachedProducts missingIds reread productsById

/-- With the lock, the missing products are fetched and their cards written. -/
def refillCards (catalogVersion : Int) (missingIds : List String) (productsById : ProductsById) :
    Api ProductsById := do
  let fetched : List ProductListItem ← request (.fetchProducts (queryOfIds missingIds.length) (some missingIds))
  callAll (fetched.map (cacheProductCard catalogVersion))
  return fetched.foldl (fun found product => Function.update found product.id (some product)) productsById

def hydrateProducts (P : Platform) (catalogVersion : Int) (ids : List String) : Api HydratedProducts :=
  if ids = [] then return ⟨[], []⟩
  else do
    let cachedProducts : List (Option ProductListItem) ←
      orElse (request (.getCards (ids.map (productCardKey catalogVersion)))) (ids.map fun _ => none)
    let productsById := collectCachedProducts ids cachedProducts fun _ => none
    let missingIds := findMissingProductIds ids productsById
    if missingIds = [] then return ⟨orderHydratedProducts ids productsById, []⟩
    else do
      let lockKey := buildProductHydrationLockKey P catalogVersion missingIds
      let hasLock : Bool ← orElse (request (.acquireLock lockKey 5)) false
      let productsById ←
        if hasLock then ensure (refillCards catalogVersion missingIds productsById) (releaseLock lockKey)
        else rereadCards catalogVersion missingIds productsById
      return ⟨orderHydratedProducts ids productsById, findMissingProductIds ids productsById⟩

/-! ### Lists -/

inductive CacheOutcome where
  | hit
  | missLocked
  | missPopulated
  deriving DecidableEq, Repr

structure ProductList where
  items : List ProductListItem
  query : NormalizedQuery
  catalogVersion : Int
  cache : CacheOutcome
  missingProductCardIds : List String
  retryLater : Bool
  deriving DecidableEq, Repr

def tryAcquireQueryLock (lockKey : String) : Api Bool := orElse (request (.acquireLock lockKey 5)) false

/-- The second attempt is made after a moment. -/
def acquireQueryLockWithRetry (lockKey : String) : Api Bool := do
  let acquired : Bool ← tryAcquireQueryLock lockKey
  if acquired then return true else tryAcquireQueryLock lockKey

/-- The miss path with the lock: the products are fetched, the list and their cards
written. -/
def populateQuery (P : Platform) (catalogVersion : Int) (query : NormalizedQuery) : Api ProductList := do
  let items : List ProductListItem ← request (.fetchProducts query none)
  callAll (.setIds (buildProductsQueryCacheKey P catalogVersion query) (items.map ProductListItem.id) 90 ::
    items.map (cacheProductCard catalogVersion))
  return ⟨items, query, catalogVersion, .missPopulated, [], false⟩

def listProducts (P : Platform) (query : ProductQuery) : Api ProductList := do
  let catalogVersion ← getCatalogVersion
  let normalized := normalizeQuery P query
  let queryKey := buildProductsQueryCacheKey P catalogVersion normalized
  let cachedIds : Option (List String) ← orElse (request (.getIds queryKey)) none
  match cachedIds with
  | some ids => do
    let hydrated ← hydrateProducts P catalogVersion ids
    return ⟨hydrated.items, normalized, catalogVersion, .hit, hydrated.missingProductCardIds, false⟩
  | none => do
    let hasLock ← acquireQueryLockWithRetry (queryLockKey queryKey)
    if hasLock then ensure (populateQuery P catalogVersion normalized) (releaseLock (queryLockKey queryKey))
    else return ⟨[], normalized, catalogVersion, .missLocked, [], true⟩

/-! ### One product -/

def getProductById (id : String) : Api (Option ProductListItem) := do
  let catalogVersion ← getCatalogVersion
  let cached : Option ProductListItem ← orElse (request (.getCard (productCardKey catalogVersion id))) none
  match cached with
  | some card => return some card
  | none => do
    let products : List ProductListItem ← request (.fetchProducts (queryOfIds 1) (some [id]))
    match products.head? with
    | none => return none
    | some product => do
      orElse (request (cacheProductCard catalogVersion product)) ()
      return some product

def invalidateAvailability (productIds : List String) : Api Unit := do
  let catalogVersion ← getCatalogVersion
  callAll (productIds.map fun productId => .deleteCard (productCardKey catalogVersion productId))

/-- The products a checkout buys. -/
def boughtProducts (P : Platform) (body : Checkout.CheckoutRequest) : List String :=
  (Checkout.normalizeRequest P.toPlatform body).map Checkout.CheckoutLine.productId

def checkout (P : Platform) (input : Checkout.CheckoutInput) : Api Checkout.CheckoutResult := do
  let result : Checkout.CheckoutResult ← request (.checkoutTransaction input)
  invalidateAvailability (boughtProducts P input.body)
  return result

/-! ### The calls of a read -/

/-- A call of a read under a catalog version: every entry of the cache it looks up or
writes is one of that version. -/
def ReadCall (P : Platform) (catalogVersion : Int) : Call → Prop
  | .fetchProducts _ _ | .acquireLock _ _ | .releaseLock _ => True
  | .getIds key | .setIds key _ _ => ∃ query, key = buildProductsQueryCacheKey P catalogVersion query
  | .getCard key => ∃ id, key = productCardKey catalogVersion id
  | .getCards keys => ∀ key ∈ keys, ∃ id, key = productCardKey catalogVersion id
  | .setCard key card _ => key = productCardKey catalogVersion card.id
  | _ => False

variable {P : Platform} {catalogVersion : Int}

theorem orElse_calls {q : Call} (h : ReadCall P catalogVersion q) (a : Answer q) :
    (orElse (request q) a).OnlyCalls (ReadCall P catalogVersion) :=
  onlyCalls_orElse (onlyCalls_call h) a

theorem releaseLock_calls (lockKey : String) : (releaseLock lockKey).OnlyCalls (ReadCall P catalogVersion) :=
  orElse_calls (q := .releaseLock lockKey) trivial ()

theorem getCards_calls (ids : List String) :
    ReadCall P catalogVersion (.getCards (ids.map (productCardKey catalogVersion))) := by
  intro key hkey
  obtain ⟨id, _, rfl⟩ := List.mem_map.mp hkey
  exact ⟨id, rfl⟩

theorem cacheProductCards_calls (items : List ProductListItem) :
    ∀ q ∈ items.map (cacheProductCard catalogVersion), ReadCall P catalogVersion q := by
  intro q hq
  obtain ⟨item, _, rfl⟩ := List.mem_map.mp hq
  rfl

theorem hydrateProducts_calls (ids : List String) :
    (hydrateProducts P catalogVersion ids).OnlyCalls (ReadCall P catalogVersion) := by
  unfold hydrateProducts
  by_cases hids : ids = []
  · rw [if_pos hids]
    trivial
  · rw [if_neg hids]
    apply onlyCalls_bind (orElse_calls (getCards_calls ids) _)
    intro cachedProducts
    dsimp only
    by_cases hmissing : findMissingProductIds ids (collectCachedProducts ids cachedProducts fun _ => none) = []
    · rw [if_pos hmissing]
      trivial
    · rw [if_neg hmissing]
      apply onlyCalls_bind (orElse_calls (q := .acquireLock _ 5) trivial false)
      intro hasLock
      cases hasLock with
      | true =>
        refine onlyCalls_bind (onlyCalls_ensure ?_ (releaseLock_calls _)) fun _ => trivial
        apply onlyCalls_bind (onlyCalls_call trivial)
        intro fetched
        exact onlyCalls_bind (onlyCalls_callAll (cacheProductCards_calls fetched)) fun _ => trivial
      | false =>
        refine onlyCalls_bind ?_ fun _ => trivial
        exact onlyCalls_bind (orElse_calls (getCards_calls _) _) fun _ => trivial

/-- The program reads the catalog version and then keeps to it. -/
def VersionFirst {α : Type} (P : Platform) (p : Api α) : Prop :=
  ∃ rest : Int → Api α, p = getCatalogVersion >>= rest ∧ ∀ v, (rest v).OnlyCalls (ReadCall P v)

theorem listProducts_versionFirst (query : ProductQuery) : VersionFirst P (listProducts P query) := by
  refine ⟨_, rfl, fun v => ?_⟩
  apply onlyCalls_bind (orElse_calls (q := .getIds _) ⟨_, rfl⟩ none)
  intro cachedIds
  cases cachedIds with
  | some ids => exact onlyCalls_bind (hydrateProducts_calls ids) fun _ => trivial
  | none =>
    have hlock : ∀ lockKey, (tryAcquireQueryLock lockKey).OnlyCalls (ReadCall P v) := fun lockKey =>
      orElse_calls (q := .acquireLock lockKey 5) trivial false
    apply onlyCalls_bind
    · apply onlyCalls_bind (hlock _)
      intro acquired
      cases acquired with
      | true => trivial
      | false => exact hlock _
    · intro hasLock
      cases hasLock with
      | false => trivial
      | true =>
        refine onlyCalls_ensure ?_ (releaseLock_calls _)
        apply onlyCalls_bind (onlyCalls_call trivial)
        intro items
        refine onlyCalls_bind (onlyCalls_callAll fun q hq => ?_) fun _ => trivial
        rcases List.mem_cons.mp hq with rfl | hq
        · exact ⟨_, rfl⟩
        · exact cacheProductCards_calls items q hq

theorem getProductById_versionFirst (id : String) : VersionFirst P (getProductById id) := by
  refine ⟨_, rfl, fun v => ?_⟩
  apply onlyCalls_bind (orElse_calls (q := .getCard _) ⟨id, rfl⟩ none)
  intro cached
  cases cached with
  | some card => trivial
  | none =>
    apply onlyCalls_bind (onlyCalls_call trivial)
    intro products
    cases products.head? with
    | none => trivial
    | some product => exact onlyCalls_bind (orElse_calls (q := cacheProductCard v product) rfl ()) fun _ => trivial

end CaseCellShop.Products
