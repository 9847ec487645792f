import CaseCellShop.Platform.JsonText
import CaseCellShop.Products.Service

/-! `CacheService` over Redis (`libs/cache/src/cache.service.ts`).

Redis has one keyspace whose entries are texts. Lists and cards are written as JSON and
parsed when they are read, a lock is the text `1`, and every call is counted: one
operation with its outcome, and a hit or a miss of the key's namespace for every key
looked up. -/
namespace CaseCellShop.Products.Cache
open Shop

/-! ### Metrics -/

inductive Outcome where
  | hit
  | miss
  | ok
  | error
  deriving DecidableEq, Repr

/-- What `MetricsService` has counted of the cache. -/
structure Metrics where
  /-- `cache_hits_total`, by namespace -/
  hits : List String
  /-- `cache_misses_total`, by namespace -/
  misses : List String
  /-- `redis_operation_duration_seconds`, by operation and outcome -/
  operations : List (String × Outcome)
  deriving DecidableEq, Repr

def Metrics.none : Metrics := ⟨[], [], []⟩

/-- `key.split(':')[0] || 'unknown'` -/
def getCacheNamespace (key : String) : String :=
  let word := key.toList.takeWhile (· ≠ ':')
  if word = [] then "unknown" else String.ofList word

def Metrics.recordCacheHit (m : Metrics) (key : String) : Metrics :=
  {m with hits := m.hits ++ [getCacheNamespace key]}

def Metrics.recordCacheMiss (m : Metrics) (key : String) : Metrics :=
  {m with misses := m.misses ++ [getCacheNamespace key]}

def Metrics.recordRedisOperation (m : Metrics) (operation : String) (outcome : Outcome) : Metrics :=
  {m with operations := m.operations ++ [(operation, outcome)]}

/-- An empty text counts as no value. -/
def present (value : Option String) : Option String := value.filter (· ≠ "")

def getRedisOutcome (operation : String) (result : Option String) : Outcome :=
  if operation = "get" then if (present result).isSome then .hit else .miss else .ok

/-! ### Entries -/

/-- The back office, Redis, and what was counted. -/
structure World where
  shop : Shop.World
  entries : String → Option String
  metrics : Metrics

/-- Nothing is cached. -/
def World.opening (shop : Shop.World) : World := ⟨shop, fun _ => none, .none⟩

/-- `DEL key`, or the entry's time is over. -/
def World.drop (w : World) (key : String) : World := {w with entries := Function.update w.entries key none}

/-- `SET key value` -/
def World.put (w : World) (key value : String) : World := {w with entries := Function.update w.entries key (some value)}

/-- The call is counted. -/
def World.count (w : World) (operation : String) (outcome : Outcome) : World :=
  {w with metrics := w.metrics.recordRedisOperation operation outcome}

/-! ### The service -/

/-- `JSON.parse(value) as T`; a value of another type is refused here, where the source
does not look. -/
def parseAs {α : Type} (decode : Json → Option α) (text : String) : Except String α :=
  match (Json.parse text.toList).bind decode with
  | some a => .ok a
  | none => .error "SyntaxError"

def getJson {α : Type} (decode : Json → Option α) (key : String) (w : World) : World × Except String (Option α) :=
  let value := w.entries key
  let w := w.count "get" (getRedisOutcome "get" value)
  match present value with
  | none => ({w with metrics := w.metrics.recordCacheMiss key}, .ok none)
  | some text => ({w with metrics := w.metrics.recordCacheHit key}, (parseAs decode text).map some)

/-- The values of `mget`, counted and parsed in order up to one that cannot be parsed. -/
def collectJson {α : Type} (decode : Json → Option α) :
    List (String × Option String) → Metrics → Metrics × Except String (List (Option α))
  | [], m => (m, .ok [])
  | (key, value) :: rest, m =>
    match present value with
    | none =>
      let (m, others) := collectJson decode rest (m.recordCacheMiss key)
      (m, others.map (none :: ·))
    | some text =>
      match parseAs decode text with
      | .error e => (m.recordCacheHit key, .error e)
      | .ok a =>
        let (m, others) := collectJson decode rest (m.recordCacheHit key)
        (m, others.map (some a :: ·))

def getJsonMany {α : Type} (decode : Json → Option α) (keys : List String) (w : World) :
    World × Except String (List (Option α)) :=
  if keys = [] then (w, .ok [])
  else
    let values := keys.map fun key => (key, w.entries key)
    let w := w.count "mget" (getRedisOutcome "mget" none)
    let (m, cards) := collectJson decode values w.metrics
    ({w with metrics := m}, cards)

variable (P : Platform)

/-- `JSON.stringify(value)` -/
def textOf (value : Json) : String := String.ofList (value.stringify P.numberText)

def setJson (key : String) (value : Json) (w : World) : World :=
  (w.put key (textOf P value)).count "set" (getRedisOutcome "set" none)

def delete (key : String) (w : World) : World := (w.drop key).count "del" (getRedisOutcome "del" none)

/-- `SET key '1' EX ttl NX` -/
def acquireLock (key : String) (w : World) : World × Bool :=
  match w.entries key with
  | some _ => (w.count "lock" (getRedisOutcome "lock" none), false)
  | none => ((w.put key "1").count "lock" (getRedisOutcome "lock" none), true)

def releaseLock (key : String) (w : World) : World := (w.drop key).count "unlock" (getRedisOutcome "unlock" none)

/-! ### Lists and cards as JSON -/

def encodeIds (ids : List String) : Json := .array (ids.map .string)

def stringOf : Json → Option String
  | .string s => some s
  | _ => none

def idsOf : Json → Option (List String)
  | .array elements => elements.mapM stringOf
  | _ => none

/-- `string | null` -/
def encodeNullable : Option String → Json
  | none => .null
  | some s => .string s

def nullableOf : Json → Option (Option String)
  | .null => some none
  | .string s => some (some s)
  | _ => none

def integerOf : Json → Option Int
  | .number (.finite q) => if q.den = 1 then some q.num else none
  | _ => none

def boolOf : Json → Option Bool
  | .bool b => some b
  | _ => none

def encodeCard (card : ProductListItem) : Json :=
  .object [("id", .string card.id), ("sku", .string card.sku), ("name", .string card.name),
    ("imageUrl", encodeNullable card.imageUrl), ("brand", encodeNullable card.brand),
    ("priceCents", .number (.finite card.priceCents)), ("currency", .string card.currency),
    ("availableQty", .number (.finite card.availableQty)), ("inStock", .bool card.inStock)]

/-- A field of an object. -/
def fieldOf {α : Type} (decode : Json → Option α) (value : Json) (key : String) : Option α := do
  decode (← ← value.get key)

def cardOf (value : Json) : Option ProductListItem := do
  return {
    id := ← fieldOf stringOf value "id"
    sku := ← fieldOf stringOf value "sku"
    name := ← fieldOf stringOf value "name"
    imageUrl := ← fieldOf nullableOf value "imageUrl"
    brand := ← fieldOf nullableOf value "brand"
    priceCents := ← fieldOf integerOf value "priceCents"
    currency := ← fieldOf stringOf value "currency"
    availableQty := ← fieldOf integerOf value "availableQty"
    inStock := ← fieldOf boolOf value "inStock" }

/-! ### The calls of the product code -/

/-- The operation of a call of the cache. -/
def operationOf : Call → Option String
  | .getIds _ | .getCard _ => some "get"
  | .getCards keys => if keys = [] then none else some "mget"
  | .setIds _ _ _ | .setCard _ _ _ => some "set"
  | .deleteCard _ => some "del"
  | .acquireLock _ _ => some "lock"
  | .releaseLock _ => some "unlock"
  | _ => none

/-- A call that takes effect, and its answer. -/
def execute (w : World) : (q : Call) → World × Except String (Answer q)
  | .getIds key => getJson idsOf key w
  | .getCard key => getJson cardOf key w
  | .getCards keys => getJsonMany cardOf keys w
  | .setIds key ids _ => (setJson P key (encodeIds ids) w, .ok ())
  | .setCard key card _ => (setJson P key (encodeCard card) w, .ok ())
  | .deleteCard key => (delete key w, .ok ())
  | .acquireLock key _ => ((acquireLock key w).1, .ok (acquireLock key w).2)
  | .releaseLock key => (releaseLock key w, .ok ())
  | .findCatalogVersion => (w, .ok w.shop.db.catalogVersion)
  | .fetchProducts query only => (w, fetchProducts P w.shop.db query only)
  | .checkoutTransaction input =>
    let (v, result) := runTransaction P ⟨w.shop, .empty⟩ input
    ({w with shop := v.shop}, result)

/-- An operation that fails is counted as an error. -/
def countError (q : Call) (w : World) : World :=
  match operationOf q with
  | some operation => w.count operation .error
  | none => w

/-- A call under the reply it meets. -/
def perform (w : World) (q : Call) : Reply → World × Except String (Answer q)
  | .answered => execute P w q
  | .failed message => (countError q w, .error message)
  | .lost message => (countError q {(execute P w q).1 with metrics := w.metrics}, .error message)

/-! ### What is written is read back -/

/-- The numbers of a card print in full. -/
structure Printable (card : ProductListItem) : Prop where
  price : card.priceCents.natAbs < 2 ^ 53
  quantity : card.availableQty.natAbs < 2 ^ 53

theorem integerOf_intCast (n : Int) : integerOf (.number (.finite n)) = some n := by
  simp [integerOf]

theorem nullableOf_encode (s : Option String) : nullableOf (encodeNullable s) = some s := by
  cases s <;> rfl

theorem cardOf_encode (card : ProductListItem) : cardOf (encodeCard card) = some card := by
  obtain ⟨id, sku, name, imageUrl, brand, priceCents, currency, quantity, inStock⟩ := card
  simp [cardOf, fieldOf, encodeCard, Json.get, List.lookup_cons, stringOf, boolOf, nullableOf_encode,
    integerOf_intCast]

theorem idsOf_encode (ids : List String) : idsOf (encodeIds ids) = some ids := by
  show (ids.map Json.string).mapM stringOf = some ids
  induction ids with
  | nil => rfl
  | cons id rest ih => rw [List.map_cons, List.mapM_cons, ih]; rfl

theorem encodeIds_writable (ids : List String) : (encodeIds ids).Writable := by
  show Json.AllWritable (ids.map Json.string)
  induction ids with
  | nil => trivial
  | cons id rest ih => exact ⟨trivial, ih⟩

theorem encodeCard_writable {card : ProductListItem} (h : Printable card) : (encodeCard card).Writable := by
  have hnullable : ∀ s, (encodeNullable s).Writable := fun s => by cases s <;> trivial
  exact ⟨by simp, trivial, trivial, trivial, hnullable _, hnullable _, ⟨_, h.price, rfl⟩, trivial,
    ⟨_, h.quantity, rfl⟩,
    trivial, trivial⟩

variable {P}

/-- What `setJson` wrote is what `getJson` returns. -/
theorem parse_textOf {α : Type} (hprints : Json.PrintsIntegers P.numberText) {value : Json} (h : value.Writable)
    {decode : Json → Option α} {a : α} (hdecode : decode value = some a) :
    present (some (textOf P value)) = some (textOf P value) ∧ parseAs decode (textOf P value) = .ok a := by
  obtain ⟨c, rest, hcons, -⟩ := Json.stringify_cons hprints h
  have hne : textOf P value ≠ "" := by
    intro hempty
    have hlist := congrArg String.toList hempty
    rw [textOf, String.toList_ofList, hcons] at hlist
    cases hlist
  constructor
  · simp [present, hne]
  · simp [parseAs, textOf, String.toList_ofList, Json.parse_stringify hprints h, hdecode]

end CaseCellShop.Products.Cache
