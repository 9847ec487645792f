import CaseCellShop.Checkout.Request
import CaseCellShop.Platform.Number

/-! Product queries and the keys of the cache
(`apps/api/src/products/products.service.ts`).

Every key of a query list or of a product card begins with the catalog version, which
it determines. -/
namespace CaseCellShop.Products
open PrefixCode

/-- What the product code further takes from outside the repository: Unicode lower case,
the text of a Number, the case-insensitive equality of the database client, the order
of a text column, and the message of a refused argument. -/
structure Platform extends Checkout.Platform where
  toLowerCase : String → String
  numberText : JsNumber → String
  insensitiveEquals : String → String → Bool
  collate : String → String → Ordering
  invalidArgument : String

/-- `ProductQuery`; the sort is not checked by the controller. -/
structure ProductQuery where
  brand : Option String
  device : Option String
  sort : Option String
  page : Option JsNumber
  pageSize : Option JsNumber
  deriving DecidableEq, Repr

/-- `Required<ProductQuery>` -/
structure NormalizedQuery where
  brand : String
  device : String
  sort : String
  page : JsNumber
  pageSize : JsNumber
  deriving DecidableEq, Repr

/-- `text?.trim().toLowerCase() || ''` -/
def normalizeText (P : Platform) (text : Option String) : String :=
  (text.map fun t => P.toLowerCase (Text.trim t)).getD ""

def normalizeQuery (P : Platform) (query : ProductQuery) : NormalizedQuery where
  brand := normalizeText P query.brand
  device := normalizeText P query.device
  sort := query.sort.getD "relevance"
  page :=
    match query.page with
    | some page => if page.positive then page else .finite 1
    | none => .finite 1
  pageSize :=
    match query.pageSize with
    | some size => if size.positive then size.min (.finite 50) else .finite 24
    | none => .finite 24

/-! ### Keys -/

def versionText (catalogVersion : Int) : String := String.ofList (Text.integer catalogVersion)

/-- `text || 'all'` -/
def orAll (text : String) : String := if text = "" then "all" else text

def buildProductsQueryCacheKey (P : Platform) (catalogVersion : Int) (query : NormalizedQuery) : String :=
  "products:query:v" ++ versionText catalogVersion ++ ":" ++
    ("brand=" ++ orAll query.brand ++ ":device=" ++ orAll query.device ++ ":sort=" ++ query.sort ++
      ":page=" ++ P.numberText query.page ++ ":size=" ++ P.numberText query.pageSize)

def productCardKey (catalogVersion : Int) (id : String) : String :=
  "product:card:v" ++ versionText catalogVersion ++ ":" ++ id

def queryLockKey (queryKey : String) : String := "lock:" ++ queryKey

/-- `sha256([...missingIds].sort().join(','))`, of which the first 16 digits are used. -/
def buildProductHydrationLockKey (P : Platform) (catalogVersion : Int) (missingIds : List String) : String :=
  "lock:product:hydrate:v" ++ versionText catalogVersion ++ ":" ++
    ((P.sha256 (",".intercalate (Text.sort missingIds)).toList).take 16).toString

theorem versionText_stop : PrefixFree fun v : Int => (versionText v).toList ++ [':'] := by
  have h := prefixFree_of_stop Text.integer_injective (Text.not_mem_integer (c := ':') (by decide) (by decide))
  intro a b s t hab
  dsimp only [versionText] at hab
  rw [String.toList_ofList, String.toList_ofList] at hab
  exact h a b s t hab

/-- What stands before the version, the version and the rest. -/
theorem versioned_inj {word : String} {v v' : Int} {rest rest' : String}
    (h : word ++ versionText v ++ ":" ++ rest = word ++ versionText v' ++ ":" ++ rest') : v = v' ∧ rest = rest' := by
  have hlist := congrArg String.toList h
  simp only [String.toList_append, List.append_assoc, List.append_cancel_left_eq] at hlist
  have hcolon : (":" : String).toList = [':'] := rfl
  rw [hcolon, ← List.append_assoc, ← List.append_assoc] at hlist
  obtain ⟨hv, hrest⟩ := versionText_stop v v' _ _ hlist
  exact ⟨hv, String.toList_injective hrest⟩

theorem productCardKey_inj {v v' : Int} {id id' : String} (h : productCardKey v id = productCardKey v' id') :
    v = v' ∧ id = id' :=
  versioned_inj h

theorem queryKey_version {P : Platform} {v v' : Int} {query query' : NormalizedQuery}
    (h : buildProductsQueryCacheKey P v query = buildProductsQueryCacheKey P v' query') : v = v' :=
  (versioned_inj h).1

end CaseCellShop.Products
