import CaseCellShop.Products.Fetch

/-! Which queries share a cache key.

The key writes the brand, the device and the sort of a query between fixed words, with
`all` for a missing brand or device, and the first three may hold any text. Two queries
share a key although they ask for different products exactly if the text of one runs
over a fixed word of the other, or if one has `all` where the other has nothing
(`queryKey_determines_iff`). -/
namespace CaseCellShop.Products
open Text

/-! ### The question a query asks the database -/

inductive SortOrder where
  | priceAscending
  | priceDescending
  | relevance
  deriving DecidableEq, Repr

def sortOrder (sort : String) : SortOrder :=
  if sort = "price_asc" then .priceAscending
  else if sort = "price_desc" then .priceDescending
  else .relevance

/-- The filter, the order and the window of `findMany`. -/
structure Question where
  brand : Option String
  device : Option String
  order : SortOrder
  skip : JsNumber
  take : JsNumber
  deriving DecidableEq, Repr

def given (text : String) : Option String := if text = "" then none else some text

def NormalizedQuery.question (query : NormalizedQuery) : Question where
  brand := given query.brand
  device := given query.device
  order := sortOrder query.sort
  skip := skipOf query
  take := query.pageSize

theorem given_inj {text text' : String} : given text = given text' ↔ text = text' := by
  unfold given
  split <;> split <;> simp_all [eq_comm]

theorem buildOrderBy_order (P : Platform) (db : Database) (sort : String) :
    buildOrderBy P db sort = match sortOrder sort with
      | .priceAscending => fun a b => (ascending (priceOf db a) (priceOf db b)).then (P.collate a.id b.id)
      | .priceDescending => fun a b => (ascending (priceOf db b) (priceOf db a)).then (P.collate a.id b.id)
      | .relevance => fun a b => (ascending (popularityOf db b) (popularityOf db a)).then
          ((compare b.updatedAt a.updatedAt).then (P.collate a.id b.id)) := by
  funext a b
  unfold buildOrderBy sortOrder
  split
  · rfl
  · split <;> rfl

/-- The answer of the database depends on nothing else. -/
theorem fetchProducts_question (P : Platform) (db : Database) (only : Option (List String))
    {query query' : NormalizedQuery} (h : query.question = query'.question) :
    fetchProducts P db query only = fetchProducts P db query' only := by
  simp only [NormalizedQuery.question, Question.mk.injEq, given_inj] at h
  obtain ⟨hbrand, hdevice, horder, hskip, htake⟩ := h
  have hselected : selected P db query only = selected P db query' only := by
    funext product
    simp only [selected, hbrand, hdevice]
  have hbuild : buildOrderBy P db query.sort = buildOrderBy P db query'.sort := by
    rw [buildOrderBy_order, buildOrderBy_order, horder]
  simp only [fetchProducts, hskip, htake, hselected, hbuild]

/-! ### The key -/

/-- The part of the key that holds free text. -/
def NormalizedQuery.shown (query : NormalizedQuery) : String :=
  orAll query.brand ++ ":device=" ++ (orAll query.device ++ ":sort=" ++ query.sort)

/-- Where the texts of two queries that share a key differ. -/
inductive Confused (query query' : NormalizedQuery) : Prop where
  | brand (h : RunsOver ":device=" (orAll query.brand) (orAll query.device ++ ":sort=" ++ query.sort)
      (orAll query'.brand) (orAll query'.device ++ ":sort=" ++ query'.sort))
  | device (hbrand : orAll query.brand = orAll query'.brand)
      (h : RunsOver ":sort=" (orAll query.device) query.sort (orAll query'.device) query'.sort)
  | all (hbrand : orAll query.brand = orAll query'.brand) (hdevice : orAll query.device = orAll query'.device)
      (hsort : query.sort = query'.sort) (h : query.brand ≠ query'.brand ∨ query.device ≠ query'.device)

theorem Confused.shown_eq {query query' : NormalizedQuery} (h : Confused query query') :
    query.shown = query'.shown := by
  unfold NormalizedQuery.shown
  cases h with
  | brand h => exact h.append_eq
  | device hbrand h => rw [hbrand, h.append_eq]
  | all hbrand hdevice hsort => rw [hbrand, hdevice, hsort]

theorem Confused.texts_ne {query query' : NormalizedQuery} (h : Confused query query') :
    query.brand ≠ query'.brand ∨ query.device ≠ query'.device := by
  cases h with
  | brand h => exact .inl fun he => h.ne (by decide) (congrArg orAll he)
  | device _ h => exact .inr fun he => h.ne (by decide) (congrArg orAll he)
  | all _ _ _ h => exact h

theorem shown_cases {query query' : NormalizedQuery} (h : query.shown = query'.shown) :
    (query.brand = query'.brand ∧ query.device = query'.device ∧ query.sort = query'.sort) ∨
      Confused query query' ∨ Confused query' query := by
  have hdeviceWord : ":device=".toList = ':' :: "device=".toList := by decide
  have hsortWord : ":sort=".toList = ':' :: "sort=".toList := by decide
  rcases append_sep_cases hdeviceWord (by decide) h with ⟨hbrand, hrest⟩ | hover | hover
  · rcases append_sep_cases hsortWord (by decide) hrest with ⟨hdevice, hsort⟩ | hover | hover
    · by_cases hsame : query.brand = query'.brand ∧ query.device = query'.device
      · exact .inl ⟨hsame.1, hsame.2, hsort⟩
      · exact .inr (.inl (.all hbrand hdevice hsort (not_and_or.mp hsame)))
    · exact .inr (.inl (.device hbrand hover))
    · exact .inr (.inr (.device hbrand.symm hover))
  · exact .inr (.inl (.brand hover))
  · exact .inr (.inr (.brand hover))

variable (P : Platform)

theorem queryKey_shown (v : Int) (query : NormalizedQuery) :
    buildProductsQueryCacheKey P v query =
      "products:query:v" ++ versionText v ++ ":" ++ ("brand=" ++ (query.shown ++ ":page=" ++
        P.numberText query.page ++ ":size=" ++ P.numberText query.pageSize)) := by
  unfold buildProductsQueryCacheKey NormalizedQuery.shown
  generalize versionText v = version
  simp only [String.append_assoc]

section
variable (htext : Function.Injective P.numberText) (hcolon : ∀ n, ':' ∉ (P.numberText n).toList)
include htext hcolon

/-- The version and the two numbers can be read off the key. -/
theorem queryKey_eq_iff {v v' : Int} {query query' : NormalizedQuery} :
    buildProductsQueryCacheKey P v query = buildProductsQueryCacheKey P v' query' ↔
      v = v' ∧ query.page = query'.page ∧ query.pageSize = query'.pageSize ∧ query.shown = query'.shown := by
  rw [queryKey_shown, queryKey_shown]
  constructor
  · intro h
    obtain ⟨hv, hrest⟩ := versioned_inj h
    have hrest := String.append_right_inj _ |>.mp hrest
    have hsizeWord : ":size=".toList = ':' :: "size=".toList := by decide
    have hpageWord : ":page=".toList = ':' :: "page=".toList := by decide
    obtain ⟨hpages, hsize⟩ := append_sep_inj hsizeWord (by decide) (hcolon _) (hcolon _) hrest
    obtain ⟨hshown, hpage⟩ := append_sep_inj hpageWord (by decide) (hcolon _) (hcolon _) hpages
    exact ⟨hv, htext hpage, htext hsize, hshown⟩
  · rintro ⟨rfl, hpage, hsize, hshown⟩
    rw [hpage, hsize, hshown]

/-- A key stands for one version and one question, as far as no other query is
confused with the one it was built for. -/
theorem queryKey_determines_iff (v v' : Int) (client client' : ProductQuery) :
    (buildProductsQueryCacheKey P v (normalizeQuery P client) =
        buildProductsQueryCacheKey P v' (normalizeQuery P client') →
      v = v' ∧ (normalizeQuery P client).question = (normalizeQuery P client').question) ↔
    (v = v' → (normalizeQuery P client).page = (normalizeQuery P client').page →
      (normalizeQuery P client).pageSize = (normalizeQuery P client').pageSize →
      ¬Confused (normalizeQuery P client) (normalizeQuery P client') ∧
        ¬Confused (normalizeQuery P client') (normalizeQuery P client)) := by
  generalize normalizeQuery P client = query
  generalize normalizeQuery P client' = query'
  rw [queryKey_eq_iff P htext hcolon]
  have hquestion : query.question = query'.question → query.brand = query'.brand ∧ query.device = query'.device := by
    intro h
    simp only [NormalizedQuery.question, Question.mk.injEq, given_inj] at h
    exact ⟨h.1, h.2.1⟩
  constructor
  · intro h hv hpage hsize
    constructor
    · intro hconfused
      obtain ⟨hbrand, hdevice⟩ := hquestion (h ⟨hv, hpage, hsize, hconfused.shown_eq⟩).2
      exact hconfused.texts_ne.elim (fun hne => hne hbrand) fun hne => hne hdevice
    · intro hconfused
      obtain ⟨hbrand, hdevice⟩ := hquestion (h ⟨hv, hpage, hsize, hconfused.shown_eq.symm⟩).2
      exact hconfused.texts_ne.elim (fun hne => hne hbrand.symm) fun hne => hne hdevice.symm
  · rintro h ⟨hv, hpage, hsize, hshown⟩
    obtain ⟨hnot, hnot'⟩ := h hv hpage hsize
    rcases shown_cases hshown with ⟨hbrand, hdevice, hsort⟩ | hconfused | hconfused
    · refine ⟨hv, ?_⟩
      simp only [NormalizedQuery.question, skipOf, hbrand, hdevice, hsort, hpage, hsize]
    · exact absurd hconfused hnot
    · exact absurd hconfused hnot'

end

/-! ### Two clients -/

def finiteText (n : Rat) : List Char :=
  if n.den = 1 then Text.integer n.num else Text.integer n.num ++ ['/'] ++ Text.decimal n.den

/-- The text of a Number; one that is not whole is written as a fraction. -/
def numberText : JsNumber → List Char
  | .nan => "NaN".toList
  | .infinite true => "-Infinity".toList
  | .infinite false => "Infinity".toList
  | .finite n => finiteText n

theorem not_mem_finiteText {c : Char} (hdigit : c.isDigit = false) (hminus : c ≠ '-') (hslash : c ≠ '/') (n : Rat) :
    c ∉ finiteText n := by
  have hnum := not_mem_integer hdigit hminus n.num
  have hden := not_mem_decimal hdigit n.den
  unfold finiteText
  split
  · exact hnum
  · simp [hnum, hden, hslash]

theorem finiteText_injective : Function.Injective finiteText := by
  intro m n h
  have hslash (k : Int) : '/' ∉ Text.integer k := not_mem_integer (by decide) (by decide) k
  unfold finiteText at h
  split at h <;> split at h
  · rename_i hm hn
    exact Rat.ext (integer_injective h) (hm.trans hn.symm)
  · exact absurd (h ▸ by simp) (hslash m.num)
  · exact absurd (h ▸ by simp) (hslash n.num)
  · obtain ⟨hnum, hden⟩ := PrefixCode.append_sep_inj (c := '/') (by simp) (not_mem_decimal (by decide) m.den)
      (not_mem_decimal (by decide) n.den) h
    exact Rat.ext (integer_injective hnum) (decimal_injective hden)

theorem numberText_injective : Function.Injective numberText := by
  -- the other texts begin with a letter or a sign and a letter
  have hother (a : JsNumber) (n : Rat) (ha : 'N' ∈ numberText a ∨ 'I' ∈ numberText a) :
      numberText a ≠ finiteText n := by
    intro h
    rw [h] at ha
    rcases ha with ha | ha <;> exact not_mem_finiteText (by decide) (by decide) (by decide) n ha
  intro a b h
  cases a with
  | finite m =>
    cases b with
    | finite n => rw [finiteText_injective h]
    | nan => exact absurd h.symm (hother _ m (by decide))
    | infinite negative => exact absurd h.symm (hother _ m (by cases negative <;> decide))
  | nan =>
    cases b with
    | finite n => exact absurd h (hother _ n (by decide))
    | nan => rfl
    | infinite negative => cases negative <;> exact absurd h (by decide)
  | infinite negative =>
    cases b with
    | finite n => exact absurd h (hother _ n (by cases negative <;> decide))
    | nan => cases negative <;> exact absurd h (by decide)
    | infinite negative' => cases negative <;> cases negative' <;> first | rfl | exact absurd h (by decide)

/-- Libraries as they behave on the queries below. -/
def numberLibraries : Platform where
  localeCompare := compare
  sha256 := String.ofList
  errorText _ := "error"
  toLowerCase := String.toLower
  numberText n := String.ofList (numberText n)
  insensitiveEquals a b := a.toLower = b.toLower
  collate := compare
  invalidArgument := "Invalid value for argument"

/-- Its lower case, character by character. -/
theorem normalizeText_numberLibraries (text : String) :
    normalizeText numberLibraries (some text) = String.ofList ((Text.trim text).toList.map Char.toLower) := by
  apply String.toList_injective
  rw [String.toList_ofList, ← String.toList_map]
  rfl

theorem numberLibraries_injective : Function.Injective numberLibraries.numberText :=
  fun _ _ h => numberText_injective (String.ofList_injective h)

theorem numberLibraries_colon (n : JsNumber) : ':' ∉ (numberLibraries.numberText n).toList := by
  show ':' ∉ (String.ofList (numberText n)).toList
  rw [String.toList_ofList]
  cases n with
  | finite n => exact not_mem_finiteText (by decide) (by decide) (by decide) n
  | nan => decide
  | infinite negative => cases negative <;> decide

/-- The first page of a brand's products for one device. -/
def asking (brand device : Option String) : ProductQuery := ⟨brand, device, none, none, none⟩

/-- All products, and those of a brand called `all`. -/
theorem queryKey_collides :
    buildProductsQueryCacheKey numberLibraries 1 (normalizeQuery numberLibraries (asking none none)) =
      buildProductsQueryCacheKey numberLibraries 1 (normalizeQuery numberLibraries (asking (some "all") none)) ∧
    (normalizeQuery numberLibraries (asking none none)).question ≠
      (normalizeQuery numberLibraries (asking (some "all") none)).question := by
  simp only [asking, normalizeQuery, normalizeText_numberLibraries]
  decide +kernel

/-- A device written into the brand. -/
example :
    buildProductsQueryCacheKey numberLibraries 1
        (normalizeQuery numberLibraries (asking (some "a:device=b") none)) =
      buildProductsQueryCacheKey numberLibraries 1
        (normalizeQuery numberLibraries (asking (some "a") (some "b:device=all"))) := by
  simp only [asking, normalizeQuery, normalizeText_numberLibraries]
  decide +kernel

theorem queryKey_determines_brand : (1 : Int) = 1 ∧
    (normalizeQuery numberLibraries (asking (some "A ") none)).question =
      (normalizeQuery numberLibraries (asking (some "a") none)).question := by
  have hsame : normalizeQuery numberLibraries (asking (some "A ") none) =
      normalizeQuery numberLibraries (asking (some "a") none) := by
    simp only [asking, normalizeQuery, normalizeText_numberLibraries]
    decide +kernel
  refine (queryKey_determines_iff numberLibraries numberLibraries_injective numberLibraries_colon 1 1
    (asking (some "A ") none) (asking (some "a") none)).mpr (fun _ _ _ => ?_) (by rw [hsame])
  rw [hsame]
  exact ⟨fun h => h.texts_ne.elim (absurd rfl) (absurd rfl), fun h => h.texts_ne.elim (absurd rfl) (absurd rfl)⟩

end CaseCellShop.Products
