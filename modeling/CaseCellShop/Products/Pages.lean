import CaseCellShop.Library.Pages
import CaseCellShop.Library.Script
import CaseCellShop.Platform.Rounding
import CaseCellShop.Products.CacheKeys
import CaseCellShop.Products.Fetch

/-! The pages of a product list (`ProductsController.listProducts`).

The controller turns the page and the page size into Numbers and checks neither, and
normalization bounds the size from above and both from below only. So a fraction reaches
the window that is passed to the database, and a large page is rounded. The window is that
of some page exactly where both are whole and the offset has at most 53 bits, and the
windows of the pages are the list of the matching products, cut into pieces. -/
namespace CaseCellShop.Products
open Number

/-- `text ? Number(text) : undefined` -/
def numberParam : Option String → Option JsNumber
  | none => none
  | some text => if text = "" then none else some (Numeral.toNumber text)

/-- The query that the controller hands to the service. -/
def controllerQuery (brand device sort page pageSize : Option String) : ProductQuery :=
  ⟨brand, device, sort, numberParam page, numberParam pageSize⟩

/-! ### The window -/

/-- The window of the query is that of some page: a whole number of products, at most 50, after those of
the pages before. -/
def WellFormed (query : NormalizedQuery) : Prop :=
  ∃ take page : Nat, 1 ≤ take ∧ take ≤ 50 ∧ 1 ≤ page ∧ query.pageSize = .finite take ∧
    skipOf query = .finite ((page - 1) * take : Nat)

/-- A page size that is taken for the default, for the largest size, or as it is. -/
inductive SizeFits : Option JsNumber → Nat → Prop
  | default {size : Option JsNumber} (h : ∀ n, size = some n → n.positive = false) : SizeFits size 24
  | unbounded : SizeFits (some (.infinite false)) 50
  | large {size : Rat} (h : 50 ≤ size) : SizeFits (some (.finite size)) 50
  | whole {size : Nat} (hpos : 1 ≤ size) (hle : size ≤ 50) : SizeFits (some (.finite size)) size

/-- A page that is taken for the first, or a whole one whose offset has at most 53 bits and is finite. -/
def PageFits (page : Option JsNumber) (take : Nat) : Prop :=
  ∀ n, page = some n → n.positive = true →
    ∃ p : Nat, n = .finite p ∧ IsNumber ((JsNumber.pred p * take : Nat) : Int) ∧ JsNumber.pred p * take < 2 ^ 1024

theorem normalizeQuery_page (P : Platform) (query : ProductQuery) :
    (∃ n, query.page = some n ∧ n.positive = true ∧ (normalizeQuery P query).page = n) ∨
      (∀ n, query.page = some n → n.positive = false) ∧ (normalizeQuery P query).page = .finite 1 := by
  unfold normalizeQuery
  cases hpage : query.page with
  | none => exact .inr ⟨nofun, rfl⟩
  | some n =>
    cases hpos : n.positive with
    | true => exact .inl ⟨n, rfl, hpos, by simp [hpos]⟩
    | false => exact .inr ⟨fun m hm => by cases hm; exact hpos, by simp [hpos]⟩

theorem finite_natCast_inj {a b : Nat} (h : JsNumber.finite a = .finite b) : a = b := by
  have hcast : (a : Rat) = b := by simpa using h
  exact_mod_cast hcast

/-- The smaller of a positive Number and 50. -/
theorem min_fifty {n : JsNumber} {take : Nat} (hpos : n.positive = true) :
    n.min (.finite 50) = .finite take ∧ 1 ≤ take ∧ take ≤ 50 ↔ SizeFits (some n) take := by
  cases n with
  | nan => cases hpos
  | infinite negative =>
    have hnegative : negative = false := by simpa [JsNumber.positive] using hpos
    subst hnegative
    constructor
    · rintro ⟨h, _⟩
      have htake : 50 = take := finite_natCast_inj h
      subst htake
      exact .unbounded
    · rintro (h | _)
      · exact absurd (h _ rfl) (by decide)
      · exact ⟨rfl, by decide, by decide⟩
  | finite q =>
    have hq : 0 < q := by simpa [JsNumber.positive] using hpos
    have hmin : (JsNumber.finite q).min (.finite 50) = .finite (if q ≤ 50 then q else 50) := rfl
    rw [hmin]
    by_cases hle : q ≤ 50
    · rw [if_pos hle]
      constructor
      · rintro ⟨h, hone, hfifty⟩
        cases h
        exact .whole hone hfifty
      · intro h
        cases h with
        | default h => exact absurd (h _ rfl) (by rw [hpos]; decide)
        | large h => exact ⟨by rw [le_antisymm hle h]; rfl, by decide, by decide⟩
        | whole hone hfifty => exact ⟨rfl, hone, hfifty⟩
    · rw [if_neg hle]
      constructor
      · rintro ⟨h, _⟩
        have htake : 50 = take := finite_natCast_inj h
        subst htake
        exact .large (not_le.mp hle).le
      · intro h
        cases h with
        | default h => exact absurd (h _ rfl) (by rw [hpos]; decide)
        | large h => exact ⟨rfl, by decide, by decide⟩
        | whole hone hfifty => exact absurd (by exact_mod_cast hfifty) hle

theorem size_iff (P : Platform) (query : ProductQuery) (take : Nat) :
    (normalizeQuery P query).pageSize = .finite take ∧ 1 ≤ take ∧ take ≤ 50 ↔ SizeFits query.pageSize take := by
  unfold normalizeQuery
  dsimp only
  generalize query.pageSize = size
  have hdefault : (∀ n, size = some n → n.positive = false) →
      (JsNumber.finite 24 = .finite take ∧ 1 ≤ take ∧ take ≤ 50 ↔ SizeFits size take) := by
    intro h
    constructor
    · rintro ⟨h24, _⟩
      have htake : 24 = take := finite_natCast_inj h24
      subst htake
      exact .default h
    · intro hfits
      cases hfits with
      | default => exact ⟨rfl, by decide, by decide⟩
      | unbounded => exact absurd (h _ rfl) (by decide)
      | large hlarge =>
        have hpos := h _ rfl
        simp only [JsNumber.positive, decide_eq_false_iff_not] at hpos
        linarith
      | whole hone =>
        have hpos := h _ rfl
        simp only [JsNumber.positive, decide_eq_false_iff_not, not_lt] at hpos
        have : take ≤ 0 := by exact_mod_cast hpos
        omega
  cases size with
  | none => exact hdefault nofun
  | some n =>
    dsimp only
    cases hpos : n.positive with
    | true => exact min_fifty hpos
    | false => exact hdefault fun m hm => by cases hm; exact hpos

section Offset
variable {query : NormalizedQuery} {take : Nat} (hsize : query.pageSize = .finite take)
include hsize

/-- The offset of a page is exact if it has at most 53 bits. -/
theorem skipOf_eq {page : Nat} (hpage : query.page = .finite ((page + 1 : Nat) : Rat)) (hpos : 1 ≤ take)
    (hle : take ≤ 50)
    (hnumber : IsNumber ((page + 1 : Nat) : Int)) (hoffset : IsNumber ((page * take : Nat) : Int)) :
    skipOf query = .finite ((page * take : Nat) : Rat) := by
  have hbefore : IsNumber page := hoffset.of_mul hpos
  have hpageLt := lt_of_isNumber_succ hbefore hnumber
  have hoffsetLt : page * take < 2 ^ 64 := lt_of_le_of_lt (Nat.mul_le_mul hpageLt.le hle) (by norm_num)
  have hsub : JsNumber.sub (.finite ((page + 1 : Nat) : Rat)) (.finite 1) = .finite page := by
    rw [← JsNumber.ofRat_of_lt hbefore (hpageLt.trans (by norm_num))]
    show JsNumber.ofRat (((page + 1 : Nat) : Rat) - 1) = _
    congr 1
    push_cast
    ring
  unfold skipOf
  rw [hpage, hsize, hsub, ← JsNumber.ofRat_of_lt hoffset hoffsetLt]
  show JsNumber.ofRat ((page : Rat) * take) = _
  push_cast
  rfl

/-- An offset is the result of a multiplication, so it has at most 53 bits. -/
theorem isNumber_of_skipOf {q : Rat} {skip : Nat} (hpage : query.page = .finite q) (h : skipOf query = .finite skip) :
    IsNumber skip := by
  unfold skipOf at h
  rw [hpage, hsize] at h
  cases hsub : JsNumber.sub (.finite q) (.finite 1) with
  | nan =>
    rw [hsub] at h
    cases h
  | infinite negative =>
    rw [hsub] at h
    by_cases hzero : (take : Rat) = 0 <;> simp [JsNumber.mul, hzero] at h
  | finite v =>
    rw [hsub] at h
    exact JsNumber.isNumber_of_ofRat h

end Offset

section Window
variable {query : NormalizedQuery} {take : Nat} (hsize : query.pageSize = .finite take) (hpos : 1 ≤ take)
    (hle : take ≤ 50)
include hsize

theorem skipOf_finite {q d : Rat} (hpage : query.page = .finite q)
    (hsub : JsNumber.sub (.finite q) (.finite 1) = .finite d) :
    skipOf query = JsNumber.ofRat (d * take) := by
  unfold skipOf
  rw [hpage, hsub, hsize]
  rfl

theorem skipOf_infinite (hpage : query.page = .infinite false) (n : Nat) : skipOf query ≠ .finite n := by
  unfold skipOf
  rw [hpage, hsize]
  by_cases hzero : (take : Rat) = 0 <;> simp [JsNumber.sub, JsNumber.mul, hzero]

include hpos

/-- A page below the first one begins before the products. -/
theorem skipOf_below_one {q : Rat} (hpage : query.page = .finite q) (hq : 0 < q) (hlt : q < 1)
    (hgrid : JsNumber.OnGrid q (JsNumber.lastPlace q)) (n : Nat) : skipOf query ≠ .finite n := by
  have hunit := JsNumber.unit_le_one_sub hgrid hq hlt
  have hflip : JsNumber.sub (.finite q) (.finite 1) = (JsNumber.ofRat (1 - q)).neg := by
    rw [← JsNumber.ofRat_neg, neg_sub]
    rfl
  cases hback : JsNumber.ofRat (1 - q) with
  | finite v =>
    have hv := JsNumber.ofRat_unit_le hunit hback
    have hone : (1 : Rat) ≤ take := by exact_mod_cast hpos
    have hvpos : 0 < v := lt_of_lt_of_le (by positivity) hv
    rw [skipOf_finite hsize hpage (d := -v) (by rw [hflip, hback]; rfl), neg_mul, JsNumber.ofRat_neg]
    intro h
    cases hproduct : JsNumber.ofRat (v * take) with
    | finite w =>
      have hw := JsNumber.ofRat_unit_le (hv.trans (le_mul_of_one_le_right hvpos.le hone)) hproduct
      have hwpos : 0 < w := lt_of_lt_of_le (by positivity) hw
      rw [hproduct] at h
      have hsame : -w = n := by simpa [JsNumber.neg] using h
      have hn : (0 : Rat) ≤ n := n.cast_nonneg
      linarith
    | _ =>
      rw [hproduct] at h
      cases h
  | _ =>
    unfold skipOf
    rw [hpage, hflip, hback, hsize]
    have htake : (take : Rat) ≠ 0 := by
      have : (0 : Rat) < take := by exact_mod_cast hpos
      exact this.ne'
    simp [JsNumber.neg, JsNumber.mul, htake]

include hle

/-- The window of a page that is a Number. -/
theorem skipOf_iff {n : JsNumber} (hpage : query.page = n) (hpositive : n.positive = true)
    (hrounded : Numeral.Rounded n) :
    (∃ page : Nat, 1 ≤ page ∧ skipOf query = .finite ((page - 1) * take : Nat)) ↔
      ∃ p : Nat, n = .finite p ∧ IsNumber ((JsNumber.pred p * take : Nat) : Int) ∧
      JsNumber.pred p * take < 2 ^ 1024 := by
  cases n with
  | nan => cases hpositive
  | infinite negative =>
    have hnegative : negative = false := by simpa [JsNumber.positive] using hpositive
    subst hnegative
    exact ⟨fun ⟨_, _, h⟩ => absurd h (skipOf_infinite hsize hpage _), nofun⟩
  | finite q =>
    have hq : 0 < q := by simpa [JsNumber.positive] using hpositive
    obtain ⟨r, hr⟩ := hrounded q rfl
    have hgrid := JsNumber.onGrid_of_ofRat hr hq
    by_cases hwhole : ∃ p : Nat, q = p
    · obtain ⟨p, rfl⟩ := hwhole
      have hp : 1 ≤ p := by exact_mod_cast hq
      have hfinite : p < 2 ^ 1024 := by
        have hcast : (p : Rat) < 2 ^ 1024 := JsNumber.lt_of_ofRat hr
        exact_mod_cast hcast
      have hsub := JsNumber.sub_one (JsNumber.isNumber_of_ofRat hr) hp hfinite
      have hskip := skipOf_finite hsize hpage hsub
      have hcast : ((JsNumber.pred p : Rat) * take) = ((JsNumber.pred p * take : Nat) : Rat) := by push_cast; rfl
      rw [hcast] at hskip
      rw [hskip]
      constructor
      · rintro ⟨page, _, h⟩
        have hsame : JsNumber.pred p = page - 1 := by
          rcases Nat.eq_zero_or_pos (JsNumber.pred p) with hzero | hpredPos
          · rw [hzero, Nat.zero_mul] at h
            have h' : ((page - 1) * take : Nat) = 0 := finite_natCast_inj (a := (page - 1) * take) (b := 0) h.symm
            rw [hzero]
            have := Nat.mul_eq_zero.mp h'
            omega
          · have hd : (2 : Rat) ^ (-52 : Int) ≤ JsNumber.pred p := by
              have hone : (1 : Rat) ≤ JsNumber.pred p := by exact_mod_cast hpredPos
              exact (zpow_le_one_of_nonpos₀ (by norm_num) (by norm_num)).trans hone
            have hpredGrid := JsNumber.onGrid_of_ofRat hsub (by exact_mod_cast hpredPos)
            rw [← hcast] at h
            exact_mod_cast JsNumber.eq_of_ofRat_mul hd hpredGrid hpos hle h
        rw [← hsame] at h
        refine ⟨p, rfl, JsNumber.isNumber_of_ofRat h, ?_⟩
        have hlt := JsNumber.lt_of_ofRat h
        exact_mod_cast hlt
      · rintro ⟨p', hp', hnumber, hlt⟩
        obtain rfl := finite_natCast_inj hp'
        exact ⟨JsNumber.pred p + 1, by omega, JsNumber.ofRat_isNumber hnumber hlt⟩
    · have hfraction : ∀ p : Nat, q ≠ p := fun p hp => hwhole ⟨p, hp⟩
      constructor
      · rintro ⟨page, _, h⟩
        by_cases hlt : q < 1
        · exact absurd h (skipOf_below_one hsize hpos hpage hq hlt hgrid _)
        · have hgt : 1 < q := lt_of_le_of_ne (not_lt.mp hlt) fun he => hfraction 1 (by rw [← he, Nat.cast_one])
          obtain ⟨hsub, hd, hpredGrid⟩ := JsNumber.sub_one_of_fraction hgrid hgt hfraction
          rw [skipOf_finite hsize hpage hsub] at h
          have hsame := JsNumber.eq_of_ofRat_mul hd hpredGrid hpos hle h
          exact absurd (show q = ((page - 1 + 1 : Nat) : Rat) by push_cast; linarith) (hfraction _)
      · rintro ⟨p, hp, _⟩
        cases hp
        exact absurd rfl (hfraction p)

end Window

/-- The window is well formed exactly when the size and the page fit. -/
theorem wellFormed_iff (P : Platform) (query : ProductQuery)
    (hrounded : ∀ n, query.page = some n → Numeral.Rounded n) :
    WellFormed (normalizeQuery P query) ↔ ∃ take, SizeFits query.pageSize take ∧ PageFits query.page take := by
  have hpages : ∀ take : Nat, (normalizeQuery P query).pageSize = .finite take → 1 ≤ take → take ≤ 50 →
      ((∃ page : Nat, 1 ≤ page ∧ skipOf (normalizeQuery P query) = .finite ((page - 1) * take : Nat)) ↔
        PageFits query.page take) := by
    intro take hsize hpos hle
    rcases normalizeQuery_page P query with ⟨n, hn, hpositive, hnormal⟩ | ⟨hdefault, hnormal⟩
    · rw [skipOf_iff hsize hpos hle hnormal hpositive (hrounded n hn)]
      constructor
      · intro h m hm _
        rw [hn] at hm
        cases hm
        exact h
      · exact fun h => h n hn hpositive
    · have hfirst : skipOf (normalizeQuery P query) = .finite ((1 - 1) * take : Nat) := by
        have hsub := JsNumber.sub_one_of_le (p := 1) le_rfl (by norm_num)
        rw [Nat.cast_one] at hsub
        rw [skipOf_finite hsize hnormal hsub]
        simp [JsNumber.pred, JsNumber.ofRat]
      refine ⟨fun _ n hn hpositive => ?_, fun _ => ⟨1, le_rfl, hfirst⟩⟩
      exact absurd (hdefault n hn) (by rw [hpositive]; decide)
  constructor
  · rintro ⟨take, page, hpos, hle, hone, hsize, hskip⟩
    exact ⟨take, (size_iff P query take).mp ⟨hsize, hpos, hle⟩, (hpages take hsize hpos hle).mp ⟨page, hone, hskip⟩⟩
  · rintro ⟨take, hsize, hpage⟩
    obtain ⟨htake, hpos, hle⟩ := (size_iff P query take).mpr hsize
    obtain ⟨page, hone, hskip⟩ := (hpages take htake hpos hle).mpr hpage
    exact ⟨take, page, hpos, hle, hone, htake, hskip⟩

/-! ### The order -/

theorem transCmp_on {α β : Type} {cmp : β → β → Ordering} (h : Std.TransCmp cmp) (f : α → β) :
    Std.TransCmp fun a b => cmp (f a) (f b) where
  eq_swap := h.eq_swap
  isLE_trans := h.isLE_trans

theorem transCmp_then {α : Type} {cmp cmp' : α → α → Ordering} (h : Std.TransCmp cmp) (h' : Std.TransCmp cmp') :
    Std.TransCmp fun a b => (cmp a b).then (cmp' a b) :=
  inferInstanceAs (Std.TransCmp (compareLex cmp cmp'))

theorem transCmp_ascending : Std.TransCmp ascending where
  eq_swap := by
    intro a b
    cases a with
    | none => cases b <;> rfl
    | some m =>
      cases b with
      | none => rfl
      | some n =>
        show compare m n = (compare n m).swap
        exact Std.OrientedCmp.eq_swap
  isLE_trans := by
    intro a b c hab hbc
    cases c with
    | none => cases a <;> rfl
    | some n =>
      cases b with
      | none => exact absurd hbc Bool.false_ne_true
      | some m =>
        cases a with
        | none => exact absurd hab Bool.false_ne_true
        | some l =>
          change (compare l m).isLE = true at hab
          change (compare m n).isLE = true at hbc
          show (compare l n).isLE = true
          exact Std.TransCmp.isLE_trans hab hbc

theorem transCmp_buildOrderBy (P : Platform) (hcollate : Std.TransCmp P.collate) (db : Database) (sort : String) :
    Std.TransCmp (buildOrderBy P db sort) := by
  have hid := transCmp_on hcollate Product.id
  have hprice := transCmp_on transCmp_ascending (priceOf db)
  have hpopularity := transCmp_on transCmp_ascending (popularityOf db)
  have hupdated : Std.TransCmp fun a b : Product => compare a.updatedAt b.updatedAt :=
    transCmp_on inferInstance Product.updatedAt
  by_cases hasc : sort = "price_asc"
  · have heq : buildOrderBy P db sort =
        fun a b => (ascending (priceOf db a) (priceOf db b)).then (P.collate a.id b.id) := by
      funext a b
      simp [buildOrderBy, hasc]
    rw [heq]
    exact transCmp_then hprice hid
  · by_cases hdesc : sort = "price_desc"
    · have heq : buildOrderBy P db sort =
          fun a b => (ascending (priceOf db b) (priceOf db a)).then (P.collate a.id b.id) := by
        funext a b
        simp [buildOrderBy, hdesc]
      rw [heq]
      exact transCmp_then hprice.opposite hid
    · have heq : buildOrderBy P db sort = fun a b =>
          (ascending (popularityOf db b) (popularityOf db a)).then
            ((compare b.updatedAt a.updatedAt).then (P.collate a.id b.id)) := by
        funext a b
        simp [buildOrderBy, hasc, hdesc]
      rw [heq]
      exact transCmp_then hpopularity.opposite (transCmp_then hupdated.opposite hid)

/-- Products that the order does not tell apart are the same. -/
theorem id_eq_of_buildOrderBy {P : Platform} (hlawful : Std.LawfulEqCmp P.collate) {db : Database} {sort : String}
    {a b : Product} (h : buildOrderBy P db sort a b = .eq) : a.id = b.id := by
  unfold buildOrderBy at h
  apply hlawful.eq_of_compare
  split at h
  · exact (Ordering.then_eq_eq.mp h).2
  · split at h
    · exact (Ordering.then_eq_eq.mp h).2
    · exact (Ordering.then_eq_eq.mp (Ordering.then_eq_eq.mp h).2).2

/-! ### The matching products -/

/-- The products that match the query, each once and in the order of the sort. -/
structure Listed (P : Platform) (db : Database) (query : NormalizedQuery) (products : List Product) : Prop where
  ids : (products.map Product.id).Nodup
  matching : ∀ product, product ∈ products ↔ product ∈ db.products.rows ∧ selected P db query none product
  sorted : products.Pairwise fun a b => buildOrderBy P db query.sort a b = .lt

/-- The matching products in the order the database returns them. -/
def listed (P : Platform) (db : Database) (query : NormalizedQuery) : List Product :=
  (db.products.rows.filter (selected P db query none)).insertionSort fun a b => buildOrderBy P db query.sort a b ≠ .gt

section Listed
variable {P : Platform} (hcollate : Std.TransCmp P.collate) (hlawful : Std.LawfulEqCmp P.collate) {db : Database}
  {query : NormalizedQuery}
include hcollate hlawful

theorem listed_listed : Listed P db query (listed P db query) := by
  have hcmp := transCmp_buildOrderBy P hcollate db query.sort
  have htrans : IsTrans Product fun a b => buildOrderBy P db query.sort a b ≠ .gt := by
    constructor
    intro a b c hab hbc
    exact Ordering.isLE_iff_ne_gt.mp
      (hcmp.isLE_trans (Ordering.isLE_iff_ne_gt.mpr hab) (Ordering.isLE_iff_ne_gt.mpr hbc))
  have htotal : Std.Total fun a b => buildOrderBy P db query.sort a b ≠ .gt := by
    constructor
    intro a b
    rw [hcmp.eq_swap (a := b)]
    cases buildOrderBy P db query.sort a b <;> simp
  have hperm : (listed P db query).Perm (db.products.rows.filter (selected P db query none)) :=
    List.perm_insertionSort _ _
  have hids : ((listed P db query).map Product.id).Nodup :=
    (hperm.map Product.id).nodup_iff.mpr ((List.filter_sublist.map _).nodup db.products.nodup)
  refine ⟨hids, fun product => ?_, ?_⟩
  · rw [hperm.mem_iff, List.mem_filter]
  · have hsorted : (listed P db query).Pairwise fun a b => buildOrderBy P db query.sort a b ≠ .gt :=
      List.pairwise_insertionSort _ _
    refine (hsorted.and (List.pairwise_map.mp hids)).imp ?_
    rintro a b ⟨hle, hne⟩
    cases hab : buildOrderBy P db query.sort a b with
    | lt => rfl
    | eq => exact absurd (id_eq_of_buildOrderBy hlawful hab) hne
    | gt => exact absurd hab hle

omit hlawful in
/-- The order leaves no choice. -/
theorem Listed.eq {products products' : List Product} (h : Listed P db query products)
    (h' : Listed P db query products') : products = products' := by
  have hcmp := transCmp_buildOrderBy P hcollate db query.sort
  have hperm : products.Perm products' := by
    rw [List.perm_ext_iff_of_nodup (h.ids.of_map _) (h'.ids.of_map _)]
    intro product
    rw [h.matching, h'.matching]
  refine hperm.eq_of_pairwise ?_ h.sorted h'.sorted
  intro a b _ _ hab hba
  rw [hcmp.eq_swap, hba] at hab
  cases hab

end Listed

theorem cards_nodup {db : Database} {products : List Product} (h : (products.map Product.id).Nodup) :
    (products.map (toListItem db)).Nodup := by
  have hids : ((products.map (toListItem db)).map ProductListItem.id) = products.map Product.id := by
    rw [List.map_map]
    rfl
  exact (hids ▸ h).of_map _

/-! ### The pages -/

/-- The same query for another page. -/
def NormalizedQuery.at (query : NormalizedQuery) (page : Nat) : NormalizedQuery := {query with page := .finite page}

/-- The windows of the pages 1, 2, ..., as many as the matching products need, are the matching
products, one window after the other; and each of the pages is a Number. -/
def Tiles (P : Platform) (db : Database) (query : NormalizedQuery) (take : Nat) : Prop :=
  ∃ products windows, Listed P db query products ∧
    (List.range (Pages.count products take)).mapM (fun k => fetchProducts P db (query.at (k + 1)) none) = .ok windows ∧
    windows.flatten = products.map (toListItem db) ∧
    ∀ k < Pages.count products take, IsNumber ((k + 1 : Nat) : Int)

/-- Every page that begins before the end of the matching products has an offset of at most 53 bits. -/
def CatalogFits (matching take : Nat) : Prop :=
  ∀ k : Nat, k * take < matching → IsNumber ((k + 1 : Nat) : Int) ∧ IsNumber ((k * take : Nat) : Int)

theorem catalogFits_of_le {matching take : Nat} (hpos : 1 ≤ take) (h : matching ≤ 2 ^ 53) :
    CatalogFits matching take := by
  intro k hk
  have hle : k ≤ k * take := Nat.le_mul_of_pos_right k hpos
  refine ⟨?_, isNumber_of_lt (by simp only [Int.natAbs_natCast]; omega)⟩
  by_cases hlast : k + 1 < 2 ^ 53
  · exact isNumber_of_lt (by simp only [Int.natAbs_natCast]; exact hlast)
  · rw [show k + 1 = 2 ^ 53 by omega]
    decide +kernel

theorem windowNumber_eq_some {n : JsNumber} {m : Nat} : windowNumber n = some m ↔ n = .finite m ∧ m < 2 ^ 63 := by
  cases n with
  | nan => simp [windowNumber]
  | infinite => simp [windowNumber]
  | finite q =>
    show (if q.den = 1 ∧ 0 ≤ q ∧ q < 2 ^ 63 then some q.num.toNat else none) = some m ↔ _
    constructor
    · intro h
      split at h
      · rename_i hq
        obtain ⟨hden, hnonneg, hlt⟩ := hq
        cases h
        have hnum : ((q.num.toNat : Nat) : Int) = q.num := Int.toNat_of_nonneg (Rat.num_nonneg.mpr hnonneg)
        have hq : q = ((q.num.toNat : Nat) : Rat) := by
          rw [← Int.cast_natCast, hnum]
          exact (Rat.coe_int_num_of_den_eq_one hden).symm
        rw [hq] at hlt
        exact ⟨by rw [← hq], by exact_mod_cast hlt⟩
      · cases h
    · rintro ⟨h, hlt⟩
      cases h
      rw [if_pos ⟨Rat.den_natCast m, m.cast_nonneg, by exact_mod_cast hlt⟩]
      simp

section Pages
variable {P : Platform} {db : Database} {query : NormalizedQuery} {take : Nat}

/-- The window of a page, as the database finds it. -/
theorem fetchProducts_page {skip : Nat} (hsize : query.pageSize = .finite take) (hle : take ≤ 50) {page : Nat}
    (hskip : windowNumber (skipOf (query.at page)) = some skip) :
    fetchProducts P db (query.at page) none =
      .ok (Pages.window ((listed P db query).map (toListItem db)) skip take) := by
  have htake : windowNumber (query.at page).pageSize = some take := by
    rw [windowNumber_eq_some]
    exact ⟨hsize, by omega⟩
  unfold fetchProducts
  rw [hskip, htake, Pages.window, ← List.map_drop, ← List.map_take]
  rfl

/-- The window of a page whose offset has at most 53 bits. -/
theorem fetchProducts_window (hsize : query.pageSize = .finite take) (hpos : 1 ≤ take) (hle : take ≤ 50) {k : Nat}
    (hpage : IsNumber ((k + 1 : Nat) : Int)) (hoffset : IsNumber ((k * take : Nat) : Int)) :
    fetchProducts P db (query.at (k + 1)) none =
      .ok (Pages.window ((listed P db query).map (toListItem db)) (k * take) take) := by
  have hsizeAt : (query.at (k + 1)).pageSize = .finite take := hsize
  have hlt := lt_of_isNumber_succ (hoffset.of_mul hpos) hpage
  refine fetchProducts_page hsize hle (windowNumber_eq_some.mpr ⟨skipOf_eq hsizeAt rfl hpos hle hpage hoffset, ?_⟩)
  exact lt_of_le_of_lt (Nat.mul_le_mul hlt.le hle) (by norm_num)

theorem skip_of_fetchProducts {only : Option (List String)} {items : List ProductListItem}
    (h : fetchProducts P db query only = .ok items) : ∃ skip, windowNumber (skipOf query) = some skip := by
  unfold fetchProducts at h
  cases hskip : windowNumber (skipOf query) with
  | some skip => exact ⟨skip, rfl⟩
  | none =>
    rw [hskip] at h
    cases h

/-- The windows are the list exactly when every page of the list has an offset of at most 53 bits. -/
theorem tiles_iff (hcollate : Std.TransCmp P.collate) (hlawful : Std.LawfulEqCmp P.collate)
    (hsize : query.pageSize = .finite take) (hpos : 1 ≤ take) (hle : take ≤ 50) :
    Tiles P db query take ↔ CatalogFits (db.products.rows.filter (selected P db query none)).length take := by
  have hlisted : Listed P db query (listed P db query) := listed_listed hcollate hlawful
  have hlength : ((listed P db query).map (toListItem db)).length =
      (db.products.rows.filter (selected P db query none)).length := by
    rw [List.length_map]
    exact (List.perm_insertionSort _ _).length_eq
  have hcount : Pages.count (listed P db query) take = Pages.count ((listed P db query).map (toListItem db)) take := by
    simp [Pages.count]
  have hcards : ((listed P db query).map (toListItem db)).Nodup := cards_nodup hlisted.ids
  have hsizeAt : ∀ page, (query.at page).pageSize = .finite take := fun _ => hsize
  constructor
  · rintro ⟨products, windows, hproducts, hfetched, hflatten, hpages⟩ k hk
    obtain rfl := hproducts.eq hcollate hlisted
    rw [← hlength, ← Pages.lt_count_iff hpos, ← hcount] at hk
    have hskip : ∀ i < Pages.count (listed P db query) take,
        ∃ skip, windowNumber (skipOf (query.at (i + 1))) = some skip := by
      intro i hi
      obtain ⟨window, hwindow⟩ := Script.mapM_ok_iff.mp ⟨windows, hfetched⟩ i (List.mem_range.mpr hi)
      exact skip_of_fetchProducts hwindow
    let offset (i : Nat) : Nat := (windowNumber (skipOf (query.at (i + 1)))).getD 0
    have hoffset : ∀ i < Pages.count (listed P db query) take,
        windowNumber (skipOf (query.at (i + 1))) = some (offset i) := by
      intro i hi
      obtain ⟨skip, hsome⟩ := hskip i hi
      show _ = some ((windowNumber (skipOf (query.at (i + 1)))).getD 0)
      rw [hsome]
      rfl
    rw [Script.mapM_of_ok fun i hi => fetchProducts_page hsize hle (hoffset i (List.mem_range.mp hi))] at hfetched
    cases hfetched
    rw [hcount] at hflatten hk hoffset
    have hexact := (Pages.flatten_windows_iff hcards hpos offset).mp hflatten k hk
    have hwindow := hoffset k hk
    rw [hexact, windowNumber_eq_some] at hwindow
    exact ⟨hpages k (hcount ▸ hk), isNumber_of_skipOf (hsizeAt (k + 1)) rfl hwindow.1⟩
  · intro h
    have hfits : ∀ k < Pages.count (listed P db query) take,
        IsNumber ((k + 1 : Nat) : Int) ∧ IsNumber ((k * take : Nat) : Int) := by
      intro k hk
      rw [hcount, Pages.lt_count_iff hpos, hlength] at hk
      exact h k hk
    have hpages : ∀ k ∈ List.range (Pages.count (listed P db query) take), fetchProducts P db (query.at (k + 1)) none =
        .ok (Pages.window ((listed P db query).map (toListItem db)) (k * take) take) := by
      intro k hk
      obtain ⟨hpage, hoffset⟩ := hfits k (List.mem_range.mp hk)
      exact fetchProducts_window hsize hpos hle hpage hoffset
    refine ⟨listed P db query, _, hlisted, Script.mapM_of_ok hpages, ?_, fun k hk => (hfits k hk).1⟩
    rw [hcount, Pages.flatten_windows, List.take_of_length_le (Pages.length_le_count_mul hpos)]

end Pages

/-- The window of a query is right, and its pages are the matching products cut into pieces, exactly when
the page, the size and the number of matching products fit. -/
theorem pages_tile_iff (P : Platform) (hcollate : Std.TransCmp P.collate) (hlawful : Std.LawfulEqCmp P.collate)
    (db : Database) (brand device sort page pageSize : Option String) :
    (WellFormed (normalizeQuery P (controllerQuery brand device sort page pageSize)) ∧ ∀ take : Nat,
        (normalizeQuery P (controllerQuery brand device sort page pageSize)).pageSize = .finite take →
          Tiles P db (normalizeQuery P (controllerQuery brand device sort page pageSize)) take) ↔
      ∃ take, SizeFits (numberParam pageSize) take ∧ PageFits (numberParam page) take ∧
        CatalogFits (db.products.rows.filter
          (selected P db (normalizeQuery P (controllerQuery brand device sort page pageSize)) none)).length take := by
  have hrounded : ∀ n, (controllerQuery brand device sort page pageSize).page = some n → Numeral.Rounded n := by
    intro n hn
    change numberParam page = some n at hn
    cases page with
    | none => cases hn
    | some text =>
      rw [numberParam] at hn
      split at hn
      · cases hn
      · cases hn
        exact Numeral.rounded_toNumber text
  rw [wellFormed_iff P _ hrounded]
  constructor
  · rintro ⟨⟨take, hsize, hpage⟩, htiles⟩
    obtain ⟨htake, hpos, hle⟩ := (size_iff P (controllerQuery brand device sort page pageSize) take).mpr hsize
    exact ⟨take, hsize, hpage, (tiles_iff hcollate hlawful htake hpos hle).mp (htiles take htake)⟩
  · rintro ⟨take, hsize, hpage, hcatalog⟩
    obtain ⟨htake, hpos, hle⟩ := (size_iff P (controllerQuery brand device sort page pageSize) take).mpr hsize
    refine ⟨⟨take, hsize, hpage⟩, fun other hother => ?_⟩
    rw [htake] at hother
    rw [← finite_natCast_inj hother]
    exact (tiles_iff hcollate hlawful htake hpos hle).mpr hcatalog

/-- Half a page is asked for. -/
theorem pages_fractional :
    ¬∀ (P : Platform), Std.TransCmp P.collate → Std.LawfulEqCmp P.collate → ∀ (db : Database)
      (brand device sort page pageSize : Option String),
      WellFormed (normalizeQuery P (controllerQuery brand device sort page pageSize)) ∧ ∀ take : Nat,
        (normalizeQuery P (controllerQuery brand device sort page pageSize)).pageSize = .finite take →
          Tiles P db (normalizeQuery P (controllerQuery brand device sort page pageSize)) take := by
  intro h
  obtain ⟨⟨take, page, _, _, _, hsize, _⟩, _⟩ := h numberLibraries (inferInstanceAs (Std.TransCmp compare))
    (inferInstanceAs (Std.LawfulEqCmp compare)) .empty none none none none (some "2.5")
  have hhalf : (normalizeQuery numberLibraries (controllerQuery none none none none (some "2.5"))).pageSize =
      .finite (5 / 2) := by
    decide +kernel
  rw [hhalf] at hsize
  have hcast : (5 / 2 : Rat) = take := by simpa using hsize
  have hden := congrArg Rat.den hcast
  rw [Rat.den_natCast] at hden
  revert hden
  decide +kernel

/-- Three cases, the second of which is not sold any more. -/
def threeCases : Database :=
  {Database.empty with
    products := ((Table.empty.set ⟨"p1", "s1", "Case", none, none, none, true, 0⟩).set
      ⟨"p2", "s2", "Case", none, none, none, false, 0⟩).set ⟨"p3", "s3", "Case", none, none, none, true, 0⟩}

/-- The second page, with one case on each. -/
theorem pages_tile_second :
    WellFormed (normalizeQuery numberLibraries (controllerQuery none none none (some " 2") (some "1.0"))) ∧
      ∀ take : Nat,
        (normalizeQuery numberLibraries (controllerQuery none none none (some " 2") (some "1.0"))).pageSize = .finite take →
          Tiles numberLibraries threeCases
            (normalizeQuery numberLibraries (controllerQuery none none none (some " 2") (some "1.0"))) take := by
  refine (pages_tile_iff numberLibraries (inferInstanceAs (Std.TransCmp compare)) (inferInstanceAs (Std.LawfulEqCmp compare))
    threeCases none none none (some " 2") (some "1.0")).mpr ⟨1, ?_, ?_, catalogFits_of_le le_rfl (by decide +kernel)⟩
  · have hsize : numberParam (some "1.0") = some (.finite (1 : Nat)) := by decide +kernel
    rw [hsize]
    exact .whole le_rfl (by decide)
  · intro n hn _
    have hpage : numberParam (some " 2") = some (.finite (2 : Nat)) := by decide +kernel
    rw [hpage] at hn
    cases hn
    exact ⟨2, rfl, by decide +kernel, by decide +kernel⟩

end CaseCellShop.Products
