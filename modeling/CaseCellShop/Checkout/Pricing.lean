import CaseCellShop.Checkout.Effects
import Mathlib.Algebra.Order.BigOperators.Group.List

/-! What a priced request amounts to: its quantities per product and its total. -/
namespace CaseCellShop.Checkout
open Script

/-! ### Quantities -/

/-- How much of a product the lines ask for. -/
def requestedQty (lines : List CheckoutLine) (productId : String) : Int :=
  ((lines.filter fun line => line.productId = productId).map fun line => (line.quantity : Int)).sum

/-- How much of a product the order items hold. -/
def orderedQty (items : List OrderItem) (productId : String) : Int :=
  ((items.filter fun item => item.productId = productId).map OrderItem.quantity).sum

theorem requestedQty_cons (line : CheckoutLine) (rest : List CheckoutLine) (productId : String) :
    requestedQty (line :: rest) productId =
      (if line.productId = productId then (line.quantity : Int) else 0) + requestedQty rest productId := by
  unfold requestedQty
  by_cases h : line.productId = productId <;> simp [h]

theorem orderedQty_cons (item : OrderItem) (rest : List OrderItem) (productId : String) :
    orderedQty (item :: rest) productId =
      (if item.productId = productId then item.quantity else 0) + orderedQty rest productId := by
  unfold orderedQty
  by_cases h : item.productId = productId <;> simp [h]

theorem orderedQty_append (items items' : List OrderItem) (productId : String) :
    orderedQty (items ++ items') productId = orderedQty items productId + orderedQty items' productId := by
  unfold orderedQty
  rw [List.filter_append, List.map_append, List.sum_append]

theorem priceItem_ok {db : Database} {products : List Product} {line : CheckoutLine} {item : PricedItem}
    (h : priceItem db products line = .ok item) :
    item.productId = line.productId ∧ item.quantity = line.quantity ∧
      ∃ product ∈ products, ∃ price, product.id = line.productId ∧
        db.prices.find? product.id = some price ∧ item.unitPriceCents = price.priceCents := by
  unfold priceItem at h
  cases hproduct : products.find? fun candidate => candidate.id = line.productId with
  | none =>
    rw [hproduct] at h
    cases h
  | some product =>
    rw [hproduct] at h
    dsimp only at h
    have hid : product.id = line.productId := by simpa using List.find?_some hproduct
    cases hprice : db.prices.find? product.id with
    | none =>
      rw [hprice] at h
      cases h
    | some price =>
      rw [hprice] at h
      cases h
      exact ⟨hid, rfl, product, List.mem_of_find?_eq_some hproduct, price, hid, hprice, rfl⟩

/-- The items of a priced request hold what its lines ask for. -/
theorem orderedQty_priced {db : Database} {products : List Product} {lines : List CheckoutLine}
    {items : List PricedItem} (h : lines.mapM (priceItem db products) = .ok items)
    (orderId productId : String) :
    orderedQty (items.map (newOrderItem orderId)) productId = requestedQty lines productId := by
  induction lines generalizing items with
  | nil =>
    cases h
    rfl
  | cons line rest ih =>
    obtain ⟨item, items', hitem, hrest, rfl⟩ := mapM_cons_ok h
    obtain ⟨hid, hqty, _⟩ := priceItem_ok hitem
    rw [List.map_cons, orderedQty_cons, requestedQty_cons, ih hrest]
    simp only [newOrderItem, hid, hqty]

/-! ### Reservations per product -/

/-- The reservation of a product, none if it has no inventory row. -/
def reservedQty (inventory : Table Inventory.productId) (productId : String) : Int :=
  match inventory.find? productId with
  | none => 0
  | some row => row.reservedQty

theorem reservedQty_set (inventory : Table Inventory.productId) (row : Inventory) (productId : String) :
    reservedQty (inventory.set row) productId =
      if productId = row.productId then row.reservedQty else reservedQty inventory productId := by
  unfold reservedQty
  rw [Table.find?_set]
  by_cases h : productId = row.productId
  · rw [if_pos h, if_pos h]
  · rw [if_neg h, if_neg h]

/-- Reserving the lines adds to each product what they ask for of it. -/
theorem Reserved.reservedQty_eq {lines : List CheckoutLine} {t t' : Table Inventory.productId}
    (h : Reserved lines t t') (productId : String) :
    reservedQty t' productId = reservedQty t productId + requestedQty lines productId := by
  induction h with
  | nil => simp [requestedQty]
  | @cons line rest row t t' found _ _ _ _ ih =>
    rw [ih, reservedQty_set, requestedQty_cons]
    have hrow : row.productId = line.productId := Table.key_of_find? found
    show (if productId = row.productId then row.reservedQty + line.quantity else _) + _ = _
    by_cases hp : productId = row.productId
    · rw [if_pos hp, if_pos (by rw [hp, hrow])]
      have hres : reservedQty t productId = row.reservedQty := by
        unfold reservedQty
        rw [hp, hrow, found]
      omega
    · rw [if_neg hp, if_neg (by rw [← hrow]; exact fun h => hp h.symm)]
      omega

/-! ### The total -/

/-- The sum of quantity times unit price, as integers. -/
def exactTotal (items : List OrderItem) : Int :=
  (items.map fun item => item.quantity * item.unitPriceCents).sum

/-- One round of the code's sum, on Numbers. -/
def addItem (sum : Int) (item : OrderItem) : Int :=
  Number.add sum (Number.mul item.quantity item.unitPriceCents)

/-- The same sum as the code computes it. -/
def numberTotal (items : List OrderItem) : Int := items.foldl addItem 0

theorem numberTotal_items (orderId : String) (items : List PricedItem) :
    numberTotal (items.map (newOrderItem orderId)) = totalCents items := by
  unfold numberTotal totalCents
  rw [List.foldl_map]
  rfl

theorem addItem_exact_or_large {sum : Int} {item : OrderItem} (hsum : 0 ≤ sum) (hq : 0 ≤ item.quantity)
    (hu : 0 ≤ item.unitPriceCents) :
    addItem sum item = sum + item.quantity * item.unitPriceCents ∨ 2 ^ 53 ≤ addItem sum item := by
  have hprod : 0 ≤ item.quantity * item.unitPriceCents := Int.mul_nonneg hq hu
  unfold addItem Number.add Number.mul
  rcases Number.round_exact_or_large hprod with hmul | ⟨_, hmul⟩
  · rw [hmul]
    rcases Number.round_exact_or_large (Int.add_nonneg hsum hprod) with hadd | ⟨_, hadd⟩
    · exact .inl hadd
    · exact .inr hadd
  · exact .inr (Number.le_round (by omega))

/-- Of terms that are not negative, a sum of Numbers is the exact sum or at least 2^53. -/
theorem foldl_exact_or_large (items : List OrderItem)
    (h : ∀ item ∈ items, 0 ≤ item.quantity ∧ 0 ≤ item.unitPriceCents) (sum : Int) (hsum : 0 ≤ sum) :
    items.foldl addItem sum = sum + exactTotal items ∨ 2 ^ 53 ≤ items.foldl addItem sum := by
  induction items generalizing sum with
  | nil => simp [exactTotal]
  | cons item rest ih =>
    have hrest : ∀ x ∈ rest, 0 ≤ x.quantity ∧ 0 ≤ x.unitPriceCents := fun x hx => h x (.tail item hx)
    obtain ⟨hq, hu⟩ := h item (.head rest)
    have hprod : 0 ≤ item.quantity * item.unitPriceCents := Int.mul_nonneg hq hu
    have hexact : 0 ≤ exactTotal rest := by
      apply List.sum_nonneg
      intro x hx
      obtain ⟨y, hy, rfl⟩ := List.mem_map.mp hx
      exact Int.mul_nonneg (hrest y hy).1 (hrest y hy).2
    have hcons : exactTotal (item :: rest) = item.quantity * item.unitPriceCents + exactTotal rest := by
      simp [exactTotal]
    rw [List.foldl_cons]
    rcases addItem_exact_or_large hsum hq hu with hadd | hadd
    · rcases ih hrest (addItem sum item) (by omega) with he | hl
      · exact .inl (by omega)
      · exact .inr hl
    · rcases ih hrest (addItem sum item) (by omega) with he | hl
      · exact .inr (by omega)
      · exact .inr hl

/-- A total that fits its column is exact when no quantity and no price is negative. -/
theorem numberTotal_exact {items : List OrderItem}
    (h : ∀ item ∈ items, 0 ≤ item.quantity ∧ 0 ≤ item.unitPriceCents) (hcolumn : Int4 (numberTotal items)) :
    numberTotal items = exactTotal items := by
  rcases foldl_exact_or_large items h 0 le_rfl with he | hl
  · unfold numberTotal
    omega
  · have hlt := hcolumn.2
    unfold numberTotal at hlt
    omega

end CaseCellShop.Checkout
