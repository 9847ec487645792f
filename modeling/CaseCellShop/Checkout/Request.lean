import CaseCellShop.Platform.Text
import CaseCellShop.Store.Schema
import Mathlib.Algebra.Order.Field.Rat

/-! Checkout requests: validation, normal form, hash and locks
(`apps/api/src/checkout/checkout.service.ts`). -/
namespace CaseCellShop.Checkout
open PrefixCode

/-- What the code takes from libraries outside the repository: ICU collation
(`String.prototype.localeCompare`), SHA-256, and the message of an error of the
database client. -/
structure Platform where
  localeCompare : String → String → Ordering
  sha256 : List Char → String
  errorText : DbError → String

/-- A line of the body. The quantity is any finite Number. -/
structure CheckoutItemInput where
  productId : String
  quantity : Rat
  deriving DecidableEq, Repr

structure CheckoutRequest where
  items : List CheckoutItemInput
  deriving DecidableEq, Repr

/-- What a checkout can throw: Nest's 400, 409 and 422, or an error of the database
client, which nothing classifies. -/
inductive CheckoutError where
  | badRequest (message : String)
  | conflict (message : String)
  | unprocessableEntity (message : String)
  | database (error : DbError)
  deriving DecidableEq, Repr

def CheckoutError.status : CheckoutError → Nat
  | .badRequest _ => 400
  | .conflict _ => 409
  | .unprocessableEntity _ => 422
  | .database _ => 500

/-- `!item.productId || item.quantity <= 0 || !Number.isInteger(item.quantity)` -/
def invalidItem (item : CheckoutItemInput) : Bool :=
  item.productId = "" || item.quantity ≤ 0 || item.quantity.den ≠ 1

def validateRequest (body : CheckoutRequest) : Except CheckoutError Unit :=
  if body.items.length = 0 then .error (.badRequest "Checkout requires at least one item")
  else if body.items.any invalidItem then .error (.badRequest "Invalid checkout item")
  else .ok ()

/-- A line of the normalized body; validation has made the quantity a positive integer. -/
structure CheckoutLine where
  productId : String
  quantity : Nat
  deriving DecidableEq, Repr

/-- `left.productId.localeCompare(right.productId) <= 0` -/
def lineLe (P : Platform) (left right : CheckoutLine) : Prop :=
  P.localeCompare left.productId right.productId ≠ .gt

instance (P : Platform) : DecidableRel (lineLe P) :=
  fun _ _ => inferInstanceAs (Decidable (_ ≠ _))

/-- The lines in the order of a stable sort on the product id. -/
def normalizeRequest (P : Platform) (body : CheckoutRequest) : List CheckoutLine :=
  (body.items.map fun item => ⟨item.productId, item.quantity.num.toNat⟩).insertionSort (lineLe P)

theorem validateRequest_ok {body : CheckoutRequest} :
    validateRequest body = .ok () ↔ body.items ≠ [] ∧ ∀ item ∈ body.items, invalidItem item = false := by
  unfold validateRequest
  by_cases hlength : body.items.length = 0
  · rw [if_pos hlength]
    exact iff_of_false nofun fun h => h.1 (List.length_eq_zero_iff.mp hlength)
  · rw [if_neg hlength]
    have hne : body.items ≠ [] := fun h => hlength (List.length_eq_zero_iff.mpr h)
    cases hany : body.items.any invalidItem with
    | true =>
      obtain ⟨item, hitem, hinvalid⟩ := List.any_eq_true.mp hany
      exact iff_of_false nofun fun h => absurd hinvalid (by simp [h.2 item hitem])
    | false => exact iff_of_true rfl ⟨hne, by simpa using hany⟩

/-- The quantity of a valid item is the natural number of its line. -/
theorem quantity_of_valid {item : CheckoutItemInput} (h : invalidItem item = false) :
    item.quantity = ((item.quantity.num.toNat : Nat) : Rat) := by
  simp only [invalidItem, Bool.or_eq_false_iff, decide_eq_false_iff_not, Decidable.not_not, ne_eq] at h
  obtain ⟨⟨_, hpositive⟩, hden⟩ := h
  have hnum : 0 < item.quantity.num := Rat.num_pos.mpr (Rat.not_le.mp hpositive)
  have hcast : ((item.quantity.num.toNat : Nat) : Int) = item.quantity.num := Int.toNat_of_nonneg hnum.le
  rw [← Int.cast_natCast, hcast]
  exact (Rat.coe_int_num_of_den_eq_one hden).symm

/-- Validation leaves positive quantities only. -/
theorem normalizeRequest_pos {P : Platform} {body : CheckoutRequest} (h : validateRequest body = .ok ()) :
    ∀ line ∈ normalizeRequest P body, 0 < line.quantity := by
  intro line hline
  unfold normalizeRequest at hline
  rw [List.mem_insertionSort, List.mem_map] at hline
  obtain ⟨item, hitem, rfl⟩ := hline
  have hvalid := (validateRequest_ok.mp h).2 item hitem
  have hpos : 0 < item.quantity := by
    unfold invalidItem at hvalid
    simp only [Bool.or_eq_false_iff, decide_eq_false_iff_not] at hvalid
    exact Rat.not_le.mp hvalid.1.2
  have hnum : 0 < item.quantity.num := Rat.num_pos.mpr hpos
  show 0 < item.quantity.num.toNat
  omega

/-! ### The request hash -/

/-- `JSON.stringify` of one line. -/
def stringifyLine (line : CheckoutLine) : List Char :=
  "\x7b\"productId\":".toList ++ (Text.quote line.productId ++
    (",\"quantity\":".toList ++ (Text.decimal line.quantity ++ ['}'])))

/-- `JSON.stringify` of the normalized body. -/
def stringifyRequest (lines : List CheckoutLine) : List Char :=
  "\x7b\"items\":[".toList ++ (separated stringifyLine ',' ']' lines ++ ['}'])

def hashRequest (P : Platform) (lines : List CheckoutLine) : String :=
  P.sha256 (stringifyRequest lines)

theorem prefixFree_stringifyLine : PrefixFree stringifyLine := by
  have hquantity : PrefixFree fun q : Nat => ",\"quantity\":".toList ++ (Text.decimal q ++ ['}']) :=
    (prefixFree_of_stop Text.decimal_injective (Text.not_mem_decimal (by decide))).after _
  have hpair := (Text.prefixFree_quote.pair hquantity).after "\x7b\"productId\":".toList
  exact hpair.comp (g := fun line : CheckoutLine => (line.productId, line.quantity)) fun a b h => by
    cases a
    cases b
    cases h
    rfl

theorem stringifyRequest_injective : Function.Injective stringifyRequest := by
  have hline : ∀ line s t, stringifyLine line ++ s ≠ ']' :: t := by
    intro line s t h
    exact absurd (List.cons.inj h).1 (by decide)
  exact (((prefixFree_separated prefixFree_stringifyLine (by decide) hline).before ['}']).after
    "\x7b\"items\":[".toList).injective

/-- Without collisions of the digest, equal hashes are equal normalized bodies. -/
theorem hashRequest_inj {P : Platform} (hsha : Function.Injective P.sha256) {a b : List CheckoutLine} :
    hashRequest P a = hashRequest P b ↔ a = b :=
  ⟨fun h => stringifyRequest_injective (hsha h), fun h => congrArg _ h⟩

/-! ### Lock keys -/

def idempotencyLockKey (customerId idempotencyKey : String) : String :=
  customerId ++ ":" ++ idempotencyKey

/-- `[...new Set(productIds)].sort()` -/
def inventoryLockKeys (lines : List CheckoutLine) : List String :=
  Text.sort (lines.map CheckoutLine.productId).dedup

/-- The advisory locks of one transaction, in the order it acquires them. -/
def lockKeys (customerId idempotencyKey : String) (lines : List CheckoutLine) : List String :=
  idempotencyLockKey customerId idempotencyKey ::
    (inventoryLockKeys lines).map fun productId => "inventory:" ++ productId

example : lockKeys "customer-1" "idem-1" [⟨"prod-hot", 1⟩, ⟨"prod-1", 1⟩] =
    ["customer-1:idem-1", "inventory:prod-1", "inventory:prod-hot"] := by decide

end CaseCellShop.Checkout
