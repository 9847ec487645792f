import CaseCellShop.Checkout.Acceptance
import CaseCellShop.Library.StableSort

/-! What the request hash forgets.

The hash is taken of the lines in the order of a stable sort by product id. So it forgets
the order of lines with ids that `localeCompare` tells apart, and keeps the order of the
others: of lines that repeat an id, and of ids that are canonically equivalent. -/
namespace CaseCellShop.Checkout
open StableSort

/-- The items whose product id compares equal to `productId`, in their order. -/
def tiedItems (P : Platform) (productId : String) (body : CheckoutRequest) : List CheckoutItemInput :=
  body.items.filter fun item => P.localeCompare productId item.productId = .eq

/-- Items that compare equal come in the same order in both requests. -/
def SameTies (P : Platform) (a b : CheckoutRequest) : Prop :=
  ∀ productId, tiedItems P productId a = tiedItems P productId b

/-- The hash tells the two requests apart exactly when they ask for different items. -/
def HashedAlike (P : Platform) (a b : CheckoutRequest) : Prop :=
  hashRequest P (normalizeRequest P a) = hashRequest P (normalizeRequest P b) ↔ a.items.Perm b.items

/-! ### Lines and items -/

/-- The item that a line came from. -/
def CheckoutLine.item (line : CheckoutLine) : CheckoutItemInput := ⟨line.productId, line.quantity⟩

theorem map_item {items : List CheckoutItemInput} (h : ∀ item ∈ items, invalidItem item = false) :
    (items.map fun item => (⟨item.productId, item.quantity.num.toNat⟩ : CheckoutLine)).map CheckoutLine.item =
      items := by
  rw [List.map_map]
  conv_rhs => rw [← List.map_id items]
  refine List.map_congr_left fun item hitem => ?_
  show (⟨item.productId, ((item.quantity.num.toNat : Nat) : Rat)⟩ : CheckoutItemInput) = item
  rw [← quantity_of_valid (h item hitem)]

/-- Requests with the same normal form ask for the same items. -/
theorem perm_of_normalizeRequest {P : Platform} {a b : CheckoutRequest} (ha : validateRequest a = .ok ())
    (hb : validateRequest b = .ok ()) (h : normalizeRequest P a = normalizeRequest P b) : a.items.Perm b.items := by
  have hlines : (requestLines a).Perm (requestLines b) :=
    (normalizeRequest_perm P a).symm.trans (h ▸ normalizeRequest_perm P b)
  have hitems := hlines.map CheckoutLine.item
  rwa [requestLines, requestLines, map_item (validateRequest_ok.mp ha).2,
    map_item (validateRequest_ok.mp hb).2] at hitems

section Collation
variable {P : Platform} (hcollate : Std.TransCmp P.localeCompare)
include hcollate

theorem lineLe_trans : IsTrans CheckoutLine (lineLe P) := by
  constructor
  intro a b c hab hbc
  exact Ordering.isLE_iff_ne_gt.mp
    (hcollate.isLE_trans (Ordering.isLE_iff_ne_gt.mpr hab) (Ordering.isLE_iff_ne_gt.mpr hbc))

theorem lineLe_total : Std.Total (lineLe P) := by
  constructor
  intro a b
  unfold lineLe
  rw [hcollate.eq_swap (a := b.productId)]
  cases P.localeCompare a.productId b.productId <;> simp

theorem tied_iff {a b : CheckoutLine} : Tied (lineLe P) a b ↔ P.localeCompare a.productId b.productId = .eq := by
  unfold Tied lineLe
  rw [hcollate.eq_swap (a := b.productId)]
  cases P.localeCompare a.productId b.productId <;> simp

theorem ties_requestLines (line : CheckoutLine) (body : CheckoutRequest) :
    ties (lineLe P) line (requestLines body) =
      (tiedItems P line.productId body).map fun item => ⟨item.productId, item.quantity.num.toNat⟩ := by
  unfold ties requestLines tiedItems
  rw [List.filter_map]
  congr 1
  refine List.filter_congr fun item _ => ?_
  simp [tied_iff hcollate]

theorem normalizeRequest_eq_iff {a b : CheckoutRequest} (ha : validateRequest a = .ok ())
    (hb : validateRequest b = .ok ()) : normalizeRequest P a = normalizeRequest P b ↔ SameTies P a b := by
  have := lineLe_trans hcollate
  have := lineLe_total hcollate
  have hvalid : ∀ (productId : String) (body : CheckoutRequest), validateRequest body = .ok () →
      ∀ item ∈ tiedItems P productId body, invalidItem item = false := by
    intro productId body hbody item hitem
    exact (validateRequest_ok.mp hbody).2 item (List.mem_of_mem_filter hitem)
  rw [show normalizeRequest P a = (requestLines a).insertionSort (lineLe P) from rfl,
    show normalizeRequest P b = (requestLines b).insertionSort (lineLe P) from rfl, insertionSort_eq_iff]
  constructor
  · intro h productId
    have hties := h ⟨productId, 0⟩
    rw [ties_requestLines hcollate, ties_requestLines hcollate] at hties
    rw [← map_item (hvalid productId a ha), hties, map_item (hvalid productId b hb)]
  · intro h line
    rw [ties_requestLines hcollate, ties_requestLines hcollate, h line.productId]

end Collation

/-- The hash of two valid requests is canonical exactly when, if they ask for the same items, the
items that compare equal come in the same order. -/
theorem hashedAlike_iff (P : Platform) (hcollate : Std.TransCmp P.localeCompare) (hsha : Function.Injective P.sha256)
    (a b : CheckoutRequest) (ha : validateRequest a = .ok ()) (hb : validateRequest b = .ok ()) :
    HashedAlike P a b ↔ (a.items.Perm b.items → SameTies P a b) := by
  unfold HashedAlike
  rw [hashRequest_inj hsha, ← normalizeRequest_eq_iff hcollate ha hb]
  exact ⟨fun h => h.mpr, fun h => ⟨perm_of_normalizeRequest ha hb, h⟩⟩

/-- A collation for which a letter with its accent is that letter followed by the accent. -/
def accented : Platform := ⟨compareOn fun id => if id = "caf\u00e9" then "cafe\u0301" else id, String.ofList, fun _ => "error"⟩

/-- Two orders of the same two products, with canonically equivalent ids. -/
theorem reordered_hashed_apart :
    ¬∀ (P : Platform), Std.TransCmp P.localeCompare → Function.Injective P.sha256 → ∀ a b : CheckoutRequest,
      validateRequest a = .ok () → validateRequest b = .ok () → HashedAlike P a b := by
  intro h
  have halike := h accented (inferInstanceAs (Std.TransCmp (compareOn _))) (fun _ _ => String.ofList_inj.mp)
    ⟨[⟨"caf\u00e9", 1⟩, ⟨"cafe\u0301", 1⟩]⟩
    ⟨[⟨"cafe\u0301", 1⟩, ⟨"caf\u00e9", 1⟩]⟩ (by decide +kernel) (by decide +kernel)
  have hhash := halike.mpr (.swap _ _ _)
  revert hhash
  decide +kernel

/-- Two orders of the same two products, with ids that compare as different. -/
theorem hashedAlike_reordered :
    HashedAlike accented ⟨[⟨"p1", 1⟩, ⟨"p2", 2⟩]⟩ ⟨[⟨"p2", 2⟩, ⟨"p1", 1⟩]⟩ := by
  refine (hashedAlike_iff accented (inferInstanceAs (Std.TransCmp (compareOn _)))
    (fun _ _ => String.ofList_inj.mp) _ _ (by decide +kernel) (by decide +kernel)).mpr fun _ productId => ?_
  have hapart : accented.localeCompare productId "p1" = .eq → accented.localeCompare productId "p2" ≠ .eq := by
    intro hone htwo
    have htwo' := Std.LawfulEqOrd.eq_of_compare htwo
    rw [Std.LawfulEqOrd.eq_of_compare hone] at htwo'
    revert htwo'
    decide
  unfold tiedItems
  by_cases hone : accented.localeCompare productId "p1" = .eq
  · simp [hone, hapart hone]
  · by_cases htwo : accented.localeCompare productId "p2" = .eq
    · simp [hone, htwo]
    · simp [hone, htwo]

end CaseCellShop.Checkout
