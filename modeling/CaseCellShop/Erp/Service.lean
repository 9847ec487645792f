import Mathlib.Logic.Function.Basic
import CaseCellShop.Catalog.Sync

/-! The fake ERP (`apps/fake-erp/src/erp/erp.service.ts`): the catalog it serves and
its two billing maps. -/
namespace CaseCellShop.Erp
open Catalog (ErpCatalogProduct)

structure BillingReceipt where
  invoiceId : String
  billedAt : Nat
  deriving DecidableEq, Repr

structure ErpService where
  catalog : List ErpCatalogProduct
  failBillingFor : List String
  billingByKey : String → Option BillingReceipt
  billingByOrderId : String → Option BillingReceipt

def ErpService.setCatalog (s : ErpService) (products : List ErpCatalogProduct) : ErpService :=
  {s with catalog := products}

def ErpService.enableBillingFailure (s : ErpService) (orderId : String) : ErpService :=
  {s with failBillingFor := orderId :: s.failBillingFor}

def ErpService.clearBillingFailure (s : ErpService) (orderId : String) : ErpService :=
  {s with failBillingFor := s.failBillingFor.filter fun id => id ≠ orderId}

/-- `billOrder`: a receipt is issued once per billing key. -/
def ErpService.billOrder (s : ErpService) (now : Nat) (orderId billingKey : String) :
    ErpService × Except String BillingReceipt :=
  if orderId ∈ s.failBillingFor then (s, .error "Simulated ERP billing failure")
  else
    match s.billingByKey billingKey with
    | some existing => (s, .ok existing)
    | none =>
      let receipt : BillingReceipt := ⟨"inv-" ++ orderId, now⟩
      ({s with
        billingByKey := Function.update s.billingByKey billingKey (some receipt)
        billingByOrderId := Function.update s.billingByOrderId orderId (some receipt)}, .ok receipt)

def ErpService.getBillingStatus (s : ErpService) (orderId : String) : Option BillingReceipt :=
  s.billingByOrderId orderId

/-- The three ways a billing request ends. -/
theorem billOrder_cases (s : ErpService) (now : Nat) (orderId billingKey : String) :
    (∃ message, s.billOrder now orderId billingKey = (s, .error message)) ∨
    (∃ receipt, s.billingByKey billingKey = some receipt ∧
      s.billOrder now orderId billingKey = (s, .ok receipt)) ∨
    (∃ receipt, s.billingByKey billingKey = none ∧ receipt.invoiceId = "inv-" ++ orderId ∧
      s.billOrder now orderId billingKey =
        ({s with
          billingByKey := Function.update s.billingByKey billingKey (some receipt)
          billingByOrderId := Function.update s.billingByOrderId orderId (some receipt)}, .ok receipt)) := by
  unfold ErpService.billOrder
  by_cases hfail : orderId ∈ s.failBillingFor
  · rw [if_pos hfail]
    exact .inl ⟨_, rfl⟩
  · rw [if_neg hfail]
    cases hkey : s.billingByKey billingKey with
    | some existing => exact .inr (.inl ⟨existing, rfl, rfl⟩)
    | none => exact .inr (.inr ⟨_, rfl, rfl, rfl⟩)

end CaseCellShop.Erp
