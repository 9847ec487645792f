import CaseCellShop.Checkout.Request
import CaseCellShop.Library.Locking
import Mathlib.Data.Fin.VecNotation
import Mathlib.Data.Set.Finite.Lemmas
import Mathlib.Tactic.FinCases

/-! The advisory locks of concurrent checkouts (`acquireAdvisoryLock`).

A transaction takes the lock of its idempotency key and then those of its products in
ascending order. Both are locks on one kind of string: a key whose string is
`inventory:` and a product id is that product's lock, taken out of order. Whether given
calls can come to wait for each other in a cycle is read off their keys and products
(`deadlockFree_iff`). -/
namespace CaseCellShop.Checkout
open Locking

/-- The two headers a checkout comes with. -/
structure Headers where
  customerId : String
  idempotencyKey : String
  customerId_ne : customerId ≠ ""
  idempotencyKey_ne : idempotencyKey ≠ ""

def Headers.lockKey (h : Headers) : String := idempotencyLockKey h.customerId h.idempotencyKey

/-- A checkout that has passed validation, on its way to the transaction. -/
structure Admitted extends Headers where
  body : CheckoutRequest
  valid : validateRequest body = .ok ()

variable (P : Platform)

/-- The products a checkout locks, in the order it locks them. -/
def Admitted.products (call : Admitted) : List String := inventoryLockKeys (normalizeRequest P call.body)

/-- The lock ids of a transaction. -/
def Admitted.lockIds {κ : Type} (hashtext : String → κ) (call : Admitted) : List κ :=
  (lockKeys call.customerId call.idempotencyKey (normalizeRequest P call.body)).map hashtext

section
variable {n : Nat} (calls : Fin n → Admitted)

/-- The strings that the calls lock. -/
def lockStrings : Set String :=
  {key | ∃ i, key ∈ lockKeys (calls i).customerId (calls i).idempotencyKey (normalizeRequest P (calls i).body)}

/-- Whatever the schedule of the acquisitions, no transactions wait for each other in a
cycle, as long as different lock strings have different ids. -/
def DeadlockFree : Prop :=
  ∀ (κ : Type) [DecidableEq κ] (hashtext : String → κ), Set.InjOn hashtext (lockStrings P calls) →
    ∀ s, (system fun i => (calls i).lockIds P hashtext).Reaches idle s →
      ¬Deadlock (fun i => (calls i).lockIds P hashtext) s

/-- What a call has locked when it comes to the product `p`. -/
def Admitted.lockedBefore (call : Admitted) (p : String) : Set String :=
  {key | key = call.lockKey ∨ ∃ q ∈ call.products P, Text.utf16 q < Text.utf16 p ∧ key = "inventory:" ++ q}

/-- A group of the calls, each of which has come to one of its products: they have locked
nothing in common, and each one's product is locked by another. -/
structure StandStill (group : Set (Fin n)) (stop : Fin n → String) : Prop where
  nonempty : group.Nonempty
  buys : ∀ i ∈ group, stop i ∈ (calls i).products P
  apart : ∀ i ∈ group, ∀ j ∈ group, i ≠ j →
    ∀ key ∈ (calls i).lockedBefore P (stop i), key ∉ (calls j).lockedBefore P (stop j)
  blocked : ∀ i ∈ group, ∃ j ∈ group, j ≠ i ∧ "inventory:" ++ stop i ∈ (calls j).lockedBefore P (stop j)

/-- Where a call's idempotency key is the lock of a product that another call locks,
the call has no product before that one. -/
def LockOrdered : Prop :=
  ∀ i j, i ≠ j → ∀ p ∈ (calls i).products P, (calls j).lockKey = "inventory:" ++ p →
    ∀ q ∈ (calls j).products P, Text.utf16 p ≤ Text.utf16 q

end

/-- The headers give one lock only, or none that is the lock of a product which sorts
after another one. -/
def Separate (headers : Set Headers) : Prop :=
  (∀ h ∈ headers, ∀ h' ∈ headers, h.lockKey = h'.lockKey) ∨
    ∀ h ∈ headers, ∀ p, h.lockKey = "inventory:" ++ p → ∀ q, q ≠ "" → Text.utf16 p ≤ Text.utf16 q

variable {P}

/-! ### Products -/

theorem products_ascending (call : Admitted) :
    (call.products P).Pairwise fun p q => Text.utf16 p < Text.utf16 q :=
  Text.sort_ascending (List.nodup_dedup _)

theorem mem_products {call : Admitted} {p : String} :
    p ∈ call.products P ↔ ∃ item ∈ call.body.items, item.productId = p := by
  unfold Admitted.products inventoryLockKeys normalizeRequest
  rw [(Text.sort_perm _).mem_iff, List.mem_dedup, List.mem_map]
  constructor
  · rintro ⟨line, hline, rfl⟩
    rw [List.mem_insertionSort, List.mem_map] at hline
    obtain ⟨item, hitem, rfl⟩ := hline
    exact ⟨item, hitem, rfl⟩
  · rintro ⟨item, hitem, rfl⟩
    refine ⟨⟨item.productId, item.quantity.num.toNat⟩, ?_, rfl⟩
    rw [List.mem_insertionSort]
    exact List.mem_map_of_mem hitem

/-- Validation rejects an empty product id. -/
theorem products_ne_empty {call : Admitted} {p : String} (h : p ∈ call.products P) : p ≠ "" := by
  obtain ⟨item, hitem, rfl⟩ := mem_products.mp h
  have hvalid := call.valid
  unfold validateRequest at hvalid
  split_ifs at hvalid with _ hany
  intro hempty
  apply hany
  rw [List.any_eq_true]
  refine ⟨item, hitem, ?_⟩
  unfold invalidItem
  rw [hempty]
  rfl

theorem lockIds_eq {κ : Type} (hashtext : String → κ) (call : Admitted) :
    call.lockIds P hashtext = hashtext call.lockKey ::
      (call.products P).map fun p => hashtext ("inventory:" ++ p) := by
  unfold Admitted.lockIds lockKeys
  rw [List.map_cons, List.map_map]
  rfl

/-! ### No deadlock -/

section
variable {n : Nat} {calls : Fin n → Admitted} {κ : Type} {hashtext : String → κ} {s : Taken (Fin n)}

theorem lockKey_mem (i : Fin n) : (calls i).lockKey ∈ lockStrings P calls :=
  ⟨i, List.mem_cons_self⟩

theorem inventory_mem {i : Fin n} {p : String} (h : p ∈ (calls i).products P) :
    "inventory:" ++ p ∈ lockStrings P calls :=
  ⟨i, List.mem_cons_of_mem _ (List.mem_map_of_mem h)⟩

/-- The product whose lock a transaction has come to. -/
def awaited (P : Platform) (calls : Fin n → Admitted) (s : Taken (Fin n)) (i : Fin n) : String :=
  match s i with
  | some (m + 1) => ((calls i).products P).getD m ""
  | _ => ""

/-- A transaction that waits and is waited for has taken its idempotency lock, so it
waits for the lock of a product. -/
theorem awaited_spec {i j l : Fin n} (hij : Waits (fun i => (calls i).lockIds P hashtext) s i j)
    (hli : Waits (fun i => (calls i).lockIds P hashtext) s l i) :
    ∃ m, s i = some (m + 1) ∧ ((calls i).products P)[m]? = some (awaited P calls s i) ∧
      next (fun i => (calls i).lockIds P hashtext) s i = some (hashtext ("inventory:" ++ awaited P calls s i)) := by
  obtain ⟨m, hm⟩ := hli.awaited_holds
  obtain ⟨_, lock, hnext, _⟩ := hij
  have hlock := hnext
  unfold next at hlock
  rw [hm] at hlock
  dsimp only at hlock
  rw [lockIds_eq, List.getElem?_cons_succ, List.getElem?_map, Option.map_eq_some_iff] at hlock
  obtain ⟨p, hp, rfl⟩ := hlock
  have hawaited : awaited P calls s i = p := by
    unfold awaited
    rw [hm]
    dsimp only
    rw [List.getD_eq_getElem?_getD, hp]
    rfl
  rw [hawaited]
  exact ⟨m, hm, hp, hnext⟩

/-- The products before the `m`th are those that sort before it. -/
theorem mem_take_products {call : Admitted} {m : Nat} {p q : String} (hp : (call.products P)[m]? = some p) :
    q ∈ (call.products P).take m ↔ q ∈ call.products P ∧ Text.utf16 q < Text.utf16 p := by
  obtain ⟨hm, hpm⟩ := List.getElem?_eq_some_iff.mp hp
  have hascending := List.pairwise_iff_getElem.mp (products_ascending (P := P) call)
  constructor
  · intro hq
    obtain ⟨a, ha, rfl⟩ := List.mem_take_iff_getElem.mp hq
    refine ⟨List.mem_of_mem_take hq, ?_⟩
    rw [← hpm]
    exact hascending a m (by omega) hm (by omega)
  · rintro ⟨hq, hlt⟩
    obtain ⟨a, ha, rfl⟩ := List.getElem_of_mem hq
    refine List.mem_take_iff_getElem.mpr ⟨a, ?_, rfl⟩
    by_contra hnot
    rcases Nat.lt_or_eq_of_le (show m ≤ a by omega) with hma | rfl
    · have hgt := hascending m a hm ha hma
      rw [hpm] at hgt
      exact lt_asymm hlt hgt
    · rw [hpm] at hlt
      exact lt_irrefl _ hlt

/-- A transaction that has come to a product holds what its call locks before it. -/
theorem mem_held {i : Fin n} {m : Nat} {p : String} (hs : s i = some (m + 1))
    (hp : ((calls i).products P)[m]? = some p) (lock : κ) :
    lock ∈ held (fun i => (calls i).lockIds P hashtext) s i ↔
      ∃ key ∈ (calls i).lockedBefore P p, hashtext key = lock := by
  unfold held
  rw [hs]
  dsimp only
  rw [lockIds_eq, List.take_succ_cons, ← List.map_take, List.mem_cons, List.mem_map]
  constructor
  · rintro (rfl | ⟨q, hq, rfl⟩)
    · exact ⟨_, .inl rfl, rfl⟩
    · obtain ⟨hmem, hlt⟩ := (mem_take_products hp).mp hq
      exact ⟨_, .inr ⟨q, hmem, hlt, rfl⟩, rfl⟩
  · rintro ⟨key, rfl | ⟨q, hmem, hlt, rfl⟩, rfl⟩
    · exact .inl rfl
    · exact .inr ⟨q, (mem_take_products hp).mpr ⟨hmem, hlt⟩, rfl⟩

theorem lockedBefore_subset (i : Fin n) (p : String) : (calls i).lockedBefore P p ⊆ lockStrings P calls := by
  rintro key (rfl | ⟨q, hq, _, rfl⟩)
  · exact lockKey_mem i
  · exact inventory_mem hq

/-- The transactions of a deadlock stand still before the products they wait for. -/
theorem standStill_of_deadlock (hhash : Set.InjOn hashtext (lockStrings P calls)) [DecidableEq κ]
    (hs : (system fun i => (calls i).lockIds P hashtext).Reaches idle s)
    (hdead : Deadlock (fun i => (calls i).lockIds P hashtext) s) : ∃ group stop, StandStill P calls group stop := by
  obtain ⟨t, hexclusive, hstuck, hwaited⟩ := stuck_of_reached hs hdead
  have hstop (i : Fin n) (hi : t i ≠ none) : ∃ m, t i = some (m + 1) ∧
      ((calls i).products P)[m]? = some (awaited P calls t i) ∧
      next (fun i => (calls i).lockIds P hashtext) t i = some (hashtext ("inventory:" ++ awaited P calls t i)) := by
    obtain ⟨j, hij⟩ := hstuck.waits i hi
    obtain ⟨l, hli⟩ := hwaited i hi
    exact awaited_spec hij hli
  refine ⟨{i | t i ≠ none}, awaited P calls t, hstuck.running, fun i hi => ?_, fun i hi j hj hne key hkey hkey' => hne ?_,
    fun i hi => ?_⟩
  · obtain ⟨m, _, hp, _⟩ := hstop i hi
    exact List.mem_of_getElem? hp
  · obtain ⟨_, hm, hp, _⟩ := hstop i hi
    obtain ⟨_, hm', hp', _⟩ := hstop j hj
    exact hexclusive i j (hashtext key) ((mem_held hm hp _).mpr ⟨key, hkey, rfl⟩)
      ((mem_held hm' hp' _).mpr ⟨key, hkey', rfl⟩)
  · obtain ⟨_, _, hp, hnext⟩ := hstop i hi
    obtain ⟨j, hij⟩ := hstuck.waits i hi
    obtain ⟨k, hk⟩ := hij.awaited_holds
    have hj : t j ≠ none := by simp [hk]
    obtain ⟨_, hm, hp', _⟩ := hstop j hj
    obtain ⟨hne, lock, hlock, hheld⟩ := hij
    rw [hnext] at hlock
    cases hlock
    obtain ⟨key, hkey, hsame⟩ := (mem_held hm hp' _).mp hheld
    have hmem := inventory_mem (List.mem_of_getElem? hp)
    obtain rfl := hhash (lockedBefore_subset j _ hkey) hmem hsame
    exact ⟨j, hj, hne.symm, hkey⟩

/-- Calls that can stand still do: each locks what comes before its product, and waits. -/
theorem StandStill.not_deadlockFree {group : Set (Fin n)} {stop : Fin n → String}
    (h : StandStill P calls group stop) :
    ¬DeadlockFree P calls := by
  classical
  intro hfree
  have hat (i : Fin n) (hi : i ∈ group) : ∃ m, ((calls i).products P)[m]? = some (stop i) :=
    List.mem_iff_getElem?.mp (h.buys i hi)
  choose! position hposition using hat
  let s : Taken (Fin n) := fun i => if i ∈ group then some (position i + 1) else none
  have hrunning {i : Fin n} (hi : i ∈ group) : s i = some (position i + 1) := if_pos hi
  have hgroup {i : Fin n} (hi : s i ≠ none) : i ∈ group := by
    by_contra hnot
    exact hi (if_neg hnot)
  have hmem {i : Fin n} (hi : i ∈ group) (key : String) :
      key ∈ held (fun i => (calls i).lockIds P id) s i ↔ key ∈ (calls i).lockedBefore P (stop i) := by
    rw [mem_held (hrunning hi) (hposition i hi)]
    simp
  have hexclusive : Exclusive (fun i => (calls i).lockIds P id) s := by
    intro i j lock hi hj
    have hmemi : i ∈ group := hgroup fun hnone => not_mem_held hnone lock hi
    have hmemj : j ∈ group := hgroup fun hnone => not_mem_held hnone lock hj
    by_contra hne
    exact h.apart i hmemi j hmemj hne lock ((hmem hmemi lock).mp hi) ((hmem hmemj lock).mp hj)
  have hstuck : Stuck (fun i => (calls i).lockIds P id) s := by
    obtain ⟨i, hi⟩ := h.nonempty
    refine ⟨⟨i, by simp [hrunning hi]⟩, fun i hi => ?_⟩
    obtain ⟨j, hj, hne, hkey⟩ := h.blocked i (hgroup hi)
    refine ⟨j, hne.symm, "inventory:" ++ stop i, ?_, (hmem hj _).mpr hkey⟩
    unfold next
    rw [hrunning (hgroup hi)]
    dsimp only
    rw [lockIds_eq, List.getElem?_cons_succ, List.getElem?_map, hposition i (hgroup hi)]
    rfl
  obtain ⟨hreaches, hdead⟩ := hstuck.reached hexclusive
  exact hfree String id (Set.injOn_id _) s hreaches hdead

end

section
variable {n : Nat} {calls : Fin n → Admitted}

theorem deadlockFree_of_no_standStill (h : ∀ group stop, ¬StandStill P calls group stop) : DeadlockFree P calls := by
  intro κ _ hashtext hhash s hs hdead
  obtain ⟨group, stop, hstill⟩ := standStill_of_deadlock hhash hs hdead
  exact h group stop hstill

theorem deadlockFree_of_ordered (h : LockOrdered P calls) : DeadlockFree P calls := by
  refine deadlockFree_of_no_standStill fun group stop hstill => ?_
  -- the call of the group whose product sorts last is blocked by none
  obtain ⟨i, hi, hlast⟩ := Set.exists_max_image group (fun i => Text.utf16 (stop i)) (Set.toFinite _) hstill.nonempty
  obtain ⟨j, hj, hne, hkey | ⟨q, hq, hlt, he⟩⟩ := hstill.blocked i hi
  · have hle := h i j hne.symm _ (hstill.buys i hi) hkey.symm _ (hstill.buys j hj)
    have hsame : stop j = stop i := Text.utf16_injective (le_antisymm (hlast j hj) hle)
    obtain ⟨l, hl, hnel, hlocked⟩ := hstill.blocked j hj
    rw [hsame] at hlocked
    exact hstill.apart j hj l hl hnel.symm _ (.inl hkey) hlocked
  · obtain rfl : stop i = q := String.append_right_inj _ |>.mp he
    exact absurd hlt (not_lt_of_ge (hlast j hj))

/-- Transactions that begin with the same lock never hold locks at the same time. -/
theorem deadlockFree_of_same (h : ∀ i j, (calls i).lockKey = (calls j).lockKey) : DeadlockFree P calls := by
  refine deadlockFree_of_no_standStill fun group stop hstill => ?_
  obtain ⟨i, hi⟩ := hstill.nonempty
  obtain ⟨j, hj, hne, _⟩ := hstill.blocked i hi
  exact hstill.apart i hi j hj hne.symm _ (.inl rfl) (.inl (h i j))

end

/-- Concurrent checkouts are deadlock free exactly if no group of them can stand still. -/
theorem deadlockFree_iff (P : Platform) (n : Nat) (calls : Fin n → Admitted) :
    DeadlockFree P calls ↔ ∀ (group : Set (Fin n)) (stop : Fin n → String), ¬StandStill P calls group stop :=
  ⟨fun hfree _ _ h => h.not_deadlockFree hfree, deadlockFree_of_no_standStill⟩

/-! ### A deadlock -/

/-- The products of a call are determined by which they are. -/
theorem products_eq {call : Admitted} {products : List String}
    (hasc : products.Pairwise fun p q => Text.utf16 p < Text.utf16 q)
    (hmem : ∀ p, p ∈ products ↔ ∃ item ∈ call.body.items, item.productId = p) : call.products P = products := by
  have hnodup : ∀ {ps : List String}, ps.Pairwise (fun p q => Text.utf16 p < Text.utf16 q) → ps.Nodup :=
    fun h => h.imp fun hlt he => absurd (he ▸ hlt) (lt_irrefl _)
  have hperm : (call.products P).Perm products := by
    apply (List.perm_ext_iff_of_nodup (hnodup (products_ascending call)) (hnodup hasc)).mpr
    exact fun p => mem_products.trans (hmem p).symm
  exact hperm.eq_of_pairwise (fun p q _ _ hpq hqp => absurd hqp (lt_asymm hpq)) (products_ascending call) hasc

/-- One unit of each product. -/
def oneOf (products : List String) : CheckoutRequest := ⟨products.map fun p => ⟨p, 1⟩⟩

theorem validateRequest_oneOf {p : String} {products : List String} (h : ∀ q ∈ p :: products, q ≠ "") :
    validateRequest (oneOf (p :: products)) = .ok () := by
  unfold validateRequest
  rw [if_neg (by simp [oneOf]), if_neg]
  rw [List.any_eq_true]
  rintro ⟨item, hitem, hinvalid⟩
  obtain ⟨q, hq, rfl⟩ := List.mem_map.mp hitem
  have hvalid : invalidItem ⟨q, 1⟩ = false := by
    show (decide (q = "") || decide ((1 : Rat) ≤ 0) || decide ((1 : Rat).den ≠ 1)) = false
    rw [decide_eq_false (h q hq)]
    decide
  rw [hvalid] at hinvalid
  cases hinvalid

theorem products_oneOf {call : Admitted} {products : List String} (hbody : call.body = oneOf products)
    (hasc : products.Pairwise fun p q => Text.utf16 p < Text.utf16 q) : call.products P = products := by
  apply products_eq hasc
  intro p
  rw [hbody]
  simp [oneOf]

/-- A call whose key is the lock of `p`, with a product before `p`, and one with another
key that locks both: each ends up waiting for the other. -/
theorem rivals_not_deadlockFree (calls : Fin 2 → Admitted) {p q : String} (hqp : Text.utf16 q < Text.utf16 p)
    (hkey : (calls 0).lockKey = "inventory:" ++ p) (hne : (calls 1).lockKey ≠ (calls 0).lockKey)
    (hproducts₀ : (calls 0).products P = [q]) (hproducts₁ : (calls 1).products P = [q, p]) :
    ¬DeadlockFree P calls := by
  have hbefore₀ (key : String) : key ∈ (calls 0).lockedBefore P q ↔ key = "inventory:" ++ p := by
    simp [Admitted.lockedBefore, hproducts₀, hkey]
  have hbefore₁ (key : String) :
      key ∈ (calls 1).lockedBefore P p ↔ key = (calls 1).lockKey ∨ key = "inventory:" ++ q := by
    simp [Admitted.lockedBefore, hproducts₁, hqp]
  have hpq : "inventory:" ++ p ≠ "inventory:" ++ q := by
    intro he
    rw [String.append_right_inj] at he
    exact absurd hqp (he ▸ lt_irrefl _)
  have hapart : ∀ key ∈ (calls 0).lockedBefore P q, key ∉ (calls 1).lockedBefore P p := by
    intro key h₀ h₁
    obtain rfl := (hbefore₀ key).mp h₀
    rcases (hbefore₁ _).mp h₁ with he | he
    · exact hne (he.symm.trans hkey.symm)
    · exact hpq he
  have hstill : StandStill P calls Set.univ ![q, p] := by
    refine ⟨Set.univ_nonempty, fun i _ => ?_, fun i _ j _ hij => ?_, fun i _ => ?_⟩
    · fin_cases i
      · simp [hproducts₀]
      · simp [hproducts₁]
    · fin_cases i <;> fin_cases j
      · exact absurd rfl hij
      · exact hapart
      · exact fun key h₁ h₀ => hapart key h₀ h₁
      · exact absurd rfl hij
    · fin_cases i
      · exact ⟨1, trivial, by decide, (hbefore₁ _).mpr (.inr rfl)⟩
      · exact ⟨0, trivial, by decide, (hbefore₀ _).mpr rfl⟩
  exact hstill.not_deadlockFree

/-! ### Which headers are safe -/

/-- Checkouts under the headers are deadlock free, whatever their items and however many
there are, exactly if the headers are separate. -/
theorem checkouts_deadlockFree (P : Platform) (headers : Set Headers) :
    (∀ (n : Nat) (calls : Fin n → Admitted), (∀ i, (calls i).toHeaders ∈ headers) → DeadlockFree P calls) ↔
      Separate headers := by
  constructor
  · intro hfree
    by_contra hsep
    simp only [Separate, not_or, not_forall, not_le] at hsep
    obtain ⟨⟨h₁, hh₁, h₂, hh₂, hne⟩, h, hh, p, hp, q, hq, hqp⟩ := hsep
    -- some headers do not give the lock of `h`
    obtain ⟨other, hother, hneother⟩ : ∃ other ∈ headers, other.lockKey ≠ h.lockKey := by
      by_cases he : h₁.lockKey = h.lockKey
      · exact ⟨h₂, hh₂, fun he₂ => hne (he.trans he₂.symm)⟩
      · exact ⟨h₁, hh₁, he⟩
    have hpne : p ≠ "" := by
      intro he
      rw [he] at hqp
      exact List.not_lt_nil _ hqp
    have hasc : [q, p].Pairwise fun p q => Text.utf16 p < Text.utf16 q := List.pairwise_pair.mpr hqp
    have hvalid₀ : validateRequest (oneOf [q]) = .ok () :=
      validateRequest_oneOf fun r hr => List.mem_singleton.mp hr ▸ hq
    have hvalid₁ : validateRequest (oneOf [q, p]) = .ok () := by
      apply validateRequest_oneOf
      intro r hr
      rcases List.mem_cons.mp hr with rfl | hr
      · exact hq
      · exact List.mem_singleton.mp hr ▸ hpne
    refine rivals_not_deadlockFree ![⟨h, oneOf [q], hvalid₀⟩, ⟨other, oneOf [q, p], hvalid₁⟩] hqp hp hneother
      (products_oneOf rfl (List.pairwise_singleton _ _)) (products_oneOf rfl hasc) (hfree 2 _ ?_)
    intro i
    fin_cases i
    · exact hh
    · exact hother
  · intro hsep n calls hcalls
    rcases hsep with hsame | hfirst
    · exact deadlockFree_of_same fun i j => hsame _ (hcalls i) _ (hcalls j)
    · exact deadlockFree_of_ordered fun i j _ p _ hkey q hq => hfirst _ (hcalls j) p hkey q (products_ne_empty hq)

/-- The customer `inventory` buys `p1` under the key `p2`; another one buys both. -/
def rivals : Fin 2 → Admitted :=
  ![⟨⟨"inventory", "p2", by decide, by decide⟩, oneOf ["p1"], by decide +kernel⟩,
    ⟨⟨"c", "k", by decide, by decide⟩, oneOf ["p1", "p2"], by decide +kernel⟩]

theorem checkouts_deadlock : ¬∀ (P : Platform) (n : Nat) (calls : Fin n → Admitted), DeadlockFree P calls := by
  intro h
  have hlt : Text.utf16 "p1" < Text.utf16 "p2" := by decide
  exact rivals_not_deadlockFree rivals hlt (by decide) (by decide)
    (products_oneOf rfl (List.pairwise_singleton _ _)) (products_oneOf rfl (List.pairwise_pair.mpr hlt))
    (h ⟨fun _ _ => .eq, String.ofList, fun _ => ""⟩ 2 rivals)

end CaseCellShop.Checkout
