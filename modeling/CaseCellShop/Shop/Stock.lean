import CaseCellShop.Shop.System
import CaseCellShop.Checkout.Pricing

/-! Availability under concurrent syncs.

A checkout changes a row relatively, a sync writes an availability computed from an
earlier reading. The rows stay consistent as long as every such reading still stands
when it is used; a checkout between the two is lost from `availableQty`. -/
namespace CaseCellShop.Shop
open Billing Catalog Checkout Program

/-- `availableQty = max(erpQty - reservedQty, 0)` -/
def Consistent (row : Inventory) : Prop := row.availableQty = max (row.erpQty - row.reservedQty) 0

def StockConsistent (inventory : Table Inventory.productId) : Prop := ∀ row ∈ inventory.rows, Consistent row

/-- `currentInventory?.reservedQty ?? 0` -/
def readReserved (current : Option Inventory) : Int := (current.map Inventory.reservedQty).getD 0

/-- The reading of a sync still stands: the row has the same reservation, or both
reservations exhaust the quantity the ERP reports. -/
def ReadingStands (current : Option Inventory) (product : ErpCatalogProduct)
    (inventory : Table Inventory.productId) : Prop :=
  match inventory.find? product.id with
  | none => True
  | some row =>
    readReserved current = row.reservedQty ∨
      product.erpQty ≤ readReserved current ∧ product.erpQty ≤ row.reservedQty

instance (current : Option Inventory) (product : ErpCatalogProduct) (inventory : Table Inventory.productId) :
    Decidable (ReadingStands current product inventory) := by
  unfold ReadingStands
  split <;> infer_instance

def NoNegativeQty (products : List ErpCatalogProduct) : Prop := ∀ p ∈ products, 0 ≤ p.erpQty

instance (products : List ErpCatalogProduct) : Decidable (NoNegativeQty products) :=
  inferInstanceAs (Decidable (∀ p ∈ products, 0 ≤ p.erpQty))

/-- The ERP reports no negative quantity. -/
def nonNegativeErp : Discipline where
  start _ _ := True
  call _ _ _ := True
  environment _ _ event :=
    match event with
    | .setCatalog products => NoNegativeQty products
    | _ => True

/-- Nor does a sync write a row from a reading that no longer stands; a transaction that the
store refuses writes none. -/
def readingsStand : Discipline where
  start _ _ := True
  call w q reply :=
    match q with
    | .syncProduct current product =>
      reply.takesEffect → (Catalog.syncProduct w.clock current product w.db).isOk →
        ReadingStands current product w.db.inventory
    | _ => True
  environment := nonNegativeErp.environment

variable {P : Platform}

/-! ### The two writers of a row -/

theorem reservedRow_consistent {row : Inventory} {quantity : Int} (h : Consistent row) (hpos : 0 < quantity)
    (henough : quantity ≤ row.availableQty) :
    Consistent (reservedRow row quantity) ∧
      (reservedRow row quantity).reservedQty ≤ (reservedRow row quantity).erpQty := by
  unfold Consistent at h
  have hroom : row.availableQty = row.erpQty - row.reservedQty := by omega
  constructor
  · show row.availableQty - quantity = max (row.erpQty - (row.reservedQty + quantity)) 0
    omega
  · show row.reservedQty + quantity ≤ row.erpQty
    omega

/-- Reservations keep the rows consistent, and no row they write is oversold. -/
theorem reserved_consistent {lines : List CheckoutLine} {t t' : Table Inventory.productId}
    (h : Reserved lines t t') (hpos : ∀ line ∈ lines, 0 < line.quantity) (ht : StockConsistent t) :
    StockConsistent t' ∧ ∀ row ∈ t'.rows, row ∈ t.rows ∨ row.reservedQty ≤ row.erpQty := by
  induction h with
  | nil => exact ⟨ht, fun row hrow => .inl hrow⟩
  | @cons line rest row t t' found enough _ _ _ ih =>
    have hq : (0 : Int) < line.quantity := by exact_mod_cast hpos line (.head rest)
    obtain ⟨hrow, hsold⟩ := reservedRow_consistent (ht row (Table.mem_of_find? found)) hq enough
    have hset : StockConsistent (t.set (reservedRow row line.quantity)) := by
      intro r hr
      rcases Table.mem_set.mp hr with rfl | ⟨hr, _⟩
      · exact hrow
      · exact ht r hr
    obtain ⟨hconsistent, hrows⟩ := ih (fun l hl => hpos l (.tail line hl)) hset
    refine ⟨hconsistent, fun r hr => ?_⟩
    rcases hrows r hr with hr | hr
    · rcases Table.mem_set.mp hr with rfl | ⟨hr, _⟩
      · exact .inr hsold
      · exact .inl hr
    · exact .inr hr

/-- The row a sync writes is consistent exactly when its reading stands, unless it is new
and its quantity negative. -/
theorem syncedInventory_consistent {current : Option Inventory} {product : ErpCatalogProduct} {db : Database}
    (hqty : db.inventory.find? product.id = none → 0 ≤ product.erpQty) :
    Consistent (syncedInventory current product db) ↔ ReadingStands current product db.inventory := by
  unfold syncedInventory ReadingStands
  cases hrow : db.inventory.find? product.id with
  | none =>
    have hpos := hqty hrow
    refine ⟨fun _ => trivial, fun _ => ?_⟩
    show product.erpQty = max (product.erpQty - 0) 0
    omega
  | some row =>
    show max (product.erpQty - readReserved current) 0 = max (product.erpQty - row.reservedQty) 0 ↔ _
    omega

theorem synced_consistent {clock : Clock} {current : Option Inventory} {product : ErpCatalogProduct}
    {db db' : Database} (h : Synced clock current product db db')
    (hqty : db.inventory.find? product.id = none → 0 ≤ product.erpQty)
    (hstands : ReadingStands current product db.inventory) (hdb : StockConsistent db.inventory) :
    StockConsistent db'.inventory := by
  intro row hrow
  rw [h.inventory] at hrow
  rcases Table.mem_set.mp hrow with rfl | ⟨hrow, _⟩
  · exact (syncedInventory_consistent hqty).mpr hstands
  · exact hdb row hrow

/-- What every state keeps. -/
structure InStock (w : World) : Prop where
  rows : StockConsistent w.db.inventory
  catalog : NoNegativeQty w.erp.catalog

def NoSync : Call → Prop
  | .syncProduct _ _ => False
  | _ => True

theorem Executed.inStock {w w' : World} {q : Call} (h : Executed w q w') (hq : NoSync q) (hw : InStock w) :
    InStock w' := by
  cases h with
  | synced hs => exact hq.elim
  | billedByErp orderId billingKey =>
    refine ⟨hw.rows, ?_⟩
    rcases Erp.billOrder_cases w.erp w.clock.now orderId billingKey with ⟨_, hb⟩ | ⟨_, _, hb⟩ | ⟨_, _, _, hb⟩
    · rw [hb]
      exact hw.catalog
    · rw [hb]
      exact hw.catalog
    · rw [hb]
      exact hw.catalog
  | _ => exact ⟨hw.rows, hw.catalog⟩

theorem perform_syncProduct {w : World} {current : Option Inventory} {product : ErpCatalogProduct} {a : Reply}
    (hqty : 0 ≤ product.erpQty) (hD : readingsStand.call w (.syncProduct current product) a) (hw : InStock w) :
    InStock (perform P w (.syncProduct current product) a).1 := by
  rcases perform_cases (P := P) w (.syncProduct current product) a with hsame | ⟨heffect, hexecute⟩
  · rw [hsame]
    exact hw
  · rw [hexecute]
    cases hsync : Catalog.syncProduct w.clock current product w.db with
    | error e =>
      rw [show execute P w (.syncProduct current product) = (w, .error (P.errorText e)) by
        simp only [execute, hsync, World.write]]
      exact hw
    | ok db =>
      rw [show execute P w (.syncProduct current product) = ({w with db := db}, .ok ()) by
        simp only [execute, hsync, World.write]]
      have hstands := hD heffect (by rw [hsync]; rfl)
      exact ⟨synced_consistent (syncProduct_ok hsync) (fun _ => hqty) hstands hw.rows, hw.catalog⟩

/-! ### The programs -/

/-- What a program of the back office owes: stock stays consistent. -/
abbrev SoundStock {α : Type} (P : Platform) (p : Worker α) (w : World) : Prop :=
  Machine.Sound (machine P) readingsStand InStock (fun _ _ _ => True) (fun _ _ => True) (fun _ _ => True) p w

theorem sound_noSync {α : Type} {p : Worker α} (hp : p.OnlyCalls NoSync) (w : World) : SoundStock P p w :=
  Machine.sound_of_onlyCalls (fun q w a hq hI _ => ⟨(perform_executed w q a).inStock hq hI, trivial⟩) hp w

theorem syncOne_sound {product : ErpCatalogProduct} (hqty : 0 ≤ product.erpQty) (w : World) :
    SoundStock P (Reconciliation.syncOne product) w := by
  intro w₁ a hI _ _
  refine ⟨(perform_executed w₁ _ a).inStock trivial hI, trivial, ?_⟩
  cases ((machine P).perform w₁ (.findInventory product.id) a).2 with
  | error e => trivial
  | ok current =>
    intro w₂ b hI _ hD
    exact ⟨perform_syncProduct hqty hD hI, trivial, trivial⟩

theorem getProducts_nonNegative {w : World} {a : Reply} {products : List ErpCatalogProduct} (hw : InStock w)
    (h : (perform P w .getProducts a).2 = .ok products) : NoNegativeQty products := by
  cases a with
  | answered =>
    cases h
    exact hw.catalog
  | failed message => cases h
  | lost message => cases h

theorem syncCatalog_sound (w : World) : SoundStock P Reconciliation.syncCatalog w := by
  intro w₁ a hI _ _
  refine ⟨(perform_executed w₁ _ a).inStock trivial hI, trivial, ?_⟩
  cases hr : ((machine P).perform w₁ .getProducts a).2 with
  | error e => trivial
  | ok products =>
    have hqty : NoNegativeQty products := getProducts_nonNegative hI hr
    apply Machine.sound_bind (p := each Reconciliation.syncOne products)
    refine Machine.sound_mono (Machine.sound_each (fun p hp w => syncOne_sound (hqty p hp) w) _) fun r w' _ => ?_
    cases r with
    | error e => trivial
    | ok u =>
      apply sound_noSync
      apply onlyCalls_bind (onlyCalls_call trivial)
      intro _
      exact onlyCalls_bind (onlyCalls_call trivial) fun _ => trivial

theorem onStart_stock {w w' : World} {task : Task} {program : Worker Unit}
    (h : onStart w task = some (w', program)) (hw : InStock w) : InStock w' ∧ SoundStock P program w' := by
  cases task with
  | syncCatalog =>
    cases h
    exact ⟨hw, sound_ignored (syncCatalog_sound w)⟩
  | reconcileOrders =>
    cases h
    refine ⟨hw, sound_ignored (sound_noSync (onlyCalls_mono Reconciliation.reconcileOrders_calls ?_) w)⟩
    intro q hq
    cases q <;> trivial
  | publishPending =>
    cases h
    refine ⟨hw, sound_noSync (onlyCalls_mono Outbox.publishPending_calls ?_) w⟩
    intro q hq
    cases q <;> trivial
  | consume i d =>
    obtain ⟨_, rfl, rfl⟩ := onStart_consume h
    refine ⟨⟨hw.rows, hw.catalog⟩, sound_noSync (onlyCalls_mono (consume_calls d) ?_) _⟩
    intro q hq
    cases q <;> trivial

theorem checkout_stock (P : Platform) (input : CheckoutInput) {db : Database} (h : StockConsistent db.inventory) :
    StockConsistent (checkout P input db).2.1.inventory ∧
      ∀ row ∈ (checkout P input db).2.1.inventory.rows, row ∈ db.inventory.rows ∨ row.reservedQty ≤ row.erpQty := by
  rcases checkout_db P input db with hdb | ⟨_, _, _, _, _, hvalid, hacc⟩
  · rw [hdb]
    exact ⟨h, fun row hrow => .inl hrow⟩
  · exact reserved_consistent hacc.reserved (normalizeRequest_pos hvalid) h

theorem onEvent_stock {w w' : World} {event : Event} (h : onEvent P w event = some w')
    (hD : readingsStand.environment pending w event) (hw : InStock w) : InStock w' := by
  cases event with
  | checkout input =>
    cases h
    exact ⟨(checkout_stock P input hw.rows).1, hw.catalog⟩
  | setCatalog products =>
    cases h
    exact ⟨hw.rows, hD⟩
  | expireRetry i =>
    obtain ⟨broker, _, rfl⟩ := Option.map_eq_some_iff.mp h
    exact ⟨hw.rows, hw.catalog⟩
  | duplicate i =>
    obtain ⟨broker, _, rfl⟩ := Option.map_eq_some_iff.mp h
    exact ⟨hw.rows, hw.catalog⟩
  | _ =>
    cases h
    exact ⟨hw.rows, hw.catalog⟩

/-! ### Runs -/

theorem relyGuarantee_stock :
    (machine P).RelyGuarantee readingsStand InStock (fun _ _ _ => True) (fun _ _ => True) where
  refl _ _ := trivial
  trans _ _ _ _ _ _ := trivial
  guarantee _ _ _ _ := trivial
  start w task w' program hI _ h :=
    ⟨(onStart_stock (P := P) h hI).1, (onStart_stock h hI).2, fun _ => trivial⟩
  crash w task hI := by
    refine ⟨?_, fun _ => trivial⟩
    cases task <;> exact ⟨hI.rows, hI.catalog⟩
  environment pending w event w' hI hD h := ⟨onEvent_stock h hD hI, fun _ _ => trivial⟩

/-- As long as every reading stands when it is used, all rows are consistent, and a
checkout oversells none. -/
theorem stock_consistent (P : Platform) (w : World) (actions : List Action) (c : Config)
    (hrows : StockConsistent w.db.inventory) (hcatalog : NoNegativeQty w.erp.catalog)
    (hstand : (machine P).system.Guarded readingsStand.allows (.idle w) actions)
    (hr : (machine P).system.run (.idle w) actions = some c) :
    StockConsistent c.world.db.inventory ∧
      ∀ input, ∀ row ∈ (checkout P input c.world.db).2.1.inventory.rows,
        row ∈ c.world.db.inventory.rows ∨ row.reservedQty ≤ row.erpQty := by
  have hc := relyGuarantee_stock.run (Machine.invariant_idle ⟨hrows, hcatalog⟩) hstand hr
  exact ⟨hc.1.rows, fun input => (checkout_stock P input hc.1.rows).2⟩

instance (w : World) (q : Call) (reply : Reply) : Decidable (readingsStand.call w q reply) :=
  match q with
  | .syncProduct current product =>
    (inferInstance : Decidable (reply.takesEffect → (Catalog.syncProduct w.clock current product w.db).isOk →
      ReadingStands current product w.db.inventory))
  | .getProducts | .findInventory _ | .deactivateAbsent _ | .bumpCatalogVersion | .findOrder _ | .billOrder _ _
  | .getBillingStatus _ | .findUnbilledOrders | .markBilled _ _ | .markErpFailed _ _ | .createIntegrationAttempt _
  | .publishToRetry _ | .publishToDlq _ | .ack | .nack _ | .ensureTopology | .findPendingEvents | .publish _
  | .markPublished _ | .markEventFailed _ _ => .isTrue trivial

instance : ∀ w task, Decidable (readingsStand.start w task) := fun _ _ => .isTrue trivial

instance (pending : Call → Prop) (w : World) (event : Event) :
    Decidable (readingsStand.environment pending w event) := by
  cases event <;> dsimp only [readingsStand, nonNegativeErp] <;> infer_instance

instance : ∀ w task, Decidable (nonNegativeErp.start w task) := fun _ _ => .isTrue trivial

instance : ∀ w q reply, Decidable (nonNegativeErp.call w q reply) := fun _ _ _ => .isTrue trivial

instance (pending : Call → Prop) (w : World) (event : Event) :
    Decidable (nonNegativeErp.environment pending w event) := by
  cases event <;> dsimp only [nonNegativeErp] <;> infer_instance

theorem World.fresh_stock (catalog : List ErpCatalogProduct) :
    StockConsistent (World.fresh catalog).db.inventory :=
  fun row hrow => by cases hrow

/-- A second sync reads the rows of both products, and `firstOrder` reserves them before
the sync writes the first. -/
def checkoutDuringSync : List Action :=
  wholeSync 0 2 ++ .start 0 .syncCatalog :: replies 0 [.answered, .answered] ++
    .environment (.checkout firstOrder) :: replies 0 [.answered, .answered, .answered, .answered, .answered]

theorem stock_inconsistent :
    ¬∀ (P : Platform) (w : World) (actions : List Action) (c : Config),
      StockConsistent w.db.inventory → NoNegativeQty w.erp.catalog →
      (machine P).system.Guarded nonNegativeErp.allows (.idle w) actions →
      (machine P).system.run (.idle w) actions = some c → (∀ n, c.running n = none) →
      StockConsistent c.world.db.inventory := by
  intro h
  have hrun := run_after (.idle twoProducts) checkoutDuringSync (by decide +kernel)
  have hidle := (machine plainPlatform).slots_free 1 (fun _ _ => rfl) (by decide) hrun
  have hdone : ((after (.idle twoProducts) checkoutDuringSync).running 0).isNone := by decide +kernel
  have hrows := h _ _ _ _ (World.fresh_stock _) (by decide) (by decide +kernel) hrun fun n => ?_
  · revert hrows
    unfold StockConsistent Consistent
    decide +kernel
  · cases n with
    | zero => exact Option.isNone_iff_eq_none.mp hdone
    | succ n => exact hidle _ (by omega)

/-- The order is placed between two syncs of its products. -/
def checkoutBetweenReadings : List Action :=
  wholeSync 0 2 ++ .environment (.checkout firstOrder) :: wholeSync 0 2

theorem stock_consistent_between : ∃ c,
    (machine plainPlatform).system.run (.idle twoProducts) checkoutBetweenReadings = some c ∧
      StockConsistent c.world.db.inventory ∧
      ∀ input, ∀ row ∈ (checkout plainPlatform input c.world.db).2.1.inventory.rows,
        row ∈ c.world.db.inventory.rows ∨ row.reservedQty ≤ row.erpQty :=
  have hrun := run_after (.idle twoProducts) checkoutBetweenReadings (by decide +kernel)
  ⟨_, hrun, stock_consistent plainPlatform twoProducts checkoutBetweenReadings _
    (World.fresh_stock _) (by decide) (by decide +kernel) hrun⟩

end CaseCellShop.Shop
