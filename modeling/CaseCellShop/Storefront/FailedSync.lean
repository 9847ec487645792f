import CaseCellShop.Catalog.Admission
import CaseCellShop.Storefront.Freshness

/-! A sync that throws.

The products are committed one at a time, and only the last call of a sync increments the
catalog version. A sync that throws after its first commit has changed rows without
telling the readers, unless all that failed is the confirmation of that last call
(`failed_sync_iff`). -/
namespace CaseCellShop.Storefront
open Catalog Program Shop

variable {P : Checkout.Platform}

/-! ### What a sync leaves of a row -/

/-- The inventory row of a product is there, and was synced at least as often. -/
def SyncedSince (id : String) (version : Int) (db : Database) : Prop :=
  ∃ row, db.inventory.find? id = some row ∧ version ≤ row.version

theorem syncProduct_since {clock : Clock} {current : Option Inventory} {p : ErpCatalogProduct} {db db' : Database}
    (h : syncProduct clock current p db = .ok db') {id : String} {version : Int} (hdb : SyncedSince id version db) :
    SyncedSince id version db' := by
  obtain ⟨row, hrow, hle⟩ := hdb
  rw [SyncedSince, (syncProduct_ok h).inventory]
  simp only [Table.find?_set, syncedInventory_productId]
  by_cases hid : id = p.id
  · subst hid
    refine ⟨_, if_pos rfl, ?_⟩
    simp only [syncedInventory, hrow]
    omega
  · exact ⟨row, by rw [if_neg hid, hrow], hle⟩

theorem syncCall_since {w : Shop.World} {q : Shop.Call} (hq : Reconciliation.SyncCall q) (reply : Reply) {id : String}
    {version : Int} (hw : SyncedSince id version w.db) : SyncedSince id version (Shop.perform P w q reply).1.db := by
  have hexecute : SyncedSince id version (Shop.execute P w q).1.db := by
    cases q with
    | getProducts => exact hw
    | findInventory productId => exact hw
    | syncProduct current p =>
      simp only [Shop.execute]
      cases hstep : Catalog.syncProduct w.clock current p w.db with
      | error e => exact hw
      | ok db => exact syncProduct_since hstep hw
    | deactivateAbsent activeIds => exact hw
    | bumpCatalogVersion =>
      simp only [Shop.execute]
      cases hstep : Catalog.bumpCatalogVersion w.db with
      | error e => exact hw
      | ok db =>
        rw [bumpCatalogVersion_ok hstep]
        exact hw
    | _ => exact hq.elim
  cases reply with
  | answered => exact hexecute
  | failed message => exact hw
  | lost message => exact hexecute

/-- The row is new, or newer than before. -/
theorem syncProduct_inventory_ne {clock : Clock} {current : Option Inventory} {p : ErpCatalogProduct}
    {db db' db'' : Database} (h : syncProduct clock current p db = .ok db')
    (hsince : ∀ version, SyncedSince p.id version db' → SyncedSince p.id version db'') :
    db''.inventory.find? p.id ≠ db.inventory.find? p.id := by
  have hrow : db'.inventory.find? p.id = some (syncedInventory current p db) := by
    rw [(syncProduct_ok h).inventory, Table.find?_set, syncedInventory_productId, if_pos rfl]
  obtain ⟨row, hlast, hle⟩ := hsince _ ⟨_, hrow, le_refl _⟩
  intro he
  rw [hlast] at he
  simp only [syncedInventory, ← he] at hle
  omega

/-! ### The catalog version -/

/-- A task that stops at a failed call goes on only from an answer. -/
theorem complete_request {α : Type} {q : Shop.Call} {next : Except String (Shop.Answer q) → Worker α}
    {choices : List (Nat × Reply)} {w w' : Shop.World}
    {calls : List ((q : Shop.Call) × Except String (Shop.Answer q))} {result : Except String α}
    (h : complete (Shop.perform P) choices (await q next) w = some (calls, result, w'))
    (hstops : ∀ e, next (.error e) = done (.error e)) :
    ∃ i reply rest, choices = (i, reply) :: rest ∧
      (reply ≠ .answered ∧ w' = (Shop.perform P w q reply).1 ∨
        reply = .answered ∧ ∃ calls', complete (Shop.perform P) rest (next (Shop.execute P w q).2)
          (Shop.execute P w q).1 = some (calls', result, w')) := by
  obtain ⟨i, reply, rest, calls', rfl, -, hrest⟩ := complete_await h
  refine ⟨i, reply, rest, rfl, ?_⟩
  cases reply with
  | answered => exact .inr ⟨rfl, calls', hrest⟩
  | failed message =>
    rw [Shop.perform, hstops] at hrest
    exact .inl ⟨nofun, (complete_done hrest).2.2⟩
  | lost message =>
    rw [Shop.perform, hstops] at hrest
    exact .inl ⟨nofun, (complete_done hrest).2.2⟩

/-- What follows the products. -/
def finish (activeIds : List String) (synced : Nat) : Worker Reconciliation.SyncResult := do
  request (.deactivateAbsent activeIds)
  let catalogVersion : Int ← request .bumpCatalogVersion
  return ⟨synced, catalogVersion⟩

/-- The calls before the `n`th are answered, and the answer to that one is lost. -/
def LostAt (n : Nat) (replies : List Reply) : Prop :=
  (∀ reply ∈ replies.take n, reply = .answered) ∧ ∃ message, replies[n]? = some (.lost message)

theorem lostAt_zero {reply : Reply} {replies : List Reply} :
    LostAt 0 (reply :: replies) ↔ ∃ message, reply = .lost message := by
  simp [LostAt]

theorem lostAt_succ {n : Nat} {reply : Reply} {replies : List Reply} :
    LostAt (n + 1) (reply :: replies) ↔ reply = .answered ∧ LostAt n replies := by
  simp [LostAt, and_assoc]

/-- The version is the next one in one case, and as it was in the other. -/
def VersionMoves (db db' : Database) (p : Prop) : Prop :=
  db'.catalogVersion = some (nextCatalogVersion db.catalogVersion) ∧ p ∨ db'.catalogVersion = db.catalogVersion ∧ ¬p

theorem bumpCatalogVersion_iff (db : Database) :
    (∃ db', bumpCatalogVersion db = .ok db') ↔ Int4 (nextCatalogVersion db.catalogVersion) := by
  constructor
  · rintro ⟨db', h⟩
    obtain ⟨_, hrange, _⟩ := bind_ok.mp h
    exact require_ok.mp hrange
  · intro h
    exact ⟨_, bind_ok.mpr ⟨(), require_ok.mpr h, rfl⟩⟩

theorem finish_moves {activeIds : List String} {synced : Nat} {choices : List (Nat × Reply)} {w w' : Shop.World}
    {calls : List ((q : Shop.Call) × Except String (Shop.Answer q))} {e : String}
    (h : complete (Shop.perform P) choices (finish activeIds synced) w = some (calls, .error e, w')) :
    VersionMoves w.db w'.db
      (LostAt 1 (choices.map Prod.snd) ∧ Int4 (nextCatalogVersion w.db.catalogVersion)) := by
  obtain ⟨i, reply, choices, rfl, ⟨hne, rfl⟩ | ⟨rfl, calls', h₁⟩⟩ := complete_request h fun _ => rfl
  · refine .inr ⟨?_, by simp [lostAt_succ, hne]⟩
    cases reply <;> rfl
  · obtain ⟨j, reply, choices, calls'', rfl, -, h₂⟩ := complete_await h₁
    rw [List.map_cons, lostAt_succ, List.map_cons, lostAt_zero]
    have hbump := bumpCatalogVersion_iff (deactivateAbsent w.clock.now activeIds w.db)
    cases hstep : bumpCatalogVersion (deactivateAbsent w.clock.now activeIds w.db) with
    | ok db =>
      have hversion := bumpCatalogVersion_ok hstep
      have hrange : Int4 (nextCatalogVersion w.db.catalogVersion) := hbump.mp ⟨db, hstep⟩
      cases reply with
      | answered =>
        simp only [Shop.perform, Shop.execute, hstep] at h₂
        obtain ⟨_, hresult, _⟩ := complete_done h₂
        cases hresult
      | failed message =>
        obtain ⟨_, _, rfl⟩ := complete_done h₂
        exact .inr ⟨rfl, by simp⟩
      | lost message =>
        simp only [Shop.perform, Shop.execute, hstep] at h₂
        obtain ⟨_, _, rfl⟩ := complete_done h₂
        refine .inl ⟨?_, by simp [hrange]⟩
        rw [hversion]
        rfl
    | error e' =>
      have hrange : ¬Int4 (nextCatalogVersion w.db.catalogVersion) := by
        intro hrange
        obtain ⟨db, hok⟩ := hbump.mpr hrange
        rw [hstep] at hok
        cases hok
      refine .inr ⟨?_, fun hall => hrange hall.2⟩
      cases reply with
      | failed message =>
        obtain ⟨_, _, rfl⟩ := complete_done h₂
        rfl
      | _ =>
        simp only [Shop.perform, Shop.execute, hstep] at h₂
        obtain ⟨_, _, rfl⟩ := complete_done h₂
        rfl

theorem syncEach_moves {activeIds : List String} {synced : Nat} (products : List ErpCatalogProduct)
    {choices : List (Nat × Reply)} {w w' : Shop.World}
    {calls : List ((q : Shop.Call) × Except String (Shop.Answer q))} {e : String}
    (h : complete (Shop.perform P) choices
      (each Reconciliation.syncOne products >>= fun _ => finish activeIds synced) w = some (calls, .error e, w')) :
    VersionMoves w.db w'.db (LostAt (2 * products.length + 1) (choices.map Prod.snd) ∧
      (syncProducts w.clock products w.db).1 = .ok () ∧ Int4 (nextCatalogVersion w.db.catalogVersion)) := by
  induction products generalizing choices w calls with
  | nil => simpa [syncProducts] using finish_moves h
  | cons p rest ih =>
    obtain ⟨i, reply, choices, rfl, ⟨hne, rfl⟩ | ⟨rfl, calls', h₁⟩⟩ := complete_request h fun _ => rfl
    · refine .inr ⟨?_, by simp [lostAt_succ, hne]⟩
      cases reply <;> rfl
    · obtain ⟨j, reply, choices, calls'', rfl, -, h₂⟩ := complete_await h₁
      rw [List.length_cons, show 2 * (rest.length + 1) + 1 = 2 * rest.length + 1 + 1 + 1 by omega,
        List.map_cons, lostAt_succ, List.map_cons, lostAt_succ]
      unfold syncProducts
      cases hstep : Catalog.syncProduct w.clock (w.db.inventory.find? p.id) p w.db with
      | error e' =>
        refine .inr ⟨?_, by simp⟩
        cases reply with
        | failed message =>
          obtain ⟨_, _, rfl⟩ := complete_done h₂
          rfl
        | _ =>
          simp only [Shop.perform, Shop.execute, World.write, hstep] at h₂
          obtain ⟨_, _, rfl⟩ := complete_done h₂
          rfl
      | ok db =>
        have hversion : db.catalogVersion = w.db.catalogVersion := by rw [(syncProduct_ok hstep).others]
        cases reply with
        | failed message =>
          obtain ⟨_, _, rfl⟩ := complete_done h₂
          exact .inr ⟨rfl, by simp⟩
        | lost message =>
          simp only [Shop.perform, Shop.execute, World.write, hstep] at h₂
          obtain ⟨_, _, rfl⟩ := complete_done h₂
          exact .inr ⟨hversion, by simp⟩
        | answered =>
          simp only [Shop.perform, Shop.execute, World.write, hstep] at h₂
          have hmoves := ih h₂
          simp only [VersionMoves, hversion] at hmoves ⊢
          simpa using hmoves

/-! ### The rows -/

/-- No product, price, inventory or compatibility row was written, added or deleted. -/
structure NoRowDiffers (db db' : Database) : Prop where
  products : ∀ id, db'.products.find? id = db.products.find? id
  prices : ∀ id, db'.prices.find? id = db.prices.find? id
  inventory : ∀ id, db'.inventory.find? id = db.inventory.find? id
  compatibilities : ∀ c, c ∈ db'.compatibilities.rows ↔ c ∈ db.compatibilities.rows

theorem NoRowDiffers.refl (db : Database) : NoRowDiffers db db :=
  ⟨fun _ => rfl, fun _ => rfl, fun _ => rfl, fun _ => Iff.rfl⟩

/-- The first commit of the sync is made and changes a row: the transaction of the first
product, or the deactivation of all products when the list is empty. -/
def FirstCommitted (w : Shop.World) (replies : List Reply) : Prop :=
  match w.erp.catalog, replies with
  | p :: _, .answered :: .answered :: transaction :: _ => transaction.takesEffect = true ∧ Admitted w.db [p]
  | [], .answered :: deactivation :: _ =>
    deactivation.takesEffect = true ∧ ∃ row ∈ w.db.products.rows, row.active = true ∨ row.updatedAt ≠ w.clock.now
  | _, _ => False

theorem finish_rows {activeIds : List String} {synced : Nat} {choices : List (Nat × Reply)} {w w' : Shop.World}
    {calls : List ((q : Shop.Call) × Except String (Shop.Answer q))}
    {result : Except String Reconciliation.SyncResult}
    (h : complete (Shop.perform P) choices (finish activeIds synced) w = some (calls, result, w')) :
    ∃ i reply rest, choices = (i, reply) :: rest ∧ NoRowDiffers
      (if reply.takesEffect then deactivateAbsent w.clock.now activeIds w.db else w.db) w'.db := by
  obtain ⟨i, reply, choices, rfl, ⟨hne, rfl⟩ | ⟨rfl, calls', h₁⟩⟩ := complete_request h fun _ => rfl
  · refine ⟨i, reply, choices, rfl, ?_⟩
    cases reply <;> exact .refl _
  · refine ⟨i, .answered, choices, rfl, ?_⟩
    obtain ⟨j, reply, choices, calls'', rfl, -, h₂⟩ := complete_await h₁
    have hlast : ∀ (u : Shop.World) (answer : Except String Int),
        complete (Shop.perform P) choices ((done answer).bind fun version => pure ⟨synced, version⟩) u =
          some (calls'', result, w') → w' = u := by
      intro u answer h
      cases answer <;> exact (complete_done h).2.2
    rw [hlast _ _ h₂]
    cases reply with
    | failed message => exact .refl _
    | _ =>
      simp only [Shop.perform, Shop.execute]
      cases hstep : bumpCatalogVersion (deactivateAbsent w.clock.now activeIds w.db) with
      | error e => exact .refl _
      | ok db =>
        rw [bumpCatalogVersion_ok hstep]
        exact ⟨fun _ => rfl, fun _ => rfl, fun _ => rfl, fun _ => Iff.rfl⟩

theorem deactivateAbsent_nil {now : Nat} {db : Database} :
    (∀ id, (deactivateAbsent now [] db).products.find? id = db.products.find? id) ↔
      ∀ row ∈ db.products.rows, row.active = false ∧ row.updatedAt = now := by
  simp only [deactivateAbsent, Table.find?_modify]
  constructor
  · intro h row hrow
    have hsame := h row.id
    rw [Table.find?_key hrow] at hsame
    simp only [Option.map_some, Option.some.injEq, deactivate, List.not_mem_nil, if_false] at hsame
    rw [← hsame]
    exact ⟨rfl, rfl⟩
  · intro h id
    cases hrow : db.products.find? id with
    | none => rfl
    | some row =>
      obtain ⟨hactive, hupdated⟩ := h row (Table.mem_of_find? hrow)
      simp [deactivate, ← hactive, ← hupdated]

/-- Rows differ exactly if the first commit is made: every later one only counts the
syncs of its product further. -/
theorem noRowDiffers_iff {w w' : Shop.World} (hdevices : Devices w.clock w.db) {choices : List (Nat × Reply)}
    {calls : List ((q : Shop.Call) × Except String (Shop.Answer q))} {e : String}
    (h : complete (Shop.perform P) choices Reconciliation.syncCatalog w = some (calls, .error e, w')) :
    NoRowDiffers w.db w'.db ↔ ¬FirstCommitted w (choices.map Prod.snd) := by
  obtain ⟨i, reply, choices, rfl, ⟨hne, rfl⟩ | ⟨rfl, calls₁, h₁⟩⟩ := complete_request h fun _ => rfl
  · cases reply with
    | answered => exact absurd rfl hne
    | _ => simp [FirstCommitted, Shop.perform, Shop.execute, NoRowDiffers.refl]
  · cases hcatalog : w.erp.catalog with
    | nil =>
      simp only [Shop.execute, hcatalog] at h₁
      obtain ⟨j, reply, choices, rfl, hrows⟩ := finish_rows h₁
      simp only [FirstCommitted, hcatalog, List.map_cons]
      cases htakes : reply.takesEffect with
      | false =>
        rw [htakes] at hrows
        simpa using hrows
      | true =>
        rw [htakes] at hrows
        have hsame : NoRowDiffers w.db w'.db ↔
            ∀ id, (deactivateAbsent w.clock.now [] w.db).products.find? id = w.db.products.find? id := by
          constructor
          · intro h id
            rw [← h.products]
            exact (hrows.products id).symm
          · intro h
            exact ⟨fun id => (hrows.products id).trans (h id), hrows.prices, hrows.inventory, hrows.compatibilities⟩
        rw [hsame, deactivateAbsent_nil]
        simp
    | cons p rest =>
      have hcalls := Reconciliation.syncCatalog_calls.2 (.ok (p :: rest))
      simp only [Shop.execute, hcatalog] at h₁
      obtain ⟨j, reply, choices, rfl, ⟨hne, rfl⟩ | ⟨rfl, calls₂, h₂⟩⟩ := complete_request h₁ fun _ => rfl
      · simp only [FirstCommitted, hcatalog, List.map_cons]
        cases reply with
        | answered => exact absurd rfl hne
        | _ => simp [Shop.perform, Shop.execute, NoRowDiffers.refl]
      · simp only [FirstCommitted, hcatalog, List.map_cons]
        obtain ⟨k, reply, choices, calls₃, rfl, -, h₃⟩ := complete_await h₂
        show _ ↔ ¬(reply.takesEffect = true ∧ Admitted w.db [p])
        rw [← syncProduct_iff p hdevices]
        cases hstep : Catalog.syncProduct w.clock (w.db.inventory.find? p.id) p w.db with
        | error e' =>
          have hw : w' = w := by
            cases reply with
            | failed message => exact (complete_done h₃).2.2
            | _ =>
              simp only [Shop.perform, Shop.execute, World.write, hstep] at h₃
              exact (complete_done h₃).2.2
          simp [hw, NoRowDiffers.refl]
        | ok db =>
          cases htakes : reply.takesEffect with
          | false =>
            have hw : w' = w := by
              cases reply with
              | failed message => exact (complete_done h₃).2.2
              | _ => cases htakes
            simp [hw, NoRowDiffers.refl]
          | true =>
            have hafter : (Shop.perform P w (.syncProduct (w.db.inventory.find? p.id) p) reply).1.db = db := by
              cases reply with
              | failed message => cases htakes
              | _ => simp only [Shop.perform, Shop.execute, World.write, hstep]
            have hsince : ∀ version, SyncedSince p.id version db → SyncedSince p.id version w'.db := by
              intro version hdb
              have hrest := (hcalls.2 (.ok (w.db.inventory.find? p.id))).2
                (Shop.perform P w (.syncProduct (w.db.inventory.find? p.id) p) reply).2
              exact (complete_onlyCalls (I := fun u : Shop.World => SyncedSince p.id version u.db)
                (fun q u reply hq hu => syncCall_since hq reply hu) hrest (hafter ▸ hdb) h₃).1
            simpa using fun hsame : NoRowDiffers w.db w'.db =>
              syncProduct_inventory_ne hstep hsince (hsame.inventory p.id)

/-- Nothing failed but the confirmation of the new version. -/
structure OnlyConfirmationLost (w : Shop.World) (replies : List Reply) : Prop where
  lost : LostAt (2 * w.erp.catalog.length + 2) replies
  admitted : Admitted w.db w.erp.catalog
  inRange : Int4 (nextCatalogVersion w.db.catalogVersion)

theorem syncCatalog_moves {w w' : Shop.World} (hdevices : Devices w.clock w.db) {choices : List (Nat × Reply)}
    {calls : List ((q : Shop.Call) × Except String (Shop.Answer q))} {e : String}
    (h : complete (Shop.perform P) choices Reconciliation.syncCatalog w = some (calls, .error e, w')) :
    VersionMoves w.db w'.db (OnlyConfirmationLost w (choices.map Prod.snd)) := by
  obtain ⟨i, reply, choices, rfl, hgoes⟩ := complete_request h fun _ => rfl
  have hiff : OnlyConfirmationLost w (reply :: choices.map Prod.snd) ↔ reply = .answered ∧
      LostAt (2 * w.erp.catalog.length + 1) (choices.map Prod.snd) ∧
        (syncProducts w.clock w.erp.catalog w.db).1 = .ok () ∧ Int4 (nextCatalogVersion w.db.catalogVersion) := by
    rw [syncProducts_iff _ hdevices, ← and_assoc, ← lostAt_succ]
    exact ⟨fun h => ⟨h.lost, h.admitted, h.inRange⟩, fun ⟨hlost, hadmitted, hrange⟩ => ⟨hlost, hadmitted, hrange⟩⟩
  rw [List.map_cons, hiff]
  obtain ⟨hne, rfl⟩ | ⟨rfl, calls₁, h₁⟩ := hgoes
  · refine .inr ⟨?_, by simp [hne]⟩
    cases reply <;> rfl
  · simp only [true_and]
    exact syncEach_moves w.erp.catalog h₁

/-- The version that a read meets moved, if the row of it was there before. -/
theorem VersionMoves.readerVersion_iff {db db' : Database} {p : Prop} (h : VersionMoves db db' p) :
    Products.readerVersion db'.catalogVersion = Products.readerVersion db.catalogVersion + 1 ↔
      p ∧ db.catalogVersion.isSome = true := by
  unfold Products.readerVersion
  rcases h with ⟨hversion, hp⟩ | ⟨hversion, hp⟩
  · rw [hversion]
    cases db.catalogVersion <;> simp [nextCatalogVersion, hp]
  · rw [hversion]
    simp [hp]

/-- Under the incremented version no read looks up what was cached under the others. -/
theorem incremented_notServed {L : Products.Platform} {redis : Products.Redis} {version : Int} {shop : Shop.World}
    (hcached : KeysUnder L (Set.Iic version) redis)
    (hversion : Products.readerVersion shop.db.catalogVersion = version + 1) {read : Read}
    {choices : List (Nat × Reply)} {calls : Trace} {w : Products.World}
    (h : read.run L choices ⟨shop, redis⟩ = some (calls, w)) : NotServedFrom calls (.synced redis) := by
  intro call hcall
  rcases (read_ran h).calls call hcall with hq | hq
  · rw [hq]
    trivial
  · refine untouched_of_newer (hcached.mono fun v hv => ?_) hq
    show v < Products.readerVersion shop.db.catalogVersion
    have hle : v ≤ version := hv
    omega

/-- When a sync throws, no row differs or the readers' version is incremented exactly if
the first commit was not made, or all that failed is the confirmation of the new version
of a row that was there before. -/
theorem failed_sync_iff (P : Checkout.Platform) (w w' : Shop.World) (choices : List (Nat × Reply))
    (calls : List ((q : Shop.Call) × Except String (Shop.Answer q))) (e : String) (hdevices : Devices w.clock w.db)
    (h : complete (Shop.perform P) choices Reconciliation.syncCatalog w = some (calls, .error e, w')) :
    (NoRowDiffers w.db w'.db ∨
        Products.readerVersion w'.db.catalogVersion = Products.readerVersion w.db.catalogVersion + 1 ↔
      ¬FirstCommitted w (choices.map Prod.snd) ∨
        OnlyConfirmationLost w (choices.map Prod.snd) ∧ w.db.catalogVersion.isSome = true) ∧
    (Products.readerVersion w'.db.catalogVersion = Products.readerVersion w.db.catalogVersion + 1 →
      ∀ (L : Products.Platform) (redis : Products.Redis),
        KeysUnder L (Set.Iic (Products.readerVersion w.db.catalogVersion)) redis →
        ∀ (read : Read) (choices : List (Nat × Reply)) (calls : Trace) (w'' : Products.World),
          read.run L choices ⟨w', redis⟩ = some (calls, w'') → NotServedFrom calls (.synced redis)) := by
  constructor
  · rw [noRowDiffers_iff hdevices h, (syncCatalog_moves hdevices h).readerVersion_iff]
  · intro hversion L redis hcached read choices calls w'' hread
    exact incremented_notServed hcached hversion hread

/-! ### A price that was raised -/

/-- A case that was synced at 500, and the ERP lists this now. -/
def soldAt500 (catalog : List ErpCatalogProduct) : Shop.World :=
  {World.fresh catalog with db := (Catalog.syncCatalog (World.fresh []).clock [listed "p1" 500 3] .empty).2}

theorem soldAt500_devices (catalog : List ErpCatalogProduct) :
    Devices (soldAt500 catalog).clock (soldAt500 catalog).db := by
  have hnone : (soldAt500 catalog).db.deviceModels.rows = [] := rfl
  refine ⟨fun d hd => ?_, fun _ _ h => h, fun slug _ d hd => ?_⟩
  · rw [hnone] at hd
    cases hd
  · rw [hnone] at hd
    cases hd

/-- The case costs more now, and a new one has its sku. -/
def takenSku : List ErpCatalogProduct := [listed "p1" 600 3, {listed "p2" 700 1 with sku := "p1"}]

theorem exists_throw {α : Type} (run : Option (List ((q : Shop.Call) × Except String (Shop.Answer q)) ×
      Except String α × Shop.World)) (check : Shop.World → Bool)
    (h : run.any (fun r => r.2.1.toOption.isNone && check r.2.2) = true) :
    ∃ calls e w', run = some (calls, .error e, w') ∧ check w' = true := by
  cases run with
  | none => cases h
  | some r =>
    obtain ⟨calls, result, w'⟩ := r
    cases result with
    | error e => exact ⟨calls, e, w', rfl, h⟩
    | ok a => cases h

/-- What the API shows as the price of the case. -/
def shownPrice (w : Products.World) : Option (Int × Products.World) := do
  let (_, result, w') ← complete (Products.perform plainLibraries) (List.replicate 4 (0, .answered))
    (Products.getProductById "p1") w
  let card ← result.toOption.getD none
  return (card.priceCents, w')

/-- The case is read, synced at its new price by a sync that throws at the next product,
and read again. -/
def readAroundSync : Option (Int × Option Int × Int) := do
  let (before, w) ← shownPrice ⟨soldAt500 takenSku, .empty⟩
  let (_, _, shop) ← complete (Shop.perform plainPlatform) (List.replicate 5 (0, .answered)) Reconciliation.syncCatalog w.shop
  let (after, _) ← shownPrice ⟨shop, w.redis⟩
  return (before, (shop.db.prices.find? "p1").map ProductPrice.priceCents, after)

theorem failed_sync_serves_stale :
    (¬∀ (P : Checkout.Platform) (w w' : Shop.World) (choices : List (Nat × Reply))
      (calls : List ((q : Shop.Call) × Except String (Shop.Answer q))) (e : String), Devices w.clock w.db →
      complete (Shop.perform P) choices Reconciliation.syncCatalog w = some (calls, .error e, w') →
      NoRowDiffers w.db w'.db ∨
        Products.readerVersion w'.db.catalogVersion = Products.readerVersion w.db.catalogVersion + 1) ∧
    readAroundSync = some (500, some 600, 500) := by
  constructor
  · intro h
    obtain ⟨calls, e, w', hrun, hcheck⟩ := exists_throw (complete (Shop.perform plainPlatform)
      (List.replicate 5 (0, .answered)) Reconciliation.syncCatalog (soldAt500 takenSku))
      (fun w' => w'.db.prices.find? "p1" ≠ (soldAt500 takenSku).db.prices.find? "p1" ∧
        Products.readerVersion w'.db.catalogVersion ≠ Products.readerVersion (soldAt500 takenSku).db.catalogVersion + 1)
      (by decide +kernel)
    obtain ⟨hprice, hversion⟩ := of_decide_eq_true hcheck
    rcases h plainPlatform _ w' _ calls e (soldAt500_devices takenSku) hrun with hrows | hincremented
    · exact hprice (hrows.prices "p1")
    · exact hversion hincremented
  · decide +kernel

/-- Only the answer to the last call is lost. -/
def confirmationLost : List (Nat × Reply) := List.replicate 4 (0, .answered) ++ [(0, .lost "timeout")]

theorem failed_sync_iff_confirmation :
    ∃ calls e w', complete (Shop.perform plainPlatform) confirmationLost Reconciliation.syncCatalog
        (soldAt500 [listed "p1" 600 3]) = some (calls, .error e, w') ∧
      (NoRowDiffers (soldAt500 [listed "p1" 600 3]).db w'.db ∨
        Products.readerVersion w'.db.catalogVersion =
          Products.readerVersion (soldAt500 [listed "p1" 600 3]).db.catalogVersion + 1) := by
  obtain ⟨calls, e, w', hrun, _⟩ := exists_throw (complete (Shop.perform plainPlatform) confirmationLost
    Reconciliation.syncCatalog (soldAt500 [listed "p1" 600 3])) (fun _ => true) (by decide +kernel)
  refine ⟨calls, e, w', hrun, ?_⟩
  refine (failed_sync_iff plainPlatform _ w' confirmationLost calls e (soldAt500_devices _) hrun).1.mpr (.inr ⟨?_, rfl⟩)
  refine ⟨⟨by decide, "timeout", rfl⟩, ?_, by decide +kernel⟩
  exact (syncProducts_iff _ (soldAt500_devices [listed "p1" 600 3])).mp (by decide +kernel)

end CaseCellShop.Storefront
