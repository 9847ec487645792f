import CaseCellShop.Catalog.Convergence
import CaseCellShop.Library.Shuffle

/-! Two syncs at the same time (`ReconciliationRunner.syncCatalog` from the worker and from
`AdminController.syncErp`).

Nothing keeps one sync from running while another does, and a sync is many transactions.
For one product only one step of each sync matters: the transaction of the product if the
sync lists it, the deactivation of absent products if not. -/
namespace CaseCellShop.Catalog

/-! ### Steps -/

/-- What a sync commits at a time. -/
inductive SyncStep where
  | product (p : ErpCatalogProduct)
  | deactivateAbsent (activeIds : List String)
  | bumpCatalogVersion

/-- A step of a sync, which brings its own clock. -/
def SyncStep.perform : Clock × SyncStep → Database → Except DbError Database
  | (clock, .product p), db => syncProduct clock (db.inventory.find? p.id) p db
  | (clock, .deactivateAbsent activeIds), db => .ok (Catalog.deactivateAbsent clock.now activeIds db)
  | (_, .bumpCatalogVersion), db => Catalog.bumpCatalogVersion db

/-- The steps of a sync in their order. -/
def syncSteps (clock : Clock) (products : List ErpCatalogProduct) : List (Clock × SyncStep) :=
  products.map (fun p => (clock, .product p)) ++
    [(clock, .deactivateAbsent (products.map ErpCatalogProduct.id)), (clock, .bumpCatalogVersion)]

theorem each_append {α : Type} (f : α → Database → Except DbError Database) (as bs : List α) (db : Database) :
    each f (as ++ bs) db = each f as db >>= each f bs := by
  induction as generalizing db with
  | nil => rfl
  | cons a rest ih =>
    simp only [List.cons_append, each, ih, bind_assoc]

theorem syncProducts_eq_ok {clock : Clock} {products : List ErpCatalogProduct} {db db' : Database} :
    syncProducts clock products db = (.ok (), db') ↔
      each SyncStep.perform (products.map fun p => (clock, .product p)) db = .ok db' := by
  induction products generalizing db with
  | nil => simp [syncProducts, each]
  | cons p rest ih =>
    rw [List.map_cons, each, bind_ok]
    cases hstep : syncProduct clock (db.inventory.find? p.id) p db with
    | ok db₁ => simp [syncProducts, SyncStep.perform, hstep, ih]
    | error e => simp [syncProducts, SyncStep.perform, hstep]

/-- With nothing in between, the steps are the sync. -/
theorem syncCatalog_eq_ok {clock : Clock} {products : List ErpCatalogProduct} {db db' : Database} :
    syncCatalog clock products db = (.ok (), db') ↔ each SyncStep.perform (syncSteps clock products) db = .ok db' := by
  rw [syncSteps, each_append, bind_ok]
  simp only [← syncProducts_eq_ok]
  rcases hsync : syncProducts clock products db with ⟨result, db₁⟩
  cases result with
  | error e => simp [syncCatalog, hsync]
  | ok u =>
    have hlast : each SyncStep.perform [(clock, .deactivateAbsent (products.map ErpCatalogProduct.id)),
        (clock, .bumpCatalogVersion)] db₁ =
          bumpCatalogVersion (deactivateAbsent clock.now (products.map ErpCatalogProduct.id) db₁) := by
      exact bind_pure (bumpCatalogVersion (deactivateAbsent clock.now (products.map ErpCatalogProduct.id) db₁))
    rw [syncCatalog, hsync]
    simp only [Prod.mk.injEq, true_and, exists_eq_left', hlast]
    cases bumpCatalogVersion (deactivateAbsent clock.now (products.map ErpCatalogProduct.id) db₁) <;> simp

/-- One sync from beginning to end, then the other. -/
def OneAfterOther (clock : Clock) (products : List ErpCatalogProduct) (clock' : Clock)
    (products' : List ErpCatalogProduct) (db db' : Database) : Prop :=
  ∃ between, syncCatalog clock products db = (.ok (), between) ∧ syncCatalog clock' products' between = (.ok (), db')

theorem oneAfterOther_iff {clock clock' : Clock} {products products' : List ErpCatalogProduct} {db db' : Database} :
    OneAfterOther clock products clock' products' db db' ↔
      each SyncStep.perform (syncSteps clock products ++ syncSteps clock' products') db = .ok db' := by
  rw [each_append, bind_ok]
  simp only [OneAfterOther, syncCatalog_eq_ok]

/-! ### Listings -/

/-- What the store shows of a product: the columns of its rows that a sync writes, and the
slugs of the devices it is compatible with. -/
@[ext] structure Listing where
  sku : Option String
  name : Option String
  active : Option Bool
  priceCents : Option Int
  devices : Set String

/-- The slugs of a product's compatibilities. -/
def devices (db : Database) (id : String) : Set String :=
  {slug | ∃ c ∈ db.compatibilities.rows, c.productId = id ∧
    ∃ d ∈ db.deviceModels.rows, d.id = c.deviceModelId ∧ d.slug = slug}

def listing (db : Database) (id : String) : Listing where
  sku := (db.products.find? id).map Product.sku
  name := (db.products.find? id).map Product.name
  active := (db.products.find? id).map Product.active
  priceCents := (db.prices.find? id).map ProductPrice.priceCents
  devices := devices db id

/-- The listings of the active products. -/
def activeCatalog (db : Database) (id : String) : Option Listing :=
  if (listing db id).active = some true then some (listing db id) else none

/-- The foreign key of the compatibilities. -/
def DevicesReferred (db : Database) : Prop :=
  ∀ c ∈ db.compatibilities.rows, ∃ d ∈ db.deviceModels.rows, d.id = c.deviceModelId

/-- The step writes the product. -/
def SyncStep.touches (id : String) : SyncStep → Bool
  | .product p => p.id = id
  | .deactivateAbsent activeIds => id ∉ activeIds
  | .bumpCatalogVersion => false

/-- What a step makes of the listing of a product it touches. -/
def SyncStep.rewrite : SyncStep → Listing → Listing
  | .product p, _ => ⟨some p.sku, some p.name, some p.active, some p.priceCents,
      {slug | ∃ c ∈ p.compatibilities, c.slug = slug}⟩
  | .deactivateAbsent _, l => {l with active := l.active.map fun _ => false}
  | .bumpCatalogVersion, l => l

theorem filter_products (clock : Clock) (products : List ErpCatalogProduct) (id : String) :
    (products.map fun p => (clock, SyncStep.product p)).filter (fun step => step.2.touches id) =
      (products.filter fun p => p.id = id).map fun p => (clock, .product p) := by
  simp only [List.filter_map, Function.comp_def, SyncStep.touches]

/-- A sync touches a product once. -/
theorem touching_step (clock : Clock) {products : List ErpCatalogProduct}
    (h : (products.map ErpCatalogProduct.id).Nodup) (id : String) :
    ∃ step, (syncSteps clock products).filter (fun step => step.2.touches id) = [step] := by
  rw [syncSteps, List.filter_append, filter_products]
  by_cases hid : id ∈ products.map ErpCatalogProduct.id
  · obtain ⟨p, hp, rfl⟩ := List.mem_map.mp hid
    obtain ⟨before, after, rfl⟩ := List.append_of_mem hp
    rw [List.map_append, List.map_cons, List.nodup_middle, List.nodup_cons, ← List.map_append] at h
    have hothers : ∀ q ∈ before ++ after, q.id ≠ p.id := fun q hq he => h.1 (he ▸ List.mem_map_of_mem hq)
    have hbefore : before.filter (fun q => q.id = p.id) = [] := by
      simpa using fun q hq => hothers q (List.mem_append_left _ hq)
    have hafter : after.filter (fun q => q.id = p.id) = [] := by
      simpa using fun q hq => hothers q (List.mem_append_right _ hq)
    refine ⟨(clock, .product p), ?_⟩
    simp [List.filter_append, hbefore, hafter, SyncStep.touches]
  · have hnone : products.filter (fun q => q.id = id) = [] := by
      simp only [List.filter_eq_nil_iff, decide_eq_true_eq]
      exact fun q hq he => hid (List.mem_map.mpr ⟨q, hq, he⟩)
    refine ⟨(clock, .deactivateAbsent (products.map ErpCatalogProduct.id)), ?_⟩
    simp [hnone, hid, SyncStep.touches]

/-! ### What a step does to a listing -/

/-- Every device model is still there under its id and slug. -/
def SlugsKept (db db' : Database) : Prop :=
  ∀ d ∈ db.deviceModels.rows, ∃ d' ∈ db'.deviceModels.rows, d'.id = d.id ∧ d'.slug = d.slug

theorem SlugsKept.refl (db : Database) : SlugsKept db db := fun d hd => ⟨d, hd, rfl, rfl⟩

theorem SlugsKept.trans {a b c : Database} (h : SlugsKept a b) (k : SlugsKept b c) : SlugsKept a c := by
  intro d hd
  obtain ⟨d', hd', hid, hslug⟩ := h d hd
  obtain ⟨d'', hd'', hid', hslug'⟩ := k d' hd'
  exact ⟨d'', hd'', hid'.trans hid, hslug'.trans hslug⟩

theorem slugsKept_of_eq {db db' : Database} (h : db'.deviceModels = db.deviceModels) : SlugsKept db db' :=
  fun d hd => ⟨d, h ▸ hd, rfl, rfl⟩

/-- A product whose compatibilities are left alone keeps its slugs. -/
theorem devices_kept {db db' : Database} {id : String} (h : DevicesReferred db) (hslugs : SlugsKept db db')
    (hrows : ∀ c, c.productId = id → (c ∈ db'.compatibilities.rows ↔ c ∈ db.compatibilities.rows)) :
    devices db' id = devices db id := by
  ext slug
  constructor
  · rintro ⟨c, hc, hid, d', hd', hd'id, hslug⟩
    rw [hrows c hid] at hc
    obtain ⟨d, hd, hdid⟩ := h c hc
    obtain ⟨d'', hd'', hid'', hslug''⟩ := hslugs d hd
    have hsame : d'' = d' := db'.deviceModels.eq_of_key hd'' hd' (hid''.trans (hdid.trans hd'id.symm))
    refine ⟨c, hc, hid, d, hd, hdid, ?_⟩
    rw [← hslug'', hsame, hslug]
  · rintro ⟨c, hc, hid, d, hd, hdid, hslug⟩
    obtain ⟨d', hd', hid', hslug'⟩ := hslugs d hd
    exact ⟨c, (hrows c hid).mpr hc, hid, d', hd', hid'.trans hdid, hslug'.trans hslug⟩

theorem upsertDeviceModel_slugsKept {clock : Clock} {c : ErpCatalogCompatibility} {db db' : Database}
    (h : upsertDeviceModel clock c db = .ok db') :
    SlugsKept db db' ∧ db'.compatibilities = db.compatibilities := by
  unfold upsertDeviceModel at h
  split at h
  · rename_i found hfound
    obtain ⟨_, _, he⟩ := bind_ok.mp h
    cases he
    refine ⟨fun d hd => ?_, rfl⟩
    by_cases hid : d.id = found.id
    · have hsame : d = found := db.deviceModels.eq_of_key hd (List.mem_of_find?_eq_some hfound) hid
      exact ⟨_, Table.mem_set.mpr (.inl rfl), hid.symm, by rw [hsame]⟩
    · exact ⟨d, Table.mem_set.mpr (.inr ⟨hd, hid⟩), rfl, rfl⟩
  · obtain ⟨_, _, he⟩ := bind_ok.mp h
    split at he
    · cases he
    · rename_i deviceModels hinsert
      cases he
      refine ⟨fun d hd => ⟨d, ?_, rfl, rfl⟩, rfl⟩
      dsimp only
      rw [(Table.insert?_eq_some hinsert).2]
      exact List.mem_append_left _ hd

/-- The device models found for a list of compatibilities, in its order. -/
theorem findDeviceModels_eq_ok {cs : List ErpCatalogCompatibility} {db : Database} {deviceModels : List DeviceModel}
    (h : cs.mapM (fun c => findDeviceModel c db) = .ok deviceModels) :
    deviceModels.map DeviceModel.slug = cs.map ErpCatalogCompatibility.slug ∧
      ∀ d ∈ deviceModels, d ∈ db.deviceModels.rows := by
  induction cs generalizing deviceModels with
  | nil =>
    cases h
    exact ⟨rfl, nofun⟩
  | cons c rest ih =>
    rw [List.mapM_cons, bind_ok] at h
    obtain ⟨d, hd, h⟩ := h
    obtain ⟨ds, hds, he⟩ := bind_ok.mp h
    cases he
    obtain ⟨hslugs, hrows⟩ := ih hds
    unfold findDeviceModel at hd
    split at hd
    · rename_i found hfound
      cases hd
      have hslug : d.slug = c.slug := by simpa using List.find?_some hfound
      refine ⟨by rw [List.map_cons, List.map_cons, hslug, hslugs], fun d' hd' => ?_⟩
      rcases List.mem_cons.mp hd' with rfl | hd'
      · exact List.mem_of_find?_eq_some hfound
      · exact hrows d' hd'
    · cases hd

theorem createCompatibilities_rows {p : ErpCatalogProduct} {deviceModels : List DeviceModel} {db db' : Database}
    (h : each (createCompatibility p) deviceModels db = .ok db') :
    db'.compatibilities.rows = db.compatibilities.rows ++ deviceModels.map (fun d => ⟨p.id, d.id⟩) ∧
      db'.deviceModels = db.deviceModels := by
  induction deviceModels generalizing db with
  | nil =>
    cases h
    simp
  | cons d rest ih =>
    obtain ⟨db₁, h₁, hrest⟩ := bind_ok.mp h
    obtain ⟨hrows, hsame⟩ := ih hrest
    unfold createCompatibility at h₁
    split at h₁
    · cases h₁
    · rename_i compatibilities hinsert
      cases h₁
      exact ⟨by simp [hrows, (Table.insert?_eq_some hinsert).2], hsame⟩

/-- The compatibilities of a product are rebuilt from the device models found, those of
others left alone. -/
theorem syncCompatibilities_rows {clock : Clock} {p : ErpCatalogProduct} {db db' : Database}
    (h : syncCompatibilities clock p db = .ok db') :
    SlugsKept db db' ∧ ∃ deviceModels : List DeviceModel,
      deviceModels.map DeviceModel.slug = p.compatibilities.map ErpCatalogCompatibility.slug ∧
      (∀ d ∈ deviceModels, d ∈ db'.deviceModels.rows) ∧
      ∀ c, c ∈ db'.compatibilities.rows ↔
        (c ∈ db.compatibilities.rows ∧ c.productId ≠ p.id) ∨ ∃ d ∈ deviceModels, ⟨p.id, d.id⟩ = c := by
  obtain ⟨db₁, hupserts, h⟩ := bind_ok.mp h
  obtain ⟨deviceModels, hfind, hcreate⟩ := bind_ok.mp h
  obtain ⟨hslugs, hsame⟩ := each_ok (R := fun a b => SlugsKept a b ∧ b.compatibilities = a.compatibilities)
    (fun a => ⟨SlugsKept.refl a, rfl⟩) (fun h k => ⟨h.1.trans k.1, k.2.trans h.2⟩)
    (fun _ _ _ h => upsertDeviceModel_slugsKept h) hupserts
  obtain ⟨hfound, hmodels⟩ := findDeviceModels_eq_ok hfind
  obtain ⟨hrows, hkept⟩ := createCompatibilities_rows hcreate
  refine ⟨hslugs.trans (slugsKept_of_eq hkept), deviceModels, hfound, fun d hd => hkept ▸ hmodels d hd, fun c => ?_⟩
  simp [hrows, hsame, deleteCompatibilities, Table.filter]

theorem syncCompatibilities_devices {clock : Clock} {p : ErpCatalogProduct} {db db' : Database}
    (h : syncCompatibilities clock p db = .ok db') (href : DevicesReferred db) :
    DevicesReferred db' ∧ ∀ id, devices db' id =
      if p.id = id then {slug | ∃ c ∈ p.compatibilities, c.slug = slug} else devices db id := by
  obtain ⟨hslugs, deviceModels, hfound, hmodels, hall⟩ := syncCompatibilities_rows h
  refine ⟨fun c hc => ?_, fun id => ?_⟩
  · rcases (hall c).mp hc with ⟨hc, _⟩ | ⟨d, hd, rfl⟩
    · obtain ⟨d, hd, hid⟩ := href c hc
      obtain ⟨d', hd', hid', _⟩ := hslugs d hd
      exact ⟨d', hd', hid'.trans hid⟩
    · exact ⟨d, hmodels d hd, rfl⟩
  · by_cases hid : p.id = id
    · subst hid
      rw [if_pos rfl]
      ext slug
      have hmem : (∃ c ∈ p.compatibilities, c.slug = slug) ↔ ∃ d ∈ deviceModels, d.slug = slug := by
        rw [← List.mem_map, ← List.mem_map, hfound]
      simp only [Set.mem_ofPred_eq, hmem]
      constructor
      · rintro ⟨c, hc, hproduct, d', hd', hd'id, hslug⟩
        rcases (hall c).mp hc with ⟨_, hne⟩ | ⟨d, hd, rfl⟩
        · exact absurd hproduct hne
        · exact ⟨d, hd, by rw [← hslug, db'.deviceModels.eq_of_key hd' (hmodels d hd) hd'id]⟩
      · rintro ⟨d, hd, hslug⟩
        exact ⟨⟨p.id, d.id⟩, (hall _).mpr (.inr ⟨d, hd, rfl⟩), rfl, d, hmodels d hd, rfl, hslug⟩
    · rw [if_neg hid]
      refine devices_kept href hslugs fun c hc => ?_
      rw [hall]
      constructor
      · rintro (⟨hc, _⟩ | ⟨d, _, rfl⟩)
        · exact hc
        · exact absurd hc hid
      · exact fun hmem => .inl ⟨hmem, fun he => hid (he.symm.trans hc)⟩

theorem syncProduct_devices {clock : Clock} {current : Option Inventory} {p : ErpCatalogProduct} {db db' : Database}
    (h : syncProduct clock current p db = .ok db') (href : DevicesReferred db) :
    DevicesReferred db' ∧ ∀ id, devices db' id =
      if p.id = id then {slug | ∃ c ∈ p.compatibilities, c.slug = slug} else devices db id := by
  rcases syncProduct_cases clock current p db with ⟨_, db₁, ⟨hmodels, hcompatibilities⟩, hstep⟩ | ⟨_, e, he⟩
  · have href₁ : DevicesReferred db₁ := by simpa only [DevicesReferred, hmodels, hcompatibilities] using href
    have hdevices : ∀ id, devices db₁ id = devices db id := by
      intro id
      simp only [devices, hmodels, hcompatibilities]
    simpa only [hdevices] using syncCompatibilities_devices (hstep ▸ h) href₁
  · rw [he] at h
    cases h

theorem deactivateAbsent_listing (now : Nat) (activeIds : List String) (db : Database) (id : String) :
    listing (deactivateAbsent now activeIds db) id =
      if id ∉ activeIds then {listing db id with active := (listing db id).active.map fun _ => false}
      else listing db id := by
  simp only [listing, deactivateAbsent, devices, Table.find?_modify]
  cases hfind : db.products.find? id with
  | none => simp
  | some r =>
    have hid : r.id = id := Table.key_of_find? hfind
    by_cases hmem : id ∈ activeIds <;> simp [deactivate, hid, hmem]

/-- A step rewrites the listings of the products it touches and no others. -/
theorem perform_listing {step : Clock × SyncStep} {db db' : Database} (h : SyncStep.perform step db = .ok db')
    (href : DevicesReferred db) :
    DevicesReferred db' ∧ ∀ id, listing db' id =
      if step.2.touches id then step.2.rewrite (listing db id) else listing db id := by
  obtain ⟨clock, step⟩ := step
  cases step with
  | product p =>
    have hsynced := syncProduct_ok h
    obtain ⟨href', hdevices⟩ := syncProduct_devices h href
    refine ⟨href', fun id => ?_⟩
    by_cases hid : p.id = id
    · subst hid
      simp [listing, hsynced.products, hsynced.prices, hdevices, SyncStep.touches, SyncStep.rewrite]
    · have hne : ¬id = p.id := fun he => hid he.symm
      simp [listing, hsynced.products, hsynced.prices, Table.find?_set, hdevices, hid, hne, SyncStep.touches]
  | deactivateAbsent activeIds =>
    cases h
    refine ⟨href, fun id => ?_⟩
    simp [deactivateAbsent_listing, SyncStep.touches, SyncStep.rewrite]
  | bumpCatalogVersion =>
    rw [bumpCatalogVersion_ok h]
    exact ⟨href, fun id => rfl⟩

/-- What a run of steps does to a listing is done by those that touch it. -/
theorem perform_each_listing {steps : List (Clock × SyncStep)} {db db' : Database}
    (h : each SyncStep.perform steps db = .ok db') (href : DevicesReferred db) (id : String) :
    listing db' id =
      (steps.filter fun step => step.2.touches id).foldl (fun l step => step.2.rewrite l) (listing db id) := by
  induction steps generalizing db with
  | nil =>
    cases h
    rfl
  | cons step rest ih =>
    obtain ⟨db₁, h₁, hrest⟩ := bind_ok.mp h
    obtain ⟨href₁, hlisting⟩ := perform_listing h₁ href
    rw [ih hrest href₁, hlisting id]
    by_cases htouches : step.2.touches id <;> simp [htouches]

/-- However the steps of two syncs are interleaved, each product ends as one of the two
orders leaves it. -/
theorem syncs_serialize_each_product (clock clock' : Clock) (products products' : List ErpCatalogProduct)
    (db db' first second : Database) (steps : List (Clock × SyncStep)) (href : DevicesReferred db)
    (hids : (products.map ErpCatalogProduct.id).Nodup) (hids' : (products'.map ErpCatalogProduct.id).Nodup)
    (hsteps : Shuffle (syncSteps clock products) (syncSteps clock' products') steps)
    (h : each SyncStep.perform steps db = .ok db')
    (hfirst : OneAfterOther clock products clock' products' db first)
    (hsecond : OneAfterOther clock' products' clock products db second) (id : String) :
    listing db' id = listing first id ∨ listing db' id = listing second id := by
  obtain ⟨step, hstep⟩ := touching_step clock hids id
  obtain ⟨step', hstep'⟩ := touching_step clock' hids' id
  rw [oneAfterOther_iff] at hfirst hsecond
  rw [perform_each_listing h href, perform_each_listing hfirst href, perform_each_listing hsecond href]
  rcases hsteps.filter_two hstep hstep' with heq | heq
  · exact .inl (by rw [heq])
  · exact .inr (by rw [heq])

/-! ### Two syncs of one product each -/

/-- A catalog of one case for one device. -/
def oneCatalog (id : String) : List ErpCatalogProduct :=
  [⟨id, id, id, "", "", "", true, 500, 3, [⟨"brand", "model", "device"⟩]⟩]

def slugClock : Clock := ⟨0, fun slug => slug⟩

/-- The syncs of `p1` and of `p2` take turns. -/
def takingTurns : List (Clock × SyncStep) :=
  ((syncSteps slugClock (oneCatalog "p1")).zip (syncSteps slugClock (oneCatalog "p2"))).flatMap fun (a, b) => [a, b]

theorem takingTurns_shuffle :
    Shuffle (syncSteps slugClock (oneCatalog "p1")) (syncSteps slugClock (oneCatalog "p2")) takingTurns :=
  .left (.right (.left (.right (.left (.right .nil)))))

/-- The store after steps from an empty one. -/
def afterSteps (steps : List (Clock × SyncStep)) : Database :=
  match each SyncStep.perform steps .empty with
  | .ok db => db
  | .error _ => .empty

theorem each_afterSteps {steps : List (Clock × SyncStep)} (h : (each SyncStep.perform steps .empty).isOk = true) :
    each SyncStep.perform steps .empty = .ok (afterSteps steps) := by
  unfold afterSteps
  cases hsteps : each SyncStep.perform steps .empty with
  | ok db => rfl
  | error e =>
    rw [hsteps] at h
    cases h

/-- The two syncs of one product each in one order. -/
def inOrder (id id' : String) : List (Clock × SyncStep) :=
  syncSteps slugClock (oneCatalog id) ++ syncSteps slugClock (oneCatalog id')

theorem empty_referred : DevicesReferred .empty := fun c hc => by cases hc

theorem syncs_serialize_p1_p2 :
    (listing (afterSteps takingTurns) "p1" = listing (afterSteps (inOrder "p1" "p2")) "p1" ∨
        listing (afterSteps takingTurns) "p1" = listing (afterSteps (inOrder "p2" "p1")) "p1") ∧
      (listing (afterSteps takingTurns) "p2" = listing (afterSteps (inOrder "p1" "p2")) "p2" ∨
        listing (afterSteps takingTurns) "p2" = listing (afterSteps (inOrder "p2" "p1")) "p2") := by
  have hserialize := syncs_serialize_each_product slugClock slugClock (oneCatalog "p1") (oneCatalog "p2") .empty _ _ _
    takingTurns empty_referred (by decide) (by decide) takingTurns_shuffle (each_afterSteps (by decide +kernel))
    (oneAfterOther_iff.mpr (@each_afterSteps (inOrder "p1" "p2") (by decide +kernel)))
    (oneAfterOther_iff.mpr (@each_afterSteps (inOrder "p2" "p1") (by decide +kernel)))
  exact ⟨hserialize "p1", hserialize "p2"⟩

theorem activeCatalog_eq_none {db : Database} {id : String} :
    activeCatalog db id = none ↔ (listing db id).active ≠ some true := by
  simp [activeCatalog]

/-- Each sync deactivates the product of the other, and nothing is left active. -/
theorem syncs_not_serialized : ¬∀ (clock clock' : Clock) (products products' : List ErpCatalogProduct)
    (db db' first second : Database) (steps : List (Clock × SyncStep)), DevicesReferred db →
    (products.map ErpCatalogProduct.id).Nodup → (products'.map ErpCatalogProduct.id).Nodup →
    Shuffle (syncSteps clock products) (syncSteps clock' products') steps →
    each SyncStep.perform steps db = .ok db' → OneAfterOther clock products clock' products' db first →
    OneAfterOther clock' products' clock products db second →
    activeCatalog db' = activeCatalog first ∨ activeCatalog db' = activeCatalog second := by
  intro h
  have hserialized := h slugClock slugClock (oneCatalog "p1") (oneCatalog "p2") .empty _ _ _
    takingTurns empty_referred (by decide) (by decide) takingTurns_shuffle (each_afterSteps (by decide +kernel))
    (oneAfterOther_iff.mpr (@each_afterSteps (inOrder "p1" "p2") (by decide +kernel)))
    (oneAfterOther_iff.mpr (@each_afterSteps (inOrder "p2" "p1") (by decide +kernel)))
  have hactive : (listing (afterSteps takingTurns) "p1").active = some false ∧
      (listing (afterSteps takingTurns) "p2").active = some false ∧
      (listing (afterSteps (inOrder "p1" "p2")) "p2").active = some true ∧
      (listing (afterSteps (inOrder "p2" "p1")) "p1").active = some true := by decide +kernel
  obtain ⟨hp1, hp2, hfirst, hsecond⟩ := hactive
  rcases hserialized with heq | heq
  · have hnone : activeCatalog (afterSteps (inOrder "p1" "p2")) "p2" = none := by
      rw [← heq, activeCatalog_eq_none, hp2]
      simp
    exact activeCatalog_eq_none.mp hnone hfirst
  · have hnone : activeCatalog (afterSteps (inOrder "p2" "p1")) "p1" = none := by
      rw [← heq, activeCatalog_eq_none, hp1]
      simp
    exact activeCatalog_eq_none.mp hnone hsecond

end CaseCellShop.Catalog
