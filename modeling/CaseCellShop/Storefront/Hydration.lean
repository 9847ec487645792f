import CaseCellShop.Storefront.Freshness
import Mathlib.Data.List.ReduceOption

/-! What a cached list shows (`ProductsService.hydrateProducts`, the hit path of
`listProducts`).

A list is cached as the ids of its products, whose cards are cached one by one and may be
gone or out of date when the list is read. The cards come from a first batched read, and
for the ids it did not give from the store or, without the lock, from a second batched
read. Whatever the three answer, the list shows a card for each id that one of them gave
(`hydrateProducts_answered`). -/
namespace CaseCellShop.Storefront
open Program Products

/-- A call and its answer. -/
abbrev Exchange := (q : Products.Call) × Except String (Products.Answer q)

/-- What a call may answer while the store is `db` and answers, and the cards in the cache
were written by `cacheProductCard`. -/
def Allowed (P : Products.Platform) (db : Database) : Exchange → Prop
  | ⟨.findCatalogVersion, r⟩ => r = .ok db.catalogVersion
  | ⟨.fetchProducts query only, r⟩ => r.isOk = true ∧ r = Products.fetchProducts P db query only
  | ⟨.getCards keys, r⟩ => ∀ cards, r = .ok cards →
      List.Forall₂ (fun key card => ∀ c ∈ card, ∃ catalogVersion, key = productCardKey catalogVersion c.id) keys cards
  | _ => True

/-- The cards a batched read gave. -/
def cardsOf : Exchange → List ProductListItem
  | ⟨.getCards _, .ok cards⟩ => cards.reduceOption
  | _ => []

/-- The attempt to lock succeeded. -/
def grants : Exchange → Bool
  | ⟨.acquireLock _ _, .ok granted⟩ => granted
  | _ => false

/-- A batched read gave the card. -/
def CardRead (calls : List Exchange) (card : ProductListItem) : Prop := ∃ call ∈ calls, card ∈ cardsOf call

def LockGranted (calls : List Exchange) : Prop := ∃ call ∈ calls, grants call = true

/-- A list that is looked up is cached with these ids. -/
def hits (ids : List String) : Exchange → Bool
  | ⟨.getIds _, r⟩ => r.toOption = some (some ids)
  | _ => true

def ActiveProduct (db : Database) (id : String) : Prop :=
  ∃ product ∈ db.products.rows, product.id = id ∧ product.active = true

instance (calls : List Exchange) (card : ProductListItem) : Decidable (CardRead calls card) :=
  inferInstanceAs (Decidable (∃ call ∈ calls, card ∈ cardsOf call))

instance (calls : List Exchange) : Decidable (LockGranted calls) :=
  inferInstanceAs (Decidable (∃ call ∈ calls, grants call = true))

instance (db : Database) (id : String) : Decidable (ActiveProduct db id) :=
  inferInstanceAs (Decidable (∃ product ∈ db.products.rows, product.id = id ∧ product.active = true))

/-! ### The products found -/

/-- The products found are the cards of a source, each under its id. -/
structure Found (source : Set ProductListItem) (productsById : ProductsById) : Prop where
  sound : ∀ id card, productsById id = some card → card ∈ source ∧ card.id = id
  complete : ∀ card ∈ source, (productsById card.id).isSome

variable {source : Set ProductListItem} {productsById : ProductsById} {ids : List String}

theorem found_none : Found ∅ fun _ => none where
  sound _ _ h := by cases h
  complete _ h := h.elim

/-- One more card. -/
theorem Found.update (h : Found source productsById) (card : ProductListItem) :
    Found (insert card source) (Function.update productsById card.id (some card)) := by
  refine ⟨fun id c hc => ?_, fun c hc => ?_⟩
  · by_cases hid : id = card.id
    · rw [hid, Function.update_self, Option.some.injEq] at hc
      simp [← hc, hid]
    · rw [Function.update_of_ne hid] at hc
      exact ⟨.inr (h.sound id c hc).1, (h.sound id c hc).2⟩
  · by_cases hid : c.id = card.id
    · simp [hid]
    · rw [Function.update_of_ne hid]
      refine h.complete c (hc.resolve_left fun he => ?_)
      exact hid (congrArg ProductListItem.id he)

theorem Found.congr {source' : Set ProductListItem} (h : Found source productsById) (hsource : source = source') :
    Found source' productsById :=
  hsource ▸ h

/-- The cards of a batched read, matched to the ids by their positions. -/
theorem Found.collect {cards : List (Option ProductListItem)}
    (hcards : List.Forall₂ (fun id card => ∀ c ∈ card, c.id = id) ids cards) (h : Found source productsById) :
    Found (source ∪ {card | some card ∈ cards}) (collectCachedProducts ids cards productsById) := by
  induction hcards generalizing source productsById with
  | nil => simpa [collectCachedProducts] using h
  | @cons id card ids cards hid _ ih =>
    cases card with
    | none =>
      have hrest := ih h
      simpa [collectCachedProducts] using hrest
    | some card =>
      obtain rfl : card.id = id := hid card rfl
      refine (ih (h.update card)).congr ?_
      ext c
      simp [or_assoc, or_left_comm]

/-- The products fetched with the lock. -/
theorem Found.refill (fetched : List ProductListItem) (h : Found source productsById) :
    Found (source ∪ {card | card ∈ fetched})
      (fetched.foldl (fun found product => Function.update found product.id (some product)) productsById) := by
  induction fetched generalizing source productsById with
  | nil => simpa using h
  | cons card rest ih =>
    refine (ih (h.update card)).congr ?_
    ext c
    simp [or_assoc, or_left_comm]

theorem Found.mem_missing (h : Found source productsById) {id : String} :
    id ∈ findMissingProductIds ids productsById ↔ id ∈ ids ∧ ∀ card ∈ source, card.id ≠ id := by
  rw [findMissingProductIds, List.mem_filter, Option.isNone_iff_eq_none]
  refine and_congr_right fun _ => ⟨fun hnone card hcard hid => ?_, fun hnone => ?_⟩
  · have hsome := h.complete card hcard
    rw [hid, hnone] at hsome
    cases hsome
  · cases hfind : productsById id with
    | none => rfl
    | some card => exact absurd (h.sound id card hfind).2 (hnone card (h.sound id card hfind).1)

/-- The cards are those of the ids that were found, in their order. -/
theorem Found.map_order (h : Found source productsById) (ids : List String) :
    (orderHydratedProducts ids productsById).map ProductListItem.id = ids.filter fun id => (productsById id).isSome := by
  induction ids with
  | nil => rfl
  | cons id rest ih =>
    unfold orderHydratedProducts at ih ⊢
    cases hfind : productsById id with
    | none => simp [hfind, ih]
    | some card => simp [hfind, ih, (h.sound id card hfind).2]

/-- Every id is shown or missing. -/
theorem Found.partition (h : Found source productsById) (ids : List String) :
    ((orderHydratedProducts ids productsById).map ProductListItem.id ++
      findMissingProductIds ids productsById).Perm ids := by
  rw [h.map_order, findMissingProductIds]
  have hnot : (fun id => (productsById id).isNone) = fun id => !(productsById id).isSome := by
    funext id
    cases productsById id <;> rfl
  rw [hnot]
  exact List.filter_append_perm _ ids

/-- A source with the card of each of the items gives the items. -/
theorem Found.order_eq (h : Found source productsById) {items : List ProductListItem}
    (hitems : ∀ item ∈ items, ∀ card ∈ source, card.id = item.id → card = item)
    (hall : ∀ item ∈ items, ∃ card ∈ source, card.id = item.id) :
    orderHydratedProducts (items.map ProductListItem.id) productsById = items := by
  have hfind : ∀ item ∈ items, productsById item.id = some item := by
    intro item hitem
    obtain ⟨card, hcard, hid⟩ := hall item hitem
    have hsome := h.complete card hcard
    rw [hid] at hsome
    obtain ⟨found, hfound⟩ := Option.isSome_iff_exists.mp hsome
    obtain ⟨hsource, hfoundId⟩ := h.sound _ _ hfound
    rw [hfound, hitems item hitem found hsource hfoundId]
  unfold orderHydratedProducts
  rw [List.filterMap_map]
  calc items.filterMap (productsById ∘ ProductListItem.id) = items.filterMap some := List.filterMap_congr hfind
    _ = items := List.filterMap_some

/-! ### The products of given ids -/

theorem selected_ids {P : Products.Platform} {db : Database} {count : Nat} {product : Product} :
    selected P db (queryOfIds count) (some ids) product = true ↔ product.active = true ∧ product.id ∈ ids := by
  simp [selected, queryOfIds]

/-- The window is as wide as the ids, so nothing falls out of it. -/
theorem fetchProducts_ids {P : Products.Platform} {db : Database} {items : List ProductListItem}
    (h : Products.fetchProducts P db (queryOfIds ids.length) (some ids) = .ok items) (card : ProductListItem) :
    card ∈ items ↔ ∃ product ∈ db.products.rows, product.active = true ∧ product.id ∈ ids ∧
      card = toListItem db product := by
  have hskip : windowNumber (skipOf (queryOfIds ids.length)) = some 0 := by
    simp [skipOf, queryOfIds, JsNumber.sub, JsNumber.mul, JsNumber.ofRat, windowNumber]
  have htake : ∀ take, windowNumber (queryOfIds ids.length).pageSize = some take → take = ids.length := by
    intro take ht
    simp only [queryOfIds, windowNumber] at ht
    split at ht
    · cases ht
      simp
    · cases ht
  unfold Products.fetchProducts at h
  rw [hskip] at h
  split at h
  · rename_i skip take hs ht
    cases hs
    rw [htake take ht] at h
    have hcount : (db.products.rows.filter (selected P db (queryOfIds ids.length) (some ids))).length ≤ ids.length := by
      have hnodup : ((db.products.rows.filter (selected P db (queryOfIds ids.length) (some ids))).map Product.id).Nodup :=
        (List.filter_sublist.map Product.id).nodup db.products.nodup
      rw [← List.length_map Product.id]
      refine (List.subperm_of_subset hnodup fun id hid => ?_).length_le
      obtain ⟨product, hproduct, rfl⟩ := List.mem_map.mp hid
      exact (selected_ids.mp (List.mem_filter.mp hproduct).2).2
    cases h
    rw [List.drop_zero, List.take_of_length_le (by rwa [List.length_insertionSort])]
    simp only [List.mem_map, List.mem_insertionSort, List.mem_filter, selected_ids, and_assoc]
    refine exists_congr fun product => and_congr_right fun _ => and_congr_right fun _ => ?_
    exact and_congr_right fun _ => eq_comm
  · cases h

/-! ### A hydration -/

variable {P : Products.Platform} {db : Database} {catalogVersion : Int}

/-- The cards a batched read gave, caught if it failed, are matched to their ids. -/
theorem allowed_cards {ids : List String} {r : Except String (List (Option ProductListItem))}
    (h : Allowed P db ⟨.getCards (ids.map (productCardKey catalogVersion)), r⟩) :
    List.Forall₂ (fun id card => ∀ c ∈ card, c.id = id) ids (r.toOption.getD (ids.map fun _ => none)) := by
  cases r with
  | error e =>
    induction ids with
    | nil => exact .nil
    | cons id rest ih => exact .cons (fun c hc => by cases hc) (ih fun cards hcards => by cases hcards)
  | ok cards =>
    have hcards := h cards rfl
    rw [List.forall₂_map_left_iff] at hcards
    refine hcards.imp fun id card hkey c hc => ?_
    obtain ⟨v, hv⟩ := hkey c hc
    exact (productCardKey_inj hv).2.symm

/-- The cards of one batched read. -/
def readBy (r : Except String (List (Option ProductListItem))) : Set ProductListItem :=
  {card | some card ∈ r.toOption.getD []}

theorem Found.read {r : Except String (List (Option ProductListItem))}
    (h : Allowed P db ⟨.getCards (ids.map (productCardKey catalogVersion)), r⟩)
    (hfound : Found source productsById) :
    Found (source ∪ readBy r) (collectCachedProducts ids (r.toOption.getD (ids.map fun _ => none)) productsById) := by
  refine (hfound.collect (allowed_cards h)).congr (congrArg _ ?_)
  cases r with
  | error e => simp [readBy, Except.toOption]
  | ok cards => rfl

/-! A call that is neither a batched read nor an attempt to lock. -/

def Plain : Products.Call → Prop
  | .getCards _ | .acquireLock _ _ => False
  | _ => True

theorem plain_cardsOf {call : Exchange} (h : Plain call.1) : cardsOf call = [] ∧ grants call = false := by
  obtain ⟨q, r⟩ := call
  cases q with
  | getCards keys => exact h.elim
  | acquireLock key ttlSeconds => exact h.elim
  | _ => exact ⟨rfl, rfl⟩

theorem plain_cardRead {calls : List Exchange} (h : ∀ call ∈ calls, Plain call.1) (card : ProductListItem) :
    ¬CardRead calls card := by
  intro hread
  obtain ⟨call, hmem, hcard⟩ := hread
  rw [(plain_cardsOf (h call hmem)).1] at hcard
  cases hcard

theorem plain_lockGranted {calls : List Exchange} (h : ∀ call ∈ calls, Plain call.1) : ¬LockGranted calls := by
  intro hlock
  obtain ⟨call, hmem, hgrants⟩ := hlock
  rw [(plain_cardsOf (h call hmem)).2] at hgrants
  cases hgrants

theorem cardRead_append {before after : List Exchange} {card : ProductListItem} :
    CardRead (before ++ after) card ↔ CardRead before card ∨ CardRead after card := by
  simp only [CardRead, List.mem_append, or_and_right, exists_or]

theorem lockGranted_append {before after : List Exchange} :
    LockGranted (before ++ after) ↔ LockGranted before ∨ LockGranted after := by
  simp only [LockGranted, List.mem_append, or_and_right, exists_or]

theorem cardRead_getCards {keys : List String} {r : Except String (List (Option ProductListItem))}
    {card : ProductListItem} : CardRead [⟨.getCards keys, r⟩] card ↔ card ∈ readBy r := by
  cases r with
  | error e => simp [CardRead, cardsOf, readBy, Except.toOption]
  | ok cards => simp [CardRead, cardsOf, readBy, Except.toOption, List.reduceOption_mem_iff]

theorem getCards_notGranted {keys : List String} {r : Except String (List (Option ProductListItem))} :
    ¬LockGranted [⟨.getCards keys, r⟩] := by
  simp [LockGranted, grants]

theorem cardRead_acquireLock {key : String} {ttlSeconds : Nat} {r : Except String Bool} {card : ProductListItem} :
    ¬CardRead [⟨.acquireLock key ttlSeconds, r⟩] card := by
  simp [CardRead, cardsOf]

/-- The cards a hydration adds to those of its first read. -/
structure Added (db : Database) (missingIds : List String) (hasLock : Bool) (calls : List Exchange)
    (added : Set ProductListItem) : Prop where
  cards : ∀ card ∈ added, CardRead calls card ∨
    ∃ product ∈ db.products.rows, product.active = true ∧ card = toListItem db product
  read : ∀ card, CardRead calls card → card ∈ added
  fetched : hasLock = true → ∀ id ∈ missingIds, ActiveProduct db id → ∃ card ∈ added, card.id = id
  locked : ¬LockGranted calls

/-- With the lock, the store fills in what the first read did not give. -/
theorem refillCards_answered {calls : List Exchange} {missingIds : List String} {result : Except String ProductsById}
    (h : Answered (refillCards catalogVersion missingIds productsById) calls result)
    (hallowed : ∀ call ∈ calls, Allowed P db call) :
    ∃ found added, result = .ok found ∧ Added db missingIds true calls added ∧
      ∀ source, Found source productsById → Found (source ∪ added) found := by
  have hcalls : ∀ call ∈ calls, Plain call.1 := by
    refine h.onlyCalls (onlyCalls_bind (onlyCalls_call trivial) fun fetched => ?_)
    refine onlyCalls_bind (onlyCalls_callAll fun q hq => ?_) fun _ => trivial
    obtain ⟨item, _, rfl⟩ := List.mem_map.mp hq
    trivial
  have hrest : ∃ fetched, result = .ok (fetched.foldl (fun found product =>
      Function.update found product.id (some product)) productsById) ∧
      ⟨.fetchProducts (queryOfIds missingIds.length) (some missingIds), .ok fetched⟩ ∈ calls := by
    rcases answered_bind h with ⟨e, _, hfetch⟩ | ⟨fetched, before, after, rfl, hfetch, hrest⟩
    · obtain rfl := answered_call hfetch
      cases (hallowed _ (List.mem_singleton.mpr rfl)).1
    · obtain rfl := answered_call hfetch
      refine ⟨fetched, ?_, .head _⟩
      rcases answered_bind hrest with ⟨e, _, hwrites⟩ | ⟨_, _, _, _, _, hreturn⟩
      · cases (answered_callAll hwrites).2
      · exact (answered_pure hreturn).2
  obtain ⟨fetched, hresult, hfetch⟩ := hrest
  have hmem := fetchProducts_ids (hallowed _ hfetch).2.symm
  refine ⟨_, {card | card ∈ fetched}, hresult, ⟨fun card hcard => .inr ?_, fun card hread => ?_,
    fun _ id hid hactive => ?_,
    plain_lockGranted hcalls⟩, fun source hfound => hfound.refill fetched⟩
  · obtain ⟨product, hproduct, hactive, _, hcard⟩ := (hmem card).mp hcard
    exact ⟨product, hproduct, hactive, hcard⟩
  · exact (plain_cardRead hcalls card hread).elim
  · obtain ⟨product, hproduct, rfl, hactive⟩ := hactive
    exact ⟨toListItem db product, (hmem _).mpr ⟨product, hproduct, hactive, hid, rfl⟩, rfl⟩

/-- Without the lock, the cards are read once more. -/
theorem rereadCards_answered {calls : List Exchange} {missingIds : List String} {result : Except String ProductsById}
    (h : Answered (rereadCards catalogVersion missingIds productsById) calls result)
    (hallowed : ∀ call ∈ calls, Allowed P db call) :
    ∃ found added, result = .ok found ∧ Added db missingIds false calls added ∧
      ∀ source, Found source productsById → Found (source ∪ added) found := by
  rcases answered_bind h with ⟨e, _, hread⟩ | ⟨reread, before, after, rfl, hread, hreturn⟩
  · obtain ⟨_, _, he⟩ := answered_orElse hread
    cases he
  · obtain ⟨r, rfl, he⟩ := answered_orElse hread
    cases he
    obtain ⟨rfl, rfl⟩ := answered_pure hreturn
    refine ⟨_, readBy r, rfl, ⟨fun card hcard => .inl ?_, fun card hcard => ?_, nofun, ?_⟩, fun source hfound => ?_⟩
    · exact cardRead_getCards.mpr hcard
    · exact cardRead_getCards.mp hcard
    · exact getCards_notGranted
    · exact hfound.read (hallowed _ (.head _))

theorem releaseLock_answered {lockKey : String} {calls : List Exchange} {result : Except String Unit}
    (h : Answered (releaseLock lockKey) calls result) : (∀ call ∈ calls, Plain call.1) ∧ result = .ok () := by
  obtain ⟨r, rfl, rfl⟩ := answered_orElse h
  exact ⟨fun call hcall => List.mem_singleton.mp hcall ▸ trivial, rfl⟩

/-- What is done for the ids without a card, the lock once asked for. -/
theorem fillCards_answered {calls : List Exchange} {missingIds : List String} {lockKey : String} {hasLock : Bool}
    {result : Except String ProductsById}
    (h : Answered (if hasLock then ensure (refillCards catalogVersion missingIds productsById) (releaseLock lockKey)
      else rereadCards catalogVersion missingIds productsById) calls result)
    (hallowed : ∀ call ∈ calls, Allowed P db call) :
    ∃ found added, result = .ok found ∧ Added db missingIds hasLock calls added ∧
      ∀ source, Found source productsById → Found (source ∪ added) found := by
  cases hasLock with
  | false => exact rereadCards_answered h hallowed
  | true =>
    have hrelease : ∀ calls e, ¬Answered (releaseLock lockKey) calls (.error e) := by
      intro calls e hfail
      cases (releaseLock_answered hfail).2
    obtain ⟨before, after, rfl, hrefill, hafter⟩ := answered_ensure hrelease h
    have hplain := (releaseLock_answered hafter).1
    obtain ⟨found, added, hresult, hadded, hfound⟩ :=
      refillCards_answered hrefill (List.forall_mem_append.mp hallowed).1
    refine ⟨found, added, hresult, ⟨fun card hcard => ?_, fun card hread => ?_, hadded.fetched, ?_⟩, hfound⟩
    · exact (hadded.cards card hcard).imp_left fun hread => cardRead_append.mpr (.inl hread)
    · exact hadded.read card ((cardRead_append.mp hread).resolve_right (plain_cardRead hplain card))
    · rw [lockGranted_append]
      exact not_or.mpr ⟨hadded.locked, plain_lockGranted hplain⟩

/-- The same, on the way to the result. -/
theorem fillCards_returns {β : Type} {calls : List Exchange} {missingIds : List String} {lockKey : String}
    {hasLock : Bool} {f : ProductsById → β} {result : Except String β}
    (h : Answered (if hasLock then
        ensure (refillCards catalogVersion missingIds productsById) (releaseLock lockKey) >>= fun found => pure (f found)
      else rereadCards catalogVersion missingIds productsById >>= fun found => pure (f found)) calls result)
    (hallowed : ∀ call ∈ calls, Allowed P db call) :
    ∃ found added, result = .ok (f found) ∧ Added db missingIds hasLock calls added ∧
      ∀ source, Found source productsById → Found (source ∪ added) found := by
  have hjoined : Answered ((if hasLock then ensure (refillCards catalogVersion missingIds productsById) (releaseLock lockKey)
      else rereadCards catalogVersion missingIds productsById) >>= fun found => pure (f found)) calls result := by
    cases hasLock <;> exact h
  rcases answered_bind hjoined with ⟨e, rfl, hfill⟩ | ⟨found, before, after, rfl, hfill, hreturn⟩
  · obtain ⟨_, _, he, _⟩ := fillCards_answered hfill hallowed
    cases he
  · obtain ⟨rfl, rfl⟩ := answered_pure hreturn
    rw [List.append_nil] at hallowed ⊢
    obtain ⟨_, added, he, hadded, hfound⟩ := fillCards_answered hfill hallowed
    cases he
    exact ⟨found, added, rfl, hadded, hfound⟩

/-- What a hydration shows: the cards of its batched reads and, with the lock, those of the
active products whose cards the first read did not give. -/
structure Shown (db : Database) (ids : List String) (calls : List Exchange) (source : Set ProductListItem)
    (hydrated : HydratedProducts) : Prop where
  found : ∃ productsById, Found source productsById ∧
    hydrated = ⟨orderHydratedProducts ids productsById, findMissingProductIds ids productsById⟩
  cards : ∀ card ∈ source, CardRead calls card ∨
    ∃ product ∈ db.products.rows, product.active = true ∧ card = toListItem db product
  read : ∀ card, CardRead calls card → card ∈ source
  fetched : LockGranted calls → ∀ id ∈ ids, ActiveProduct db id → ∃ card ∈ source, card.id = id

theorem hydrateProducts_answered {calls : List Exchange} {result : Except String HydratedProducts}
    (h : Answered (hydrateProducts P catalogVersion ids) calls result)
    (hallowed : ∀ call ∈ calls, Allowed P db call) :
    ∃ hydrated source, result = .ok hydrated ∧ Shown db ids calls source hydrated := by
  unfold hydrateProducts at h
  by_cases hids : ids = []
  · rw [if_pos hids] at h
    obtain ⟨rfl, rfl⟩ := answered_pure h
    refine ⟨_, ∅, rfl, ⟨⟨_, found_none, by rw [hids]; rfl⟩, fun _ hcard => hcard.elim, ?_, ?_⟩⟩
    · exact fun card hread => (plain_cardRead (List.forall_mem_nil _) card hread).elim
    · exact fun hlock => (plain_lockGranted (List.forall_mem_nil _) hlock).elim
  rw [if_neg hids] at h
  rcases answered_bind h with ⟨e, _, hread⟩ | ⟨cachedProducts, before, after, rfl, hread, hrest⟩
  · obtain ⟨_, _, he⟩ := answered_orElse hread
    cases he
  obtain ⟨r, rfl, he⟩ := answered_orElse hread
  cases he
  have hfirst := found_none.read (hallowed _ (.head _))
  rw [Set.empty_union] at hfirst
  generalize collectCachedProducts ids (r.toOption.getD (ids.map fun _ => none)) (fun _ => none) = productsById
    at hfirst hrest
  dsimp only at hrest
  by_cases hmissing : findMissingProductIds ids productsById = []
  · rw [if_pos hmissing] at hrest
    obtain ⟨rfl, rfl⟩ := answered_pure hrest
    refine ⟨_, readBy r, rfl, ⟨⟨productsById, hfirst, by rw [hmissing]⟩, fun card hcard => ?_,
      fun card hcard => ?_, ?_⟩⟩
    · exact .inl (cardRead_getCards.mpr hcard)
    · exact cardRead_getCards.mp hcard
    · exact fun hlock => (getCards_notGranted hlock).elim
  rw [if_neg hmissing] at hrest
  rcases answered_bind hrest with ⟨e, _, hlock⟩ | ⟨hasLock, before, after, rfl, hlock, hrest⟩
  · obtain ⟨_, _, he⟩ := answered_orElse hlock
    cases he
  obtain ⟨lockAnswer, rfl, he⟩ := answered_orElse hlock
  cases he
  have hallowedRest := (List.forall_mem_append.mp (List.forall_mem_append.mp hallowed).2).2
  obtain ⟨found, added, rfl, hadded, hfound⟩ := fillCards_returns hrest hallowedRest
  refine ⟨_, readBy r ∪ added, rfl, ⟨⟨found, hfound _ hfirst, rfl⟩, fun card hcard => ?_, fun card hread => ?_,
    fun hgranted id hid hactive => ?_⟩⟩
  · rw [cardRead_append, cardRead_append]
    rcases hcard with hcard | hcard
    · exact .inl (.inl (cardRead_getCards.mpr hcard))
    · exact (hadded.cards card hcard).imp_left fun hread => .inr (.inr hread)
  · rw [cardRead_append, cardRead_append] at hread
    rcases hread with hread | hread | hread
    · exact .inl (cardRead_getCards.mp hread)
    · exact (cardRead_acquireLock hread).elim
    · exact .inr (hadded.read card hread)
  · rw [lockGranted_append, lockGranted_append] at hgranted
    have hlocked : lockAnswer.toOption.getD false = true := by
      rcases hgranted with hgranted | hgranted | hgranted
      · exact (getCards_notGranted hgranted).elim
      · obtain ⟨call, hmem, hgrants⟩ := hgranted
        rw [List.mem_singleton.mp hmem] at hgrants
        cases lockAnswer with
        | error e => cases hgrants
        | ok granted => exact hgrants
      · exact (hadded.locked hgranted).elim
    by_cases hmiss : id ∈ findMissingProductIds ids productsById
    · obtain ⟨card, hcard, hcardId⟩ := hadded.fetched hlocked id hmiss hactive
      exact ⟨card, .inr hcard, hcardId⟩
    · rw [hfirst.mem_missing] at hmiss
      push Not at hmiss
      obtain ⟨card, hcard, hcardId⟩ := hmiss hid
      exact ⟨card, .inl hcard, hcardId⟩

/-! ### A cached list -/

/-- With the lock only what neither the read nor the store has is missing. -/
theorem Shown.mem_missing {calls : List Exchange} {hydrated : HydratedProducts}
    (h : Shown db ids calls source hydrated) (hlock : LockGranted calls) {id : String} (hid : id ∈ ids) :
    id ∈ hydrated.missingProductCardIds ↔ (∀ card, CardRead calls card → card.id ≠ id) ∧ ¬ActiveProduct db id := by
  obtain ⟨⟨productsById, hfound, rfl⟩, hcards, hread, hfetched⟩ := h
  dsimp only
  rw [hfound.mem_missing]
  constructor
  · intro hmissing
    refine ⟨fun card hcard => hmissing.2 card (hread card hcard), fun hactive => ?_⟩
    obtain ⟨card, hcard, hcardId⟩ := hfetched hlock id hid hactive
    exact hmissing.2 card hcard hcardId
  · intro hneither
    refine ⟨hid, fun card hcard hcardId => ?_⟩
    rcases hcards card hcard with hcardRead | ⟨product, hproduct, hactive, rfl⟩
    · exact hneither.1 card hcardRead hcardId
    · exact hneither.2 ⟨product, hproduct, hcardId, hactive⟩

/-- Cards that equal the rows show what the rows say. -/
theorem Shown.items_eq {query : NormalizedQuery} {items : List ProductListItem} {calls : List Exchange}
    {hydrated : HydratedProducts} (h : Shown db (items.map ProductListItem.id) calls source hydrated)
    (hitems : Products.fetchProducts P db query none = .ok items)
    (hcards : ∀ card, CardRead calls card → ∃ product ∈ db.products.rows, card = toListItem db product)
    (hall : LockGranted calls ∨ ∀ item ∈ items, ∃ card, CardRead calls card ∧ card.id = item.id) :
    hydrated = ⟨items, []⟩ := by
  obtain ⟨⟨productsById, hfound, rfl⟩, hsource, hread, hfetched⟩ := h
  have hactive : ∀ item ∈ items,
      ∃ product ∈ db.products.rows, product.active = true ∧ item = toListItem db product := by
    intro item hitem
    obtain ⟨product, hproduct, hselected, hcard⟩ := fetchProducts_mem hitems item hitem
    simp only [selected, Bool.and_eq_true] at hselected
    exact ⟨product, hproduct, hselected.1.1.1, hcard⟩
  have hrows : ∀ card ∈ source, ∃ product ∈ db.products.rows, card = toListItem db product := by
    intro card hcard
    rcases hsource card hcard with hcard | ⟨product, hproduct, _, he⟩
    · exact hcards card hcard
    · exact ⟨product, hproduct, he⟩
  have hcovered : ∀ item ∈ items, ∃ card ∈ source, card.id = item.id := by
    intro item hitem
    rcases hall with hlock | hall
    · obtain ⟨product, hproduct, hactive, rfl⟩ := hactive item hitem
      exact hfetched hlock _ (List.mem_map_of_mem hitem) ⟨product, hproduct, rfl, hactive⟩
    · obtain ⟨card, hcard, hid⟩ := hall item hitem
      exact ⟨card, hread card hcard, hid⟩
  have horder : orderHydratedProducts (items.map ProductListItem.id) productsById = items := by
    refine hfound.order_eq (fun item hitem card hcard hid => ?_) hcovered
    obtain ⟨product, hproduct, _, rfl⟩ := hactive item hitem
    obtain ⟨product', hproduct', rfl⟩ := hrows card hcard
    rw [db.products.eq_of_key hproduct' hproduct hid]
  have hmissing : findMissingProductIds (items.map ProductListItem.id) productsById = [] := by
    refine List.eq_nil_iff_forall_not_mem.mpr fun id hid => ?_
    rw [hfound.mem_missing] at hid
    obtain ⟨item, hitem, rfl⟩ := List.mem_map.mp hid.1
    obtain ⟨card, hcard, hcardId⟩ := hcovered item hitem
    exact hid.2 card hcard hcardId
  rw [horder, hmissing]

/-- A hit is a hydration of the cached ids. -/
theorem listProducts_hit {query : ProductQuery} {calls : List Exchange} {result : Except String ProductList}
    (h : Answered (listProducts P query) calls result)
    (hallowed : ∀ call ∈ calls, Allowed P db call)
    (hhit : ∀ call ∈ calls, hits ids call = true) :
    ∃ hydrated rest, result = .ok ⟨hydrated.items, normalizeQuery P query, readerVersion db.catalogVersion, .hit,
        hydrated.missingProductCardIds, false⟩ ∧
      Answered (hydrateProducts P (readerVersion db.catalogVersion) ids) rest (.ok hydrated) ∧
      (∀ call ∈ rest, call ∈ calls) ∧ (LockGranted calls → LockGranted rest) ∧
      ∀ card, CardRead calls card → CardRead rest card := by
  rcases answered_bind h with ⟨e, _, hversion⟩ | ⟨v, before, after, rfl, hversion, hrest⟩
  · rcases answered_bind hversion with ⟨_, _, hcall⟩ | ⟨_, _, _, _, _, hreturn⟩
    · obtain rfl := answered_call hcall
      cases hallowed _ (.head _)
    · cases (answered_pure hreturn).2
  rcases answered_bind hversion with ⟨_, he, _⟩ | ⟨row, _, _, rfl, hcall, hreturn⟩
  · cases he
  obtain rfl := answered_call hcall
  obtain ⟨rfl, he⟩ := answered_pure hreturn
  cases he
  cases hallowed _ (.head _)
  rcases answered_bind hrest with ⟨e, _, hids⟩ | ⟨cachedIds, before, after, rfl, hids, hrest⟩
  · obtain ⟨_, _, he⟩ := answered_orElse hids
    cases he
  obtain ⟨r, rfl, he⟩ := answered_orElse hids
  cases he
  have hr : r = .ok (some ids) := by
    have hhit := hhit _ (.tail _ (.head _))
    cases r with
    | error e => simp [hits, Except.toOption] at hhit
    | ok cached => simpa [hits, Except.toOption] using hhit
  cases hr
  have hbefore (key : String) : ∀ call ∈ ([⟨.findCatalogVersion, .ok db.catalogVersion⟩] ++ [] ++
      [⟨.getIds key, .ok (some ids)⟩] : List Exchange), Plain call.1 := by
    simp [Plain]
  rw [← List.append_assoc] at hallowed ⊢
  have hallowedRest := (List.forall_mem_append.mp hallowed).2
  rcases answered_bind hrest with ⟨e, _, hhydrate⟩ | ⟨hydrated, rest, _, rfl, hhydrate, hreturn⟩
  · obtain ⟨_, _, he, _⟩ := hydrateProducts_answered hhydrate hallowedRest
    cases he
  obtain ⟨rfl, rfl⟩ := answered_pure hreturn
  rw [List.append_nil rest]
  refine ⟨hydrated, rest, rfl, hhydrate, fun call hcall => List.mem_append_right _ hcall, fun hlock => ?_,
    fun card hread => ?_⟩
  · exact (lockGranted_append.mp hlock).resolve_left (plain_lockGranted (hbefore _))
  · exact (cardRead_append.mp hread).resolve_left (plain_cardRead (hbefore _) card)

/-- What a hydration shows of the ids it is given, and what a hit on a list shows that the
store has not outdated: the ids are shown in their order or reported missing, with the lock
only those are missing that neither the read nor the store has, and a hit shows what a
query of the store would. -/
theorem cached_list_agrees (P : Products.Platform) (db : Database) :
    (∀ (catalogVersion : Int) (ids : List String) (calls : List Exchange) (result : Except String HydratedProducts),
      ids.Nodup → Answered (hydrateProducts P catalogVersion ids) calls result →
      (∀ call ∈ calls, Allowed P db call) →
      ∃ hydrated, result = .ok hydrated ∧ (hydrated.items.map ProductListItem.id).Nodup ∧
        (hydrated.items.map ProductListItem.id).Sublist ids ∧
        (hydrated.items.map ProductListItem.id ++ hydrated.missingProductCardIds).Perm ids ∧
        (LockGranted calls → ∀ id ∈ ids, id ∈ hydrated.missingProductCardIds ↔
          (∀ card, CardRead calls card → card.id ≠ id) ∧ ¬ActiveProduct db id)) ∧
    ∀ (query : ProductQuery) (items : List ProductListItem) (calls : List Exchange)
    (result : Except String ProductList),
      Products.fetchProducts P db (normalizeQuery P query) none = .ok items →
      Answered (listProducts P query) calls result →
      (∀ call ∈ calls, Allowed P db call) →
      (∀ call ∈ calls, hits (items.map ProductListItem.id) call = true) →
      (∀ card, CardRead calls card → ∃ product ∈ db.products.rows, card = toListItem db product) →
      (LockGranted calls ∨ ∀ item ∈ items, ∃ card, CardRead calls card ∧ card.id = item.id) →
      result = .ok ⟨items, normalizeQuery P query, readerVersion db.catalogVersion, .hit, [], false⟩ := by
  constructor
  · intro catalogVersion ids calls result hids h hallowed
    obtain ⟨hydrated, source, rfl, hshown⟩ := hydrateProducts_answered h hallowed
    obtain ⟨productsById, hfound, rfl⟩ := hshown.found
    have hsublist : ((orderHydratedProducts ids productsById).map ProductListItem.id).Sublist ids := by
      rw [hfound.map_order]
      exact List.filter_sublist
    exact ⟨_, rfl, hsublist.nodup hids, hsublist, hfound.partition ids,
      fun hlock id hid => hshown.mem_missing hlock hid⟩
  · intro query items calls result hitems h hallowed hhit hcards hall
    obtain ⟨hydrated, rest, rfl, hhydrate, hrest, hlock, hread⟩ := listProducts_hit h hallowed hhit
    obtain ⟨_, source, he, hshown⟩ := hydrateProducts_answered hhydrate fun call hcall => hallowed call (hrest call hcall)
    cases he
    have hcards' : ∀ card, CardRead rest card → ∃ product ∈ db.products.rows, card = toListItem db product := by
      intro card hcard
      obtain ⟨call, hmem, hcard⟩ := hcard
      exact hcards card ⟨call, hrest call hmem, hcard⟩
    rw [hshown.items_eq hitems hcards' (hall.imp hlock fun hall item hitem => ?_)]
    obtain ⟨card, hcard, hid⟩ := hall item hitem
    exact ⟨card, hread card hcard, hid⟩

/-! ### In a world of its own -/

/-- Every card in the cache was written by `cacheProductCard`. -/
def OwnCards (redis : Redis) : Prop :=
  ∀ key card, redis.cards key = some card → ∃ catalogVersion, key = productCardKey catalogVersion card.id

/-- The store answered, if it was asked. -/
def storeAnswers : Exchange → Bool
  | ⟨.findCatalogVersion, r⟩ => r.isOk
  | ⟨.fetchProducts _ _, r⟩ => r.isOk
  | _ => true

/-- A call of a read, of whatever version. -/
def OfRead (P : Products.Platform) (q : Products.Call) : Prop := q = .findCatalogVersion ∨ ∃ v, ReadCall P v q

theorem versionFirst_ofRead {α : Type} {p : Api α} (hp : VersionFirst P p) : p.OnlyCalls (OfRead P) := by
  obtain ⟨rest, rfl, hrest⟩ := hp
  refine onlyCalls_bind (onlyCalls_bind (onlyCalls_call (.inl rfl)) fun _ => trivial) fun v => ?_
  exact onlyCalls_mono (hrest v) fun q hq => .inr ⟨v, hq⟩

theorem execute_ownCards {w : Products.World} {q : Products.Call} (hq : OfRead P q) (hcards : OwnCards w.redis) :
    OwnCards (Products.execute P w q).1.redis := by
  rcases hq with rfl | ⟨v, hq⟩
  · exact hcards
  cases q with
  | setCard key card ttlSeconds =>
    obtain rfl : key = productCardKey v card.id := hq
    intro key' card' hcard'
    by_cases hkey : key' = productCardKey v card.id
    · subst hkey
      simp only [Products.execute, Function.update_self, Option.some.injEq] at hcard'
      exact ⟨v, by rw [hcard']⟩
    · simp only [Products.execute, Function.update_of_ne hkey] at hcard'
      exact hcards key' card' hcard'
  | deleteCard key => exact hq.elim
  | checkoutTransaction input => exact hq.elim
  | findCatalogVersion => exact hcards
  | _ => exact hcards

theorem execute_allowed {w : Products.World} {q : Products.Call} (hcards : OwnCards w.redis)
    (hanswered : storeAnswers ⟨q, (Products.execute P w q).2⟩ = true) :
    Allowed P w.shop.db ⟨q, (Products.execute P w q).2⟩ := by
  cases q with
  | findCatalogVersion => rfl
  | fetchProducts query only => exact ⟨hanswered, rfl⟩
  | getCards keys =>
    intro cards he
    cases he
    rw [List.forall₂_map_right_iff, List.forall₂_same]
    exact fun key _ card hcard => hcards key card hcard
  | _ => trivial

theorem perform_allowed {w : Products.World} {q : Products.Call} (hcards : OwnCards w.redis) (reply : Shop.Reply)
    (hanswered : storeAnswers ⟨q, (Products.perform P w q reply).2⟩ = true) :
    Allowed P w.shop.db ⟨q, (Products.perform P w q reply).2⟩ := by
  have hfailed (message : String) (h : storeAnswers ⟨q, .error message⟩ = true) :
      Allowed P w.shop.db ⟨q, .error message⟩ := by
    cases q with
    | findCatalogVersion => cases h
    | fetchProducts query only => cases h
    | getCards keys => exact fun cards he => by cases he
    | _ => trivial
  cases reply with
  | answered => exact execute_allowed hcards hanswered
  | failed message => exact hfailed message hanswered
  | lost message => exact hfailed message hanswered

/-- A read that nothing interrupts is answered by one store and by the cards it finds. -/
theorem complete_allowed {α : Type} {p : Api α} (hp : p.OnlyCalls (OfRead P)) {choices : List (Nat × Shop.Reply)}
    {w w' : Products.World} {calls : List Exchange} {result : Except String α} (hcards : OwnCards w.redis)
    (h : complete (Products.perform P) choices p w = some (calls, result, w'))
    (hanswered : ∀ call ∈ calls, storeAnswers call = true) :
    Answered p calls result ∧ ∀ call ∈ calls, Allowed P w.shop.db call := by
  let I (v : Products.World) : Prop := v.shop = w.shop ∧ OwnCards v.redis
  let good (call : Exchange) : Prop := storeAnswers call = true → Allowed P w.shop.db call
  have hkept : ∀ q v (reply : Shop.Reply), OfRead P q → I v →
      I (Products.perform P v q reply).1 ∧ good ⟨q, (Products.perform P v q reply).2⟩ := by
    intro q v reply hq hv
    refine ⟨perform_keeps hv ⟨?_, execute_ownCards hq hv.2⟩ reply, fun hanswered => ?_⟩
    · rcases hq with rfl | ⟨version, hq⟩
      · exact hv.1
      · exact (read_shop hq).trans hv.1
    · rw [← hv.1]
      exact perform_allowed hv.2 reply hanswered
  have hI : I w := ⟨rfl, hcards⟩
  have hcalls := (complete_answers hkept hp hI h).2
  exact ⟨answered_of_complete h, fun call hcall => hcalls call hcall (hanswered call hcall)⟩

/-! ### Lists of cases -/

def aCase (id : String) (active : Bool) : Product := ⟨id, id, "Case", none, none, none, active, 0⟩

/-- The store of these products. -/
def storeOf (products : List Product) : Database :=
  {Database.empty with
    products := products.foldl Table.set .empty
    catalogVersion := some 1}

def allProducts : ProductQuery := ⟨none, none, none, none, none⟩

/-- The products are listed in the cache, and the cards of some of them are still there. -/
def cachedList (products cached : List Product) : Products.World where
  shop := {Shop.World.fresh [] with db := storeOf products}
  redis :=
    { queries := fun key =>
        if key = buildProductsQueryCacheKey plainLibraries 1 (normalizeQuery plainLibraries allProducts) then
          some (products.map Product.id)
        else none
      cards := fun key => (cached.map (toListItem (storeOf products))).find? fun card => key = productCardKey 1 card.id
      locks := fun _ => false }

theorem cachedList_ownCards (products cached : List Product) : OwnCards (cachedList products cached).redis := by
  intro key card hcard
  exact ⟨1, by simpa using List.find?_some hcard⟩

/-- A run that returns, with what was checked of it. -/
theorem exists_run {α : Type} (run : Option (List Exchange × Except String α × Products.World))
    (check : List Exchange → α → Bool) (h : run.any (fun r => r.2.1.toOption.any (check r.1)) = true) :
    ∃ calls a w', run = some (calls, .ok a, w') ∧ check calls a = true := by
  cases run with
  | none => cases h
  | some r =>
    obtain ⟨calls, result, w'⟩ := r
    cases result with
    | error e => cases h
    | ok a => exact ⟨calls, a, w', rfl, h⟩

/-- A hydration whose first read fails, and a hit none of whose reads is answered. -/
def readFails : List (Nat × Shop.Reply) :=
  [(0, .failed "timeout"), (0, .answered), (0, .answered), (0, .answered), (0, .answered)]

def nothingReads : List (Nat × Shop.Reply) :=
  [(0, .answered), (0, .answered), (0, .failed "timeout"), (0, .failed "timeout"), (0, .failed "timeout")]

/-- A card that was cached is lost with the read, and a list all of whose cards are cached
is shown empty when neither read nor lock is answered. -/
theorem cached_list_disagrees :
    (¬∀ (P : Products.Platform) (w w' : Products.World) (catalogVersion : Int) (ids : List String)
      (choices : List (Nat × Shop.Reply)) (calls : List Exchange) (hydrated : HydratedProducts),
      ids.Nodup → OwnCards w.redis →
      complete (Products.perform P) choices (hydrateProducts P catalogVersion ids) w = some (calls, .ok hydrated, w') →
      (∀ call ∈ calls, storeAnswers call = true) → LockGranted calls →
      ∀ id ∈ ids, id ∈ hydrated.missingProductCardIds ↔
        w.redis.cards (productCardKey catalogVersion id) = none ∧ ¬ActiveProduct w.shop.db id) ∧
    ¬∀ (P : Products.Platform) (w w' : Products.World) (query : ProductQuery) (items : List ProductListItem)
      (choices : List (Nat × Shop.Reply)) (calls : List Exchange) (list : ProductList),
      Products.fetchProducts P w.shop.db (normalizeQuery P query) none = .ok items → OwnCards w.redis →
      complete (Products.perform P) choices (listProducts P query) w = some (calls, .ok list, w') →
      (∀ call ∈ calls, storeAnswers call = true) → (∀ call ∈ calls, hits (items.map ProductListItem.id) call = true) →
      (∀ item ∈ items, w.redis.cards (productCardKey (Products.version w) item.id) = some item) →
      list.items = items := by
  constructor
  · intro h
    obtain ⟨calls, hydrated, w', hrun, hcheck⟩ := exists_run (complete (Products.perform plainLibraries) readFails
      (hydrateProducts plainLibraries 1 ["p1"]) (cachedList [aCase "p1" false] [aCase "p1" false]))
      (fun calls hydrated => calls.all storeAnswers && calls.any grants && hydrated.missingProductCardIds = ["p1"])
      (by decide +kernel)
    simp only [Bool.and_eq_true, List.all_eq_true, List.any_eq_true, decide_eq_true_eq] at hcheck
    obtain ⟨⟨hanswers, hgranted⟩, hmissing⟩ := hcheck
    have hlost := (h plainLibraries _ w' 1 ["p1"] readFails calls hydrated (by decide) (cachedList_ownCards _ _) hrun
      hanswers hgranted "p1" (.head _)).mp (hmissing ▸ .head _)
    exact absurd hlost.1 (by decide +kernel)
  · intro h
    obtain ⟨calls, list, w', hrun, hcheck⟩ := exists_run (complete (Products.perform plainLibraries) nothingReads
      (listProducts plainLibraries allProducts) (cachedList [aCase "p1" true] [aCase "p1" true]))
      (fun calls list => calls.all storeAnswers && calls.all (hits ["p1"]) && list.items = [])
      (by decide +kernel)
    simp only [Bool.and_eq_true, List.all_eq_true, decide_eq_true_eq] at hcheck
    obtain ⟨⟨hanswers, hhits⟩, hitems⟩ := hcheck
    have hshown := h plainLibraries _ w' allProducts [toListItem (storeOf [aCase "p1" true]) (aCase "p1" true)] nothingReads
      calls list (by decide +kernel) (cachedList_ownCards _ _) hrun hanswers hhits (by decide +kernel)
    rw [hitems] at hshown
    cases hshown

/-- The card of the first of two listed cases is gone. -/
def oneEvicted : Products.World := cachedList [aCase "p1" true, aCase "p2" true] [aCase "p2" true]

theorem cached_list_agrees_evicted :
    (∃ calls hydrated w', complete (Products.perform plainLibraries) (List.replicate 6 (0, .answered))
        (hydrateProducts plainLibraries 1 ["p1", "p2"]) oneEvicted = some (calls, .ok hydrated, w') ∧
      (hydrated.items.map ProductListItem.id ++ hydrated.missingProductCardIds).Perm ["p1", "p2"] ∧
      ("p1" ∈ hydrated.missingProductCardIds ↔
        (∀ card, CardRead calls card → card.id ≠ "p1") ∧ ¬ActiveProduct oneEvicted.shop.db "p1")) ∧
    ∃ calls result w', complete (Products.perform plainLibraries) (List.replicate 8 (0, .answered))
        (listProducts plainLibraries allProducts) oneEvicted = some (calls, result, w') ∧
      result = .ok ⟨[aCase "p1" true, aCase "p2" true].map (toListItem oneEvicted.shop.db),
        normalizeQuery plainLibraries allProducts, 1, .hit, [], false⟩ := by
  have hagrees := cached_list_agrees plainLibraries oneEvicted.shop.db
  constructor
  · obtain ⟨calls, hydrated, w', hrun, hcheck⟩ := exists_run (complete (Products.perform plainLibraries)
      (List.replicate 6 (0, .answered)) (hydrateProducts plainLibraries 1 ["p1", "p2"]) oneEvicted)
      (fun calls _ => calls.all storeAnswers && calls.any grants) (by decide +kernel)
    simp only [Bool.and_eq_true, List.all_eq_true, List.any_eq_true] at hcheck
    have hreads : (hydrateProducts plainLibraries 1 ["p1", "p2"]).OnlyCalls (OfRead plainLibraries) :=
      onlyCalls_mono (hydrateProducts_calls _) fun q hq => .inr ⟨1, hq⟩
    obtain ⟨hanswered, hallowed⟩ := complete_allowed hreads (cachedList_ownCards _ _) hrun hcheck.1
    obtain ⟨_, he, _, _, hperm, hmissing⟩ := hagrees.1 1 ["p1", "p2"] calls _ (by decide) hanswered hallowed
    cases he
    exact ⟨calls, hydrated, w', hrun, hperm, hmissing hcheck.2 "p1" (.head _)⟩
  · obtain ⟨calls, list, w', hrun, hcheck⟩ := exists_run (complete (Products.perform plainLibraries)
      (List.replicate 8 (0, .answered)) (listProducts plainLibraries allProducts) oneEvicted)
      (fun calls _ => calls.all storeAnswers && calls.any grants && calls.all (hits ["p1", "p2"]) &&
        calls.all fun call => (cardsOf call).all fun card =>
          oneEvicted.shop.db.products.rows.any fun product => card = toListItem oneEvicted.shop.db product)
      (by decide +kernel)
    simp only [Bool.and_eq_true, List.all_eq_true, List.any_eq_true, decide_eq_true_eq] at hcheck
    obtain ⟨⟨⟨hanswers, hgranted⟩, hhits⟩, hcards⟩ := hcheck
    obtain ⟨hanswered, hallowed⟩ := complete_allowed (versionFirst_ofRead (listProducts_versionFirst allProducts))
      (cachedList_ownCards _ _) hrun hanswers
    refine ⟨calls, .ok list, w', hrun, ?_⟩
    refine hagrees.2 allProducts _ calls _ (by decide +kernel) hanswered hallowed hhits (fun card hcard => ?_) (.inl hgranted)
    obtain ⟨call, hcall, hcard⟩ := hcard
    exact hcards call hcall card hcard

end CaseCellShop.Storefront
