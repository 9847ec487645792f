import CaseCellShop.Library.Steps
import CaseCellShop.Products.Service
import CaseCellShop.Shop.System
import Mathlib.Data.Int.ConditionallyCompleteOrder

/-! Syncs and product reads, one after the other.

A session remembers what was cached when each sync returned and which calls each read
made. A sync moves the catalog version past every key of the cache, so that a later
read looks up none of them, unless it is the sync that creates the version row: reads
take the version for 1 while there is none, and the row begins at 1. -/
namespace CaseCellShop.Storefront
open Catalog Products Program Shop

inductive Read where
  | listProducts (query : ProductQuery)
  | getProductById (id : String)

/-- The calls of a read with their answers. -/
abbrev Trace := List ((q : Products.Call) × Except String (Products.Answer q))

/-- A whole read. -/
def Read.run (P : Products.Platform) (choices : List (Nat × Reply)) (w : Products.World) :
    Read → Option (Trace × Products.World)
  | .listProducts query =>
    (complete (Products.perform P) choices (Products.listProducts P query) w).map fun (calls, _, w') => (calls, w')
  | .getProductById id =>
    (complete (Products.perform P) choices (Products.getProductById id) w).map fun (calls, _, w') => (calls, w')

inductive Observed where
  /-- A sync returned; this was cached. -/
  | synced (cached : Redis)
  | read (calls : Trace)

/-- The world and what was observed so far, the newest first. -/
structure Session where
  world : Products.World
  history : List Observed

/-- A store with nothing cached and nothing observed. -/
def Session.opening (shop : Shop.World) : Session := ⟨.opening shop, []⟩

inductive Op where
  | syncCatalog
  | read (read : Read) (choices : List (Nat × Reply))
  | setCatalog (products : List ErpCatalogProduct)
  | tick (clock : Clock)
  | expireQuery (key : String)
  | expireCard (key : String)
  | expireLock (key : String)

/-- A sync that does not return is no step. -/
def Session.step (P : Products.Platform) (s : Session) : Op → Option Session
  | .syncCatalog =>
    match Reconciliation.syncCatalog.run (Shop.execute P.toPlatform) s.world.shop with
    | (.ok _, shop) => some ⟨⟨shop, s.world.redis⟩, .synced s.world.redis :: s.history⟩
    | (.error _, _) => none
  | .read read choices =>
    (read.run P choices s.world).map fun (calls, w) => ⟨w, .read calls :: s.history⟩
  | .setCatalog products =>
    some ⟨⟨{s.world.shop with erp := s.world.shop.erp.setCatalog products}, s.world.redis⟩, s.history⟩
  | .tick clock => some ⟨⟨{s.world.shop with clock := clock}, s.world.redis⟩, s.history⟩
  | .expireQuery key => some ⟨⟨s.world.shop, s.world.redis.expireQuery key⟩, s.history⟩
  | .expireCard key => some ⟨⟨s.world.shop, s.world.redis.expireCard key⟩, s.history⟩
  | .expireLock key => some ⟨⟨s.world.shop, s.world.redis.expireLock key⟩, s.history⟩

def sessions (P : Products.Platform) : Steps.System Session Op := ⟨Session.step P⟩

/-! ### What a read is answered from -/

/-- The call looks up nothing that was cached. -/
def Untouched (cached : Redis) : Products.Call → Prop
  | .getIds key => cached.queries key = none
  | .getCard key => cached.cards key = none
  | .getCards keys => ∀ key ∈ keys, cached.cards key = none
  | _ => True

instance (cached : Redis) : DecidablePred (Untouched cached)
  | .getIds key => inferInstanceAs (Decidable (cached.queries key = none))
  | .getCard key => inferInstanceAs (Decidable (cached.cards key = none))
  | .getCards keys => inferInstanceAs (Decidable (∀ key ∈ keys, cached.cards key = none))
  | .findCatalogVersion | .fetchProducts _ _ | .setIds _ _ _ | .setCard _ _ _ | .deleteCard _
  | .acquireLock _ _ | .releaseLock _ | .checkoutTransaction _ => .isTrue trivial

/-- The catalog versions that `getCatalogVersion` returned. -/
def versionsUsed (calls : Trace) : List Int :=
  calls.filterMap fun
    | ⟨.findCatalogVersion, .ok row⟩ => some (readerVersion row)
    | _ => none

/-- The catalog versions of an observed read. -/
def Observed.versions : Observed → List Int
  | .synced _ => []
  | .read calls => versionsUsed calls

/-- The observations before the last sync. -/
def beforeSync : List Observed → List Observed
  | [] => []
  | .synced _ :: past => past
  | .read _ :: past => beforeSync past

/-- The read looked up nothing that was cached when the sync returned. -/
def NotServedFrom (calls : Trace) : Observed → Prop
  | .synced cached => ∀ call ∈ calls, Untouched cached call.1
  | .read _ => True

/-- The read used none of the versions an earlier read used. -/
def NewVersion (calls : Trace) (o : Observed) : Prop := ∀ v ∈ versionsUsed calls, v ∉ o.versions

instance (calls : Trace) : DecidablePred (NotServedFrom calls)
  | .synced cached => inferInstanceAs (Decidable (∀ call ∈ calls, Untouched cached call.1))
  | .read _ => .isTrue trivial

instance (calls : Trace) : DecidablePred (NewVersion calls) :=
  fun o => inferInstanceAs (Decidable (∀ v ∈ versionsUsed calls, v ∉ o.versions))

/-- No read made after a sync was answered from anything cached before the sync
returned, and none used a version that a read before the sync had used. -/
def FreshReads : List Observed → Prop
  | [] => True
  | .synced _ :: past => FreshReads past
  | .read calls :: past =>
    FreshReads past ∧ (∀ o ∈ past, NotServedFrom calls o) ∧ ∀ o ∈ beforeSync past, NewVersion calls o

instance decidableFreshReads : DecidablePred FreshReads
  | [] => .isTrue trivial
  | .synced _ :: past => decidableFreshReads past
  | .read calls :: past =>
    have := decidableFreshReads past
    inferInstanceAs (Decidable (FreshReads past ∧ (∀ o ∈ past, NotServedFrom calls o) ∧
      ∀ o ∈ beforeSync past, NewVersion calls o))

/-- The sync that creates the version row comes before any read of the version. -/
def RowBeforeReads (s : Session) : Op → Prop
  | .syncCatalog => s.world.shop.db.catalogVersion = none → ∀ o ∈ s.history, o.versions = []
  | _ => True

instance (s : Session) : DecidablePred (RowBeforeReads s)
  | .syncCatalog =>
    inferInstanceAs (Decidable (s.world.shop.db.catalogVersion = none → ∀ o ∈ s.history, o.versions = []))
  | .read _ _ | .setCatalog _ | .tick _ | .expireQuery _ | .expireCard _ | .expireLock _ => .isTrue trivial

/-! ### Keys and versions -/

variable {P : Products.Platform}

/-- Every query list and every card is cached under a version of `versions`. -/
structure KeysUnder (P : Products.Platform) (versions : Set Int) (redis : Redis) : Prop where
  queries : ∀ key ids, redis.queries key = some ids →
    ∃ v ∈ versions, ∃ query, key = buildProductsQueryCacheKey P v query
  cards : ∀ key card, redis.cards key = some card → ∃ v ∈ versions, ∃ id, key = productCardKey v id

theorem KeysUnder.mono {versions versions' : Set Int} {redis : Redis} (h : KeysUnder P versions redis)
    (hle : versions ⊆ versions') : KeysUnder P versions' redis := by
  constructor
  · intro key ids hkey
    obtain ⟨v, hv, query, rfl⟩ := h.queries key ids hkey
    exact ⟨v, hle hv, query, rfl⟩
  · intro key card hkey
    obtain ⟨v, hv, id, rfl⟩ := h.cards key card hkey
    exact ⟨v, hle hv, id, rfl⟩

theorem KeysUnder.expireQuery {versions : Set Int} {redis : Redis} (h : KeysUnder P versions redis)
    (key : String) : KeysUnder P versions (redis.expireQuery key) :=
  ⟨fun key' ids hkey => h.queries key' ids (update_none hkey), h.cards⟩

theorem KeysUnder.expireCard {versions : Set Int} {redis : Redis} (h : KeysUnder P versions redis)
    (key : String) : KeysUnder P versions (redis.expireCard key) :=
  ⟨h.queries, fun key' card hkey => h.cards key' card (update_none hkey)⟩

/-- A read under version `v` keeps the cache under versions that include `v`. -/
theorem KeysUnder.execute {versions : Set Int} {v : Int} (hv : v ∈ versions) {w : Products.World}
    (h : KeysUnder P versions w.redis) {q : Products.Call} (hq : ReadCall P v q) :
    KeysUnder P versions (Products.execute P w q).1.redis := by
  cases q with
  | setIds key ids ttl =>
    obtain ⟨query, rfl⟩ := hq
    refine ⟨fun key' ids' hkey => ?_, h.cards⟩
    by_cases he : key' = buildProductsQueryCacheKey P v query
    · exact ⟨v, hv, query, he⟩
    · exact h.queries key' ids' ((Function.update_of_ne he _ _).symm.trans hkey)
  | setCard key card ttl =>
    cases hq
    refine ⟨h.queries, fun key' card' hkey => ?_⟩
    by_cases he : key' = productCardKey v card.id
    · exact ⟨v, hv, card.id, he⟩
    · exact h.cards key' card' ((Function.update_of_ne he _ _).symm.trans hkey)
  | deleteCard key => exact hq.elim
  | findCatalogVersion => exact hq.elim
  | checkoutTransaction input => exact hq.elim
  | _ => exact ⟨h.queries, h.cards⟩

/-- A read does not write the store. -/
theorem read_shop {v : Int} {w : Products.World} {q : Products.Call} (hq : ReadCall P v q) :
    (Products.execute P w q).1.shop = w.shop := by
  cases q with
  | checkoutTransaction input => exact hq.elim
  | _ => rfl

/-- Under a version past those of the cache, nothing cached is looked up. -/
theorem untouched_of_newer {v : Int} {cached : Redis} (h : KeysUnder P (Set.Iio v) cached) {q : Products.Call}
    (hq : ReadCall P v q) : Untouched cached q := by
  have hcard : ∀ id, cached.cards (productCardKey v id) = none := by
    intro id
    cases hc : cached.cards (productCardKey v id) with
    | none => rfl
    | some card =>
      obtain ⟨v', hlt, id', hkey⟩ := h.cards _ card hc
      exact absurd hlt ((productCardKey_inj hkey).1 ▸ lt_irrefl v)
  cases q with
  | getIds key =>
    obtain ⟨query, rfl⟩ := hq
    show cached.queries _ = none
    cases hc : cached.queries (buildProductsQueryCacheKey P v query) with
    | none => rfl
    | some ids =>
      obtain ⟨v', hlt, query', hkey⟩ := h.queries _ ids hc
      exact absurd hlt (queryKey_version hkey ▸ lt_irrefl v)
  | getCard key =>
    obtain ⟨id, rfl⟩ := hq
    exact hcard id
  | getCards keys =>
    intro key hkey
    obtain ⟨id, rfl⟩ := hq key hkey
    exact hcard id
  | _ => trivial

/-! ### One read -/

/-- What a read does, made of calls under one version, or of a failing read of the
version alone. -/
structure ReadRan (P : Products.Platform) (w : Products.World) (trace : Trace) (w' : Products.World) : Prop where
  shop : w'.shop = w.shop
  calls : ∀ call ∈ trace, call.1 = .findCatalogVersion ∨ ReadCall P (version w) call.1
  versions : versionsUsed trace = [] ∧ w' = w ∨ versionsUsed trace = [version w]
  keys : ∀ versions, version w ∈ versions → KeysUnder P versions w.redis → KeysUnder P versions w'.redis

theorem versionsUsed_rest {v : Int} {calls : Trace} (h : ∀ call ∈ calls, ReadCall P v call.1) :
    versionsUsed calls = [] := by
  unfold versionsUsed
  rw [List.filterMap_eq_nil_iff]
  rintro ⟨q, answer⟩ hcall
  cases q with
  | findCatalogVersion => exact (h _ hcall).elim
  | _ => rfl

/-- What a call keeps when it takes effect, it keeps under every reply. -/
theorem perform_keeps {I : Products.World → Prop} {w : Products.World} {q : Products.Call} (hw : I w)
    (h : I (Products.execute P w q).1) (reply : Reply) : I (Products.perform P w q reply).1 := by
  cases reply with
  | answered => exact h
  | failed message => exact hw
  | lost message => exact h

/-- The calls of a read under a version. -/
theorem readCalls_ran {α : Type} {v : Int} {p : Api α} (hp : p.OnlyCalls (ReadCall P v))
    {choices : List (Nat × Reply)} {w w' : Products.World} {calls : Trace} {result : Except String α}
    (h : complete (Products.perform P) choices p w = some (calls, result, w')) :
    w'.shop = w.shop ∧ (∀ call ∈ calls, ReadCall P v call.1) ∧
      ∀ versions, v ∈ versions → KeysUnder P versions w.redis → KeysUnder P versions w'.redis := by
  have hshop := complete_onlyCalls (I := fun u : Products.World => u.shop = w.shop)
    (fun q u reply hq hu => perform_keeps (I := fun u : Products.World => u.shop = w.shop) hu
      ((read_shop hq).trans hu) reply) hp rfl h
  refine ⟨hshop.1, hshop.2, fun versions hv hkeys => ?_⟩
  exact (complete_onlyCalls (I := fun u : Products.World => KeysUnder P versions u.redis)
    (fun q u reply hq hu => perform_keeps (I := fun u : Products.World => KeysUnder P versions u.redis) hu
      (hu.execute hv hq) reply) hp hkeys h).1

/-- A read whose version cannot be read does nothing else. -/
theorem failed_ran {α : Type} {message : String} {choices : List (Nat × Reply)} {w w' : Products.World}
    {calls : Trace} {result : Except String α}
    (h : complete (Products.perform P) choices (.done (.error message) : Api α) w = some (calls, result, w')) :
    ReadRan P w (⟨.findCatalogVersion, .error message⟩ :: calls) w' := by
  obtain ⟨rfl, _, rfl⟩ := complete_done h
  exact ⟨rfl, fun call hcall => .inl (List.mem_singleton.mp hcall ▸ rfl), .inl ⟨rfl, rfl⟩, fun _ _ h => h⟩

theorem versionFirst_ran {α : Type} {p : Api α} (hp : VersionFirst P p) {choices : List (Nat × Reply)}
    {w w' : Products.World} {calls : Trace} {result : Except String α}
    (h : complete (Products.perform P) choices p w = some (calls, result, w')) : ReadRan P w calls w' := by
  obtain ⟨rest, rfl, hrest⟩ := hp
  cases choices with
  | nil => cases h
  | cons choice choices =>
    obtain ⟨i, reply⟩ := choice
    obtain ⟨⟨calls', result', v⟩, hcomplete, he⟩ := Option.map_eq_some_iff.mp h
    cases he
    cases reply with
    | answered =>
      obtain ⟨hshop, hcalls, hkeys⟩ := readCalls_ran (hrest (version w)) hcomplete
      refine ⟨hshop, fun call hcall => ?_, .inr ?_, hkeys⟩
      · rcases List.mem_cons.mp hcall with rfl | hcall
        · exact .inl rfl
        · exact .inr (hcalls call hcall)
      · show version w :: versionsUsed calls' = [version w]
        rw [versionsUsed_rest hcalls]
    | failed message => exact failed_ran hcomplete
    | lost message => exact failed_ran hcomplete

theorem read_ran {read : Read} {choices : List (Nat × Reply)} {w w' : Products.World} {calls : Trace}
    (h : read.run P choices w = some (calls, w')) : ReadRan P w calls w' := by
  cases read with
  | listProducts query =>
    obtain ⟨⟨calls', result, v⟩, hcomplete, he⟩ := Option.map_eq_some_iff.mp h
    cases he
    exact versionFirst_ran (listProducts_versionFirst query) hcomplete
  | getProductById id =>
    obtain ⟨⟨calls', result, v⟩, hcomplete, he⟩ := Option.map_eq_some_iff.mp h
    cases he
    exact versionFirst_ran (getProductById_versionFirst id) hcomplete

/-! ### The invariant -/

/-- What every state of a session keeps. Before the row exists every read takes the
version for 1, and after it no older read has a version of its own to share. -/
structure Settled (P : Products.Platform) (s : Session) : Prop where
  cached : KeysUnder P (Set.Iic (version s.world)) s.world.redis
  empty : (∀ o ∈ s.history, o.versions = []) → KeysUnder P ∅ s.world.redis
  old : ∀ cached, Observed.synced cached ∈ s.history → KeysUnder P (Set.Iio (version s.world)) cached
  used : ∀ o ∈ s.history, ∀ v ∈ o.versions, v ≤ version s.world
  usedBefore : ∀ o ∈ beforeSync s.history, ∀ v ∈ o.versions, v < version s.world
  fresh : FreshReads s.history

theorem keysUnder_empty (versions : Set Int) : KeysUnder P versions .empty :=
  ⟨fun _ _ h => (by cases h), fun _ _ h => (by cases h)⟩

theorem opening_settled (shop : Shop.World) : Settled P (.opening shop) where
  cached := keysUnder_empty _
  empty _ := keysUnder_empty _
  old _ h := by cases h
  used _ h := by cases h
  usedBefore _ h := by cases h
  fresh := trivial

/-- A step that leaves the version and the history alone, and caches nothing. -/
theorem Settled.quiet {s : Session} {w : Products.World} (hs : Settled P s) (hversion : version w = version s.world)
    (hkeys : ∀ versions, KeysUnder P versions s.world.redis → KeysUnder P versions w.redis) :
    Settled P ⟨w, s.history⟩ where
  cached := hversion ▸ hkeys _ hs.cached
  empty h := hkeys _ (hs.empty h)
  old := hversion ▸ hs.old
  used := hversion ▸ hs.used
  usedBefore := hversion ▸ hs.usedBefore
  fresh := hs.fresh

theorem Settled.read {s : Session} {calls : Trace} {w : Products.World} (hs : Settled P s)
    (h : ReadRan P s.world calls w) : Settled P ⟨w, .read calls :: s.history⟩ := by
  have hversion : version w = version s.world := by
    unfold version
    rw [h.shop]
  have hused : ∀ v ∈ versionsUsed calls, v = version s.world := by
    intro v hv
    rcases h.versions with ⟨hnone, _⟩ | hone
    · rw [hnone] at hv
      cases hv
    · rw [hone] at hv
      exact List.mem_singleton.mp hv
  refine ⟨?_, ?_, ?_, ?_, ?_, hs.fresh, ?_, ?_⟩
  · rw [hversion]
    exact h.keys _ Set.self_mem_Iic hs.cached
  · intro hempty
    rcases h.versions with ⟨_, hw⟩ | hone
    · rw [hw]
      exact hs.empty fun o ho => hempty o (.tail _ ho)
    · have hnone : versionsUsed calls = [] := hempty _ (.head _)
      rw [hnone] at hone
      cases hone
  · intro cached hcached
    rw [hversion]
    rcases List.mem_cons.mp hcached with he | hold
    · cases he
    · exact hs.old cached hold
  · intro o ho v hv
    rw [hversion]
    rcases List.mem_cons.mp ho with rfl | ho
    · exact (hused v hv).le
    · exact hs.used o ho v hv
  · rw [hversion]
    exact hs.usedBefore
  · intro o ho
    cases o with
    | read earlier => trivial
    | synced cached =>
      intro call hcall
      rcases h.calls call hcall with hq | hq
      · rw [hq]
        trivial
      · exact untouched_of_newer (hs.old cached ho) hq
  · intro o ho v hv hearlier
    exact absurd (hused v hv) (hs.usedBefore o ho v hearlier).ne

theorem Settled.sync {s : Session} {shop : Shop.World} (hs : Settled P s)
    (hversion : shop.db.catalogVersion = some (nextCatalogVersion s.world.shop.db.catalogVersion))
    (hrow : s.world.shop.db.catalogVersion = none → ∀ o ∈ s.history, o.versions = []) :
    Settled P ⟨⟨shop, s.world.redis⟩, .synced s.world.redis :: s.history⟩ := by
  have hnew : version ⟨shop, s.world.redis⟩ = nextCatalogVersion s.world.shop.db.catalogVersion := by
    show readerVersion shop.db.catalogVersion = _
    rw [hversion]
    rfl
  -- the new version is past all that was cached and read
  have hpast : version s.world ≤ version ⟨shop, s.world.redis⟩ ∧
      KeysUnder P (Set.Iio (version ⟨shop, s.world.redis⟩)) s.world.redis ∧
      ∀ o ∈ s.history, ∀ v ∈ o.versions, v < version ⟨shop, s.world.redis⟩ := by
    rw [hnew]
    cases hdb : s.world.shop.db.catalogVersion with
    | none =>
      have hnone := hrow hdb
      refine ⟨?_, (hs.empty hnone).mono (Set.empty_subset _), fun o ho v hv => ?_⟩
      · unfold version
        rw [hdb]
        exact le_refl 1
      · rw [hnone o ho] at hv
        cases hv
    | some n =>
      have hn : version s.world = n := by
        unfold version
        rw [hdb]
        rfl
      have hlt : version s.world < nextCatalogVersion (some n) := by
        rw [hn]
        exact lt_add_one n
      refine ⟨hlt.le, hs.cached.mono fun v hv => lt_of_le_of_lt hv hlt, fun o ho v hv => ?_⟩
      exact lt_of_le_of_lt (hs.used o ho v hv) hlt
  obtain ⟨hle, hkeys, hused⟩ := hpast
  refine ⟨hkeys.mono fun v hv => Set.mem_Iic.mpr (le_of_lt hv), ?_, ?_, ?_, hused, hs.fresh⟩
  · intro hempty
    exact hs.empty fun o ho => hempty o (.tail _ ho)
  · intro cached hcached
    rcases List.mem_cons.mp hcached with he | hold
    · cases he
      exact hkeys
    · exact (hs.old cached hold).mono fun v hv => lt_of_lt_of_le hv hle
  · intro o ho v hv
    rcases List.mem_cons.mp ho with rfl | ho
    · cases hv
    · exact (hused o ho v hv).le

theorem step_settled {s s' : Session} {op : Op} (hs : Settled P s) (hrow : RowBeforeReads s op)
    (h : (sessions P).step s op = some s') : Settled P s' := by
  cases op with
  | syncCatalog =>
    simp only [sessions, Session.step] at h
    split at h
    · rename_i result shop hrun
      cases h
      rw [Reconciliation.syncCatalog_run] at hrun
      split at hrun
      · rename_i db hsync
        cases hrun
        exact hs.sync (Catalog.syncCatalog_version hsync) hrow
      · cases hrun
    · cases h
  | read read choices =>
    obtain ⟨⟨calls, w⟩, hread, he⟩ := Option.map_eq_some_iff.mp h
    cases he
    exact hs.read (read_ran hread)
  | expireQuery key =>
    cases h
    exact hs.quiet rfl fun _ hkeys => hkeys.expireQuery key
  | expireCard key =>
    cases h
    exact hs.quiet rfl fun _ hkeys => hkeys.expireCard key
  | expireLock key =>
    cases h
    exact hs.quiet rfl fun _ hkeys => ⟨hkeys.queries, hkeys.cards⟩
  | _ =>
    cases h
    exact hs.quiet rfl fun _ hkeys => hkeys

/-- As long as the sync that creates the version row comes before any read, no read is
answered from what was cached before a sync, and none shares a version with a read
before a sync. -/
theorem reads_fresh (P : Products.Platform) (shop : Shop.World) (ops : List Op) (s : Session)
    (hrow : (sessions P).Guarded RowBeforeReads (.opening shop) ops)
    (h : (sessions P).run (.opening shop) ops = some s) : FreshReads s.history :=
  (Steps.System.run_guarded (fun _ _ _ hs hC hstep => step_settled hs hC hstep)
    (opening_settled shop) hrow h).fresh

/-! ### Two sessions -/

/-- Libraries as they behave on what the sessions below ask of them. -/
def plainLibraries : Products.Platform where
  toPlatform := plainPlatform
  toLowerCase := String.toLower
  numberText
    | .finite n => String.ofList (Text.integer n.num)
    | .infinite negative => if negative then "-Infinity" else "Infinity"
    | .nan => "NaN"
  insensitiveEquals a b := a.toLower = b.toLower
  collate := compare
  invalidArgument := "Invalid value for argument"

/-- A list of all products, with as many answers as the read needs. -/
def listAll (answers : Nat) : Op :=
  .read (.listProducts ⟨none, none, none, none, none⟩) (List.replicate answers (0, .answered))

def oneListed : Shop.World := World.fresh [listed "p1" 500 3]

/-- The list is read before the first sync, and once more after it. -/
def readTooEarly : List Op := [listAll 7, .syncCatalog, listAll 2]

theorem reads_stale : ¬∀ (P : Products.Platform) (shop : Shop.World) (ops : List Op) (s : Session),
    (sessions P).run (.opening shop) ops = some s → FreshReads s.history := by
  intro h
  have hstale : ¬FreshReads ((sessions plainLibraries).after (.opening oneListed) readTooEarly).history := by
    decide +kernel
  exact hstale (h plainLibraries oneListed readTooEarly _ ((sessions plainLibraries).run_after _ _ (by decide +kernel)))

/-- The list is read after each of two syncs. -/
def readAfterSyncs : List Op := [.syncCatalog, listAll 8, .syncCatalog, listAll 8]

theorem reads_fresh_after_syncs :
    FreshReads ((sessions plainLibraries).after (.opening oneListed) readAfterSyncs).history :=
  reads_fresh plainLibraries oneListed readAfterSyncs _ (by decide +kernel)
    ((sessions plainLibraries).run_after _ _ (by decide +kernel))

end CaseCellShop.Storefront
