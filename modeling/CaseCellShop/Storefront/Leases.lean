import CaseCellShop.Library.Interleave
import CaseCellShop.Library.Protocol
import CaseCellShop.Products.Service

/-! The cache locks over time (`acquireLock` and `releaseLock` of
`libs/cache/src/cache.service.ts`).

`acquireLock` is `SET key '1' EX ttl NX`, which creates an entry that expires by itself;
`releaseLock` is `DEL key`, which removes whatever entry is there. The value of an entry
does not say who created it: here acquisitions are numbered, and the world notes which of
them each process knows to be its own. -/
namespace CaseCellShop.Storefront.Leases
open Products Program
open Shop (Reply)

/-! ### Locks -/

/-- The entry of a lock: the acquisition that created it, and when it expires. -/
structure Lease where
  number : Nat
  expiresAt : Nat
  deriving DecidableEq

structure Acquisition where
  key : String
  acquiredAt : Nat
  deriving DecidableEq

/-- A release removed an entry: the acquisition the process released, and the one that
created the entry. -/
structure Removal where
  releasing : Option Nat
  created : Nat
  deriving DecidableEq

/-- Times are in milliseconds. Processes are named when they start; `acquired` has the
acquisitions that are not released, whether or not their process was told of them. -/
structure World where
  products : Products.World
  now : Nat
  started : Nat → Bool
  leases : String → Option Lease
  acquisitions : Nat
  acquired : Nat → Option Acquisition
  holding : Nat → Option Nat
  removals : List Removal

/-- Nothing is locked. -/
def World.opening (products : Products.World) (now : Nat) : World :=
  ⟨products, now, fun _ => false, fun _ => none, 0, fun _ => none, fun _ => none, []⟩

/-- The entry under a key, unless it has expired. -/
def World.live (w : World) (key : String) : Option Lease :=
  (w.leases key).filter fun lease => w.now < lease.expiresAt

/-- The acquisition a process has to release. -/
def World.grant (w : World) (owner : Nat) : Option Acquisition := (w.holding owner).bind w.acquired

/-- A new entry. -/
def World.create (w : World) (key : String) (ttlSeconds : Nat) : World :=
  {w with
    leases := Function.update w.leases key (some ⟨w.acquisitions, w.now + 1000 * ttlSeconds⟩)
    acquisitions := w.acquisitions + 1
    acquired := Function.update w.acquired w.acquisitions (some ⟨key, w.now⟩)}

/-- The process learns that the next acquisition is its own. -/
def World.told (w : World) (owner : Nat) : World :=
  {w with holding := Function.update w.holding owner (some w.acquisitions)}

/-- `DEL key` for a process. -/
def World.delete (w : World) (owner : Nat) (key : String) : World :=
  {w with
    leases := Function.update w.leases key none
    acquired :=
      match w.holding owner with
      | some number => Function.update w.acquired number none
      | none => w.acquired
    holding := Function.update w.holding owner none
    removals :=
      match w.live key with
      | some lease => w.removals ++ [⟨w.holding owner, lease.number⟩]
      | none => w.removals}

/-- A call of a process under the reply it meets. An acquisition whose reply is lost
creates an entry that no process holds. -/
def perform (P : Products.Platform) (w : World) :
    (call : Nat × Call) → Reply → World × Except String (Answer call.2)
  | (owner, .acquireLock key ttl), .answered =>
    if (w.live key).isSome then (w, .ok false) else ((w.told owner).create key ttl, .ok true)
  | (_, .acquireLock key ttl), .lost message =>
    if (w.live key).isSome then (w, .error message) else (w.create key ttl, .error message)
  | (_, .acquireLock _ _), .failed message => (w, .error message)
  | (owner, .releaseLock key), .answered => (w.delete owner key, .ok ())
  | (owner, .releaseLock key), .lost message => (w.delete owner key, .error message)
  | (_, .releaseLock _), .failed message => (w, .error message)
  | (_, q), reply => ({w with products := (Products.perform P w.products q reply).1}, (Products.perform P w.products q reply).2)

/-! ### Processes -/

inductive Work where
  | listProducts (query : ProductQuery)
  | hydrateProducts (catalogVersion : Int) (ids : List String)

structure Task where
  owner : Nat
  work : Work

/-- Time passes, and the store and the other entries of the cache change in any way. -/
inductive Event where
  | tick (milliseconds : Nat)
  | elsewhere (products : Products.World)

def Work.program (P : Products.Platform) : Work → Api Unit
  | .listProducts query => do
    let _ ← Products.listProducts P query
  | .hydrateProducts catalogVersion ids => do
    let _ ← Products.hydrateProducts P catalogVersion ids

def onEvent (w : World) : Event → Option World
  | .tick milliseconds => some {w with now := w.now + milliseconds}
  | .elsewhere products => some {w with products := products}

/-- Every process starts under a name of its own. -/
def machine (P : Products.Platform) :
    Machine World Task Reply Event (Nat × Call) String fun call => Answer call.2 where
  perform := perform P
  start w task :=
    if w.started task.owner then none
    else some ({w with started := Function.update w.started task.owner true}, (task.work.program P).tag task.owner)
  crash w _ := w
  environment := onEvent

abbrev Config := Machine.Config World Task (Nat × Call) String fun call => Answer call.2

abbrev Action := Machine.Action Task Reply Event

/-! ### Who releases what -/

/-- Every release removed the entry of its own acquisition, or none. -/
def ReleasedByOwner (w : World) : Prop := ∀ removal ∈ w.removals, removal.releasing = some removal.created

/-- A lock that was acquired at `t` and is not released keeps everyone from acquiring its
key until `t + 5 s`. -/
def Exclusive (P : Products.Platform) (w : World) : Prop :=
  ∀ number a, w.acquired number = some a → w.now < a.acquiredAt + 5000 → ∀ owner ttl reply,
    (perform P w (owner, .acquireLock a.key ttl) reply).1 = w ∧
      (perform P w (owner, .acquireLock a.key ttl) reply).2 ≠ .ok true

/-- A release that takes effect does so within 5 s of its acquisition, or when no entry
is left under the key. -/
def ReleasesInTime (w : World) : Nat × Call → Reply → Prop
  | (_, .releaseLock _), .failed _ => True
  | (owner, .releaseLock key), _ => w.live key = none ∨ ∃ a ∈ w.grant owner, w.now < a.acquiredAt + 5000
  | _, _ => True

def inTime : Machine.Discipline World Task Reply Event (Nat × Call) where
  start _ _ := True
  call := ReleasesInTime
  environment _ _ _ := True

/-! ### What a process does with its lock -/

inductive LockState where
  | idle
  | held (key : String)
  | released

/-- One lock is acquired, for 5 s, and released once; a refused or lost acquisition may be
repeated. -/
def protocol : Protocol LockState Call String Answer where
  allows
    | s, .acquireLock _ ttl => s = .idle ∧ ttl = 5
    | s, .releaseLock key => s = .held key
    | _, _ => True
  after
    | _, .acquireLock key _, .ok true => .held key
    | _, .releaseLock _, _ => .released
    | s, _, _ => s

/-- A call that has nothing to do with locks. -/
def LockFree : Call → Prop
  | .acquireLock _ _ | .releaseLock _ => False
  | _ => True

variable {P : Products.Platform} {s : LockState}

theorem neutral_of_lockFree {q : Call} (h : LockFree q) : protocol.Neutral s q := by
  cases q <;> first | exact h.elim | exact ⟨trivial, fun _ => rfl⟩

/-- What neither acquires nor releases keeps the state. -/
theorem follows_lockFree {α : Type} {p : Api α} (h : p.OnlyCalls LockFree) :
    protocol.Follows (fun _ s' => s' = s) p s :=
  Protocol.follows_neutral (onlyCalls_mono h fun _ => neutral_of_lockFree)

theorem cacheProductCards_lockFree (catalogVersion : Int) (items : List ProductListItem) :
    ∀ q ∈ items.map (cacheProductCard catalogVersion), LockFree q := by
  intro q hq
  obtain ⟨item, _, rfl⟩ := List.mem_map.mp hq
  trivial

theorem request_lockFree {q : Call} (h : LockFree q) (a : Answer q) : (orElse (request q) a).OnlyCalls LockFree :=
  onlyCalls_orElse (onlyCalls_call h) a

theorem refillCards_lockFree (catalogVersion : Int) (missingIds : List String) (productsById : ProductsById) :
    (refillCards catalogVersion missingIds productsById).OnlyCalls LockFree := by
  apply onlyCalls_bind (onlyCalls_call trivial)
  intro fetched
  exact onlyCalls_bind (onlyCalls_callAll (cacheProductCards_lockFree catalogVersion fetched)) fun _ => trivial

theorem rereadCards_lockFree (catalogVersion : Int) (missingIds : List String) (productsById : ProductsById) :
    (rereadCards catalogVersion missingIds productsById).OnlyCalls LockFree :=
  onlyCalls_bind (request_lockFree (q := .getCards _) trivial _) fun _ => trivial

theorem populateQuery_lockFree (catalogVersion : Int) (query : NormalizedQuery) :
    (populateQuery P catalogVersion query).OnlyCalls LockFree := by
  apply onlyCalls_bind (onlyCalls_call trivial)
  intro items
  refine onlyCalls_bind (onlyCalls_callAll fun q hq => ?_) fun _ => trivial
  rcases List.mem_cons.mp hq with rfl | hq
  · trivial
  · exact cacheProductCards_lockFree catalogVersion items q hq

/-- Work under a lock, which is released afterwards whatever comes of the work. -/
theorem follows_locked {α : Type} {key : String} {p : Api α} (h : p.OnlyCalls LockFree) :
    protocol.Follows (fun _ _ => True) (ensure p (releaseLock key)) (.held key) :=
  Protocol.follows_ensure (onlyCalls_mono h fun _ => neutral_of_lockFree)
    ⟨rfl, fun r => by cases r <;> exact fun _ => trivial⟩

/-- An attempt to acquire: granted or not, its caller knows which. -/
theorem follows_acquire (key : String) :
    protocol.Follows (fun r s => r = .ok true ∧ s = .held key ∨ r = .ok false ∧ s = .idle)
      (orElse (request (.acquireLock key 5)) false) .idle := by
  refine ⟨⟨rfl, rfl⟩, fun r => ?_⟩
  rcases r with e | b
  · exact .inr ⟨rfl, rfl⟩
  · cases b
    · exact .inr ⟨rfl, rfl⟩
    · exact .inl ⟨rfl, rfl⟩

/-- What is left once a program only has to return. -/
theorem follows_return {α β : Type} {p : Api α} {f : α → β} (h : protocol.Follows (fun _ _ => True) p s) :
    protocol.Follows (fun _ _ => True) (p >>= fun a => pure (f a)) s :=
  Protocol.follows_bind (Protocol.follows_mono h fun r _ _ => by cases r <;> trivial)

theorem hydrateProducts_follows (catalogVersion : Int) (ids : List String) :
    protocol.Follows (fun _ _ => True) (Products.hydrateProducts P catalogVersion ids) .idle := by
  unfold Products.hydrateProducts
  by_cases hids : ids = []
  · rw [if_pos hids]
    trivial
  · rw [if_neg hids]
    apply Protocol.follows_bind
    refine Protocol.follows_mono (follows_lockFree (request_lockFree (q := .getCards _) trivial _)) fun r s hs => ?_
    subst hs
    cases r with
    | error e => trivial
    | ok cachedProducts =>
      dsimp only [Protocol.Continues]
      by_cases hmissing : findMissingProductIds ids (collectCachedProducts ids cachedProducts fun _ => none) = []
      · rw [if_pos hmissing]
        trivial
      · rw [if_neg hmissing]
        apply Protocol.follows_bind
        refine Protocol.follows_mono (follows_acquire _) fun r s hs => ?_
        rcases hs with ⟨rfl, rfl⟩ | ⟨rfl, rfl⟩
        · exact follows_return (follows_locked (refillCards_lockFree _ _ _))
        · apply follows_return
          exact Protocol.follows_mono (follows_lockFree (rereadCards_lockFree _ _ _)) fun _ _ _ => trivial

theorem acquireQueryLockWithRetry_follows (lockKey : String) :
    protocol.Follows (fun r s => r = .ok true ∧ s = .held lockKey ∨ r = .ok false ∧ s = .idle)
      (acquireQueryLockWithRetry lockKey) .idle := by
  apply Protocol.follows_bind
  refine Protocol.follows_mono (follows_acquire lockKey) fun r s hs => ?_
  rcases hs with ⟨rfl, rfl⟩ | ⟨rfl, rfl⟩
  · exact .inl ⟨rfl, rfl⟩
  · exact follows_acquire lockKey

theorem listProducts_follows (query : ProductQuery) :
    protocol.Follows (fun _ _ => True) (Products.listProducts P query) .idle := by
  apply Protocol.follows_bind
  have hversion : getCatalogVersion.OnlyCalls LockFree := onlyCalls_bind (onlyCalls_call trivial) fun _ => trivial
  refine Protocol.follows_mono (follows_lockFree hversion) fun r s hs => ?_
  subst hs
  cases r with
  | error e => trivial
  | ok catalogVersion =>
    apply Protocol.follows_bind
    refine Protocol.follows_mono (follows_lockFree (request_lockFree (q := .getIds _) trivial _)) fun r s hs => ?_
    subst hs
    match r with
    | .error e => trivial
    | .ok (some ids) => exact follows_return (hydrateProducts_follows catalogVersion ids)
    | .ok none =>
      apply Protocol.follows_bind
      refine Protocol.follows_mono (acquireQueryLockWithRetry_follows _) fun r s hs => ?_
      rcases hs with ⟨rfl, rfl⟩ | ⟨rfl, rfl⟩
      · exact follows_locked (populateQuery_lockFree _ _)
      · trivial

theorem program_follows (work : Work) : protocol.Follows (fun _ _ => True) (work.program P) .idle := by
  cases work with
  | listProducts query => exact follows_return (listProducts_follows query)
  | hydrateProducts catalogVersion ids => exact follows_return (hydrateProducts_follows catalogVersion ids)

end CaseCellShop.Storefront.Leases
