import CaseCellShop.Storefront.Freshness
import CaseCellShop.Storefront.Leases

/-! Which acquisition's entry a release removes.

For 5 s an acquisition has the entry of its key to itself, so a release in that time
removes its own. After that the entry has expired: the key is free, or it is another's. -/
namespace CaseCellShop.Storefront.Leases
open Products Program
open Shop (Reply)

variable {P : Products.Platform} {s : LockState}

/-! ### The locks and their acquisitions -/

/-- Every entry is that of an acquisition not yet released, and for its 5 s every such
acquisition has its entry. -/
structure Leased (w : World) : Prop where
  lease : ∀ key lease, w.leases key = some lease → ∃ a, w.acquired lease.number = some a ∧
    a.key = key ∧ lease.expiresAt = a.acquiredAt + 5000
  live : ∀ number a, w.acquired number = some a → w.now < a.acquiredAt + 5000 →
    ∃ lease, w.leases a.key = some lease ∧ lease.number = number
  numbered : ∀ number, w.acquisitions ≤ number → w.acquired number = none
  held : ∀ owner number, w.holding owner = some number → number < w.acquisitions
  holder : ∀ owner other number, w.holding owner = some number → w.holding other = some number → owner = other

theorem opening_leased (products : Products.World) (now : Nat) : Leased (.opening products now) := by
  constructor <;> simp [World.opening]

theorem live_eq_some {w : World} {key : String} {lease : Lease} :
    w.live key = some lease ↔ w.leases key = some lease ∧ w.now < lease.expiresAt := by
  simp [World.live, Option.filter_eq_some_iff]

/-- The live entry of a key tells the time of its acquisition. -/
theorem Leased.intime {w : World} (hw : Leased w) {key : String} {lease : Lease} (h : w.live key = some lease) :
    ∃ a, w.acquired lease.number = some a ∧ a.key = key ∧ w.now < a.acquiredAt + 5000 := by
  obtain ⟨hlease, hnow⟩ := live_eq_some.mp h
  obtain ⟨a, ha, hkey, hexpires⟩ := hw.lease key lease hlease
  exact ⟨a, ha, hkey, hexpires ▸ hnow⟩

/-- While it has not expired, an acquisition has the live entry of its key. -/
theorem Leased.live_of_intime {w : World} (hw : Leased w) {number : Nat} {a : Acquisition}
    (ha : w.acquired number = some a) (hnow : w.now < a.acquiredAt + 5000) :
    ∃ lease, w.live a.key = some lease ∧ lease.number = number := by
  obtain ⟨lease, hlease, rfl⟩ := hw.live number a ha hnow
  obtain ⟨a', ha', _, hexpires⟩ := hw.lease a.key lease hlease
  rw [ha] at ha'
  cases ha'
  exact ⟨lease, live_eq_some.mpr ⟨hlease, hexpires ▸ hnow⟩, rfl⟩

theorem Leased.exclusive {w : World} (hw : Leased w) : Exclusive P w := by
  intro number a ha hnow owner ttl reply
  obtain ⟨lease, hlive, _⟩ := hw.live_of_intime ha hnow
  cases reply <;> simp [perform, hlive]

/-! ### What a call does to the locks -/

variable {w : World} {owner : Nat} {key : String}

theorem Leased.number_lt (hw : Leased w) {number : Nat} {a : Acquisition} (h : w.acquired number = some a) :
    number < w.acquisitions := by
  by_contra hle
  rw [hw.numbered number (not_lt.mp hle)] at h
  cases h

theorem Leased.create (hw : Leased w) (hfree : w.live key = none) : Leased (w.create key 5) where
  lease key' lease h := by
    dsimp only [World.create] at h ⊢
    by_cases hkey : key' = key
    · rw [hkey, Function.update_self] at h
      cases h
      exact ⟨⟨key, w.now⟩, Function.update_self .., hkey.symm, rfl⟩
    · rw [Function.update_of_ne hkey] at h
      obtain ⟨a, ha, hrest⟩ := hw.lease key' lease h
      have hlt := hw.number_lt ha
      exact ⟨a, by rwa [Function.update_of_ne (by omega)], hrest⟩
  live number a h hnow := by
    dsimp only [World.create] at h hnow ⊢
    by_cases hnumber : number = w.acquisitions
    · rw [hnumber, Function.update_self] at h
      cases h
      exact ⟨_, Function.update_self .., hnumber.symm⟩
    · rw [Function.update_of_ne hnumber] at h
      have hkey : a.key ≠ key := by
        rintro rfl
        obtain ⟨lease, hlive, _⟩ := hw.live_of_intime h hnow
        rw [hfree] at hlive
        cases hlive
      rw [Function.update_of_ne hkey]
      exact hw.live number a h hnow
  numbered number h := by
    dsimp only [World.create] at h ⊢
    rw [Function.update_of_ne (by omega)]
    exact hw.numbered number (by omega)
  held other number h := Nat.lt_succ_of_lt (hw.held other number h)
  holder := hw.holder

/-- The last acquisition is held by a process that knows of it. -/
theorem Leased.told (hw : Leased w) (hfree : w.live key = none) : Leased ((w.told owner).create key 5) := by
  obtain ⟨hlease, hlive, hnumbered, _, _⟩ := hw.create hfree
  refine ⟨hlease, hlive, hnumbered, fun other number h => ?_, fun other other' number h h' => ?_⟩
  · dsimp only [World.told, World.create] at h ⊢
    by_cases he : other = owner
    · rw [he, Function.update_self] at h
      cases h
      omega
    · rw [Function.update_of_ne he] at h
      exact Nat.lt_succ_of_lt (hw.held other number h)
  · dsimp only [World.told, World.create] at h h'
    have hnew : ∀ o, o ≠ owner → Function.update w.holding owner (some w.acquisitions) o ≠ some w.acquisitions := by
      intro o ho he
      rw [Function.update_of_ne ho] at he
      exact lt_irrefl _ (hw.held o _ he)
    by_cases he : other = owner <;> by_cases he' : other' = owner
    · rw [he, he']
    · rw [he, Function.update_self] at h
      cases h
      exact absurd h' (hnew other' he')
    · rw [he', Function.update_self] at h'
      cases h'
      exact absurd h (hnew other he)
    · rw [Function.update_of_ne he] at h
      rw [Function.update_of_ne he'] at h'
      exact hw.holder other other' number h h'

theorem grant_eq_some {a : Acquisition} :
    w.grant owner = some a ↔ ∃ number, w.holding owner = some number ∧ w.acquired number = some a :=
  Option.bind_eq_some_iff

/-- The process holds the lock of the key, as far as it knows. -/
def Holder (w : World) (owner : Nat) (key : String) : Prop := ∃ a, w.grant owner = some a ∧ a.key = key

/-- In time, a release meets the entry of its own acquisition or none. -/
theorem Leased.own (hw : Leased w) (hheld : Holder w owner key) {lease : Lease} (hlive : w.live key = some lease) :
    ReleasesInTime w (owner, .releaseLock key) .answered ↔ w.holding owner = some lease.number := by
  obtain ⟨a, ha, rfl⟩ := hheld
  obtain ⟨number, hholding, hacquired⟩ := grant_eq_some.mp ha
  have hintime : ReleasesInTime w (owner, .releaseLock a.key) .answered ↔ w.now < a.acquiredAt + 5000 := by
    simp [ReleasesInTime, hlive, ha]
  rw [hintime]
  constructor
  · intro hnow
    obtain ⟨lease', hlive', rfl⟩ := hw.live_of_intime hacquired hnow
    rw [hlive] at hlive'
    cases hlive'
    exact hholding
  · intro hnumber
    obtain ⟨a', ha', _, hnow⟩ := hw.intime hlive
    rw [hholding] at hnumber
    cases hnumber
    rw [hacquired] at ha'
    cases ha'
    exact hnow

theorem Leased.delete (hw : Leased w) (hheld : Holder w owner key)
    (hintime : ReleasesInTime w (owner, .releaseLock key) .answered) : Leased (w.delete owner key) := by
  obtain ⟨a, ha, hkey⟩ := id hheld
  obtain ⟨number, hholding, hacquired⟩ := grant_eq_some.mp ha
  have hdelete : (w.delete owner key).acquired = Function.update w.acquired number none := by
    simp [World.delete, hholding]
  have hother : ∀ {n b}, (w.delete owner key).acquired n = some b → n ≠ number ∧ w.acquired n = some b := by
    intro n b h
    rw [hdelete] at h
    by_cases hn : n = number
    · simp [hn] at h
    · exact ⟨hn, by rwa [Function.update_of_ne hn] at h⟩
  constructor
  · intro key' lease h
    dsimp only [World.delete] at h
    by_cases he : key' = key
    · simp [he] at h
    · rw [Function.update_of_ne he] at h
      obtain ⟨b, hb, rfl, hexpires⟩ := hw.lease key' lease h
      refine ⟨b, ?_, rfl, hexpires⟩
      rw [hdelete, Function.update_of_ne]
      · exact hb
      · rintro rfl
        rw [hacquired] at hb
        cases hb
        exact he hkey
  · intro n b h hnow
    obtain ⟨hn, hb⟩ := hother h
    have he : b.key ≠ key := by
      rintro rfl
      obtain ⟨lease, hlive, rfl⟩ := hw.live_of_intime hb hnow
      rw [hw.own hheld hlive, hholding] at hintime
      exact hn (Option.some.inj hintime).symm
    obtain ⟨lease, hlease, hnumber⟩ := hw.live n b hb hnow
    exact ⟨lease, (Function.update_of_ne he _ _).trans hlease, hnumber⟩
  · intro n hn
    rw [hdelete]
    by_cases he : n = number
    · rw [he, Function.update_self]
    · rw [Function.update_of_ne he]
      exact hw.numbered n hn
  · intro other n h
    exact hw.held other n (update_none h)
  · intro other other' n h h'
    exact hw.holder other other' n (update_none h) (update_none h')

/-- The reply of an acquisition, and what it did. -/
inductive Acquires (w : World) (owner : Nat) (key : String) (ttl : Nat) : World → Except String Bool → Prop
  | refused {answer : Except String Bool} (h : answer ≠ .ok true) : Acquires w owner key ttl w answer
  | granted (free : w.live key = none) : Acquires w owner key ttl ((w.told owner).create key ttl) (.ok true)
  | lost (message : String) (free : w.live key = none) :
      Acquires w owner key ttl (w.create key ttl) (.error message)

variable {w' : World} {q : Call} {reply : Reply}

theorem perform_acquireLock {ttl : Nat} {answer : Except String Bool}
    (h : perform P w (owner, .acquireLock key ttl) reply = (w', answer)) : Acquires w owner key ttl w' answer := by
  cases reply with
  | failed message =>
    cases h
    exact .refused nofun
  | answered =>
    cases hlive : w.live key with
    | none =>
      simp only [perform, hlive, Option.isSome_none, Bool.false_eq_true, if_false] at h
      cases h
      exact .granted hlive
    | some lease =>
      simp only [perform, hlive, Option.isSome_some, if_true] at h
      cases h
      exact .refused nofun
  | lost message =>
    cases hlive : w.live key with
    | none =>
      simp only [perform, hlive, Option.isSome_none, Bool.false_eq_true, if_false] at h
      cases h
      exact .lost message hlive
    | some lease =>
      simp only [perform, hlive, Option.isSome_some, if_true] at h
      cases h
      exact .refused nofun

/-- A release takes effect or not. -/
theorem perform_releaseLock {answer : Except String Unit}
    (h : perform P w (owner, .releaseLock key) reply = (w', answer)) :
    w' = w ∧ ReleasesInTime w (owner, .releaseLock key) reply ∨
      w' = w.delete owner key ∧
        (ReleasesInTime w (owner, .releaseLock key) reply ↔ ReleasesInTime w (owner, .releaseLock key) .answered) := by
  cases reply <;> cases h
  · exact .inr ⟨rfl, Iff.rfl⟩
  · exact .inl ⟨rfl, trivial⟩
  · exact .inr ⟨rfl, Iff.rfl⟩

theorem perform_lockFree (hfree : LockFree q) {answer : Except String (Answer q)}
    (h : perform P w (owner, q) reply = (w', answer)) : ∃ products, w' = {w with products := products} := by
  cases q <;> first | exact hfree.elim | (cases h; exact ⟨_, rfl⟩)

theorem lockCases (q : Call) :
    (∃ key ttl, q = .acquireLock key ttl) ∨ (∃ key, q = .releaseLock key) ∨ LockFree q := by
  cases q <;> simp [LockFree]

/-- A process holds what its protocol says. -/
def Holds (w : World) (owner : Nat) : LockState → Prop
  | .held key => Holder w owner key
  | _ => True

theorem told_holder (w : World) (owner : Nat) (key : String) (ttl : Nat) :
    Holder ((w.told owner).create key ttl) owner key :=
  ⟨⟨key, w.now⟩, grant_eq_some.mpr ⟨w.acquisitions, Function.update_self .., Function.update_self ..⟩, rfl⟩

/-- A call the protocol allows, in time, keeps the locks and leaves its process with what
its protocol says. -/
theorem perform_leased (hw : Leased w) (hallow : protocol.allows s q) (hheld : Holds w owner s)
    (hintime : ReleasesInTime w (owner, q) reply) {answer : Except String (Answer q)}
    (h : perform P w (owner, q) reply = (w', answer)) : Leased w' ∧ Holds w' owner (protocol.after s q answer) := by
  rcases lockCases q with ⟨key, ttl, rfl⟩ | ⟨key, rfl⟩ | hfree
  · obtain ⟨rfl, rfl⟩ : s = .idle ∧ ttl = 5 := hallow
    cases perform_acquireLock h with
    | refused hanswer =>
      refine ⟨hw, ?_⟩
      match answer, hanswer with
      | .error _, _ => trivial
      | .ok false, _ => trivial
    | granted hlive => exact ⟨hw.told hlive, told_holder w owner key 5⟩
    | lost message hlive => exact ⟨hw.create hlive, trivial⟩
  · obtain rfl : s = .held key := hallow
    rcases perform_releaseLock h with ⟨rfl, _⟩ | ⟨rfl, hsame⟩
    · exact ⟨hw, trivial⟩
    · exact ⟨hw.delete hheld (hsame.mp hintime), trivial⟩
  · obtain ⟨products, rfl⟩ := perform_lockFree hfree h
    rw [(neutral_of_lockFree (s := s) hfree).2]
    refine ⟨⟨hw.lease, hw.live, hw.numbered, hw.held, hw.holder⟩, ?_⟩
    cases s <;> exact hheld

/-- What another process holds stays as it is. -/
theorem perform_grant {other : Nat} (hw : Leased w) (hne : other ≠ owner) {answer : Except String (Answer q)}
    (h : perform P w (owner, q) reply = (w', answer)) : w'.grant other = w.grant other := by
  have hcreate : ∀ (o : Option Nat) (a : Acquisition), (∀ n, o = some n → n < w.acquisitions) →
      o.bind (Function.update w.acquired w.acquisitions (some a)) = o.bind w.acquired := by
    intro o a ho
    cases o with
    | none => rfl
    | some n =>
      have hlt := ho n rfl
      exact Function.update_of_ne (by omega) _ _
  rcases lockCases q with ⟨key, ttl, rfl⟩ | ⟨key, rfl⟩ | hfree
  · cases perform_acquireLock h with
    | refused _ => rfl
    | granted _ =>
      simp only [World.grant, World.told, World.create, Function.update_of_ne hne]
      exact hcreate _ _ (hw.held other)
    | lost _ _ => exact hcreate _ _ (hw.held other)
  · rcases perform_releaseLock h with ⟨rfl, _⟩ | ⟨rfl, _⟩
    · rfl
    · simp only [World.grant, World.delete, Function.update_of_ne hne]
      cases hheld : w.holding owner with
      | none => rfl
      | some number =>
        cases hother : w.holding other with
        | none => rfl
        | some number' =>
          refine Function.update_of_ne ?_ _ _
          rintro rfl
          exact hne (hw.holder other owner number' hother hheld)
  · obtain ⟨products, rfl⟩ := perform_lockFree hfree h
    rfl

theorem perform_started {answer : Except String (Answer q)} (h : perform P w (owner, q) reply = (w', answer)) :
    w'.started = w.started := by
  rcases lockCases q with ⟨key, ttl, rfl⟩ | ⟨key, rfl⟩ | hfree
  · cases perform_acquireLock h <;> rfl
  · rcases perform_releaseLock h with ⟨rfl, _⟩ | ⟨rfl, _⟩ <;> rfl
  · obtain ⟨products, rfl⟩ := perform_lockFree hfree h
    rfl

/-- Only a release that is not in time removes the entry of another acquisition. -/
theorem perform_releasedByOwner (hw : Leased w) (hallow : protocol.allows s q) (hheld : Holds w owner s)
    {answer : Except String (Answer q)} (h : perform P w (owner, q) reply = (w', answer)) :
    ReleasedByOwner w' ↔ ReleasedByOwner w ∧ ReleasesInTime w (owner, q) reply := by
  rcases lockCases q with ⟨key, ttl, rfl⟩ | ⟨key, rfl⟩ | hfree
  · cases perform_acquireLock h <;> exact (and_iff_left trivial).symm
  · obtain rfl : s = .held key := hallow
    rcases perform_releaseLock h with ⟨rfl, hintime⟩ | ⟨rfl, hsame⟩
    · exact (and_iff_left hintime).symm
    · rw [hsame]
      cases hlive : w.live key with
      | none => simp [ReleasedByOwner, World.delete, ReleasesInTime, hlive]
      | some lease =>
        rw [hw.own hheld hlive]
        simp [ReleasedByOwner, World.delete, hlive, or_imp, forall_and]
  · obtain ⟨products, rfl⟩ := perform_lockFree hfree h
    have htrue : ReleasesInTime w (owner, q) reply := by cases q <;> first | exact hfree.elim | trivial
    exact (and_iff_left htrue).symm

/-! ### Runs -/

/-- What a process does under its name follows the protocol, from a state that says what
it holds. -/
def Follower (w : World) (owner : Nat) (program : Program (Nat × Call) (fun call => Answer call.2) String Unit) :
    Prop :=
  ∃ (p : Api Unit) (s : LockState), program = p.tag owner ∧ protocol.Follows (fun _ _ => True) p s ∧ Holds w owner s

theorem Follower.frame {program : Program (Nat × Call) (fun call => Answer call.2) String Unit}
    (h : Follower w owner program) (hgrant : w'.grant owner = w.grant owner) : Follower w' owner program := by
  obtain ⟨p, s, hprogram, hfollows, hheld⟩ := h
  refine ⟨p, s, hprogram, hfollows, ?_⟩
  cases s with
  | held key =>
    obtain ⟨a, ha, hkey⟩ := hheld
    exact ⟨a, hgrant.trans ha, hkey⟩
  | idle => trivial
  | released => trivial

/-- The invariant of a run. -/
structure Kept (c : Config) : Prop where
  leased : Leased c.world
  followers : ∀ n process, c.running n = some process → Follower c.world process.task.owner process.program
  started : ∀ n process, c.running n = some process → c.world.started process.task.owner
  apart : ∀ n m process other, c.running n = some process → c.running m = some other →
    process.task.owner = other.task.owner → n = m

variable {c c' : Config} {n i : Nat} {process : Machine.Process Task (Nat × Call) String fun call => Answer call.2}
  {program : Program (Nat × Call) (fun call => Answer call.2) String Unit}

theorem idle_kept (products : Products.World) (now : Nat) : Kept (.idle (.opening products now)) where
  leased := opening_leased products now
  followers _ _ h := by cases h
  started _ _ h := by cases h
  apart _ _ _ _ h := by cases h

/-- One process moves on. -/
theorem Kept.update (hc : Kept c) (hrun : c.running n = some process) (hw : Leased w)
    (hstarted : w.started = c.world.started)
    (hothers : ∀ other, other ≠ process.task.owner → w.grant other = c.world.grant other)
    (hprogram : Follower w process.task.owner program) :
    Kept ⟨w, Function.update c.running n (Machine.alive process.task program)⟩ := by
  -- a process of the new table has the task of the one in its place before
  have hold : ∀ m other, Function.update c.running n (Machine.alive process.task program) m = some other →
      ∃ before, c.running m = some before ∧ before.task = other.task ∧
        Follower w other.task.owner other.program := by
    intro m other hm
    rcases Machine.running_update hm with ⟨rfl, ho⟩ | ⟨hne, hold⟩
    · rw [Machine.alive_eq_some ho]
      exact ⟨process, hrun, rfl, hprogram⟩
    · refine ⟨other, hold, rfl, (hc.followers m other hold).frame (hothers _ fun he => ?_)⟩
      exact hne (hc.apart m n other process hold hrun he)
  refine ⟨hw, fun m other hm => ?_, fun m other hm => ?_, fun m m' other other' hm hm' he => ?_⟩
  · exact (hold m other hm).choose_spec.2.2
  · obtain ⟨before, hbefore, htask, _⟩ := hold m other hm
    rw [hstarted, ← htask]
    exact hc.started m before hbefore
  · obtain ⟨before, hbefore, htask, _⟩ := hold m other hm
    obtain ⟨before', hbefore', htask', _⟩ := hold m' other' hm'
    rw [← htask, ← htask'] at he
    exact hc.apart m m' before before' hbefore hbefore' he

/-- An answer to a process is that of a call its protocol allows, or there was no call
left to answer. -/
theorem Kept.called (hc : Kept c) (hrun : c.running n = some process)
    (h : process.program.resume (perform P) c.world i reply = some (w, program)) :
    (inTime.allows c (.call n i reply) ∧ w = c.world ∧ Follower w process.task.owner program) ∨
      ∃ q s answer, (inTime.allows c (.call n i reply) ↔ ReleasesInTime c.world (process.task.owner, q) reply) ∧
        perform P c.world (process.task.owner, q) reply = (w, answer) ∧ protocol.allows s q ∧
        Holds c.world process.task.owner s ∧
        (Holds w process.task.owner (protocol.after s q answer) → Follower w process.task.owner program) := by
  obtain ⟨p, s, hprogram, hfollows, hheld⟩ := hc.followers n process hrun
  rw [hprogram, resume_tag, Option.map_eq_some_iff] at h
  obtain ⟨⟨w₁, p'⟩, hresume, he⟩ := h
  cases he
  rcases Protocol.follows_resume hfollows hresume with ⟨hnone, hw, hnext⟩ | ⟨q, hq, hallow, hw, hnext⟩
  · refine .inl ⟨?_, hw, p', s, rfl, hnext, by rw [hw]; exact hheld⟩
    simp [Machine.Discipline.allows, hrun, hprogram, hnone]
  · refine .inr ⟨q, s, _, ?_, Prod.ext hw.symm rfl, hallow, hheld, fun h => ⟨p', _, rfl, hnext, h⟩⟩
    simp [Machine.Discipline.allows, hrun, hprogram, hq, inTime]

theorem onEvent_kept (hc : Kept c) {event : Event} (h : onEvent c.world event = some w) : Kept ⟨w, c.running⟩ := by
  cases event with
  | tick milliseconds =>
    cases h
    refine ⟨{hc.leased with live := fun number a ha hnow => hc.leased.live number a ha ?_},
      fun m other hm => (hc.followers m other hm).frame rfl, hc.started, hc.apart⟩
    dsimp only at hnow
    omega
  | elsewhere products =>
    cases h
    exact ⟨⟨hc.leased.lease, hc.leased.live, hc.leased.numbered, hc.leased.held, hc.leased.holder⟩,
      fun m other hm => (hc.followers m other hm).frame rfl, hc.started, hc.apart⟩

theorem Kept.start (hc : Kept c) {task : Task}
    (h : (machine P).start c.world task = some (w, program)) :
    Kept ⟨w, Function.update c.running n (Machine.alive task program)⟩ := by
  simp only [machine] at h
  split at h
  · cases h
  · rename_i hnew
    cases h
    have hold : ∀ m other, c.running m = some other → other.task.owner ≠ task.owner := by
      intro m other hm he
      exact hnew (he ▸ hc.started m other hm)
    refine ⟨⟨hc.leased.lease, hc.leased.live, hc.leased.numbered, hc.leased.held, hc.leased.holder⟩,
      fun m other hm => ?_, fun m other hm => ?_, fun m m' other other' hm hm' he => ?_⟩
    · rcases Machine.running_update hm with ⟨_, ho⟩ | ⟨_, hm⟩
      · rw [Machine.alive_eq_some ho]
        exact ⟨_, .idle, rfl, program_follows task.work, trivial⟩
      · exact (hc.followers m other hm).frame rfl
    · rcases Machine.running_update hm with ⟨_, ho⟩ | ⟨_, hm⟩
      · rw [Machine.alive_eq_some ho]
        exact Function.update_self ..
      · exact (Function.update_of_ne (hold m other hm) _ _).trans (hc.started m other hm)
    · rcases Machine.running_update hm with ⟨hmn, ho⟩ | ⟨_, hm⟩ <;>
        rcases Machine.running_update hm' with ⟨hmn', ho'⟩ | ⟨_, hm'⟩
      · rw [hmn, hmn']
      · rw [Machine.alive_eq_some ho] at he
        exact absurd he.symm (hold m' other' hm')
      · rw [Machine.alive_eq_some ho'] at he
        exact absurd he (hold m other hm)
      · exact hc.apart m m' other other' hm hm' he

theorem Kept.crash (hc : Kept c) (n : Nat) : Kept ⟨c.world, Function.update c.running n none⟩ where
  leased := hc.leased
  followers m other h := hc.followers m other (update_none h)
  started m other h := hc.started m other (update_none h)
  apart m m' other other' h h' := hc.apart m m' other other' (update_none h) (update_none h')

/-- A step in which every release is in time keeps the invariant. -/
theorem step_kept {action : Action} (hc : Kept c) (hD : inTime.allows c action)
    (h : (machine P).system.step c action = some c') : Kept c' := by
  cases (machine P).step_cases h with
  | started _ hstart => exact hc.start hstart
  | called hrun hresume =>
    rcases hc.called hrun hresume with ⟨_, rfl, hnext⟩ | ⟨q, s, answer, hallows, hperform, hallow, hheld, hnext⟩
    · exact hc.update hrun hc.leased rfl (fun _ _ => rfl) hnext
    · obtain ⟨hw, hheld'⟩ := perform_leased hc.leased hallow hheld (hallows.mp hD) hperform
      exact hc.update hrun hw (perform_started hperform)
        (fun other hne => perform_grant hc.leased hne hperform) (hnext hheld')
  | crashed _ => exact hc.crash _
  | moved henv => exact onEvent_kept hc henv

/-- A step breaks ownership exactly if it is a release that is not in time. -/
theorem step_releasedByOwner {action : Action} (hc : Kept c) (h : (machine P).system.step c action = some c') :
    ReleasedByOwner c'.world ↔ ReleasedByOwner c.world ∧ inTime.allows c action := by
  cases (machine P).step_cases h with
  | @started n task w program _ hstart =>
    simp only [machine] at hstart
    split at hstart
    · cases hstart
    · cases hstart
      exact (and_iff_left trivial).symm
  | called hrun hresume =>
    rcases hc.called hrun hresume with ⟨hallows, rfl, _⟩ | ⟨q, s, answer, hallows, hperform, hallow, hheld, _⟩
    · exact (and_iff_left hallows).symm
    · rw [hallows]
      exact perform_releasedByOwner hc.leased hallow hheld hperform
  | crashed _ => exact (and_iff_left trivial).symm
  | @moved event w henv => cases event <;> cases henv <;> exact (and_iff_left trivial).symm

/-- What another acquisition's entry was removed for stays on record. -/
theorem stolen_kept (P : Products.Platform) : (machine P).Kept .any fun w => ¬ReleasedByOwner w where
  start w task w' program hw _ h := by
    simp only [machine] at h
    split at h
    · cases h
    · cases h
      exact hw
  call w call reply hw _ := by
    obtain ⟨owner, q⟩ := call
    intro howned
    refine hw fun removal hremoval => howned removal ?_
    rcases hperform : perform P w (owner, q) reply with ⟨w', answer⟩
    have hfst : ((machine P).perform w (owner, q) reply).1 = w' := congrArg Prod.fst hperform
    rw [hfst]
    rcases lockCases q with ⟨key, ttl, rfl⟩ | ⟨key, rfl⟩ | hfree
    · cases perform_acquireLock hperform <;> exact hremoval
    · rcases perform_releaseLock hperform with ⟨rfl, _⟩ | ⟨rfl, _⟩
      · exact hremoval
      · dsimp only [World.delete]
        split
        · exact List.mem_append_left _ hremoval
        · exact hremoval
    · obtain ⟨products, rfl⟩ := perform_lockFree hfree hperform
      exact hremoval
  crash w task hw := hw
  environment _ w event w' hw _ h := by cases event <;> cases h <;> exact hw

theorem run_releasedByOwner {actions : List Action} (hc : Kept c) (h : (machine P).system.run c actions = some c') :
    ReleasedByOwner c'.world ↔ ReleasedByOwner c.world ∧ (machine P).system.Guarded inTime.allows c actions := by
  induction actions generalizing c with
  | nil =>
    cases h
    exact (and_iff_left trivial).symm
  | cons action rest ih =>
    rw [Steps.System.run_cons, Option.bind_eq_some_iff] at h
    obtain ⟨t, hstep, hrest⟩ := h
    have howned := step_releasedByOwner hc hstep
    rw [Steps.System.guarded_cons_of_step hstep]
    by_cases hD : inTime.allows c action
    · rw [ih (step_kept hc hD hstep) hrest, howned]
      tauto
    · -- the entry removed here stays on record
      have hstolen : ¬ReleasedByOwner t.world := fun ht => hD (howned.mp ht).2
      have hend := (stolen_kept P).run_any hstolen hrest
      tauto

/-- In every run no release removes the entry of another acquisition exactly if each comes
within 5 s of its own acquisition or finds no entry, and then a lock that is not released
keeps everyone out for its 5 s. -/
theorem locks_released_by_owner (P : Products.Platform) (products : Products.World) (now : Nat)
    (actions : List Action) (c : Config)
    (h : (machine P).system.run (.idle (.opening products now)) actions = some c) :
    (ReleasedByOwner c.world ↔
        (machine P).system.Guarded inTime.allows (.idle (.opening products now)) actions) ∧
      ((machine P).system.Guarded inTime.allows (.idle (.opening products now)) actions → Exclusive P c.world) := by
  have hkept := idle_kept products now
  refine ⟨?_, fun hguarded => ?_⟩
  · rw [run_releasedByOwner hkept h]
    exact and_iff_right fun removal hremoval => by cases hremoval
  · have hend : Kept c := Steps.System.run_guarded (fun _ _ _ hc hD hs => step_kept hc hD hs) hkept hguarded h
    exact hend.leased.exclusive

/-! ### Two runs -/

/-- Process `n` gets `count` answers. -/
def answered (n count : Nat) : List Action := List.replicate count (.call n 0 .answered)

/-- Process `n` asks for the first page of everything. -/
def asks (n : Nat) : Action := .start n ⟨n, .listProducts ⟨none, none, none, none, none⟩⟩

/-- A process is slow: its lock expires after 5 s, another takes it after 6 s, and a
second later the first releases it. -/
def releasedLate : List Action :=
  asks 0 :: (answered 0 3 ++ .environment (.tick 6000) :: asks 1 :: (answered 1 3 ++ .environment (.tick 1000) :: answered 0 4))

/-- The first releases it before anyone takes it again. -/
def releasedAlone : List Action :=
  asks 0 :: (answered 0 3 ++ .environment (.tick 6000) :: asks 1 :: (answered 1 2 ++ answered 0 4 ++ answered 1 1))

/-- An empty store with nothing cached. -/
def emptyStore : World := .opening (.opening (Shop.World.fresh [])) 0

/-- The lock of that page. -/
def pageLock : String :=
  queryLockKey (buildProductsQueryCacheKey plainLibraries 1 (normalizeQuery plainLibraries ⟨none, none, none, none, none⟩))

theorem locks_removed_by_others : ∃ actions c,
    (machine plainLibraries).system.run (.idle emptyStore) actions = some c ∧
      ¬ReleasedByOwner c.world ∧ ¬Exclusive plainLibraries c.world := by
  have hrun := (machine plainLibraries).system.run_after (.idle emptyStore) releasedLate (by decide +kernel)
  refine ⟨releasedLate, _, hrun, fun howned => ?_, fun hexclusive => ?_⟩
  · have hremovals : ((machine plainLibraries).system.after (.idle emptyStore) releasedLate).world.removals = [⟨some 0, 1⟩] := by
      decide +kernel
    have hown := howned ⟨some 0, 1⟩ (by simp [hremovals])
    cases hown
  · have hacquired : ((machine plainLibraries).system.after (.idle emptyStore) releasedLate).world.acquired 1 =
        some ⟨pageLock, 6000⟩ := by decide +kernel
    have hnow : ((machine plainLibraries).system.after (.idle emptyStore) releasedLate).world.now = 7000 := by
      decide +kernel
    have hlive : ((machine plainLibraries).system.after (.idle emptyStore) releasedLate).world.live pageLock = none := by
      decide +kernel
    have hanswer := (hexclusive 1 _ hacquired (by rw [hnow]; decide) 2 5 .answered).2
    simp [perform, hlive] at hanswer

instance (w : World) : (call : Nat × Call) → (reply : Reply) → Decidable (ReleasesInTime w call reply)
  | (_, q), reply => by
    cases q <;> cases reply <;> dsimp only [ReleasesInTime] <;> infer_instance

instance (c : Config) (action : Action) : Decidable (inTime.allows c action) :=
  have : ∀ w task, Decidable (inTime.start w task) := fun _ _ => .isTrue trivial
  have : ∀ w call reply, Decidable (inTime.call w call reply) := fun w call reply =>
    inferInstanceAs (Decidable (ReleasesInTime w call reply))
  have : ∀ pending w event, Decidable (inTime.environment pending w event) := fun _ _ _ => .isTrue trivial
  inferInstance

theorem locks_released_alone :
    ReleasedByOwner ((machine plainLibraries).system.after (.idle emptyStore) releasedAlone).world ∧
      Exclusive plainLibraries ((machine plainLibraries).system.after (.idle emptyStore) releasedAlone).world := by
  have hrun := (machine plainLibraries).system.run_after (.idle emptyStore) releasedAlone (by decide +kernel)
  obtain ⟨howned, hexclusive⟩ := locks_released_by_owner plainLibraries _ 0 releasedAlone _ hrun
  have hguard : (machine plainLibraries).system.Guarded inTime.allows (.idle emptyStore) releasedAlone := by
    decide +kernel
  exact ⟨howned.mpr hguard, hexclusive hguard⟩

end CaseCellShop.Storefront.Leases
