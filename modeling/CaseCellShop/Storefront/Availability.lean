import CaseCellShop.Storefront.Freshness
import CaseCellShop.Storefront.System
import Mathlib.Tactic.FinCases

/-! Cached availability under concurrent checkouts.

A checkout deletes the cards of what it bought after its commit, and a reader writes the
card of what it fetched before. A card that is outdated when it is written is harmless
as long as a checkout has still to delete it. -/
namespace CaseCellShop.Storefront
open Products Program Shop

/-- Every card under the current version says what the inventory row says. -/
def CardsFollow (w : Products.World) : Prop :=
  ∀ id card, w.redis.cards (productCardKey (version w) id) = some card → card.id = id ∧ Carries w.shop.db card

/-- What is left of a program deletes the entry, if the version row is `row`. -/
def Owes (row : Option Int) (key : String) : Api Unit → Prop
  | .done _ => False
  | .await .findCatalogVersion next => Owes row key (next (.ok row))
  | .await _ _ => False
  | .all qs next => .deleteCard key ∈ qs ∨ Owes row key next

/-- Some process has still to delete the card of a product. -/
def Owed (c : Config) (id : String) : Prop :=
  ∃ n process, c.running n = some process ∧
    Owes c.world.shop.db.catalogVersion (productCardKey (version c.world) id) process.program

/-- No call fails and no process crashes. -/
def Calm : Action → Prop
  | .call _ _ reply => reply = .answered
  | .crash _ => False
  | _ => True

/-- A card that is written is right, or a checkout has still to delete it. -/
def CardsInTime (c : Config) : Action → Prop
  | .call n i _ => ∀ process key card ttl, c.running n = some process →
      process.program.awaited i = some (.setCard key card ttl) → Carries c.world.shop.db card ∨ Owed c card.id
  | _ => True

/-! ### The programs -/

variable {P : Products.Platform}

/-- A call of a reader, or of a checkout after its commit. -/
def CardCall : Products.Call → Prop
  | .setCard key card _ => ∃ v, key = productCardKey v card.id
  | .checkoutTransaction _ => False
  | _ => True

theorem readCall_cardCall {v : Int} {q : Products.Call} (hq : ReadCall P v q) : CardCall q := by
  cases q with
  | setCard key card ttl => exact ⟨v, hq⟩
  | checkoutTransaction input => exact hq
  | _ => trivial

theorem versionFirst_calls {α : Type} {p : Api α} (hp : VersionFirst P p) : (unread p).OnlyCalls CardCall := by
  obtain ⟨rest, rfl, hrest⟩ := hp
  refine onlyCalls_bind ?_ fun _ => trivial
  apply onlyCalls_bind
  · exact onlyCalls_bind (onlyCalls_call trivial) fun _ => trivial
  · exact fun v => onlyCalls_mono (hrest v) fun _ hq => readCall_cardCall hq

theorem invalidate_calls (ids : List String) : (invalidateAvailability ids).OnlyCalls CardCall := by
  apply onlyCalls_bind
  · exact onlyCalls_bind (onlyCalls_call trivial) fun _ => trivial
  · intro v
    apply onlyCalls_callAll
    intro q hq
    obtain ⟨id, _, rfl⟩ := List.mem_map.mp hq
    trivial

/-- What a checkout does after its commit. -/
def settle {α : Type} (ids : List String) (result : α) : Api Unit := unread do
  invalidateAvailability ids
  return result

theorem settle_calls {α : Type} (ids : List String) (result : α) : (settle ids result).OnlyCalls CardCall :=
  onlyCalls_bind (onlyCalls_bind (invalidate_calls ids) fun _ => trivial) fun _ => trivial

theorem settle_owes {α : Type} {ids : List String} (result : α) (row : Option Int) {id : String} (hid : id ∈ ids) :
    Owes row (productCardKey (readerVersion row) id) (settle ids result) :=
  .inl (List.mem_map_of_mem hid)

/-- A process is a checkout before its commit, or makes card calls only. -/
def Underway (P : Products.Platform) (program : Api Unit) : Prop :=
  program.OnlyCalls CardCall ∨ ∃ input, program = unread (checkout P input)

theorem program_underway (task : Task) : Underway P (task.program P) := by
  cases task with
  | listProducts query => exact .inl (versionFirst_calls (P := P) (listProducts_versionFirst query))
  | getProductById id => exact .inl (versionFirst_calls (P := P) (getProductById_versionFirst id))
  | checkout input => exact .inr ⟨input, rfl⟩

/-! ### One call -/

theorem cardCall_shop {q : Products.Call} (hq : CardCall q) (w : Products.World) :
    (Products.execute P w q).1.shop = w.shop := by
  cases q with
  | checkoutTransaction input => exact hq.elim
  | _ => rfl

/-- An entry after a card call was there before, or is the one written. -/
theorem cardCall_cards {q : Products.Call} (hq : CardCall q) {w : Products.World} {key : String}
    {card : ProductListItem} (h : (Products.execute P w q).1.redis.cards key = some card) :
    w.redis.cards key = some card ∨ ∃ ttl, q = .setCard key card ttl := by
  cases q with
  | setCard key' card' ttl =>
    have hupdate : Function.update w.redis.cards key' (some card') key = some card := h
    by_cases he : key = key'
    · subst he
      rw [Function.update_self] at hupdate
      cases hupdate
      exact .inr ⟨ttl, rfl⟩
    · rw [Function.update_of_ne he] at hupdate
      exact .inl hupdate
  | deleteCard key' =>
    have hupdate : Function.update w.redis.cards key' none key = some card := h
    by_cases he : key = key'
    · rw [he, Function.update_self] at hupdate
      cases hupdate
    · rw [Function.update_of_ne he] at hupdate
      exact .inl hupdate
  | checkoutTransaction input => exact hq.elim
  | _ => exact .inl h

/-- A program that owes the deletion of an entry owes it after a call, or the entry is
gone. -/
theorem owes_resume {w w' : Products.World} {i : Nat} {p p' : Api Unit} {key : String}
    (howes : Owes w.shop.db.catalogVersion key p)
    (h : p.resume (Products.perform P) w i .answered = some (w', p')) :
    Owes w.shop.db.catalogVersion key p' ∨ w'.redis.cards key = none := by
  cases p with
  | done result => exact howes.elim
  | await q next =>
    obtain ⟨rfl, rfl⟩ := resume_await h
    cases q with
    | findCatalogVersion => exact .inl howes
    | _ => exact howes.elim
  | all qs next =>
    rcases resume_all h with ⟨rfl, rfl, rfl⟩ | ⟨q, hq, rfl, rfl⟩
    · rcases howes with hmem | hnext
      · cases hmem
      · exact .inl hnext
    · rcases howes with hmem | hnext
      · by_cases he : q = .deleteCard key
        · subst he
          exact .inr (Function.update_self ..)
        · refine .inl (.inl ?_)
          rw [List.mem_eraseIdx_iff_getElem?]
          obtain ⟨j, hj⟩ := List.getElem?_of_mem hmem
          refine ⟨j, fun hij => he ?_, hj⟩
          rw [hij, hq] at hj
          exact Option.some.inj hj
      · exact .inl (.inr hnext)

/-! ### The invariant -/

/-- What every state of a calm run keeps. -/
structure Covered (P : Products.Platform) (c : Config) : Prop where
  programs : ∀ n process, c.running n = some process → Underway P process.program
  cards : ∀ id card, c.world.redis.cards (productCardKey (version c.world) id) = some card →
    card.id = id ∧ (Carries c.world.shop.db card ∨ Owed c id)

theorem idle_covered {w : Products.World} (h : CardsFollow w) : Covered P (.idle w) where
  programs _ _ hn := by cases hn
  cards id card hcard := ⟨(h id card hcard).1, .inl (h id card hcard).2⟩

theorem update_underway {c : Config} (hc : Covered P c) {n : Nat} {task : Task} {program : Api Unit}
    (hprogram : Underway P program) :
    ∀ m process, Function.update c.running n (Machine.alive task program) m = some process →
      Underway P process.program := by
  intro m process hm
  rcases Machine.running_update hm with ⟨_, ho⟩ | ⟨_, hold⟩
  · rw [Machine.alive_eq_some ho]
    exact hprogram
  · exact hc.programs m process hold

theorem checkout_await (input : Checkout.CheckoutInput) :
    unread (checkout P input) = .await (.checkoutTransaction input) fun
      | .ok result => settle (boughtProducts P input.body) result
      | .error message => .done (.error message) := by
  apply await_congr
  intro r
  cases r <;> rfl

/-- A transaction that throws ends the checkout, and one that returns leaves it with
what it bought to invalidate. -/
theorem checkout_resume {input : Checkout.CheckoutInput} {w w' : Products.World} {i : Nat} {program : Api Unit}
    (h : (unread (checkout P input)).resume (Products.perform P) w i .answered = some (w', program)) :
    (w' = w ∧ ∃ message, program = .done (.error message)) ∨
      ∃ (result : Checkout.CheckoutResult) (db : Database), w' = ⟨{w.shop with db := db}, w.redis⟩ ∧
        BoughtOnly (boughtProducts P input.body) w.shop.db db ∧
        program = settle (boughtProducts P input.body) result := by
  rw [checkout_await] at h
  obtain ⟨rfl, rfl⟩ := resume_await h
  have hperform : Products.perform P w (.checkoutTransaction input) .answered = runTransaction P w input := rfl
  rw [hperform]
  rcases runTransaction_cases (P := P) w input with ⟨message, htransaction⟩ | ⟨result, db, htransaction, hbought⟩
  · rw [htransaction]
    exact .inl ⟨rfl, message, rfl⟩
  · rw [htransaction]
    exact .inr ⟨result, db, rfl, hbought, rfl⟩

/-- A process that still owes something is in the table. -/
theorem owes_alive {row : Option Int} {key : String} {task : Task} {program : Api Unit}
    (h : Owes row key program) : Machine.alive task program = some ⟨task, program⟩ := by
  cases program with
  | done result => exact h.elim
  | await q next => rfl
  | all qs next => rfl

/-- What another process owes, it owes after a step of process `n` that leaves the
version row. -/
theorem owed_update {c : Config} {w : Products.World} {n : Nat}
    {o : Option (Machine.Process Task Products.Call String Answer)}
    (hrow : w.shop.db.catalogVersion = c.world.shop.db.catalogVersion) {id : String} {m : Nat} (hm : m ≠ n)
    {process : Machine.Process Task Products.Call String Answer} (hrun : c.running m = some process)
    (howes : Owes c.world.shop.db.catalogVersion (productCardKey (version c.world) id) process.program) :
    Owed ⟨w, Function.update c.running n o⟩ id := by
  refine ⟨m, process, (Function.update_of_ne hm _ _).trans hrun, ?_⟩
  have hversion : version w = version c.world := by
    unfold version
    rw [hrow]
  rw [hversion, hrow]
  exact howes

theorem Covered.start {c : Config} (hc : Covered P c) {n : Nat} (hidle : c.running n = none) (task : Task) :
    Covered P ⟨c.world, Function.update c.running n (Machine.alive task (task.program P))⟩ := by
  refine ⟨update_underway hc (program_underway task), fun id card hcard => ?_⟩
  obtain ⟨hid, hright⟩ := hc.cards id card hcard
  refine ⟨hid, hright.imp_right ?_⟩
  rintro ⟨m, process, hrun, howes⟩
  refine owed_update rfl (fun hm => ?_) hrun howes
  rw [hm, hidle] at hrun
  cases hrun

/-- A process makes a card call. -/
theorem Covered.cardCall {c : Config} (hc : Covered P c) {n i : Nat}
    {process : Machine.Process Task Products.Call String Answer}
    (hrun : c.running n = some process) (hcalls : process.program.OnlyCalls CardCall) {w : Products.World}
    {program : Api Unit}
    (hresume : process.program.resume (Products.perform P) c.world i .answered = some (w, program))
    (hintime : ∀ key card ttl, process.program.awaited i = some (.setCard key card ttl) →
      Carries c.world.shop.db card ∨ Owed c card.id) :
    Covered P ⟨w, Function.update c.running n (Machine.alive process.task program)⟩ := by
  have hshop : w.shop = c.world.shop := by
    rcases resume_performs hresume with rfl | ⟨q, hq, rfl⟩
    · rfl
    · exact cardCall_shop (hcalls.awaited hq) c.world
  have hversion : version w = version c.world := by
    unfold version
    rw [hshop]
  refine ⟨update_underway hc (.inl (hcalls.resume hresume)), fun id card hcard => ?_⟩
  dsimp only at hcard ⊢
  rw [hversion] at hcard
  rw [hshop]
  -- what was owed is owed still, or there is no entry left
  have howed : Owed c id → Owed ⟨w, Function.update c.running n (Machine.alive process.task program)⟩ id := by
    rintro ⟨m, other, hother, howes⟩
    by_cases hm : m = n
    · subst hm
      rw [hrun] at hother
      cases hother
      rcases owes_resume howes hresume with howes' | hgone
      · refine ⟨m, ⟨process.task, program⟩, (Function.update_self ..).trans (owes_alive howes'), ?_⟩
        rw [hversion, hshop]
        exact howes'
      · rw [hgone] at hcard
        cases hcard
    · exact owed_update (by rw [hshop]) hm hother howes
  have hold : c.world.redis.cards (productCardKey (version c.world) id) = some card ∨
      ∃ key ttl, process.program.awaited i = some (.setCard key card ttl) ∧
        key = productCardKey (version c.world) id := by
    rcases resume_performs hresume with rfl | ⟨q, hq, rfl⟩
    · exact .inl hcard
    · rcases cardCall_cards (hcalls.awaited hq) hcard with hcard | ⟨ttl, rfl⟩
      · exact .inl hcard
      · exact .inr ⟨_, ttl, hq, rfl⟩
  rcases hold with hcard | ⟨key, ttl, hset, rfl⟩
  · obtain ⟨hid, hright⟩ := hc.cards id card hcard
    exact ⟨hid, hright.imp_right howed⟩
  · obtain ⟨v, hkey⟩ : ∃ v, productCardKey (version c.world) id = productCardKey v card.id := hcalls.awaited hset
    have hid := (productCardKey_inj hkey).2
    refine ⟨hid.symm, (hintime _ card ttl hset).imp_right fun h => howed ?_⟩
    rw [hid]
    exact h

/-- A checkout commits, or ends without effect. -/
theorem Covered.commit {c : Config} (hc : Covered P c) {n i : Nat} {task : Task} {input : Checkout.CheckoutInput}
    (hrun : c.running n = some ⟨task, unread (checkout P input)⟩) {w : Products.World} {program : Api Unit}
    (hresume : (unread (checkout P input)).resume (Products.perform P) c.world i .answered = some (w, program)) :
    Covered P ⟨w, Function.update c.running n (Machine.alive task program)⟩ := by
  have hother : ∀ {m id process}, c.running m = some process →
      Owes c.world.shop.db.catalogVersion (productCardKey (version c.world) id) process.program → m ≠ n := by
    intro m id process hm howes he
    rw [he, hrun, checkout_await] at hm
    cases hm
    exact howes
  rcases checkout_resume hresume with ⟨hworld, message, hdone⟩ | ⟨result, db, hworld, hbought, hsettle⟩
  · rw [hworld, hdone]
    refine ⟨update_underway hc (.inl trivial), fun id card hcard => ?_⟩
    obtain ⟨hid, hright⟩ := hc.cards id card hcard
    refine ⟨hid, hright.imp_right ?_⟩
    rintro ⟨m, process, hm, howes⟩
    exact owed_update rfl (hother hm howes) hm howes
  · -- the cards of what was bought are owed from now on
    have hversion : version w = version c.world := by
      unfold version
      rw [hworld]
      exact congrArg readerVersion hbought.catalogVersion
    refine ⟨update_underway hc (.inl (hsettle ▸ settle_calls _ result)), fun id card hcard => ?_⟩
    dsimp only at hcard ⊢
    rw [hversion, hworld] at hcard
    obtain ⟨hid, hright⟩ := hc.cards id card hcard
    refine ⟨hid, ?_⟩
    by_cases hmem : id ∈ boughtProducts P input.body
    · have howes := settle_owes result w.shop.db.catalogVersion hmem
      rw [← hsettle] at howes
      exact .inr ⟨n, ⟨task, program⟩, (Function.update_self ..).trans (owes_alive howes), howes⟩
    · rcases hright with hcarries | ⟨m, process, hm, howes⟩
      · rw [hworld]
        exact .inl (hcarries.of_row (by rw [hid]; exact hbought.rows id hmem))
      · refine .inr (owed_update ?_ (hother hm howes) hm howes)
        rw [hworld]
        exact hbought.catalogVersion

/-! ### Runs -/

theorem expire_covered {c : Config} (hc : Covered P c) {redis : Redis}
    (h : ∀ key card, redis.cards key = some card → c.world.redis.cards key = some card) :
    Covered P ⟨⟨c.world.shop, redis⟩, c.running⟩ :=
  ⟨hc.programs, fun id card hcard => hc.cards id card (h _ card hcard)⟩

theorem step_covered {c c' : Config} {action : Action} (hc : Covered P c) (hcalm : Calm action)
    (hintime : CardsInTime c action) (h : (machine P).system.step c action = some c') : Covered P c' := by
  cases (machine P).step_cases h with
  | started hidle hstart =>
    cases hstart
    exact hc.start hidle _
  | called hrun hresume =>
    rename_i n i reply process w program
    cases hcalm
    rcases hc.programs n process hrun with hcalls | ⟨input, hprogram⟩
    · exact hc.cardCall hrun hcalls hresume fun key card ttl => hintime process key card ttl hrun
    · obtain ⟨task, program⟩ := process
      cases hprogram
      exact hc.commit hrun hresume
  | crashed hrun => exact hcalm.elim
  | @moved event w henv =>
    cases event with
    | expireQuery key =>
      cases henv
      exact expire_covered hc fun _ _ h => h
    | expireCard key =>
      cases henv
      exact expire_covered hc fun _ _ h => update_none h
    | expireLock key =>
      cases henv
      exact expire_covered hc fun _ _ h => h

/-- In a calm run in which every outdated card that is written has still to be deleted,
the cards are right whenever nothing is in progress. -/
theorem cards_follow_checkouts (P : Products.Platform) (w : Products.World) (hw : CardsFollow w)
    (actions : List Action) (c : Config)
    (hguard : (machine P).system.Guarded (fun c a => Calm a ∧ CardsInTime c a) (.idle w) actions)
    (h : (machine P).system.run (.idle w) actions = some c) (hidle : ∀ n, c.running n = none) :
    CardsFollow c.world := by
  have hcovered : Covered P c := Steps.System.run_guarded
    (fun _ _ _ hc hC hstep => step_covered hc hC.1 hC.2 hstep) (idle_covered hw) hguard h
  intro id card hcard
  obtain ⟨hid, hright⟩ := hcovered.cards id card hcard
  refine ⟨hid, hright.resolve_right ?_⟩
  rintro ⟨n, process, hrun, _⟩
  rw [hidle n] at hrun
  cases hrun

/-! ### Two runs -/

/-- A store after its first sync. -/
def syncedShop : Shop.World := (Reconciliation.syncCatalog.run (Shop.execute plainPlatform) oneListed).2

/-- Two units of `p1`. -/
def buyTwo : Checkout.CheckoutInput := orderRequest "c1" "k" "o1" [⟨"p1", 2⟩]

/-- Process `n` gets `count` answers. -/
def answered (n count : Nat) : List Action := List.replicate count (.call n 0 .answered)

/-- A reader fetches `p1`, a checkout of it runs from beginning to end, and then the
reader writes its card. -/
def writtenTooLate : List Action :=
  .start 0 (.getProductById "p1") :: (answered 0 3 ++ .start 1 (.checkout buyTwo) :: (answered 1 4 ++ answered 0 1))

theorem idle_of_slots {w : Products.World} {actions : List Action} {c : Config} (k : Nat)
    (h : (machine P).system.run (.idle w) actions = some c)
    (hstarts : actions.all (Machine.Action.startsBelow k)) (hbelow : ∀ n, n < k → (c.running n).isNone) :
    ∀ n, c.running n = none := by
  intro n
  by_cases hn : n < k
  · exact Option.isNone_iff_eq_none.mp (hbelow n hn)
  · exact (machine P).slots_free k (fun _ _ => rfl) hstarts h n (not_lt.mp hn)

/-- The store and the cache after a run from the synced store. -/
def served (actions : List Action) : Config :=
  (machine plainLibraries).system.after (.idle (.opening syncedShop)) actions

/-- The card of `p1` with its first quantity. -/
def firstCard : ProductListItem := ⟨"p1", "p1", "p1", some "", some "", 500, "BRL", 3, true⟩

theorem opening_follows (shop : Shop.World) : CardsFollow (.opening shop) := fun _ _ hcard => by cases hcard

theorem cards_outdated : ¬∀ (P : Products.Platform) (w : Products.World) (_ : CardsFollow w)
    (actions : List Action) (c : Config), (∀ a ∈ actions, Calm a) →
      (machine P).system.run (.idle w) actions = some c → (∀ n, c.running n = none) → CardsFollow c.world := by
  intro h
  have hrun := (machine plainLibraries).system.run_after
    (.idle (.opening syncedShop)) writtenTooLate (by decide +kernel)
  have hcalm : ∀ a ∈ writtenTooLate, Calm a := by
    intro a ha
    fin_cases ha <;> first | rfl | trivial
  have hfollow := h plainLibraries _ (opening_follows syncedShop) writtenTooLate _ hcalm hrun
    (idle_of_slots 2 hrun (by decide +kernel) (by decide +kernel))
  have hcard : (served writtenTooLate).world.redis.cards
      (productCardKey (version (served writtenTooLate).world) "p1") = some firstCard := by decide +kernel
  have hqty : availableQty (served writtenTooLate).world.shop.db "p1" = 1 := by decide +kernel
  have hright : (3 : Int) = availableQty (served writtenTooLate).world.shop.db "p1" :=
    (hfollow "p1" firstCard hcard).2.quantity
  rw [hqty] at hright
  cases hright

/-- The reader writes the card before the checkout commits. -/
def writtenInTime : List Action :=
  .start 0 (.getProductById "p1") :: (answered 0 3 ++ .start 1 (.checkout buyTwo) :: (answered 0 1 ++ answered 1 4))

/-- A calm action that writes no outdated card. -/
def writesRight (c : Config) : Action → Bool
  | .call n i reply =>
    reply = .answered &&
      match c.running n with
      | none => true
      | some process =>
        match process.program.awaited i with
        | some (.setCard _ card _) => Carries c.world.shop.db card
        | _ => true
  | .crash _ => false
  | _ => true

theorem writesRight_sound (c : Config) (action : Action) (h : writesRight c action = true) :
    Calm action ∧ CardsInTime c action := by
  cases action with
  | start n task => exact ⟨trivial, trivial⟩
  | environment event => exact ⟨trivial, trivial⟩
  | crash n => cases h
  | call n i reply =>
    obtain ⟨hreply, hcard⟩ := Bool.and_eq_true_iff.mp h
    have hanswered : reply = .answered := of_decide_eq_true hreply
    refine ⟨hanswered, fun process key card ttl hrun hset => .inl ?_⟩
    rw [hrun] at hcard
    dsimp only at hcard
    rw [hset] at hcard
    exact of_decide_eq_true hcard

theorem cards_follow_written_in_time : CardsFollow (served writtenInTime).world := by
  have hrun := (machine plainLibraries).system.run_after
    (.idle (.opening syncedShop)) writtenInTime (by decide +kernel)
  have hguard : (machine plainLibraries).system.Guarded (fun c a => writesRight c a = true)
      (.idle (.opening syncedShop)) writtenInTime := by decide +kernel
  exact cards_follow_checkouts plainLibraries _ (opening_follows syncedShop) writtenInTime _
    (Steps.System.guarded_mono writesRight_sound hguard) hrun
    (idle_of_slots 2 hrun (by decide +kernel) (by decide +kernel))

end CaseCellShop.Storefront
