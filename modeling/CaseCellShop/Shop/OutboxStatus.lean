import CaseCellShop.Shop.Delivery

/-! What the status of an outbox event says.

A `PUBLISHED` event was handed to the broker and a `FAILED` one never was, as long as no
`FAILED` update hits an event that was handed over and no publish takes effect on an
event that has failed. The `catch` of the publisher ensures neither: it also runs when
the publish took effect and the update after it failed, or when another cycle has
published the event meanwhile. -/
namespace CaseCellShop.Shop
open Outbox Program Queue

structure Truthful (w : World) : Prop where
  published : ∀ e ∈ w.db.outboxEvents.rows, e.status = .published → messageOf e ∈ w.broker.published
  failed : ∀ e ∈ w.db.outboxEvents.rows, e.status = .failed → ∀ d ∈ w.broker.published, d.messageId ≠ some e.id

/-- No event is lost, none changes its message, none that is `PUBLISHED` its status, and
what was handed to the broker was. -/
structure OutboxKept (w w' : World) : Prop where
  events : ∀ id e, w.db.outboxEvents.find? id = some e → ∃ e', w'.db.outboxEvents.find? id = some e' ∧
    messageOf e' = messageOf e ∧ (e.status = .published → e'.status = .published)
  handed : ∀ d ∈ w.broker.published, d ∈ w'.broker.published

/-- A publish takes effect only on an event that is not `FAILED`, and a `FAILED` update
only on one that was never handed to the broker. -/
def failuresTrue : Discipline where
  start _ _ := True
  call w q reply :=
    match q with
    | .publish d => reply.takesEffect → ∀ e ∈ w.db.outboxEvents.rows, d.messageId = some e.id → e.status ≠ .failed
    | .markEventFailed id _ => reply.takesEffect → ∀ d ∈ w.broker.published, d.messageId ≠ some id
    | _ => True
  environment _ _ _ := True

/-- The event is in the outbox with the message it was read with. -/
def Known (w : World) (e : OutboxEvent) : Prop :=
  ∃ row, w.db.outboxEvents.find? e.id = some row ∧ messageOf row = messageOf e

variable {P : Checkout.Platform} {w w' : World}

theorem OutboxKept.refl (w : World) : OutboxKept w w := ⟨fun _ e he => ⟨e, he, rfl, id⟩, fun _ hd => hd⟩

theorem OutboxKept.trans {u v w : World} (h : OutboxKept u v) (k : OutboxKept v w) : OutboxKept u w := by
  refine ⟨fun id e he => ?_, fun d hd => k.handed d (h.handed d hd)⟩
  obtain ⟨e', he', hmessage, hstatus⟩ := h.events id e he
  obtain ⟨e'', he'', hmessage', hstatus'⟩ := k.events id e' he'
  exact ⟨e'', he'', hmessage'.trans hmessage, fun hs => hstatus' (hstatus hs)⟩

theorem OutboxKept.known (h : OutboxKept w w') {e : OutboxEvent} (he : Known w e) : Known w' e := by
  obtain ⟨row, hrow, hmessage⟩ := he
  obtain ⟨row', hrow', hmessage', _⟩ := h.events e.id row hrow
  exact ⟨row', hrow', hmessage'.trans hmessage⟩

/-- Neither the outbox nor what was handed to the broker has changed. -/
structure SameOutbox (w w' : World) : Prop where
  events : w'.db.outboxEvents = w.db.outboxEvents
  handed : w'.broker.published = w.broker.published

theorem SameOutbox.truthful (h : SameOutbox w w') (hw : Truthful w) : Truthful w' := by
  constructor
  · rw [h.events, h.handed]
    exact hw.published
  · rw [h.events, h.handed]
    exact hw.failed

theorem SameOutbox.kept (h : SameOutbox w w') : OutboxKept w w' := by
  constructor
  · rw [h.events]
    exact (OutboxKept.refl w).events
  · rw [h.handed]
    exact fun _ hd => hd

/-! ### The publisher's calls -/

/-- The calls that concern the outbox. -/
def OutboxWrite : Call → Prop
  | .publish _ | .markPublished _ | .markEventFailed _ _ => True
  | _ => False

theorem Executed.sameOutbox {q : Call} (h : Executed w q w') (hq : ¬OutboxWrite q) : SameOutbox w w' := by
  cases h with
  | synced hs => exact ⟨by rw [hs.others], rfl⟩
  | published d => exact absurd trivial hq
  | marked id => exact absurd trivial hq
  | eventFailed id lastError => exact absurd trivial hq
  | _ => exact ⟨rfl, rfl⟩

theorem perform_sameOutbox {q : Call} (hq : ¬OutboxWrite q) (w : World) (a : Reply) :
    SameOutbox w (perform P w q a).1 :=
  (perform_executed w q a).sameOutbox hq

theorem perform_publish (w : World) (d : Delivery) (a : Reply) (hw : Truthful w)
    (hD : failuresTrue.call w (.publish d) a) :
    Truthful (perform P w (.publish d) a).1 ∧ OutboxKept w (perform P w (.publish d) a).1 := by
  rcases perform_cases (P := P) w (.publish d) a with hnone | ⟨heffect, hdone⟩
  · rw [hnone]
    exact ⟨hw, .refl w⟩
  · rw [hdone]
    have hmore : ∀ d' ∈ w.broker.published, d' ∈ w.broker.published ++ [d] := fun _ h => List.mem_append_left _ h
    refine ⟨⟨fun e he hs => hmore _ (hw.published e he hs), fun e he hs d' hd' => ?_⟩,
      (OutboxKept.refl w).events, hmore⟩
    rcases List.mem_append.mp hd' with hd' | hd'
    · exact hw.failed e he hs d' hd'
    · rw [List.mem_singleton.mp hd']
      exact fun hid => hD heffect e he hid hs

/-- An update of one event that keeps its message. -/
theorem updated_kept {id : String} {f : OutboxEvent → OutboxEvent} (hf : ∀ e, (f e).id = e.id)
    (hmessage : ∀ e, messageOf (f e) = messageOf e)
    (hstatus : ∀ e ∈ w.db.outboxEvents.rows, e.id = id → e.status = .published → (f e).status = .published) :
    OutboxKept w {w with db := {w.db with outboxEvents := w.db.outboxEvents.update id f hf}} := by
  refine ⟨fun id' e he => ⟨if id' = id then f e else e, ?_, ?_, ?_⟩, fun _ hd => hd⟩
  · show (w.db.outboxEvents.update id f hf).find? id' = _
    rw [Table.find?_update, he]
    rfl
  · split
    · exact hmessage e
    · rfl
  · intro hs
    split
    · rename_i hid
      exact hstatus e (Table.mem_of_find? he) ((Table.key_of_find? he).trans hid) hs
    · exact hs

/-- An update of one event that leaves the statuses true. -/
theorem updated_truthful {id : String} {f : OutboxEvent → OutboxEvent} (hf : ∀ e, (f e).id = e.id) (hw : Truthful w)
    (hpublished : ∀ e ∈ w.db.outboxEvents.rows, e.id = id → (f e).status = .published →
      messageOf (f e) ∈ w.broker.published)
    (hfailed : ∀ e, (f e).status = .failed → ∀ d ∈ w.broker.published, d.messageId ≠ some id) :
    Truthful {w with db := {w.db with outboxEvents := w.db.outboxEvents.update id f hf}} := by
  constructor <;> intro e' he' hs <;> obtain ⟨e, he, rfl⟩ := List.mem_map.mp he' <;> by_cases hid : e.id = id
  · rw [if_pos hid] at hs ⊢
    exact hpublished e he hid hs
  · rw [if_neg hid] at hs ⊢
    exact hw.published e he hs
  · rw [if_pos hid] at hs ⊢
    rw [hf, hid]
    exact hfailed e hs
  · rw [if_neg hid] at hs ⊢
    exact hw.failed e he hs

theorem perform_markPublished (w : World) (e : OutboxEvent) (a : Reply) (hw : Truthful w) (he : Known w e)
    (hhanded : messageOf e ∈ w.broker.published) :
    Truthful (perform P w (.markPublished e.id) a).1 ∧ OutboxKept w (perform P w (.markPublished e.id) a).1 := by
  obtain ⟨row, hrow, hmessage⟩ := he
  have hexecuted := perform_executed (P := P) w (.markPublished e.id) a
  generalize (perform P w (.markPublished e.id) a).1 = w' at hexecuted
  cases hexecuted with
  | nothing => exact ⟨hw, .refl w⟩
  | marked =>
    refine ⟨updated_truthful _ hw (fun r hr hid _ => ?_) (fun _ => nofun),
      updated_kept _ (fun _ => rfl) fun _ _ _ _ => rfl⟩
    have hsame : r = row := w.db.outboxEvents.eq_of_key hr (Table.mem_of_find? hrow)
      (hid.trans (Table.key_of_find? hrow).symm)
    show messageOf r ∈ _
    rw [hsame, hmessage]
    exact hhanded

theorem perform_markEventFailed (w : World) (id lastError : String) (a : Reply) (hw : Truthful w)
    (hD : failuresTrue.call w (.markEventFailed id lastError) a) :
    Truthful (perform P w (.markEventFailed id lastError) a).1 ∧
      OutboxKept w (perform P w (.markEventFailed id lastError) a).1 := by
  rcases perform_cases (P := P) w (.markEventFailed id lastError) a with hnone | ⟨heffect, hdone⟩
  · rw [hnone]
    exact ⟨hw, .refl w⟩
  · rw [hdone]
    have hnever := hD heffect
    have hexecuted := execute_executed (P := P) w (.markEventFailed id lastError)
    generalize (execute P w (.markEventFailed id lastError)).1 = w' at hexecuted
    cases hexecuted with
    | nothing => exact ⟨hw, .refl w⟩
    | eventFailed =>
      refine ⟨updated_truthful _ hw (fun _ _ _ => nofun) fun _ _ => hnever, updated_kept _ (fun _ => rfl) ?_⟩
      -- a published event was handed over, so it is not the one that fails
      exact fun e he hid hs => absurd (congrArg some hid) (hnever _ (hw.published e he hs))

/-! ### The programs -/

/-- What a program owes: the statuses stay true, and the outbox is kept. -/
abbrev SoundOutbox {α : Type} (P : Checkout.Platform) (post : World → Prop) (p : Worker α) (w : World) : Prop :=
  Machine.Sound (machine P) failuresTrue Truthful (fun _ => OutboxKept) OutboxKept (fun _ => post) p w

theorem sound_sameOutbox {α : Type} {p : Worker α} (hp : p.OnlyCalls fun q => ¬OutboxWrite q) (w : World) :
    SoundOutbox P (fun _ => True) p w :=
  Machine.sound_of_onlyCalls (fun _ w a hq hI _ =>
    ⟨(perform_sameOutbox hq w a).truthful hI, (perform_sameOutbox hq w a).kept⟩) hp w

/-- `publishEvent` as the calls it goes through. -/
theorem publishEvent_eq (e : OutboxEvent) :
    publishEvent e = await (.publish (messageOf e)) fun
      | .error error => request (.markEventFailed e.id error)
      | .ok _ => await (.markPublished e.id) fun
        | .error error => request (.markEventFailed e.id error)
        | .ok _ => pure () := by
  refine await_congr fun r => ?_
  cases r with
  | error error => rfl
  | ok u => exact await_congr fun r => by cases r <;> rfl

/-- The events of a cycle, each as it was read. -/
def AllKnown (events : List OutboxEvent) (w : World) : Prop := ∀ e ∈ events, Known w e

theorem AllKnown.kept {events : List OutboxEvent} (h : AllKnown events w) (hkept : OutboxKept w w') :
    AllKnown events w' :=
  fun e he => hkept.known (h e he)

theorem markEventFailed_sound {events : List OutboxEvent} (id error : String) (hw : AllKnown events w) :
    SoundOutbox P (AllKnown events) (request (.markEventFailed id error)) w := by
  intro w₁ a hI hrely hD
  obtain ⟨hI', hkept⟩ := perform_markEventFailed (P := P) w₁ id error a hI hD
  exact ⟨hI', hkept, (hw.kept hrely).kept hkept⟩

theorem publishEvent_sound {events : List OutboxEvent} {e : OutboxEvent} (he : e ∈ events) (w : World)
    (hw : AllKnown events w) : SoundOutbox P (AllKnown events) (publishEvent e) w := by
  rw [publishEvent_eq]
  intro w₁ a hI hrely hD
  obtain ⟨hI', hkept⟩ := perform_publish (P := P) w₁ (messageOf e) a hI hD
  refine ⟨hI', hkept, ?_⟩
  have hknown := (hw.kept hrely).kept hkept
  cases a with
  | failed error => exact markEventFailed_sound e.id error hknown
  | lost error => exact markEventFailed_sound e.id error hknown
  | answered =>
    have hhanded : messageOf e ∈ (perform P w₁ (.publish (messageOf e)) .answered).1.broker.published :=
      List.mem_append_right _ (.head _)
    intro w₂ b hI₂ hrely₂ _
    obtain ⟨hI₃, hkept₃⟩ := perform_markPublished (P := P) w₂ e b hI₂ (hrely₂.known (hknown e he))
      (hrely₂.handed _ hhanded)
    refine ⟨hI₃, hkept₃, ?_⟩
    have hknown₃ := (hknown.kept hrely₂).kept hkept₃
    cases ((machine P).perform w₂ (.markPublished e.id) b).2 with
    | error error => exact markEventFailed_sound e.id error hknown₃
    | ok u => exact hknown₃

theorem publishPending_sound (w : World) : SoundOutbox P (fun _ => True) publishPending w := by
  intro w₁ a hI _ _
  have hsame := perform_sameOutbox (P := P) (q := .ensureTopology) id w₁ a
  refine ⟨hsame.truthful hI, hsame.kept, ?_⟩
  cases ((machine P).perform w₁ .ensureTopology a).2 with
  | error e => trivial
  | ok u =>
    intro w₂ b hI₂ _ _
    have hsame₂ := perform_sameOutbox (P := P) (q := .findPendingEvents) id w₂ b
    refine ⟨hsame₂.truthful hI₂, hsame₂.kept, ?_⟩
    cases b with
    | failed e => trivial
    | lost e => trivial
    | answered =>
      have hread : AllKnown (pendingEvents w₂.db) w₂ := by
        intro e he
        exact ⟨e, Table.find?_key (List.mem_of_mem_filter (List.mem_of_mem_take he)), rfl⟩
      refine Machine.sound_mono (Machine.sound_each_keeping (fun e he w hw => publishEvent_sound he w hw) hread) ?_
      exact fun _ _ _ => trivial

theorem syncCatalog_sameOutbox : Reconciliation.syncCatalog.OnlyCalls fun q => ¬OutboxWrite q :=
  onlyCalls_mono Reconciliation.syncCatalog_calls fun q hq => by cases q <;> first | exact id | exact hq.elim

theorem reconcileOrders_sameOutbox : Reconciliation.reconcileOrders.OnlyCalls fun q => ¬OutboxWrite q :=
  onlyCalls_mono Reconciliation.reconcileOrders_calls fun q hq => by cases q <;> first | exact id | exact hq.elim

theorem consume_sameOutbox (d : Delivery) : (Billing.consume d).OnlyCalls fun q => ¬OutboxWrite q :=
  onlyCalls_mono (Billing.consume_calls d) fun q hq => by cases q <;> first | exact id | exact hq.elim

/-! ### Runs -/

theorem onStart_outbox {task : Task} {program : Worker Unit} (h : onStart w task = some (w', program)) :
    SameOutbox w w' ∧ SoundOutbox P (fun _ => True) program w' := by
  refine ⟨⟨by rw [onStart_db h], onStart_published h⟩, ?_⟩
  cases task with
  | syncCatalog =>
    cases h
    exact sound_ignored (sound_sameOutbox syncCatalog_sameOutbox w)
  | reconcileOrders =>
    cases h
    exact sound_ignored (sound_sameOutbox reconcileOrders_sameOutbox w)
  | publishPending =>
    cases h
    exact publishPending_sound w
  | consume i d =>
    obtain ⟨_, rfl, rfl⟩ := onStart_consume h
    exact sound_sameOutbox (consume_sameOutbox d) _

theorem onCrash_outbox (w : World) (task : Task) : SameOutbox w (onCrash w task) :=
  ⟨by rw [onCrash_db], onCrash_published w task⟩

/-- A checkout adds a `PENDING` event. -/
theorem accepted_outbox {call : Checkout.CheckoutCall} {attempt : Checkout.Attempt} {db : Database}
    {result : Checkout.CheckoutResult} {items : List Checkout.PricedItem}
    (h : Checkout.Accepted call attempt w.db w.db db result items) (hw : Truthful w) :
    Truthful {w with db := db} ∧ OutboxKept w {w with db := db} := by
  have hrows := (Table.insert?_eq_some h.event).2
  have hold : ∀ e ∈ db.outboxEvents.rows, e.status ≠ .pending → e ∈ w.db.outboxEvents.rows := by
    intro e he hs
    rw [hrows] at he
    rcases List.mem_append.mp he with he | he
    · exact he
    · rw [List.mem_singleton.mp he] at hs
      exact absurd rfl hs
  refine ⟨⟨fun e he hs => ?_, fun e he hs => ?_⟩, fun id e he => ⟨e, Table.find?_insert h.event he, rfl,
    fun hs => hs⟩,
    fun _ hd => hd⟩
  · exact hw.published e (hold e he (by rw [hs]; nofun)) hs
  · exact hw.failed e (hold e he (by rw [hs]; nofun)) hs

theorem onEvent_outbox {event : Event} (h : onEvent P w event = some w') (hw : Truthful w) :
    Truthful w' ∧ OutboxKept w w' := by
  have hsame (hdb : w'.db = w.db) : Truthful w' ∧ OutboxKept w w' :=
    have hsame : SameOutbox w w' := ⟨by rw [hdb], (onEvent_broker h "").2.2⟩
    ⟨hsame.truthful hw, hsame.kept⟩
  cases event with
  | checkout input =>
    rcases Checkout.checkout_db P input w.db with hdb | ⟨_, _, _, _, _, _, hacc⟩
    · cases h
      exact hsame hdb
    · cases h
      exact accepted_outbox hacc hw
  | expireRetry i =>
    obtain ⟨broker, _, rfl⟩ := Option.map_eq_some_iff.mp h
    exact hsame rfl
  | duplicate i =>
    obtain ⟨broker, _, rfl⟩ := Option.map_eq_some_iff.mp h
    exact hsame rfl
  | _ =>
    cases h
    exact hsame rfl

theorem relyGuarantee_outbox :
    (machine P).RelyGuarantee failuresTrue Truthful (fun _ => OutboxKept) OutboxKept where
  refl _ := .refl
  trans _ _ _ _ := .trans
  guarantee _ _ h _ := h
  start w task w' program hI _ h := by
    obtain ⟨hsame, hsound⟩ := onStart_outbox (P := P) h
    exact ⟨hsame.truthful hI, hsound, fun _ => hsame.kept⟩
  crash w task hI := ⟨(onCrash_outbox w task).truthful hI, fun _ => (onCrash_outbox w task).kept⟩
  environment _ w event w' hI _ h := ⟨(onEvent_outbox h hI).1, fun _ _ => (onEvent_outbox h hI).2⟩

theorem moves_outbox : (machine P).Moves failuresTrue Truthful OutboxKept OutboxKept where
  refl := .refl
  trans _ _ _ := .trans
  guarantee _ _ h := h
  start _ _ _ _ _ h := (onStart_outbox (P := P) h).1.kept
  crash w task _ := (onCrash_outbox w task).kept
  environment _ _ _ _ hI _ h := (onEvent_outbox h hI).2

/-- As long as no `FAILED` update hits an event that was handed to the broker, and none
is handed over that has failed, the statuses are true in every state, and an event that
is `PUBLISHED` in one is so in every later one. -/
theorem outbox_truthful (P : Checkout.Platform) (w : World) (earlier later : List Action) (c c' : Config)
    (hw : Truthful w) (hearlier : (machine P).system.Guarded failuresTrue.allows (.idle w) earlier)
    (hlater : (machine P).system.Guarded failuresTrue.allows c later)
    (hr : (machine P).system.run (.idle w) earlier = some c) (hr' : (machine P).system.run c later = some c') :
    Truthful c'.world ∧ ∀ id e, c.world.db.outboxEvents.find? id = some e → e.status = .published →
      ∃ e', c'.world.db.outboxEvents.find? id = some e' ∧ e'.status = .published := by
  have hR := relyGuarantee_outbox (P := P)
  have hc := hR.run (Machine.invariant_idle hw) hearlier hr
  refine ⟨(hR.run hc hlater hr').1, fun id e he hs => ?_⟩
  obtain ⟨e', he', _, hstatus⟩ := (hR.run_move moves_outbox hc hlater hr').events id e he
  exact ⟨e', he', hstatus hs⟩

instance (w : World) (q : Call) (reply : Reply) : Decidable (failuresTrue.call w q reply) :=
  match q with
  | .publish d => (inferInstance : Decidable
      (reply.takesEffect → ∀ e ∈ w.db.outboxEvents.rows, d.messageId = some e.id → e.status ≠ .failed))
  | .markEventFailed id _ =>
    (inferInstance : Decidable (reply.takesEffect → ∀ d ∈ w.broker.published, d.messageId ≠ some id))
  | .getProducts | .findInventory _ | .syncProduct _ _ | .deactivateAbsent _ | .bumpCatalogVersion | .findOrder _
  | .billOrder _ _ | .getBillingStatus _ | .findUnbilledOrders | .markBilled _ _ | .markErpFailed _ _
  | .createIntegrationAttempt _ | .publishToRetry _ | .publishToDlq _ | .ack | .nack _ | .ensureTopology
  | .findPendingEvents | .markPublished _ => .isTrue trivial

instance : ∀ w task, Decidable (failuresTrue.start w task) := fun _ _ => .isTrue trivial

instance : ∀ pending w event, Decidable (failuresTrue.environment pending w event) :=
  fun _ _ _ => .isTrue trivial

theorem World.fresh_truthful (catalog : List Catalog.ErpCatalogProduct) : Truthful (World.fresh catalog) :=
  ⟨fun _ he => (by cases he), fun _ he => (by cases he)⟩

/-! ### Two cycles -/

/-- Two cycles have read the same event, and the first publishes it. -/
def publishedOnce : List Action :=
  wholeSync 0 2 ++
    [.environment (.checkout firstOrder), .start 1 .publishPending, .start 2 .publishPending] ++
    replies 1 [.answered, .answered] ++ replies 2 [.answered, .answered] ++ replies 1 [.answered, .answered]

/-- The publish of the second fails. -/
def failedAfterwards : List Action := replies 2 [.failed "channel closed", .answered]

theorem outbox_untruthful :
    ¬∀ (P : Checkout.Platform) (w : World) (earlier later : List Action) (c c' : Config), Truthful w →
      (machine P).system.run (.idle w) earlier = some c → (machine P).system.run c later = some c' →
      Truthful c'.world ∧ ∀ id e, c.world.db.outboxEvents.find? id = some e → e.status = .published →
        ∃ e', c'.world.db.outboxEvents.find? id = some e' ∧ e'.status = .published := by
  intro h
  have hrun := (h plainPlatform twoProducts publishedOnce failedAfterwards _ _ (World.fresh_truthful _)
    (run_after _ _ (by decide +kernel)) (run_after _ _ (by decide +kernel))).1.failed
  revert hrun
  decide +kernel

/-- The publish of a second order fails. -/
def secondOrderFails : List Action :=
  [.environment (.checkout (orderRequest "c2" "k" "o2" [⟨"p2", 1⟩])), .start 2 .publishPending] ++
    replies 2 [.answered, .answered, .failed "channel closed", .answered]

theorem outbox_truthful_failed : ∃ c c',
    (machine plainPlatform).system.run (.idle twoProducts) orderPublished = some c ∧
      (machine plainPlatform).system.run c secondOrderFails = some c' ∧
      Truthful c'.world ∧ ∀ id e, c.world.db.outboxEvents.find? id = some e → e.status = .published →
        ∃ e', c'.world.db.outboxEvents.find? id = some e' ∧ e'.status = .published :=
  have hrun := run_after (.idle twoProducts) orderPublished (by decide +kernel)
  have hrun' := run_after (after (.idle twoProducts) orderPublished) secondOrderFails (by decide +kernel)
  ⟨_, _, hrun, hrun', outbox_truthful plainPlatform twoProducts orderPublished secondOrderFails _ _
    (World.fresh_truthful _) (by decide +kernel) (by decide +kernel) hrun hrun'⟩

end CaseCellShop.Shop
