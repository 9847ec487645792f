import CaseCellShop.Library.Alone
import CaseCellShop.Shop.OutboxStatus

/-! Outbox cycles with nothing in between.

A cycle hands the fifty oldest waiting events to the broker and marks them, so that `k`
cycles hand over the `50 * k` oldest, in the order they were created and each once, and
change nothing else (`cycles_publish`). -/
namespace CaseCellShop.Shop
open Outbox Program Queue

/-- The events not yet published, the oldest first. -/
def waitingEvents (db : Database) : List OutboxEvent := db.outboxEvents.rows.filter fun e => e.status = .pending

/-- What the events become, if they are among these. -/
def markAmong (ids : List String) (e : OutboxEvent) : OutboxEvent := if e.id ∈ ids then e.markPublished else e

/-- In `w'` the events were handed to the broker and marked, and nothing else was done. -/
structure HandedOver (w w' : World) (events : List OutboxEvent) : Prop where
  rows : w'.db.outboxEvents.rows = w.db.outboxEvents.rows.map (markAmong (events.map OutboxEvent.id))
  rest : w' = {w with
    db := {w.db with outboxEvents := w'.db.outboxEvents}
    broker := {w.broker with
      billing := w.broker.billing ++ events.map messageOf
      published := w.broker.published ++ events.map messageOf}}

variable {P : Checkout.Platform} {w w' w'' : World} {events events' : List OutboxEvent}

theorem HandedOver.refl (w : World) : HandedOver w w [] where
  rows := by
    have hnone : markAmong [] = id := funext fun e => if_neg List.not_mem_nil
    rw [List.map_nil, hnone, List.map_id]
  rest := by simp

theorem markAmong_comp (ids ids' : List String) : markAmong ids' ∘ markAmong ids = markAmong (ids ++ ids') := by
  funext e
  have hid : (markAmong ids e).id = e.id := by
    unfold markAmong
    split <;> rfl
  show (if (markAmong ids e).id ∈ ids' then (markAmong ids e).markPublished else markAmong ids e) = _
  rw [hid]
  by_cases h : e.id ∈ ids <;> by_cases h' : e.id ∈ ids' <;> simp [markAmong, h, h', OutboxEvent.markPublished]

theorem HandedOver.trans (h : HandedOver w w' events) (k : HandedOver w' w'' events') :
    HandedOver w w'' (events ++ events') where
  rows := by rw [k.rows, h.rows, List.map_map, markAmong_comp, List.map_append]
  rest := by
    rw [k.rest, h.rest]
    simp

/-! ### One event -/

theorem markPublished_id (e : OutboxEvent) : e.markPublished.id = e.id := rfl

/-- The event is handed to the broker and marked. -/
def handOver (w : World) (e : OutboxEvent) : World :=
  {w with
    db := {w.db with outboxEvents := w.db.outboxEvents.update e.id OutboxEvent.markPublished markPublished_id}
    broker := w.broker.publish (messageOf e)}

theorem handOver_handedOver (w : World) (e : OutboxEvent) : HandedOver w (handOver w e) [e] where
  rows := by
    show w.db.outboxEvents.rows.map (fun r => if r.id = e.id then r.markPublished else r) = _
    refine List.map_congr_left fun r _ => ?_
    simp [markAmong]
  rest := rfl

theorem publishEvent_run {e : OutboxEvent} (he : (w.db.outboxEvents.find? e.id).isSome) :
    (publishEvent e).run (execute P) w = (.ok (), handOver w e) := by
  obtain ⟨row, hrow⟩ := Option.isSome_iff_exists.mp he
  have hmark : execute P (execute P w (.publish (messageOf e))).1 (.markPublished e.id) = (handOver w e, .ok ()) := by
    simp only [execute, Database.updateOutboxEvent, hrow, World.write]
    rfl
  rw [publishEvent_eq, run_await]
  exact (run_await ..).trans (by rw [hmark]; rfl)

theorem HandedOver.find? (h : HandedOver w w' events) (id : String) :
    (w'.db.outboxEvents.find? id).isSome = (w.db.outboxEvents.find? id).isSome := by
  rw [Bool.eq_iff_iff, Option.isSome_iff_exists, Option.isSome_iff_exists]
  have hid (e : OutboxEvent) : (markAmong (events.map OutboxEvent.id) e).id = e.id := by
    unfold markAmong
    split <;> rfl
  simp only [Table.find?_eq_some, h.rows, List.mem_map]
  constructor
  · rintro ⟨_, ⟨e, he, rfl⟩, rfl⟩
    exact ⟨e, he, (hid e).symm⟩
  · rintro ⟨e, he, rfl⟩
    exact ⟨_, ⟨e, he, rfl⟩, hid e⟩

theorem publishEach_run (h : ∀ e ∈ events, (w.db.outboxEvents.find? e.id).isSome) :
    ∃ w', (each publishEvent events).run (execute P) w = (.ok (), w') ∧ HandedOver w w' events := by
  induction events generalizing w with
  | nil => exact ⟨w, rfl, .refl w⟩
  | cons e rest ih =>
    obtain ⟨he, hrest⟩ := List.forall_mem_cons.mp h
    have hfirst := handOver_handedOver w e
    obtain ⟨w', hrun, hothers⟩ := ih (w := handOver w e) fun e' he' => (hfirst.find? e'.id).trans (hrest e' he')
    refine ⟨w', ?_, hfirst.trans hothers⟩
    rw [each, run_bind, publishEvent_run he]
    exact hrun

/-! ### One cycle -/

theorem publishPending_run (w : World) :
    ∃ w', publishPending.run (execute P) w = (.ok (), w') ∧ HandedOver w w' (pendingEvents w.db) := by
  have hrows : ∀ e ∈ pendingEvents w.db, (w.db.outboxEvents.find? e.id).isSome := by
    intro e he
    rw [Table.find?_key (List.mem_filter.mp (List.mem_of_mem_take he)).1]
    rfl
  exact publishEach_run hrows

/-- Rows left after the first are the others, if their keys differ. -/
theorem filter_notMem_take {ρ : Type} {key : ρ → String} {l : List ρ} (h : (l.map key).Nodup) (n : Nat) :
    l.filter (fun r => key r ∉ (l.take n).map key) = l.drop n := by
  have hsplit : ((l.take n).map key ++ (l.drop n).map key).Nodup := by
    rw [← List.map_append, List.take_append_drop]
    exact h
  obtain ⟨_, _, hdisjoint⟩ := List.nodup_append.mp hsplit
  calc l.filter (fun r => key r ∉ (l.take n).map key)
      = (l.take n ++ l.drop n).filter (fun r => key r ∉ (l.take n).map key) := by rw [List.take_append_drop]
    _ = l.drop n := by
      rw [List.filter_append, List.filter_eq_nil_iff.mpr, List.nil_append, List.filter_eq_self]
      · intro r hr
        simp only [decide_eq_true_eq]
        exact fun hmem => hdisjoint _ hmem _ (List.mem_map_of_mem hr) rfl
      · intro r hr
        simp only [decide_eq_true_eq, not_not]
        exact List.mem_map_of_mem hr

/-- The events that waited and were not handed over still wait. -/
theorem HandedOver.waiting {n : Nat} (h : HandedOver w w' ((waitingEvents w.db).take n)) :
    waitingEvents w'.db = (waitingEvents w.db).drop n := by
  have hnodup : ((waitingEvents w.db).map OutboxEvent.id).Nodup :=
    (List.filter_sublist.map OutboxEvent.id).nodup w.db.outboxEvents.nodup
  rw [← filter_notMem_take hnodup n]
  unfold waitingEvents
  generalize hids : ((w.db.outboxEvents.rows.filter fun e => e.status = .pending).take n).map OutboxEvent.id = ids
  have hrows := h.rows
  unfold waitingEvents at hrows
  rw [hids] at hrows
  rw [hrows, List.filter_filter]
  clear hids hrows h hnodup
  induction w.db.outboxEvents.rows with
  | nil => rfl
  | cons e rest ih =>
    rw [List.map_cons, List.filter_cons, List.filter_cons, ih]
    by_cases he : e.id ∈ ids
    · simp [markAmong, he, OutboxEvent.markPublished]
    · by_cases hs : e.status = .pending <;> simp [markAmong, he, hs]

/-! ### Any number of cycles -/

/-- `k` cycles, one after the other. -/
def cycles (P : Checkout.Platform) : Nat → World → World
  | 0, w => w
  | k + 1, w => cycles P k (publishPending.run (execute P) w).2

/-- `k` cycles hand over the `50 * k` oldest of the waiting events, in their order and each
once, and change nothing else. -/
theorem cycles_publish (P : Checkout.Platform) (k : Nat) (w : World) :
    HandedOver w (cycles P k w) ((waitingEvents w.db).take (50 * k)) ∧
      waitingEvents (cycles P k w).db = (waitingEvents w.db).drop (50 * k) := by
  induction k generalizing w with
  | zero =>
    refine ⟨?_, by simp [cycles]⟩
    rw [Nat.mul_zero, List.take_zero]
    exact .refl w
  | succ k ih =>
    obtain ⟨w₁, hrun, hfirst⟩ := publishPending_run (P := P) w
    have hleft := HandedOver.waiting (n := 50) hfirst
    obtain ⟨hothers, hrest⟩ := ih w₁
    have hcycles : cycles P (k + 1) w = cycles P k w₁ := by rw [cycles, hrun]
    rw [hleft] at hothers hrest
    rw [hcycles, Nat.mul_succ, Nat.add_comm]
    refine ⟨?_, by rw [hrest, List.drop_drop]⟩
    rw [List.take_add]
    exact hfirst.trans hothers

end CaseCellShop.Shop
