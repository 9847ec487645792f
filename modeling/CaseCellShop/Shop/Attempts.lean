import CaseCellShop.Shop.Delivery

/-! The billing attempts of an order.

The row of an attempt is what its handler must insert before it goes on, and the unique
index lets one handler do so: only that handler publishes the next message, and after
the fourth row only that handler writes `ERP_FAILED` and publishes to the dead-letter
queue. So a message never runs ahead of the rows, however many of them there are for an
order and whatever is delivered twice, crashes or fails. -/
namespace CaseCellShop.Shop
open Billing Program Queue

abbrev Attempts := Table IntegrationAttempt.number

/-- There is a row for the `n`th billing attempt of the order. -/
def Recorded (attempts : Attempts) (orderId : String) (n : Int) : Prop :=
  (attempts.find? (orderId, "billing", n)).isSome

instance (attempts : Attempts) (orderId : String) (n : Int) : Decidable (Recorded attempts orderId n) :=
  inferInstanceAs (Decidable (_ = true))

/-- The number of a message's attempt is one to four, and the attempt before it is
recorded. -/
structure Due (attempts : Attempts) (d : Delivery) : Prop where
  first : 1 ≤ currentAttempt d.body
  last : currentAttempt d.body ≤ 4
  previous : currentAttempt d.body = 1 ∨ Recorded attempts d.body.orderId (currentAttempt d.body - 1)

/-- The rows of every order are numbered from one on, up to four, and the fourth is the
one that says `DLQ`. -/
structure Numbered (attempts : Attempts) : Prop where
  range : ∀ orderId n, Recorded attempts orderId n → 1 ≤ n ∧ n ≤ 4
  previous : ∀ orderId n, Recorded attempts orderId n → n = 1 ∨ Recorded attempts orderId (n - 1)
  status : ∀ row ∈ attempts.rows, row.operation = "billing" →
    row.status = if row.attemptNumber ≥ 4 then .dlq else .failed

/-- What holds of the store and the queues. -/
structure Counted (w : World) : Prop where
  rows : Numbered w.db.integrationAttempts
  queued : ∀ d, d ∈ w.broker.billing ∨ d ∈ w.broker.retry → Due w.db.integrationAttempts d
  dead : ∀ d ∈ w.broker.dlq, Recorded w.db.integrationAttempts d.body.orderId 4
  once : ∀ orderId, (w.broker.dlq.filter fun d => d.body.orderId = orderId).length ≤ 1
  failed : ∀ o ∈ w.db.orders.rows, o.status = .erpFailed → Recorded w.db.integrationAttempts o.id 4

variable {P : Checkout.Platform} {w w' : World} {attempts attempts' : Attempts} {d : Delivery}

/-- No row is lost. -/
def MoreAttempts (attempts attempts' : Attempts) : Prop :=
  ∀ orderId n, Recorded attempts orderId n → Recorded attempts' orderId n

theorem Due.mono (h : Due attempts d) (hmore : MoreAttempts attempts attempts') : Due attempts' d :=
  ⟨h.first, h.last, h.previous.imp_right (hmore _ _)⟩

/-- A message without an attempt number. -/
theorem due_first (h : d.body.attempt = none) : Due attempts d := by
  have hone : currentAttempt d.body = 1 := by rw [currentAttempt, h, Option.getD_none]
  exact ⟨hone.ge, by omega, .inl hone⟩

/-! ### The row of an attempt -/

theorem recorded_insert {row : IntegrationAttempt} (h : attempts.insert? row = some attempts') (orderId : String)
    (n : Int) :
    Recorded attempts' orderId n ↔ Recorded attempts orderId n ∨ row.number = (orderId, "billing", n) := by
  have hmem (t : Attempts) : Recorded t orderId n ↔ ∃ r ∈ t.rows, r.number = (orderId, "billing", n) := by
    simp only [Recorded, Option.isSome_iff_exists, Table.find?_eq_some]
  rw [hmem, hmem, (Table.insert?_eq_some h).2]
  simp [or_and_right, exists_or]

/-- A due message's row continues the numbering. -/
theorem numbered_insert {error : String} (hrows : Numbered attempts) (hdue : Due attempts d)
    (h : attempts.insert? (attemptRow (withHeaders d) error) = some attempts') : Numbered attempts' := by
  have hrecorded := recorded_insert h
  constructor
  · intro orderId n hn
    rcases (hrecorded orderId n).mp hn with hold | hnew
    · exact hrows.range orderId n hold
    · cases hnew
      exact ⟨hdue.first, hdue.last⟩
  · intro orderId n hn
    rcases (hrecorded orderId n).mp hn with hold | hnew
    · exact (hrows.previous orderId n hold).imp_right fun hp => (hrecorded _ _).mpr (.inl hp)
    · cases hnew
      exact hdue.previous.imp_right fun hp => (hrecorded _ _).mpr (.inl hp)
  · intro row hrow hbilling
    rw [(Table.insert?_eq_some h).2, List.mem_append, List.mem_singleton] at hrow
    rcases hrow with hold | rfl
    · exact hrows.status row hold hbilling
    · rfl

/-- The insert that went through found no such row. -/
theorem not_recorded_of_insert {row : IntegrationAttempt} (h : attempts.insert? row = some attempts')
    {orderId : String} {n : Int} (hrow : row.number = (orderId, "billing", n)) : ¬Recorded attempts orderId n := by
  have hnone := (Table.insert?_eq_some h).1
  rw [hrow] at hnone
  simp [Recorded, hnone]

/-! ### Where a handler stands -/

/-- The order that a call settles for good. -/
def finishes : Call → Option String
  | .markErpFailed id _ => some id
  | .publishToDlq d => some d.body.orderId
  | _ => none

/-- The program is about to settle the order for good. -/
def Finishing (orderId : String) (program : Worker Unit) : Prop := (program.awaited 0).bind finishes = some orderId

/-- What is left of the handler of a due message. -/
inductive Handler (attempts : Attempts) (d : Delivery) : Worker Unit → Prop
  | find : Handler attempts d (find d)
  | bill (order : Order) : Handler attempts d (bill d order)
  | mark (orderId invoiceId : String) : Handler attempts d (mark d orderId invoiceId)
  | recordFailure (error : String) : Handler attempts d (recordFailure d error)
  | toRetry (more : currentAttempt d.body < 4) (recorded : Recorded attempts d.body.orderId (currentAttempt d.body)) :
      Handler attempts d (toRetry d)
  | markFailed (recorded : Recorded attempts d.body.orderId 4) : Handler attempts d (markFailed d)
  | toDlq (recorded : Recorded attempts d.body.orderId 4) : Handler attempts d (toDlq d)
  | settle : Handler attempts d (settle d)
  | nack : Handler attempts d (request (.nack d))

theorem Handler.mono {program : Worker Unit} (h : Handler attempts d program)
    (hmore : MoreAttempts attempts attempts') :
    Handler attempts' d program := by
  cases h with
  | find => exact .find
  | bill order => exact .bill order
  | mark orderId invoiceId => exact .mark orderId invoiceId
  | recordFailure error => exact .recordFailure error
  | toRetry more recorded => exact .toRetry more (hmore _ _ recorded)
  | markFailed recorded => exact .markFailed (hmore _ _ recorded)
  | toDlq recorded => exact .toDlq (hmore _ _ recorded)
  | settle => exact .settle
  | nack => exact .nack

theorem Handler.finishing {program : Worker Unit} (h : Handler attempts d program) {orderId : String}
    (hf : Finishing orderId program) : orderId = d.body.orderId ∧ Recorded attempts orderId 4 := by
  cases h with
  | markFailed recorded =>
    cases hf
    exact ⟨rfl, recorded⟩
  | toDlq recorded =>
    cases hf
    exact ⟨rfl, recorded⟩
  | _ => cases hf

/-! ### What one call does -/

/-- What a call must rest on for the count to be kept; the insert of a row is apart. -/
def Permitted (w : World) : Call → Prop
  | .createIntegrationAttempt _ => False
  | .markErpFailed id _ => Recorded w.db.integrationAttempts id 4
  | .publishToRetry d | .nack d => Due w.db.integrationAttempts d
  | .publishToDlq d => Recorded w.db.integrationAttempts d.body.orderId 4 ∧
      ∀ d' ∈ w.broker.dlq, d'.body.orderId ≠ d.body.orderId
  | .publish d => d.body.attempt = none
  | _ => True

theorem Counted.orders (hw : Counted w) {orders : Orders}
    (h : ∀ o ∈ orders.rows, o.status = .erpFailed → Recorded w.db.integrationAttempts o.id 4) :
    Counted {w with db := {w.db with orders := orders}} :=
  ⟨hw.rows, hw.queued, hw.dead, hw.once, h⟩

/-- Only due messages were added to the two queues. -/
theorem Counted.broker (hw : Counted w) {broker : Broker}
    (hqueued : ∀ d, d ∈ broker.billing ∨ d ∈ broker.retry →
      (d ∈ w.broker.billing ∨ d ∈ w.broker.retry) ∨ Due w.db.integrationAttempts d)
    (hdlq : broker.dlq = w.broker.dlq) : Counted {w with broker := broker} := by
  refine ⟨hw.rows, fun d hd => (hqueued d hd).elim (hw.queued d) id, ?_, ?_, hw.failed⟩
  · show ∀ d ∈ broker.dlq, _
    rw [hdlq]
    exact hw.dead
  · intro orderId
    show (broker.dlq.filter _).length ≤ 1
    rw [hdlq]
    exact hw.once orderId

theorem failed_update {id : String} {f : Order → Order} {hf : ∀ o, (f o).id = o.id} (hw : Counted w)
    (hfailed : ∀ o, (f o).status = .erpFailed → Recorded w.db.integrationAttempts id 4) :
    ∀ o ∈ (w.db.orders.update id f hf).rows, o.status = .erpFailed → Recorded w.db.integrationAttempts o.id 4 := by
  intro o' ho' hs
  obtain ⟨o, ho, rfl⟩ := List.mem_map.mp ho'
  by_cases hid : o.id = id
  · rw [if_pos hid] at hs ⊢
    rw [hf, hid]
    exact hfailed o hs
  · rw [if_neg hid] at hs ⊢
    exact hw.failed o ho hs

theorem Executed.counted {q : Call} (h : Executed w q w') (hq : Permitted w q) (hw : Counted w) : Counted w' := by
  cases h with
  | synced hs =>
    rw [hs.others]
    exact ⟨hw.rows, hw.queued, hw.dead, hw.once, hw.failed⟩
  | billed id invoiceId => exact hw.orders (failed_update hw fun _ => nofun)
  | erpFailed id reason => exact hw.orders (failed_update hw fun _ _ => hq)
  | attempted attempt attempts => exact hq.elim
  | sentToRetry d =>
    refine hw.broker (fun d' hd' => ?_) rfl
    rcases hd' with hd' | hd'
    · exact .inl (.inl hd')
    · rcases List.mem_append.mp hd' with hd' | hd'
      · exact .inl (.inr hd')
      · exact .inr (List.mem_singleton.mp hd' ▸ hq)
  | published d =>
    refine hw.broker (fun d' hd' => ?_) rfl
    rcases hd' with hd' | hd'
    · rcases List.mem_append.mp hd' with hd' | hd'
      · exact .inl (.inl hd')
      · exact .inr (List.mem_singleton.mp hd' ▸ due_first hq)
    · exact .inl (.inr hd')
  | returned d =>
    refine hw.broker (fun d' hd' => ?_) rfl
    rcases hd' with hd' | hd'
    · rcases List.mem_cons.mp hd' with rfl | hd'
      · exact .inr hq
      · exact .inl (.inl hd')
    · exact .inl (.inr hd')
  | sentToDlq d =>
    refine ⟨hw.rows, hw.queued, fun d' hd' => ?_, fun orderId => ?_, hw.failed⟩
    · rcases List.mem_append.mp hd' with hd' | hd'
      · exact hw.dead d' hd'
      · exact List.mem_singleton.mp hd' ▸ hq.1
    · show ((w.broker.dlq ++ [d]).filter _).length ≤ 1
      rw [List.filter_append, List.length_append]
      by_cases hid : d.body.orderId = orderId
      · -- the first for its order
        have hnone : w.broker.dlq.filter (fun d' => d'.body.orderId = orderId) = [] :=
          List.filter_eq_nil_iff.mpr fun d' hd' => by simpa [← hid] using hq.2 d' hd'
        simp [hnone, hid]
      · simpa [hid] using hw.once orderId
  | _ => exact ⟨hw.rows, hw.queued, hw.dead, hw.once, hw.failed⟩

/-- Which call adds to the dead-letter queue, and which to the attempts. -/
theorem Executed.sameDlq {q : Call} (h : Executed w q w') (hq : ∀ d, q ≠ .publishToDlq d) :
    w'.broker.dlq = w.broker.dlq := by
  cases h with
  | sentToDlq d => exact absurd rfl (hq d)
  | _ => rfl

theorem Executed.sameAttempts {q : Call} (h : Executed w q w')
    (hq : ∀ attempt, q ≠ .createIntegrationAttempt attempt) :
    w'.db.integrationAttempts = w.db.integrationAttempts := by
  cases h with
  | attempted attempt attempts => exact absurd rfl (hq attempt)
  | synced hs => rw [hs.others]
  | _ => rfl

/-- The insert of a row: nothing, or the row is new and now there. -/
theorem perform_attempt (w : World) (attempt : IntegrationAttempt) (a : Reply) :
    (∃ e, perform P w (.createIntegrationAttempt attempt) a = (w, .error e)) ∨
      ∃ attempts, w.db.integrationAttempts.insert? attempt = some attempts ∧
        (perform P w (.createIntegrationAttempt attempt) a).1 =
          {w with db := {w.db with integrationAttempts := attempts}} := by
  cases a with
  | failed message => exact .inl ⟨message, rfl⟩
  | _ =>
    cases hcreate : w.db.createIntegrationAttempt attempt with
    | error e =>
      left
      simp only [perform, execute, hcreate, World.write]
      exact ⟨_, rfl⟩
    | ok db =>
      right
      obtain ⟨attempts, hinsert, rfl⟩ := createIntegrationAttempt_ok hcreate
      refine ⟨attempts, hinsert, ?_⟩
      simp only [perform, execute, hcreate, World.write]

/-! ### One step of a handler -/

/-- What a handler's step does to the count: it may turn to finish its order only after
it has recorded the fourth attempt, and what it adds to the dead-letter queue is the end
of its finishing. -/
structure HandlerStep (w w' : World) (d : Delivery) (program next : Worker Unit) : Prop where
  counted : Counted w'
  more : MoreAttempts w.db.integrationAttempts w'.db.integrationAttempts
  handler : Handler w'.db.integrationAttempts d next ∨ ∃ result, next = .done result
  finishing : ∀ orderId, Finishing orderId next →
    Finishing orderId program ∨ ¬Recorded w.db.integrationAttempts orderId 4
  dlq : w'.broker.dlq = w.broker.dlq ∨ Finishing d.body.orderId program ∧ (∀ orderId, ¬Finishing orderId next) ∧
    ∃ m, m.body.orderId = d.body.orderId ∧ w'.broker.dlq = w.broker.dlq ++ [m]

/-- A step that records nothing and adds nothing to the dead-letter queue. -/
theorem quiet_step {q : Call} {a : Reply} {program next : Worker Unit} (hw : Counted w) (hq : Permitted w q)
    (hdlq : ∀ m, q ≠ .publishToDlq m)
    (hnext : Handler w.db.integrationAttempts d next ∨ ∃ result, next = .done result)
    (hfinishing : ∀ orderId, Finishing orderId next → Finishing orderId program) :
    HandlerStep w (perform P w q a).1 d program next := by
  have hexecuted := perform_executed (P := P) w q a
  have hsame := hexecuted.sameAttempts fun attempt he => (he ▸ hq : Permitted w (.createIntegrationAttempt attempt))
  refine ⟨hexecuted.counted hq hw, ?_, ?_, fun orderId hf => .inl (hfinishing orderId hf),
    .inl (hexecuted.sameDlq hdlq)⟩
  · rw [hsame]
    exact fun _ _ h => h
  · rwa [hsame]

variable {a : Reply} {i : Nat} {next : Worker Unit}

theorem find_step (hw : Counted w) (h : (find d).resume (perform P) w i a = some (w', next)) :
    HandlerStep w w' d (find d) next := by
  obtain ⟨rfl, hnext⟩ := resume_await h
  cases hr : (perform P w (.findOrder d.body.orderId) a).2 with
  | error error =>
    rw [hr] at hnext
    subst hnext
    exact quiet_step hw trivial (fun _ => nofun) (.inl (.recordFailure error)) fun _ hf => by cases hf
  | ok order =>
    rw [hr] at hnext
    change next = if order.status = .billed then settle d else bill d order at hnext
    by_cases hs : order.status = .billed
    · rw [if_pos hs] at hnext
      subst hnext
      exact quiet_step hw trivial (fun _ => nofun) (.inl .settle) fun _ hf => by cases hf
    · rw [if_neg hs] at hnext
      subst hnext
      exact quiet_step hw trivial (fun _ => nofun) (.inl (.bill order)) fun _ hf => by cases hf

theorem bill_step {order : Order} (hw : Counted w)
    (h : (bill d order).resume (perform P) w i a = some (w', next)) : HandlerStep w w' d (bill d order) next := by
  obtain ⟨rfl, hnext⟩ := resume_await h
  cases hr : (perform P w (.billOrder order.id (billingKey order.id)) a).2 <;> rw [hr] at hnext <;> subst hnext
  · exact quiet_step hw trivial (fun _ => nofun) (.inl (.recordFailure _)) fun _ hf => by cases hf
  · exact quiet_step hw trivial (fun _ => nofun) (.inl (.mark _ _)) fun _ hf => by cases hf

theorem mark_step {orderId invoiceId : String} (hw : Counted w)
    (h : (mark d orderId invoiceId).resume (perform P) w i a = some (w', next)) :
    HandlerStep w w' d (mark d orderId invoiceId) next := by
  obtain ⟨rfl, hnext⟩ := resume_await h
  cases hr : (perform P w (.markBilled orderId invoiceId) a).2 <;> rw [hr] at hnext <;> subst hnext
  · exact quiet_step hw trivial (fun _ => nofun) (.inl (.recordFailure _)) fun _ hf => by cases hf
  · exact quiet_step hw trivial (fun _ => nofun) (.inl .settle) fun _ hf => by cases hf

theorem settle_step (hw : Counted w) (h : (settle d).resume (perform P) w i a = some (w', next)) :
    HandlerStep w w' d (settle d) next := by
  obtain ⟨rfl, hnext⟩ := resume_await h
  cases hr : (perform P w .ack a).2 <;> rw [hr] at hnext <;> subst hnext
  · exact quiet_step hw trivial (fun _ => nofun) (.inl .nack) fun _ hf => by cases hf
  · exact quiet_step hw trivial (fun _ => nofun) (.inr ⟨_, rfl⟩) fun _ hf => by cases hf

theorem nack_step (hw : Counted w) (hdue : Due w.db.integrationAttempts d)
    (h : (request (.nack d) : Worker Unit).resume (perform P) w i a = some (w', next)) :
    HandlerStep w w' d (request (.nack d)) next := by
  obtain ⟨rfl, rfl⟩ := resume_await h
  exact quiet_step hw hdue (fun _ => nofun) (.inr ⟨_, rfl⟩) fun _ hf => by cases hf

/-- The message of the next attempt is due once this one is recorded. -/
theorem toRetry_step (hw : Counted w) (hdue : Due w.db.integrationAttempts d) (more : currentAttempt d.body < 4)
    (recorded : Recorded w.db.integrationAttempts d.body.orderId (currentAttempt d.body))
    (h : (toRetry d).resume (perform P) w i a = some (w', next)) : HandlerStep w w' d (toRetry d) next := by
  obtain ⟨rfl, rfl⟩ := resume_await h
  have hnumber : currentAttempt (republished (withHeaders d) (currentAttempt (withHeaders d) + 1)).body =
      currentAttempt d.body + 1 := rfl
  have hnext : Due w.db.integrationAttempts (republished (withHeaders d) (currentAttempt (withHeaders d) + 1)) := by
    have hfirst := hdue.first
    refine ⟨by omega, by omega, .inr ?_⟩
    rw [hnumber, add_sub_cancel_right]
    exact recorded
  exact quiet_step hw hnext (fun _ => nofun) (.inl .settle) fun _ hf => by cases hf

theorem markFailed_step (hw : Counted w) (recorded : Recorded w.db.integrationAttempts d.body.orderId 4)
    (h : (markFailed d).resume (perform P) w i a = some (w', next)) : HandlerStep w w' d (markFailed d) next := by
  obtain ⟨rfl, hnext⟩ := resume_await h
  cases hr : (perform P w (.markErpFailed d.body.orderId "Moved to DLQ after retries") a).2 <;> rw [hr] at hnext <;>
    subst hnext
  · exact quiet_step hw recorded (fun _ => nofun) (.inl .settle) fun _ hf => by cases hf
  · exact quiet_step hw recorded (fun _ => nofun) (.inl (.toDlq recorded)) fun _ hf => by cases hf; rfl

/-- The end of finishing. -/
theorem toDlq_step (hw : Counted w) (recorded : Recorded w.db.integrationAttempts d.body.orderId 4)
    (hfirst : ∀ m ∈ w.broker.dlq, m.body.orderId ≠ d.body.orderId)
    (h : (toDlq d).resume (perform P) w i a = some (w', next)) : HandlerStep w w' d (toDlq d) next := by
  obtain ⟨rfl, rfl⟩ := resume_await h
  have hexecuted := perform_executed (P := P) w
    (.publishToDlq (republished (withHeaders d) (currentAttempt (withHeaders d)))) a
  have hsame := hexecuted.sameAttempts fun _ => nofun
  refine ⟨hexecuted.counted ⟨recorded, hfirst⟩ hw, ?_, .inl .settle, (fun _ hf => by cases hf), ?_⟩
  · rw [hsame]
    exact fun _ _ h => h
  · rcases perform_cases (P := P) w (.publishToDlq (republished (withHeaders d) (currentAttempt (withHeaders d)))) a with
      hnone | ⟨_, hdone⟩
    · exact .inl (by rw [hnone])
    · refine .inr ⟨rfl, (fun _ hf => by cases hf), republished (withHeaders d) (currentAttempt (withHeaders d)), rfl, ?_⟩
      rw [hdone]
      rfl

/-- The handler that records an attempt is the only one to do so. -/
theorem recordFailure_step {error : String} (hw : Counted w) (hdue : Due w.db.integrationAttempts d)
    (h : (recordFailure d error).resume (perform P) w i a = some (w', next)) :
    HandlerStep w w' d (recordFailure d error) next := by
  obtain ⟨rfl, hnext⟩ := resume_await h
  rcases perform_attempt (P := P) w (attemptRow (withHeaders d) error) a with ⟨e, he⟩ | ⟨attempts, hinsert, hworld⟩
  · rw [he] at hnext ⊢
    subst hnext
    exact ⟨hw, fun _ _ h => h, .inl .settle, (fun _ hf => by cases hf), .inl rfl⟩
  · rw [hworld]
    have hrecorded := recorded_insert hinsert
    have hmore : MoreAttempts w.db.integrationAttempts attempts := fun _ _ hn => (hrecorded _ _).mpr (.inl hn)
    have hown : Recorded attempts d.body.orderId (currentAttempt d.body) := (hrecorded _ _).mpr (.inr rfl)
    have hcounted : Counted {w with db := {w.db with integrationAttempts := attempts}} :=
      ⟨numbered_insert hw.rows hdue hinsert, fun m hm => (hw.queued m hm).mono hmore,
        fun m hm => hmore _ _ (hw.dead m hm), hw.once, fun o ho hs => hmore _ _ (hw.failed o ho hs)⟩
    cases hr : (perform P w (.createIntegrationAttempt (attemptRow (withHeaders d) error)) a).2 with
    | error e =>
      rw [hr] at hnext
      subst hnext
      exact ⟨hcounted, hmore, .inl .settle, (fun _ hf => by cases hf), .inl rfl⟩
    | ok u =>
      rw [hr] at hnext
      change next = if currentAttempt d.body ≥ 4 then markFailed d else toRetry d at hnext
      by_cases hlast : currentAttempt d.body ≥ 4
      · have hfour : currentAttempt d.body = 4 := le_antisymm hdue.last hlast
        rw [if_pos hlast] at hnext
        subst hnext
        rw [hfour] at hown
        refine ⟨hcounted, hmore, .inl (.markFailed hown), fun orderId hf => .inr ?_, .inl rfl⟩
        cases hf
        refine not_recorded_of_insert hinsert ?_
        rw [← hfour]
        rfl
      · rw [if_neg hlast] at hnext
        subst hnext
        exact ⟨hcounted, hmore, .inl (.toRetry (not_le.mp hlast) hown), (fun _ hf => by cases hf), .inl rfl⟩

theorem handler_step {program : Worker Unit} (hw : Counted w) (hdue : Due w.db.integrationAttempts d)
    (hhandler : Handler w.db.integrationAttempts d program)
    (hfirst : Finishing d.body.orderId program → ∀ m ∈ w.broker.dlq, m.body.orderId ≠ d.body.orderId)
    (h : program.resume (perform P) w i a = some (w', next)) : HandlerStep w w' d program next := by
  cases hhandler with
  | find => exact find_step hw h
  | bill order => exact bill_step hw h
  | mark orderId invoiceId => exact mark_step hw h
  | recordFailure error => exact recordFailure_step hw hdue h
  | toRetry more recorded => exact toRetry_step hw hdue more recorded h
  | markFailed recorded => exact markFailed_step hw recorded h
  | toDlq recorded => exact toDlq_step hw recorded (hfirst rfl) h
  | settle => exact settle_step hw h
  | nack => exact nack_step hw hdue h

/-! ### The other programs -/

/-- The calls of the other programs; what they publish has no attempt number. -/
def Uncounted : Call → Prop
  | .createIntegrationAttempt _ | .markErpFailed _ _ | .publishToRetry _ | .publishToDlq _ | .nack _ => False
  | .publish d => d.body.attempt = none
  | _ => True

theorem uncounted_permitted {q : Call} (hq : Uncounted q) (w : World) : Permitted w q := by
  cases q <;> first | exact hq | exact hq.elim

theorem publishPending_uncounted : Outbox.publishPending.OnlyCalls Uncounted := by
  refine onlyCalls_bind (onlyCalls_call trivial) fun _ => ?_
  refine onlyCalls_bind (onlyCalls_call trivial) fun events => ?_
  apply onlyCalls_each
  intro event _
  apply onlyCalls_handle
  · exact onlyCalls_bind (onlyCalls_call rfl) fun _ => onlyCalls_call trivial
  · exact fun _ => onlyCalls_call trivial

theorem syncCatalog_uncounted : Reconciliation.syncCatalog.OnlyCalls Uncounted :=
  onlyCalls_mono Reconciliation.syncCatalog_calls fun q hq => by cases q <;> trivial

theorem reconcileOrders_uncounted : Reconciliation.reconcileOrders.OnlyCalls Uncounted :=
  onlyCalls_mono Reconciliation.reconcileOrders_calls fun q hq => by cases q <;> trivial

abbrev Process := Machine.Process Task Call String Answer

/-- A handler stands at one of its calls; the other programs leave the count alone. -/
def Tallies (attempts : Attempts) (process : Process) : Prop :=
  match process.task with
  | .consume _ d => Due attempts d ∧ Handler attempts d process.program
  | _ => process.program.OnlyCalls Uncounted

theorem Tallies.mono {process : Process} (h : Tallies attempts process) (hmore : MoreAttempts attempts attempts') :
    Tallies attempts' process := by
  obtain ⟨task, program⟩ := process
  cases task with
  | consume i d => exact ⟨h.1.mono hmore, h.2.mono hmore⟩
  | _ => exact h

theorem not_finishing {program : Worker Unit} (h : program.OnlyCalls Uncounted) (orderId : String) :
    ¬Finishing orderId program := by
  intro hf
  obtain ⟨q, hq, hfinishes⟩ := Option.bind_eq_some_iff.mp hf
  have hcall := h.awaited hq
  cases q <;> first | exact hcall.elim | cases hfinishes

/-- Only who has recorded the fourth attempt of an order is about to finish it. -/
theorem Tallies.finishing {process : Process} (h : Tallies attempts process) {orderId : String}
    (hf : Finishing orderId process.program) : Recorded attempts orderId 4 := by
  obtain ⟨task, program⟩ := process
  cases task with
  | consume i d => exact (h.2.finishing hf).2
  | _ => exact absurd hf (not_finishing h orderId)

/-! ### Configurations -/

/-- The count in a configuration: at most one process is about to finish an order, and
none once a message of the order is dead. -/
structure Tallied (c : Config) : Prop where
  world : Counted c.world
  processes : ∀ n process, c.running n = some process → Tallies c.world.db.integrationAttempts process
  unique : ∀ n m process other orderId, c.running n = some process → c.running m = some other →
    Finishing orderId process.program → Finishing orderId other.program → n = m
  first : ∀ n process orderId, c.running n = some process → Finishing orderId process.program →
    ∀ d ∈ c.world.broker.dlq, d.body.orderId ≠ orderId

/-- One process took a step, or one came or went. -/
theorem Tallied.update {c : Config} (hc : Tallied c) {n : Nat} {o : Option Process} (hcounted : Counted w)
    (hmore : MoreAttempts c.world.db.integrationAttempts w.db.integrationAttempts)
    (htallies : ∀ process, o = some process → Tallies w.db.integrationAttempts process)
    (hfinishing : ∀ process orderId, o = some process → Finishing orderId process.program →
      (∃ old, c.running n = some old ∧ Finishing orderId old.program) ∨
        ¬Recorded c.world.db.integrationAttempts orderId 4)
    (hdlq : w.broker.dlq = c.world.broker.dlq ∨ ∃ old m, c.running n = some old ∧
      Finishing m.body.orderId old.program ∧ (∀ process orderId, o = some process → ¬Finishing orderId process.program) ∧
      w.broker.dlq = c.world.broker.dlq ++ [m]) :
    Tallied ⟨w, Function.update c.running n o⟩ := by
  -- who is about to finish now has no rival among the others
  have halone : ∀ process orderId, o = some process → Finishing orderId process.program →
      ∀ m other, m ≠ n → c.running m = some other → ¬Finishing orderId other.program := by
    intro process orderId ho hf m other hm hother hf'
    rcases hfinishing process orderId ho hf with ⟨old, hold, hfold⟩ | hnew
    · exact hm (hc.unique m n other old orderId hother hold hf' hfold)
    · exact hnew ((hc.processes m other hother).finishing hf')
  refine ⟨hcounted, fun m process hm => ?_, fun k m process other orderId hk hm hf hf' => ?_,
    fun k process orderId hk hf d hd => ?_⟩
  · rcases Machine.running_update hm with ⟨_, ho⟩ | ⟨_, hold⟩
    · exact htallies process ho
    · exact (hc.processes m process hold).mono hmore
  · rcases Machine.running_update hk with ⟨hkn, hok⟩ | ⟨hkn, hk⟩ <;>
      rcases Machine.running_update hm with ⟨hmn, hom⟩ | ⟨hmn, hm⟩
    · rw [hkn, hmn]
    · exact absurd hf' (halone process orderId hok hf m other hmn hm)
    · exact absurd hf (halone other orderId hom hf' k process hkn hk)
    · exact hc.unique k m process other orderId hk hm hf hf'
  · rcases hdlq with hsame | ⟨old, m, hold, hfold, hdone, happended⟩
    · rw [show w.broker.dlq = c.world.broker.dlq from hsame] at hd
      rcases Machine.running_update hk with ⟨_, ho⟩ | ⟨_, hk⟩
      · rcases hfinishing process orderId ho hf with ⟨old, hold, hfold⟩ | hnew
        · exact hc.first n old orderId hold hfold d hd
        · rintro rfl
          exact hnew (hc.world.dead d hd)
      · exact hc.first k process orderId hk hf d hd
    · rcases Machine.running_update hk with ⟨_, ho⟩ | ⟨hkn, hk⟩
      · exact absurd hf (hdone process orderId ho)
      · rw [show w.broker.dlq = c.world.broker.dlq ++ [m] from happended] at hd
        rcases List.mem_append.mp hd with hd | hd
        · exact hc.first k process orderId hk hf d hd
        · rw [List.mem_singleton.mp hd]
          rintro rfl
          exact hkn (hc.unique k n process old m.body.orderId hk hold hf hfold)

/-- A message leaves the queue for its handler. -/
theorem onStart_tallied {c : Config} (hc : Tallied c) {n : Nat} {task : Task} {program : Worker Unit}
    (h : onStart c.world task = some (w, program)) :
    Tallied ⟨w, Function.update c.running n (Machine.alive task program)⟩ := by
  have hother (hw : w = c.world) (hcalls : program.OnlyCalls Uncounted) (htask : ∀ i d, task ≠ .consume i d) :
      Tallied ⟨w, Function.update c.running n (Machine.alive task program)⟩ := by
    subst hw
    refine hc.update hc.world (fun _ _ h => h) (fun process ho => ?_) (fun process orderId ho hf => ?_) (.inl rfl)
    · rw [Machine.alive_eq_some ho]
      cases task with
      | consume i d => exact absurd rfl (htask i d)
      | _ => exact hcalls
    · rw [Machine.alive_eq_some ho] at hf
      exact absurd hf (not_finishing hcalls orderId)
  cases task with
  | consume i d =>
    obtain ⟨hat, rfl, rfl⟩ := onStart_consume h
    have hdue := hc.world.queued d (.inl (List.mem_of_getElem? hat))
    have hcounted : Counted
        {c.world with broker := {c.world.broker with billing := c.world.broker.billing.eraseIdx i}} :=
      hc.world.broker (fun d' hd' => .inl (hd'.imp_left List.mem_of_mem_eraseIdx)) rfl
    refine hc.update hcounted (fun _ _ h => h) (fun process ho => ?_) (fun process orderId ho hf => ?_) (.inl rfl)
    · rw [Machine.alive_eq_some ho]
      exact ⟨hdue, consume_eq d ▸ .find⟩
    · rw [Machine.alive_eq_some ho, consume_eq] at hf
      cases hf
  | syncCatalog =>
    cases h
    exact hother rfl (onlyCalls_bind syncCatalog_uncounted fun _ => trivial) fun _ _ => nofun
  | reconcileOrders =>
    cases h
    exact hother rfl (onlyCalls_bind reconcileOrders_uncounted fun _ => trivial) fun _ _ => nofun
  | publishPending =>
    cases h
    exact hother rfl publishPending_uncounted fun _ _ => nofun

theorem call_tallied {c : Config} (hc : Tallied c) {n : Nat} {process : Process} {program : Worker Unit}
    (hrun : c.running n = some process)
    (h : process.program.resume (perform P) c.world i a = some (w, program)) :
    Tallied ⟨w, Function.update c.running n (Machine.alive process.task program)⟩ := by
  have htallies := hc.processes n process hrun
  obtain ⟨task, before⟩ := process
  have hother (hcalls : before.OnlyCalls Uncounted) (htask : ∀ j d, task ≠ .consume j d) :
      Tallied ⟨w, Function.update c.running n (Machine.alive task program)⟩ := by
    have hworld : Counted w ∧ w.db.integrationAttempts = c.world.db.integrationAttempts ∧
        w.broker.dlq = c.world.broker.dlq := by
      rcases resume_performs h with rfl | ⟨q, hq, rfl⟩
      · exact ⟨hc.world, rfl, rfl⟩
      · have hcall := hcalls.awaited hq
        have hexecuted := perform_executed (P := P) c.world q a
        exact ⟨hexecuted.counted (uncounted_permitted hcall _) hc.world,
          hexecuted.sameAttempts fun attempt he => by rw [he] at hcall; exact hcall,
          hexecuted.sameDlq fun d he => by rw [he] at hcall; exact hcall⟩
    obtain ⟨hcounted, hattempts, hdlq⟩ := hworld
    refine hc.update hcounted (by rw [hattempts]; exact fun _ _ h => h) (fun process ho => ?_)
      (fun process orderId ho hf => ?_) (.inl hdlq)
    · rw [Machine.alive_eq_some ho]
      cases task with
      | consume j d => exact absurd rfl (htask j d)
      | _ => exact hcalls.resume h
    · rw [Machine.alive_eq_some ho] at hf
      exact absurd hf (not_finishing (hcalls.resume h) orderId)
  cases task with
  | consume j d =>
    obtain ⟨hdue, hhandler⟩ := htallies
    have hstep := handler_step hc.world hdue hhandler (hc.first n _ d.body.orderId hrun) h
    refine hc.update hstep.counted hstep.more (fun process ho => ?_) (fun process orderId ho hf => ?_) ?_
    · obtain rfl := Machine.alive_eq_some ho
      rcases hstep.handler with hhandler' | ⟨result, rfl⟩
      · exact ⟨hdue.mono hstep.more, hhandler'⟩
      · cases ho
    · rw [Machine.alive_eq_some ho] at hf
      exact (hstep.finishing orderId hf).imp_left fun hold => ⟨_, hrun, hold⟩
    · rcases hstep.dlq with hsame | ⟨hold, hdone, m, hid, happended⟩
      · exact .inl hsame
      · refine .inr ⟨_, m, hrun, hid ▸ hold, fun process orderId ho => ?_, happended⟩
        rw [Machine.alive_eq_some ho]
        exact hdone orderId
  | _ => exact hother htallies fun _ _ => nofun

theorem crash_tallied {c : Config} (hc : Tallied c) {n : Nat} {process : Process}
    (hrun : c.running n = some process) :
    Tallied ⟨onCrash c.world process.task, Function.update c.running n none⟩ := by
  have htallies := hc.processes n process hrun
  obtain ⟨task, program⟩ := process
  cases task with
  | consume i d =>
    have hcounted : Counted (onCrash c.world (.consume i d)) := by
      refine hc.world.broker (fun d' hd' => ?_) rfl
      rcases hd' with hd' | hd'
      · rcases List.mem_cons.mp hd' with rfl | hd'
        · exact .inr htallies.1
        · exact .inl (.inl hd')
      · exact .inl (.inr hd')
    exact hc.update hcounted (fun _ _ h => h) (fun _ => nofun) (fun _ _ => nofun) (.inl rfl)
  | _ =>
    show Tallied ⟨c.world, Function.update c.running n none⟩
    refine hc.update hc.world (fun _ _ h => h) (fun _ ho => ?_) (fun _ _ ho => ?_) (.inl rfl) <;> cases ho

theorem checkout_counted (input : Checkout.CheckoutInput) (hw : Counted w) :
    Counted {w with db := (Checkout.checkout P input w.db).2.1} := by
  rcases Checkout.checkout_db P input w.db with hdb | ⟨_, _, _, _, _, _, hacc⟩
  · rw [hdb]
    exact hw
  · rw [hacc.others]
    refine ⟨hw.rows, hw.queued, hw.dead, hw.once, fun o ho hs => ?_⟩
    rw [(Table.insert?_eq_some hacc.order).2] at ho
    rcases List.mem_append.mp ho with ho | ho
    · exact hw.failed o ho hs
    · rw [List.mem_singleton.mp ho] at hs
      cases hs

/-- No event touches the attempts or the dead-letter queue. -/
theorem onEvent_counted {event : Event} (h : onEvent P w event = some w') (hw : Counted w) :
    Counted w' ∧ w'.db.integrationAttempts = w.db.integrationAttempts ∧ w'.broker.dlq = w.broker.dlq := by
  have hdlq := (onEvent_broker h "").2.1
  cases event with
  | checkout input =>
    cases h
    refine ⟨checkout_counted input hw, ?_, hdlq⟩
    rcases Checkout.checkout_db P input w.db with hdb | ⟨_, _, _, _, _, _, hacc⟩
    · exact congrArg Database.integrationAttempts hdb
    · show (Checkout.checkout P input w.db).2.1.integrationAttempts = _
      rw [hacc.others]
  | expireRetry i =>
    obtain ⟨broker, hexpire, rfl⟩ := Option.map_eq_some_iff.mp h
    obtain ⟨d, hd, rfl⟩ := Option.map_eq_some_iff.mp hexpire
    refine ⟨hw.broker (fun d' hd' => .inl ?_) rfl, rfl, rfl⟩
    rcases hd' with hd' | hd'
    · rcases List.mem_append.mp hd' with hd' | hd'
      · exact .inl hd'
      · exact .inr (List.mem_singleton.mp hd' ▸ List.mem_of_getElem? hd)
    · exact .inr (List.mem_of_mem_eraseIdx hd')
  | duplicate i =>
    obtain ⟨broker, hduplicate, rfl⟩ := Option.map_eq_some_iff.mp h
    obtain ⟨d, hd, rfl⟩ := Option.map_eq_some_iff.mp hduplicate
    refine ⟨hw.broker (fun d' hd' => .inl (hd'.imp_left fun hd' => ?_)) rfl, rfl, rfl⟩
    rcases List.mem_cons.mp hd' with rfl | hd'
    · exact List.mem_of_getElem? hd
    · exact hd'
  | _ =>
    cases h
    exact ⟨⟨hw.rows, hw.queued, hw.dead, hw.once, hw.failed⟩, rfl, rfl⟩

theorem event_tallied {c : Config} (hc : Tallied c) {event : Event} (h : onEvent P c.world event = some w) :
    Tallied ⟨w, c.running⟩ := by
  obtain ⟨hcounted, hattempts, hdlq⟩ := onEvent_counted h hc.world
  refine ⟨hcounted, fun n process hn => ?_, hc.unique, fun n process orderId hn hf => ?_⟩
  · exact (hc.processes n process hn).mono fun _ _ hr => hattempts ▸ hr
  · rw [show w.broker.dlq = c.world.broker.dlq from hdlq]
    exact hc.first n process orderId hn hf

theorem Tallied.step {c c' : Config} {action : Action} (hc : Tallied c)
    (h : (machine P).system.step c action = some c') : Tallied c' := by
  cases (machine P).step_cases h with
  | started _ hstart => exact onStart_tallied hc hstart
  | called hrun hres => exact call_tallied hc hrun hres
  | crashed hrun => exact crash_tallied hc hrun
  | moved henv => exact event_tallied hc henv

/-! ### Runs -/

/-- Nothing was ever delivered: no attempt of an order is recorded, no message has an
attempt number, and none is dead. -/
structure FirstDeliveries (w : World) : Prop where
  attempts : ∀ row ∈ w.db.integrationAttempts.rows, row.operation ≠ "billing"
  queued : ∀ d, d ∈ w.broker.billing ∨ d ∈ w.broker.retry → d.body.attempt = none
  dlq : w.broker.dlq = []
  orders : ∀ o ∈ w.db.orders.rows, o.status ≠ .erpFailed

theorem FirstDeliveries.counted (h : FirstDeliveries w) : Counted w := by
  have hnone : ∀ orderId n, ¬Recorded w.db.integrationAttempts orderId n := by
    intro orderId n hn
    obtain ⟨row, hrow⟩ := Option.isSome_iff_exists.mp hn
    obtain ⟨hmem, hnumber⟩ := Table.find?_eq_some.mp hrow
    exact h.attempts row hmem (Prod.mk.inj (Prod.mk.inj hnumber).2).1
  refine ⟨⟨fun _ _ hn => absurd hn (hnone _ _), fun _ _ hn => absurd hn (hnone _ _), fun row hrow hbilling => ?_⟩,
    fun d hd => due_first (h.queued d hd), ?_, ?_, fun o ho hs => absurd hs (h.orders o ho)⟩
  · exact absurd hbilling (h.attempts row hrow)
  · simp [h.dlq]
  · simp [h.dlq]

/-- Numbers from one on, each with the one before it, up to a bound. -/
theorem exists_last {R : Int → Prop} (bound : Nat) (hrange : ∀ n, R n → 1 ≤ n ∧ n ≤ bound)
    (hprevious : ∀ n, R n → n = 1 ∨ R (n - 1)) : ∃ k : Int, 0 ≤ k ∧ k ≤ bound ∧ ∀ n, R n ↔ 1 ≤ n ∧ n ≤ k := by
  induction bound with
  | zero => exact ⟨0, le_rfl, le_rfl, fun n => ⟨hrange n, fun h => by omega⟩⟩
  | succ bound ih =>
    by_cases hlast : R (bound + 1)
    · have hdown : ∀ j : Nat, (j : Int) ≤ bound → R (bound + 1 - j) := by
        intro j
        induction j with
        | zero => exact fun _ => by simpa using hlast
        | succ j ihj =>
          intro hj
          rcases hprevious _ (ihj (by omega)) with hone | hp
          · omega
          · rwa [show (bound : Int) + 1 - (j + 1 : Nat) = bound + 1 - j - 1 by omega]
      refine ⟨bound + 1, by omega, by omega, fun n => ⟨fun hn => by simpa using hrange n hn, fun hn => ?_⟩⟩
      have hreach := hdown (bound + 1 - n).toNat (by omega)
      rwa [show (bound : Int) + 1 - (bound + 1 - n).toNat = n by omega] at hreach
    · obtain ⟨k, hk0, hk, hall⟩ := ih fun n hn => by
        have hne : n ≠ bound + 1 := fun he => hlast (he ▸ hn)
        have := hrange n hn
        omega
      exact ⟨k, hk0, by omega, hall⟩

/-- An order with `k` billing attempts. -/
structure WellNumbered (w : World) (orderId : String) (k : Int) : Prop where
  bound : 0 ≤ k ∧ k ≤ 4
  rows : ∀ n, Recorded w.db.integrationAttempts orderId n ↔ 1 ≤ n ∧ n ≤ k
  status : ∀ row ∈ w.db.integrationAttempts.rows, row.orderId = orderId → row.operation = "billing" →
    row.status = if row.attemptNumber = 4 then .dlq else .failed
  queued : ∀ d, d ∈ w.broker.billing ∨ d ∈ w.broker.retry → d.body.orderId = orderId →
    currentAttempt d.body ≤ min (k + 1) 4
  dlq : (w.broker.dlq.filter fun d => d.body.orderId = orderId).length ≤ 1
  failed : ∀ o, w.db.orders.find? orderId = some o → o.status = .erpFailed → k = 4

theorem Counted.wellNumbered (hw : Counted w) (orderId : String) : ∃ k, WellNumbered w orderId k := by
  obtain ⟨k, hk0, hk, hrows⟩ := exists_last 4 (fun n hn => hw.rows.range orderId n hn) (hw.rows.previous orderId)
  refine ⟨k, ⟨hk0, hk⟩, hrows, fun row hrow hid hbilling => ?_, fun d hd hid => ?_, hw.once orderId,
    fun o ho hs => ?_⟩
  · have hnumber : Recorded w.db.integrationAttempts orderId row.attemptNumber :=
      Option.isSome_iff_exists.mpr ⟨row, Table.find?_eq_some.mpr ⟨hrow, by rw [← hid, ← hbilling]; rfl⟩⟩
    have hrange := hw.rows.range _ _ hnumber
    rw [hw.rows.status row hrow hbilling]
    split <;> split <;> first | rfl | omega
  · have hdue := hw.queued d hd
    have hlast := hdue.last
    rcases hdue.previous with hone | hp
    · omega
    · have := (hrows _).mp (hid ▸ hp)
      omega
  · have hfour := hw.failed o (Table.mem_of_find? ho) hs
    rw [Table.key_of_find? ho] at hfour
    have := (hrows 4).mp hfour
    omega

/-- In every state of every run from first deliveries on, the attempts of each order are
numbered one to `k`, none of its messages runs ahead of them, at most one is dead, and
an order that has failed for good has had four. -/
theorem attempts_numbered (P : Checkout.Platform) (w : World) (actions : List Action) (c : Config)
    (hw : FirstDeliveries w) (hr : (machine P).system.run (.idle w) actions = some c) :
    ∀ orderId, ∃ k, WellNumbered c.world orderId k := by
  have hidle : Tallied (.idle w) := by
    refine ⟨hw.counted, ?_, ?_, ?_⟩
    · intro _ _ hn
      cases hn
    · intro _ _ _ _ _ hn
      cases hn
    · intro _ _ _ hn
      cases hn
  have hc := Steps.System.run_invariant (fun _ _ _ hI hs => Tallied.step hI hs) hidle hr
  exact hc.world.wellNumbered

theorem twoProducts_first : FirstDeliveries twoProducts :=
  ⟨fun _ h => (by cases h), fun _ h => (by rcases h with h | h <;> cases h), rfl, fun _ h => (by cases h)⟩

/-- Three failed attempts, the second message delivered twice, and a fourth attempt
that leads to the dead-letter queue. -/
def diesAfterDuplicate : List Action :=
  orderPublished ++ failedAttempt 2 firstMessage ++ .environment (.duplicate 0) :: failedAttempt 3 (retried 2) ++
    .start 4 (.consume 0 (retried 2)) :: replies 4 [.answered, .failed "timeout", .answered, .answered] ++
    failedAttempt 5 (retried 3) ++
    .start 6 (.consume 0 (retried 4)) :: replies 6 [.answered, .failed "timeout", .answered, .answered, .answered, .answered]

theorem attempts_numbered_dead : ∃ c,
    (machine plainPlatform).system.run (.idle twoProducts) diesAfterDuplicate = some c ∧
      ∀ orderId, ∃ k, WellNumbered c.world orderId k :=
  have hrun := run_after (.idle twoProducts) diesAfterDuplicate (by decide +kernel)
  ⟨_, hrun, attempts_numbered plainPlatform twoProducts diesAfterDuplicate _ twoProducts_first hrun⟩

end CaseCellShop.Shop
