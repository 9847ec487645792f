import CaseCellShop.Store.Schema

/-! The single-row writes of the workers: the two updates of an order's status, the two
of an outbox event's, and the insert of a billing attempt. -/
namespace CaseCellShop

/-- `{ status: 'BILLED', erpInvoiceId, failureReason: null }` -/
def Order.billed (invoiceId : String) (o : Order) : Order :=
  {o with
    status := .billed
    erpInvoiceId := some invoiceId
    failureReason := none}

/-- `{ status: 'ERP_FAILED', failureReason }` -/
def Order.erpFailed (reason : String) (o : Order) : Order :=
  {o with
    status := .erpFailed
    failureReason := some reason}

/-- `{ status: 'PUBLISHED', publishedAt }` -/
def OutboxEvent.markPublished (e : OutboxEvent) : OutboxEvent := {e with status := .published}

/-- `{ status: 'FAILED', attempts: { increment: 1 }, lastError }` -/
def OutboxEvent.markFailed (lastError : String) (e : OutboxEvent) : OutboxEvent :=
  {e with
    status := .failed
    attempts := e.attempts + 1
    lastError := some lastError}

/-- `order.update` by id: the row it leaves, and the store. -/
def Database.updateOrder (id : String) (f : Order → Order) (hf : ∀ o, (f o).id = o.id) (db : Database) :
    Except DbError (Order × Database) :=
  match db.orders.find? id with
  | none => .error .p2025
  | some order => .ok (f order, {db with orders := db.orders.update id f hf})

/-- `outboxEvent.update` by id. -/
def Database.updateOutboxEvent (id : String) (f : OutboxEvent → OutboxEvent)
    (hf : ∀ e, (f e).id = e.id) (db : Database) : Except DbError Database :=
  match db.outboxEvents.find? id with
  | none => .error .p2025
  | some _ => .ok {db with outboxEvents := db.outboxEvents.update id f hf}

/-- `integrationAttempt.create`, under the unique index and the reference to the order. -/
def Database.createIntegrationAttempt (attempt : IntegrationAttempt) (db : Database) :
    Except DbError Database :=
  match db.orders.find? attempt.orderId with
  | none => .error .p2003
  | some _ =>
    match db.integrationAttempts.insert? attempt with
    | none => .error .p2002
    | some attempts => .ok {db with integrationAttempts := attempts}

theorem updateOrder_ok {id : String} {f : Order → Order} {hf : ∀ o, (f o).id = o.id}
    {db db' : Database} {order : Order} (h : db.updateOrder id f hf = .ok (order, db')) :
    (∃ o, db.orders.find? id = some o) ∧ db' = {db with orders := db.orders.update id f hf} := by
  unfold Database.updateOrder at h
  cases ho : db.orders.find? id with
  | none =>
    rw [ho] at h
    cases h
  | some o =>
    rw [ho] at h
    cases h
    exact ⟨⟨o, rfl⟩, rfl⟩

theorem updateOutboxEvent_ok {id : String} {f : OutboxEvent → OutboxEvent}
    {hf : ∀ e, (f e).id = e.id} {db db' : Database} (h : db.updateOutboxEvent id f hf = .ok db') :
    db' = {db with outboxEvents := db.outboxEvents.update id f hf} := by
  unfold Database.updateOutboxEvent at h
  split at h
  · cases h
  · cases h
    rfl

theorem createIntegrationAttempt_ok {attempt : IntegrationAttempt} {db db' : Database}
    (h : db.createIntegrationAttempt attempt = .ok db') :
    ∃ attempts, db.integrationAttempts.insert? attempt = some attempts ∧
      db' = {db with integrationAttempts := attempts} := by
  unfold Database.createIntegrationAttempt at h
  split at h
  · cases h
  · cases hins : db.integrationAttempts.insert? attempt with
    | none =>
      rw [hins] at h
      cases h
    | some attempts =>
      rw [hins] at h
      cases h
      exact ⟨attempts, rfl, rfl⟩

end CaseCellShop
