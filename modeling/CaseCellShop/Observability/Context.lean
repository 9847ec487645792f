import Mathlib.Data.List.Basic

/-! The request context and what reads it (`libs/observability/src`).

A context is an object that is shared by reference: the store of the running code
(`AsyncLocalStorage`) is a reference, `run` puts another in its place for a callback,
and `setOrderId` writes to the object the store refers to. -/
namespace CaseCellShop.Observability

structure ObservabilityContext where
  requestId : String
  correlationId : String
  traceId : String
  spanId : Option String
  parentSpanId : Option String
  orderId : Option String
  deriving DecidableEq, Repr

/-- `Partial<ObservabilityContext>` -/
structure ContextInput where
  requestId : Option String
  correlationId : Option String
  traceId : Option String
  spanId : Option String
  parentSpanId : Option String
  orderId : Option String

/-- What the process gets from outside: `randomUUID`, by how many were drawn before,
`SERVICE_NAME`, and the names of the HTTP statuses. -/
structure Runtime where
  uuid : Nat → String
  serviceName : Option String
  statusName : Nat → Option String

/-! ### Log lines -/

/-- A payload of the logger: the fields that it may overwrite, and the others. -/
structure LogPayload (ρ : Type) where
  requestId : Option String
  correlationId : Option String
  traceId : Option String
  orderId : Option String
  fields : ρ
  deriving DecidableEq, Repr

/-- `context.orderId` counts as present if it is a text that is not empty. -/
def present : Option String → Option String
  | some "" => none
  | orderId => orderId

/-- `LoggerService.withContext` -/
def withContext {ρ : Type} (context : Option ObservabilityContext) (payload : LogPayload ρ) : LogPayload ρ :=
  match context with
  | none => payload
  | some context =>
    {payload with
      requestId := some context.requestId
      correlationId := some context.correlationId
      traceId := some context.traceId
      orderId := (present context.orderId).or payload.orderId}

/-! ### Exceptions -/

structure ErrorInfo where
  message : String
  stack : String
  name : String
  deriving DecidableEq, Repr

inductive Message where
  | one (text : String)
  | many (texts : List String)
  deriving DecidableEq, Repr

/-- `HttpException.getResponse()` -/
inductive ExceptionResponse where
  | text (response : String)
  | object (message : Option Message) (error : Option String)
  deriving DecidableEq, Repr

/-- What is thrown: an `HttpException`, another `Error`, or any other value. -/
inductive Thrown where
  | http (status : Nat) (response : ExceptionResponse) (info : ErrorInfo)
  | error (info : ErrorInfo)
  | other
  deriving DecidableEq, Repr

/-- `error instanceof Error` -/
def Thrown.info : Thrown → Option ErrorInfo
  | .http _ _ info => some info
  | .error info => some info
  | .other => none

structure ErrorEnvelope where
  statusCode : Nat
  error : String
  message : Message
  requestId : Option String
  correlationId : Option String
  orderId : Option String
  path : String
  deriving DecidableEq, Repr

def Thrown.status : Thrown → Nat
  | .http status _ _ => status
  | _ => 500

def Thrown.response : Thrown → Option ExceptionResponse
  | .http _ response _ => some response
  | _ => none

/-- `HttpErrorFilter.catch`, in the context of the request. -/
def HttpErrorFilter.catch (R : Runtime) (context : Option ObservabilityContext) (exception : Thrown) (url : String) :
    ErrorEnvelope where
  statusCode := exception.status
  error :=
    match exception.response with
    | some (.object _ (some error)) => error
    | _ => (R.statusName exception.status).getD "Error"
  message :=
    match exception.response with
    | some (.object (some message) _) => message
    | _ =>
      match exception.info with
      | some info => .one info.message
      | none => .one "Internal server error"
  requestId := context.map ObservabilityContext.requestId
  correlationId := context.map ObservabilityContext.correlationId
  orderId := context.bind fun context => present context.orderId
  path := url

/-! ### The contexts of a process -/

structure SpanFinished where
  service : String
  operation : String
  failed : Bool
  spanId : String
  parentSpanId : Option String
  error : Option ErrorInfo
  deriving DecidableEq, Repr

/-- A line `span finished`. -/
abbrev SpanRecord := LogPayload SpanFinished

/-- The context objects by reference, how many UUIDs were drawn, and the records of
finished spans. -/
structure World where
  contexts : List ObservabilityContext
  drawn : Nat
  records : List SpanRecord

/-- `this.storage.getStore()` -/
def World.get (w : World) (store : Option Nat) : Option ObservabilityContext := store.bind fun ref => w.contexts[ref]?

/-- An id that is given, or a new one. -/
def World.orCreate (R : Runtime) (w : World) (kind : String) : Option String → String × World
  | some id => (id, w)
  | none => (kind ++ "_" ++ R.uuid w.drawn, {w with drawn := w.drawn + 1})

/-- `RequestContextService.create` -/
def World.create (R : Runtime) (w : World) (input : ContextInput) : ObservabilityContext × World :=
  let (requestId, w) := w.orCreate R "req" input.requestId
  let (correlationId, w) := w.orCreate R "corr" input.correlationId
  let (traceId, w) := w.orCreate R "trace" input.traceId
  (⟨requestId, correlationId, traceId, input.spanId, input.parentSpanId, input.orderId⟩, w)

/-- A new context object; its reference is the length of the list before. -/
def World.push (w : World) (context : ObservabilityContext) : World := {w with contexts := w.contexts ++ [context]}

def ObservabilityContext.withOrderId (id : String) (context : ObservabilityContext) : ObservabilityContext :=
  {context with orderId := some id}

/-- `RequestContextService.setOrderId` -/
def World.setOrderId (w : World) (store : Option Nat) (id : String) : World :=
  match store with
  | none => w
  | some ref => {w with contexts := w.contexts.modify ref (ObservabilityContext.withOrderId id)}

/-- `RequestContextMiddleware.use`: the reference under which the rest of the request
runs. -/
def RequestContextMiddleware.use (R : Runtime) (w : World) (correlationHeader : Option String) : Nat × World :=
  let (context, w) := w.create R ⟨none, correlationHeader, none, none, none, none⟩
  (w.contexts.length, w.push context)

/-! ### What stays -/

/-- Every context keeps what `setOrderId` does not write. -/
structure Extends (w w' : World) : Prop where
  length : w.contexts.length ≤ w'.contexts.length
  kept : ∀ (ref : Nat) (context : ObservabilityContext), w.contexts[ref]? = some context →
    ∃ orderId, w'.contexts[ref]? = some {context with orderId := orderId}

theorem Extends.refl (w : World) : Extends w w :=
  ⟨Nat.le_refl _, fun _ context h => ⟨context.orderId, h⟩⟩

theorem Extends.trans {u v w : World} (huv : Extends u v) (hvw : Extends v w) : Extends u w := by
  refine ⟨Nat.le_trans huv.length hvw.length, fun ref context h => ?_⟩
  obtain ⟨_, hv⟩ := huv.kept ref context h
  obtain ⟨orderId, hw⟩ := hvw.kept ref _ hv
  exact ⟨orderId, hw⟩

theorem Extends.of_contexts {u v w : World} (h : Extends u v) (hsame : w.contexts = v.contexts) : Extends u w := by
  constructor
  · rw [hsame]
    exact h.length
  · rw [hsame]
    exact h.kept

theorem extends_push (w : World) (context : ObservabilityContext) : Extends w (w.push context) := by
  refine ⟨by simp [World.push], fun ref other h => ⟨other.orderId, ?_⟩⟩
  have href := (List.getElem?_eq_some_iff.mp h).1
  rw [World.push, List.getElem?_append_left href]
  exact h

theorem extends_setOrderId (w : World) (store : Option Nat) (id : String) : Extends w (w.setOrderId store id) := by
  cases store with
  | none => exact Extends.refl w
  | some target =>
    refine ⟨by simp [World.setOrderId], fun ref context h => ?_⟩
    simp only [World.setOrderId, List.getElem?_modify, h]
    by_cases href : target = ref
    · exact ⟨some id, by simp [href, ObservabilityContext.withOrderId]⟩
    · exact ⟨context.orderId, by simp [href]⟩

end CaseCellShop.Observability
