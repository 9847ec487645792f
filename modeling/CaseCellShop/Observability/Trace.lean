import CaseCellShop.Library.Steps
import CaseCellShop.Observability.Context

/-! Spans (`libs/observability/src/trace.service.ts`).

What runs under a span is any code: it sets the order id, starts spans and catches what
they throw, and starts branches that it does not wait for. A thread is such code with the
spans that wait for it; threads take steps in any order, a step being what runs between
two points where others may run. -/
namespace CaseCellShop.Observability

/-! ### The service -/

/-- `spanContext` of `startSpan` -/
def World.spanContext (R : Runtime) (w : World) (parent : Option ObservabilityContext) (spanId : String) :
    ObservabilityContext × World :=
  let (requestId, w) := w.orCreate R "req" (parent.map ObservabilityContext.requestId)
  let (correlationId, w) := w.orCreate R "corr" (parent.map ObservabilityContext.correlationId)
  let (traceId, w) := w.orCreate R "trace" (parent.map ObservabilityContext.traceId)
  ({ requestId
     correlationId
     traceId
     spanId := some spanId
     parentSpanId := parent.bind ObservabilityContext.spanId
     orderId := parent.bind ObservabilityContext.orderId }, w)

/-- `startSpan` up to the callback: the span's id, with its context as the newest object. -/
def World.openSpan (R : Runtime) (w : World) (store : Option Nat) : String × World :=
  let parent := w.get store
  let (spanId, w) := w.orCreate R "span" none
  let (context, w) := w.spanContext R parent spanId
  (spanId, w.push context)

def finishPayload (R : Runtime) (context : Option ObservabilityContext) (operation : String) (failed : Bool)
    (spanId : String) (parentSpanId : Option String) (error : Option Thrown) : SpanRecord where
  requestId := context.map ObservabilityContext.requestId
  correlationId := context.map ObservabilityContext.correlationId
  traceId := context.map ObservabilityContext.traceId
  orderId := context.bind ObservabilityContext.orderId
  fields :=
    { service := R.serviceName.getD "casecellshop"
      operation
      failed
      spanId
      parentSpanId
      error := error.bind Thrown.info }

/-- `finish` -/
def World.finish (R : Runtime) (w : World) (store : Option Nat) (operation : String) (failed : Bool)
    (spanId : String) (parentSpanId : Option String) (error : Option Thrown) : World :=
  let context := w.get store
  {w with records := w.records ++
    [withContext context (finishPayload R context operation failed spanId parentSpanId error)]}

/-! ### Code under spans -/

/-- The code of a callback. What it does with the result of a span is up to `next`, so
that it may catch; a branch runs beside the code that started it, in the same context. -/
inductive Callback (V : Type) where
  | done (result : Except Thrown V)
  | setOrderId (id : String) (next : Callback V)
  | startSpan (operation : String) (callback : Callback V) (next : Except Thrown V → Callback V)
  | spawn (branch next : Callback V)

variable {V : Type}

/-- A span whose callback runs: where it was started, its context and id, and what waits
for it. -/
structure Frame (V : Type) where
  store : Option Nat
  span : Nat
  spanId : String
  operation : String
  next : Except Thrown V → Callback V

structure Thread (V : Type) where
  store : Option Nat
  callback : Callback V
  frames : List (Frame V)

/-- `startSpan` from the end of the callback on: a success is recorded in the context of
the span, an exception in the one the span was started in. -/
def World.closeSpan (R : Runtime) (w : World) (frame : Frame V) (result : Except Thrown V) : World :=
  let parentSpanId := (w.get frame.store).bind ObservabilityContext.spanId
  match result with
  | .ok _ => w.finish R (some frame.span) frame.operation false frame.spanId parentSpanId none
  | .error e => w.finish R frame.store frame.operation true frame.spanId parentSpanId (some e)

/-- The next step of a thread, and the threads it leaves. -/
def Thread.step (R : Runtime) (w : World) (t : Thread V) : World × List (Thread V) :=
  match t.callback with
  | .done result =>
    match t.frames with
    | [] => (w, [])
    | frame :: frames => (w.closeSpan R frame result, [⟨frame.store, frame.next result, frames⟩])
  | .setOrderId id next => (w.setOrderId t.store id, [⟨t.store, next, t.frames⟩])
  | .startSpan operation callback next =>
    let frame : Frame V := ⟨t.store, w.contexts.length, (w.openSpan R t.store).1, operation, next⟩
    ((w.openSpan R t.store).2, [⟨some w.contexts.length, callback, frame :: t.frames⟩])
  | .spawn branch next => (w, [⟨t.store, next, t.frames⟩, ⟨t.store, branch, []⟩])

structure Config (V : Type) where
  world : World
  threads : List (Thread V)

/-- An action is the thread that takes its next step. -/
def tracing (R : Runtime) : Steps.System (Config V) Nat where
  step c i :=
    match c.threads[i]? with
    | none => none
    | some t =>
      some ⟨(t.step R c.world).1, c.threads.take i ++ (t.step R c.world).2 ++ c.threads.drop (i + 1)⟩

/-- Code that starts under a store, with no span open. -/
def Config.start (w : World) (store : Option Nat) (callback : Callback V) : Config V := ⟨w, [⟨store, callback, []⟩]⟩

/-- Code that runs under a span in the same store. -/
def spanOf (operation : String) (callback : Callback V) : Callback V := .startSpan operation callback .done

/-! ### What a step can do -/

theorem step_cases {R : Runtime} {c c' : Config V} {i : Nat} (h : (tracing R).step c i = some c') :
    ∃ earlier t later, c.threads = earlier ++ t :: later ∧ c'.world = (t.step R c.world).1 ∧
      c'.threads = earlier ++ (t.step R c.world).2 ++ later := by
  simp only [tracing] at h
  cases ht : c.threads[i]? with
  | none =>
    rw [ht] at h
    cases h
  | some t =>
    rw [ht] at h
    obtain ⟨hi, hget⟩ := List.getElem?_eq_some_iff.mp ht
    refine ⟨c.threads.take i, t, c.threads.drop (i + 1), ?_, ?_, ?_⟩
    · rw [← hget, ← List.drop_eq_getElem_cons hi, List.take_append_drop]
    · rw [← Option.some.inj h]
    · rw [← Option.some.inj h]

theorem forall_mem_middle {α : Type} {P : α → Prop} {earlier later : List α} {a : α} :
    (∀ x ∈ earlier ++ a :: later, P x) ↔ (∀ x ∈ earlier, P x) ∧ P a ∧ ∀ x ∈ later, P x := by
  rw [List.forall_mem_append, List.forall_mem_cons]

/-- The thread after `earlier` takes its step. -/
theorem step_at (R : Runtime) (w : World) (earlier rest : List (Thread V)) (t : Thread V) :
    (tracing R).step ⟨w, earlier ++ t :: rest⟩ earlier.length =
      some ⟨(t.step R w).1, earlier ++ (t.step R w).2 ++ rest⟩ := by
  simp [tracing]

/-- Drawing ids changes nothing but their number. -/
structure Drawn (w w' : World) : Prop where
  contexts : w'.contexts = w.contexts
  records : w'.records = w.records
  drawn : w.drawn ≤ w'.drawn

theorem Drawn.trans {u v w : World} (huv : Drawn u v) (hvw : Drawn v w) : Drawn u w :=
  ⟨hvw.contexts.trans huv.contexts, hvw.records.trans huv.records, Nat.le_trans huv.drawn hvw.drawn⟩

theorem orCreate_drawn (R : Runtime) (w : World) (kind : String) (given : Option String) :
    Drawn w (w.orCreate R kind given).2 := by
  cases given with
  | none => exact ⟨rfl, rfl, Nat.le_succ _⟩
  | some id => exact ⟨rfl, rfl, Nat.le_refl _⟩

theorem spanContext_drawn (R : Runtime) (w : World) (parent : Option ObservabilityContext) (spanId : String) :
    Drawn w (w.spanContext R parent spanId).2 :=
  ((orCreate_drawn R w "req" _).trans (orCreate_drawn R _ "corr" _)).trans (orCreate_drawn R _ "trace" _)

/-- The context of a span in terms of the one it was started in. -/
structure Opened (parent : Option ObservabilityContext) (spanId : String) (context : ObservabilityContext) :
    Prop where
  spanId : context.spanId = some spanId
  parentSpanId : context.parentSpanId = parent.bind ObservabilityContext.spanId
  orderId : context.orderId = parent.bind ObservabilityContext.orderId
  shared : ∀ p, parent = some p →
    context.requestId = p.requestId ∧ context.correlationId = p.correlationId ∧ context.traceId = p.traceId

theorem spanContext_opened (R : Runtime) (w : World) (parent : Option ObservabilityContext) (spanId : String) :
    Opened parent spanId (w.spanContext R parent spanId).1 := by
  refine ⟨rfl, rfl, rfl, fun p hp => ?_⟩
  subst hp
  exact ⟨rfl, rfl, rfl⟩

/-- What opening a span does. -/
structure OpenedSpan (R : Runtime) (w : World) (store : Option Nat) (context : ObservabilityContext) (w' : World) :
    Prop where
  opened : Opened (w.get store) ("span" ++ "_" ++ R.uuid w.drawn) context
  contexts : w'.contexts = w.contexts ++ [context]
  records : w'.records = w.records
  drawn : w.drawn < w'.drawn

theorem openSpan_opened (R : Runtime) (w : World) (store : Option Nat) :
    (w.openSpan R store).1 = "span" ++ "_" ++ R.uuid w.drawn ∧
      ∃ context, OpenedSpan R w store context (w.openSpan R store).2 := by
  have hdrawn := spanContext_drawn R (w.orCreate R "span" none).2 (w.get store) (w.orCreate R "span" none).1
  refine ⟨rfl, _, spanContext_opened R (w.orCreate R "span" none).2 (w.get store) _, ?_, hdrawn.records, hdrawn.drawn⟩
  exact congrArg (· ++ [_]) hdrawn.contexts

theorem OpenedSpan.extends {R : Runtime} {w w' : World} {store : Option Nat} {context : ObservabilityContext}
    (h : OpenedSpan R w store context w') : Extends w w' := (extends_push w context).of_contexts h.contexts

theorem closeSpan_contexts (R : Runtime) (w : World) (frame : Frame V) (result : Except Thrown V) :
    (w.closeSpan R frame result).contexts = w.contexts := by
  cases result <;> rfl

theorem step_extends (R : Runtime) (w : World) (t : Thread V) : Extends w (t.step R w).1 := by
  obtain ⟨store, callback, frames⟩ := t
  cases callback with
  | done result =>
    cases frames with
    | nil => exact Extends.refl w
    | cons frame frames => exact (Extends.refl w).of_contexts (closeSpan_contexts R w frame result)
  | setOrderId id next => exact extends_setOrderId w store id
  | startSpan operation callback next =>
    obtain ⟨_, context, hopened⟩ := openSpan_opened R w store
    exact hopened.extends
  | spawn branch next => exact Extends.refl w

/-! ### Code runs to its end -/

/-- What code ends with, whatever is recorded of it. -/
def outcome : Callback V → Except Thrown V
  | .done result => result
  | .setOrderId _ next => outcome next
  | .startSpan _ callback next => outcome (next (outcome callback))
  | .spawn _ next => outcome next

theorem reaches_step {R : Runtime} {w w' : World} {t : Thread V} {earlier ts rest threads : List (Thread V)}
    {c : Config V} (h : t.step R w = (w', ts)) (hthreads : earlier ++ ts ++ rest = threads)
    (hc : (tracing R).Reaches ⟨w', threads⟩ c) : (tracing R).Reaches ⟨w, earlier ++ t :: rest⟩ c := by
  have hstep := step_at R w earlier rest t
  rw [h, hthreads] at hstep
  exact .trans (.step hstep) hc

/-- Some run takes a thread to the end of its code, its branches included, and nothing
else. -/
theorem reaches_outcome (R : Runtime) (callback : Callback V) (w : World) (store : Option Nat)
    (frames : List (Frame V)) (earlier rest : List (Thread V)) :
    ∃ w', (tracing R).Reaches ⟨w, earlier ++ ⟨store, callback, frames⟩ :: rest⟩
      ⟨w', earlier ++ ⟨store, .done (outcome callback), frames⟩ :: rest⟩ := by
  induction callback generalizing w store frames earlier rest with
  | done result => exact ⟨w, .refl _ _⟩
  | setOrderId id next ih =>
    obtain ⟨w', h⟩ := ih (w.setOrderId store id) store frames earlier rest
    exact ⟨w', reaches_step rfl (by simp) h⟩
  | startSpan operation callback next ihcallback ihnext =>
    let frame : Frame V := ⟨store, w.contexts.length, (w.openSpan R store).1, operation, next⟩
    obtain ⟨w₁, h₁⟩ := ihcallback (w.openSpan R store).2 (some w.contexts.length) (frame :: frames) earlier rest
    obtain ⟨w₂, h₂⟩ := ihnext (outcome callback) (w₁.closeSpan R frame (outcome callback)) store frames earlier rest
    exact ⟨w₂, reaches_step rfl (by simp [frame]) (h₁.trans (reaches_step rfl (by simp [frame]) h₂))⟩
  | spawn branch next ihbranch ihnext =>
    obtain ⟨w₁, h₁⟩ := ihbranch w store [] (earlier ++ [⟨store, next, frames⟩]) rest
    obtain ⟨w₂, h₂⟩ := ihnext w₁ store frames earlier rest
    exact ⟨w₂, reaches_step rfl (by simp) (h₁.trans (reaches_step rfl (by simp) h₂))⟩

/-- Code that starts can run to its end. -/
theorem reaches_end (R : Runtime) (w : World) (store : Option Nat) (callback : Callback V) :
    ∃ w', (tracing R).Reaches (.start w store callback) ⟨w', []⟩ := by
  obtain ⟨w', h⟩ := reaches_outcome R callback w store [] [] []
  exact ⟨w', h.trans (reaches_step rfl rfl (.refl _ _))⟩

end CaseCellShop.Observability
