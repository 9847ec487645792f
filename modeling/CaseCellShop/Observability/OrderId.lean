import CaseCellShop.Observability.Trace

/-! The order id and the context of the request.

A span runs its callback in a copy of the context it was started in, and `setOrderId`
writes to the copy: what is set under a span never reaches the context outside. -/
namespace CaseCellShop.Observability

variable {V : Type} {R : Runtime}

/-- Every order id that code sets in its own context, spans apart, is allowed. -/
def Sets (allowed : String → Prop) : Callback V → Prop
  | .done _ => True
  | .setOrderId id next => allowed id ∧ Sets allowed next
  | .startSpan _ _ next => ∀ result, Sets allowed (next result)
  | .spawn branch next => Sets allowed branch ∧ Sets allowed next

/-! ### Who writes to a context -/

/-- A thread sets only allowed ids where its store is `ref`. -/
structure Thread.Confined (allowed : String → Prop) (ref : Nat) (t : Thread V) : Prop where
  callback : t.store = some ref → Sets allowed t.callback
  frames : ∀ frame ∈ t.frames, frame.store = some ref → ∀ result, Sets allowed (frame.next result)

/-- The context is as it was, but for an allowed order id. -/
def OnlySets (allowed : String → Prop) (ref : Nat) (w w' : World) : Prop :=
  ∀ context, w.contexts[ref]? = some context → ∃ orderId, w'.contexts[ref]? = some {context with orderId := orderId} ∧
    (orderId = context.orderId ∨ ∃ id, allowed id ∧ orderId = some id)

variable {allowed : String → Prop} {ref : Nat}

theorem OnlySets.of_same {w w' : World}
    (h : ∀ context, w.contexts[ref]? = some context → w'.contexts[ref]? = some context) : OnlySets allowed ref w w' :=
  fun context hcontext => ⟨context.orderId, h context hcontext, .inl rfl⟩

theorem OnlySets.refl (w : World) : OnlySets allowed ref w w := .of_same fun _ h => h

theorem OnlySets.trans {u v w : World} (huv : OnlySets allowed ref u v) (hvw : OnlySets allowed ref v w) :
    OnlySets allowed ref u w := by
  intro context hcontext
  obtain ⟨_, hv, hfirst⟩ := huv context hcontext
  obtain ⟨orderId, hw, hsecond⟩ := hvw _ hv
  refine ⟨orderId, hw, ?_⟩
  obtain rfl | hallowed := hsecond
  · exact hfirst
  · exact .inr hallowed

theorem onlySets_setOrderId {w : World} {store : Option Nat} {id : String} (h : store = some ref → allowed id) :
    OnlySets allowed ref w (w.setOrderId store id) := by
  intro context hcontext
  cases store with
  | none => exact OnlySets.refl w context hcontext
  | some target =>
    simp only [World.setOrderId, List.getElem?_modify, hcontext]
    by_cases href : target = ref
    · exact ⟨some id, by simp [href, ObservabilityContext.withOrderId], .inr ⟨id, h (congrArg some href), rfl⟩⟩
    · exact ⟨context.orderId, by simp [href], .inl rfl⟩

/-- A step of a confined thread: its threads are confined, and `ref` gets allowed ids only. -/
theorem step_confined {w : World} {t : Thread V} (hvalid : ref < w.contexts.length) (h : t.Confined allowed ref) :
    (∀ t' ∈ (t.step R w).2, t'.Confined allowed ref) ∧ OnlySets allowed ref w (t.step R w).1 := by
  obtain ⟨store, callback, frames⟩ := t
  obtain ⟨hcallback, hframes⟩ := h
  cases callback with
  | done result =>
    cases frames with
    | nil => exact ⟨List.forall_mem_nil _, OnlySets.refl w⟩
    | cons frame frames =>
      have hsame := closeSpan_contexts R w frame result
      refine ⟨List.forall_mem_singleton.mpr ⟨fun hstore => hframes frame (.head _) hstore result,
        fun f hf => hframes f (.tail _ hf)⟩, .of_same fun context hcontext => ?_⟩
      simpa only [Thread.step, hsame] using hcontext
  | setOrderId id next =>
    exact ⟨List.forall_mem_singleton.mpr ⟨fun hstore => (hcallback hstore).2, hframes⟩,
      onlySets_setOrderId fun hstore => (hcallback hstore).1⟩
  | startSpan operation callback next =>
    obtain ⟨_, context, hopened⟩ := openSpan_opened R w store
    refine ⟨List.forall_mem_singleton.mpr ⟨fun hstore => ?_, List.forall_mem_cons.mpr ⟨hcallback, hframes⟩⟩, ?_⟩
    · -- the context of the span is a new object
      exact absurd (Option.some.inj hstore) (by omega)
    · refine .of_same fun other hother => ?_
      show (w.openSpan R store).2.contexts[ref]? = some other
      rw [hopened.contexts, List.getElem?_append_left hvalid]
      exact hother
  | spawn branch next =>
    refine ⟨List.forall_mem_cons.mpr ⟨⟨fun hstore => (hcallback hstore).2, hframes⟩, ?_⟩, OnlySets.refl w⟩
    exact List.forall_mem_singleton.mpr ⟨fun hstore => (hcallback hstore).1, List.forall_mem_nil _⟩

/-- A run of confined threads. -/
theorem run_confined {c c' : Config V} {actions : List Nat} (hvalid : ref < c.world.contexts.length)
    (h : ∀ t ∈ c.threads, t.Confined allowed ref) (hrun : (tracing R).run c actions = some c') :
    OnlySets allowed ref c.world c'.world := by
  have hkept : (ref < c'.world.contexts.length ∧ ∀ t ∈ c'.threads, t.Confined allowed ref) ∧
      OnlySets allowed ref c.world c'.world := by
    refine Steps.System.run_invariant (I := fun d : Config V => (ref < d.world.contexts.length ∧
      ∀ t ∈ d.threads, t.Confined allowed ref) ∧ OnlySets allowed ref c.world d.world) ?_
      ⟨⟨hvalid, h⟩, OnlySets.refl _⟩ hrun
    intro d i d' hd hstep
    obtain ⟨⟨hvalid, hthreads⟩, honly⟩ := hd
    obtain ⟨earlier, t, later, hold, hworld, hnew⟩ := step_cases hstep
    rw [hold, forall_mem_middle] at hthreads
    obtain ⟨hearlier, ht, hlater⟩ := hthreads
    obtain ⟨hconfined, hset⟩ := step_confined (R := R) hvalid ht
    have hlength := (step_extends R d.world t).length
    rw [hworld, hnew]
    refine ⟨⟨by omega, ?_⟩, honly.trans hset⟩
    exact List.forall_mem_append.mpr ⟨List.forall_mem_append.mpr ⟨hearlier, hconfined⟩, hlater⟩
  exact hkept.2

/-! ### The request -/

/-- What the callback of a span does around the next span. -/
structure Layer (V : Type) where
  operation : String
  around : Callback V → Callback V

/-- Code under spans inside one another, the outermost first. -/
def nest : List (Layer V) → Callback V → Callback V
  | [], callback => callback
  | layer :: layers, callback => spanOf layer.operation (layer.around (nest layers callback))

/-- The request's own context has the order id, and so have the lines that are logged in
it and the error envelope. -/
def OrderReaches (R : Runtime) (w : World) (ref : Nat) (id : String) : Prop :=
  ∃ context, w.get (some ref) = some context ∧ context.orderId = some id ∧
    (∀ (ρ : Type) (payload : LogPayload ρ), (withContext (some context) payload).orderId = some id) ∧
    ∀ exception url, (HttpErrorFilter.catch R (some context) exception url).orderId = some id

theorem present_some {id : String} (h : id ≠ "") : present (some id) = some id := by
  unfold present
  split
  · rename_i he
    exact absurd (Option.some.inj he) h
  · rfl

theorem orderReaches_iff {w : World} {context : ObservabilityContext} {id : String}
    (h : w.get (some ref) = some context) : OrderReaches R w ref id ↔ context.orderId = some id ∧ id ≠ "" := by
  constructor
  · rintro ⟨context', hcontext, horder, hlines, _⟩
    obtain rfl : context' = context := Option.some.inj (hcontext.symm.trans h)
    refine ⟨horder, fun hempty => ?_⟩
    have hline := hlines Unit ⟨none, none, none, none, ()⟩
    subst hempty
    simp [withContext, horder, present] at hline
  · rintro ⟨horder, hne⟩
    refine ⟨context, h, horder, fun ρ payload => ?_, fun exception url => ?_⟩
    · simp [withContext, horder, present_some hne]
    · simp [HttpErrorFilter.catch, horder, present_some hne]

/-- The order id a request has once its spans have ended. -/
theorem orderId_after {w : World} {context : ObservabilityContext} (hcontext : w.get (some ref) = some context)
    (layers : List (Layer V)) {id : String} {next : Callback V} (hnext : Sets (· = id) next) {actions : List Nat}
    {c : Config V}
    (hrun : (tracing R).run (.start w (some ref) (nest layers (.setOrderId id next))) actions = some c)
    (hend : c.threads = []) :
    ∃ context', c.world.get (some ref) = some context' ∧
      context'.orderId = if layers.isEmpty then some id else context.orderId := by
  have hvalid := (List.getElem?_eq_some_iff.mp hcontext).1
  cases layers with
  | nil =>
    cases actions with
    | nil =>
      obtain rfl := Option.some.inj hrun
      cases hend
    | cons i rest =>
      rw [Steps.System.run_cons, Option.bind_eq_some_iff] at hrun
      obtain ⟨d, hstep, hrest⟩ := hrun
      obtain ⟨earlier, t, later, hold, hworld, hnew⟩ := step_cases hstep
      obtain ⟨rfl, rfl, rfl⟩ : earlier = [] ∧ t = ⟨some ref, .setOrderId id next, []⟩ ∧ later = [] := by
        simpa [Config.start, nest, List.singleton_eq_append_iff] using hold
      have hset : d.world.contexts[ref]? = some {context with orderId := some id} := by
        have hbefore : w.contexts[ref]? = some context := hcontext
        simp [hworld, Thread.step, World.setOrderId, Config.start, hbefore, ObservabilityContext.withOrderId]
      have hthreads : ∀ t ∈ d.threads, t.Confined (· = id) ref := by
        rw [hnew]
        exact List.forall_mem_singleton.mpr ⟨fun _ => hnext, List.forall_mem_nil _⟩
      obtain ⟨orderId, hc, hkept⟩ := run_confined (List.getElem?_eq_some_iff.mp hset).1 hthreads hrest _ hset
      refine ⟨_, hc, ?_⟩
      obtain hsame | ⟨_, rfl, hsame⟩ := hkept <;> exact hsame
  | cons layer layers =>
    have hconfined : ∀ t ∈ (Config.start w (some ref) (nest (layer :: layers) (.setOrderId id next))).threads,
        t.Confined (fun _ => False) ref :=
      List.forall_mem_singleton.mpr ⟨fun _ _ => trivial, List.forall_mem_nil _⟩
    obtain ⟨orderId, hc, hsame | ⟨_, hfalse, _⟩⟩ := run_confined hvalid hconfined hrun context hcontext
    · exact ⟨_, hc, hsame⟩
    · exact hfalse.elim

/-- The order id reaches the request exactly if no span is in between, or the request
had it already. -/
theorem orderId_reaches_iff (R : Runtime) (w : World) (ref : Nat) (context : ObservabilityContext)
    (hcontext : w.get (some ref) = some context) (layers : List (Layer V)) (id : String) (next : Callback V)
    (hnext : Sets (· = id) next) (actions : List Nat) (c : Config V)
    (hrun : (tracing R).run (.start w (some ref) (nest layers (.setOrderId id next))) actions = some c)
    (hend : c.threads = []) :
    OrderReaches R c.world ref id ↔ (layers = [] ∨ context.orderId = some id) ∧ id ≠ "" := by
  obtain ⟨context', hc, horder⟩ := orderId_after hcontext layers hnext hrun hend
  rw [orderReaches_iff hc, horder]
  cases layers <;> simp

/-! ### A checkout -/

/-- Ids that are numbered. -/
def numbered : Runtime := ⟨fun n => String.ofList (List.replicate n 'i'), none, fun _ => none⟩

/-- A request that just came in. -/
def requested : World := (RequestContextMiddleware.use numbered ⟨[], 0, []⟩ none).2

/-- The transaction of a checkout that places its order and then fails, under its span. -/
def failedCheckout (layers : List (Layer Unit)) : Callback Unit :=
  nest layers (.setOrderId "o1" (.done (.error (.error ⟨"timeout", "", "Error"⟩))))

def underSpan : List (Layer Unit) := [⟨"checkout.process", fun callback => callback⟩]

theorem orderId_lost_under_span :
    ¬∀ (R : Runtime) (w : World) (ref : Nat) (context : ObservabilityContext), w.get (some ref) = some context →
      ∀ (layers : List (Layer Unit)) (id : String) (result : Except Thrown Unit) (actions : List Nat)
        (c : Config Unit),
        (tracing R).run (.start w (some ref) (nest layers (.setOrderId id (.done result)))) actions = some c →
        c.threads = [] → OrderReaches R c.world ref id := by
  intro h
  have hrun := (tracing numbered).run_after (.start requested (some 0) (failedCheckout underSpan)) [0, 0, 0, 0]
    (by decide)
  obtain ⟨context, hcontext, horder, _⟩ := h numbered requested 0 _ rfl underSpan "o1" _ _ _ hrun (by decide)
  have hnone : (((tracing numbered).after (.start requested (some 0) (failedCheckout underSpan))
      [0, 0, 0, 0]).world.get (some 0)).bind ObservabilityContext.orderId = none := by decide
  rw [hcontext] at hnone
  cases horder.symm.trans hnone

/-- A request whose order id was set before its spans. -/
def placed : World := requested.setOrderId (some 0) "o1"

theorem orderId_kept_under_span :
    OrderReaches numbered
      ((tracing numbered).after (.start placed (some 0) (failedCheckout underSpan)) [0, 0, 0, 0]).world 0 "o1" := by
  have hrun := (tracing numbered).run_after (.start placed (some 0) (failedCheckout underSpan)) [0, 0, 0, 0] (by decide)
  exact (orderId_reaches_iff numbered placed 0 _ rfl underSpan "o1" (.done _) trivial _ _ hrun (by decide)).mpr
    ⟨.inr rfl, by decide⟩

end CaseCellShop.Observability
