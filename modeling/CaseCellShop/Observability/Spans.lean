import Mathlib.Algebra.Order.Group.Multiset
import Mathlib.Tactic.Abel
import CaseCellShop.Observability.OrderId

/-! Spans as one trace.

What the threads still have to record is determined by their code and by the contexts
that are there (`Emits`): a step backwards adds what it recorded. From this each span has
one record, linked to the span around it, and the records share their ids, unless the
outermost span was started in no context and failed. -/
namespace CaseCellShop.Observability

variable {V : Type} {R : Runtime}

/-! ### The records of code -/

structure TraceIds where
  requestId : String
  correlationId : String
  traceId : String
  deriving DecidableEq

def ObservabilityContext.ids (context : ObservabilityContext) : TraceIds :=
  ⟨context.requestId, context.correlationId, context.traceId⟩

/-- What a span takes from the context it is started in. -/
structure Parent where
  ids : TraceIds
  spanId : Option String

def World.parent (w : World) (store : Option Nat) : Option Parent :=
  (w.get store).map fun context => ⟨context.ids, context.spanId⟩

/-- The ids of a context, or none without one. -/
def Carries (ids : Option TraceIds) (record : SpanRecord) : Prop :=
  record.requestId = ids.map TraceIds.requestId ∧ record.correlationId = ids.map TraceIds.correlationId ∧
    record.traceId = ids.map TraceIds.traceId

/-- The record of a span with the given ids that was started in `parent`. -/
structure Recorded (parent : Option Parent) (own : TraceIds) (operation : String) (result : Except Thrown V)
    (record : SpanRecord) : Prop where
  operation : record.fields.operation = operation
  failed : record.fields.failed = !result.isOk
  parentSpanId : record.fields.parentSpanId = parent.bind Parent.spanId
  ids : Carries (if result.isOk then some own else parent.map Parent.ids) record

/-- The records of code that runs in `parent`: one for each span it starts, in the
context its result puts it in. -/
def Traced (parent : Option Parent) : Callback V → Multiset SpanRecord → Prop
  | .done _, records => records = 0
  | .setOrderId _ next, records => Traced parent next records
  | .startSpan operation callback next, records => ∃ own record inner rest,
      records = record ::ₘ (inner + rest) ∧ (∀ p, parent = some p → own = p.ids) ∧
      Recorded parent own operation (outcome callback) record ∧
      Traced (some ⟨own, some record.fields.spanId⟩) callback inner ∧ Traced parent (next (outcome callback)) rest
  | .spawn branch next, records => ∃ first second,
      records = first + second ∧ Traced parent next first ∧ Traced parent branch second

/-- The records that follow a result, through the spans that wait for it. -/
def Awaited (w : World) : Except Thrown V → List (Frame V) → Multiset SpanRecord → Prop
  | _, [], records => records = 0
  | result, frame :: frames, records => ∃ own record inner rest, records = record ::ₘ (inner + rest) ∧
      w.parent (some frame.span) = some ⟨own, some frame.spanId⟩ ∧
      Recorded (w.parent frame.store) own frame.operation result record ∧ record.fields.spanId = frame.spanId ∧
      Traced (w.parent frame.store) (frame.next result) inner ∧ Awaited w (outcome (frame.next result)) frames rest

/-- The records a thread still makes. -/
def Emits (w : World) (t : Thread V) (records : Multiset SpanRecord) : Prop :=
  ∃ inner rest, records = inner + rest ∧ Traced (w.parent t.store) t.callback inner ∧
    Awaited w (outcome t.callback) t.frames rest

def EmitsAll (w : World) : List (Thread V) → Multiset SpanRecord → Prop
  | [], records => records = 0
  | t :: ts, records => ∃ first second, records = first + second ∧ Emits w t first ∧ EmitsAll w ts second

theorem emitsAll_append {w : World} {ts ts' : List (Thread V)} {records : Multiset SpanRecord} :
    EmitsAll w (ts ++ ts') records ↔
      ∃ first second, records = first + second ∧ EmitsAll w ts first ∧ EmitsAll w ts' second := by
  induction ts generalizing records with
  | nil => simp [EmitsAll]
  | cons t ts ih =>
    simp only [List.cons_append, EmitsAll, ih]
    constructor
    · rintro ⟨a, _, rfl, ha, b, c, rfl, hb, hc⟩
      exact ⟨a + b, c, (add_assoc a b c).symm, ⟨a, b, rfl, ha, hb⟩, hc⟩
    · rintro ⟨_, c, rfl, ⟨a, b, rfl, ha, hb⟩, hc⟩
      exact ⟨a, b + c, add_assoc a b c, ha, b, c, rfl, hb, hc⟩

/-! ### References that are valid -/

/-- The store is none, or a context that is there. -/
def World.Valid (w : World) (store : Option Nat) : Prop := ∀ ref, store = some ref → ref < w.contexts.length

/-- The context of a waiting span is there and has its id. -/
structure Frame.Valid (w : World) (frame : Frame V) : Prop where
  store : w.Valid frame.store
  span : ∃ own, w.parent (some frame.span) = some ⟨own, some frame.spanId⟩

structure Thread.Valid (w : World) (t : Thread V) : Prop where
  store : w.Valid t.store
  frames : ∀ frame ∈ t.frames, frame.Valid w

theorem World.valid_none (w : World) : w.Valid none := by simp [World.Valid]

theorem World.valid_some {w : World} {ref : Nat} : w.Valid (some ref) ↔ ref < w.contexts.length := by
  simp [World.Valid]

theorem World.valid_of_parent {w : World} {store : Option Nat} {p : Parent} (h : w.parent store = some p) :
    w.Valid store := by
  intro ref hstore
  subst hstore
  obtain ⟨context, hcontext, _⟩ := Option.map_eq_some_iff.mp h
  exact (List.getElem?_eq_some_iff.mp hcontext).1

theorem World.Valid.extends {w w' : World} {store : Option Nat} (h : w.Valid store) (hw : Extends w w') :
    w'.Valid store := fun ref hstore => Nat.lt_of_lt_of_le (h ref hstore) hw.length

/-- What is taken from a context stays what it was. -/
theorem Extends.parent {w w' : World} (hw : Extends w w') {store : Option Nat} (h : w.Valid store) :
    w'.parent store = w.parent store := by
  cases store with
  | none => rfl
  | some ref =>
    have hget := List.getElem?_eq_getElem (h ref rfl)
    obtain ⟨orderId, hkept⟩ := hw.kept ref _ hget
    simp [World.parent, World.get, hget, hkept, ObservabilityContext.ids]

theorem Thread.Valid.extends {w w' : World} {t : Thread V} (h : t.Valid w) (hw : Extends w w') : t.Valid w' := by
  refine ⟨h.store.extends hw, fun frame hframe => ?_⟩
  obtain ⟨hstore, own, hown⟩ := h.frames frame hframe
  exact ⟨hstore.extends hw, own, (hw.parent (World.valid_of_parent hown)).trans hown⟩

theorem Awaited.extends {w w' : World} (hw : Extends w w') {frames : List (Frame V)}
    (hvalid : ∀ frame ∈ frames, frame.Valid w) {result : Except Thrown V} {records : Multiset SpanRecord}
    (h : Awaited w' result frames records) : Awaited w result frames records := by
  induction frames generalizing result records with
  | nil => exact h
  | cons frame frames ih =>
    obtain ⟨hframe, hframes⟩ := List.forall_mem_cons.mp hvalid
    obtain ⟨own, record, inner, rest, hrecords, hown, hrecorded, hid, htraced, hrest⟩ := h
    obtain ⟨_, hspan⟩ := hframe.span
    rw [hw.parent (World.valid_of_parent hspan)] at hown
    rw [hw.parent hframe.store] at hrecorded htraced
    exact ⟨own, record, inner, rest, hrecords, hown, hrecorded, hid, htraced, ih hframes hrest⟩

theorem Emits.extends {w w' : World} (hw : Extends w w') {t : Thread V} (hvalid : t.Valid w)
    {records : Multiset SpanRecord} (h : Emits w' t records) : Emits w t records := by
  obtain ⟨inner, rest, hrecords, htraced, hawaited⟩ := h
  rw [hw.parent hvalid.store] at htraced
  exact ⟨inner, rest, hrecords, htraced, hawaited.extends hw hvalid.frames⟩

theorem EmitsAll.extends {w w' : World} (hw : Extends w w') {ts : List (Thread V)}
    (hvalid : ∀ t ∈ ts, t.Valid w) {records : Multiset SpanRecord} (h : EmitsAll w' ts records) :
    EmitsAll w ts records := by
  induction ts generalizing records with
  | nil => exact h
  | cons t ts ih =>
    obtain ⟨ht, hts⟩ := List.forall_mem_cons.mp hvalid
    obtain ⟨first, second, hrecords, hfirst, hsecond⟩ := h
    exact ⟨first, second, hrecords, hfirst.extends hw ht, ih hts hsecond⟩

theorem World.parent_get {w : World} {store : Option Nat} {context : ObservabilityContext}
    (h : w.get store = some context) : w.parent store = some ⟨context.ids, context.spanId⟩ := by
  simp [World.parent, h]

/-- A span that was just opened, in terms of what it took. -/
theorem OpenedSpan.parent {w w' : World} {store : Option Nat} {context : ObservabilityContext}
    (h : OpenedSpan R w store context w') :
    w'.parent (some w.contexts.length) = some ⟨context.ids, some ("span" ++ "_" ++ R.uuid w.drawn)⟩ ∧
      ∀ p, w.parent store = some p → context.ids = p.ids := by
  constructor
  · have hget : w'.get (some w.contexts.length) = some context := by simp [World.get, h.contexts]
    rw [World.parent_get hget, h.opened.spanId]
  · intro p hp
    obtain ⟨source, hsource, rfl⟩ := Option.map_eq_some_iff.mp hp
    obtain ⟨hrequest, hcorrelation, htrace⟩ := h.opened.shared source hsource
    simp [ObservabilityContext.ids, hrequest, hcorrelation, htrace]

/-- A step of a valid thread leaves valid threads. -/
theorem step_valid {w : World} {t : Thread V} (h : t.Valid w) :
    ∀ t' ∈ (t.step R w).2, t'.Valid (t.step R w).1 := by
  have hextends := step_extends R w t
  obtain ⟨store, callback, frames⟩ := t
  have hall := h.extends hextends
  obtain ⟨hstore, hframes⟩ := hall
  cases callback with
  | done result =>
    cases frames with
    | nil => exact List.forall_mem_nil _
    | cons frame frames =>
      obtain ⟨hframe, hrest⟩ := List.forall_mem_cons.mp hframes
      exact List.forall_mem_singleton.mpr ⟨hframe.store, hrest⟩
  | setOrderId id next => exact List.forall_mem_singleton.mpr ⟨hstore, hframes⟩
  | startSpan operation callback next =>
    obtain ⟨_, context, hopened⟩ := openSpan_opened R w store
    have hspan := hopened.parent.1
    exact List.forall_mem_singleton.mpr
      ⟨World.valid_of_parent hspan, List.forall_mem_cons.mpr ⟨⟨hstore, _, hspan⟩, hframes⟩⟩
  | spawn branch next =>
    exact List.forall_mem_cons.mpr ⟨⟨hstore, hframes⟩, List.forall_mem_singleton.mpr ⟨hstore, List.forall_mem_nil _⟩⟩

/-! ### A step backwards -/

/-- What is logged carries the ids of the context it is logged in. -/
theorem withContext_carries (w : World) (store : Option Nat) (payload : Option ObservabilityContext → SpanRecord)
    (hpayload : Carries none (payload none)) :
    Carries ((w.parent store).map Parent.ids) (withContext (w.get store) (payload (w.get store))) := by
  unfold World.parent
  cases w.get store with
  | none => exact hpayload
  | some context => exact ⟨rfl, rfl, rfl⟩

theorem withContext_fields (context : Option ObservabilityContext) (payload : SpanRecord) :
    (withContext context payload).fields = payload.fields := by
  cases context <;> rfl

theorem closeSpan_recorded (w : World) (frame : Frame V) (result : Except Thrown V) :
    ∃ record, (w.closeSpan R frame result).records = w.records ++ [record] ∧
      (w.closeSpan R frame result).drawn = w.drawn ∧ record.fields.spanId = frame.spanId ∧
      ∀ own, w.parent (some frame.span) = some ⟨own, some frame.spanId⟩ →
        Recorded (w.parent frame.store) own frame.operation result record := by
  have hspan : (w.get frame.store).bind ObservabilityContext.spanId = (w.parent frame.store).bind Parent.spanId := by
    unfold World.parent
    cases w.get frame.store <;> rfl
  cases result with
  | ok value =>
    have hcarries := withContext_carries w (some frame.span) (fun context => finishPayload R context frame.operation
      false frame.spanId ((w.get frame.store).bind ObservabilityContext.spanId) none) ⟨rfl, rfl, rfl⟩
    refine ⟨_, rfl, rfl, congrArg _ (withContext_fields _ _), fun own hown => ?_⟩
    rw [hown] at hcarries
    exact ⟨congrArg _ (withContext_fields _ _), congrArg _ (withContext_fields _ _),
      (congrArg _ (withContext_fields _ _)).trans hspan, hcarries⟩
  | error e =>
    have hcarries := withContext_carries w frame.store (fun context => finishPayload R context frame.operation
      true frame.spanId ((w.get frame.store).bind ObservabilityContext.spanId) (some e)) ⟨rfl, rfl, rfl⟩
    refine ⟨_, rfl, rfl, congrArg _ (withContext_fields _ _), fun own _ => ?_⟩
    exact ⟨congrArg _ (withContext_fields _ _), congrArg _ (withContext_fields _ _),
      (congrArg _ (withContext_fields _ _)).trans hspan, hcarries⟩

/-- What a thread makes is what its step records and what it leaves makes. -/
theorem step_emits {w : World} {t : Thread V} (hvalid : t.Valid w) {records : Multiset SpanRecord}
    (h : EmitsAll (t.step R w).1 (t.step R w).2 records) :
    ∃ new, (t.step R w).1.records = w.records ++ new ∧ Emits w t (↑new + records) := by
  have hextends := step_extends R w t
  obtain ⟨store, callback, frames⟩ := t
  obtain ⟨hstore, hframes⟩ := hvalid
  cases callback with
  | done result =>
    cases frames with
    | nil =>
      obtain rfl : records = 0 := h
      exact ⟨[], (List.append_nil _).symm, 0, 0, rfl, rfl, rfl⟩
    | cons frame frames =>
      obtain ⟨hframe, hrest⟩ := List.forall_mem_cons.mp hframes
      obtain ⟨own, hown⟩ := hframe.span
      obtain ⟨record, hrecord, _, hid, hrecorded⟩ := closeSpan_recorded (R := R) w frame result
      obtain ⟨_, _, rfl, hemits, rfl⟩ := h
      obtain ⟨inner, rest, rfl, htraced, hawaited⟩ := hemits.extends hextends ⟨hframe.store, hrest⟩
      refine ⟨[record], hrecord, 0, record ::ₘ (inner + rest), by simp, rfl, ?_⟩
      exact ⟨own, record, inner, rest, rfl, hown, hrecorded own hown, hid, htraced, hawaited⟩
  | setOrderId id next =>
    obtain ⟨_, _, rfl, hemits, rfl⟩ := h
    obtain ⟨inner, rest, rfl, htraced, hawaited⟩ := hemits.extends hextends ⟨hstore, hframes⟩
    refine ⟨[], ?_, inner, rest, by simp, htraced, hawaited⟩
    cases store <;> exact (List.append_nil _).symm
  | startSpan operation callback next =>
    obtain ⟨_, context, hopened⟩ := openSpan_opened R w store
    obtain ⟨hspan, hshared⟩ := hopened.parent
    obtain ⟨_, _, rfl, ⟨nested, _, rfl, hcallback, own, record, inner, rest, rfl, hown, hrecorded, hid, hnext, hrest⟩,
      rfl⟩ := h
    have hparent : (w.openSpan R store).2.parent store = w.parent store := hextends.parent hstore
    obtain rfl : own = context.ids := congrArg Parent.ids (Option.some.inj (hown.symm.trans hspan))
    change Traced ((w.openSpan R store).2.parent (some w.contexts.length)) callback nested at hcallback
    change Recorded ((w.openSpan R store).2.parent store) _ _ _ _ at hrecorded
    change Traced ((w.openSpan R store).2.parent store) _ _ at hnext
    have hinside : (w.openSpan R store).2.parent (some w.contexts.length) =
        some ⟨context.ids, some record.fields.spanId⟩ := hid ▸ hown
    rw [hinside] at hcallback
    rw [hparent] at hrecorded hnext
    refine ⟨[], hopened.records.trans (List.append_nil _).symm, record ::ₘ (nested + inner), rest, ?_,
      ⟨context.ids, record, nested, inner, rfl, hshared, hrecorded, hcallback, hnext⟩, hrest.extends hextends hframes⟩
    simp [add_assoc]
  | spawn branch next =>
    obtain ⟨_, _, rfl, hnext, _, _, rfl, hbranch, rfl⟩ := h
    obtain ⟨inner, rest, rfl, htraced, hawaited⟩ := hnext
    obtain ⟨inner', _, rfl, htraced', rfl⟩ := hbranch
    refine ⟨[], (List.append_nil _).symm, inner + inner', rest, ?_, ⟨inner, inner', rfl, htraced, htraced'⟩, hawaited⟩
    simp [add_right_comm]

/-! ### Runs -/

theorem threads_valid {c c' : Config V} {i : Nat} (hvalid : ∀ t ∈ c.threads, t.Valid c.world)
    (h : (tracing R).step c i = some c') : ∀ t ∈ c'.threads, t.Valid c'.world := by
  obtain ⟨earlier, t, later, hold, hworld, hnew⟩ := step_cases h
  have hextends := step_extends R c.world t
  rw [hold, forall_mem_middle] at hvalid
  obtain ⟨hearlier, ht, hlater⟩ := hvalid
  rw [hnew, hworld]
  refine List.forall_mem_append.mpr ⟨List.forall_mem_append.mpr ⟨?_, step_valid ht⟩, ?_⟩
  · exact fun t' ht' => (hearlier t' ht').extends hextends
  · exact fun t' ht' => (hlater t' ht').extends hextends

/-- What is recorded until every thread has ended is what the threads make. -/
theorem run_emits {c c' : Config V} {actions : List Nat} (hvalid : ∀ t ∈ c.threads, t.Valid c.world)
    (hrun : (tracing R).run c actions = some c') (hend : c'.threads = []) :
    ∃ new, c'.world.records = c.world.records ++ new ∧ EmitsAll c.world c.threads ↑new := by
  induction actions generalizing c with
  | nil =>
    obtain rfl := Option.some.inj hrun
    refine ⟨[], (List.append_nil _).symm, ?_⟩
    rw [hend]
    rfl
  | cons i rest ih =>
    rw [Steps.System.run_cons, Option.bind_eq_some_iff] at hrun
    obtain ⟨d, hstep, hrest⟩ := hrun
    obtain ⟨new, hrecords, hemits⟩ := ih (threads_valid hvalid hstep) hrest
    obtain ⟨earlier, t, later, hold, hworld, hthreads⟩ := step_cases hstep
    have hextends := step_extends R c.world t
    rw [hold] at hvalid ⊢
    obtain ⟨hearlier, ht, hlater⟩ := forall_mem_middle.mp hvalid
    rw [hthreads, hworld, emitsAll_append] at hemits
    obtain ⟨_, third, hsum, hfirst, hthird⟩ := hemits
    obtain ⟨first, second, rfl, hfirst, hsecond⟩ := emitsAll_append.mp hfirst
    obtain ⟨made, hmade, hthread⟩ := step_emits ht hsecond
    refine ⟨made ++ new, by rw [hrecords, hworld, hmade, List.append_assoc], emitsAll_append.mpr ?_⟩
    refine ⟨first, ↑made + second + third, ?_, hfirst.extends hextends hearlier, _, third, rfl, hthread,
      hthird.extends hextends hlater⟩
    rw [← Multiset.coe_add, hsum]
    abel

theorem start_valid {w : World} {store : Option Nat} (h : w.Valid store) (callback : Callback V) :
    ∀ t ∈ (Config.start w store callback).threads, t.Valid w :=
  List.forall_mem_singleton.mpr ⟨h, List.forall_mem_nil _⟩

/-- The records of code that ran to its end. -/
theorem run_traced {w : World} {store : Option Nat} (hstore : w.Valid store) {callback : Callback V}
    {actions : List Nat} {c : Config V} (hrun : (tracing R).run (.start w store callback) actions = some c)
    (hend : c.threads = []) :
    ∃ new, c.world.records = w.records ++ new ∧ Traced (w.parent store) callback ↑new := by
  obtain ⟨new, hrecords, hemits⟩ := run_emits (start_valid hstore callback) hrun hend
  obtain ⟨_, _, hsum, ⟨inner, _, rfl, htraced, rfl⟩, rfl⟩ := hemits
  refine ⟨new, hrecords, ?_⟩
  rw [hsum, add_zero, add_zero]
  exact htraced

/-! ### Fresh ids -/

/-- The ids of the spans that wait. -/
def openIds (threads : List (Thread V)) : Multiset String := ↑(threads.flatMap fun t => t.frames.map Frame.spanId)

theorem openIds_append (ts ts' : List (Thread V)) : openIds (ts ++ ts') = openIds ts + openIds ts' := by
  simp [openIds, List.flatMap_append]

def recordIds (records : List SpanRecord) : Multiset String := ↑(records.map fun r => r.fields.spanId)

theorem recordIds_append (records records' : List SpanRecord) :
    recordIds (records ++ records') = recordIds records + recordIds records' := by
  simp [recordIds]

/-- A step moves an id from the waiting spans to the records, or adds the next one. -/
theorem step_ids (w : World) (t : Thread V) :
    ∃ new, (t.step R w).1.records = w.records ++ new ∧
      (recordIds new + openIds (t.step R w).2 = openIds [t] ∧ (t.step R w).1.drawn = w.drawn ∨
        recordIds new + openIds (t.step R w).2 = ("span" ++ "_" ++ R.uuid w.drawn) ::ₘ openIds [t] ∧
          w.drawn < (t.step R w).1.drawn) := by
  obtain ⟨store, callback, frames⟩ := t
  cases callback with
  | done result =>
    cases frames with
    | nil => exact ⟨[], (List.append_nil _).symm, .inl ⟨rfl, rfl⟩⟩
    | cons frame frames =>
      obtain ⟨record, hrecord, hdrawn, hid, _⟩ := closeSpan_recorded (R := R) w frame result
      exact ⟨[record], hrecord, .inl ⟨by simp [recordIds, openIds, Thread.step, hid], hdrawn⟩⟩
  | setOrderId id next =>
    cases store <;> exact ⟨[], (List.append_nil _).symm, .inl ⟨rfl, rfl⟩⟩
  | startSpan operation callback next =>
    obtain ⟨hid, context, hopened⟩ := openSpan_opened R w store
    refine ⟨[], hopened.records.trans (List.append_nil _).symm, .inr ⟨?_, hopened.drawn⟩⟩
    simp [recordIds, openIds, Thread.step, hid]
  | spawn branch next => exact ⟨[], (List.append_nil _).symm, .inl ⟨by simp [recordIds, openIds, Thread.step], rfl⟩⟩

/-- The ids of the spans since `base` are distinct, and were drawn. -/
def Fresh (R : Runtime) (base : List SpanRecord) (c : Config V) : Prop :=
  ∃ new, c.world.records = base ++ new ∧ (recordIds new + openIds c.threads).Nodup ∧
    ∀ id ∈ recordIds new + openIds c.threads, ∃ n < c.world.drawn, id = "span" ++ "_" ++ R.uuid n

theorem step_fresh (huuid : Function.Injective R.uuid) {base : List SpanRecord} {c c' : Config V} {i : Nat}
    (h : Fresh R base c) (hstep : (tracing R).step c i = some c') : Fresh R base c' := by
  obtain ⟨new, hrecords, hnodup, hdrawn⟩ := h
  obtain ⟨earlier, t, later, hold, hworld, hthreads⟩ := step_cases hstep
  obtain ⟨made, hmade, hids⟩ := step_ids (R := R) c.world t
  refine ⟨new ++ made, by rw [hworld, hmade, hrecords, List.append_assoc], ?_⟩
  have hbefore : recordIds new + openIds c.threads =
      openIds [t] + (recordIds new + openIds earlier + openIds later) := by
    rw [hold, ← List.singleton_append, openIds_append, openIds_append]
    abel
  have hafter : recordIds (new ++ made) + openIds c'.threads =
      (recordIds made + openIds (t.step R c.world).2) + (recordIds new + openIds earlier + openIds later) := by
    rw [hthreads, openIds_append, openIds_append, recordIds_append]
    abel
  obtain ⟨hsame, hcount⟩ | ⟨hadded, hcount⟩ := hids
  · rw [hafter, hsame, ← hbefore, hworld, hcount]
    exact ⟨hnodup, hdrawn⟩
  · rw [hafter, hadded, Multiset.cons_add, ← hbefore, hworld]
    constructor
    · refine Multiset.nodup_cons.mpr ⟨fun hmem => ?_, hnodup⟩
      obtain ⟨n, hn, he⟩ := hdrawn _ hmem
      have := huuid (String.append_right_inj _ |>.mp he)
      omega
    · intro id hid
      obtain rfl | hid := Multiset.mem_cons.mp hid
      · exact ⟨c.world.drawn, hcount, rfl⟩
      · obtain ⟨n, hn, he⟩ := hdrawn id hid
        exact ⟨n, by omega, he⟩

/-- The spans of code that ran to its end have distinct ids. -/
theorem run_nodup (huuid : Function.Injective R.uuid) {w : World} {store : Option Nat} {callback : Callback V}
    {actions : List Nat} {c : Config V} (hrun : (tracing R).run (.start w store callback) actions = some c)
    (hend : c.threads = []) {new : List SpanRecord} (hnew : c.world.records = w.records ++ new) :
    (new.map fun r => r.fields.spanId).Nodup := by
  have hstart : Fresh R w.records (.start w store callback) :=
    ⟨[], (List.append_nil _).symm, Multiset.nodup_zero, fun id hid => absurd hid (Multiset.notMem_zero id)⟩
  obtain ⟨made, hmade, hnodup, _⟩ : Fresh R w.records c :=
    Steps.System.run_invariant (fun _ _ _ => step_fresh huuid) hstart hrun
  obtain rfl := List.append_cancel_left (hmade.symm.trans hnew)
  rw [hend] at hnodup
  exact (Multiset.nodup_add.mp hnodup).1

/-! ### One trace -/

/-- One record for each span that code starts, with its result, in the span it is in. -/
def Linked (spanId : Option String) : Callback V → Multiset SpanRecord → Prop
  | .done _, records => records = 0
  | .setOrderId _ next, records => Linked spanId next records
  | .startSpan operation callback next, records => ∃ record inner rest, records = record ::ₘ (inner + rest) ∧
      record.fields.operation = operation ∧ record.fields.failed = !(outcome callback).isOk ∧
      record.fields.parentSpanId = spanId ∧ Linked (some record.fields.spanId) callback inner ∧
      Linked spanId (next (outcome callback)) rest
  | .spawn branch next, records => ∃ first second,
      records = first + second ∧ Linked spanId next first ∧ Linked spanId branch second

/-- The records are the spans of the code, each with an id of its own and all with the
same ids of the trace. -/
structure WellLinked (spanId : Option String) (code : Callback V) (records : List SpanRecord) : Prop where
  linked : Linked spanId code ↑records
  distinct : (records.map fun r => r.fields.spanId).Nodup
  shared : ∃ ids, ∀ record ∈ records, Carries (some ids) record

theorem Traced.linked {parent : Option Parent} {callback : Callback V} {records : Multiset SpanRecord}
    (h : Traced parent callback records) : Linked (parent.bind Parent.spanId) callback records := by
  induction callback generalizing parent records with
  | done result => exact h
  | setOrderId id next ih => exact ih h
  | startSpan operation callback next ihcallback ihnext =>
    obtain ⟨own, record, inner, rest, hrecords, _, hrecorded, hinner, hrest⟩ := h
    exact ⟨record, inner, rest, hrecords, hrecorded.operation, hrecorded.failed, hrecorded.parentSpanId,
      ihcallback hinner, ihnext _ hrest⟩
  | spawn branch next ihbranch ihnext =>
    obtain ⟨first, second, hrecords, hfirst, hsecond⟩ := h
    exact ⟨first, second, hrecords, ihnext hfirst, ihbranch hsecond⟩

/-- In a context every record carries its ids, of failed spans too. -/
theorem Traced.carries {p : Parent} {callback : Callback V} {records : Multiset SpanRecord}
    (h : Traced (some p) callback records) : ∀ record ∈ records, Carries (some p.ids) record := by
  induction callback generalizing p records with
  | done result =>
    obtain rfl : records = 0 := h
    exact fun record hrecord => absurd hrecord (Multiset.notMem_zero record)
  | setOrderId id next ih => exact ih h
  | startSpan operation callback next ihcallback ihnext =>
    obtain ⟨own, record, inner, rest, rfl, hown, hrecorded, hinner, hrest⟩ := h
    obtain rfl := hown p rfl
    have hrecord : Carries (some p.ids) record := by simpa using hrecorded.ids
    intro other hother
    obtain rfl | hother := Multiset.mem_cons.mp hother
    · exact hrecord
    · exact (Multiset.mem_add.mp hother).elim (ihcallback hinner other) (ihnext _ hrest other)
  | spawn branch next ihbranch ihnext =>
    obtain ⟨first, second, rfl, hfirst, hsecond⟩ := h
    intro other hother
    exact (Multiset.mem_add.mp hother).elim (ihnext hfirst other) (ihbranch hsecond other)

/-- The spans under one span carry the same ids, if that one was started in a context or
did not fail. -/
theorem Traced.shared_iff {parent : Option Parent} {operation : String} {callback : Callback V}
    {records : Multiset SpanRecord} (h : Traced parent (spanOf operation callback) records) :
    (∃ ids, ∀ record ∈ records, Carries (some ids) record) ↔ parent.isSome ∨ (outcome callback).isOk := by
  cases parent with
  | some p => exact ⟨fun _ => .inl rfl, fun _ => ⟨p.ids, h.carries⟩⟩
  | none =>
    obtain ⟨own, record, inner, _, rfl, _, hrecorded, hinner, rfl⟩ := h
    have hids := hrecorded.ids
    cases hresult : outcome callback with
    | ok value =>
      rw [hresult] at hids
      refine ⟨fun _ => .inr rfl, fun _ => ⟨own, fun other hother => ?_⟩⟩
      obtain rfl | hother := Multiset.mem_cons.mp hother
      · exact hids
      · exact hinner.carries other (by simpa using hother)
    | error e =>
      rw [hresult] at hids
      constructor
      · rintro ⟨ids, hall⟩
        have hnone := hids.1.symm.trans (hall record (Multiset.mem_cons_self _ _)).1
        cases hnone
      · rintro (h | h) <;> cases h

theorem parent_isSome {w : World} {store : Option Nat} (h : w.Valid store) :
    (w.parent store).isSome = store.isSome := by
  cases store with
  | none => rfl
  | some ref => simp [World.parent, World.get, h ref rfl]

/-- The spans of a span that ran to its end are one trace, exactly if it was started in a
context or did not fail. -/
theorem well_linked_iff (R : Runtime) (huuid : Function.Injective R.uuid) (w : World) (store : Option Nat)
    (hstore : w.Valid store) (operation : String) (callback : Callback V) (actions : List Nat) (c : Config V)
    (hrun : (tracing R).run (.start w store (spanOf operation callback)) actions = some c) (hend : c.threads = []) :
    ∃ new, c.world.records = w.records ++ new ∧
      (WellLinked ((w.parent store).bind Parent.spanId) (spanOf operation callback) new ↔
        store.isSome ∨ (outcome callback).isOk) := by
  obtain ⟨new, hnew, htraced⟩ := run_traced hstore hrun hend
  refine ⟨new, hnew, ?_⟩
  rw [← parent_isSome hstore, ← htraced.shared_iff]
  exact ⟨fun h => h.shared, fun hshared => ⟨htraced.linked, run_nodup huuid hrun hend hnew, hshared⟩⟩

/-! ### A worker -/

theorem numbered_injective : Function.Injective numbered.uuid := by
  intro n m h
  have hlength : (numbered.uuid n).toList.length = (numbered.uuid m).toList.length := by rw [h]
  simpa [numbered] using hlength

/-- A billing whose request to the ERP fails. -/
def failedBilling : Callback Unit := .done (.error (.error ⟨"fetch failed", "", "TypeError"⟩))

theorem failed_billing_not_linked :
    ¬∀ (R : Runtime), Function.Injective R.uuid → ∀ (w : World) (store : Option Nat), w.Valid store →
      ∀ (operation : String) (callback : Callback Unit) (actions : List Nat) (c : Config Unit),
        (tracing R).run (.start w store (spanOf operation callback)) actions = some c → c.threads = [] →
        ∃ new, c.world.records = w.records ++ new ∧
          WellLinked ((w.parent store).bind Parent.spanId) (spanOf operation callback) new := by
  intro h
  have hrun := (tracing numbered).run_after (.start ⟨[], 0, []⟩ none (spanOf "fake_erp.billing" failedBilling))
    [0, 0, 0] (by decide)
  obtain ⟨new, hnew, hlinked⟩ := h numbered numbered_injective _ none (World.valid_none _) _ _ _ _ hrun (by decide)
  obtain ⟨ids, hshared⟩ := hlinked.shared
  have htrace : ((tracing numbered).after (.start ⟨[], 0, []⟩ none (spanOf "fake_erp.billing" failedBilling))
      [0, 0, 0]).world.records.map LogPayload.traceId = [none] := by decide
  rw [hnew] at htrace
  obtain ⟨record, hrecord, hnone⟩ := List.mem_map.mp (htrace ▸ List.mem_singleton_self none)
  cases hnone.symm.trans (hshared record hrecord).2.2

/-- A request under which a span fails inside one that catches it. -/
def caughtSpan : Callback Unit :=
  .startSpan "product_db.query" (.done (.error .other)) fun _ => .done (.ok ())

theorem caught_span_linked : ∃ new,
    ((tracing numbered).after (.start requested (some 0) (spanOf "checkout.process" caughtSpan))
      [0, 0, 0, 0, 0]).world.records = [] ++ new ∧
      WellLinked none (spanOf "checkout.process" caughtSpan) new := by
  have hrun := (tracing numbered).run_after (.start requested (some 0) (spanOf "checkout.process" caughtSpan))
    [0, 0, 0, 0, 0] (by decide)
  obtain ⟨new, hnew, hiff⟩ := well_linked_iff numbered numbered_injective requested (some 0)
    (World.valid_some.mpr (by decide)) _ _ _ _ hrun (by decide)
  exact ⟨new, hnew, hiff.mpr (.inl rfl)⟩

end CaseCellShop.Observability
