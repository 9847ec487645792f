import CaseCellShop.Library.Protocol
import CaseCellShop.Library.Refinement
import CaseCellShop.Queue.Channel

/-! How the order worker begins to consume
(`apps/order-worker/src/worker-runner.service.ts`).

At bootstrap and at every heartbeat the worker registers its consumer unless it counts as
started. What makes it count as started is the answer to `consume`, and nothing takes that
back: a worker whose channel was closed stays started, and deaf, until its process ends. -/
namespace CaseCellShop.Startup
open Program Queue

inductive Call where
  /-- `if (this.consumerStarted)` -/
  | consumerStarted
  | channel (q : Channel.Call)

@[reducible] def Answer : Call → Type
  | .consumerStarted => Bool
  | .channel q => Channel.Answer q

abbrev Runner (α : Type) := Program Call Answer String α

abbrev request (q : Call) : Runner (Answer q) := Program.call q

/-- What the runner asks of `RabbitService`. -/
def rabbit {α : Type} (service : Channel.Service α) : Runner α :=
  mapCalls (Q := Channel.Call) (S := Answer) Call.channel service

/-- A failed startup is only logged; the next heartbeat tries again. -/
def ensureBillingConsumerStarted : Runner Unit := do
  let consumerStarted : Bool ← request .consumerStarted
  if consumerStarted then return ()
  handle
    (do
      rabbit Channel.ensureTopology
      rabbit (Channel.consumeJson "orders.billing.q"))
    fun _ => pure ()

inductive Task where
  | ensureBillingConsumerStarted
  | publishToRetry (payload : String) (options : Channel.PublishOptions)
  | publishToDlq (payload : String) (options : Channel.PublishOptions)

def Task.program : Task → Runner Unit
  | .ensureBillingConsumerStarted => Startup.ensureBillingConsumerStarted
  | .publishToRetry payload options => rabbit (Channel.publishToRetry payload options)
  | .publishToDlq payload options => rabbit (Channel.publishToDlq payload options)

structure World where
  channel : Channel.World
  /-- `this.consumerStarted` -/
  consumerStarted : Bool
  /-- The channels a consumer was registered on. -/
  consumers : List Nat

def World.fresh : World := ⟨.fresh, false, []⟩

/-- What a call of the channel leaves behind. `this.consumerStarted = true` is done in the
turn in which `consume` is answered. -/
def World.called (w : World) : (q : Channel.Call) → Channel.World × Except String (Channel.Answer q) → World
  | .consume channel _ _, (world, .ok _) => ⟨world, true, channel :: w.consumers⟩
  | _, (world, _) => {w with channel := world}

def perform (w : World) : (q : Call) → Channel.Reply → World × Except String (Answer q)
  | .consumerStarted, _ => (w, .ok w.consumerStarted)
  | .channel q, reply => (w.called q (Channel.perform w.channel q reply), (Channel.perform w.channel q reply).2)

/-- One process of the worker; the heartbeat does not wait for a startup that is underway. -/
def machine : Machine World Task Channel.Reply Channel.Event Call String Answer where
  perform := perform
  start w task := some (w, task.program)
  crash w _ := w
  environment w event := (Channel.onEvent w.channel event).map fun channel => {w with channel := channel}

abbrev Config := Machine.Config World Task Call String Answer

abbrev Action := Machine.Action Task Channel.Reply Channel.Event

/-! ### The phases of a startup -/

inductive Phase where
  | starting
  | registering
  | finished

/-- A consumer is registered by a startup that has found none. -/
def phases : Protocol Phase Call String Answer where
  allows
    | .registering, _ => True
    | _, .channel (.consume _ _ _) => False
    | _, _ => True
  after
    | .starting, .consumerStarted, .ok false => .registering
    | .starting, .consumerStarted, .ok true => .finished
    | .registering, .channel (.consume _ _ _), .ok _ => .finished
    | s, _, _ => s

/-- The calls of the channel that register no consumer. -/
def Unregistering : Channel.Call → Prop
  | .consume _ _ _ => False
  | _ => True

abbrev Follows {α : Type} (p : Runner α) (s : Phase) : Prop := phases.Follows (fun _ _ => True) p s

theorem neutral_of_unregistering {q : Channel.Call} (hq : Unregistering q) (s : Phase) :
    phases.Neutral s (.channel q) := by
  cases q with
  | consume => exact hq.elim
  | _ => cases s <;> exact ⟨trivial, fun _ => rfl⟩

theorem rabbit_calls {α : Type} {service : Channel.Service α} (h : service.OnlyCalls Unregistering) (s : Phase) :
    (rabbit service).OnlyCalls (phases.Neutral s) :=
  onlyCalls_mapCalls (f := Call.channel) (onlyCalls_mono h fun _ hq => neutral_of_unregistering hq s)

theorem getChannel_calls : Channel.getChannel.OnlyCalls Unregistering := by
  refine onlyCalls_bind (onlyCalls_call trivial) fun kept => ?_
  cases kept with
  | channel channel => trivial
  | connecting attempt => exact onlyCalls_bind (onlyCalls_call trivial) fun _ => onlyCalls_call trivial

theorem ensureTopology_calls : Channel.ensureTopology.OnlyCalls Unregistering := by
  refine onlyCalls_bind getChannel_calls fun channel => ?_
  refine onlyCalls_bind (onlyCalls_call trivial) fun _ => ?_
  refine onlyCalls_bind (onlyCalls_call trivial) fun _ => ?_
  refine onlyCalls_bind (onlyCalls_call trivial) fun _ => ?_
  exact onlyCalls_bind (onlyCalls_call trivial) fun _ => onlyCalls_call trivial

theorem publishTo_calls (queue payload : String) (options : Channel.PublishOptions) :
    (Channel.publishTo queue payload options).OnlyCalls Unregistering :=
  onlyCalls_bind ensureTopology_calls fun _ => onlyCalls_bind getChannel_calls fun _ => onlyCalls_call trivial

/-- The consumer is registered last. -/
theorem registering_follows : Follows (do
    rabbit Channel.ensureTopology
    rabbit (Channel.consumeJson "orders.billing.q")) .registering := by
  apply Protocol.follows_bind
  refine Protocol.follows_mono (Protocol.follows_neutral (rabbit_calls ensureTopology_calls _)) fun result s hs => ?_
  subst hs
  cases result with
  | error e => trivial
  | ok u =>
    show Follows (rabbit (Channel.getChannel >>= fun channel => Channel.request (.consume channel _ false))) .registering
    rw [rabbit, mapCalls_bind]
    apply Protocol.follows_bind
    refine Protocol.follows_mono (Protocol.follows_neutral (rabbit_calls getChannel_calls _)) fun result s hs => ?_
    subst hs
    cases result with
    | error e => trivial
    | ok channel => exact ⟨trivial, fun _ => trivial⟩

theorem startup_follows : Follows ensureBillingConsumerStarted .starting := by
  refine ⟨trivial, fun r => ?_⟩
  match r with
  | .error e => trivial
  | .ok true => trivial
  | .ok false =>
    apply Protocol.follows_handle
    exact Protocol.follows_mono registering_follows fun result s _ => by cases result <;> trivial

/-- The other tasks register nothing. -/
theorem program_follows (task : Task) (h : task ≠ .ensureBillingConsumerStarted) :
    Follows task.program .finished := by
  cases task with
  | ensureBillingConsumerStarted => exact absurd rfl h
  | publishToRetry payload options =>
    have hcalls := rabbit_calls (publishTo_calls "orders.billing.retry.q" payload options) .finished
    exact Protocol.follows_mono (Protocol.follows_neutral hcalls) fun _ _ _ => trivial
  | publishToDlq payload options =>
    have hcalls := rabbit_calls (publishTo_calls "orders.billing.dlq" payload options) .finished
    exact Protocol.follows_mono (Protocol.follows_neutral hcalls) fun _ _ _ => trivial

/-! ### One call -/

def SameConsumers (w w' : World) : Prop := w'.consumerStarted = w.consumerStarted ∧ w'.consumers = w.consumers

/-- A consumer is registered on an open channel. -/
structure Registers (w w' : World) : Prop where
  started : w'.consumerStarted = true
  consumer : ∃ channel, w.channel.isOpen channel ∧ w'.consumers = channel :: w.consumers

/-- The answer to `consume`. -/
theorem consume_cases (w : World) (channel : Nat) (queue : String) (noAck : Bool) (a : Channel.Reply) :
    (∃ message, (perform w (.channel (.consume channel queue noAck)) a).2 = .error message ∧
      SameConsumers w (perform w (.channel (.consume channel queue noAck)) a).1) ∨
    (perform w (.channel (.consume channel queue noAck)) a).2 = .ok () ∧
      Registers w (perform w (.channel (.consume channel queue noAck)) a).1 := by
  cases a with
  | failed message => exact .inl ⟨message, rfl, rfl, rfl⟩
  | answered =>
    by_cases hopen : w.channel.isOpen channel
    · have hperform : Channel.perform w.channel (.consume channel queue noAck) .answered = (w.channel.use channel, .ok ()) :=
        Prod.ext rfl (if_pos hopen)
      refine .inr ⟨?_, ?_, channel, hopen, ?_⟩ <;> simp only [perform, hperform, World.called]
    · have hperform : Channel.perform w.channel (.consume channel queue noAck) .answered =
          (w.channel.use channel, .error "Channel closed") :=
        Prod.ext rfl (if_neg hopen)
      refine .inl ⟨"Channel closed", ?_, ?_, ?_⟩ <;> simp only [perform, hperform, World.called]

/-- What a call does to the consumers, and to the phase of who makes it. -/
theorem call_phase {w : World} {q : Call} (a : Channel.Reply) {s : Phase} (h : phases.allows s q) :
    SameConsumers w (perform w q a).1 ∧ (phases.after s q (perform w q a).2 = .registering →
      s = .registering ∨ s = .starting ∧ w.consumerStarted = false) ∨
    s = .registering ∧ phases.after s q (perform w q a).2 = .finished ∧ Registers w (perform w q a).1 := by
  cases q with
  | consumerStarted =>
    refine .inl ⟨⟨rfl, rfl⟩, fun hafter => ?_⟩
    cases s with
    | starting =>
      cases hstarted : w.consumerStarted with
      | false => exact .inr ⟨rfl, rfl⟩
      | true =>
        rw [perform, hstarted] at hafter
        cases hafter
    | registering => exact .inl rfl
    | finished => cases hafter
  | channel q =>
    cases q with
    | consume channel queue noAck =>
      cases s with
      | registering =>
        rcases consume_cases w channel queue noAck a with ⟨message, hanswer, hsame⟩ | ⟨hanswer, hregisters⟩
        · exact .inl ⟨hsame, fun _ => .inl rfl⟩
        · exact .inr ⟨rfl, by rw [hanswer]; rfl, hregisters⟩
      | _ => exact h.elim
    | _ => cases s <;> exact .inl ⟨⟨rfl, rfl⟩, fun hafter => by first | exact .inl rfl | cases hafter⟩

theorem after_finished (q : Call) (r : Except String (Answer q)) : phases.after .finished q r = .finished := by
  cases q <;> rfl

/-! ### Startups one at a time -/

def Underway (c : Config) (n : Nat) : Prop :=
  ∃ process, c.running n = some process ∧ process.task = .ensureBillingConsumerStarted

/-- A startup begins when no other is underway. -/
def apart (c : Config) : Action → Prop
  | .start _ .ensureBillingConsumerStarted => ∀ n, ¬Underway c n
  | _ => True

/-- A process, with the phase it is in. -/
structure InPhase (process : Machine.Process Task Call String Answer) (s : Phase) : Prop where
  follows : Follows process.program s
  finished : process.task ≠ .ensureBillingConsumerStarted → s = .finished

structure Registration (c : Config) : Prop where
  one : c.world.consumers.length ≤ 1
  started : c.world.consumerStarted = true ↔ c.world.consumers ≠ []
  alone : ∀ n m, Underway c n → Underway c m → n = m
  phases : ∀ n process, c.running n = some process →
    ∃ s, InPhase process s ∧ (s = .registering → c.world.consumers = [])

theorem Registration.fresh : Registration (.idle .fresh) where
  one := Nat.zero_le 1
  started := iff_of_false Bool.false_ne_true fun h => h rfl
  alone n m hn := by
    obtain ⟨process, hrun, _⟩ := hn
    cases hrun
  phases n process hrun := by cases hrun

theorem start_inPhase (task : Task) : ∃ s, InPhase ⟨task, task.program⟩ s ∧ s ≠ .registering := by
  by_cases htask : task = .ensureBillingConsumerStarted
  · rw [htask]
    exact ⟨.starting, ⟨startup_follows, fun h => absurd rfl h⟩, nofun⟩
  · exact ⟨.finished, ⟨program_follows task htask, fun _ => rfl⟩, nofun⟩

/-- What a process does when it is resumed, and the phase it is in then. -/
theorem InPhase.resume {process : Machine.Process Task Call String Answer} {s : Phase} (h : InPhase process s)
    {w w' : World} {i : Nat} {reply : Channel.Reply} {program : Runner Unit}
    (hresume : process.program.resume perform w i reply = some (w', program)) :
    ∃ s', InPhase ⟨process.task, program⟩ s' ∧
      (SameConsumers w w' ∧ (s' = .registering → s = .registering ∨ s = .starting ∧ w.consumerStarted = false) ∨
        s = .registering ∧ s' = .finished ∧ Registers w w') := by
  rcases Protocol.follows_resume h.follows hresume with ⟨_, rfl, hnext⟩ | ⟨q, _, hallows, rfl, hnext⟩
  · exact ⟨s, ⟨hnext, h.finished⟩, .inl ⟨⟨rfl, rfl⟩, .inl⟩⟩
  · refine ⟨_, ⟨hnext, fun htask => ?_⟩, call_phase reply hallows⟩
    rw [h.finished htask]
    exact after_finished q _

theorem underway_update {c : Config} {w : World} {n m : Nat} {task : Task} {program : Runner Unit}
    (h : Underway ⟨w, Function.update c.running n (Machine.alive task program)⟩ m) :
    m = n ∧ task = .ensureBillingConsumerStarted ∨ Underway c m := by
  obtain ⟨process, hrunning, htask⟩ := h
  rcases Machine.running_update hrunning with ⟨hm, halive⟩ | ⟨_, hold⟩
  · rw [Machine.alive_eq_some halive] at htask
    exact .inl ⟨hm, htask⟩
  · exact .inr ⟨process, hold, htask⟩

theorem Registration.step {c c' : Config} {action : Action} (h : Registration c) (hapart : apart c action)
    (hstep : machine.system.step c action = some c') : Registration c' := by
  cases machine.step_cases hstep with
  | @started n task w program hidle hstart =>
    cases hstart
    refine ⟨h.one, h.started, fun m k hm hk => ?_, fun m process hm => ?_⟩
    · have hnone : task = .ensureBillingConsumerStarted → ∀ j, ¬Underway c j := by
        rintro rfl
        exact hapart
      rcases underway_update hm with ⟨hmn, htask⟩ | hold <;> rcases underway_update hk with ⟨hkn, htask'⟩ | hold'
      · rw [hmn, hkn]
      · exact absurd hold' (hnone htask k)
      · exact absurd hold (hnone htask' m)
      · exact h.alone m k hold hold'
    · rcases Machine.running_update hm with ⟨_, halive⟩ | ⟨_, hold⟩
      · rw [Machine.alive_eq_some halive]
        obtain ⟨s, hs, hne⟩ := start_inPhase task
        exact ⟨s, hs, fun he => absurd he hne⟩
      · exact h.phases m process hold
  | @called n i reply process w program hrun hresume =>
    obtain ⟨s, hs, hempty⟩ := h.phases n process hrun
    obtain ⟨s', hs', hmove⟩ := hs.resume hresume
    have halone : ∀ m k, Underway ⟨w, Function.update c.running n (Machine.alive process.task program)⟩ m →
        Underway ⟨w, Function.update c.running n (Machine.alive process.task program)⟩ k → m = k := by
      have hold : ∀ m, Underway ⟨w, Function.update c.running n (Machine.alive process.task program)⟩ m → Underway c m := by
        intro m hm
        rcases underway_update hm with ⟨rfl, htask⟩ | hold
        · exact ⟨process, hrun, htask⟩
        · exact hold
      exact fun m k hm hk => h.alone m k (hold m hm) (hold k hk)
    rcases hmove with ⟨⟨hstarted, hconsumers⟩, hphase⟩ | ⟨rfl, rfl, hregisters⟩
    · refine ⟨by rw [hconsumers]; exact h.one, by rw [hstarted, hconsumers]; exact h.started, halone,
        fun m other hm => ?_⟩
      rw [hconsumers]
      rcases Machine.running_update hm with ⟨_, halive⟩ | ⟨_, hold⟩
      · rw [Machine.alive_eq_some halive]
        refine ⟨s', hs', fun he => ?_⟩
        rcases hphase he with hregistering | ⟨_, hnot⟩
        · exact hempty hregistering
        · by_contra hne
          rw [h.started.mpr hne] at hnot
          cases hnot
      · exact h.phases m other hold
    · obtain ⟨channel, _, hconsumers⟩ := hregisters.consumer
      have htask : process.task = .ensureBillingConsumerStarted := by
        by_contra hother
        cases hs.finished hother
      refine ⟨?_, ?_, halone, fun m other hm => ?_⟩
      · rw [hconsumers, hempty rfl]
        exact Nat.le_refl 1
      · rw [hconsumers]
        exact iff_of_true hregisters.started (List.cons_ne_nil channel _)
      · rcases Machine.running_update hm with ⟨_, halive⟩ | ⟨hne, hold⟩
        · rw [Machine.alive_eq_some halive]
          exact ⟨.finished, hs', nofun⟩
        · -- the other processes are no startups
          obtain ⟨s₂, hs₂, _⟩ := h.phases m other hold
          have hother : other.task ≠ .ensureBillingConsumerStarted := fun hstartup =>
            hne (h.alone m n ⟨other, hold, hstartup⟩ ⟨process, hrun, htask⟩)
          refine ⟨s₂, hs₂, fun he => ?_⟩
          rw [hs₂.finished hother] at he
          cases he
  | @crashed n process hrun =>
    have hold : ∀ m other, Function.update c.running n none m = some other → c.running m = some other := by
      intro m other hm
      rcases Machine.running_update hm with ⟨_, hnone⟩ | ⟨_, hold⟩
      · cases hnone
      · exact hold
    refine ⟨h.one, h.started, fun m k hm hk => ?_, fun m other hm => h.phases m other (hold m other hm)⟩
    obtain ⟨other, hm, htask⟩ := hm
    obtain ⟨other', hk, htask'⟩ := hk
    exact h.alone m k ⟨other, hold m other hm, htask⟩ ⟨other', hold k other' hk, htask'⟩
  | @moved event w hevent =>
    obtain ⟨channel, _, rfl⟩ := Option.map_eq_some_iff.mp hevent
    exact ⟨h.one, h.started, h.alone, h.phases⟩

/-! ### Once started -/

/-- The worker counts as started, and no startup is about to register a consumer. -/
structure Started (consumers : List Nat) (c : Config) : Prop where
  started : c.world.consumerStarted = true
  consumers : c.world.consumers = consumers
  phases : ∀ n process, c.running n = some process → ∃ s, InPhase process s ∧ s ≠ .registering

theorem Registration.settled {c : Config} (h : Registration c) (hstarted : c.world.consumerStarted = true) :
    Started c.world.consumers c where
  started := hstarted
  consumers := rfl
  phases n process hrun := by
    obtain ⟨s, hs, hempty⟩ := h.phases n process hrun
    exact ⟨s, hs, fun he => h.started.mp hstarted (hempty he)⟩

theorem Started.step {consumers : List Nat} {c c' : Config} {action : Action} (h : Started consumers c)
    (hstep : machine.system.step c action = some c') : Started consumers c' := by
  cases machine.step_cases hstep with
  | @started n task w program hidle hstart =>
    cases hstart
    refine ⟨h.started, h.consumers, fun m process hm => ?_⟩
    rcases Machine.running_update hm with ⟨_, halive⟩ | ⟨_, hold⟩
    · rw [Machine.alive_eq_some halive]
      exact start_inPhase task
    · exact h.phases m process hold
  | @called n i reply process w program hrun hresume =>
    obtain ⟨s, hs, hne⟩ := h.phases n process hrun
    obtain ⟨s', hs', ⟨⟨hstarted, hconsumers⟩, hphase⟩ | ⟨hregistering, _⟩⟩ := hs.resume hresume
    · refine ⟨hstarted.trans h.started, hconsumers.trans h.consumers, fun m other hm => ?_⟩
      rcases Machine.running_update hm with ⟨_, halive⟩ | ⟨_, hold⟩
      · rw [Machine.alive_eq_some halive]
        refine ⟨s', hs', fun he => ?_⟩
        rcases hphase he with hregistering | ⟨_, hnot⟩
        · exact hne hregistering
        · rw [h.started] at hnot
          cases hnot
      · exact h.phases m other hold
    · exact absurd hregistering hne
  | @crashed n process hrun =>
    refine ⟨h.started, h.consumers, fun m other hm => ?_⟩
    rcases Machine.running_update hm with ⟨_, hnone⟩ | ⟨_, hold⟩
    · cases hnone
    · exact h.phases m other hold
  | @moved event w hevent =>
    obtain ⟨channel, _, rfl⟩ := Option.map_eq_some_iff.mp hevent
    exact ⟨h.started, h.consumers, h.phases⟩

/-! ### Closed channels -/

/-- What is open was open before, or is numbered later. -/
structure Grows (w w' : Channel.World) : Prop where
  created : w.created ≤ w'.created
  channels : ∀ c ∈ w'.channels, c ∈ w.channels ∨ w.created ≤ c.1 ∧ c.1 < w'.created

theorem Grows.refl (w : Channel.World) : Grows w w := ⟨Nat.le_refl _, fun _ hc => .inl hc⟩

theorem perform_grows (w : Channel.World) (q : Channel.Call) (a : Channel.Reply) :
    Grows w (Channel.perform w q a).1 := by
  cases q with
  | keptChannel =>
    simp only [Channel.perform]
    cases w.channel with
    | some channel => exact .refl w
    | none => exact ⟨Nat.le_succ _, fun c hc => .inl hc⟩
  | connect attempt =>
    cases a with
    | failed message => exact ⟨Nat.le_refl _, fun c hc => .inl hc⟩
    | answered =>
      simp only [Channel.perform]
      by_cases hattempt : attempt ∈ w.attempts
      · rw [if_pos hattempt]
        exact ⟨Nat.le_succ _, fun c hc => .inl hc⟩
      · rw [if_neg hattempt]
        exact .refl w
  | createChannel connection =>
    cases a with
    | failed message => exact .refl w
    | answered =>
      simp only [Channel.perform]
      by_cases hconnection : connection ∈ w.connections
      · rw [if_pos hconnection]
        refine ⟨Nat.le_succ _, fun c hc => ?_⟩
        rcases List.mem_cons.mp hc with rfl | hold
        · exact .inr ⟨Nat.le_refl _, Nat.lt_succ_self _⟩
        · exact .inl hold
      · rw [if_neg hconnection]
        exact .refl w
  | _ => exact ⟨Nat.le_refl _, fun c hc => .inl hc⟩

theorem onEvent_grows {w w' : Channel.World} {event : Channel.Event} (h : Channel.onEvent w event = some w') :
    Grows w w' := by
  cases event with
  | closeConnection connection =>
    obtain ⟨_, hw⟩ := Option.ite_none_right_eq_some.mp h
    rw [← Option.some.inj hw]
    exact ⟨Nat.le_refl _, fun c hc => .inl (List.mem_of_mem_filter hc)⟩
  | closeChannel channel =>
    obtain ⟨_, hw⟩ := Option.ite_none_right_eq_some.mp h
    rw [← Option.some.inj hw]
    exact ⟨Nat.le_refl _, fun c hc => .inl (List.mem_of_mem_filter hc)⟩

theorem call_grows (w : World) (q : Call) (a : Channel.Reply) : Grows w.channel (perform w q a).1.channel := by
  cases q with
  | consumerStarted => exact .refl _
  | channel q =>
    have hchannel : (perform w (.channel q) a).1.channel = (Channel.perform w.channel q a).1 := by
      cases q with
      | consume channel queue noAck =>
        simp only [perform]
        rcases Channel.perform w.channel (.consume channel queue noAck) a with ⟨world, _ | _⟩ <;> rfl
      | _ => rfl
    rw [hchannel]
    exact perform_grows w.channel q a

theorem isOpen_iff {w : Channel.World} {channel : Nat} : w.isOpen channel = true ↔
    ∃ c ∈ w.channels, c.1 = channel := by
  simp [Channel.World.isOpen]

/-- A channel that was created and is closed. -/
def Closed (w : World) (channel : Nat) : Prop := channel < w.channel.created ∧ w.channel.isOpen channel = false

/-- It is not opened again. -/
theorem Closed.grows {w w' : World} {channel : Nat} (h : Closed w channel) (hw : Grows w.channel w'.channel) :
    Closed w' channel := by
  refine ⟨Nat.lt_of_lt_of_le h.1 hw.created, Bool.eq_false_iff.mpr fun hopen => ?_⟩
  obtain ⟨c, hc, hnumber⟩ := isOpen_iff.mp hopen
  rcases hw.channels c hc with hold | ⟨hnew, _⟩
  · have hwas := isOpen_iff.mpr ⟨c, hold, hnumber⟩
    rw [h.2] at hwas
    cases hwas
  · have hlow := h.1
    omega

theorem closed_kept (channel : Nat) : machine.Kept .any fun w => Closed w channel where
  start w task w' program h _ hstart := by
    cases hstart
    exact h
  call w q a h _ := h.grows (call_grows w q a)
  crash w task h := h
  environment pending w event w' h _ hevent := by
    obtain ⟨world, hmoved, rfl⟩ := Option.map_eq_some_iff.mp hevent
    exact h.grows (onEvent_grows hmoved)

/-- Channels are numbered as they are created. -/
structure Numbered (w : World) : Prop where
  channels : ∀ c ∈ w.channel.channels, c.1 < w.channel.created
  consumers : ∀ channel ∈ w.consumers, channel < w.channel.created

theorem Numbered.fresh : Numbered .fresh where
  channels c hc := by cases hc
  consumers channel hchannel := by cases hchannel

theorem Numbered.grows {w w' : World} (h : Numbered w) (hw : Grows w.channel w'.channel)
    (hconsumers : ∀ channel ∈ w'.consumers, channel ∈ w.consumers ∨ w.channel.isOpen channel) : Numbered w' := by
  refine ⟨fun c hc => ?_, fun channel hchannel => ?_⟩
  · rcases hw.channels c hc with hold | ⟨_, hlow⟩
    · exact Nat.lt_of_lt_of_le (h.channels c hold) hw.created
    · exact hlow
  · rcases hconsumers channel hchannel with hold | hopen
    · exact Nat.lt_of_lt_of_le (h.consumers channel hold) hw.created
    · obtain ⟨c, hc, rfl⟩ := isOpen_iff.mp hopen
      exact Nat.lt_of_lt_of_le (h.channels c hc) hw.created

theorem numbered_kept : machine.Kept .any Numbered where
  start w task w' program h _ hstart := by
    cases hstart
    exact h
  call w q a h _ := by
    have hallows : phases.allows .registering q := by cases q <;> trivial
    refine h.grows (call_grows w q a) fun channel hchannel => ?_
    rcases call_phase (w := w) a hallows with ⟨⟨_, hsame⟩, _⟩ | ⟨_, _, hregisters⟩
    · rw [show (machine.perform w q a).1.consumers = w.consumers from hsame] at hchannel
      exact .inl hchannel
    · obtain ⟨registered, hopen, hnew⟩ := hregisters.consumer
      rw [show (machine.perform w q a).1.consumers = registered :: w.consumers from hnew] at hchannel
      rcases List.mem_cons.mp hchannel with rfl | hold
      · exact .inr hopen
      · exact .inl hold
  crash w task h := h
  environment pending w event w' h _ hevent := by
    obtain ⟨world, hmoved, rfl⟩ := Option.map_eq_some_iff.mp hevent
    exact h.grows (onEvent_grows hmoved) fun channel hchannel => .inl hchannel

/-- As long as startups do not overlap a worker registers one consumer at most, and counts
as started exactly if it has. From then on no run registers another, not even when the
channel of the first is closed. -/
theorem registered_once (earlier later : List Action) (c c' : Config)
    (hr : machine.system.run (.idle .fresh) earlier = some c)
    (hapart : machine.system.Guarded apart (.idle .fresh) earlier) (hr' : machine.system.run c later = some c') :
    c.world.consumers.length ≤ 1 ∧ (c.world.consumerStarted = true ↔ c.world.consumers ≠ []) ∧
      (c.world.consumerStarted = true → c'.world.consumerStarted = true ∧ c'.world.consumers = c.world.consumers ∧
        ∀ channel ∈ c.world.consumers, c.world.channel.isOpen channel = false →
          c'.world.channel.isOpen channel = false) := by
  have hc := Steps.System.run_guarded (fun _ _ _ hI hC hstep => Registration.step hI hC hstep) .fresh hapart hr
  have hnumbered : Numbered c.world := numbered_kept.run_any .fresh hr
  refine ⟨hc.one, hc.started, fun hstarted => ?_⟩
  have hc' := Steps.System.run_invariant (fun _ _ _ hI hstep => Started.step hI hstep) (hc.settled hstarted) hr'
  refine ⟨hc'.started, hc'.consumers, fun channel hchannel hclosed => ?_⟩
  exact ((closed_kept channel).run_any ⟨hnumbered.consumers channel hchannel, hclosed⟩ hr').2

def replies (n count : Nat) : List Action := List.replicate count (.call n 0 .answered)

/-- A startup whose calls are all answered. -/
def startedUp : List Action := .start 0 .ensureBillingConsumerStarted :: replies 0 11

/-- The broker closes the connection, and the heartbeat comes. -/
def closedAndBeaten : List Action :=
  .environment (.closeConnection 1) :: .start 0 .ensureBillingConsumerStarted :: replies 0 1

theorem registered_once_deaf : ∃ c c', machine.system.run (.idle .fresh) startedUp = some c ∧
    machine.system.run c closedAndBeaten = some c' ∧ c'.world.consumerStarted = true ∧ c'.world.consumers = [2] ∧
    c'.world.channel.isOpen 2 = false := by
  have hr := machine.system.run_after (.idle .fresh) startedUp (by decide +kernel)
  have hr' := machine.system.run_after (machine.system.after (.idle .fresh) startedUp) closedAndBeaten (by decide +kernel)
  have hapart : machine.system.Guarded apart (.idle .fresh) startedUp := by
    refine ⟨fun n hn => ?_, fun c _ => Steps.System.guarded_of_forall (fun action haction d => ?_) c⟩
    · obtain ⟨process, hrun, _⟩ := hn
      cases hrun
    · rw [List.eq_of_mem_replicate haction]
      trivial
  obtain ⟨_, _, hstays⟩ := registered_once startedUp closedAndBeaten _ _ hr hapart hr'
  obtain ⟨hstarted, hconsumers, _⟩ := hstays (by decide +kernel)
  exact ⟨_, _, hr, hr', hstarted, hconsumers.trans (by decide +kernel), by decide +kernel⟩

/-- A heartbeat that comes while the first startup still connects registers a second consumer. -/
example : (machine.system.after (.idle .fresh)
    ([.start 0 .ensureBillingConsumerStarted, .start 1 .ensureBillingConsumerStarted] ++ replies 1 1 ++ replies 0 11 ++
      replies 1 8)).world.consumers.length = 2 := by
  decide +kernel

end CaseCellShop.Startup
