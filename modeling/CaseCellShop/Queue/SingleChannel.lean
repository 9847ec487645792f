import CaseCellShop.Queue.Channel

/-! One connection and live channels.

Both hold in the runs in which `getChannel` never meets what it does not know of: a
connection that is being made or already open while it has no channel, and a kept
channel that was closed. -/
namespace CaseCellShop.Queue.Channel
open Program Machine

/-! ### One connection, live uses -/

def OneConnection (w : World) : Prop := w.connections.length ≤ 1

def LiveUses (w : World) : Prop := ∀ u ∈ w.uses, u.live = true

/-- The kept channel is open; without one no connection is being made or open. -/
def KeptSound (w : World) : Prop :=
  match w.channel with
  | some channel => w.isOpen channel
  | none => w.attempts = [] ∧ w.connections = []

/-- The channel on which a call sends or consumes. -/
def usedBy : Call → Option Nat
  | .publish channel _ _ _ _ | .sendToQueue channel _ _ _ | .consume channel _ _ => some channel
  | _ => none

/-- The kept channel is looked up when it is sound, and the broker closes no channel on
which a call is about to send or consume. -/
def sound : Discipline World Task Reply Event Call where
  start _ _ := True
  call w q _ :=
    match q with
    | .keptChannel => KeptSound w
    | _ => True
  environment pending w event := ∀ w', onEvent w event = some w' → ∀ q channel, pending q →
    usedBy q = some channel → w.isOpen channel → w'.isOpen channel

/-! ### One call -/

/-- At most one connection is open or being made. -/
structure Single (w : World) : Prop where
  one : w.attempts.length + w.connections.length ≤ 1
  live : LiveUses w

/-- Open channels stay open. -/
def StaysOpen (w w' : World) : Prop := ∀ channel, w.isOpen channel → w'.isOpen channel

theorem StaysOpen.refl (w : World) : StaysOpen w w := fun _ h => h

theorem isOpen_opened (w : World) (connection : Nat) : (w.opened connection).isOpen w.created := by
  simp [World.isOpen, World.opened]

theorem staysOpen_opened (w : World) (connection : Nat) : StaysOpen w (w.opened connection) := by
  intro channel h
  simp only [World.isOpen, World.opened, List.any_cons, Bool.or_eq_true]
  exact .inr h

theorem single_failed {w : World} (attempt : Nat) (h : Single w) : Single (w.failed attempt) := by
  have hone := h.one
  have herase : (w.attempts.erase attempt).length ≤ w.attempts.length := w.attempts.length_erase_le
  exact ⟨by simp only [World.failed]; omega, h.live⟩

theorem single_connected {w : World} {attempt : Nat} (hattempt : attempt ∈ w.attempts) (h : Single w) :
    Single (w.connected attempt) := by
  have hone := h.one
  have herase := List.length_erase_of_mem hattempt
  have hpos := List.length_pos_of_mem hattempt
  refine ⟨?_, h.live⟩
  simp only [World.connected, World.failed, List.length_cons]
  omega

theorem single_use {w : World} {channel : Nat} (hopen : w.isOpen channel) (h : Single w) :
    Single (w.use channel) := by
  refine ⟨h.one, fun u hu => ?_⟩
  rw [World.use, List.mem_append, List.mem_singleton] at hu
  obtain hu | rfl := hu
  · exact h.live u hu
  · exact hopen

/-- What a call does to a sound world, if it uses no closed channel. -/
theorem perform_single {w : World} {q : Call} (reply : Reply) (h : Single w) (hsound : sound.call w q reply)
    (huse : ∀ channel, usedBy q = some channel → w.isOpen channel) :
    Single (perform w q reply).1 ∧ StaysOpen w (perform w q reply).1 := by
  cases q with
  | keptChannel =>
    simp only [sound, KeptSound] at hsound
    simp only [perform]
    cases hc : w.channel with
    | some channel => exact ⟨h, StaysOpen.refl w⟩
    | none =>
      rw [hc] at hsound
      refine ⟨⟨?_, h.live⟩, StaysOpen.refl w⟩
      simp [World.connecting, hsound.1, hsound.2]
  | connect attempt =>
    cases reply with
    | failed message => exact ⟨single_failed attempt h, StaysOpen.refl w⟩
    | answered =>
      simp only [perform]
      by_cases hattempt : attempt ∈ w.attempts
      · rw [if_pos hattempt]
        exact ⟨single_connected hattempt h, StaysOpen.refl w⟩
      · rw [if_neg hattempt]
        exact ⟨h, StaysOpen.refl w⟩
  | createChannel connection =>
    cases reply with
    | failed message => exact ⟨h, StaysOpen.refl w⟩
    | answered =>
      simp only [perform]
      by_cases hconnection : connection ∈ w.connections
      · rw [if_pos hconnection]
        exact ⟨⟨h.one, h.live⟩, staysOpen_opened w connection⟩
      · rw [if_neg hconnection]
        exact ⟨h, StaysOpen.refl w⟩
  | assertExchange => exact ⟨h, StaysOpen.refl w⟩
  | assertQueue => exact ⟨h, StaysOpen.refl w⟩
  | bindQueue => exact ⟨h, StaysOpen.refl w⟩
  | publish channel => exact ⟨single_use (huse channel rfl) h, StaysOpen.refl w⟩
  | sendToQueue channel => exact ⟨single_use (huse channel rfl) h, StaysOpen.refl w⟩
  | consume channel => exact ⟨single_use (huse channel rfl) h, StaysOpen.refl w⟩

/-! ### The programs -/

/-- What a call that waits to use a channel relies on. -/
def Relied (q : Call) (w w' : World) : Prop :=
  ∀ channel, usedBy q = some channel → w.isOpen channel → w'.isOpen channel

/-- A program that uses only open channels, with what holds at its end. -/
abbrev Uses {α : Type} (post : Except String α → World → Prop) (p : Service α) (w : World) : Prop :=
  machine.Sound sound Single Relied StaysOpen post p w

/-- A call that uses no channel. -/
theorem uses_call {α : Type} {post : Except String α → World → Prop} {q : Call}
    {next : Except String (Answer q) → Service α} {w : World} (hq : usedBy q = none)
    (hnext : ∀ w₁ reply, sound.call w₁ q reply →
      Uses post (next (perform w₁ q reply).2) (perform w₁ q reply).1) :
    Uses post (.await q next) w := by
  intro w₁ reply hI _ hsound
  have huse : ∀ channel, usedBy q = some channel → w₁.isOpen channel := by
    rw [hq]
    exact fun _ hc => by cases hc
  obtain ⟨hsingle, hopen⟩ := perform_single reply hI hsound huse
  exact ⟨hsingle, hopen, hnext w₁ reply hsound⟩

/-- `getChannel` returns a channel that is open then. -/
theorem getChannel_uses (w : World) :
    Uses (fun result w' => ∀ channel, result = .ok channel → w'.isOpen channel) getChannel w := by
  apply uses_call (q := .keptChannel) rfl
  intro w₁ reply hsound
  simp only [sound, KeptSound] at hsound
  simp only [perform]
  cases hc : w₁.channel with
  | some channel =>
    rw [hc] at hsound
    intro channel' he
    cases he
    exact hsound
  | none =>
    apply uses_call (q := .connect w₁.created) rfl
    intro w₂ reply _
    cases h₂ : (perform w₂ (.connect w₁.created) reply).2 with
    | error e => exact fun channel he => by cases he
    | ok connection =>
      apply uses_call (q := .createChannel connection) rfl
      intro w₃ reply _ channel he
      cases reply with
      | failed message => cases he
      | answered =>
        simp only [perform] at he ⊢
        by_cases hconnection : connection ∈ w₃.connections
        · rw [if_pos hconnection] at he ⊢
          cases he
          exact isOpen_opened w₃ connection
        · rw [if_neg hconnection] at he
          cases he

/-- What is done with a channel that `getChannel` returned. -/
theorem uses_withChannel {f : Nat → Service Unit} (w : World)
    (hf : ∀ channel w, w.isOpen channel → Uses (fun _ _ => True) (f channel) w) :
    Uses (fun _ _ => True) (getChannel >>= f) w := by
  apply sound_bind
  refine sound_mono (getChannel_uses w) fun result w' hopen => ?_
  cases result with
  | error e => trivial
  | ok channel => exact hf channel w' (hopen channel rfl)

/-- A use of a channel that is open when it is asked for. -/
theorem uses_use {q : Call} {channel : Nat} (hq : usedBy q = some channel) {w : World} (hopen : w.isOpen channel) :
    Uses (fun _ _ => True) (request q) w := by
  intro w₁ reply hI hrely hsound
  have huse : ∀ channel, usedBy q = some channel → w₁.isOpen channel := by
    intro channel' hc
    obtain rfl : channel = channel' := Option.some.inj (hq.symm.trans hc)
    exact hrely channel hq hopen
  obtain ⟨hsingle, hstays⟩ := perform_single reply hI hsound huse
  exact ⟨hsingle, hstays, trivial⟩

theorem ensureTopology_uses (w : World) : Uses (fun _ _ => True) ensureTopology w := by
  have hasserts : ∀ q w reply, usedBy q = none → Single w → sound.call w q reply →
      Single (perform w q reply).1 ∧ StaysOpen w (perform w q reply).1 := by
    intro q w reply hq hI hsound
    apply perform_single reply hI hsound
    rw [hq]
    exact fun _ hc => by cases hc
  refine uses_withChannel w fun channel w _ => sound_of_onlyCalls hasserts ?_ w
  refine onlyCalls_bind (onlyCalls_call rfl) fun _ => ?_
  refine onlyCalls_bind (onlyCalls_call rfl) fun _ => ?_
  refine onlyCalls_bind (onlyCalls_call rfl) fun _ => ?_
  refine onlyCalls_bind (onlyCalls_call rfl) fun _ => ?_
  exact onlyCalls_call rfl

theorem publishTo_uses (queue payload : String) (options : PublishOptions) (w : World) :
    Uses (fun _ _ => True) (publishTo queue payload options) w := by
  apply sound_bind
  refine sound_mono (ensureTopology_uses w) fun result w' _ => ?_
  cases result with
  | error e => trivial
  | ok u => exact uses_withChannel w' fun channel w hopen => uses_use rfl hopen

theorem program_uses (task : Task) (w : World) : Uses (fun _ _ => True) task.program w := by
  cases task with
  | ensureTopology => exact ensureTopology_uses w
  | publish exchange routingKey payload options => exact uses_withChannel w fun channel w hopen => uses_use rfl hopen
  | publishToRetry payload options => exact publishTo_uses _ payload options w
  | publishToDlq payload options => exact publishTo_uses _ payload options w
  | consumeJson queue => exact uses_withChannel w fun channel w hopen => uses_use rfl hopen

/-! ### Runs -/

theorem onEvent_single {w w' : World} {event : Event} (h : Single w) (hmoved : onEvent w event = some w') :
    Single w' := by
  have hone := h.one
  cases event with
  | closeConnection connection =>
    simp only [onEvent, Option.ite_none_right_eq_some] at hmoved
    obtain ⟨_, hw⟩ := hmoved
    rw [← Option.some.inj hw]
    have hfilter := List.length_filter_le (fun c => decide (c ≠ connection)) w.connections
    exact ⟨by dsimp only; omega, h.live⟩
  | closeChannel channel =>
    simp only [onEvent, Option.ite_none_right_eq_some] at hmoved
    obtain ⟨_, hw⟩ := hmoved
    rw [← Option.some.inj hw]
    exact ⟨hone, h.live⟩

theorem relyGuarantee : machine.RelyGuarantee sound Single Relied StaysOpen where
  refl q w := fun _ _ hopen => hopen
  trans q u v w huv hvw := fun channel hq hopen => hvw channel hq (huv channel hq hopen)
  guarantee w w' h q := fun channel _ hopen => h channel hopen
  start w task w' program hI _ h := by
    cases h
    exact ⟨hI, program_uses task w, fun q _ _ hopen => hopen⟩
  crash w task hI := ⟨hI, fun q _ _ hopen => hopen⟩
  environment pending w event w' hI hD h := ⟨onEvent_single hI h, fun q hq channel hc => hD w' h q channel hq hc⟩

/-- In every run in which the kept channel is sound whenever `getChannel` looks it up and
the broker closes no channel about to be used, there is one connection at most and no
closed channel is used. -/
theorem single_live_channel (actions : List Action) (c : Config)
    (hrun : machine.system.run (.idle World.fresh) actions = some c)
    (hsound : machine.system.Guarded sound.allows (.idle World.fresh) actions) :
    OneConnection c.world ∧ LiveUses c.world := by
  have hfresh : Single World.fresh := ⟨Nat.zero_le 1, fun u hu => by cases hu⟩
  obtain ⟨hsingle, _⟩ := relyGuarantee.run (invariant_idle hfresh) hsound hrun
  have hone := hsingle.one
  exact ⟨by unfold OneConnection; omega, hsingle.live⟩

/-! ### Startup and a lost connection -/

def replies (n count : Nat) : List Action := List.replicate count (.call n 0 .answered)

def message : Task := .publish "orders" "billing" "\x7b\x7d" ⟨none, []⟩

/-- The heartbeat calls `ensureTopology` again while the first call still connects. -/
def overlapping : List Action :=
  [.start 0 .ensureTopology] ++ replies 0 1 ++ [.start 1 .ensureTopology] ++ replies 1 2 ++ replies 0 1

/-- A message is published, the broker closes the connection, another is published. -/
def afterClose : List Action :=
  [.start 0 message] ++ replies 0 4 ++ [.environment (.closeConnection 1), .start 0 message] ++ replies 0 2

theorem second_connection_dead_channel :
    (¬∀ actions c, machine.system.run (.idle World.fresh) actions = some c → OneConnection c.world) ∧
    ¬∀ actions c, machine.system.run (.idle World.fresh) actions = some c → LiveUses c.world := by
  constructor
  · intro h
    have hone := h overlapping _ (machine.system.run_after _ overlapping (by decide))
    exact absurd hone (by unfold OneConnection; decide)
  · intro h
    have hlive := h afterClose _ (machine.system.run_after _ afterClose (by decide))
    exact absurd hlive (by unfold LiveUses; decide)

/-- The broker closes no channel at all, so what is about to be used does not matter. -/
def keeping : Discipline World Task Reply Event Call where
  start _ _ := True
  call := sound.call
  environment _ w event := (onEvent w event).all fun w' => w.channels.all fun c => w'.isOpen c.1

instance (w : World) : Decidable (KeptSound w) := by
  unfold KeptSound
  cases w.channel <;> infer_instance

instance (w : World) (q : Call) (reply : Reply) : Decidable (keeping.call w q reply) := by
  cases q <;> dsimp only [keeping, sound] <;> infer_instance

instance (c : Config) (action : Action) : Decidable (keeping.allows c action) :=
  have : ∀ w task, Decidable (keeping.start w task) := fun _ _ => .isTrue trivial
  have : ∀ pending w event, Decidable (keeping.environment pending w event) := fun _ _ _ =>
    inferInstanceAs (Decidable (_ = true))
  inferInstance

theorem sound_of_keeping (c : Config) (action : Action) (h : keeping.allows c action) : sound.allows c action := by
  cases action with
  | start n task => trivial
  | call n i reply => exact h
  | crash n => trivial
  | environment event =>
    intro w' hmoved q channel _ _ hopen
    have hall : (onEvent c.world event).all (fun w' => c.world.channels.all fun c => w'.isOpen c.1) = true := h
    rw [hmoved, Option.all_some, List.all_eq_true] at hall
    obtain ⟨entry, hentry, he⟩ := List.any_eq_true.mp hopen
    rw [← of_decide_eq_true he]
    exact hall entry hentry

/-- The first connection gets no channel and is closed; the next call connects again. -/
def reconnected : List Action :=
  [.start 0 message] ++ replies 0 2 ++ [.call 0 0 (.failed "channel refused"), .environment (.closeConnection 1),
    .start 0 message] ++ replies 0 4

theorem single_live_channel_reconnected :
    OneConnection (machine.system.after (.idle World.fresh) reconnected).world ∧
      LiveUses (machine.system.after (.idle World.fresh) reconnected).world := by
  have hrun := machine.system.run_after (.idle World.fresh) reconnected (by decide)
  have hkeeping : machine.system.Guarded keeping.allows (.idle World.fresh) reconnected := by decide
  exact single_live_channel reconnected _ hrun (Steps.System.guarded_mono sound_of_keeping hkeeping)

end CaseCellShop.Queue.Channel
