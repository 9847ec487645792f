import CaseCellShop.Library.Interleave

/-! The connection and the channel to the broker (`RabbitService` of
`libs/queue/src/rabbit.service.ts`).

`getChannel` connects on its first call and keeps the channel; nothing tells it that a
connection is being made, and nothing takes back a channel that was closed. The calls
are what the service awaits, and the check of the kept channel, after which another
call may run. A closed channel stays closed, and what is done on it fails. -/
namespace CaseCellShop.Queue.Channel
open Program

structure PublishOptions where
  messageId : Option String
  headers : List (String × String)

structure Properties where
  contentType : String
  persistent : Bool
  options : PublishOptions

structure QueueOptions where
  durable : Bool
  deadLetterExchange : Option String
  deadLetterRoutingKey : Option String
  messageTtl : Option Nat

/-- Channels, connections and attempts to connect are known by number. -/
inductive Call where
  /-- `if (this.channel)`; without one `amqplib.connect` is called at once. -/
  | keptChannel
  | connect (attempt : Nat)
  | createChannel (connection : Nat)
  | assertExchange (channel : Nat) (exchange kind : String) (durable : Bool)
  | assertQueue (channel : Nat) (queue : String) (options : QueueOptions)
  | bindQueue (channel : Nat) (queue exchange pattern : String)
  | publish (channel : Nat) (exchange routingKey content : String) (properties : Properties)
  | sendToQueue (channel : Nat) (queue content : String) (properties : Properties)
  | consume (channel : Nat) (queue : String) (noAck : Bool)

/-- The kept channel, or the attempt to connect that has begun. -/
inductive Kept where
  | channel (channel : Nat)
  | connecting (attempt : Nat)

@[reducible] def Answer : Call → Type
  | .keptChannel => Kept
  | .connect _ | .createChannel _ => Nat
  | _ => Unit

abbrev Service (α : Type) := Program Call Answer String α

abbrev request (q : Call) : Service (Answer q) := Program.call q

/-! ### The service -/

def getChannel : Service Nat := do
  let kept : Kept ← request .keptChannel
  match kept with
  | .channel channel => return channel
  | .connecting attempt => do
    let connection : Nat ← request (.connect attempt)
    request (.createChannel connection)

def durable : QueueOptions := ⟨true, none, none, none⟩

def ensureTopology : Service Unit := do
  let channel ← getChannel
  request (.assertExchange channel "orders" "direct" true)
  request (.assertQueue channel "orders.billing.q" durable)
  request (.assertQueue channel "orders.billing.retry.q" ⟨true, some "orders", some "billing", some 15000⟩)
  request (.assertQueue channel "orders.billing.dlq" durable)
  request (.bindQueue channel "orders.billing.q" "orders" "billing")

/-- The JSON text of the payload is the content. -/
def publish (exchange routingKey payload : String) (options : PublishOptions) : Service Unit := do
  let channel ← getChannel
  request (.publish channel exchange routingKey payload ⟨"application/json", true, options⟩)

def publishTo (queue payload : String) (options : PublishOptions) : Service Unit := do
  ensureTopology
  let channel ← getChannel
  request (.sendToQueue channel queue payload ⟨"application/json", true, options⟩)

def publishToRetry (payload : String) (options : PublishOptions) : Service Unit :=
  publishTo "orders.billing.retry.q" payload options

def publishToDlq (payload : String) (options : PublishOptions) : Service Unit :=
  publishTo "orders.billing.dlq" payload options

/-- What the handler does with a delivery is not the channel's matter. -/
def consumeJson (queue : String) : Service Unit := do
  let channel ← getChannel
  request (.consume channel queue false)

/-! ### The world -/

/-- A `publish`, `sendToQueue` or `consume`: its channel, and whether it was open. -/
structure Use where
  channel : Nat
  live : Bool
  deriving DecidableEq

structure World where
  /-- `this.connection` -/
  connection : Option Nat
  /-- `this.channel` -/
  channel : Option Nat
  attempts : List Nat
  connections : List Nat
  /-- The open channels, each with its connection. -/
  channels : List (Nat × Nat)
  created : Nat
  uses : List Use

/-- Nothing was called yet. -/
def World.fresh : World := ⟨none, none, [], [], [], 0, []⟩

def World.isOpen (w : World) (channel : Nat) : Bool := w.channels.any fun c => c.1 = channel

/-- `amqplib.connect` is called. -/
def World.connecting (w : World) : World := {w with attempts := w.created :: w.attempts, created := w.created + 1}

def World.failed (w : World) (attempt : Nat) : World := {w with attempts := w.attempts.erase attempt}

/-- `this.connection = ...` -/
def World.connected (w : World) (attempt : Nat) : World :=
  {w.failed attempt with
    connection := some w.created
    connections := w.created :: w.connections
    created := w.created + 1}

/-- `this.channel = ...` -/
def World.opened (w : World) (connection : Nat) : World :=
  {w with
    channel := some w.created
    channels := (w.created, connection) :: w.channels
    created := w.created + 1}

def World.use (w : World) (channel : Nat) : World := {w with uses := w.uses ++ [⟨channel, w.isOpen channel⟩]}

/-- How a call ends; a call on what is closed fails in any case. -/
inductive Reply where
  | answered
  | failed (message : String)
  deriving DecidableEq

def World.onChannel (w : World) (channel : Nat) : Reply → Except String Unit
  | .answered => if w.isOpen channel then .ok () else .error "Channel closed"
  | .failed message => .error message

def perform (w : World) : (q : Call) → Reply → World × Except String (Answer q)
  | .keptChannel, _ =>
    match w.channel with
    | some channel => (w, .ok (.channel channel))
    | none => (w.connecting, .ok (.connecting w.created))
  | .connect attempt, .answered =>
    -- a promise settles once
    if attempt ∈ w.attempts then (w.connected attempt, .ok w.created) else (w, .error "not connecting")
  | .connect attempt, .failed message => (w.failed attempt, .error message)
  | .createChannel connection, .answered =>
    if connection ∈ w.connections then (w.opened connection, .ok w.created) else (w, .error "Connection closed")
  | .createChannel _, .failed message => (w, .error message)
  | .assertExchange channel _ _ _, reply => (w, w.onChannel channel reply)
  | .assertQueue channel _ _, reply => (w, w.onChannel channel reply)
  | .bindQueue channel _ _ _, reply => (w, w.onChannel channel reply)
  | .publish channel _ _ _ _, reply => (w.use channel, w.onChannel channel reply)
  | .sendToQueue channel _ _ _, reply => (w.use channel, w.onChannel channel reply)
  | .consume channel _ _, reply => (w.use channel, w.onChannel channel reply)

inductive Task where
  | ensureTopology
  | publish (exchange routingKey payload : String) (options : PublishOptions)
  | publishToRetry (payload : String) (options : PublishOptions)
  | publishToDlq (payload : String) (options : PublishOptions)
  | consumeJson (queue : String)

def Task.program : Task → Service Unit
  | .ensureTopology => Channel.ensureTopology
  | .publish exchange routingKey payload options => Channel.publish exchange routingKey payload options
  | .publishToRetry payload options => Channel.publishToRetry payload options
  | .publishToDlq payload options => Channel.publishToDlq payload options
  | .consumeJson queue => Channel.consumeJson queue

/-- The broker closes a connection, with its channels, or a channel. -/
inductive Event where
  | closeConnection (connection : Nat)
  | closeChannel (channel : Nat)

def onEvent (w : World) : Event → Option World
  | .closeConnection connection =>
    if connection ∈ w.connections then
      some {w with
        connections := w.connections.filter fun c => c ≠ connection
        channels := w.channels.filter fun c => c.2 ≠ connection}
    else none
  | .closeChannel channel =>
    if w.isOpen channel then some {w with channels := w.channels.filter fun c => c.1 ≠ channel} else none

/-- Calls of the service from timers, handlers and retries; one that never settles is a crash. -/
def machine : Machine World Task Reply Event Call String Answer where
  perform := perform
  start w task := some (w, task.program)
  crash w _ := w
  environment := onEvent

abbrev Config := Machine.Config World Task Call String Answer

abbrev Action := Machine.Action Task Reply Event

end CaseCellShop.Queue.Channel
