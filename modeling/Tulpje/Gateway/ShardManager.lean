import Tulpje.Gateway.ParsedEvent
import Tulpje.Lib.Mpsc

/-!
# The shard manager: forwarding and the reporter's bounded queue

`tulpje-gateway/src/shard_manager.rs` with the reporter's handle of `shard_reporter.rs`.
`ShardManager.handleMessage` is the code; one `Step` is one iteration of the `select!` loop of `run`
or one move of the reporter task at the other end of the bounded queue, in any interleaving.

`Forwarding` is the purpose of the component with the reporter left out: what is to be sent to AMQP
and whether the loop is to stop. The two agree as long as the queue has room whenever a forwarded
event is also a reporter event (`run_forwards_iff`); the error of a full queue leaves
`handleMessage` before the frame is forwarded.
-/

namespace Tulpje.Gateway

open Lib

/-! ### Payloads and reporter events -/

/-- `Metadata`: the tracing uuid, as its hyphenated text, and the shard. -/
structure Metadata where
  uuid : String
  shard : UInt32

structure DiscordEvent where
  metadata : Metadata
  payload : String

/-- `DiscordEvent::new`, with the uuid that `Uuid::now_v7` returned. -/
def DiscordEvent.new (uuid : String) (shard : UInt32) (payload : String) : DiscordEvent :=
  ⟨⟨uuid, shard⟩, payload⟩

/-- The recent heartbeat latencies of a shard, in milliseconds. -/
abbrev Latency := List Nat

inductive ReporterEvent
  | event (event : Event)
  | gatewayHeartbeatAck (event : Event) (latency : Latency)

def ReporterEvent.fromEvent (event : Event) (latency : Latency) : ReporterEvent :=
  match event with
  | .gatewayHeartbeatAck => .gatewayHeartbeatAck event latency
  | e => .event e

def ReporterEvent.kind : ReporterEvent → EventType
  | .event e => e.kind
  | .gatewayHeartbeatAck e _ => e.kind

@[simp] theorem ReporterEvent.fromEvent_kind (event : Event) (latency : Latency) :
    (fromEvent event latency).kind = event.kind := by
  cases event <;> rfl

/-- `ShardReporterHandle::try_send`: only reporter events go to the queue. -/
def tryReport (reporter : Bounded ReporterEvent) (msg : ReporterEvent) :
    Except TrySendError (Bounded ReporterEvent) :=
  if shardReporterEvents.contains msg.kind then reporter.trySend msg else .ok reporter

/-! ### The manager -/

inductive ShardState
  | running | stopping | stopped
  deriving DecidableEq, Repr

structure ShardManager where
  shard : UInt32
  amqp : Unbounded (List UInt8)
  reporter : Bounded ReporterEvent
  state : ShardState
  /-- event names counted by `metrics::track_gateway_event` -/
  tracked : List String

/-- The errors of `handle_message`. -/
inductive HandleError
  | parse (err : MessageParseError)
  | reporter (err : TrySendError)
  | serialize (err : String)
  | amqp

/-- The texts that `map_err` gives the errors of `handle_message`; a parse error keeps its own. -/
def HandleError.message (parseText : MessageParseError → String) : HandleError → String
  | .parse err => parseText err
  | .reporter err => "error sending message to ShardManager: " ++ err.display
  | .serialize err => "error serializing event: " ++ err
  | .amqp => "error sending event to amqp: channel closed"

section Code
variable (de : Deserializers) (toVec : DiscordEvent → Except String (List UInt8))

/-- The last part of `handle_message`: a forwarded frame is wrapped, serialized and sent. -/
def ShardManager.forward (self : ShardManager) (uuid : String) (event : ParsedEvent) :
    Except HandleError ShardManager :=
  match event.text with
  | some text =>
    if event.forward then
      match toVec (DiscordEvent.new uuid self.shard text) with
      | .error err => .error (.serialize err)
      | .ok bytes =>
        match self.amqp.send bytes with
        | none => .error .amqp
        | some amqp => .ok { self with amqp := amqp }
    else .ok self
  | none => .ok self

/-- The middle part of `handle_message`: the reporter is given the event, if one was parsed. -/
def ShardManager.report (self : ShardManager) (latency : Latency) (event : ParsedEvent) :
    Except HandleError ShardManager :=
  match event.event with
  | none => .ok self
  | some e =>
    match tryReport self.reporter (ReporterEvent.fromEvent e latency) with
    | .error err => .error (.reporter err)
    | .ok reporter => .ok { self with reporter := reporter }

def ShardManager.track (self : ShardManager) (event : ParsedEvent) : ShardManager :=
  { self with tracked := self.tracked ++ [event.name.getD "default"] }

/-- `handle_message`: the result and the manager after it. The early returns leave the manager as the
last successful step left it. -/
def ShardManager.handleMessage (self : ShardManager) (uuid : String) (latency : Latency)
    (message : Message) : Except HandleError Bool × ShardManager :=
  match ParsedEvent.fromMessage de message with
  | .error (.unknownOpCode _) | .error (.unknownEvent _ _) => (.ok false, self)
  | .error err => (.error (.parse err), self)
  | .ok event =>
    let shouldStop := event.isClose && self.state == .stopping
    let self := self.track event
    match self.report latency event with
    | .error err => (.error err, self)
    | .ok self =>
      match self.forward toVec uuid event with
      | .error err => (.error err, self)
      | .ok self => (.ok shouldStop, self)

/-- What an iteration of the loop of `ShardManager::run` received. -/
inductive Input
  | start
  | message (uuid : String) (latency : Latency) (message : Message)
  | receiveError
  | streamEnd
  | shutdown

inductive Step
  | input (input : Input)
  | reporterRecv
  | reporterClose

/-- The manager and whether its loop was left. -/
structure Run where
  manager : ShardManager
  stopped : Bool

/-- One iteration of the `select!` loop; a branch whose guard is false is not polled. -/
def Run.input (r : Run) : Input → Run
  | .start => { r with manager := { r.manager with state := .running } }
  | .message uuid latency message =>
    if r.manager.state = .stopped then r else
      match r.manager.handleMessage de toVec uuid latency message with
      | (.ok true, manager) => { manager := manager, stopped := true }
      | (_, manager) => { r with manager := manager }
  | .receiveError => r
  | .streamEnd => if r.manager.state = .stopped then r else { r with stopped := true }
  | .shutdown =>
    if r.manager.state = .running then { r with manager := { r.manager with state := .stopping } }
    else r

def Run.step (r : Run) : Step → Run
  | .input i => if r.stopped then r else r.input de toVec i
  | .reporterRecv => { r with manager := { r.manager with reporter := r.manager.reporter.recv } }
  | .reporterClose => { r with manager := { r.manager with reporter := r.manager.reporter.close } }

def Run.run (r : Run) (steps : List Step) : Run := steps.foldl (Run.step de toVec) r

/-- `ShardManager::new` with the channels of `main` and `ShardReporterHandle::new`. -/
def Run.new (shard : UInt32) : Run where
  manager := ⟨shard, Unbounded.new, Bounded.new 10, .stopped, []⟩
  stopped := false

/-! ### What is to be forwarded -/

/-- The state of the loop with the reporter left out. -/
structure Forwarding where
  state : ShardState
  stopped : Bool
  sent : List (List UInt8)

/-- The payload an accepted message is to be forwarded as. -/
def payloads (shard : UInt32) (uuid : String) (event : ParsedEvent) : List (List UInt8) :=
  match event.text with
  | some text =>
    if event.forward then
      match toVec (DiscordEvent.new uuid shard text) with
      | .ok bytes => [bytes]
      | .error _ => []
    else []
  | none => []

def Forwarding.input (shard : UInt32) (f : Forwarding) : Input → Forwarding
  | .start => { f with state := .running }
  | .message uuid _ message =>
    if f.state = .stopped then f else
      match ParsedEvent.fromMessage de message with
      | .error _ => f
      | .ok event =>
        { f with
          sent := f.sent ++ payloads toVec shard uuid event
          stopped := event.isClose && f.state == .stopping }
  | .receiveError => f
  | .streamEnd => if f.state = .stopped then f else { f with stopped := true }
  | .shutdown => if f.state = .running then { f with state := .stopping } else f

def Forwarding.step (shard : UInt32) (f : Forwarding) : Step → Forwarding
  | .input i => if f.stopped then f else f.input de toVec shard i
  | .reporterRecv => f
  | .reporterClose => f

def Forwarding.run (shard : UInt32) (f : Forwarding) (steps : List Step) : Forwarding :=
  steps.foldl (Forwarding.step de toVec shard) f

def Forwarding.new : Forwarding := ⟨.stopped, false, []⟩

end Code

end Tulpje.Gateway
