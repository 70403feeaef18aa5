import Tulpje.Twilight.EventType

/-!
# Gateway messages and what is parsed of them

`tulpje-gateway/src/parsed_event.rs`. The deserializers of `twilight_model` and `serde_json` that
`from_message` calls are the fields of `Deserializers`. An `EventTypeFlags` constant is the list of its
kinds, and the single flag of a message is its kind.
-/

namespace Tulpje.Gateway

abbrev GuildId := UInt64

/-- The events the shard reporter looks into, and the kind of any other. -/
inductive Event
  | gatewayClose (frame : Option (UInt16 × String))
  | gatewayHello (heartbeatInterval : UInt64)
  | gatewayHeartbeatAck
  | ready (guilds : List GuildId)
  | resumed
  | guildCreate (id : GuildId)
  | guildDelete (id : GuildId)
  | other (kind : EventType)
  deriving DecidableEq

def Event.kind : Event → EventType
  | .gatewayClose _ => .gatewayClose
  | .gatewayHello _ => .gatewayHello
  | .gatewayHeartbeatAck => .gatewayHeartbeatAck
  | .ready _ => .ready
  | .resumed => .resumed
  | .guildCreate _ => .guildCreate
  | .guildDelete _ => .guildDelete
  | .other kind => kind

/-- `SHARD_REPORTER_EVENTS` of `shard_reporter.rs`. -/
def shardReporterEvents : List EventType :=
  [.gatewayHeartbeatAck, .gatewayHello, .guildCreate, .guildDelete, .ready, .resumed]

/-- `WANTED_EVENTS`. -/
def wantedEvents : List EventType :=
  shardReporterEvents ++ [.gatewayHeartbeat, .gatewayReconnect, .gatewayInvalidateSession]

inductive OpCode
  | dispatch | heartbeat | identify | presenceUpdate | voiceStateUpdate | resume | reconnect
  | requestGuildMembers | invalidSession | hello | heartbeatAck
  deriving DecidableEq, Repr

inductive Message
  | close (frame : Option (UInt16 × String))
  | text (text : String)

inductive MessageParseError
  | deserialize
  | deserializeEvent (err : String)
  | unknownOpCode (op : UInt8)
  | unknownEvent (opcode : OpCode) (eventType : Option String)

/-- `GatewayEventDeserializer`. -/
structure EventHead where
  op : UInt8
  eventType : Option String

structure Deserializers where
  /-- `GatewayEventDeserializer::from_json` -/
  fromJson : String → Option EventHead
  /-- `OpCode::from` -/
  opCode : UInt8 → Option OpCode
  /-- `EventTypeFlags::try_from` -/
  eventTypeFlags : OpCode → Option String → Option EventType
  /-- `GatewayEventDeserializer::deserialize`, converted to an `Event` -/
  deserialize : EventHead → String → Except String Event
  /-- `EventType::name` -/
  name : EventType → Option String

structure ParsedEvent where
  forward : Bool
  name : Option String
  event : Option Event
  text : Option String

namespace ParsedEvent
variable (de : Deserializers)

def fromEvent (forward : Bool) (event : Event) (text : Option String) : ParsedEvent :=
  ⟨forward, de.name event.kind, some event, text⟩

def fromText (forward : Bool) (name : Option String) (text : String) : ParsedEvent :=
  ⟨forward, name, none, some text⟩

def fromMessage : Message → Except MessageParseError ParsedEvent
  | .close frame => .ok (fromEvent de false (.gatewayClose frame) none)
  | .text text =>
    match de.fromJson text with
    | none => .error .deserialize
    | some head =>
      match de.opCode head.op with
      | none => .error (.unknownOpCode head.op)
      | some opcode =>
        match de.eventTypeFlags opcode head.eventType with
        | none => .error (.unknownEvent opcode head.eventType)
        | some kind =>
          if wantedEvents.contains kind then
            match de.deserialize head text with
            | .error err => .error (.deserializeEvent err)
            | .ok event => .ok (fromEvent de (opcode == .dispatch) event (some text))
          else
            .ok (fromText (opcode == .dispatch) head.eventType text)

def isClose (self : ParsedEvent) : Bool :=
  match self.event with
  | some (.gatewayClose _) => true
  | _ => false

end ParsedEvent

end Tulpje.Gateway
