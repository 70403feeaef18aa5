import Tulpje.Lib.Mpsc

/-!
# The reconnecting AMQP connection

The crate `reconnecting-amqp`: the state machine of `connection.rs` with the callbacks that feed its
event queue, the handle of `lib.rs` at the other end, and the broker.

A step of the task is one `run` of a state, with the answers of the calls it awaits. Two states take
a first step before they wait: `Connecting` starts `Connection::open`, and `Connected` consumes
`start_tx` before its loop, of which one step is one iteration. Everything else that can happen (a
send, a callback, a connection that dies, `start` and `shutdown`) is an action between two steps.

`Connected` holds `event_tx` and the shared data hold `send_tx`, so neither of its queues is ever
closed: the two branches for a `recv` that returns `None` are not reached and not modelled.
-/

namespace Tulpje.Amqp

open Lib

abbrev Bytes := List UInt8

/-- `Box<dyn Error>`, as its text. -/
abbrev Error := String

inductive CloseReason
  | shutdown
  | channelClosed
  | connectionClosed
  | publishNoRoute
  | fatal (reason : String)
  | other
  | startError (err : Option Error)
  deriving DecidableEq

/-- `Display` for `CloseReason`; `none` is the arm that panics. -/
def CloseReason.display : CloseReason → Option String
  | .shutdown => some "shutdown requested"
  | .fatal reason => some ("a fatal error occured: " ++ reason)
  | _ => none

/-- A connection that `Connection::open` returned, the first one being number 0. -/
structure Connection where
  id : Nat
  deriving DecidableEq

structure Channel where
  conn : Connection
  id : Nat
  deriving DecidableEq

inductive Event
  | connectionClose (conn : Connection)
  | connectionBlock (conn : Connection) (reason : String)
  | connectionUnblock (conn : Connection)
  | secretUpdated (conn : Connection)
  | channelClose (chan : Channel)
  | channelCancel (chan : Channel)
  | channelFlow (chan : Channel) (active : Bool)
  | channelPublishAck (chan : Channel)
  | channelPublishNack (chan : Channel)
  | channelPublishReturn (chan : Channel) (replyCode : UInt16) (data : Bytes)
  | messageReceived (chan : Channel) (data : Bytes)
  deriving DecidableEq

/-- The connection whose callbacks send the event, and so the queue it goes to. -/
def Event.conn : Event → Connection
  | .connectionClose conn | .connectionBlock conn _ | .connectionUnblock conn
  | .secretUpdated conn => conn
  | .channelClose chan | .channelCancel chan | .channelFlow chan _ | .channelPublishAck chan
  | .channelPublishNack chan | .channelPublishReturn chan _ _ | .messageReceived chan _ => chan.conn

/-- The data of a return with reply code 312. -/
def Event.noRoute : Event → Option Bytes
  | .channelPublishReturn _ replyCode data => if replyCode = 312 then some data else none
  | _ => none

/-! ### The broker and the calls to it -/

inductive Call
  | open | registerConnection | openChannel | registerChannel | queueDeclare | basicConsume
  | basicPublish | closeChannel | closeConnection
  deriving DecidableEq

/-- What the calls of one step return: whether they fail, and the text of their error. -/
structure Answer where
  fails : Call → Bool
  text : Call → Error

def Answer.result (answer : Answer) (call : Call) : Except Error Unit :=
  if answer.fails call then .error (answer.text call) else .ok ()

/-- The network side of a run. -/
structure Net where
  /-- how often `Connection::open` was called -/
  opens : Nat
  /-- how many connections it returned -/
  conns : Nat
  /-- connections that are closed -/
  closed : List Connection
  /-- the calls of `open_channel`, with whether the connection was closed -/
  channelOpens : List (Connection × Bool)
  /-- messages published on a connection and not returned -/
  handed : List (Connection × Bytes)

/-- `Connection::open`, when it returns. -/
def Net.openConnection (net : Net) (answer : Answer) : Except Error Connection × Net :=
  match answer.result .open with
  | .error err => (.error err, net)
  | .ok () => (.ok ⟨net.conns⟩, { net with conns := net.conns + 1 })

def Net.isClosed (net : Net) (conn : Connection) : Bool := net.closed.contains conn

/-- `conn.open_channel(None)`, which fails on a closed connection. -/
def Net.openChannel (net : Net) (conn : Connection) (answer : Answer) : Except Error Channel × Net :=
  let chan : Channel := ⟨conn, net.channelOpens.length⟩
  let after := { net with channelOpens := net.channelOpens ++ [(conn, net.isClosed conn)] }
  if net.isClosed conn then (.error (answer.text .openChannel), after)
  else
    match answer.result .openChannel with
    | .error err => (.error err, after)
    | .ok () => (.ok chan, after)

/-- `chan.basic_publish`: `Ok` means that the broker has the message. -/
def Net.basicPublish (net : Net) (conn : Connection) (message : Bytes) (answer : Answer) :
    Except Error Unit × Net :=
  match answer.result .basicPublish with
  | .error err => (.error err, net)
  | .ok () => (.ok (), { net with handed := net.handed ++ [(conn, message)] })

/-! ### The states -/

/-- `start_tx`: whether the task still holds it, what was sent on it, and whether `start_rx` is gone. -/
structure StartTx where
  held : Bool
  sent : List (Option Error)
  rxDropped : Bool

/-- `AmqpSharedData`. The receiver of the send queue is shown by what is in the queue. -/
structure Shared where
  queueName : String
  recvTx : Option (Unbounded Bytes)
  sendRx : List Bytes
  start : StartTx
  shutdown : Bool

inductive State
  | disconnected
  | connecting (opening : Bool)
  | reconnecting
  | openingChannel (conn : Connection) (eventRx : List Event)
  | reopeningChannel (conn : Connection) (eventRx : List Event)
  | declaringConsumer (conn : Connection) (chan : Channel) (eventRx : List Event)
  | connected (conn : Connection) (chan : Channel) (eventRx : List Event) (looping : Bool)
  | closingChannel (conn : Connection) (chan : Option Channel) (eventRx : List Event)
      (reason : CloseReason)
  | closingConnection (conn : Option Connection) (reason : CloseReason)
  | closedConnection (reason : CloseReason)
  | finished (reason : CloseReason)

/-- The branch that `select!` takes. -/
inductive Branch
  | shutdown | event | message
  deriving DecidableEq

def Disconnected.run : State := .connecting false

def Connecting.run (opening : Bool) (shared : Shared) (net : Net) (answer : Answer) : State × Net :=
  if opening then
    match net.openConnection answer with
    | (.error err, net) =>
      let err := "error connecting to amqp: " ++ err
      if shared.start.held then (.closedConnection (.startError (some err)), net)
      else (.reconnecting, net)
    | (.ok conn, net) =>
      match answer.result .registerConnection with
      | .error err =>
        let err := "failed to register amqp connection callback: " ++ err
        if shared.start.held then (.closingConnection (some conn) (.startError (some err)), net)
        else (.closingConnection (some conn) .other, net)
      | .ok () => (.openingChannel conn [], net)
  else (.connecting true, { net with opens := net.opens + 1 })

def Reconnecting.run : State := .connecting false

def OpeningChannel.run (conn : Connection) (eventRx : List Event) (shared : Shared) (net : Net)
    (answer : Answer) : State × Net :=
  match net.openChannel conn answer with
  | (.error err, net) =>
    let err := "couldn't create amqp channel: " ++ err
    if shared.start.held then (.closingConnection (some conn) (.startError (some err)), net)
    else (.reopeningChannel conn eventRx, net)
  | (.ok chan, net) =>
    match answer.result .registerChannel with
    | .error err =>
      let err := "failed to register amqp channel callback: " ++ err
      if shared.start.held then
        (.closingChannel conn (some chan) eventRx (.startError (some err)), net)
      else (.closingChannel conn (some chan) eventRx .other, net)
    | .ok () =>
      match answer.result .queueDeclare with
      | .error err =>
        let err := "error declaring queue '" ++ shared.queueName ++ "': " ++ err
        if shared.start.held then
          (.closingChannel conn (some chan) eventRx (.startError (some err)), net)
        else (.closingChannel conn (some chan) eventRx .other, net)
      | .ok () =>
        if shared.recvTx.isSome then (.declaringConsumer conn chan eventRx, net)
        else (.connected conn chan eventRx false, net)

def ReopeningChannel.run (conn : Connection) (eventRx : List Event) : State :=
  .openingChannel conn eventRx

def DeclaringConsumer.run (conn : Connection) (chan : Channel) (eventRx : List Event)
    (shared : Shared) (answer : Answer) : State :=
  match answer.result .basicConsume with
  | .error err =>
    let err := "error declaring consumer: " ++ err
    if shared.start.held then .closingChannel conn (some chan) eventRx (.startError (some err))
    else .closingChannel conn (some chan) eventRx .other
  | .ok () => .connected conn chan eventRx false

/-- `start_tx.take()`, and `send` if it was still there. A receiver that is gone is only logged. -/
def Shared.sendStarted (shared : Shared) : Shared :=
  if shared.start.held then
    { shared with start := { shared.start with held := false, sent := shared.start.sent ++ [none] } }
  else shared

@[simp] theorem Shared.sendStarted_shutdown (shared : Shared) :
    shared.sendStarted.shutdown = shared.shutdown := by
  unfold sendStarted
  split <;> rfl

@[simp] theorem Shared.sendStarted_recvTx (shared : Shared) :
    shared.sendStarted.recvTx = shared.recvTx := by
  unfold sendStarted
  split <;> rfl

@[simp] theorem Shared.sendStarted_sendRx (shared : Shared) :
    shared.sendStarted.sendRx = shared.sendRx := by
  unfold sendStarted
  split <;> rfl

/-- The match on an event in the loop of `Connected::run`. -/
def Connected.onEvent (conn : Connection) (chan : Channel) (eventRx : List Event) (shared : Shared) :
    Event → State × Shared
  | .connectionClose _ => (.closingChannel conn (some chan) eventRx .connectionClosed, shared)
  | .channelClose _ => (.closingChannel conn (some chan) eventRx .channelClosed, shared)
  | .channelPublishReturn _ replyCode data =>
    if replyCode = 312 then
      -- `shared.send_tx.send(data)`, whose receiver is in the same shared data
      (.closingChannel conn (some chan) eventRx .publishNoRoute,
        { shared with sendRx := shared.sendRx ++ [data] })
    else (.connected conn chan eventRx true, shared)
  | .messageReceived _ data =>
    match shared.recvTx.bind (·.send data) with
    | some recvTx => (.connected conn chan eventRx true, { shared with recvTx := some recvTx })
    | none => (.connected conn chan eventRx true, shared)
  | _ => (.connected conn chan eventRx true, shared)

/-- The first step consumes `start_tx`; every other one is an iteration of the loop, in which a branch
that is not ready leaves the task waiting. -/
def Connected.run (conn : Connection) (chan : Channel) (eventRx : List Event) (looping : Bool)
    (shared : Shared) (net : Net) (answer : Answer) (branch : Branch) : State × Shared × Net :=
  if looping then
    match branch with
    | .shutdown =>
      if shared.shutdown then (.closingChannel conn (some chan) eventRx .shutdown, shared, net)
      else (.connected conn chan eventRx true, shared, net)
    | .event =>
      match eventRx with
      | [] => (.connected conn chan [] true, shared, net)
      | event :: eventRx =>
        let after := Connected.onEvent conn chan eventRx shared event
        (after.1, after.2, net)
    | .message =>
      match shared.sendRx with
      | [] => (.connected conn chan eventRx true, shared, net)
      | message :: sendRx =>
        -- an error of the publish is only logged
        (.connected conn chan eventRx true, { shared with sendRx := sendRx },
          (net.basicPublish conn message answer).2)
  else (.connected conn chan eventRx true, shared.sendStarted, net)

/-- `none` is the failed `assert!` on `self.chan`. -/
def ClosingChannel.run (conn : Connection) (chan : Option Channel) (eventRx : List Event)
    (reason : CloseReason) (answer : Answer) : Option State :=
  match chan with
  | none => none
  | some _ =>
    match answer.result .closeChannel with
    | .error _ => some (.closingConnection (some conn) reason)
    | .ok () =>
      match reason with
      | .channelClosed | .publishNoRoute => some (.reopeningChannel conn eventRx)
      | .connectionClosed | .fatal _ | .other | .shutdown | .startError _ =>
        some (.closingConnection (some conn) reason)

/-- `none` is the failed `assert!` on `self.conn`; an error of the close is only logged. -/
def ClosingConnection.run (conn : Option Connection) (reason : CloseReason) (net : Net) :
    Option (State × Net) :=
  match conn with
  | none => none
  | some conn => some (.closedConnection reason, { net with closed := conn :: net.closed })

def ClosedConnection.run (reason : CloseReason) (shared : Shared) : State × Shared :=
  match reason with
  | .channelClosed | .publishNoRoute | .connectionClosed | .other => (.reconnecting, shared)
  | .fatal _ | .shutdown => (.finished reason, shared)
  | .startError err =>
    if shared.start.held then
      match err with
      | none =>
        (.finished (.fatal "inner error is None, this shouldn't happen"),
          { shared with start := { shared.start with held := false } })
      | some err =>
        let shared :=
          { shared with
            start := { shared.start with held := false, sent := shared.start.sent ++ [some err] } }
        if shared.start.rxDropped then
          (.finished (.fatal ("couldn't send error back to user: " ++ err)), shared)
        else (.finished (.fatal "error while starting"), shared)
    else
      match err with
      | none =>
        (.finished
          (.fatal "start_tx already consumed, and inner error is None, neither should happen"), shared)
      | some err =>
        (.finished
          (.fatal ("start_tx already consumed, shouldn't happen, inner error: " ++ err)), shared)

/-- `State::run`; `none` is a panic. -/
def State.run (state : State) (shared : Shared) (net : Net) (answer : Answer) (branch : Branch) :
    Option (State × Shared × Net) :=
  match state with
  | .disconnected => some (Disconnected.run, shared, net)
  | .connecting opening =>
    let (state, net) := Connecting.run opening shared net answer
    some (state, shared, net)
  | .reconnecting => some (Reconnecting.run, shared, net)
  | .openingChannel conn eventRx =>
    let (state, net) := OpeningChannel.run conn eventRx shared net answer
    some (state, shared, net)
  | .reopeningChannel conn eventRx => some (ReopeningChannel.run conn eventRx, shared, net)
  | .declaringConsumer conn chan eventRx =>
    some (DeclaringConsumer.run conn chan eventRx shared answer, shared, net)
  | .connected conn chan eventRx looping =>
    some (Connected.run conn chan eventRx looping shared net answer branch)
  | .closingChannel conn chan eventRx reason =>
    (ClosingChannel.run conn chan eventRx reason answer).map fun state => (state, shared, net)
  | .closingConnection conn reason =>
    (ClosingConnection.run conn reason net).map fun (state, net) => (state, shared, net)
  | .closedConnection reason =>
    let (state, shared) := ClosedConnection.run reason shared
    some (state, shared, net)
  | .finished reason => some (.finished reason, shared, net)

/-! ### What a call decides -/

theorem Answer.result_of_fails {answer : Answer} {call : Call} (h : answer.fails call = true) :
    answer.result call = .error (answer.text call) := by
  simp [Answer.result, h]

theorem Answer.result_of_not_fails {answer : Answer} {call : Call} (h : answer.fails call = false) :
    answer.result call = .ok () := by
  simp [Answer.result, h]

/-- The three ways out of a pending `Connection::open`. -/
theorem Connecting.run_cases (shared : Shared) (net : Net) (answer : Answer) :
    (answer.fails .open = true ∧ ∃ err, Connecting.run true shared net answer =
      (if shared.start.held then .closedConnection (.startError (some err)) else .reconnecting, net)) ∨
    (answer.fails .open = false ∧ answer.fails .registerConnection = true ∧
      ∃ err, Connecting.run true shared net answer =
        (.closingConnection (some ⟨net.conns⟩)
          (if shared.start.held then .startError (some err) else .other),
        { net with conns := net.conns + 1 })) ∨
    (answer.fails .open = false ∧ answer.fails .registerConnection = false ∧
      Connecting.run true shared net answer =
        (.openingChannel ⟨net.conns⟩ [], { net with conns := net.conns + 1 })) := by
  cases hopen : answer.fails .open with
  | true =>
    refine .inl ⟨rfl, "error connecting to amqp: " ++ answer.text .open, ?_⟩
    simp only [Connecting.run, Net.openConnection, Answer.result_of_fails hopen, if_true]
    split <;> rfl
  | false =>
    refine .inr ?_
    simp only [Connecting.run, Net.openConnection, Answer.result_of_not_fails hopen, if_true]
    cases hreg : answer.fails .registerConnection with
    | true =>
      refine .inl ⟨trivial, rfl,
        "failed to register amqp connection callback: " ++ answer.text .registerConnection, ?_⟩
      rw [Answer.result_of_fails hreg]
      cases shared.start.held <;> rfl
    | false => exact .inr ⟨trivial, rfl, by rw [Answer.result_of_not_fails hreg]⟩

/-- What `open_channel` leaves behind, whatever it returns. -/
def Net.afterOpenChannel (net : Net) (conn : Connection) : Net :=
  { net with channelOpens := net.channelOpens ++ [(conn, net.isClosed conn)] }

theorem Net.openChannel_cases (net : Net) (conn : Connection) (answer : Answer) :
    ((net.isClosed conn || answer.fails .openChannel) = true ∧
      net.openChannel conn answer = (.error (answer.text .openChannel), net.afterOpenChannel conn)) ∨
    ((net.isClosed conn || answer.fails .openChannel) = false ∧
      ∃ chan, net.openChannel conn answer = (.ok chan, net.afterOpenChannel conn)) := by
  unfold Net.openChannel Net.afterOpenChannel
  cases hclosed : net.isClosed conn with
  | true => exact .inl ⟨rfl, rfl⟩
  | false =>
    cases hopen : answer.fails .openChannel with
    | true => exact .inl ⟨rfl, by simp [Answer.result_of_fails hopen]⟩
    | false => exact .inr ⟨rfl, _, by simp [Answer.result_of_not_fails hopen]; rfl⟩

/-- The ways out of `OpeningChannel`: no channel, a channel that could not be set up, a channel. -/
theorem OpeningChannel.run_cases (conn : Connection) (eventRx : List Event) (shared : Shared)
    (net : Net) (answer : Answer) :
    ((net.isClosed conn || answer.fails .openChannel) = true ∧
      ∃ err, OpeningChannel.run conn eventRx shared net answer =
        (if shared.start.held then .closingConnection (some conn) (.startError (some err))
          else .reopeningChannel conn eventRx, net.afterOpenChannel conn)) ∨
    ((net.isClosed conn || answer.fails .openChannel) = false ∧
      (answer.fails .registerChannel || answer.fails .queueDeclare) = true ∧
      ∃ chan err, OpeningChannel.run conn eventRx shared net answer =
        (.closingChannel conn (some chan) eventRx
          (if shared.start.held then .startError (some err) else .other), net.afterOpenChannel conn)) ∨
    ((net.isClosed conn || answer.fails .openChannel) = false ∧
      (answer.fails .registerChannel || answer.fails .queueDeclare) = false ∧
      ∃ chan, OpeningChannel.run conn eventRx shared net answer =
        (if shared.recvTx.isSome then .declaringConsumer conn chan eventRx
          else .connected conn chan eventRx false, net.afterOpenChannel conn)) := by
  unfold OpeningChannel.run
  rcases net.openChannel_cases conn answer with ⟨hopen, h⟩ | ⟨hopen, chan, h⟩
  · refine .inl ⟨hopen, "couldn't create amqp channel: " ++ answer.text .openChannel, ?_⟩
    rw [h]
    cases shared.start.held <;> rfl
  · refine .inr ?_
    simp only [h]
    cases hreg : answer.fails .registerChannel with
    | true =>
      refine .inl ⟨hopen, rfl, chan,
        "failed to register amqp channel callback: " ++ answer.text .registerChannel, ?_⟩
      simp only [Answer.result_of_fails hreg]
      cases shared.start.held <;> rfl
    | false =>
      simp only [Answer.result_of_not_fails hreg]
      cases hdecl : answer.fails .queueDeclare with
      | true =>
        refine .inl ⟨hopen, rfl, chan,
          "error declaring queue '" ++ shared.queueName ++ "': " ++ answer.text .queueDeclare, ?_⟩
        simp only [Answer.result_of_fails hdecl]
        cases shared.start.held <;> rfl
      | false =>
        refine .inr ⟨hopen, rfl, chan, ?_⟩
        simp only [Answer.result_of_not_fails hdecl]
        cases shared.recvTx.isSome <;> rfl

theorem DeclaringConsumer.run_cases (conn : Connection) (chan : Channel) (eventRx : List Event)
    (shared : Shared) (answer : Answer) :
    (answer.fails .basicConsume = true ∧
      ∃ err, DeclaringConsumer.run conn chan eventRx shared answer =
        .closingChannel conn (some chan) eventRx
          (if shared.start.held then .startError (some err) else .other)) ∨
    (answer.fails .basicConsume = false ∧
      DeclaringConsumer.run conn chan eventRx shared answer = .connected conn chan eventRx false) := by
  unfold DeclaringConsumer.run
  cases hcons : answer.fails .basicConsume with
  | true =>
    refine .inl ⟨rfl, "error declaring consumer: " ++ answer.text .basicConsume, ?_⟩
    simp only [Answer.result_of_fails hcons]
    cases shared.start.held <;> rfl
  | false => exact .inr ⟨rfl, by simp only [Answer.result_of_not_fails hcons]⟩

/-- Whether a channel closed for this reason is opened again. -/
def CloseReason.reopens : CloseReason → Bool
  | .channelClosed | .publishNoRoute => true
  | _ => false

theorem ClosingChannel.run_some (conn : Connection) (chan : Channel) (eventRx : List Event)
    (reason : CloseReason) (answer : Answer) :
    ClosingChannel.run conn (some chan) eventRx reason answer =
      some (if reason.reopens && !answer.fails .closeChannel then .reopeningChannel conn eventRx
        else .closingConnection (some conn) reason) := by
  unfold ClosingChannel.run
  cases hclose : answer.fails .closeChannel with
  | true => simp [Answer.result_of_fails hclose]
  | false => cases reason <;> simp [Answer.result_of_not_fails hclose, CloseReason.reopens]

section Connected
variable (conn : Connection) (chan : Channel) (eventRx : List Event) {shared : Shared} (net : Net)
  (answer : Answer)

theorem Connected.run_first (branch : Branch) :
    Connected.run conn chan eventRx false shared net answer branch =
      (.connected conn chan eventRx true, shared.sendStarted, net) := rfl

theorem Connected.run_shutdown :
    Connected.run conn chan eventRx true shared net answer .shutdown =
      (if shared.shutdown then .closingChannel conn (some chan) eventRx .shutdown
        else .connected conn chan eventRx true, shared, net) := by
  cases h : shared.shutdown <;> simp [Connected.run, h]

theorem Connected.run_event (event : Event) :
    Connected.run conn chan (event :: eventRx) true shared net answer .event =
      ((onEvent conn chan eventRx shared event).1, (onEvent conn chan eventRx shared event).2, net) :=
  rfl

theorem Connected.run_no_message (h : shared.sendRx = []) :
    Connected.run conn chan eventRx true shared net answer .message =
      (.connected conn chan eventRx true, shared, net) := by
  simp [Connected.run, h]

theorem Connected.run_message {message : Bytes} {sendRx : List Bytes}
    (h : shared.sendRx = message :: sendRx) :
    Connected.run conn chan eventRx true shared net answer .message =
      (.connected conn chan eventRx true, { shared with sendRx := sendRx },
        (net.basicPublish conn message answer).2) := by
  simp [Connected.run, h]

/-- Only a close of the connection, a close of the channel and a return with 312 leave the loop. -/
theorem Connected.onEvent_cases (shared : Shared) (event : Event) :
    (∃ c, event = .connectionClose c ∧ onEvent conn chan eventRx shared event =
        (.closingChannel conn (some chan) eventRx .connectionClosed, shared)) ∨
      (∃ c, event = .channelClose c ∧ onEvent conn chan eventRx shared event =
        (.closingChannel conn (some chan) eventRx .channelClosed, shared)) ∨
      (∃ data, event.noRoute = some data ∧ onEvent conn chan eventRx shared event =
        (.closingChannel conn (some chan) eventRx .publishNoRoute,
          { shared with sendRx := shared.sendRx ++ [data] })) ∨
      (event.noRoute = none ∧ (∀ c, event ≠ .connectionClose c) ∧
        ∃ recvTx, onEvent conn chan eventRx shared event =
          (.connected conn chan eventRx true, { shared with recvTx := recvTx })) := by
  cases event with
  | connectionClose c => exact .inl ⟨c, rfl, rfl⟩
  | channelClose c => exact .inr (.inl ⟨c, rfl, rfl⟩)
  | channelPublishReturn c replyCode data =>
    by_cases hcode : replyCode = 312
    · exact .inr (.inr (.inl ⟨data, by simp [Event.noRoute, hcode], by simp [onEvent, hcode]⟩))
    · refine .inr (.inr (.inr ⟨by simp [Event.noRoute, hcode], by simp, shared.recvTx, ?_⟩))
      simp [onEvent, hcode]
  | messageReceived c data =>
    refine .inr (.inr (.inr ⟨rfl, by simp, ?_⟩))
    cases hsend : shared.recvTx.bind (·.send data) with
    | none => exact ⟨shared.recvTx, by simp [onEvent, hsend]⟩
    | some recvTx => exact ⟨some recvTx, by simp [onEvent, hsend]⟩
  | _ => exact .inr (.inr (.inr ⟨rfl, by simp, shared.recvTx, rfl⟩))

theorem Net.basicPublish_cases (message : Bytes) :
    ∃ handed, (net.basicPublish conn message answer).2 = { net with handed := handed } := by
  unfold Net.basicPublish
  split <;> exact ⟨_, rfl⟩

/-- `Connected` stays, or closes its channel; of the network it changes only what was handed over. -/
theorem Connected.run_cases (looping : Bool) (shared : Shared) (branch : Branch) :
    (∃ eventRx', (Connected.run conn chan eventRx looping shared net answer branch).1 =
        .connected conn chan eventRx' true ∨
      ∃ reason, (Connected.run conn chan eventRx looping shared net answer branch).1 =
        .closingChannel conn (some chan) eventRx' reason) ∧
    ∃ handed, (Connected.run conn chan eventRx looping shared net answer branch).2.2 =
      { net with handed := handed } := by
  cases looping with
  | false => exact ⟨⟨eventRx, .inl rfl⟩, net.handed, rfl⟩
  | true =>
    cases branch with
    | shutdown =>
      rw [run_shutdown]
      refine ⟨⟨eventRx, ?_⟩, net.handed, rfl⟩
      cases shared.shutdown with
      | true => exact .inr ⟨_, rfl⟩
      | false => exact .inl rfl
    | event =>
      cases eventRx with
      | nil => exact ⟨⟨[], .inl rfl⟩, net.handed, rfl⟩
      | cons event eventRx =>
        rw [run_event]
        refine ⟨⟨eventRx, ?_⟩, net.handed, rfl⟩
        rcases onEvent_cases conn chan eventRx shared event with
          ⟨_, -, h⟩ | ⟨_, -, h⟩ | ⟨_, -, h⟩ | ⟨-, -, _, h⟩ <;> rw [h]
        · exact .inr ⟨_, rfl⟩
        · exact .inr ⟨_, rfl⟩
        · exact .inr ⟨_, rfl⟩
        · exact .inl rfl
    | message =>
      cases hq : shared.sendRx with
      | nil =>
        rw [run_no_message _ _ _ _ _ hq]
        exact ⟨⟨eventRx, .inl rfl⟩, net.handed, rfl⟩
      | cons message sendRx =>
        rw [run_message _ _ _ _ _ hq]
        exact ⟨⟨eventRx, .inl rfl⟩, net.basicPublish_cases conn answer message⟩

end Connected

/-- The reasons that `ClosedConnection` does not answer with a reconnect. -/
def CloseReason.finishes : CloseReason → Bool
  | .shutdown | .fatal _ | .startError _ => true
  | _ => false

/-- `ClosedConnection` reconnects or finishes, and changes nothing but `start_tx`. -/
theorem ClosedConnection.run_cases (reason : CloseReason) (shared : Shared) :
    ((reason.finishes = false ∧ (ClosedConnection.run reason shared).1 = .reconnecting) ∨
      (reason.finishes = true ∧ ∃ final, (ClosedConnection.run reason shared).1 = .finished final)) ∧
      ∃ start, (ClosedConnection.run reason shared).2 = { shared with start := start } := by
  cases reason with
  | startError err =>
    obtain ⟨queueName, recvTx, sendRx, ⟨held, sent, rxDropped⟩, shutdown⟩ := shared
    cases held <;> cases err <;> cases rxDropped <;> exact ⟨.inr ⟨rfl, _, rfl⟩, _, rfl⟩
  | fatal | shutdown => exact ⟨.inr ⟨rfl, _, rfl⟩, _, rfl⟩
  | _ => exact ⟨.inl ⟨rfl, rfl⟩, _, rfl⟩

theorem ClosedConnection.run_startError {shared : Shared} (err : Error)
    (hheld : shared.start.held = true) :
    ∃ text, ClosedConnection.run (.startError (some err)) shared =
      (.finished (.fatal text),
        { shared with
          start := { shared.start with held := false, sent := shared.start.sent ++ [some err] } }) := by
  cases hrx : shared.start.rxDropped <;> exact ⟨_, by simp [ClosedConnection.run, hheld, hrx]; rfl⟩

theorem State.run_closedConnection (reason : CloseReason) (shared : Shared) (net : Net)
    (answer : Answer) (branch : Branch) :
    (State.closedConnection reason).run shared net answer branch =
      some ((ClosedConnection.run reason shared).1, (ClosedConnection.run reason shared).2, net) := rfl

/-! ### The task and its surroundings -/

/-- `AmqpConnection::run`. It returns without a reason when shutdown came before the start. -/
inductive Task
  | awaitingStart (started : Bool)
  | running (state : State)
  | returned (reason : Option CloseReason)
  | panicked

structure World where
  task : Task
  shared : Shared
  net : Net
  /-- messages that a sender of the handle has accepted -/
  accepted : List Bytes
  /-- how often `Connected::run` was entered -/
  connectedRuns : Nat
  /-- whether an attempt to connect failed before that ever happened -/
  startFailed : Bool

inductive Action
  | start
  | dropStartRx
  | shutdown
  | send (message : Bytes)
  | callback (event : Event)
  | close (conn : Connection)
  | task (answer : Answer) (branch : Branch)

def Action.isTask : Action → Bool
  | .task _ _ => true
  | _ => false

/-- Whether a call on the way to `Connected` fails in this step. -/
def State.attemptFails (state : State) (net : Net) (answer : Answer) : Bool :=
  match state with
  | .connecting true => answer.fails .open || answer.fails .registerConnection
  | .openingChannel conn _ =>
    net.isClosed conn || answer.fails .openChannel || answer.fails .registerChannel ||
      answer.fails .queueDeclare
  | .declaringConsumer _ _ _ => answer.fails .basicConsume
  | _ => false

theorem State.attemptFails_of_open {net : Net} {conn : Connection} {answer : Answer}
    (hopen : (net.isClosed conn || answer.fails .openChannel) = true) (eventRx : List Event) :
    (State.openingChannel conn eventRx).attemptFails net answer = true := by
  rw [attemptFails, Bool.or_assoc, hopen, Bool.true_or]

theorem State.attemptFails_of_setUp {conn : Connection} {answer : Answer}
    (hset : (answer.fails .registerChannel || answer.fails .queueDeclare) = true)
    (eventRx : List Event) (net : Net) :
    (State.openingChannel conn eventRx).attemptFails net answer = true := by
  rw [attemptFails, Bool.or_assoc, hset, Bool.or_true]

theorem State.not_attemptFails {net : Net} {conn : Connection} {answer : Answer}
    (hopen : (net.isClosed conn || answer.fails .openChannel) = false)
    (hset : (answer.fails .registerChannel || answer.fails .queueDeclare) = false)
    (eventRx : List Event) :
    (State.openingChannel conn eventRx).attemptFails net answer = false := by
  rw [attemptFails, Bool.or_assoc, hopen, hset, Bool.or_false]

/-- `Connected::run` is entered by its first step. -/
def State.entersConnected : State → Bool
  | .connected _ _ _ false => true
  | _ => false

/-- One step of the loop of `AmqpConnection::run`; displaying the reason may panic. -/
def World.runState (w : World) (state : State) (answer : Answer) (branch : Branch) : World :=
  match state with
  | .finished reason =>
    match reason.display with
    | some _ => { w with task := .returned (some reason) }
    | none => { w with task := .panicked }
  | state =>
    match state.run w.shared w.net answer branch with
    | none => { w with task := .panicked }
    | some (next, shared, net) =>
      { w with
        task := .running next
        shared := shared
        net := net
        connectedRuns := w.connectedRuns + if state.entersConnected then 1 else 0
        startFailed :=
          w.startFailed || (w.connectedRuns == 0 && state.attemptFails w.net answer) }

theorem World.runState_finished (w : World) {reason : CloseReason} {text : String}
    (h : reason.display = some text) (answer : Answer) (branch : Branch) :
    w.runState (.finished reason) answer branch = { w with task := .returned (some reason) } := by
  simp only [runState, h]

/-- A step of the loop that does not break out of it. -/
theorem World.runState_of_run {w : World} {state next : State} {shared : Shared} {net : Net}
    {answer : Answer} {branch : Branch} (hstate : ∀ reason, state ≠ .finished reason)
    (h : state.run w.shared w.net answer branch = some (next, shared, net)) :
    w.runState state answer branch =
      { w with
        task := .running next
        shared := shared
        net := net
        connectedRuns := w.connectedRuns + if state.entersConnected then 1 else 0
        startFailed :=
          w.startFailed || (w.connectedRuns == 0 && state.attemptFails w.net answer) } := by
  cases state with
  | finished reason => exact absurd rfl (hstate reason)
  | _ => simp only [runState, h]

/-- The task waits for the start, and then for every step of a state. -/
def World.runTask (w : World) (answer : Answer) (branch : Branch) : World :=
  match w.task with
  | .awaitingStart started =>
    if started then
      if w.shared.shutdown then { w with task := .returned none }
      else { w with task := .running .disconnected }
    else w
  | .running state => w.runState state answer branch
  | .returned _ | .panicked => w

/-- The task holds the receiver of the send queue until it returns. -/
def Task.isLive : Task → Bool
  | .awaitingStart _ | .running _ => true
  | .returned _ | .panicked => false

/-- A callback's send: the queue of a connection is there while a state holds its receiver. -/
def State.push (state : State) (event : Event) : State :=
  let into (conn : Connection) (eventRx : List Event) :=
    if event.conn = conn then eventRx ++ [event] else eventRx
  match state with
  | .openingChannel conn eventRx => .openingChannel conn (into conn eventRx)
  | .reopeningChannel conn eventRx => .reopeningChannel conn (into conn eventRx)
  | .declaringConsumer conn chan eventRx => .declaringConsumer conn chan (into conn eventRx)
  | .connected conn chan eventRx looping => .connected conn chan (into conn eventRx) looping
  | .closingChannel conn chan eventRx reason => .closingChannel conn chan (into conn eventRx) reason
  | .disconnected | .connecting _ | .reconnecting | .closingConnection _ _ | .closedConnection _
  | .finished _ => state

def Task.push (task : Task) (event : Event) : Task :=
  match task with
  | .running state => .running (state.push event)
  | _ => task

/-- The close request of a connection closes it. -/
def Net.onCallback (net : Net) : Event → Net
  | .connectionClose conn => { net with closed := conn :: net.closed }
  | _ => net

/-- A callback of a connection that was opened. What comes back with 312 was published on it. -/
def World.callback (w : World) (event : Event) : World :=
  if event.conn.id < w.net.conns then
    match event.noRoute with
    | some data =>
      if (event.conn, data) ∈ w.net.handed then
        { w with
          task := w.task.push event
          net := { w.net with handed := w.net.handed.erase (event.conn, data) } }
      else w
    | none => { w with task := w.task.push event, net := w.net.onCallback event }
  else w

def World.step (w : World) : Action → World
  | .start =>
    match w.task with
    | .awaitingStart _ => { w with task := .awaitingStart true }
    | _ => w
  | .dropStartRx =>
    { w with shared := { w.shared with start := { w.shared.start with rxDropped := true } } }
  | .shutdown => { w with shared := { w.shared with shutdown := true } }
  | .send message =>
    if w.task.isLive then
      { w with
        shared := { w.shared with sendRx := w.shared.sendRx ++ [message] }
        accepted := w.accepted ++ [message] }
    else w
  | .callback event => w.callback event
  | .close conn =>
    if conn.id < w.net.conns then { w with net := { w.net with closed := conn :: w.net.closed } }
    else w
  | .task answer branch => w.runTask answer branch

/-- `AmqpHandle::new`, which spawns the task. -/
def World.new (queueName : String) (recvTx : Option (Unbounded Bytes)) : World where
  task := .awaitingStart false
  shared := ⟨queueName, recvTx, [], ⟨true, [], false⟩, false⟩
  net := ⟨0, 0, [], [], []⟩
  accepted := []
  connectedRuns := 0
  startFailed := false

def World.run (w : World) (acts : List Action) : World := acts.foldl World.step w

/-! ### A run that connects -/

/-- Every call of the step succeeds. -/
def Answer.ok : Answer := ⟨fun _ => false, fun _ => ""⟩

/-- One call of the step fails. -/
def Answer.failing (call : Call) : Answer := ⟨fun c => c == call, fun _ => "connection closed"⟩

/-- A start without an error, up to the loop of `Connected`. -/
def connects : List Action := .start :: List.replicate 6 (.task .ok .message)

end Tulpje.Amqp
