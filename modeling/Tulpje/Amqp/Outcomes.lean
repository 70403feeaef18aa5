import Tulpje.Amqp.Machine

/-!
# What a run of a state leads to

`State.Ran` has a case for each way out of a state, with the calls that decide it. What a run keeps, loses or forwards
is read off these cases.
-/

namespace Tulpje.Amqp

/-- The outcomes of `State::run`. -/
inductive State.Ran (shared : Shared) (net : Net) (answer : Answer) (branch : Branch) :
    State → State → Shared → Net → Prop
  | disconnected : Ran shared net answer branch .disconnected (.connecting false) shared net
  | opens : Ran shared net answer branch (.connecting false) (.connecting true) shared
      { net with opens := net.opens + 1 }
  | noConnection (err : Error) (hopen : answer.fails .open = true) :
      Ran shared net answer branch (.connecting true)
        (if shared.start.held then .closedConnection (.startError (some err)) else .reconnecting) shared net
  | notRegistered (err : Error) (hopen : answer.fails .open = false)
      (hreg : answer.fails .registerConnection = true) :
      Ran shared net answer branch (.connecting true)
        (.closingConnection (some ⟨net.conns⟩) (if shared.start.held then .startError (some err) else .other))
        shared { net with conns := net.conns + 1 }
  | connection (hopen : answer.fails .open = false) (hreg : answer.fails .registerConnection = false) :
      Ran shared net answer branch (.connecting true) (.openingChannel ⟨net.conns⟩ []) shared
        { net with conns := net.conns + 1 }
  | reconnecting : Ran shared net answer branch .reconnecting (.connecting false) shared net
  | noChannel (conn : Connection) (eventRx : List Event) (err : Error)
      (hopen : (net.isClosed conn || answer.fails .openChannel) = true) :
      Ran shared net answer branch (.openingChannel conn eventRx)
        (if shared.start.held then .closingConnection (some conn) (.startError (some err))
          else .reopeningChannel conn eventRx) shared (net.afterOpenChannel conn)
  | notSetUp (conn : Connection) (eventRx : List Event) (chan : Channel) (err : Error)
      (hopen : (net.isClosed conn || answer.fails .openChannel) = false)
      (hset : (answer.fails .registerChannel || answer.fails .queueDeclare) = true) :
      Ran shared net answer branch (.openingChannel conn eventRx)
        (.closingChannel conn (some chan) eventRx
          (if shared.start.held then .startError (some err) else .other)) shared (net.afterOpenChannel conn)
  | channel (conn : Connection) (eventRx : List Event) (chan : Channel)
      (hopen : (net.isClosed conn || answer.fails .openChannel) = false)
      (hset : (answer.fails .registerChannel || answer.fails .queueDeclare) = false) :
      Ran shared net answer branch (.openingChannel conn eventRx)
        (if shared.recvTx.isSome then .declaringConsumer conn chan eventRx
          else .connected conn chan eventRx false) shared (net.afterOpenChannel conn)
  | reopeningChannel (conn : Connection) (eventRx : List Event) :
      Ran shared net answer branch (.reopeningChannel conn eventRx) (.openingChannel conn eventRx) shared net
  | noConsumer (conn : Connection) (chan : Channel) (eventRx : List Event) (err : Error)
      (hcons : answer.fails .basicConsume = true) :
      Ran shared net answer branch (.declaringConsumer conn chan eventRx)
        (.closingChannel conn (some chan) eventRx
          (if shared.start.held then .startError (some err) else .other)) shared net
  | consumer (conn : Connection) (chan : Channel) (eventRx : List Event)
      (hcons : answer.fails .basicConsume = false) :
      Ran shared net answer branch (.declaringConsumer conn chan eventRx) (.connected conn chan eventRx false)
        shared net
  | entersLoop (conn : Connection) (chan : Channel) (eventRx : List Event) :
      Ran shared net answer branch (.connected conn chan eventRx false) (.connected conn chan eventRx true)
        shared.sendStarted net
  | loop (conn : Connection) (chan : Channel) (eventRx : List Event) :
      Ran shared net answer branch (.connected conn chan eventRx true)
        (Connected.run conn chan eventRx true shared net answer branch).1
        (Connected.run conn chan eventRx true shared net answer branch).2.1
        (Connected.run conn chan eventRx true shared net answer branch).2.2
  | channelClosed (conn : Connection) (chan : Channel) (eventRx : List Event) (reason : CloseReason)
      (hreopens : reason.reopens = false) :
      Ran shared net answer branch (.closingChannel conn (some chan) eventRx reason)
        (.closingConnection (some conn) reason) shared net
  | channelNotClosed (conn : Connection) (chan : Channel) (eventRx : List Event) (reason : CloseReason)
      (hreopens : reason.reopens = true) (hclose : answer.fails .closeChannel = true) :
      Ran shared net answer branch (.closingChannel conn (some chan) eventRx reason)
        (.closingConnection (some conn) reason) shared net
  | reopens (conn : Connection) (chan : Channel) (eventRx : List Event) (reason : CloseReason)
      (hreopens : reason.reopens = true) (hclose : answer.fails .closeChannel = false) :
      Ran shared net answer branch (.closingChannel conn (some chan) eventRx reason)
        (.reopeningChannel conn eventRx) shared net
  | closingConnection (conn : Connection) (reason : CloseReason) :
      Ran shared net answer branch (.closingConnection (some conn) reason) (.closedConnection reason) shared
        { net with closed := conn :: net.closed }
  | closedConnection (reason : CloseReason) :
      Ran shared net answer branch (.closedConnection reason) (ClosedConnection.run reason shared).1
        (ClosedConnection.run reason shared).2 net
  | finished (reason : CloseReason) :
      Ran shared net answer branch (.finished reason) (.finished reason) shared net

section Runs
variable {state next : State} {shared shared' : Shared} {net net' : Net} {answer : Answer} {branch : Branch}

theorem State.ran_of_run (h : state.run shared net answer branch = some (next, shared', net')) :
    Ran shared net answer branch state next shared' net' := by
  cases state with
  | disconnected =>
    cases h
    exact .disconnected
  | connecting opening =>
    cases opening with
    | false =>
      cases h
      exact .opens
    | true =>
      rcases Connecting.run_cases shared net answer with
        ⟨hopen, err, hrun⟩ | ⟨hopen, hreg, err, hrun⟩ | ⟨hopen, hreg, hrun⟩ <;>
        rw [State.run, hrun] at h <;> cases h
      · exact .noConnection err hopen
      · exact .notRegistered err hopen hreg
      · exact .connection hopen hreg
  | reconnecting =>
    cases h
    exact .reconnecting
  | openingChannel conn eventRx =>
    rcases OpeningChannel.run_cases conn eventRx shared net answer with
      ⟨hopen, err, hrun⟩ | ⟨hopen, hset, chan, err, hrun⟩ | ⟨hopen, hset, chan, hrun⟩ <;>
      rw [State.run, hrun] at h <;> cases h
    · exact .noChannel conn eventRx err hopen
    · exact .notSetUp conn eventRx chan err hopen hset
    · exact .channel conn eventRx chan hopen hset
  | reopeningChannel conn eventRx =>
    cases h
    exact .reopeningChannel conn eventRx
  | declaringConsumer conn chan eventRx =>
    rcases DeclaringConsumer.run_cases conn chan eventRx shared answer with
      ⟨hcons, err, hrun⟩ | ⟨hcons, hrun⟩ <;> rw [State.run, hrun] at h <;> cases h
    · exact .noConsumer conn chan eventRx err hcons
    · exact .consumer conn chan eventRx hcons
  | connected conn chan eventRx looping =>
    have hrun : Connected.run conn chan eventRx looping shared net answer branch = (next, shared', net') :=
      Option.some.inj h
    cases looping with
    | false =>
      rw [Connected.run_first] at hrun
      cases hrun
      exact .entersLoop conn chan eventRx
    | true =>
      have hloop : Ran shared net answer branch (.connected conn chan eventRx true) _ _ _ := .loop conn chan eventRx
      rwa [hrun] at hloop
  | closingChannel conn chan eventRx reason =>
    cases chan with
    | none => cases h
    | some chan =>
      rw [State.run, ClosingChannel.run_some] at h
      cases h
      cases hreopens : reason.reopens with
      | false => exact .channelClosed conn chan eventRx reason hreopens
      | true =>
        cases hclose : answer.fails .closeChannel with
        | true => exact .channelNotClosed conn chan eventRx reason hreopens hclose
        | false => exact .reopens conn chan eventRx reason hreopens hclose
  | closingConnection conn reason =>
    cases conn with
    | none => cases h
    | some conn =>
      cases h
      exact .closingConnection conn reason
  | closedConnection reason =>
    rw [State.run_closedConnection, Option.some.injEq, Prod.mk.injEq, Prod.mk.injEq] at h
    obtain ⟨rfl, rfl, rfl⟩ := h
    exact .closedConnection reason
  | finished reason =>
    cases h
    exact .finished reason

end Runs

end Tulpje.Amqp
