import Mathlib.Algebra.Order.Group.Nat
import Tulpje.Amqp.Publisher

/-!
# What becomes of a delivered message

A delivery that `AmqpConsumer::consume` put on an event queue is sent on `recv_tx`, or it waits in the queue
that `Connected` will read, or it is gone: the broker got no ack to wait for. `Consumer` records beside
the machine which deliveries arrived and which were forwarded, in their order.

A delivery is lost when the machine gives up the queue it is in (`State.GivesUp`), or arrives at a queue that
was given up and not dropped yet. `delivered_iff` says that there is no other way.
-/

namespace Tulpje.Amqp

open Lib

/-! ### Deliveries and the queue they wait in -/

/-- The channel and the data of a delivery. -/
def Event.delivery : Event → Option (Channel × Bytes)
  | .messageReceived chan data => some (chan, data)
  | _ => none

def deliveries (eventRx : List Event) : List (Channel × Bytes) := eventRx.filterMap Event.delivery

theorem deliveries_append (eventRx eventRx' : List Event) :
    deliveries (eventRx ++ eventRx') = deliveries eventRx ++ deliveries eventRx' := List.filterMap_append

theorem deliveries_toList (event : Option Event) :
    deliveries event.toList = (event.bind Event.delivery).toList := by
  cases event with
  | none => rfl
  | some event => cases event <;> rfl

/-- The events that `Connected` is going to read. -/
def State.queue (state : State) : List Event :=
  match state.listening with
  | some (_, eventRx) => eventRx
  | none => []

def Task.queue : Task → List Event
  | .running state => state.queue
  | _ => []

/-- The state has the receiver of the events of this connection. -/
def State.holds (state : State) (conn : Connection) : Bool :=
  match state with
  | .openingChannel conn' _ | .reopeningChannel conn' _ | .declaringConsumer conn' _ _
  | .connected conn' _ _ _ | .closingChannel conn' _ _ _ => conn' = conn
  | _ => false

def Task.holds (task : Task) (conn : Connection) : Bool :=
  match task with
  | .running state => state.holds conn
  | _ => false

/-- The event that an iteration of the loop of `Connected` receives. -/
def State.received (state : State) (branch : Branch) : Option Event :=
  match state with
  | .connected _ _ eventRx true => if branch = .event then eventRx.head? else none
  | _ => none

/-- This run of the state leaves its event queue behind. -/
def State.GivesUp (state : State) (shared : Shared) (net : Net) (answer : Answer) (branch : Branch) :
    Prop :=
  match state with
  | .openingChannel conn _ =>
    -- without a channel the queue is kept for the next attempt, unless this is the first one
    state.attemptFails net answer = true ∧
      ¬ (shared.start.held = false ∧ (net.isClosed conn || answer.fails .openChannel) = true)
  | .declaringConsumer _ _ _ => answer.fails .basicConsume = true
  | .connected _ _ eventRx true =>
    match branch with
    | .shutdown => shared.shutdown = true
    | .event => ∃ conn, eventRx.head? = some (.connectionClose conn)
    | .message => False
  | .closingChannel _ _ _ reason => reason.reopens = true ∧ answer.fails .closeChannel = true
  | _ => False

/-- `recv_tx` after the loop of `Connected` received this event, if any. -/
def Shared.forward (shared : Shared) (event : Option Event) : Option (Unbounded Bytes) :=
  match event.bind Event.delivery with
  | some (_, data) => (shared.recvTx.bind (·.send data)).or shared.recvTx
  | none => shared.recvTx

/-! ### The machine with a record of its deliveries -/

structure Consumer where
  world : World
  /-- the deliveries that an event queue took, oldest first -/
  arrived : List (Channel × Bytes)
  /-- the deliveries that were sent on `recv_tx`, oldest first -/
  forwarded : List (Channel × Bytes)

/-- `event_tx.send` fails when no state has the receiver. -/
def World.arriving (w : World) : Action → List (Channel × Bytes)
  | .callback event =>
    if event.conn.id < w.net.conns ∧ w.task.holds event.conn then event.delivery.toList else []
  | _ => []

def World.forwarding (w : World) : Action → List (Channel × Bytes)
  | .task _ branch =>
    match w.task with
    | .running state =>
      if w.shared.recvTx.any fun recvTx => !recvTx.closed then
        ((state.received branch).bind Event.delivery).toList
      else []
    | _ => []
  | _ => []

namespace Consumer

def new (queueName : String) : Consumer := ⟨.new queueName (some .new), [], []⟩

def step (c : Consumer) (act : Action) : Consumer where
  world := c.world.step act
  arrived := c.arrived ++ c.world.arriving act
  forwarded := c.forwarded ++ c.world.forwarding act

def run (c : Consumer) (acts : List Action) : Consumer := acts.foldl step c

/-- The user of the handle was sent the data of what is recorded as forwarded, and nothing else. All that
arrived was forwarded, once and in the order of arrival, up to what `Connected` still has to read. -/
structure Delivered (c : Consumer) : Prop where
  sent : ∃ recvTx, c.world.shared.recvTx = some recvTx ∧ recvTx.sent = c.forwarded.map Prod.snd
  arrived : c.arrived = c.forwarded ++ deliveries c.world.task.queue

end Consumer

/-- No queue with a delivery in it is given up, and a delivery finds the machine listening. -/
def World.Keeps (w : World) : Action → Prop
  | .callback event =>
    event.conn.id < w.net.conns → w.task.holds event.conn = true → event.delivery ≠ none →
      w.task.listensTo event.conn = true
  | .task answer branch =>
    match w.task with
    | .running state =>
      state.GivesUp w.shared w.net answer branch → deliveries state.queue = []
    | _ => True
  | _ => True

/-! ### One run of a state -/

theorem Connected.onEvent_recvTx (conn : Connection) (chan : Channel) (eventRx : List Event)
    (shared : Shared) (event : Event) :
    (onEvent conn chan eventRx shared event).2.recvTx = shared.forward (some event) := by
  cases event with
  | messageReceived c data =>
    cases hsend : shared.recvTx.bind (·.send data) with
    | none => simp [onEvent, Shared.forward, Event.delivery, hsend]
    | some recvTx => simp [onEvent, Shared.forward, Event.delivery, hsend]
  | channelPublishReturn c replyCode data =>
    by_cases hcode : replyCode = 312
    · simp [onEvent, Shared.forward, Event.delivery, hcode]
    · simp [onEvent, Shared.forward, Event.delivery, hcode]
  | _ => rfl

/-- Only the event that the connection is closed gives the queue behind it up. -/
theorem Connected.onEvent_queue (conn : Connection) (chan : Channel) (eventRx : List Event)
    (shared : Shared) (event : Event) :
    ((∃ c, event = .connectionClose c) ∧ (onEvent conn chan eventRx shared event).1.queue = []) ∨
      ((∀ c, event ≠ .connectionClose c) ∧
        (onEvent conn chan eventRx shared event).1.queue = eventRx) := by
  rcases onEvent_cases conn chan eventRx shared event with
    ⟨c, rfl, h⟩ | ⟨c, rfl, h⟩ | ⟨data, hdata, h⟩ | ⟨-, hother, recvTx, h⟩
  · exact .inl ⟨⟨c, rfl⟩, by rw [h]; rfl⟩
  · exact .inr ⟨by simp, by rw [h]; rfl⟩
  · refine .inr ⟨?_, by rw [h]; rfl⟩
    rintro c rfl
    simp [Event.noRoute] at hdata
  · exact .inr ⟨hother, by rw [h]; rfl⟩

/-- The outcome of a run of a state for its event queue and for `recv_tx`. -/
structure QueueStep (state : State) (shared : Shared) (net : Net) (answer : Answer) (branch : Branch)
    (next : State) (shared' : Shared) : Prop where
  given_up : state.GivesUp shared net answer branch → next.queue = []
  kept : ¬ state.GivesUp shared net answer branch →
    state.queue = (state.received branch).toList ++ next.queue
  recvTx : shared'.recvTx = shared.forward (state.received branch)

theorem QueueStep.of_kept {state next : State} {shared shared' : Shared} {net : Net} {answer : Answer}
    {branch : Branch} (hup : ¬ state.GivesUp shared net answer branch)
    (hqueue : state.queue = (state.received branch).toList ++ next.queue)
    (hrecv : shared'.recvTx = shared.forward (state.received branch)) :
    QueueStep state shared net answer branch next shared' :=
  ⟨fun h => absurd h hup, fun _ => hqueue, hrecv⟩

theorem QueueStep.of_given_up {state next : State} {shared shared' : Shared} {net : Net}
    {answer : Answer} {branch : Branch} (hup : state.GivesUp shared net answer branch)
    (hqueue : next.queue = []) (hrecv : shared'.recvTx = shared.forward (state.received branch)) :
    QueueStep state shared net answer branch next shared' :=
  ⟨fun _ => hqueue, fun h => absurd hup h, hrecv⟩

theorem connected_queue (conn : Connection) (chan : Channel) (eventRx : List Event) (shared : Shared)
    (net : Net) (answer : Answer) (branch : Branch) :
    QueueStep (.connected conn chan eventRx true) shared net answer branch
      (Connected.run conn chan eventRx true shared net answer branch).1
      (Connected.run conn chan eventRx true shared net answer branch).2.1 := by
  cases branch with
  | shutdown =>
    rw [Connected.run_shutdown]
    cases hs : shared.shutdown with
    | true => exact .of_given_up hs rfl rfl
    | false => exact .of_kept (by simp [State.GivesUp, hs]) rfl rfl
  | event =>
    cases eventRx with
    | nil => exact .of_kept (by simp [State.GivesUp]) rfl rfl
    | cons event eventRx =>
      rw [Connected.run_event]
      have hrecv := Connected.onEvent_recvTx conn chan eventRx shared event
      rcases Connected.onEvent_queue conn chan eventRx shared event with
        ⟨hclose, hqueue⟩ | ⟨hother, hqueue⟩
      · exact .of_given_up (by simpa [State.GivesUp] using hclose) hqueue hrecv
      · refine .of_kept (by simpa [State.GivesUp] using hother) ?_ hrecv
        rw [hqueue]
        rfl
  | message =>
    have hup : ¬ (State.connected conn chan eventRx true).GivesUp shared net answer .message := id
    cases hq : shared.sendRx with
    | nil =>
      rw [Connected.run_no_message _ _ _ _ _ hq]
      exact .of_kept hup rfl rfl
    | cons message sendRx =>
      rw [Connected.run_message _ _ _ _ _ hq]
      exact .of_kept hup rfl rfl

/-- A run of a state gives its event queue up, or takes at most one event from it. -/
theorem State.Ran.queueStep {state next : State} {shared shared' : Shared} {net net' : Net} {answer : Answer}
    {branch : Branch} (h : state.Ran shared net answer branch next shared' net') :
    QueueStep state shared net answer branch next shared' := by
  cases h with
  | disconnected | opens | notRegistered | connection | reconnecting | reopeningChannel | closingConnection
  | finished => exact .of_kept id rfl rfl
  | noConnection =>
    refine .of_kept id ?_ rfl
    cases shared.start.held <;> rfl
  | noChannel conn eventRx err hopen =>
    have hfails : (State.openingChannel conn eventRx).attemptFails net answer = true :=
      State.attemptFails_of_open hopen eventRx
    cases hheld : shared.start.held with
    | true => exact .of_given_up ⟨hfails, by simp [hheld]⟩ rfl rfl
    | false => exact .of_kept (fun hup => hup.2 ⟨hheld, hopen⟩) rfl rfl
  | notSetUp conn eventRx chan err hopen hset =>
    have hfails : (State.openingChannel conn eventRx).attemptFails net answer = true :=
      State.attemptFails_of_setUp hset eventRx net
    refine .of_given_up ⟨hfails, by simp [hopen]⟩ ?_ rfl
    cases shared.start.held <;> rfl
  | channel conn eventRx chan hopen hset =>
    have hfails : (State.openingChannel conn eventRx).attemptFails net answer = false :=
      State.not_attemptFails hopen hset eventRx
    refine .of_kept (fun hup => absurd hup.1 (by simp [hfails])) ?_ rfl
    cases shared.recvTx <;> rfl
  | noConsumer conn chan eventRx err hcons =>
    refine .of_given_up hcons ?_ rfl
    cases shared.start.held <;> rfl
  | consumer conn chan eventRx hcons => exact .of_kept (by simp [State.GivesUp, hcons]) rfl rfl
  | entersLoop => exact .of_kept id rfl (Shared.sendStarted_recvTx shared)
  | loop conn chan eventRx => exact connected_queue conn chan eventRx shared net answer branch
  | channelClosed conn chan eventRx reason hreopens =>
    refine .of_kept (fun hup => absurd hup.1 (by simp [hreopens])) ?_ rfl
    simp [State.queue, State.listening, State.received, hreopens]
  | channelNotClosed conn chan eventRx reason hreopens hclose => exact .of_given_up ⟨hreopens, hclose⟩ rfl rfl
  | reopens conn chan eventRx reason hreopens hclose =>
    refine .of_kept (fun hup => absurd hup.2 (by simp [hclose])) ?_ rfl
    simp [State.queue, State.listening, State.received, hreopens]
  | closedConnection reason =>
    obtain ⟨hnext, start, hshared⟩ := ClosedConnection.run_cases reason shared
    rw [hshared]
    rcases hnext with ⟨-, hnext⟩ | ⟨-, final, hnext⟩ <;> rw [hnext] <;> exact .of_kept id rfl rfl

/-! ### One step -/

/-- `recv_tx` is open, and this is what was sent on it. -/
def Shared.Sent (shared : Shared) (data : List Bytes) : Prop :=
  ∃ recvTx, shared.recvTx = some recvTx ∧ recvTx.closed = false ∧ recvTx.sent = data

theorem Shared.Sent.forward {shared shared' : Shared} {sent : List Bytes} (h : shared.Sent sent)
    {event : Option Event} (hrecv : shared'.recvTx = shared.forward event) :
    shared'.Sent (sent ++ (event.bind Event.delivery).toList.map Prod.snd) := by
  obtain ⟨recvTx, hsome, hopen, rfl⟩ := h
  rcases hdelivery : event.bind Event.delivery with _ | ⟨chan, data⟩
  · refine ⟨recvTx, ?_, hopen, by simp⟩
    rw [hrecv, Shared.forward, hdelivery]
    exact hsome
  · refine ⟨{ recvTx with sent := recvTx.sent ++ [data] }, ?_, hopen, by simp⟩
    rw [hrecv, Shared.forward, hdelivery, hsome]
    simp [Unbounded.send_of_open hopen]

/-- What is waiting or arrives is forwarded, still waiting, or lost; `P` says that nothing is lost. -/
def Splits (before forwarded after : List (Channel × Bytes)) (P : Prop) : Prop :=
  ∃ lost, before = forwarded ++ after ++ lost ∧ (lost = [] ↔ P)

theorem Splits.nothing {waiting : List (Channel × Bytes)} {P : Prop} (h : P) :
    Splits waiting [] waiting P := ⟨[], by simp, iff_of_true rfl h⟩

theorem QueueStep.splits {state next : State} {shared shared' : Shared} {net : Net} {answer : Answer}
    {branch : Branch} (h : QueueStep state shared net answer branch next shared') :
    Splits (deliveries state.queue) ((state.received branch).bind Event.delivery).toList
      (deliveries next.queue)
      (state.GivesUp shared net answer branch → deliveries state.queue = []) := by
  by_cases hup : state.GivesUp shared net answer branch
  · -- the only event that is received with the queue given up is a close
    have hreceived : (state.received branch).bind Event.delivery = none := by
      cases state with
      | connected conn chan eventRx looping =>
        cases looping with
        | false => rfl
        | true =>
          cases branch with
          | event =>
            obtain ⟨c, hc⟩ := hup
            simp [State.received, hc, Event.delivery]
          | _ => rfl
      | _ => rfl
    refine ⟨deliveries state.queue, ?_, by simp [hup]⟩
    rw [h.given_up hup, hreceived]
    rfl
  · refine ⟨[], ?_, by simp [hup]⟩
    rw [h.kept hup, deliveries_append, deliveries_toList, List.append_nil]

theorem runTask_splits {w : World} (h : w.Phase) {sent : List Bytes} (hsent : w.shared.Sent sent)
    (answer : Answer) (branch : Branch) :
    Splits (deliveries w.task.queue) (w.forwarding (.task answer branch))
        (deliveries (w.runTask answer branch).task.queue) (w.Keeps (.task answer branch)) ∧
      (w.runTask answer branch).shared.Sent
        (sent ++ (w.forwarding (.task answer branch)).map Prod.snd) := by
  have hidle : w.shared.Sent (sent ++ ([] : List (Channel × Bytes)).map Prod.snd) := by simpa using hsent
  cases htask : w.task with
  | awaitingStart started =>
    simp only [World.forwarding, World.runTask, World.Keeps, htask]
    cases started with
    | false => exact ⟨by simpa [htask] using Splits.nothing trivial, hidle⟩
    | true => cases w.shared.shutdown <;> exact ⟨Splits.nothing trivial, hidle⟩
  | running state =>
    have hany : (w.shared.recvTx.any fun recvTx => !recvTx.closed) = true := by
      obtain ⟨recvTx, hsome, hopen, -⟩ := hsent
      simp [hsome, hopen]
    simp only [World.forwarding, World.runTask, World.Keeps, htask, hany, if_true]
    rcases w.runState_cases (h.sound htask) answer branch with
      ⟨reason, rfl, hnext⟩ | ⟨-, next, shared, net, hran, hnext⟩ <;> rw [hnext]
    · exact ⟨Splits.nothing fun hup => absurd hup id, hidle⟩
    · exact ⟨hran.queueStep.splits, hsent.forward hran.queueStep.recvTx⟩
  | returned reason =>
    simp only [World.forwarding, World.runTask, World.Keeps, htask]
    exact ⟨by simpa [htask] using Splits.nothing trivial, hidle⟩
  | panicked =>
    simp only [World.forwarding, World.runTask, World.Keeps, htask]
    exact ⟨by simpa [htask] using Splits.nothing trivial, hidle⟩

theorem Task.queue_push (task : Task) (event : Event) :
    (task.push event).queue = task.queue ++ if task.listensTo event.conn then [event] else [] := by
  cases task with
  | running state =>
    rcases Option.eq_none_or_eq_some state.listening with hl | ⟨⟨conn, eventRx⟩, hl⟩
    · simp [Task.push, Task.queue, State.queue, State.listening_push, Task.listensTo, hl]
    · by_cases hconn : event.conn = conn
      · simp [Task.push, Task.queue, State.queue, State.listening_push, Task.listensTo, hl, hconn]
      · simp [Task.push, Task.queue, State.queue, State.listening_push, Task.listensTo, hl, hconn,
          Ne.symm hconn]
  | _ => simp [Task.push, Task.queue, Task.listensTo]

/-- A state that listens on a connection has its receiver. -/
theorem Task.holds_of_listensTo {task : Task} {conn : Connection} (h : task.listensTo conn = true) :
    task.holds conn = true := by
  cases task with
  | running state =>
    cases state with
    | closingChannel conn' chan eventRx reason =>
      cases hreopens : reason.reopens <;>
        simp_all [Task.listensTo, Task.holds, State.listening, State.holds]
    | _ => simp_all [Task.listensTo, Task.holds, State.listening, State.holds]
  | _ => exact h

theorem callback_splits (w : World) (event : Event) :
    Splits (deliveries w.task.queue ++ w.arriving (.callback event)) []
      (deliveries (w.callback event).task.queue) (w.Keeps (.callback event)) := by
  have hpush : deliveries (w.task.push event).queue = deliveries w.task.queue ++
      if w.task.listensTo event.conn then event.delivery.toList else [] := by
    rw [Task.queue_push, deliveries_append]
    cases w.task.listensTo event.conn with
    | false => rfl
    | true => exact congrArg _ (deliveries_toList (some event))
  unfold World.callback World.arriving World.Keeps
  by_cases hconn : event.conn.id < w.net.conns
  · simp only [hconn, if_true, true_and, forall_const]
    cases hdelivery : event.delivery with
    | none =>
      rw [hdelivery] at hpush
      refine ⟨[], ?_, by simp⟩
      simp only [Option.toList_none, ite_self, List.append_nil, List.nil_append] at hpush ⊢
      repeat' split
      · exact hpush.symm
      · rfl
      · exact hpush.symm
    | some delivery =>
      have hroute : event.noRoute = none := by
        cases event <;> first | rfl | exact absurd hdelivery (by simp [Event.delivery])
      rw [hdelivery] at hpush
      simp only [hroute, hpush, Option.toList_some]
      cases hlisten : w.task.listensTo event.conn with
      | true => exact ⟨[], by simp [Task.holds_of_listensTo hlisten], by simp⟩
      | false =>
        cases hholds : w.task.holds event.conn with
        | true => exact ⟨[delivery], by simp, by simp⟩
        | false => exact ⟨[], by simp, by simp⟩
  · simp only [hconn, if_false, false_and, List.append_nil]
    exact Splits.nothing fun h => absurd h id

theorem step_splits {w : World} (h : w.Phase) {sent : List Bytes} (hsent : w.shared.Sent sent)
    (act : Action) :
    Splits (deliveries w.task.queue ++ w.arriving act) (w.forwarding act)
        (deliveries (w.step act).task.queue) (w.Keeps act) ∧
      (w.step act).shared.Sent (sent ++ (w.forwarding act).map Prod.snd) := by
  have hidle : w.shared.Sent (sent ++ ([] : List (Channel × Bytes)).map Prod.snd) := by simpa using hsent
  have hkept : Splits (deliveries w.task.queue ++ []) [] (deliveries w.task.queue) True := by
    simpa using Splits.nothing trivial
  cases act with
  | task answer branch =>
    have harriving : w.arriving (.task answer branch) = [] := rfl
    rw [harriving, List.append_nil]
    exact runTask_splits h hsent answer branch
  | callback event =>
    refine ⟨callback_splits w event, ?_⟩
    have hshared : (w.callback event).shared = w.shared := by
      unfold World.callback
      repeat' split
      all_goals rfl
    show (w.callback event).shared.Sent _
    rw [hshared]
    exact hidle
  | start =>
    cases htask : w.task with
    | awaitingStart started =>
      have hstep : w.step .start = { w with task := .awaitingStart true } := by
        simp only [World.step, htask]
      rw [hstep]
      exact ⟨Splits.nothing trivial, hidle⟩
    | _ =>
      have hstep : w.step .start = w := by simp only [World.step, htask]
      rw [hstep, ← htask]
      exact ⟨hkept, hidle⟩
  | dropStartRx | shutdown => exact ⟨hkept, hidle⟩
  | send message =>
    unfold World.step
    dsimp only
    split <;> exact ⟨hkept, hidle⟩
  | close conn =>
    unfold World.step
    dsimp only
    split <;> exact ⟨hkept, hidle⟩

/-! ### A run -/

namespace Consumer

/-- What was forwarded and what is still waiting is in order of arrival, possibly with gaps. -/
structure Inv (c : Consumer) : Prop where
  phase : c.world.Phase
  sent : c.world.shared.Sent (c.forwarded.map Prod.snd)
  sublist : List.Sublist (c.forwarded ++ deliveries c.world.task.queue) c.arrived

theorem inv_new (queueName : String) : (new queueName).Inv :=
  ⟨phase_new _ _, ⟨.new, rfl, rfl, rfl⟩, List.Sublist.refl _⟩

variable {c : Consumer}

/-- What is located after a step and what the step lost is what was located before, and what arrived. -/
theorem Inv.step_located (h : c.Inv) (act : Action) :
    ∃ lost, (c.step act).forwarded ++ deliveries (c.step act).world.task.queue ++ lost =
        c.forwarded ++ deliveries c.world.task.queue ++ c.world.arriving act ∧
      (lost = [] ↔ c.world.Keeps act) := by
  obtain ⟨⟨lost, hsplit, hlost⟩, -⟩ := step_splits h.phase h.sent act
  refine ⟨lost, ?_, hlost⟩
  show c.forwarded ++ c.world.forwarding act ++ deliveries (c.world.step act).task.queue ++ lost = _
  rw [List.append_assoc c.forwarded (deliveries _), hsplit]
  simp only [List.append_assoc]

theorem Inv.step (h : c.Inv) (act : Action) : (c.step act).Inv := by
  refine ⟨step_phase h.phase act, ?_, ?_⟩
  · show (c.world.step act).shared.Sent ((c.forwarded ++ c.world.forwarding act).map Prod.snd)
    rw [List.map_append]
    exact (step_splits h.phase h.sent act).2
  · obtain ⟨lost, hlocated, -⟩ := h.step_located act
    refine (List.sublist_append_left _ lost).trans ?_
    rw [hlocated]
    exact h.sublist.append_right _

/-- How many deliveries were forwarded or wait to be. -/
def located (c : Consumer) : Nat := c.forwarded.length + (deliveries c.world.task.queue).length

theorem Inv.step_ledger (h : c.Inv) (act : Action) :
    (c.step act).located + c.arrived.length ≤ c.located + (c.step act).arrived.length ∧
      ((c.step act).located + c.arrived.length = c.located + (c.step act).arrived.length ↔
        c.world.Keeps act) := by
  obtain ⟨lost, hlocated, hlost⟩ := h.step_located act
  have hlength := congrArg List.length hlocated
  have harrived : (c.step act).arrived.length = c.arrived.length + (c.world.arriving act).length :=
    List.length_append
  simp only [List.length_append] at hlength
  rw [← hlost, ← List.length_eq_zero_iff, harrived]
  unfold located
  omega

/-- Every delivery that arrived in a run was forwarded exactly once, in order of arrival, or is still
waiting for `Connected`, if and only if every step of the run kept the deliveries. -/
theorem delivered_iff (queueName : String) (acts : List Action) :
    ((new queueName).run acts).Delivered ↔
      AllSteps step (fun c => c.world.Keeps) (new queueName) acts := by
  have hinv : ((new queueName).run acts).Inv :=
    foldl_invariant Inv (fun _ act h => h.step act) (inv_new queueName) acts
  obtain ⟨-, hledger⟩ := foldl_ledger Inv located (fun c => c.arrived.length)
    (fun _ act h => h.step act) (fun _ act h => h.step_ledger act) acts (inv_new queueName)
  rw [← hledger]
  have hnew : (new queueName).located = 0 ∧ (new queueName).arrived.length = 0 := ⟨rfl, rfl⟩
  rw [hnew.1, hnew.2, add_zero, zero_add]
  show _ ↔ ((new queueName).run acts).located = ((new queueName).run acts).arrived.length
  generalize (new queueName).run acts = c at hinv
  constructor
  · intro h
    rw [h.arrived, List.length_append]
    rfl
  · intro hlength
    obtain ⟨recvTx, hsome, -, hsent⟩ := hinv.sent
    refine ⟨⟨recvTx, hsome, hsent⟩, (hinv.sublist.eq_of_length ?_).symm⟩
    rw [List.length_append]
    exact hlength

/-- A message arrives, and the loop takes the shutdown branch before it reads the event. -/
theorem loses_delivery_on_shutdown :
    let message : Event := .messageReceived ⟨⟨0⟩, 0⟩ [104, 105]
    let c := (new "discord").run
      (connects ++ [.task .ok .message, .callback message, .shutdown, .task .ok .shutdown] ++
        List.replicate 4 (.task .ok .message))
    c.world.task = .returned (some .shutdown) ∧ c.arrived = [(⟨⟨0⟩, 0⟩, [104, 105])] ∧
      c.forwarded = [] ∧ ¬ c.Delivered := by
  refine ⟨rfl, rfl, rfl, fun h => ?_⟩
  exact absurd h.arrived (by decide)

end Consumer

end Tulpje.Amqp
