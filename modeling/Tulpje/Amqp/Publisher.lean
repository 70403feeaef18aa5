import Mathlib.Data.Multiset.OrderedMonoid
import Tulpje.Amqp.Start

/-!
# What becomes of an accepted message

A message that a sender accepted is in the send queue, or handed to the broker and not returned, or in
a return event that the machine will still read. `World.located` is the multiset of these, and
`World.Safe` says which steps lose none: a publish must not fail, the machine must not give up an event
queue with a return in it, a return must not come after it gave up, and the task must not end with
messages queued. Each of them is the only way to lose a message, so `accounted_iff` is exact.
-/

namespace Tulpje.Amqp

open Lib

/-! ### Where a message can be -/

/-- The event queue that `Connected` is going to read (again), with its connection. A channel that is
closed to be reopened keeps it. -/
def State.listening : State → Option (Connection × List Event)
  | .openingChannel conn eventRx | .reopeningChannel conn eventRx | .declaringConsumer conn _ eventRx
  | .connected conn _ eventRx _ => some (conn, eventRx)
  | .closingChannel conn _ eventRx reason => if reason.reopens then some (conn, eventRx) else none
  | _ => none

/-- The returned messages in an event queue. -/
def returns (eventRx : List Event) : List Bytes := eventRx.filterMap Event.noRoute

theorem returns_cons_some {event : Event} {data : Bytes} (h : event.noRoute = some data)
    (eventRx : List Event) : returns (event :: eventRx) = [data] ++ returns eventRx := by
  simp [returns, h]

theorem returns_cons_none {event : Event} (h : event.noRoute = none) (eventRx : List Event) :
    returns (event :: eventRx) = returns eventRx := by
  simp [returns, h]

def State.pending (state : State) : List Bytes :=
  match state.listening with
  | some (_, eventRx) => returns eventRx
  | none => []

def Task.pending : Task → List Bytes
  | .running state => state.pending
  | _ => []

/-- The send queue, which is dropped with the task. -/
def World.queued (w : World) : List Bytes := if w.task.isLive then w.shared.sendRx else []

/-- The messages in the send queue, handed to the broker and not returned, or about to be requeued. -/
def World.located (w : World) : Multiset Bytes :=
  (w.queued : Multiset Bytes) + (w.net.handed.map Prod.snd : List Bytes) + (w.task.pending : List Bytes)

/-- Every accepted message is located, as often as it was accepted. -/
def World.Accounted (w : World) : Prop := (w.accepted : Multiset Bytes) ≤ w.located

instance (w : World) : Decidable w.Accounted := inferInstanceAs (Decidable (_ ≤ _))

/-! ### The steps that lose nothing -/

def Task.listensTo (task : Task) (conn : Connection) : Bool :=
  match task with
  | .running state => state.listening.any fun listening => listening.1 = conn
  | _ => false

/-- A run of a state loses nothing: no publish fails, and an event queue that is given up holds no
return. -/
def State.Safe (state : State) (shared : Shared) (net : Net) (answer : Answer) (branch : Branch) :
    Prop :=
  match state with
  | .openingChannel conn eventRx =>
    -- without a channel the queue is kept for the next attempt, unless this is the first one
    state.attemptFails net answer = true →
      (shared.start.held = false ∧ (net.isClosed conn || answer.fails .openChannel) = true) ∨
        returns eventRx = []
  | .declaringConsumer _ _ eventRx => answer.fails .basicConsume = true → returns eventRx = []
  | .connected _ _ eventRx true =>
    match branch with
    | .shutdown => shared.shutdown = true → returns eventRx = []
    | .event => ∀ conn rest, eventRx = .connectionClose conn :: rest → returns rest = []
    | .message => shared.sendRx ≠ [] → answer.fails .basicPublish = false
  | .closingChannel _ _ eventRx reason =>
    reason.reopens = true → answer.fails .closeChannel = true → returns eventRx = []
  | .finished _ => shared.sendRx = []
  | _ => True

/-- A step loses nothing. A return must find the machine still listening on its connection. -/
def World.Safe (w : World) : Action → Prop
  | .callback event =>
    event.conn.id < w.net.conns → ∀ data, event.noRoute = some data →
      (event.conn, data) ∈ w.net.handed → w.task.listensTo event.conn = true
  | .task answer branch =>
    match w.task with
    | .awaitingStart started => started = true → w.shared.shutdown = true → w.shared.sendRx = []
    | .running state => state.Safe w.shared w.net answer branch
    | _ => True
  | _ => True

/-! ### The ledger of one run of a state -/

/-- The part of `World.located` that a run of a state can change. -/
def located (state : State) (shared : Shared) (net : Net) : Multiset Bytes :=
  (shared.sendRx : Multiset Bytes) + (net.handed.map Prod.snd : List Bytes) + (state.pending : List Bytes)

/-- `before` keeps `after` and `lost`, where nothing is lost just when `P` holds. -/
def Loses (before after : Multiset Bytes) (P : Prop) : Prop :=
  ∃ lost : List Bytes, before = after + (lost : Multiset Bytes) ∧ (lost = [] ↔ P)

theorem Loses.nothing {located : Multiset Bytes} {P : Prop} (h : P) : Loses located located P :=
  ⟨[], by simp, iff_of_true rfl h⟩

theorem Loses.le_and_eq_iff {before after : Multiset Bytes} {P : Prop} (h : Loses before after P) :
    after ≤ before ∧ (after = before ↔ P) := by
  obtain ⟨lost, rfl, hP⟩ := h
  refine ⟨Multiset.le_add_right _ _, ?_⟩
  rw [← hP, left_eq_add, Multiset.coe_eq_zero]

/-- A state that gives up its event queue loses the returns in it. -/
theorem loses_pending {state next : State} {shared : Shared} {net net' : Net} {P : Prop}
    (hnext : next.pending = []) (hnet : net'.handed = net.handed) (hP : state.pending = [] ↔ P) :
    Loses (located state shared net) (located next shared net') P := by
  refine ⟨state.pending, ?_, hP⟩
  simp [located, hnext, hnet]

theorem loses_nothing {state next : State} {shared : Shared} {net net' : Net} {P : Prop}
    (hnext : next.pending = state.pending) (hnet : net'.handed = net.handed) (hP : P) :
    Loses (located state shared net) (located next shared net') P := by
  refine ⟨[], ?_, iff_of_true rfl hP⟩
  simp [located, hnext, hnet]

/-- The loop of `Connected`: a message moves to the broker or back from it, and is lost when its
publish fails or with the queue of a closed connection. -/
theorem connected_loses (conn : Connection) (chan : Channel) (eventRx : List Event) (shared : Shared)
    (net : Net) (answer : Answer) (branch : Branch) :
    Loses (located (.connected conn chan eventRx true) shared net)
      (located (Connected.run conn chan eventRx true shared net answer branch).1
        (Connected.run conn chan eventRx true shared net answer branch).2.1
        (Connected.run conn chan eventRx true shared net answer branch).2.2)
      ((State.connected conn chan eventRx true).Safe shared net answer branch) := by
  cases branch with
  | shutdown =>
    rw [Connected.run_shutdown]
    cases hs : shared.shutdown with
    | true => exact loses_pending rfl rfl (by simp [State.Safe, hs, State.pending, State.listening])
    | false => exact loses_nothing rfl rfl (by simp [State.Safe, hs])
  | event =>
    cases eventRx with
    | nil => exact loses_nothing rfl rfl (by simp [State.Safe])
    | cons event eventRx =>
      rw [Connected.run_event]
      rcases Connected.onEvent_cases conn chan eventRx shared event with
        ⟨c, rfl, h⟩ | ⟨c, rfl, h⟩ | ⟨data, hdata, h⟩ | ⟨hnone, hother, recvTx, h⟩
      · have hnone : (Event.connectionClose c).noRoute = none := rfl
        rw [h]
        refine loses_pending rfl rfl ?_
        simp [State.Safe, State.pending, State.listening, returns_cons_none hnone]
      · have hnone : (Event.channelClose c).noRoute = none := rfl
        rw [h]
        refine loses_nothing ?_ rfl (by simp [State.Safe])
        simp [State.pending, State.listening, CloseReason.reopens, returns_cons_none hnone]
      · -- the data moves from the event to the end of the send queue
        rw [h]
        refine ⟨[], ?_, iff_of_true rfl ?_⟩
        · simp only [located, State.pending, State.listening, returns_cons_some hdata,
            CloseReason.reopens, if_true, ← Multiset.coe_add, Multiset.coe_nil, add_zero]
          abel
        · rintro c rest heq
          obtain ⟨rfl, -⟩ := List.cons.inj heq
          simp [Event.noRoute] at hdata
      · rw [h]
        refine ⟨[], ?_, iff_of_true rfl ?_⟩
        · simp [located, State.pending, State.listening, returns_cons_none hnone]
        · rintro c rest heq
          exact absurd (List.cons.inj heq).1 (hother c)
  | message =>
    cases hq : shared.sendRx with
    | nil =>
      rw [Connected.run_no_message _ _ _ _ _ hq]
      exact loses_nothing rfl rfl (by simp [State.Safe, hq])
    | cons message sendRx =>
      rw [Connected.run_message _ _ _ _ _ hq]
      cases hfails : answer.fails .basicPublish with
      | true =>
        refine ⟨[message], ?_, iff_of_false (by simp) (by simp [State.Safe, hq, hfails])⟩
        simp only [located, hq, Net.basicPublish, Answer.result_of_fails hfails,
          ← List.singleton_append (l := sendRx), ← Multiset.coe_add]
        abel
      | false =>
        refine ⟨[], ?_, iff_of_true rfl (by simp [State.Safe, hfails])⟩
        simp only [located, hq, Net.basicPublish, Answer.result_of_not_fails hfails,
          ← List.singleton_append (l := sendRx), List.map_append, ← Multiset.coe_add,
          Multiset.coe_nil, add_zero, List.map_cons, List.map_nil]
        abel

/-- What a run of any state loses. -/
theorem State.Ran.loses {state next : State} {shared shared' : Shared} {net net' : Net} {answer : Answer}
    {branch : Branch} (h : state.Ran shared net answer branch next shared' net')
    (hstate : ∀ reason, state ≠ .finished reason) :
    Loses (located state shared net) (located next shared' net') (state.Safe shared net answer branch) := by
  cases h with
  | disconnected | opens | notRegistered | connection | reconnecting | reopeningChannel | closingConnection =>
    exact loses_nothing rfl rfl trivial
  | noConnection =>
    refine loses_nothing ?_ rfl trivial
    cases shared.start.held <;> rfl
  | noChannel conn eventRx err hopen =>
    have hfails : (State.openingChannel conn eventRx).attemptFails net answer = true :=
      State.attemptFails_of_open hopen eventRx
    cases hheld : shared.start.held with
    | true =>
      refine loses_pending rfl rfl ?_
      simp [State.Safe, hfails, hheld, State.pending, State.listening]
    | false =>
      refine loses_nothing rfl rfl ?_
      intro _
      exact .inl ⟨hheld, hopen⟩
  | notSetUp conn eventRx chan err hopen hset =>
    have hfails : (State.openingChannel conn eventRx).attemptFails net answer = true :=
      State.attemptFails_of_setUp hset eventRx net
    refine loses_pending ?_ rfl ?_
    · cases shared.start.held <;> rfl
    · simp [State.Safe, hfails, hopen, State.pending, State.listening]
  | channel conn eventRx chan hopen hset =>
    have hfails : (State.openingChannel conn eventRx).attemptFails net answer = false :=
      State.not_attemptFails hopen hset eventRx
    refine loses_nothing ?_ rfl (by simp [State.Safe, hfails])
    cases shared.recvTx <;> rfl
  | noConsumer conn chan eventRx err hcons =>
    refine loses_pending ?_ rfl ?_
    · cases shared.start.held <;> rfl
    · simp [State.Safe, hcons, State.pending, State.listening]
  | consumer conn chan eventRx hcons => exact loses_nothing rfl rfl (by simp [State.Safe, hcons])
  | entersLoop =>
    refine ⟨[], ?_, iff_of_true rfl trivial⟩
    simp [located, State.pending, State.listening]
  | loop conn chan eventRx => exact connected_loses conn chan eventRx shared net answer branch
  | channelClosed conn chan eventRx reason hreopens =>
    refine loses_nothing ?_ rfl (by simp [State.Safe, hreopens])
    simp [State.pending, State.listening, hreopens]
  | channelNotClosed conn chan eventRx reason hreopens hclose =>
    refine loses_pending rfl rfl ?_
    simp [State.Safe, State.pending, State.listening, hreopens, hclose]
  | reopens conn chan eventRx reason hreopens hclose =>
    refine loses_nothing ?_ rfl (by simp [State.Safe, hclose])
    simp [State.pending, State.listening, hreopens]
  | closedConnection reason =>
    obtain ⟨hnext, start, hshared⟩ := ClosedConnection.run_cases reason shared
    rw [hshared]
    rcases hnext with ⟨-, hnext⟩ | ⟨-, final, hnext⟩ <;> rw [hnext] <;>
      exact ⟨[], by simp [located, State.pending, State.listening], iff_of_true rfl trivial⟩
  | finished reason => exact absurd rfl (hstate reason)

/-! ### The ledger of a run -/

theorem World.located_running {w : World} {state : State} (htask : w.task = .running state) :
    w.located = Amqp.located state w.shared w.net := by
  simp [World.located, Amqp.located, World.queued, htask, Task.isLive, Task.pending]

theorem runTask_loses {w : World} (h : w.Phase) (answer : Answer) (branch : Branch) :
    Loses w.located (w.runTask answer branch).located (w.Safe (.task answer branch)) := by
  cases htask : w.task with
  | awaitingStart started =>
    unfold World.runTask World.Safe
    simp only [htask]
    cases started with
    | false => exact .nothing (by simp)
    | true =>
      cases hs : w.shared.shutdown with
      | true =>
        refine ⟨w.shared.sendRx, ?_, by simp⟩
        simp [World.located, World.queued, htask, Task.isLive, Task.pending, add_comm]
      | false =>
        refine ⟨[], ?_, by simp⟩
        simp [World.located, World.queued, htask, Task.isLive, Task.pending, State.pending,
          State.listening]
  | running state =>
    have hsafe : w.Safe (.task answer branch) = state.Safe w.shared w.net answer branch := by
      simp only [World.Safe, htask]
    have hrun : w.runTask answer branch = w.runState state answer branch := by
      simp only [World.runTask, htask]
    rw [hsafe, hrun, World.located_running htask]
    rcases w.runState_cases (h.sound htask) answer branch with
      ⟨reason, rfl, hnext⟩ | ⟨hstate, next, shared, net, hran, hnext⟩ <;> rw [hnext]
    · -- the send queue is dropped with the task
      refine ⟨w.shared.sendRx, ?_, Iff.rfl⟩
      simp [World.located, located, World.queued, Task.isLive, Task.pending, State.pending,
        State.listening, add_comm]
    · exact hran.loses hstate
  | returned reason =>
    unfold World.runTask World.Safe
    simp only [htask]
    exact .nothing trivial
  | panicked =>
    unfold World.runTask World.Safe
    simp only [htask]
    exact .nothing trivial

theorem State.listening_push (state : State) (event : Event) :
    (state.push event).listening = state.listening.map fun (conn, eventRx) =>
      (conn, if event.conn = conn then eventRx ++ [event] else eventRx) := by
  cases state with
  | closingChannel conn chan eventRx reason =>
    cases hreopens : reason.reopens <;> simp [State.push, State.listening, hreopens]
  | _ => simp [State.push, State.listening]

theorem returns_append (eventRx : List Event) (event : Event) :
    returns (eventRx ++ [event]) = returns eventRx ++ event.noRoute.toList := by
  cases h : event.noRoute <;> simp [returns, h]

/-- What a callback adds to the pending returns. -/
theorem Task.pending_push (task : Task) (event : Event) :
    (task.push event).pending =
      task.pending ++ if task.listensTo event.conn then event.noRoute.toList else [] := by
  cases task with
  | running state =>
    rcases Option.eq_none_or_eq_some state.listening with hl | ⟨⟨conn, eventRx⟩, hl⟩
    · simp [Task.push, Task.pending, State.pending, State.listening_push, Task.listensTo, hl]
    · by_cases hconn : event.conn = conn
      · simp [Task.push, Task.pending, State.pending, State.listening_push, Task.listensTo, hl, hconn,
          returns_append]
      · simp [Task.push, Task.pending, State.pending, State.listening_push, Task.listensTo, hl, hconn,
          Ne.symm hconn]
  | _ => simp [Task.push, Task.pending, Task.listensTo]

@[simp] theorem Task.isLive_push (task : Task) (event : Event) :
    (task.push event).isLive = task.isLive := by
  cases task <;> rfl

@[simp] theorem Net.onCallback_handed (net : Net) (event : Event) :
    (net.onCallback event).handed = net.handed := by
  cases event <;> rfl

/-- A return takes the message back from the broker, and hands it to the machine if that listens. -/
theorem callback_loses (w : World) (event : Event) :
    Loses w.located (w.callback event).located (w.Safe (.callback event)) := by
  unfold World.callback World.Safe
  by_cases hconn : event.conn.id < w.net.conns
  · simp only [hconn, if_true, forall_const]
    cases hdata : event.noRoute with
    | none =>
      refine ⟨[], ?_, by simp⟩
      simp [World.located, World.queued, Task.pending_push, hdata]
    | some data =>
      by_cases hmem : (event.conn, data) ∈ w.net.handed
      · have hhanded : ((w.net.handed.map Prod.snd : List Bytes) : Multiset Bytes) =
            ((w.net.handed.erase (event.conn, data)).map Prod.snd : List Bytes) + ([data] : List Bytes) := by
          have hperm := (List.perm_cons_erase hmem).map Prod.snd
          rw [Multiset.coe_add, Multiset.coe_eq_coe]
          exact hperm.trans (List.perm_append_singleton _ _).symm
        cases hlisten : w.task.listensTo event.conn with
        | true =>
          refine ⟨[], ?_, by simp⟩
          simp only [hmem, if_true, World.located, World.queued, Task.isLive_push, Task.pending_push,
            hlisten, hdata, Option.toList_some, hhanded, ← Multiset.coe_add, Multiset.coe_nil]
          abel
        | false =>
          refine ⟨[data], ?_, by simp [hmem]⟩
          simp only [hmem, if_true, World.located, World.queued, Task.isLive_push, Task.pending_push,
            hlisten, Bool.false_eq_true, if_false, List.append_nil, hhanded]
          abel
      · simp only [hmem, if_false]
        refine .nothing ?_
        rintro data' hdata' hmem'
        obtain rfl := Option.some.inj hdata'
        exact absurd hmem' hmem
  · simp only [hconn, if_false]
    exact .nothing fun h => absurd h id

theorem Loses.ledger {w w' : World} {P : Prop} (h : Loses w.located w'.located P)
    (haccepted : w'.accepted = w.accepted) :
    w'.located + w.accepted ≤ w.located + w'.accepted ∧
      (w'.located + w.accepted = w.located + w'.accepted ↔ P) := by
  obtain ⟨hle, heq⟩ := h.le_and_eq_iff
  rw [haccepted, add_left_inj]
  exact ⟨add_le_add_left hle _, heq⟩

@[simp] theorem runTask_accepted (w : World) (answer : Answer) (branch : Branch) :
    (w.runTask answer branch).accepted = w.accepted := by
  unfold World.runTask World.runState
  repeat' split
  all_goals rfl

@[simp] theorem callback_accepted (w : World) (event : Event) :
    (w.callback event).accepted = w.accepted := by
  unfold World.callback
  repeat' split
  all_goals rfl

/-- Only a send is owed more, and it adds to the queue what it adds to the accepted messages. -/
theorem step_ledger {w : World} (h : w.Phase) (act : Action) :
    (w.step act).located + w.accepted ≤ w.located + (w.step act).accepted ∧
      ((w.step act).located + w.accepted = w.located + (w.step act).accepted ↔ w.Safe act) := by
  cases act with
  | task answer branch => exact (runTask_loses h answer branch).ledger (runTask_accepted w answer branch)
  | callback event => exact (callback_loses w event).ledger (callback_accepted w event)
  | send message =>
    have hlevel : (w.step (.send message)).located + w.accepted =
        w.located + (w.step (.send message)).accepted := by
      cases hlive : w.task.isLive with
      | false => simp [World.step, hlive]
      | true =>
        simp only [World.step, hlive, if_true, World.located, World.queued, ← Multiset.coe_add]
        abel
    exact ⟨hlevel.le, iff_of_true hlevel trivial⟩
  | start =>
    cases htask : w.task with
    | awaitingStart started =>
      have hlocated : (w.step .start).located = w.located := by
        simp [World.step, World.located, World.queued, Task.isLive, Task.pending, htask]
      have haccepted : (w.step .start).accepted = w.accepted := by simp [World.step, htask]
      rw [hlocated, haccepted]
      exact ⟨le_refl _, iff_of_true rfl trivial⟩
    | _ =>
      simp only [World.step, htask]
      exact ⟨le_refl _, iff_of_true trivial trivial⟩
  | dropStartRx | shutdown => exact ⟨le_refl _, iff_of_true rfl trivial⟩
  | close conn =>
    unfold World.step
    dsimp only
    split <;> exact ⟨le_refl _, iff_of_true rfl trivial⟩

theorem located_new (queueName : String) (recvTx : Option (Unbounded Bytes)) :
    (World.new queueName recvTx).located = 0 := rfl

/-- In every run, every accepted message is still located if and only if no step of the run was one
that loses a message. -/
theorem accounted_iff (queueName : String) (recvTx : Option (Unbounded Bytes)) (acts : List Action) :
    ((World.new queueName recvTx).run acts).Accounted ↔
      AllSteps World.step World.Safe (World.new queueName recvTx) acts := by
  obtain ⟨hle, heq⟩ := foldl_ledger World.Phase World.located
    (fun w => (w.accepted : Multiset Bytes)) (fun _ act h => step_phase h act)
    (fun _ act h => step_ledger h act) acts (phase_new queueName recvTx)
  have hnone : ((World.new queueName recvTx).accepted : Multiset Bytes) = 0 := rfl
  rw [hnone, located_new, add_zero, zero_add] at hle heq
  rw [← heq]
  exact ⟨fun h => le_antisymm hle h, fun h => h.ge⟩

/-! ### A publish that fails -/

/-- A message whose publish returns an error is gone. -/
theorem publish_error_loses_message :
    let w := (World.new "discord" none).run
      (connects ++ [.send [104, 105], .task (.failing .basicPublish) .message])
    w.shared.shutdown = false ∧ ¬ w.Accounted := by
  decide

end Tulpje.Amqp
