import Tulpje.Amqp.Outcomes
import Tulpje.Lib.Run

/-!
# The start and finish protocol

`start_tx` is consumed once: by the first run of `Connected`, or by `ClosedConnection` after an attempt
to connect failed before that. The invariant is `StartPhase`: a run is starting, reporting a failed
start, over after a failed start, or started, and in each phase the state, the reason it carries and
`start_tx` fit together. `start_protocol` reads the four parts of the protocol off it.
-/

namespace Tulpje.Amqp

open Lib

/-! ### Shapes of a state -/

/-- The reasons that lead to `Finished`. -/
def CloseReason.IsFinal : CloseReason → Prop
  | .shutdown | .fatal _ => True
  | _ => False

/-- The states of a first attempt to connect. -/
def State.Starting : State → Prop
  | .disconnected | .connecting _ | .openingChannel _ _ | .declaringConsumer _ _ _
  | .connected _ _ _ false => True
  | _ => False

/-- The closing states on the way to `start_tx.send(Some(err))`. -/
def State.Reporting (err : Error) : State → Prop
  | .closingChannel _ chan _ reason => chan.isSome ∧ reason = .startError (some err)
  | .closingConnection conn reason => conn.isSome ∧ reason = .startError (some err)
  | .closedConnection reason => reason = .startError (some err)
  | _ => False

/-- How many steps a reporting state is away from the end. -/
def State.reportRank : State → Nat
  | .closingChannel _ _ _ _ => 3
  | .closingConnection _ _ => 2
  | .closedConnection _ => 1
  | _ => 0

/-- What holds of a state once `Connected` was entered. -/
def State.Started : State → Prop
  | .closingChannel _ chan _ reason => chan.isSome ∧ ∀ err, reason ≠ .startError err
  | .closingConnection conn reason => conn.isSome ∧ ∀ err, reason ≠ .startError err
  | .closedConnection reason => ∀ err, reason ≠ .startError err
  | .finished reason => reason.IsFinal
  | _ => True

/-- The reason a state carries. -/
def State.reason : State → Option CloseReason
  | .closingChannel _ _ _ reason | .closingConnection _ reason | .closedConnection reason
  | .finished reason => some reason
  | _ => none

@[simp] theorem State.starting_push (state : State) (event : Event) :
    (state.push event).Starting ↔ state.Starting := by
  cases state with
  | connected conn chan eventRx looping => cases looping <;> simp [State.push, State.Starting]
  | _ => simp [State.push, State.Starting]

@[simp] theorem State.reporting_push (err : Error) (state : State) (event : Event) :
    (state.push event).Reporting err ↔ state.Reporting err := by
  cases state <;> simp [State.push, State.Reporting]

@[simp] theorem State.started_push (state : State) (event : Event) :
    (state.push event).Started ↔ state.Started := by
  cases state <;> simp [State.push, State.Started]

theorem CloseReason.display_of_isFinal {reason : CloseReason} (h : reason.IsFinal) :
    ∃ text, reason.display = some text := by
  cases reason with
  | shutdown | fatal => exact ⟨_, rfl⟩
  | _ => exact absurd h id

/-- What the assertions of the closing states and the `Display` of a reason rely on. -/
def State.Sound : State → Prop
  | .closingChannel _ chan _ _ => chan.isSome
  | .closingConnection conn _ => conn.isSome
  | .finished reason => reason.IsFinal
  | _ => True

theorem State.Sound.exists_run {state : State} (h : state.Sound) (shared : Shared) (net : Net) (answer : Answer)
    (branch : Branch) : ∃ result, state.run shared net answer branch = some result := by
  cases state with
  | closingChannel conn chan eventRx reason =>
    obtain ⟨chan, rfl⟩ := Option.isSome_iff_exists.mp h
    exact ⟨_, by rw [State.run, ClosingChannel.run_some]; rfl⟩
  | closingConnection conn reason =>
    obtain ⟨conn, rfl⟩ := Option.isSome_iff_exists.mp h
    exact ⟨_, rfl⟩
  | _ => exact ⟨_, rfl⟩

theorem runState_finished {w : World} {reason : CloseReason} (hfinal : reason.IsFinal)
    (answer : Answer) (branch : Branch) :
    w.runState (.finished reason) answer branch = { w with task := .returned (some reason) } := by
  obtain ⟨text, htext⟩ := CloseReason.display_of_isFinal hfinal
  rw [World.runState_finished w htext]

/-- A step of the loop returns the reason, or goes on with an outcome of the state. -/
theorem World.runState_cases (w : World) {state : State} (h : state.Sound) (answer : Answer) (branch : Branch) :
    (∃ reason, state = .finished reason ∧
      w.runState state answer branch = { w with task := .returned (some reason) }) ∨
    ((∀ reason, state ≠ .finished reason) ∧ ∃ next shared net,
      state.Ran w.shared w.net answer branch next shared net ∧
      w.runState state answer branch =
        { w with
          task := .running next
          shared := shared
          net := net
          connectedRuns := w.connectedRuns + if state.entersConnected then 1 else 0
          startFailed := w.startFailed || (w.connectedRuns == 0 && state.attemptFails w.net answer) }) := by
  by_cases hfin : ∃ reason, state = .finished reason
  · obtain ⟨reason, rfl⟩ := hfin
    exact .inl ⟨reason, rfl, Amqp.runState_finished h answer branch⟩
  · have hstate : ∀ reason, state ≠ .finished reason := fun reason heq => hfin ⟨reason, heq⟩
    obtain ⟨⟨next, shared, net⟩, hrun⟩ := h.exists_run w.shared w.net answer branch
    exact .inr ⟨hstate, next, shared, net, State.ran_of_run hrun, World.runState_of_run hstate hrun⟩

/-! ### What a run of a state does in each phase -/

/-- No iteration of the loop of `Connected` touches `start_tx`. -/
theorem Connected.run_started (conn : Connection) (chan : Channel) (eventRx : List Event) (shared : Shared)
    (net : Net) (answer : Answer) (branch : Branch) :
    (Connected.run conn chan eventRx true shared net answer branch).1.Started ∧
      (Connected.run conn chan eventRx true shared net answer branch).2.1.start = shared.start := by
  cases branch with
  | shutdown =>
    rw [run_shutdown]
    cases shared.shutdown <;> simp [State.Started]
  | event =>
    cases eventRx with
    | nil => exact ⟨trivial, rfl⟩
    | cons event eventRx =>
      rw [run_event]
      rcases onEvent_cases conn chan eventRx shared event with
        ⟨_, -, h⟩ | ⟨_, -, h⟩ | ⟨_, -, h⟩ | ⟨-, -, _, h⟩ <;> rw [h] <;> simp [State.Started]
  | message =>
    cases hq : shared.sendRx with
    | nil =>
      rw [run_no_message _ _ _ _ _ hq]
      exact ⟨trivial, rfl⟩
    | cons message sendRx =>
      rw [run_message _ _ _ _ _ hq]
      exact ⟨trivial, rfl⟩

section Runs
variable {state next : State} {shared shared' : Shared} {net net' : Net} {answer : Answer} {branch : Branch}

/-- A failed call of the first attempt leads to a state that reports its error. -/
theorem State.Ran.reporting_of_attemptFails (h : state.Ran shared net answer branch next shared' net')
    (hheld : shared.start.held = true) (hfails : state.attemptFails net answer = true) :
    shared' = shared ∧ ∃ err, next.Reporting err := by
  cases h with
  | noConnection err | noChannel _ _ err => exact ⟨rfl, err, by simp [hheld, State.Reporting]⟩
  | notRegistered err | notSetUp _ _ _ err | noConsumer _ _ _ err =>
    exact ⟨rfl, err, by simp [hheld, State.Reporting]⟩
  | connection hopen hreg => simp [State.attemptFails, hopen, hreg] at hfails
  | channel conn eventRx chan hopen hset =>
    rw [State.not_attemptFails hopen hset] at hfails
    cases hfails
  | consumer conn chan eventRx hcons => simp [State.attemptFails, hcons] at hfails
  | _ => cases hfails

/-- A first attempt of which no call fails goes on, up to the first run of `Connected`. -/
theorem State.Ran.starting (h : state.Ran shared net answer branch next shared' net') (hstate : state.Starting)
    (hfails : state.attemptFails net answer = false) (henters : state.entersConnected = false) :
    shared' = shared ∧ next.Starting := by
  cases h with
  | disconnected | opens | connection | consumer => exact ⟨rfl, trivial⟩
  | channel conn eventRx chan =>
    refine ⟨rfl, ?_⟩
    cases shared.recvTx <;> trivial
  | noConnection err hopen => simp [State.attemptFails, hopen] at hfails
  | notRegistered err hopen hreg => simp [State.attemptFails, hreg] at hfails
  | noChannel conn eventRx err hopen =>
    rw [State.attemptFails_of_open hopen] at hfails
    cases hfails
  | notSetUp conn eventRx chan err hopen hset =>
    rw [State.attemptFails_of_setUp hset] at hfails
    cases hfails
  | noConsumer conn chan eventRx err hcons => simp [State.attemptFails, hcons] at hfails
  | entersLoop => cases henters
  | _ => exact absurd hstate id

/-- Once started, no run of a state touches `start_tx` or makes up a start error. -/
theorem State.Ran.started (h : state.Ran shared net answer branch next shared' net')
    (hheld : shared.start.held = false) (hstate : state.Started) :
    next.Started ∧ shared'.start = shared.start := by
  cases h with
  | disconnected | opens | connection | reconnecting | reopeningChannel | consumer | reopens =>
    exact ⟨trivial, rfl⟩
  | noConnection | notRegistered | noChannel | notSetUp | noConsumer =>
    exact ⟨by simp [hheld, State.Started], rfl⟩
  | channel =>
    refine ⟨?_, rfl⟩
    cases shared.recvTx <;> trivial
  | entersLoop =>
    refine ⟨trivial, ?_⟩
    simp [Shared.sendStarted, hheld]
  | loop conn chan eventRx => exact Connected.run_started conn chan eventRx shared net answer branch
  | channelClosed | channelNotClosed => exact ⟨⟨rfl, hstate.2⟩, rfl⟩
  | closingConnection => exact ⟨hstate.2, rfl⟩
  | closedConnection reason =>
    cases reason with
    | startError err => exact absurd rfl (hstate err)
    | _ => simp [ClosedConnection.run, State.Started, CloseReason.IsFinal]
  | finished => exact ⟨hstate, rfl⟩

/-- A state that reports an error goes on to the next one, until `start_tx` is used. -/
theorem State.Ran.reporting {err : Error} (h : state.Ran shared net answer branch next shared' net')
    (hheld : shared.start.held = true) (hsent : shared.start.sent = []) (hstate : state.Reporting err) :
    next.reportRank < state.reportRank ∧
      ((next.Reporting err ∧ shared' = shared) ∨
        (∃ reason, next = .finished reason ∧ reason.IsFinal ∧ shared'.start.held = false ∧
          shared'.start.sent = [some err])) := by
  cases h with
  | channelClosed => exact ⟨by simp [State.reportRank], .inl ⟨⟨rfl, hstate.2⟩, rfl⟩⟩
  | channelNotClosed _ _ _ reason hreopens | reopens _ _ _ reason hreopens =>
    obtain rfl : reason = .startError (some err) := hstate.2
    cases hreopens
  | closingConnection => exact ⟨by simp [State.reportRank], .inl ⟨hstate.2, rfl⟩⟩
  | closedConnection reason =>
    obtain rfl : reason = .startError (some err) := hstate
    obtain ⟨text, hrun⟩ := ClosedConnection.run_startError err hheld
    rw [hrun]
    exact ⟨by simp [State.reportRank], .inr ⟨_, rfl, trivial, rfl, by simp [hsent]⟩⟩
  | _ => exact absurd hstate id

end Runs

/-! ### The phases of a run -/

/-- A task before or in its first attempt; it has returned only if shutdown came before the start. -/
def Task.Starting : Task → Prop
  | .awaitingStart _ => True
  | .running state => state.Starting
  | .returned reason => reason = none
  | .panicked => False

def Task.Reporting (err : Error) : Task → Prop
  | .running state => state.Reporting err
  | _ => False

/-- A task after its start succeeded or its failure was reported. -/
def Task.Started : Task → Prop
  | .running state => state.Started
  | .returned reason => ∃ r, reason = some r ∧ r.IsFinal
  | _ => False

/-- A task that finished, or is about to. -/
def Task.Ended : Task → Prop
  | .running (.finished reason) => reason.IsFinal
  | .returned reason => ∃ r, reason = some r ∧ r.IsFinal
  | _ => False

def Task.reportRank : Task → Nat
  | .running state => state.reportRank
  | _ => 0

@[simp] theorem Task.starting_push (task : Task) (event : Event) :
    (task.push event).Starting ↔ task.Starting := by
  cases task <;> simp [Task.push, Task.Starting]

@[simp] theorem Task.reporting_push (err : Error) (task : Task) (event : Event) :
    (task.push event).Reporting err ↔ task.Reporting err := by
  cases task <;> simp [Task.push, Task.Reporting]

@[simp] theorem Task.started_push (task : Task) (event : Event) :
    (task.push event).Started ↔ task.Started := by
  cases task <;> simp [Task.push, Task.Started]

@[simp] theorem Task.ended_push (task : Task) (event : Event) :
    (task.push event).Ended ↔ task.Ended := by
  cases task with
  | running state => cases state <;> simp [Task.push, State.push, Task.Ended]
  | _ => simp [Task.push, Task.Ended]

/-- What the phases look at besides the task. -/
structure Seen where
  held : Bool
  sent : List (Option Error)
  connectedRuns : Nat
  startFailed : Bool

def World.seen (w : World) : Seen :=
  ⟨w.shared.start.held, w.shared.start.sent, w.connectedRuns, w.startFailed⟩

/-- The invariant: how the task, `start_tx` and the history of the start fit together. -/
inductive StartPhase (task : Task) (seen : Seen) : Prop
  | starting (htask : task.Starting) (hseen : seen = ⟨true, [], 0, false⟩)
  | reporting (err : Error) (htask : task.Reporting err) (hseen : seen = ⟨true, [], 0, true⟩)
  | failed (err : Error) (htask : task.Ended) (hseen : seen = ⟨false, [some err], 0, true⟩)
  | started (n : Nat) (htask : task.Started) (hseen : seen = ⟨false, [none], n + 1, false⟩)

theorem StartPhase.push {task : Task} {seen : Seen} (h : StartPhase task seen) (event : Event) :
    StartPhase (task.push event) seen := by
  cases h with
  | starting htask hseen => exact .starting ((Task.starting_push task event).mpr htask) hseen
  | reporting err htask hseen =>
    exact .reporting err ((Task.reporting_push err task event).mpr htask) hseen
  | failed err htask hseen => exact .failed err ((Task.ended_push task event).mpr htask) hseen
  | started n htask hseen => exact .started n ((Task.started_push task event).mpr htask) hseen

def World.Phase (w : World) : Prop := StartPhase w.task w.seen

theorem phase_new (queueName : String) (recvTx : Option (Unbounded Bytes)) :
    (World.new queueName recvTx).Phase :=
  .starting trivial rfl

theorem State.Starting.sound {state : State} (h : state.Starting) : state.Sound := by
  cases state <;> trivial

theorem State.Reporting.sound {err : Error} {state : State} (h : state.Reporting err) : state.Sound := by
  cases state <;> first | trivial | exact h.1

theorem State.Started.sound {state : State} (h : state.Started) : state.Sound := by
  cases state <;> first | trivial | exact h.1

theorem runState_starting {w : World} {state : State} (hstate : state.Starting)
    (hseen : w.seen = ⟨true, [], 0, false⟩) (answer : Answer) (branch : Branch) :
    (w.runState state answer branch).Phase := by
  obtain ⟨hheld, hsent, hruns, hfailed⟩ := Seen.mk.inj hseen
  rcases w.runState_cases hstate.sound answer branch with ⟨reason, rfl, -⟩ | ⟨-, next, shared, net, hran, hnext⟩
  · exact absurd hstate id
  rw [hnext]
  cases henters : state.entersConnected with
  | true =>
    cases hran with
    | entersLoop =>
      refine .started 0 trivial ?_
      simp [World.seen, Shared.sendStarted, hheld, hsent, hruns, hfailed, State.attemptFails]
    | loop => exact absurd hstate id
    | _ => cases henters
  | false =>
    cases hfails : state.attemptFails w.net answer with
    | true =>
      obtain ⟨rfl, err, hreports⟩ := hran.reporting_of_attemptFails hheld hfails
      refine .reporting err hreports ?_
      simp [World.seen, hheld, hsent, hruns, hfailed]
    | false =>
      obtain ⟨rfl, hstarts⟩ := hran.starting hstate hfails henters
      refine .starting hstarts ?_
      simp [World.seen, hheld, hsent, hruns, hfailed]

theorem State.Reporting.not_connecting {err : Error} {state : State} (h : state.Reporting err)
    (net : Net) (answer : Answer) :
    state.entersConnected = false ∧ state.attemptFails net answer = false := by
  cases state <;> first | exact ⟨rfl, rfl⟩ | exact absurd h id

theorem runState_reporting {w : World} {state : State} {err : Error} (hstate : state.Reporting err)
    (hseen : w.seen = ⟨true, [], 0, true⟩) (answer : Answer) (branch : Branch) :
    (w.runState state answer branch).Phase ∧
      (w.runState state answer branch).task.reportRank < state.reportRank := by
  obtain ⟨hheld, hsent, hruns, hfailed⟩ := Seen.mk.inj hseen
  obtain ⟨henters, hfails⟩ := hstate.not_connecting w.net answer
  rcases w.runState_cases hstate.sound answer branch with ⟨reason, rfl, -⟩ | ⟨-, next, shared, net, hran, hnext⟩
  · exact absurd hstate id
  obtain ⟨hrank, hreports⟩ := hran.reporting hheld hsent hstate
  rw [hnext]
  refine ⟨?_, hrank⟩
  rcases hreports with ⟨hreports, rfl⟩ | ⟨reason, rfl, hfinal, hheld', hsent'⟩
  · refine .reporting err hreports ?_
    simp [World.seen, hheld, hsent, hruns, hfailed, henters]
  · refine .failed err hfinal ?_
    simp [World.seen, hheld', hsent', hruns, hfailed, henters]

theorem runState_started {w : World} {state : State} {n : Nat} (hstate : state.Started)
    (hseen : w.seen = ⟨false, [none], n + 1, false⟩) (answer : Answer) (branch : Branch) :
    (w.runState state answer branch).Phase := by
  obtain ⟨hheld, hsent, hruns, hfailed⟩ := Seen.mk.inj hseen
  rcases w.runState_cases hstate.sound answer branch with
    ⟨reason, rfl, hnext⟩ | ⟨-, next, shared, net, hran, hnext⟩ <;> rw [hnext]
  · exact .started n ⟨reason, rfl, hstate⟩ hseen
  · obtain ⟨hstarted, hstart⟩ := hran.started hheld hstate
    refine .started (n + if state.entersConnected then 1 else 0) hstarted ?_
    simp [World.seen, hstart, hheld, hsent, hruns, hfailed, Nat.add_right_comm n 1]

theorem runTask_phase {w : World} (h : w.Phase) (answer : Answer) (branch : Branch) :
    (w.runTask answer branch).Phase ∧
      (w.startFailed = true →
        (w.runTask answer branch).task.reportRank ≤ w.task.reportRank - 1) := by
  unfold World.runTask
  cases htask : w.task with
  | awaitingStart started =>
    cases h with
    | starting _ hseen =>
      refine ⟨?_, fun hfailed => by simp [World.seen, hfailed] at hseen⟩
      dsimp only
      split
      · split
        · exact .starting rfl hseen
        · exact .starting trivial hseen
      · exact .starting (by rw [htask]; trivial) hseen
    | reporting _ h _ | started _ h _ | failed _ h _ =>
      rw [htask] at h
      exact absurd h id
  | running state =>
    cases h with
    | starting h hseen =>
      rw [htask] at h
      refine ⟨runState_starting h hseen answer branch, fun hfailed => ?_⟩
      simp [World.seen, hfailed] at hseen
    | reporting err h hseen =>
      rw [htask] at h
      obtain ⟨hphase, hrank⟩ := runState_reporting h hseen answer branch
      exact ⟨hphase, fun _ => Nat.le_sub_one_of_lt hrank⟩
    | failed err h hseen =>
      rw [htask] at h
      cases state with
      | finished reason =>
        simp only [runState_finished h]
        exact ⟨.failed err ⟨reason, rfl, h⟩ hseen, fun _ => Nat.zero_le _⟩
      | _ => exact absurd h id
    | started n h hseen =>
      rw [htask] at h
      refine ⟨runState_started h hseen answer branch, fun hfailed => ?_⟩
      simp [World.seen, hfailed] at hseen
  | returned reason => exact ⟨h, by simp [htask, Task.reportRank]⟩
  | panicked => exact ⟨h, by simp [htask, Task.reportRank]⟩

@[simp] theorem Task.reportRank_push (task : Task) (event : Event) :
    (task.push event).reportRank = task.reportRank := by
  cases task with
  | running state => cases state <;> rfl
  | _ => rfl

@[simp] theorem Net.onCallback_opens (net : Net) (event : Event) :
    (net.onCallback event).opens = net.opens := by
  cases event <;> rfl

/-- An action that is not a step of the task keeps what the phases look at, opens no connection and
takes no shutdown back. -/
theorem World.step_frame (w : World) {act : Action} (hact : act.isTask = false) :
    (w.step act).seen = w.seen ∧ (w.step act).net.opens = w.net.opens ∧
      (w.shared.shutdown = true → (w.step act).shared.shutdown = true) ∧
      ((w.step act).task = w.task ∨ (∃ event, (w.step act).task = w.task.push event) ∨
        ((∃ started, w.task = .awaitingStart started) ∧ (w.step act).task = .awaitingStart true)) := by
  cases act with
  | start =>
    cases htask : w.task <;> simp [World.step, World.seen, htask]
  | dropStartRx => exact ⟨rfl, rfl, id, .inl rfl⟩
  | shutdown => exact ⟨rfl, rfl, fun _ => rfl, .inl rfl⟩
  | send message =>
    unfold World.step
    dsimp only
    split <;> exact ⟨rfl, rfl, id, .inl rfl⟩
  | callback event =>
    simp only [World.step, World.callback]
    split
    · split
      · split
        · exact ⟨rfl, rfl, id, .inr (.inl ⟨event, rfl⟩)⟩
        · exact ⟨rfl, rfl, id, .inl rfl⟩
      · exact ⟨rfl, w.net.onCallback_opens event, id, .inr (.inl ⟨event, rfl⟩)⟩
    · exact ⟨rfl, rfl, id, .inl rfl⟩
  | close conn =>
    unfold World.step
    dsimp only
    split <;> exact ⟨rfl, rfl, id, .inl rfl⟩
  | task answer branch => exact absurd hact (by simp [Action.isTask])

theorem step_phase {w : World} (h : w.Phase) (act : Action) : (w.step act).Phase := by
  cases hact : act.isTask with
  | true =>
    cases act with
    | task answer branch => exact (runTask_phase h answer branch).1
    | _ => exact absurd hact (by simp [Action.isTask])
  | false =>
    obtain ⟨hseen, -, -, htask⟩ := w.step_frame hact
    unfold World.Phase
    rw [hseen]
    rcases htask with htask | ⟨event, htask⟩ | ⟨⟨started, hwait⟩, htask⟩
    · rw [htask]
      exact h
    · rw [htask]
      exact h.push event
    · rw [htask]
      cases h with
      | starting _ hseen => exact .starting trivial hseen
      | reporting _ h _ | started _ h _ | failed _ h _ =>
        rw [hwait] at h
        exact absurd h id

theorem run_phase {w : World} (h : w.Phase) (acts : List Action) : (w.run acts).Phase :=
  foldl_invariant World.Phase (fun _ act h => step_phase h act) h acts

theorem World.Phase.of_task {w : World} (h : w.Phase) {task : Task} (htask : w.task = task) :
    StartPhase task w.seen := by
  rw [← htask]
  exact h

theorem World.Phase.sound {w : World} (h : w.Phase) {state : State} (htask : w.task = .running state) :
    state.Sound := by
  cases h.of_task htask with
  | starting h _ => exact State.Starting.sound h
  | reporting _ h _ => exact State.Reporting.sound h
  | failed _ h _ => cases state <;> trivial
  | started _ h _ => exact State.Started.sound h

/-! ### The protocol -/

/-- The protocol of `start_tx`, of the reasons and of the end, in one state. -/
structure StartProtocol (w : World) : Prop where
  consumed_once : w.shared.start.sent.length + (if w.shared.start.held then 1 else 0) = 1
  sent_none : none ∈ w.shared.start.sent ↔ 0 < w.connectedRuns
  sent_some : ∀ err, some err ∈ w.shared.start.sent → w.startFailed = true ∧ w.connectedRuns = 0
  start_failed : w.startFailed = true →
    (∃ err, w.shared.start.sent = [some err]) ∨ ∃ err, w.task.Reporting err
  start_error : ∀ state err, w.task = .running state → state.reason = some (.startError err) →
    w.shared.start.held = true ∧ err.isSome
  finished : ∀ reason, w.task = .running (.finished reason) ∨ w.task = .returned (some reason) →
    (reason = .shutdown ∨ ∃ text, reason = .fatal text) ∧ reason.display.isSome
  not_panicked : w.task ≠ .panicked

theorem CloseReason.IsFinal.cases {reason : CloseReason} (h : reason.IsFinal) :
    (reason = .shutdown ∨ ∃ text, reason = .fatal text) ∧ reason.display.isSome := by
  cases reason with
  | shutdown => exact ⟨.inl rfl, rfl⟩
  | fatal text => exact ⟨.inr ⟨text, rfl⟩, rfl⟩
  | _ => exact absurd h id

theorem State.Started.reason_ne {state : State} (h : state.Started) (err : Option Error) :
    state.reason ≠ some (.startError err) := by
  cases state with
  | closingChannel _ _ _ reason | closingConnection _ reason =>
    exact fun heq => h.2 err (Option.some.inj heq)
  | closedConnection reason => exact fun heq => h err (Option.some.inj heq)
  | finished reason =>
    intro heq
    obtain rfl := Option.some.inj heq
    exact h
  | _ => exact fun heq => nomatch heq

theorem State.Starting.reason_eq {state : State} (h : state.Starting) : state.reason = none := by
  cases state <;> first | rfl | exact absurd h id

theorem State.Reporting.reason_eq {state : State} {err : Error} (h : state.Reporting err) :
    state.reason = some (.startError (some err)) := by
  cases state with
  | closingChannel | closingConnection => exact congrArg some h.2
  | closedConnection => exact congrArg some h
  | _ => exact absurd h id

section Phases
variable {w : World} (h : w.Phase)

include h

theorem World.Phase.not_panicked : w.task ≠ .panicked := by
  intro htask
  cases h.of_task htask with
  | starting h => exact h
  | reporting _ h => exact h
  | failed _ h => exact h
  | started _ h => exact h

/-- The task ends in a final reason, after a failed start or a started connection. -/
theorem World.Phase.isFinal {reason : CloseReason}
    (hend : w.task = .running (.finished reason) ∨ w.task = .returned (some reason)) : reason.IsFinal := by
  have hreturned : (∃ r, some reason = some r ∧ r.IsFinal) → reason.IsFinal := by
    rintro ⟨r, hr, hfinal⟩
    rwa [Option.some.inj hr]
  rcases hend with htask | htask
  · cases h.of_task htask with
    | starting h => exact absurd h id
    | reporting _ h => exact absurd h id
    | failed _ h => exact h
    | started _ h => exact h
  · cases h.of_task htask with
    | starting h => cases h
    | reporting _ h => exact absurd h id
    | failed _ h => exact hreturned h
    | started _ h => exact hreturned h

/-- A start error is only carried while it is reported. -/
theorem World.Phase.held_of_startError {state : State} {err : Option Error} (htask : w.task = .running state)
    (hreason : state.reason = some (.startError err)) : w.shared.start.held = true ∧ err.isSome := by
  cases h.of_task htask with
  | starting h =>
    rw [State.Starting.reason_eq h] at hreason
    cases hreason
  | reporting err' h hseen =>
    rw [State.Reporting.reason_eq h] at hreason
    cases hreason
    exact ⟨(Seen.mk.inj hseen).1, rfl⟩
  | failed _ h =>
    cases state with
    | finished reason =>
      cases hreason
      exact absurd h id
    | _ => exact absurd h id
  | started _ h => exact absurd hreason (State.Started.reason_ne h err)

theorem StartProtocol.of_phase : StartProtocol w := by
  have hstartError : ∀ state err, w.task = .running state → state.reason = some (.startError err) →
      w.shared.start.held = true ∧ err.isSome :=
    fun state err htask hreason => h.held_of_startError htask hreason
  have hfinal : ∀ reason, w.task = .running (.finished reason) ∨ w.task = .returned (some reason) →
      (reason = .shutdown ∨ ∃ text, reason = .fatal text) ∧ reason.display.isSome :=
    fun reason hend => (h.isFinal hend).cases
  have hpanicked := h.not_panicked
  cases h with
  | starting _ hseen =>
    obtain ⟨hheld, hsent, hruns, hfailed⟩ := Seen.mk.inj hseen
    exact ⟨by simp [hheld, hsent], by simp [hsent, hruns], by simp [hsent], by simp [hfailed], hstartError, hfinal,
      hpanicked⟩
  | reporting err htask hseen =>
    obtain ⟨hheld, hsent, hruns, hfailed⟩ := Seen.mk.inj hseen
    exact ⟨by simp [hheld, hsent], by simp [hsent, hruns], by simp [hsent], fun _ => .inr ⟨err, htask⟩, hstartError,
      hfinal, hpanicked⟩
  | failed err _ hseen =>
    obtain ⟨hheld, hsent, hruns, hfailed⟩ := Seen.mk.inj hseen
    exact ⟨by simp [hheld, hsent], by simp [hsent, hruns], by simp [hfailed, hruns], fun _ => .inl ⟨err, hsent⟩,
      hstartError, hfinal, hpanicked⟩
  | started n _ hseen =>
    obtain ⟨hheld, hsent, hruns, hfailed⟩ := Seen.mk.inj hseen
    exact ⟨by simp [hheld, hsent], by simp [hsent, hruns], by simp [hsent], by simp [hfailed], hstartError, hfinal,
      hpanicked⟩

end Phases

theorem runTask_startFailed {w : World} (h : w.startFailed = true) (answer : Answer)
    (branch : Branch) : (w.runTask answer branch).startFailed = true := by
  unfold World.runTask World.runState
  repeat' split
  all_goals simp [h]

theorem step_startFailed {w : World} (h : w.startFailed = true) (act : Action) :
    (w.step act).startFailed = true := by
  cases hact : act.isTask with
  | true =>
    cases act with
    | task answer branch => exact runTask_startFailed h answer branch
    | _ => exact absurd hact (by simp [Action.isTask])
  | false =>
    have hseen := (w.step_frame hact).1
    exact (congrArg Seen.startFailed hseen).trans h

theorem step_reportRank {w : World} (h : w.Phase) (hfailed : w.startFailed = true) (act : Action) :
    (w.step act).task.reportRank ≤ w.task.reportRank - if act.isTask then 1 else 0 := by
  cases hact : act.isTask with
  | true =>
    cases act with
    | task answer branch => exact (runTask_phase h answer branch).2 hfailed
    | _ => exact absurd hact (by simp [Action.isTask])
  | false =>
    rcases (w.step_frame hact).2.2.2 with htask | ⟨event, htask⟩ | ⟨-, htask⟩
    · simp [htask]
    · simp [htask]
    · rw [htask]
      exact Nat.zero_le _

/-- After a failed attempt to start, three steps of the task are enough to report it. -/
theorem startFailed_reported {w : World} (h : w.Phase) (hfailed : w.startFailed = true)
    (acts : List Action) (hacts : 3 ≤ acts.countP Action.isTask) :
    ∃ err, (w.run acts).shared.start.sent = [some err] := by
  have hrank : (w.run acts).task.reportRank ≤ w.task.reportRank - acts.countP Action.isTask :=
    rank_foldl_le (fun w => w.Phase ∧ w.startFailed = true) Action.isTask (·.task.reportRank)
      (fun _ act h _ => ⟨step_phase h.1 act, step_startFailed h.2 act⟩)
      (fun _ act h _ => step_reportRank h.1 h.2 act)
      (AllSteps.of_forall (fun _ _ => trivial) w acts) ⟨h, hfailed⟩
  have hbound : w.task.reportRank ≤ 3 := by
    unfold Task.reportRank State.reportRank
    repeat' split
    all_goals omega
  have hlater := run_phase h acts
  have hstill : (w.run acts).startFailed = true :=
    foldl_invariant (fun w : World => w.startFailed = true) (fun _ act h => step_startFailed h act) hfailed acts
  rcases (StartProtocol.of_phase hlater).start_failed hstill with hsent | ⟨err, hreporting⟩
  · exact hsent
  · -- a reporting state has a positive rank
    exfalso
    have hpos : 0 < (w.run acts).task.reportRank := by
      cases htask : (w.run acts).task with
      | running state =>
        rw [htask] at hreporting
        cases state <;> first | exact Nat.succ_pos _ | exact absurd hreporting id
      | _ =>
        rw [htask] at hreporting
        exact absurd hreporting id
    omega

/-- Every run keeps to the protocol in every state it reaches, and after a failed attempt to start it
reports the error within three steps of the task. -/
theorem start_protocol (queueName : String) (recvTx : Option (Unbounded Bytes))
    (acts : List Action) :
    StartProtocol ((World.new queueName recvTx).run acts) ∧
      (((World.new queueName recvTx).run acts).startFailed = true →
        ∀ later : List Action, 3 ≤ later.countP Action.isTask →
          ∃ err, ((World.new queueName recvTx).run (acts ++ later)).shared.start.sent = [some err]) := by
  have hphase := run_phase (phase_new queueName recvTx) acts
  refine ⟨.of_phase hphase, fun hfailed later hlater => ?_⟩
  rw [World.run, List.foldl_append]
  exact startFailed_reported hphase hfailed later hlater

end Tulpje.Amqp
