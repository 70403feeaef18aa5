import Tulpje.Amqp.Start

/-!
# Shutdown

Only the loop of `Connected` looks at the shutdown token, and `run` once before the start. A task that
is reconnecting, or closing for a reason that reconnects, goes on as if nothing had happened.
`World.stops` are the steps left, and `shutdown_stops` says that with them no connection is opened any
more.

The loop may take another branch that is ready, and a channel be opened again, any number of times
before the token is heeded. `World.heeds` are the steps that do not put it off: once there are no others
the task returns within ten steps.
-/

namespace Tulpje.Amqp

open Lib

/-- A state that is not on the way to a new connection. -/
def State.stops : State → Bool
  | .disconnected | .reconnecting | .connecting false => false
  | .closedConnection reason => reason.finishes
  | _ => true

def World.stops (w : World) : Action → Bool
  | .task _ _ =>
    match w.task with
    | .running state => state.stops
    -- before the start the token is looked at
    | _ => true
  | _ => true

/-- A run of a state heeds the token: no attempt to connect begins or is repeated, the loop takes the
shutdown branch, and what is closed is closed for good, or is a channel that is opened again. -/
def State.heeds (state : State) (shared : Shared) (net : Net) (answer : Answer) (branch : Branch) :
    Bool :=
  match state with
  | .disconnected | .reconnecting | .connecting false => false
  | .connecting true | .openingChannel _ _ | .declaringConsumer _ _ _ =>
    shared.start.held || !state.attemptFails net answer
  | .connected _ _ _ true => branch == .shutdown
  | .closingChannel _ _ _ reason =>
    reason.finishes || (reason.reopens && !answer.fails .closeChannel)
  | .closingConnection _ reason | .closedConnection reason => reason.finishes
  | .reopeningChannel _ _ | .connected _ _ _ false | .finished _ => true

def World.heeds (w : World) : Action → Bool
  | .task answer branch =>
    match w.task with
    | .awaitingStart started => started
    | .running state => state.heeds w.shared w.net answer branch
    | _ => true
  | _ => true

/-- How far a state is from the end, along the steps that stop. -/
def State.stopRank : State → Nat
  | .finished _ => 1
  | .closedConnection _ => 2
  | .closingConnection _ _ => 3
  | .closingChannel _ _ _ reason => if reason.reopens then 10 else 4
  | .connected _ _ _ true => 5
  | .connected _ _ _ false => 6
  | .declaringConsumer _ _ _ => 7
  | .openingChannel _ _ => 8
  | .reopeningChannel _ _ | .connecting true => 9
  | .disconnected | .reconnecting | .connecting false => 10

def Task.stopRank : Task → Nat
  | .awaitingStart _ => 1
  | .running state => state.stopRank
  | .returned _ | .panicked => 0

theorem State.stopRank_pos (state : State) : 0 < state.stopRank := by
  unfold State.stopRank
  repeat' split
  all_goals omega

theorem Task.stopRank_le (task : Task) : task.stopRank ≤ 10 := by
  unfold Task.stopRank State.stopRank
  repeat' split
  all_goals omega

@[simp] theorem Task.stopRank_push (task : Task) (event : Event) :
    (task.push event).stopRank = task.stopRank := by
  cases task with
  | running state =>
    cases state with
    | connected conn chan eventRx looping => cases looping <;> rfl
    | _ => rfl
  | _ => rfl

theorem State.stops_of_heeds {state : State} {shared : Shared} {net : Net} {answer : Answer} {branch : Branch}
    (h : state.heeds shared net answer branch = true) : state.stops = true := by
  cases state with
  | disconnected | reconnecting => cases h
  | connecting opening =>
    cases opening with
    | false => cases h
    | true => rfl
  | closedConnection reason => exact h
  | _ => rfl

/-- Nothing but the token's owner cancels it, or takes that back. -/
theorem State.Ran.shutdown_eq {state next : State} {shared shared' : Shared} {net net' : Net} {answer : Answer}
    {branch : Branch} (h : state.Ran shared net answer branch next shared' net') :
    shared'.shutdown = shared.shutdown := by
  cases h with
  | entersLoop => exact Shared.sendStarted_shutdown shared
  | loop conn chan eventRx =>
    cases branch with
    | shutdown => rw [Connected.run_shutdown]
    | event =>
      cases eventRx with
      | nil => rfl
      | cons event eventRx =>
        rw [Connected.run_event]
        rcases Connected.onEvent_cases conn chan eventRx shared event with
          ⟨_, -, h⟩ | ⟨_, -, h⟩ | ⟨_, -, h⟩ | ⟨-, -, _, h⟩ <;> rw [h]
    | message =>
      cases hq : shared.sendRx with
      | nil => rw [Connected.run_no_message _ _ _ _ _ hq]
      | cons message sendRx => rw [Connected.run_message _ _ _ _ _ hq]
  | closedConnection reason =>
    obtain ⟨-, start, hshared⟩ := ClosedConnection.run_cases reason shared
    rw [hshared]
  | _ => rfl

/-- Only the first step of `Connecting` opens a connection. -/
theorem State.Ran.opens_eq {state next : State} {shared shared' : Shared} {net net' : Net} {answer : Answer}
    {branch : Branch} (h : state.Ran shared net answer branch next shared' net') (hstops : state.stops = true) :
    net'.opens = net.opens := by
  cases h with
  | opens => cases hstops
  | loop conn chan eventRx =>
    obtain ⟨-, handed, hnet⟩ := Connected.run_cases conn chan eventRx net answer true shared branch
    rw [hnet]
  | _ => rfl

theorem State.Ran.stopRank_lt {state next : State} {shared shared' : Shared} {net net' : Net} {answer : Answer}
    {branch : Branch} (h : state.Ran shared net answer branch next shared' net')
    (hstate : ∀ reason, state ≠ .finished reason) (hshutdown : shared.shutdown = true)
    (hheeds : state.heeds shared net answer branch = true) : next.stopRank < state.stopRank := by
  -- an attempt that fails heeds the token only if it is the first one
  have hfirst : state.attemptFails net answer = true →
      (shared.start.held || !state.attemptFails net answer) = true → shared.start.held = true := by
    intro hfails h
    simpa [hfails] using h
  cases h with
  | disconnected | opens | reconnecting => cases hheeds
  | noConnection err hopen =>
    have hheld := hfirst (by simp [State.attemptFails, hopen]) hheeds
    simp [hheld, State.stopRank]
  | noChannel conn eventRx err hopen =>
    have hheld := hfirst (State.attemptFails_of_open hopen eventRx) hheeds
    simp [hheld, State.stopRank]
  | notSetUp conn eventRx chan err hopen hset =>
    have hheld := hfirst (State.attemptFails_of_setUp hset eventRx net) hheeds
    simp [hheld, State.stopRank, CloseReason.reopens]
  | noConsumer conn chan eventRx err hcons =>
    have hheld := hfirst hcons hheeds
    simp [hheld, State.stopRank, CloseReason.reopens]
  | channel => cases shared.recvTx <;> simp [State.stopRank]
  | notRegistered | connection | reopeningChannel | consumer | closingConnection | entersLoop =>
    simp [State.stopRank]
  | loop =>
    obtain rfl : branch = .shutdown := by simpa [State.heeds] using hheeds
    rw [Connected.run_shutdown, hshutdown]
    simp [State.stopRank, CloseReason.reopens]
  | channelClosed _ _ _ reason hreopens | channelNotClosed _ _ _ reason hreopens | reopens _ _ _ reason hreopens =>
    simp [State.stopRank, hreopens]
  | closedConnection reason =>
    have hfinishes : reason.finishes = true := hheeds
    obtain ⟨⟨hreconnects, -⟩ | ⟨-, final, hfinal⟩, start, hshared⟩ := ClosedConnection.run_cases reason shared
    · rw [hfinishes] at hreconnects
      cases hreconnects
    · rw [hfinal]
      simp [State.stopRank]
  | finished reason => exact absurd rfl (hstate reason)

section Steps
variable {w : World} {act : Action}

theorem stops_of_heeds (h : w.heeds act = true) : w.stops act = true := by
  cases act with
  | task answer branch =>
    cases htask : w.task with
    | running state =>
      have hheeds : state.heeds w.shared w.net answer branch = true := by simpa [World.heeds, htask] using h
      simpa [World.stops, htask] using State.stops_of_heeds hheeds
    | _ => simp [World.stops, htask]
  | _ => rfl

variable (hphase : w.Phase) (hshutdown : w.shared.shutdown = true)
include hphase hshutdown

theorem stops_step (hstops : w.stops act = true) :
    (w.step act).net.opens = w.net.opens ∧ (w.step act).shared.shutdown = true := by
  cases hact : act.isTask with
  | false =>
    obtain ⟨-, hopens, hshut, -⟩ := w.step_frame hact
    exact ⟨hopens, hshut hshutdown⟩
  | true =>
    cases act with
    | task answer branch =>
      show (w.runTask answer branch).net.opens = _ ∧ (w.runTask answer branch).shared.shutdown = true
      unfold World.runTask
      cases htask : w.task with
      | awaitingStart started => cases started <;> simp [hshutdown]
      | running state =>
        have hstops : state.stops = true := by simpa [World.stops, htask] using hstops
        dsimp only
        rcases w.runState_cases (hphase.sound htask) answer branch with
          ⟨reason, rfl, hnext⟩ | ⟨-, next, shared, net, hran, hnext⟩ <;> rw [hnext]
        · exact ⟨rfl, hshutdown⟩
        · exact ⟨hran.opens_eq hstops, hran.shutdown_eq.trans hshutdown⟩
      | returned reason | panicked => exact ⟨rfl, hshutdown⟩
    | _ => exact absurd hact (by simp [Action.isTask])

/-- A step of the task that heeds the token gets closer to the end, and no other step goes away from it. -/
theorem heeds_step (hheeds : w.heeds act = true) :
    (w.step act).task.stopRank ≤ w.task.stopRank - if act.isTask then 1 else 0 := by
  cases hact : act.isTask with
  | false =>
    obtain ⟨-, -, -, htask⟩ := w.step_frame hact
    rcases htask with htask | ⟨event, htask⟩ | ⟨⟨started, hwait⟩, htask⟩
    · simp [htask]
    · simp [htask]
    · simp [htask, hwait, Task.stopRank]
  | true =>
    cases act with
    | task answer branch =>
      show (w.runTask answer branch).task.stopRank ≤ _
      unfold World.runTask
      cases htask : w.task with
      | awaitingStart started =>
        obtain rfl : started = true := by simpa [World.heeds, htask] using hheeds
        simp [hshutdown, Task.stopRank]
      | running state =>
        have hheeds : state.heeds w.shared w.net answer branch = true := by
          simpa [World.heeds, htask] using hheeds
        dsimp only
        rcases w.runState_cases (hphase.sound htask) answer branch with
          ⟨reason, rfl, hnext⟩ | ⟨hstate, next, shared, net, hran, hnext⟩ <;> rw [hnext]
        · exact Nat.zero_le _
        · exact Nat.le_sub_one_of_lt (hran.stopRank_lt hstate hshutdown hheeds)
      | returned reason | panicked => simp [htask, Task.stopRank]
    | _ => exact absurd hact (by simp [Action.isTask])

theorem returned_of_heeds {acts : List Action} (hheeds : AllSteps World.step (fun w act => w.heeds act = true) w acts)
    (hlong : 10 ≤ acts.countP Action.isTask) : ∃ reason, (w.run acts).task = .returned reason := by
  let Heeding (v : World) : Prop := v.Phase ∧ v.shared.shutdown = true
  have hkeeps : ∀ v act, Heeding v → v.heeds act = true → Heeding (v.step act) := fun v act hv hheeds =>
    ⟨step_phase hv.1 act, (stops_step hv.1 hv.2 (stops_of_heeds hheeds)).2⟩
  have hkept : Heeding (w.run acts) := foldl_of_allSteps Heeding hkeeps hheeds ⟨hphase, hshutdown⟩
  have hrank : (w.run acts).task.stopRank ≤ w.task.stopRank - acts.countP Action.isTask :=
    rank_foldl_le Heeding Action.isTask (·.task.stopRank) hkeeps
      (fun v act hv hheeds => heeds_step hv.1 hv.2 hheeds) hheeds ⟨hphase, hshutdown⟩
  have hbound := w.task.stopRank_le
  have hzero : (w.run acts).task.stopRank = 0 := by omega
  cases htask : (w.run acts).task with
  | returned reason => exact ⟨reason, rfl⟩
  | panicked => exact absurd htask (StartProtocol.of_phase hkept.1).not_panicked
  | awaitingStart started =>
    rw [htask] at hzero
    cases hzero
  | running state =>
    rw [htask] at hzero
    exact absurd hzero state.stopRank_pos.ne'

end Steps

/-- The broker closes the connection, and the task gets to `Reconnecting`. -/
def losesConnection : List Action :=
  connects ++ .callback (.connectionClose ⟨0⟩) :: List.replicate 4 (.task .ok .event)

end Tulpje.Amqp
