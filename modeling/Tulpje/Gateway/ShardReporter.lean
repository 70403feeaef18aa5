import Mathlib.Data.Finset.Card
import Tulpje.Gateway.ShardManager
import Tulpje.Lib.Run

/-!
# The shard reporter

`tulpje-gateway/src/shard_reporter.rs` with the `ShardState` of `tulpje-common`. `ShardReporter.handleEvent` is
the code; `none` is a panic. `ReporterTask` is the task of `ShardReporterHandle::new` with the handles at the
other end of its queue: a step is an arm of the `select!` loop of `run`, the end of a `handle_event`, or a call
through a handle, in any interleaving.

The loop is left through its `else` arm only, and so after the shutdown was seen and the queue is empty
(`drains_before_it_stops`).
-/

namespace Tulpje.Common

/-- `ShardState` of `shard_state.rs`; the times are seconds since the epoch. -/
structure ShardState where
  shardId : UInt32
  guildCount : UInt64
  up : Bool
  disconnectCount : UInt64
  latency : UInt64
  heartbeatInterval : UInt32
  lastStarted : UInt64
  lastHeartbeat : UInt64
  lastConnection : UInt64
  deriving DecidableEq

def ShardState.new (shardId : UInt32) (now : UInt64) : ShardState :=
  ⟨shardId, 0, false, 0, 0, 0, now, 0, 0⟩

end Tulpje.Common

namespace Tulpje.Gateway

open Lib

/-! ### The handler -/

/-- What a call of `handle_event` meets: the clock, `none` before the epoch, and the answer to `HSET`. -/
structure Surroundings where
  now : Option UInt64
  redis : Except String Unit

structure ShardReporter where
  guildIds : Finset GuildId
  shard : Common.ShardState
  /-- the field of the shard in the hash `tulpje:shard_status` -/
  shardStatus : Option Common.ShardState

/-- `try_into` to a `u64`. -/
def tryIntoU64 (n : Nat) : Option UInt64 := if n < UInt64.size then some (UInt64.ofNat n) else none

namespace ShardReporter

def new (shardId : UInt32) (now : UInt64) : ShardReporter := ⟨∅, .new shardId now, none⟩

variable (self : ShardReporter) (env : Surroundings)

def saveShard : Except String Unit × ShardReporter :=
  match env.redis with
  | .ok () => (.ok (), { self with shardStatus := some self.shard })
  | .error err => (.error err, self)

def helloed (heartbeatInterval : UInt64) : Option (Except String Unit × ShardReporter) :=
  if heartbeatInterval.toNat < UInt32.size then do
    let now ← env.now
    let shard := { self.shard with
      heartbeatInterval := heartbeatInterval.toUInt32
      lastConnection := now }
    some ({ self with shard := shard }.saveShard env)
  else some (.error "out of range integral type conversion attempted", self)

/-- The guild count is the size of the set, which then is published. -/
def countGuilds (guildIds : Finset GuildId) (shard : Common.ShardState) :
    Option (Except String Unit × ShardReporter) := do
  let guildCount ← tryIntoU64 guildIds.card
  some ({ self with guildIds := guildIds, shard := { shard with guildCount := guildCount } }.saveShard env)

def readied (guilds : List GuildId) : Option (Except String Unit × ShardReporter) :=
  self.countGuilds env (self.guildIds ∪ guilds.toFinset) { self.shard with up := true }

def resumed : Option (Except String Unit × ShardReporter) := do
  let now ← env.now
  some ({ self with shard := { self.shard with up := true, lastConnection := now } }.saveShard env)

def guildCreated (id : GuildId) : Option (Except String Unit × ShardReporter) :=
  if id ∈ self.guildIds then some (.ok (), self)
  else self.countGuilds env (insert id self.guildIds) self.shard

def guildDeleted (id : GuildId) : Option (Except String Unit × ShardReporter) :=
  if id ∈ self.guildIds then self.countGuilds env (self.guildIds.erase id) self.shard
  else some (.ok (), self)

def socketClosed : Option (Except String Unit × ShardReporter) :=
  let shard := { self.shard with
    up := false
    disconnectCount := self.shard.disconnectCount + 1 }
  some ({ self with shard := shard }.saveShard env)

def heartbeated (latency : Latency) : Option (Except String Unit × ShardReporter) := do
  let now ← env.now
  let recent ← latency.head?
  let latency ← tryIntoU64 recent
  let shard := { self.shard with up := true, lastHeartbeat := now, latency := latency }
  some ({ self with shard := shard }.saveShard env)

def handleEvent : ReporterEvent → Option (Except String Unit × ShardReporter)
  | .event (.gatewayHello heartbeatInterval) => self.helloed env heartbeatInterval
  | .event (.ready guilds) => self.readied env guilds
  | .event (.guildCreate id) => self.guildCreated env id
  | .event (.guildDelete id) => self.guildDeleted env id
  | .event .resumed => self.resumed env
  | .event (.gatewayClose _) => self.socketClosed env
  | .event _ => some (.ok (), self)
  | .gatewayHeartbeatAck _ latency => self.heartbeated env latency

end ShardReporter

/-! ### The task -/

/-- Where the task is: in its `select!`, in `handle_event`, or at its end. -/
inductive ReporterTask.Phase
  | selecting
  | handling (event : ReporterEvent)
  | returned
  | panicked

structure ReporterTask where
  reporter : ShardReporter
  channel : Bounded ReporterEvent
  /-- the handles that are left -/
  handles : Nat
  /-- the shutdown token -/
  cancelled : Bool
  shuttingDown : Bool
  phase : ReporterTask.Phase
  /-- events that `try_send` put on the channel -/
  accepted : List ReporterEvent
  /-- events that were passed to `handle_event` -/
  passed : List ReporterEvent

namespace ReporterTask

inductive Action
  | trySend (msg : ReporterEvent)
  | clone
  | drop
  | shutdown
  | recv
  | cancelled
  | stop
  | handled (env : Surroundings)

/-- `ShardReporterHandle::new`, which spawns the task. -/
def new (shardId : UInt32) (now : UInt64) : ReporterTask where
  reporter := .new shardId now
  channel := .new 10
  handles := 1
  cancelled := false
  shuttingDown := false
  phase := .selecting
  accepted := []
  passed := []

variable (self : ReporterTask)

/-- `recv` returns `None`: nothing is queued, and nothing can be any more. -/
def ended : Bool := self.channel.queue.isEmpty && (self.channel.closed || self.handles == 0)

/-- What needs a handle does nothing when there is none. An arm of the loop that is not ready leaves the
task waiting; the `else` arm is taken when both others are disabled. -/
def step : Action → ReporterTask
  | .trySend msg =>
    if self.handles = 0 then self
    else
      match tryReport self.channel msg with
      | .ok channel =>
        { self with
          channel := channel
          accepted := self.accepted ++ if shardReporterEvents.contains msg.kind then [msg] else [] }
      | .error _ => self
  | .clone => if self.handles = 0 then self else { self with handles := self.handles + 1 }
  | .drop => { self with handles := self.handles - 1 }
  | .shutdown => if self.handles = 0 then self else { self with cancelled := true }
  | .recv =>
    match self.phase, self.channel.queue with
    | .selecting, event :: _ =>
      { self with
        channel := self.channel.recv
        phase := .handling event
        passed := self.passed ++ [event] }
    | _, _ => self
  | .cancelled =>
    match self.phase with
    | .selecting =>
      if self.cancelled && !self.shuttingDown then
        { self with shuttingDown := true, channel := self.channel.close }
      else self
    | _ => self
  | .stop =>
    match self.phase with
    | .selecting => if self.ended && self.shuttingDown then { self with phase := .returned } else self
    | _ => self
  | .handled env =>
    match self.phase with
    | .handling event =>
      match self.reporter.handleEvent env event with
      -- the receiver is dropped with the task
      | none => { self with phase := .panicked, channel := self.channel.close }
      -- an error is only logged
      | some (_, reporter) => { self with reporter := reporter, phase := .selecting }
    | _ => self

def run (acts : List Action) : ReporterTask := acts.foldl step self

/-! ### What a step can do -/

variable {self}

/-- An event reaches the channel while it is open, or nothing happens. -/
theorem step_trySend (msg : ReporterEvent) : self.step (.trySend msg) = self ∨
    self.channel.closed = false ∧ self.step (.trySend msg) =
      { self with
        channel := { self.channel with queue := self.channel.queue ++ [msg] }
        accepted := self.accepted ++ [msg] } := by
  unfold step tryReport
  by_cases hhandles : self.handles = 0
  · exact .inl (if_pos hhandles)
  by_cases hlisted : shardReporterEvents.contains msg.kind = true
  · by_cases hroom : self.channel.HasRoom
    · refine .inr ⟨hroom.1, ?_⟩
      simp only [if_neg hhandles, if_pos hlisted, Bounded.trySend_of_hasRoom hroom]
    · obtain ⟨err, herr⟩ := Bounded.trySend_of_not_hasRoom hroom msg
      left
      simp only [if_neg hhandles, if_pos hlisted, herr]
  · left
    simp only [if_neg hhandles, if_neg hlisted, List.append_nil]

theorem step_recv : self.step .recv = self ∨
    ∃ event queue, self.phase = .selecting ∧ self.channel.queue = event :: queue ∧ self.step .recv =
      { self with
        channel := { self.channel with queue := queue }
        phase := .handling event
        passed := self.passed ++ [event] } := by
  unfold step
  cases hphase : self.phase <;> cases hqueue : self.channel.queue <;> simp [Bounded.recv, hqueue]

theorem step_cancelled : self.step .cancelled = self ∨
    self.step .cancelled = { self with shuttingDown := true, channel := self.channel.close } := by
  unfold step
  cases self.phase with
  | selecting =>
    dsimp only
    split_ifs
    · exact .inr rfl
    · exact .inl rfl
  | _ => exact .inl rfl

theorem step_stop : self.step .stop = self ∨
    self.channel.queue = [] ∧ self.shuttingDown = true ∧
      self.step .stop = { self with phase := .returned } := by
  unfold step
  cases self.phase with
  | selecting =>
    dsimp only
    split_ifs with hstop
    · simp only [ended, Bool.and_eq_true, List.isEmpty_iff] at hstop
      exact .inr ⟨hstop.1.1, hstop.2, rfl⟩
    · exact .inl rfl
  | _ => exact .inl rfl

/-- What the end of a `handle_event` leaves, if it was called at all. -/
theorem step_handled (env : Surroundings) : self.step (.handled env) = self ∨
    self.step (.handled env) = { self with phase := .panicked, channel := self.channel.close } ∨
    ∃ reporter, self.step (.handled env) = { self with reporter := reporter, phase := .selecting } := by
  unfold step
  cases self.phase with
  | handling event =>
    dsimp only
    rcases self.reporter.handleEvent env event with _ | ⟨result, reporter⟩
    · exact .inr (.inl rfl)
    · exact .inr (.inr ⟨reporter, rfl⟩)
  | _ => exact .inl rfl

/-! ### What a run keeps -/

/-- Every accepted event was passed on or is still queued, in order; the channel is closed once the shutdown
was seen, and empty when the loop was left. -/
structure Inv (task : ReporterTask) : Prop where
  accepted : task.accepted = task.passed ++ task.channel.queue
  closed : task.shuttingDown = true → task.channel.closed = true
  returned : task.phase = .returned → task.channel.queue = [] ∧ task.shuttingDown = true

theorem inv_new (shardId : UInt32) (now : UInt64) : (new shardId now).Inv := ⟨rfl, nofun, nofun⟩

theorem Inv.step (h : self.Inv) (a : Action) : (self.step a).Inv := by
  cases a with
  | trySend msg =>
    rcases self.step_trySend msg with heq | ⟨hopen, heq⟩ <;> rw [heq]
    · exact h
    · refine ⟨?_, h.closed, fun hreturned => ?_⟩
      · show self.accepted ++ [msg] = self.passed ++ (self.channel.queue ++ [msg])
        rw [h.accepted, List.append_assoc]
      · have hclosed := h.closed (h.returned hreturned).2
        rw [hopen] at hclosed
        cases hclosed
  | clone | shutdown =>
    unfold ReporterTask.step
    dsimp only
    split_ifs <;> exact ⟨h.accepted, h.closed, h.returned⟩
  | drop => exact ⟨h.accepted, h.closed, h.returned⟩
  | recv =>
    rcases self.step_recv with heq | ⟨event, queue, -, hqueue, heq⟩ <;> rw [heq]
    · exact h
    · refine ⟨?_, h.closed, nofun⟩
      show self.accepted = self.passed ++ [event] ++ queue
      rw [h.accepted, hqueue, List.append_assoc, List.singleton_append]
  | cancelled =>
    rcases self.step_cancelled with heq | heq <;> rw [heq]
    · exact h
    · exact ⟨h.accepted, fun _ => rfl, fun hreturned => ⟨(h.returned hreturned).1, rfl⟩⟩
  | stop =>
    rcases self.step_stop with heq | ⟨hqueue, hshutting, heq⟩ <;> rw [heq]
    · exact h
    · exact ⟨h.accepted, h.closed, fun _ => ⟨hqueue, hshutting⟩⟩
  | handled env =>
    rcases self.step_handled env with heq | heq | ⟨reporter, heq⟩ <;> rw [heq]
    · exact h
    · exact ⟨h.accepted, fun _ => rfl, nofun⟩
    · exact ⟨h.accepted, h.closed, nofun⟩

theorem inv_run (shardId : UInt32) (now : UInt64) (acts : List Action) : ((new shardId now).run acts).Inv :=
  foldl_invariant Inv (fun _ a h => h.step a) (inv_new shardId now) acts

/-- On a closed channel nothing is accepted any more. -/
theorem closed_step (h : self.channel.closed = true) (a : Action) :
    (self.step a).channel.closed = true ∧ (self.step a).accepted = self.accepted := by
  cases a with
  | trySend msg =>
    rcases self.step_trySend msg with heq | ⟨hopen, -⟩
    · rw [heq]
      exact ⟨h, rfl⟩
    · rw [h] at hopen
      cases hopen
  | clone | shutdown =>
    unfold ReporterTask.step
    dsimp only
    split_ifs <;> exact ⟨h, rfl⟩
  | drop => exact ⟨h, rfl⟩
  | recv =>
    rcases self.step_recv with heq | ⟨_, _, -, -, heq⟩ <;> rw [heq] <;> exact ⟨h, rfl⟩
  | cancelled =>
    rcases self.step_cancelled with heq | heq <;> rw [heq]
    · exact ⟨h, rfl⟩
    · exact ⟨rfl, rfl⟩
  | stop =>
    rcases self.step_stop with heq | ⟨-, -, heq⟩ <;> rw [heq] <;> exact ⟨h, rfl⟩
  | handled env =>
    rcases self.step_handled env with heq | heq | ⟨_, heq⟩ <;> rw [heq]
    · exact ⟨h, rfl⟩
    · exact ⟨rfl, rfl⟩
    · exact ⟨h, rfl⟩

theorem accepted_run_of_closed (h : self.channel.closed = true) (acts : List Action) :
    (self.run acts).accepted = self.accepted := by
  have hkeep : (self.run acts).channel.closed = true ∧ (self.run acts).accepted = self.accepted :=
    foldl_invariant (fun t : ReporterTask => t.channel.closed = true ∧ t.accepted = self.accepted)
      (fun _ a ht => ⟨(closed_step ht.1 a).1, (closed_step ht.1 a).2.trans ht.2⟩) ⟨h, rfl⟩ acts
  exact hkeep.2

/-- Nothing that was accepted is lost or reordered, whatever the order of the steps: it was passed to
`handle_event` once or is queued, and `run` returns after the shutdown was seen and the queue is empty. After
the shutdown was seen nothing more is accepted, and an error of `handle_event` only brings the loop back to its
`select!`. -/
theorem drains_before_it_stops (shardId : UInt32) (now : UInt64) (acts : List Action) :
    let task := (new shardId now).run acts
    task.accepted = task.passed ++ task.channel.queue ∧
      (task.phase = .returned → task.shuttingDown = true ∧ task.passed = task.accepted) ∧
      (task.shuttingDown = true → ∀ later, (task.run later).accepted = task.accepted) ∧
      ∀ event env err reporter, task.phase = .handling event →
        task.reporter.handleEvent env event = some (.error err, reporter) →
          task.step (.handled env) = { task with reporter := reporter, phase := .selecting } := by
  have hinv := inv_run shardId now acts
  refine ⟨hinv.accepted, fun hreturned => ?_, fun hshutting later => ?_, ?_⟩
  · obtain ⟨hqueue, hshutting⟩ := hinv.returned hreturned
    rw [hinv.accepted, hqueue, List.append_nil]
    exact ⟨hshutting, rfl⟩
  · exact accepted_run_of_closed (hinv.closed hshutting) later
  · intro event env err reporter hphase herror
    simp only [step, hphase, herror]

/-- The shutdown is seen while two events are queued, and Redis is down. -/
example :
    let down : Surroundings := ⟨some 1700000000, .error "connection refused"⟩
    let task := (new 0 1700000000).run
      [.trySend (.event .resumed), .trySend (.event (.guildCreate 7)), .shutdown, .cancelled,
        .recv, .handled down, .recv, .handled down, .stop]
    task.phase = .returned ∧ task.passed = [.event .resumed, .event (.guildCreate 7)] := ⟨rfl, rfl⟩

/-! ### The end of the loop -/

theorem panicked_run (h : self.phase = .panicked) (acts : List Action) : (self.run acts).phase = .panicked := by
  refine foldl_invariant (fun t : ReporterTask => t.phase = .panicked) (fun t a ht => ?_) h acts
  cases a with
  | trySend msg => rcases t.step_trySend msg with heq | ⟨-, heq⟩ <;> rw [heq] <;> exact ht
  | clone | shutdown =>
    unfold step
    dsimp only
    split_ifs <;> exact ht
  | drop => exact ht
  | recv | cancelled | stop | handled => simp only [step, ht]

/-- The steps of the task that handle what is queued. -/
def drainActs (env : Surroundings) (queue : List ReporterEvent) : List Action :=
  queue.flatMap fun _ => [.recv, .handled env]

/-- After the shutdown was seen the task can come to its end without anyone else: it handles what is queued
and takes the `else` arm, unless a `handle_event` panics. -/
theorem ends_after_shutdown (env : Surroundings) (hclosed : self.channel.closed = true)
    (hshutting : self.shuttingDown = true) (hphase : self.phase = .selecting) :
    let task := self.run (drainActs env self.channel.queue ++ [.stop])
    task.phase = .returned ∨ task.phase = .panicked := by
  generalize hqueue : self.channel.queue = queue
  induction queue generalizing self with
  | nil =>
    left
    simp [drainActs, run, step, hphase, ended, hqueue, hclosed, hshutting]
  | cons event queue ih =>
    have hrecv : self.step .recv =
        { self with
          channel := { self.channel with queue := queue }
          phase := .handling event
          passed := self.passed ++ [event] } := by
      simp only [step, hphase, hqueue, Bounded.recv, List.tail_cons]
    have hrun : self.run (drainActs env (event :: queue) ++ [.stop]) =
        ((self.step .recv).step (.handled env)).run (drainActs env queue ++ [.stop]) := rfl
    rw [hrun, hrecv]
    unfold step
    dsimp only
    rcases self.reporter.handleEvent env event with _ | ⟨result, reporter⟩
    · exact .inr (panicked_run rfl _)
    · exact ih hclosed hshutting rfl rfl

end ReporterTask

end Tulpje.Gateway
