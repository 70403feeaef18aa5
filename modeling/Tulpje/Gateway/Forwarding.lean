import Mathlib.Tactic.Common
import Tulpje.Gateway.ShardManager

/-!
# Forwarding against the reporter's queue

In every run the stop decision is the one of `Forwarding`, whatever the reporter does: a close frame is
no reporter event, so it never meets a full queue. The frames sent to AMQP are those of `Forwarding` if
and only if the queue took every reporter event of a forwarded frame (`run_forwards_iff`): otherwise
`handleMessage` returns the queue's error before the frame is sent, and a frame that was not sent is not
sent later either.

The induction carries `Agree`: equal states and stop decisions, and at most as many frames sent as are
to be sent, so that a frame once dropped is never made up for.
-/

namespace Tulpje.Gateway

open Lib

section
variable (de : Deserializers) (toVec : DiscordEvent → Except String (List UInt8))

/-- The step does not run into a full or closed reporter queue with a frame that is to be forwarded. -/
def Fits (r : Run) : Step → Prop
  | .input (.message _ _ message) =>
    r.stopped = false → r.manager.state ≠ .stopped →
      ∀ event e, ParsedEvent.fromMessage de message = .ok event → event.event = some e →
        event.forward = true → e.kind ∈ shardReporterEvents → r.manager.reporter.HasRoom
  | _ => True

/-- Every step of the run fits. -/
def AllFit (r : Run) : List Step → Prop
  | [] => True
  | s :: steps => Fits de r s ∧ AllFit (r.step de toVec s) steps

/-- What a run and its specification share at every point. -/
structure Agree (shard : UInt32) (r : Run) (f : Forwarding) : Prop where
  shard_eq : r.manager.shard = shard
  state_eq : r.manager.state = f.state
  stopped_eq : r.stopped = f.stopped
  amqp_open : r.manager.amqp.closed = false
  sent_le : r.manager.amqp.sent.length ≤ f.sent.length

/-- What one step keeps: run and specification agree, and they have sent the same after the step if and
only if they had before and the step fits. -/
def Keeps (shard : UInt32) (r : Run) (f : Forwarding) (s : Step) : Prop :=
  Agree shard (r.step de toVec s) (f.step de toVec shard s) ∧
    ((r.step de toVec s).manager.amqp.sent = (f.step de toVec shard s).sent ↔
      r.manager.amqp.sent = f.sent ∧ Fits de r s)

variable {de toVec}

/-! ### One message -/

theorem forward_has_text {message : Message} {event : ParsedEvent}
    (h : ParsedEvent.fromMessage de message = .ok event) (hf : event.forward = true) :
    ∃ text, event.text = some text := by
  cases message with
  | close frame =>
    cases h
    simp [ParsedEvent.fromEvent] at hf
  | text text =>
    refine ⟨text, ?_⟩
    simp only [ParsedEvent.fromMessage] at h
    -- each branch of the parser that accepts keeps the text
    repeat' split at h
    all_goals cases h <;> rfl

theorem payloads_ne_nil (hser : ∀ e, ∃ bytes, toVec e = .ok bytes) (shard : UInt32) (uuid : String)
    {message : Message} {event : ParsedEvent} (h : ParsedEvent.fromMessage de message = .ok event)
    (hf : event.forward = true) : payloads toVec shard uuid event ≠ [] := by
  obtain ⟨text, htext⟩ := forward_has_text h hf
  obtain ⟨bytes, hb⟩ := hser (DiscordEvent.new uuid shard text)
  simp [payloads, htext, hf, hb]

theorem payloads_of_not_forward (shard : UInt32) (uuid : String) {event : ParsedEvent}
    (hf : event.forward = false) : payloads toVec shard uuid event = [] := by
  unfold payloads
  split <;> simp [hf]

/-- A close event is not a reporter event. -/
theorem isClose_of_reporter_event {event : ParsedEvent} {e : Event} (he : event.event = some e)
    (hk : e.kind ∈ shardReporterEvents) : event.isClose = false := by
  cases e with
  | gatewayClose frame => simp [Event.kind, shardReporterEvents] at hk
  | _ => simp [ParsedEvent.isClose, he]

/-- The reporter is given the event, or there is no room for it. -/
theorem report_cases (m : ShardManager) (latency : Latency) (event : ParsedEvent) :
    (∃ reporter, m.report latency event = .ok { m with reporter := reporter } ∧
      ∀ e, event.event = some e → e.kind ∈ shardReporterEvents → m.reporter.HasRoom) ∨
    (∃ err e, m.report latency event = .error (.reporter err) ∧ event.event = some e ∧
      e.kind ∈ shardReporterEvents ∧ ¬ m.reporter.HasRoom) := by
  unfold ShardManager.report tryReport
  cases he : event.event with
  | none => exact .inl ⟨m.reporter, rfl, by simp⟩
  | some e =>
    simp only [ReporterEvent.fromEvent_kind, List.contains_iff_mem, Option.some.injEq]
    by_cases hk : e.kind ∈ shardReporterEvents
    · by_cases hr : m.reporter.HasRoom
      · left
        simp only [hk, if_true, Bounded.trySend_of_hasRoom hr]
        exact ⟨_, rfl, fun _ _ _ => hr⟩
      · obtain ⟨err, herr⟩ :=
          Bounded.trySend_of_not_hasRoom hr (ReporterEvent.fromEvent e latency)
        exact .inr ⟨err, e, by simp only [hk, if_true, herr], rfl, hk, hr⟩
    · refine .inl ⟨m.reporter, by simp only [hk, if_false], ?_⟩
      rintro e' rfl hk'
      exact absurd hk' hk

theorem forward_eq (hser : ∀ e, ∃ bytes, toVec e = .ok bytes) (m : ShardManager)
    (hopen : m.amqp.closed = false) (uuid : String) (event : ParsedEvent) :
    m.forward toVec uuid event =
      .ok { m with amqp := ⟨m.amqp.sent ++ payloads toVec m.shard uuid event, false⟩ } := by
  have hkeep : m = { m with amqp := ⟨m.amqp.sent ++ [], false⟩ } := by
    rw [List.append_nil, ← hopen]
  unfold ShardManager.forward payloads
  cases event.text with
  | none => exact congrArg _ hkeep
  | some text =>
    simp only
    split
    · obtain ⟨bytes, hb⟩ := hser (DiscordEvent.new uuid m.shard text)
      simp only [hb, Unbounded.send_of_open hopen, hopen]
    · exact congrArg _ hkeep

/-- What `handleMessage` does with an accepted message: everything, or, when the reporter's queue has no
room for its event, nothing but counting it. -/
theorem handleMessage_cases (hser : ∀ e, ∃ bytes, toVec e = .ok bytes) (m : ShardManager)
    (hopen : m.amqp.closed = false) (uuid : String) (latency : Latency) {message : Message}
    {event : ParsedEvent} (h : ParsedEvent.fromMessage de message = .ok event) :
    (∃ reporter tracked,
      m.handleMessage de toVec uuid latency message =
        (.ok (event.isClose && m.state == .stopping),
          ⟨m.shard, ⟨m.amqp.sent ++ payloads toVec m.shard uuid event, false⟩, reporter, m.state,
            tracked⟩) ∧
      ∀ e, event.event = some e → e.kind ∈ shardReporterEvents → m.reporter.HasRoom) ∨
    (∃ err e tracked, m.handleMessage de toVec uuid latency message =
        (.error (.reporter err), { m with tracked := tracked }) ∧
      event.event = some e ∧ e.kind ∈ shardReporterEvents ∧ ¬ m.reporter.HasRoom) := by
  unfold ShardManager.handleMessage
  rw [h]
  simp only
  rcases report_cases (m.track event) latency event with ⟨reporter, hr, hroom⟩ | ⟨err, e, hr, hno⟩
  · left
    rw [hr]
    simp only [forward_eq hser { m.track event with reporter := reporter } hopen]
    exact ⟨reporter, _, rfl, hroom⟩
  · right
    rw [hr]
    exact ⟨err, e, _, rfl, hno⟩

/-- The same for the loop, while it is running and a shard is started. -/
theorem input_message_cases (hser : ∀ e, ∃ bytes, toVec e = .ok bytes) {r : Run}
    (hlive : r.stopped = false) (hstate : r.manager.state ≠ .stopped)
    (hopen : r.manager.amqp.closed = false) (uuid : String) (latency : Latency) {message : Message}
    {event : ParsedEvent} (h : ParsedEvent.fromMessage de message = .ok event) :
    (∃ reporter tracked,
      r.input de toVec (.message uuid latency message) =
        ⟨⟨r.manager.shard,
            ⟨r.manager.amqp.sent ++ payloads toVec r.manager.shard uuid event, false⟩, reporter,
            r.manager.state, tracked⟩,
          event.isClose && r.manager.state == .stopping⟩ ∧
      ∀ e, event.event = some e → e.kind ∈ shardReporterEvents → r.manager.reporter.HasRoom) ∨
    (∃ e tracked, r.input de toVec (.message uuid latency message) =
        { r with manager := { r.manager with tracked := tracked } } ∧
      event.event = some e ∧ e.kind ∈ shardReporterEvents ∧ ¬ r.manager.reporter.HasRoom) := by
  simp only [Run.input, if_neg hstate]
  rcases handleMessage_cases hser r.manager hopen uuid latency h with
    ⟨reporter, tracked, hm, hroom⟩ | ⟨err, e, tracked, hm, hno⟩
  · refine .inl ⟨reporter, tracked, ?_, hroom⟩
    rw [hm]
    cases event.isClose && r.manager.state == .stopping
    · simp only [hlive]
    · rfl
  · refine .inr ⟨e, tracked, ?_, hno⟩
    rw [hm]

/-- A message that the parser rejects changes nothing. -/
theorem input_message_rejected (r : Run) (uuid : String) (latency : Latency) {message : Message}
    {err : MessageParseError} (h : ParsedEvent.fromMessage de message = .error err) :
    r.input de toVec (.message uuid latency message) = r := by
  simp only [Run.input, ShardManager.handleMessage, h]
  split
  · rfl
  · cases err <;> rfl

/-! ### One step -/

theorem message_keeps (hser : ∀ e, ∃ bytes, toVec e = .ok bytes) {shard : UInt32} {r : Run}
    {f : Forwarding} (ha : Agree shard r f) (hlive : r.stopped = false)
    (hstate : r.manager.state ≠ .stopped) (uuid : String) (latency : Latency) (message : Message) :
    Keeps de toVec shard r f (.input (.message uuid latency message)) := by
  have hfstop : f.stopped = false := ha.stopped_eq.symm.trans hlive
  have hfstate : f.state ≠ .stopped := ha.state_eq ▸ hstate
  simp only [Keeps, Run.step, Forwarding.step, hlive, hfstop, Bool.false_eq_true, if_false, Fits]
  cases hp : ParsedEvent.fromMessage de message with
  | error err =>
    rw [input_message_rejected r uuid latency hp]
    simp only [Forwarding.input, if_neg hfstate, hp]
    exact ⟨ha, by simp⟩
  | ok event =>
    simp only [Forwarding.input, if_neg hfstate, hp, Except.ok.injEq]
    rcases input_message_cases hser hlive hstate ha.amqp_open uuid latency hp with
      ⟨reporter, tracked, hr, hroom⟩ | ⟨e, tracked, hr, he, hk, hno⟩
    · rw [hr, ha.shard_eq]
      refine ⟨⟨rfl, ha.state_eq, by rw [ha.state_eq], rfl, ?_⟩, ?_⟩
      · simpa using ha.sent_le
      · simp only [List.append_cancel_right_eq]
        refine (and_iff_left ?_).symm
        rintro - - event e rfl he - hk
        exact hroom e he hk
    · rw [hr]
      have hstop : (event.isClose && f.state == .stopping) = r.stopped := by
        rw [isClose_of_reporter_event he hk, Bool.false_and, hlive]
      refine ⟨⟨ha.shard_eq, ha.state_eq, hstop.symm, ha.amqp_open, ?_⟩, ?_⟩
      · have := ha.sent_le
        simp only [List.length_append]
        omega
      · cases hf : event.forward with
        | false =>
          rw [payloads_of_not_forward shard uuid hf, List.append_nil]
          refine (and_iff_left ?_).symm
          rintro - - event e' rfl - hf'
          exact absurd hf' (by simp [hf])
        | true =>
          -- the frame is missing, and fewer frames were sent than are to be sent
          have hmissing := List.length_pos_iff.mpr (payloads_ne_nil hser shard uuid hp hf)
          constructor
          · intro heq
            have hlen := congrArg List.length heq
            have := ha.sent_le
            simp only [List.length_append] at hlen
            omega
          · rintro ⟨-, hfit⟩
            exact absurd (hfit trivial hstate event e rfl he hf hk) hno

theorem step_keeps (hser : ∀ e, ∃ bytes, toVec e = .ok bytes) {shard : UInt32} {r : Run}
    {f : Forwarding} (ha : Agree shard r f) (s : Step) : Keeps de toVec shard r f s := by
  cases s with
  | reporterRecv | reporterClose =>
    exact ⟨⟨ha.shard_eq, ha.state_eq, ha.stopped_eq, ha.amqp_open, ha.sent_le⟩, by
      simp [Run.step, Forwarding.step, Fits]⟩
  | input i =>
    cases hlive : r.stopped with
    | true =>
      have hfstop : f.stopped = true := ha.stopped_eq.symm.trans hlive
      simp only [Keeps, Run.step, Forwarding.step, hlive, hfstop, if_true]
      exact ⟨ha, by cases i <;> simp [Fits, hlive]⟩
    | false =>
      have hfstop : f.stopped = false := ha.stopped_eq.symm.trans hlive
      cases i with
      | message uuid latency message =>
        by_cases hstate : r.manager.state = .stopped
        · have hfstate : f.state = .stopped := ha.state_eq.symm.trans hstate
          simp only [Keeps, Run.step, Forwarding.step, hlive, hfstop, Bool.false_eq_true, if_false,
            Run.input, Forwarding.input, hstate, hfstate, if_true]
          exact ⟨ha, by simp [Fits, hstate]⟩
        · exact message_keeps hser ha hlive hstate uuid latency message
      | start =>
        simp only [Keeps, Run.step, Forwarding.step, hlive, hfstop, Bool.false_eq_true, if_false,
          Run.input, Forwarding.input]
        exact ⟨⟨ha.shard_eq, rfl, rfl, ha.amqp_open, ha.sent_le⟩, by simp [Fits]⟩
      | receiveError =>
        simp only [Keeps, Run.step, Forwarding.step, hlive, hfstop, Bool.false_eq_true, if_false,
          Run.input, Forwarding.input]
        exact ⟨ha, by simp [Fits]⟩
      | streamEnd =>
        simp only [Keeps, Run.step, Forwarding.step, hlive, hfstop, Bool.false_eq_true, if_false,
          Run.input, Forwarding.input, ha.state_eq]
        split
        · exact ⟨ha, by simp [Fits]⟩
        · exact ⟨⟨ha.shard_eq, ha.state_eq, rfl, ha.amqp_open, ha.sent_le⟩, by simp [Fits]⟩
      | shutdown =>
        simp only [Keeps, Run.step, Forwarding.step, hlive, hfstop, Bool.false_eq_true, if_false,
          Run.input, Forwarding.input, ha.state_eq]
        split
        · exact ⟨⟨ha.shard_eq, rfl, rfl, ha.amqp_open, ha.sent_le⟩, by simp [Fits]⟩
        · exact ⟨ha, by simp [Fits]⟩

/-! ### Runs -/

theorem run_keeps (hser : ∀ e, ∃ bytes, toVec e = .ok bytes) {shard : UInt32} (steps : List Step)
    {r : Run} {f : Forwarding} (ha : Agree shard r f) :
    Agree shard (r.run de toVec steps) (f.run de toVec shard steps) ∧
      ((r.run de toVec steps).manager.amqp.sent = (f.run de toVec shard steps).sent ↔
        r.manager.amqp.sent = f.sent ∧ AllFit de toVec r steps) := by
  induction steps generalizing r f with
  | nil => exact ⟨ha, by simp [Run.run, Forwarding.run, AllFit]⟩
  | cons s steps ih =>
    obtain ⟨ha', hsent⟩ := step_keeps hser ha s
    obtain ⟨hagree, hrun⟩ := ih ha'
    refine ⟨hagree, hrun.trans ?_⟩
    rw [hsent, AllFit, and_assoc]

theorem agree_new (shard : UInt32) : Agree shard (Run.new shard) Forwarding.new :=
  ⟨rfl, rfl, rfl, rfl, Nat.le_refl _⟩

/-- A close frame handled while the manager is stopping ends the loop, whatever the reporter does. -/
theorem close_while_stopping_stops (r : Run) (uuid : String) (latency : Latency)
    (frame : Option (UInt16 × String)) (hlive : r.stopped = false)
    (hstate : r.manager.state = .stopping) :
    (r.step de toVec (.input (.message uuid latency (.close frame)))).stopped = true := by
  simp [Run.step, Run.input, hlive, hstate, ShardManager.handleMessage, ParsedEvent.fromMessage,
    ParsedEvent.fromEvent, ShardManager.report, tryReport, ReporterEvent.fromEvent,
    ReporterEvent.kind, Event.kind, shardReporterEvents, ShardManager.forward, ParsedEvent.isClose,
    ShardManager.track]

/-! ### Two histories of the reporter's queue -/

/-- What the loop received, with the moves of the reporter left out. -/
def inputs (steps : List Step) : List Input :=
  steps.filterMap fun
    | .input i => some i
    | _ => none

/-- `Forwarding` sees the inputs only. -/
theorem Forwarding.run_inputs (shard : UInt32) (f : Forwarding) (steps : List Step) :
    f.run de toVec shard steps = f.run de toVec shard ((inputs steps).map .input) := by
  induction steps generalizing f with
  | nil => rfl
  | cons s steps ih =>
    cases s with
    | input i => exact ih _
    | reporterRecv => exact ih f
    | reporterClose => exact ih f

variable (de toVec)

/-- The run sent exactly the frames to be forwarded, in order, and stopped exactly when it was to. -/
def ForwardsAll (shard : UInt32) (steps : List Step) : Prop :=
  ((Run.new shard).run de toVec steps).manager.amqp.sent =
      (Forwarding.new.run de toVec shard steps).sent ∧
    ((Run.new shard).run de toVec steps).stopped = (Forwarding.new.run de toVec shard steps).stopped

/-- The two histories lead to the same frames sent and the same stop decision. -/
def SameOutcome (shard : UInt32) (steps₁ steps₂ : List Step) : Prop :=
  ((Run.new shard).run de toVec steps₁).manager.amqp.sent =
      ((Run.new shard).run de toVec steps₂).manager.amqp.sent ∧
    ((Run.new shard).run de toVec steps₁).stopped = ((Run.new shard).run de toVec steps₂).stopped

variable {de toVec}

theorem forwardsAll_iff (hser : ∀ e, ∃ bytes, toVec e = .ok bytes) (shard : UInt32)
    (steps : List Step) :
    ForwardsAll de toVec shard steps ↔ AllFit de toVec (Run.new shard) steps := by
  obtain ⟨hagree, hsent⟩ := run_keeps hser steps (agree_new shard)
  unfold ForwardsAll
  rw [and_iff_left hagree.stopped_eq, hsent]
  exact and_iff_right rfl

/-- For any inputs and any two histories of the reporter's queue: both runs forward every accepted
dispatch frame once and in order, and stop alike, if and only if in both histories the queue has room
whenever a reporter event arrives in a frame that is to be forwarded. -/
theorem run_forwards_iff (hser : ∀ e, ∃ bytes, toVec e = .ok bytes) (shard : UInt32)
    (steps₁ steps₂ : List Step) (hinputs : inputs steps₁ = inputs steps₂) :
    (SameOutcome de toVec shard steps₁ steps₂ ∧ ForwardsAll de toVec shard steps₁ ∧
        ForwardsAll de toVec shard steps₂) ↔
      AllFit de toVec (Run.new shard) steps₁ ∧ AllFit de toVec (Run.new shard) steps₂ := by
  rw [← forwardsAll_iff hser, ← forwardsAll_iff hser]
  refine and_iff_right_of_imp ?_
  rintro ⟨⟨hsent₁, hstop₁⟩, hsent₂, hstop₂⟩
  have hspec : Forwarding.new.run de toVec shard steps₁ = Forwarding.new.run de toVec shard steps₂ := by
    rw [Forwarding.run_inputs, hinputs, ← Forwarding.run_inputs]
  exact ⟨by rw [hsent₁, hsent₂, hspec], by rw [hstop₁, hstop₂, hspec]⟩

/-! ### A burst of new guilds -/

/-- The dispatch frame of an unavailable guild's `GUILD_CREATE`. -/
def guildCreateText : String :=
  "\x7b\"op\":0,\"s\":1,\"t\":\"GUILD_CREATE\",\"d\":\x7b\"id\":\"1\",\"unavailable\":true\x7d\x7d"

/-- What the deserializers make of `guildCreateText`. -/
def guildCreates : Deserializers where
  fromJson text := if text = guildCreateText then some ⟨0, some "GUILD_CREATE"⟩ else none
  opCode op := if op = 0 then some .dispatch else none
  eventTypeFlags _ name := if name = some "GUILD_CREATE" then some .guildCreate else none
  deserialize _ text :=
    if text = guildCreateText then .ok (.guildCreate 1) else .error "not a guild"
  name _ := some "GUILD_CREATE"

/-- `serde_json::to_vec` of a payload with quotes as its only special characters. -/
def discordEventJson (e : DiscordEvent) : Except String (List UInt8) :=
  let payload := e.payload.toList.flatMap fun c =>
    if c = Char.ofNat 34 then [Char.ofNat 92, c] else [c]
  let text := "\x7b\"meta\":\x7b\"uuid\":\"" ++ e.metadata.uuid ++ "\",\"shard\":" ++
    toString e.metadata.shard ++ "\x7d,\"payload\":\"" ++ String.ofList payload ++ "\"\x7d"
  .ok text.toUTF8.data.toList

/-- Eleven frames, with `between` after each. -/
def burst (between : List Step) : List Step :=
  .input .start :: (List.range 11).flatMap fun n =>
    .input (.message ("01932c07-209b-7000-8000-00000000000" ++ String.ofList (Nat.toDigits 16 n)) []
      (.text guildCreateText)) :: between

/-- Eleven frames, with a reporter that takes each update at once and with one that takes none. -/
theorem burst_forwards_iff :
    (SameOutcome guildCreates discordEventJson 0 (burst [.reporterRecv]) (burst []) ∧
        ForwardsAll guildCreates discordEventJson 0 (burst [.reporterRecv]) ∧
        ForwardsAll guildCreates discordEventJson 0 (burst [])) ↔
      AllFit guildCreates discordEventJson (Run.new 0) (burst [.reporterRecv]) ∧
        AllFit guildCreates discordEventJson (Run.new 0) (burst []) :=
  run_forwards_iff (fun _ => ⟨_, rfl⟩) 0 _ _ rfl

/-- The eleventh frame of the burst is lost when the reporter has not taken anything yet. -/
theorem burst_drops_a_frame :
    inputs (burst [.reporterRecv]) = inputs (burst []) ∧
      ¬ SameOutcome guildCreates discordEventJson 0 (burst [.reporterRecv]) (burst []) := by
  refine ⟨rfl, fun h => ?_⟩
  have hlen := congrArg List.length h.1
  revert hlen
  decide

end

end Tulpje.Gateway
