import Mathlib.Data.Multiset.Filter
import Tulpje.Amqp.Consumer
import Tulpje.Amqp.Publisher
import Tulpje.Gateway.Forwarding
import Tulpje.Handler.Pipeline
import Tulpje.Lib.Lists

/-!
# Gateways, a broker and handlers

A gateway is a shard manager with the AMQP connection that it sends on, a handler a main loop with the one that it
receives from: the models of `tulpje-gateway`, `reconnecting-amqp` and `tulpje-handler`, with the channels between
them. Each of them runs in any interleaving of its tasks.

The broker is not part of the repository. Messages are consumed without acknowledgements, so it delivers what was
published and not returned at most once, in some order, to some handler. Then no event is handled more often than a
gateway received it, and with no other shard or id, whatever is published again after a reconnect or a return:
`handled_at_most_once`.
-/

namespace Tulpje.Deployment

open Lib Gateway Handler

/-! ### A gateway -/

section Gateway
variable (de : Deserializers) (toVec : DiscordEvent → Except String (List UInt8))

/-- The dispatch frame of a step, wrapped for the handlers. -/
def wrapped (shard : UInt32) : Gateway.Step → Option DiscordEvent
  | .input (.message uuid _ message) =>
    match ParsedEvent.fromMessage de message with
    | .ok event => if event.forward then event.text.map (DiscordEvent.new uuid shard) else none
    | .error _ => none
  | _ => none

/-- The serialized payloads. -/
def serialized (events : List DiscordEvent) : List (List UInt8) := events.filterMap fun e => (toVec e).toOption

structure GatewayProcess where
  manager : Gateway.Run
  amqp : Amqp.World
  /-- the frames to forward that the shard has received -/
  received : List DiscordEvent

namespace GatewayProcess

inductive Action
  | shard (step : Gateway.Step)
  | amqp (act : Amqp.Action)

def new (shard : UInt32) (queueName : String) : GatewayProcess := ⟨.new shard, .new queueName none, []⟩

/-- The receiver of the manager's sender is the AMQP task's. -/
def attached (self : GatewayProcess) : Gateway.Run :=
  { self.manager with
    manager := { self.manager.manager with
      amqp := ⟨self.manager.manager.amqp.sent, !self.amqp.task.isLive⟩ } }

/-- Only the manager has a sender of the AMQP connection. -/
def step (self : GatewayProcess) : Action → GatewayProcess
  | .shard step =>
    let manager := self.attached.step de toVec step
    { manager
      amqp := (manager.manager.amqp.sent.drop self.manager.manager.amqp.sent.length).foldl
        (fun amqp message => amqp.step (.send message)) self.amqp
      received := self.received ++ (wrapped de self.manager.manager.shard step).toList }
  | .amqp (.send _) => self
  | .amqp act => { self with amqp := self.amqp.step act }

def run (self : GatewayProcess) (acts : List Action) : GatewayProcess := acts.foldl (step de toVec) self

end GatewayProcess

variable {de toVec}

/-- At most `frame` is sent, and only while the channel has a receiver. -/
structure Sends (toVec : DiscordEvent → Except String (List UInt8)) (m m' : ShardManager)
    (frame : Option DiscordEvent) : Prop where
  shard : m'.shard = m.shard
  sent : ∃ out, m'.amqp.sent = m.amqp.sent ++ out ∧ List.Sublist out (serialized toVec frame.toList) ∧
    (m.amqp.closed = true → out = [])

theorem sends_nothing {m m' : ShardManager} {frame : Option DiscordEvent} (hshard : m'.shard = m.shard)
    (hsent : m'.amqp.sent = m.amqp.sent) : Sends toVec m m' frame :=
  ⟨hshard, [], by rw [hsent, List.append_nil], List.nil_sublist _, fun _ => rfl⟩

theorem report_frame {m m' : ShardManager} {latency : Latency} {event : ParsedEvent}
    (h : m.report latency event = .ok m') : m'.shard = m.shard ∧ m'.amqp = m.amqp := by
  unfold ShardManager.report at h
  repeat' split at h
  all_goals cases h
  all_goals exact ⟨rfl, rfl⟩

theorem forward_sends {m m' : ShardManager} {uuid : String} {event : ParsedEvent}
    (h : m.forward toVec uuid event = .ok m') :
    Sends toVec m m' (if event.forward then event.text.map (DiscordEvent.new uuid m.shard) else none) := by
  unfold ShardManager.forward at h
  cases htext : event.text with
  | none =>
    simp only [htext] at h
    cases h
    exact sends_nothing rfl rfl
  | some text =>
    simp only [htext] at h
    split_ifs at h with hforward
    · rw [if_pos hforward]
      cases hvec : toVec (DiscordEvent.new uuid m.shard text) with
      | error err => simp [hvec] at h
      | ok bytes =>
        simp only [hvec, Unbounded.send] at h
        split_ifs at h with hclosed
        cases h
        exact ⟨rfl, [bytes], rfl, by simp [serialized, hvec, Except.toOption],
          fun hc => absurd hc hclosed⟩
    · cases h
      exact sends_nothing rfl rfl

theorem handleMessage_sends (m : ShardManager) (uuid : String) (latency : Latency) (message : Message) :
    Sends toVec m (m.handleMessage de toVec uuid latency message).2
      (wrapped de m.shard (.input (.message uuid latency message))) := by
  unfold ShardManager.handleMessage
  cases hparse : ParsedEvent.fromMessage de message with
  | error err => cases err <;> exact sends_nothing rfl rfl
  | ok event =>
    have hwrapped : wrapped de m.shard (.input (.message uuid latency message)) =
        if event.forward then event.text.map (DiscordEvent.new uuid m.shard) else none := by
      simp only [wrapped, hparse]
    rw [hwrapped]
    simp only
    cases hreport : (m.track event).report latency event with
    | error err => exact sends_nothing rfl rfl
    | ok reported =>
      obtain ⟨hshard, hamqp⟩ := report_frame hreport
      simp only
      cases hforward : reported.forward toVec uuid event with
      | error err => exact sends_nothing hshard (congrArg Unbounded.sent hamqp)
      | ok forwarded =>
        obtain ⟨hshard', hsent⟩ := forward_sends hforward
        rw [hamqp, hshard] at hsent
        exact ⟨hshard'.trans hshard, hsent⟩

theorem step_sends (r : Gateway.Run) (step : Gateway.Step) :
    Sends toVec r.manager (r.step de toVec step).manager (wrapped de r.manager.shard step) := by
  cases step with
  | reporterRecv | reporterClose => exact sends_nothing rfl rfl
  | input input =>
    unfold Gateway.Run.step
    dsimp only
    split_ifs with hstopped
    · exact sends_nothing rfl rfl
    · cases input with
      | start | receiveError => exact sends_nothing rfl rfl
      | streamEnd | shutdown =>
        unfold Gateway.Run.input
        dsimp only
        split_ifs <;> exact sends_nothing rfl rfl
      | message uuid latency message =>
        unfold Gateway.Run.input
        dsimp only
        split_ifs with hstate
        · exact sends_nothing rfl rfl
        · have h : Sends toVec r.manager (r.manager.handleMessage de toVec uuid latency message).2
              (wrapped de r.manager.shard (.input (.message uuid latency message))) :=
            handleMessage_sends r.manager uuid latency message
          revert h
          rcases ShardManager.handleMessage de toVec r.manager uuid latency message with ⟨err | ⟨_ | _⟩, m'⟩
          all_goals exact id

/-- No step of the AMQP connection doubles a message. -/
theorem located_step {amqp : Amqp.World} (hphase : amqp.Phase) (hlocated : amqp.located ≤ amqp.accepted)
    (act : Amqp.Action) : (amqp.step act).located ≤ (amqp.step act).accepted := by
  have hledger := (Amqp.step_ledger hphase act).1
  refine le_of_add_le_add_right (hledger.trans ?_)
  rw [add_comm ((amqp.step act).accepted : Multiset (List UInt8))]
  exact add_le_add_left hlocated _

namespace GatewayProcess

theorem isLive_send (amqp : Amqp.World) (message : List UInt8) :
    (amqp.step (.send message)).task.isLive = amqp.task.isLive := by
  unfold Amqp.World.step
  dsimp only
  split_ifs <;> rfl

/-- What the manager sends on the channel, the AMQP connection accepts. -/
theorem sendAll {amqp : Amqp.World} (hphase : amqp.Phase) (hlocated : amqp.located ≤ amqp.accepted)
    (messages : List (List UInt8)) (hlive : messages = [] ∨ amqp.task.isLive = true) :
    let amqp' := messages.foldl (fun amqp message => amqp.step (.send message)) amqp
    amqp'.Phase ∧ amqp'.located ≤ amqp'.accepted ∧ amqp'.accepted = amqp.accepted ++ messages := by
  induction messages generalizing amqp with
  | nil => exact ⟨hphase, hlocated, (List.append_nil _).symm⟩
  | cons message messages ih =>
    have hlive : amqp.task.isLive = true := hlive.resolve_left (List.cons_ne_nil _ _)
    obtain ⟨hphase', hlocated', haccepted⟩ := ih (Amqp.step_phase hphase _) (located_step hphase hlocated _)
      (.inr ((isLive_send amqp message).trans hlive))
    refine ⟨hphase', hlocated', haccepted.trans ?_⟩
    simp [Amqp.World.step, hlive]

theorem accepted_step (amqp : Amqp.World) {act : Amqp.Action} (hact : ∀ message, act ≠ .send message) :
    (amqp.step act).accepted = amqp.accepted := by
  cases act with
  | send message => exact absurd rfl (hact message)
  | callback event => exact Amqp.callback_accepted amqp event
  | task answer branch => exact Amqp.runTask_accepted amqp answer branch
  | dropStartRx | shutdown => rfl
  | start | close =>
    unfold Amqp.World.step
    dsimp only
    split <;> rfl

/-- The AMQP connection has taken what was sent, which is some of what was received, in order. -/
structure Inv (toVec : DiscordEvent → Except String (List UInt8)) (g : GatewayProcess) : Prop where
  phase : g.amqp.Phase
  located : g.amqp.located ≤ g.amqp.accepted
  accepted : g.amqp.accepted = g.manager.manager.amqp.sent
  sent : List.Sublist g.manager.manager.amqp.sent (serialized toVec g.received)

theorem inv_new (shard : UInt32) (queueName : String) : Inv toVec (new shard queueName) where
  phase := Amqp.phase_new _ _
  located := le_of_eq (Amqp.located_new _ _)
  accepted := rfl
  sent := List.Sublist.refl _

variable {self : GatewayProcess}

theorem Inv.shard (h : Inv toVec self) (step : Gateway.Step) : Inv toVec (self.step de toVec (.shard step)) := by
  have hsends : Sends toVec self.attached.manager (self.attached.step de toVec step).manager
      (wrapped de self.attached.manager.shard step) := step_sends self.attached step
  obtain ⟨-, out, hsent, hout, hclosed⟩ := hsends
  have hlive : out = [] ∨ self.amqp.task.isLive = true := by
    cases hlive : self.amqp.task.isLive with
    | true => exact .inr rfl
    | false => exact .inl (hclosed (by simp [attached, hlive]))
  obtain ⟨hphase, hlocated, haccepted⟩ := sendAll h.phase h.located out hlive
  have hdrop : ((self.attached.step de toVec step).manager.amqp.sent.drop self.manager.manager.amqp.sent.length) =
      out := by
    rw [hsent]
    exact List.drop_left
  unfold GatewayProcess.step
  dsimp only
  rw [hdrop]
  refine ⟨hphase, hlocated, ?_, ?_⟩
  · dsimp only
    rw [hsent, haccepted, h.accepted]
    rfl
  · dsimp only
    rw [hsent, serialized, List.filterMap_append]
    exact h.sent.append hout

theorem Inv.step (h : Inv toVec self) (act : Action) : Inv toVec (self.step de toVec act) := by
  cases act with
  | shard step => exact h.shard step
  | amqp act =>
    have hother (hact : ∀ message, act ≠ .send message) : Inv toVec { self with amqp := self.amqp.step act } :=
      ⟨Amqp.step_phase h.phase act, located_step h.phase h.located act,
        (accepted_step self.amqp hact).trans h.accepted, h.sent⟩
    cases act with
    | send message => exact h
    | start | dropStartRx | shutdown | callback | close | task => exact hother nofun

theorem inv_run (de : Deserializers) (toVec : DiscordEvent → Except String (List UInt8)) (shard : UInt32)
    (queueName : String) (acts : List Action) : Inv toVec ((new shard queueName).run de toVec acts) :=
  foldl_invariant (Inv toVec) (fun _ act h => h.step act) (inv_new shard queueName) acts

end GatewayProcess

end Gateway

/-! ### A handler -/

section Handler
variable {Event Span : Type} (lib : Parsers Event)

structure HandlerProcess (Event Span : Type) where
  amqp : Amqp.Consumer
  process : Process Event Span

namespace HandlerProcess

inductive Action (Span : Type)
  | amqp (act : Amqp.Action)
  | main (act : Process.Action Span)

def new (queueName : String) : HandlerProcess Event Span := ⟨.new queueName, .new⟩

/-- What the AMQP connection sends on `amqp_tx`, which is dropped with its task. -/
def received (self : HandlerProcess Event Span) (act : Amqp.Action) : Process Event Span :=
  let process := (self.amqp.world.forwarding act).foldl (fun process delivery => process.step lib (.deliver delivery.2))
    self.process
  if (self.amqp.step act).world.task.isLive then process else process.step lib .disconnect

/-- Only the AMQP connection has a sender of `amqp_rx`. -/
def step (self : HandlerProcess Event Span) : Action Span → HandlerProcess Event Span
  | .amqp act => ⟨self.amqp.step act, self.received lib act⟩
  | .main (.deliver _) | .main .disconnect => self
  | .main act => { self with process := self.process.step lib act }

def run (self : HandlerProcess Event Span) (acts : List (Action Span)) : HandlerProcess Event Span :=
  acts.foldl (step lib) self

theorem isLive_of_step {amqp : Amqp.World} {act : Amqp.Action} (h : (amqp.step act).task.isLive = true) :
    amqp.task.isLive = true := by
  by_contra hdead
  have hpush (event : Amqp.Event) : (amqp.task.push event).isLive = amqp.task.isLive := by
    cases amqp.task <;> rfl
  cases hact : act.isTask with
  | true =>
    cases act with
    | task answer branch =>
      have hstays : amqp.step (.task answer branch) = amqp := by
        cases htask : amqp.task with
        | awaitingStart | running => simp [htask, Amqp.Task.isLive] at hdead
        | returned | panicked => simp only [Amqp.World.step, Amqp.World.runTask, htask]
      exact hdead (hstays ▸ h)
    | _ => cases hact
  | false =>
    obtain ⟨-, -, -, htask | ⟨event, htask⟩ | ⟨⟨started, hwait⟩, -⟩⟩ := amqp.step_frame hact
    · exact hdead (htask ▸ h)
    · rw [htask, hpush] at h
      exact hdead h
    · rw [hwait] at hdead
      exact hdead rfl

theorem isLive_of_forwarding {amqp : Amqp.World} {act : Amqp.Action} (h : amqp.forwarding act ≠ []) :
    amqp.task.isLive = true := by
  cases act with
  | task answer branch =>
    cases htask : amqp.task with
    | running state => rfl
    | _ => simp [Amqp.World.forwarding, htask] at h
  | _ => exact absurd rfl h

variable {lib}

/-- A main loop whose channel is open is given everything. -/
theorem deliverAll {process : Process Event Span} (hinv : process.Inv lib)
    (deliveries : List (Amqp.Channel × List UInt8)) (hopen : deliveries = [] ∨ process.disconnected = false) :
    let process' := deliveries.foldl (fun process delivery => process.step lib (.deliver delivery.2)) process
    process'.Inv lib ∧ process'.delivered = process.delivered ++ deliveries.map Prod.snd ∧
      process'.disconnected = process.disconnected := by
  induction deliveries generalizing process with
  | nil => exact ⟨hinv, (List.append_nil _).symm, rfl⟩
  | cons delivery deliveries ih =>
    have hopen : process.disconnected = false := hopen.resolve_left (List.cons_ne_nil _ _)
    have hstep : process.step lib (.deliver delivery.2) = { process with
        amqpRx := process.amqpRx ++ [delivery.2], delivered := process.delivered ++ [delivery.2] } := by
      simp [Process.step, hopen]
    obtain ⟨hinv', hdelivered, hdisconnected⟩ :=
      ih (hinv.step (.deliver delivery.2)) (.inr (by rw [hstep]; exact hopen))
    refine ⟨hinv', hdelivered.trans ?_, hdisconnected.trans ?_⟩
    · rw [hstep]
      simp
    · rw [hstep]

/-- The main loop was given what the AMQP connection took from its events, and waits for more as long as there is a
connection. -/
structure Inv (lib : Parsers Event) (h : HandlerProcess Event Span) : Prop where
  amqp : h.amqp.Inv
  process : h.process.Inv lib
  delivered : h.process.delivered = h.amqp.forwarded.map Prod.snd
  connected : h.amqp.world.task.isLive = true → h.process.disconnected = false

theorem inv_new (queueName : String) : Inv lib (new queueName : HandlerProcess Event Span) :=
  ⟨Amqp.Consumer.inv_new queueName, Process.inv_new, rfl, fun _ => rfl⟩

variable {self : HandlerProcess Event Span}

theorem Inv.receive (h : Inv lib self) (act : Amqp.Action) : Inv lib (self.step lib (.amqp act)) := by
  have hopen : self.amqp.world.forwarding act = [] ∨ self.process.disconnected = false := by
    by_cases hnil : self.amqp.world.forwarding act = []
    · exact .inl hnil
    · exact .inr (h.connected (isLive_of_forwarding hnil))
  obtain ⟨hinv, hdelivered, hdisconnected⟩ := deliverAll h.process _ hopen
  rw [h.delivered, ← List.map_append] at hdelivered
  unfold HandlerProcess.step received
  dsimp only
  split_ifs with hlive
  · exact ⟨h.amqp.step act, hinv, hdelivered, fun _ => hdisconnected.trans (h.connected (isLive_of_step hlive))⟩
  · exact ⟨h.amqp.step act, hinv.step .disconnect, hdelivered, fun hc => absurd hc hlive⟩

theorem Inv.step (h : Inv lib self) (act : Action Span) : Inv lib (self.step lib act) := by
  cases act with
  | amqp act => exact h.receive act
  | main act =>
    have hown (hact : (self.process.step lib act).delivered = self.process.delivered ∧
        (self.process.step lib act).disconnected = self.process.disconnected) :
        Inv lib { self with process := self.process.step lib act } :=
      ⟨h.amqp, h.process.step act, hact.1.trans h.delivered, fun hlive => hact.2.trans (h.connected hlive)⟩
    cases act with
    | deliver message => exact h
    | disconnect => exact h
    | recv | update | queue | shutdown | dispatchRecv | dispatchCancelled | dispatchClose | dispatchEndWait =>
      exact hown (self.process.step_frame lib nofun nofun)

theorem inv_run (lib : Parsers Event) (queueName : String) (acts : List (Action Span)) :
    Inv lib ((new queueName).run lib acts) :=
  foldl_invariant (Inv lib) (fun _ act h => h.step act) (inv_new queueName) acts

end HandlerProcess

end Handler

/-! ### All processes -/

section
variable {Event Span : Type} (de : Deserializers) (toVec : DiscordEvent → Except String (List UInt8))
  (lib : Parsers Event)

def GatewayProcess.Reachable (g : GatewayProcess) : Prop :=
  ∃ shard queueName acts, g = (new shard queueName).run de toVec acts

def HandlerProcess.Reachable (h : HandlerProcess Event Span) : Prop :=
  ∃ queueName acts, h = (new queueName).run lib acts

/-- What the broker was handed and did not return. -/
def GatewayProcess.published (g : GatewayProcess) : List (List UInt8) := g.amqp.net.handed.map Prod.snd

/-- What the broker delivered to a channel with a receiver. -/
def HandlerProcess.delivered (h : HandlerProcess Event Span) : List (List UInt8) := h.amqp.arrived.map Prod.snd

/-- The events of the frames to forward, under the id and the shard of their gateway. -/
def GatewayProcess.events (g : GatewayProcess) : List (Metadata × Event) :=
  g.received.filterMap fun e => (lib.parse e.payload).toOption.join.map fun event => (e.metadata, event)

def HandlerProcess.handled (h : HandlerProcess Event Span) : List (Metadata × Event) :=
  h.process.dispatch.handed.map Process.pair

/-- `serde_json` reads back what it wrote. -/
def ReadsBack : Prop :=
  ∀ e bytes, toVec e = .ok bytes → ∃ text, String.fromUTF8? ⟨bytes.toArray⟩ = some text ∧ lib.fromStr text = .ok e

variable {de toVec lib}

theorem GatewayProcess.published_subperm {g : GatewayProcess} (h : g.Reachable de toVec) :
    List.Subperm g.published (serialized toVec g.received) := by
  obtain ⟨shard, queueName, acts, rfl⟩ := h
  have h := GatewayProcess.inv_run de toVec shard queueName acts
  generalize (GatewayProcess.new shard queueName).run de toVec acts = g at h
  have hle : (g.published : Multiset (List UInt8)) ≤ g.amqp.accepted :=
    ((Multiset.le_add_left _ _).trans (Multiset.le_add_right _ _)).trans h.located
  rw [h.accepted] at hle
  exact (Multiset.coe_le.mp hle).trans h.sent.subperm

theorem HandlerProcess.handled_sublist {h : HandlerProcess Event Span} (hreach : h.Reachable lib) :
    List.Sublist h.handled (parsed lib h.delivered) := by
  obtain ⟨queueName, acts, rfl⟩ := hreach
  have hinv : HandlerProcess.Inv lib ((HandlerProcess.new queueName : HandlerProcess Event Span).run lib acts) :=
    HandlerProcess.inv_run lib queueName acts
  generalize (HandlerProcess.new queueName).run lib acts = h at hinv
  have horder := hinv.process.order
  rw [hinv.process.queued, hinv.delivered] at horder
  have hhandled : List.Sublist h.handled (parsed lib (h.amqp.forwarded.map Prod.snd)) := by
    rw [horder, List.append_assoc, List.append_assoc]
    exact List.sublist_append_left _ _
  have harrived : List.Sublist h.amqp.forwarded h.amqp.arrived :=
    (List.sublist_append_left _ _).trans hinv.amqp.sublist
  exact hhandled.trans ((harrived.map Prod.snd).filterMap _)

theorem parseDelivery_of_readsBack (hserde : ReadsBack toVec lib) {e : DiscordEvent} {bytes : List UInt8}
    (h : toVec e = .ok bytes) :
    (parseDelivery lib bytes).toOption =
      (lib.parse e.payload).toOption.join.map fun event => (e.metadata, event) := by
  obtain ⟨text, htext, hread⟩ := hserde e bytes h
  unfold parseDelivery
  rw [htext]
  dsimp only
  rw [hread]
  dsimp only
  rcases lib.parse e.payload with err | ⟨_ | event⟩ <;> rfl

theorem parsed_serialized (hserde : ReadsBack toVec lib) (g : GatewayProcess) :
    List.Sublist (parsed lib (serialized toVec g.received)) (g.events lib) := by
  unfold parsed serialized GatewayProcess.events
  rw [List.filterMap_filterMap]
  refine filterMap_sublist fun e pair hpair => ?_
  obtain ⟨bytes, hbytes, hparsed⟩ := Option.bind_eq_some_iff.mp hpair
  cases hvec : toVec e with
  | error err => simp [hvec, Except.toOption] at hbytes
  | ok bytes' =>
    obtain rfl : bytes' = bytes := by simpa [hvec, Except.toOption] using hbytes
    rw [← parseDelivery_of_readsBack hserde hvec]
    exact hparsed

/-- Whatever is requeued, published again or lost on the way, no handler handles an event that no gateway received,
and all handlers together handle none more often than the gateways received it. -/
theorem handled_at_most_once (hserde : ReadsBack toVec lib) (gateways : List GatewayProcess)
    (handlers : List (HandlerProcess Event Span)) (hgateways : ∀ g ∈ gateways, g.Reachable de toVec)
    (hhandlers : ∀ h ∈ handlers, h.Reachable lib)
    (hbroker : List.Subperm (handlers.flatMap HandlerProcess.delivered) (gateways.flatMap GatewayProcess.published)) :
    List.Subperm (handlers.flatMap HandlerProcess.handled) (gateways.flatMap (GatewayProcess.events lib)) := by
  have hhandled := subperm_flatMap fun h hmem => (HandlerProcess.handled_sublist (hhandlers h hmem)).subperm
  have hpublished := subperm_flatMap fun g hmem => GatewayProcess.published_subperm (hgateways g hmem)
  have hevents : List.Subperm (gateways.flatMap fun g => parsed lib (serialized toVec g.received))
      (gateways.flatMap (GatewayProcess.events lib)) :=
    subperm_flatMap fun g _ => (parsed_serialized hserde g).subperm
  refine hhandled.trans (.trans ?_ hevents)
  unfold parsed
  rw [← List.filterMap_flatMap, ← List.filterMap_flatMap]
  exact subperm_filterMap _ (hbroker.trans hpublished)

end

/-! ### Two guilds on their way to two handlers -/

def guildUuid (second : Bool) : String :=
  if second then "01932c07-209b-7000-8000-000000000001" else "01932c07-209b-7000-8000-000000000000"

def guildEvent (second : Bool) : DiscordEvent := .new (guildUuid second) 0 guildCreateText

def guildJson (second : Bool) : String :=
  "\x7b\"meta\":\x7b\"uuid\":\"" ++ guildUuid second ++ "\",\"shard\":0\x7d," ++
    "\"payload\":\"\x7b\\\"op\\\":0,\\\"s\\\":1,\\\"t\\\":\\\"GUILD_CREATE\\\"," ++
    "\\\"d\\\":\x7b\\\"id\\\":\\\"1\\\",\\\"unavailable\\\":true\x7d\x7d\"\x7d"

def guildBytes (second : Bool) : List UInt8 := (guildJson second).toUTF8.data.toList

def guildToVec (e : DiscordEvent) : Except String (List UInt8) :=
  if e.metadata.shard = 0 ∧ e.payload = guildCreateText then
    if e.metadata.uuid = guildUuid false then .ok (guildBytes false)
    else if e.metadata.uuid = guildUuid true then .ok (guildBytes true)
    else .error "not a guild"
  else .error "not a guild"

def guildParsers : Parsers Gateway.Event where
  fromStr text :=
    if text = guildJson false then .ok (guildEvent false)
    else if text = guildJson true then .ok (guildEvent true)
    else .error "not a guild"
  parse text := if text = guildCreateText then .ok (some (.guildCreate 1)) else .error "not a guild"

/-- Both are published; the second one comes back and is published again on a new channel. -/
def guildGateway : GatewayProcess :=
  (GatewayProcess.new 0 "discord").run guildCreates guildToVec
    (Amqp.connects.map .amqp ++
      [.shard (.input .start), .shard (.input (.message (guildUuid false) [] (.text guildCreateText))),
        .shard (.input (.message (guildUuid true) [] (.text guildCreateText))),
        .amqp (.task .ok .message), .amqp (.task .ok .message),
        .amqp (.callback (.channelPublishReturn ⟨⟨0⟩, 0⟩ 312 (guildBytes true))), .amqp (.task .ok .event)] ++
      List.replicate 5 (.amqp (.task .ok .message)))

def guildHandler (second : Bool) : HandlerProcess Gateway.Event Unit :=
  (HandlerProcess.new "discord").run guildParsers
    (Amqp.connects.map .amqp ++
      [.amqp (.task .ok .message), .amqp (.callback (.messageReceived ⟨⟨0⟩, 0⟩ (guildBytes second))),
        .amqp (.task .ok .event), .main .recv, .main (.update (.ok ())), .main (.queue ()), .main .dispatchRecv])

theorem fromUTF8?_toUTF8 (text : String) : String.fromUTF8? ⟨text.toUTF8.data.toList.toArray⟩ = some text := by
  rw [Array.toArray_toList]
  exact dif_pos text.isValidUTF8

theorem guild_readsBack : ReadsBack guildToVec guildParsers := by
  have hread : ∀ second, guildParsers.fromStr (guildJson second) = .ok (guildEvent second) := by
    have hne : guildJson true ≠ guildJson false := by decide +kernel
    intro second
    cases second with
    | false => simp only [guildParsers, if_true]
    | true => simp only [guildParsers, if_neg hne, if_true]
  rintro ⟨⟨uuid, shard⟩, payload⟩ bytes h
  unfold guildToVec at h
  split_ifs at h with hguild hfirst hsecond
  · obtain ⟨rfl, rfl⟩ := hguild
    obtain rfl : uuid = guildUuid false := hfirst
    obtain rfl := Except.ok.inj h
    exact ⟨guildJson false, fromUTF8?_toUTF8 _, hread false⟩
  · obtain ⟨rfl, rfl⟩ := hguild
    obtain rfl : uuid = guildUuid true := hsecond
    obtain rfl := Except.ok.inj h
    exact ⟨guildJson true, fromUTF8?_toUTF8 _, hread true⟩

/-- Each of the guilds is handled, and once. -/
theorem handled_at_most_once_of_guilds :
    guildGateway.amqp.net.channelOpens.length = 2 ∧
    [guildHandler false, guildHandler true].map (fun handler => handler.handled.map fun event => event.1.uuid) =
      [[guildUuid false], [guildUuid true]] ∧
    List.Subperm ([guildHandler false, guildHandler true].flatMap HandlerProcess.handled)
      ([guildGateway].flatMap (GatewayProcess.events guildParsers)) := by
  have hgateways : ∀ g ∈ [guildGateway], g.Reachable guildCreates guildToVec :=
    List.forall_mem_singleton.mpr ⟨_, _, _, rfl⟩
  have hhandlers : ∀ h ∈ [guildHandler false, guildHandler true], h.Reachable guildParsers :=
    List.forall_mem_cons.mpr ⟨⟨_, _, rfl⟩, List.forall_mem_singleton.mpr ⟨_, _, rfl⟩⟩
  have hbroker : [guildHandler false, guildHandler true].flatMap HandlerProcess.delivered =
      [guildGateway].flatMap GatewayProcess.published := by
    decide +kernel
  exact ⟨by decide +kernel, by decide +kernel,
    handled_at_most_once guild_readsBack _ _ hgateways hhandlers (hbroker ▸ List.Subperm.refl _)⟩

end Tulpje.Deployment
