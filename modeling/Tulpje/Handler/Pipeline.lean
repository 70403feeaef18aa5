import Tulpje.Framework.Dispatch
import Tulpje.Gateway.ShardManager

/-!
# From a delivery to a handler

`main`, `handle_message` and `parse_delivery` of `tulpje-handler/src/main.rs` between the queue that the AMQP
connection fills and the dispatcher. A step is one `await` of the main loop, one of `main` behind the signal, or a
step of the AMQP connection or the dispatcher, in any interleaving.

Up to the dispatcher's queue no delivery is lost, doubled or overtaken, and a handler sees an event only after the cache
was updated with it or failed to be. What is in the queue when the dispatcher leaves its loop is never handled:
`in_order_behind_cache`.
-/

namespace Tulpje.Handler

open Framework Gateway Lib

variable {Event Span : Type}

/-! ### `parse_delivery` -/

/-- The libraries that read a delivery. -/
structure Parsers (Event : Type) where
  /-- `serde_json::from_str` -/
  fromStr : String → Except String DiscordEvent
  /-- `twilight_gateway::parse`, converted to an `Event` -/
  parse : String → Except String (Option Event)

inductive DeliveryError
  | utf8
  | json (err : String)
  | parse (err : String)
  | none (uuid : String)

section Parse
variable (lib : Parsers Event)

def parseDelivery (message : List UInt8) : Except DeliveryError (Metadata × Event) :=
  match String.fromUTF8? ⟨message.toArray⟩ with
  | none => .error .utf8
  | some text =>
    match lib.fromStr text with
    | .error err => .error (.json err)
    | .ok discordEvent =>
      match lib.parse discordEvent.payload with
      | .error err => .error (.parse err)
      | .ok none => .error (.none discordEvent.metadata.uuid)
      | .ok (some event) => .ok (discordEvent.metadata, event)

def parsed (messages : List (List UInt8)) : List (Metadata × Event) :=
  messages.filterMap fun message => (parseDelivery lib message).toOption

end Parse

/-! ### `main` -/

/-- Where the main loop is: before `recv`, in `Cache::update`, before `with_span`, or behind its `break`. -/
inductive Phase (Event : Type)
  | receiving
  | updating (metadata : Metadata) (event : Event)
  | queueing (metadata : Metadata) (event : Event)
  | exited

/-- A handler process. -/
structure Process (Event Span : Type) where
  amqpRx : List (List UInt8)
  /-- the AMQP connection has ended, and `amqp_tx` with it -/
  disconnected : Bool
  phase : Phase Event
  /-- the events that `Cache::update` was called with, and what it returned -/
  updates : List (Event × Except String Unit)
  dispatch : Dispatch Metadata Event Span
  /-- the messages that came into `amqp_rx` -/
  delivered : List (List UInt8)

namespace Process

inductive Action (Span : Type)
  | deliver (message : List UInt8)
  | disconnect
  | recv
  | update (outcome : Except String Unit)
  | queue (span : Span)
  /-- `framework.shutdown()` -/
  | shutdown
  | dispatchRecv
  | dispatchCancelled
  | dispatchClose
  | dispatchEndWait

def new : Process Event Span := ⟨[], false, .receiving, [], .new, []⟩

variable (lib : Parsers Event) (self : Process Event Span)

/-- An error of the cache is logged. `main` waits for the end of its loop before it shuts the framework down. -/
def step : Action Span → Process Event Span
  | .deliver message =>
    if self.disconnected then self
    else { self with amqpRx := self.amqpRx ++ [message], delivered := self.delivered ++ [message] }
  | .disconnect => { self with disconnected := true }
  | .recv =>
    match self.phase, self.amqpRx with
    | .receiving, message :: amqpRx =>
      match parseDelivery lib message with
      | .error _ => { self with amqpRx }
      | .ok (metadata, event) => { self with amqpRx, phase := .updating metadata event }
    | .receiving, [] => if self.disconnected then { self with phase := .exited } else self
    | _, _ => self
  | .update outcome =>
    match self.phase with
    | .updating metadata event =>
      { self with updates := self.updates ++ [(event, outcome)], phase := .queueing metadata event }
    | _ => self
  | .queue span =>
    match self.phase with
    | .queueing metadata event =>
      { self with dispatch := self.dispatch.step (.withSpan metadata event span), phase := .receiving }
    | _ => self
  | .shutdown =>
    match self.phase with
    | .exited => { self with dispatch := self.dispatch.step .shutdown }
    | _ => self
  | .dispatchRecv => { self with dispatch := self.dispatch.step .recv }
  | .dispatchCancelled => { self with dispatch := self.dispatch.step .cancelled }
  | .dispatchClose => { self with dispatch := self.dispatch.step .close }
  | .dispatchEndWait => { self with dispatch := self.dispatch.step .endWait }

def run (acts : List (Action Span)) : Process Event Span := acts.foldl (step lib) self

/-- Only the AMQP connection delivers and disconnects. -/
theorem step_frame {act : Action Span} (hdeliver : ∀ message, act ≠ .deliver message)
    (hdisconnect : act ≠ .disconnect) :
    (self.step lib act).delivered = self.delivered ∧ (self.step lib act).disconnected = self.disconnected := by
  cases act with
  | deliver message => exact absurd rfl (hdeliver message)
  | disconnect => exact absurd rfl hdisconnect
  | dispatchRecv | dispatchCancelled | dispatchClose | dispatchEndWait => exact ⟨rfl, rfl⟩
  | update | queue | shutdown =>
    unfold step
    dsimp only
    split <;> exact ⟨rfl, rfl⟩
  | recv =>
    unfold step
    dsimp only
    repeat' split
    all_goals exact ⟨rfl, rfl⟩

/-! ### What a run keeps -/

section Inv
variable {lib : Parsers Event} {self : Process Event Span}

def pair (message : EventMessage Metadata Event Span) : Metadata × Event := (message.metadata, message.event)

/-- What the main loop has taken and not handed on yet. -/
def inFlight : Phase Event → List (Metadata × Event)
  | .updating metadata event | .queueing metadata event => [(metadata, event)]
  | .receiving | .exited => []

/-- What the cache was updated with and is not handed on yet. -/
def updated : Phase Event → List Event
  | .queueing _ event => [event]
  | _ => []

/-- The dispatcher goes on until the main loop has ended. -/
structure Inv (lib : Parsers Event) (p : Process Event Span) : Prop where
  order : parsed lib p.delivered = p.dispatch.accepted.map pair ++ inFlight p.phase ++ parsed lib p.amqpRx
  updates : p.updates.map Prod.fst = p.dispatch.accepted.map EventMessage.event ++ updated p.phase
  dispatch : p.dispatch.Inv
  cancelled : p.dispatch.cancelled = true → p.phase = .exited
  looping : p.dispatch.phase ≠ .looping → p.dispatch.cancelled = true
  exited : p.phase = .exited → p.amqpRx = [] ∧ p.disconnected = true

theorem inv_new : Inv lib (new : Process Event Span) where
  order := rfl
  updates := rfl
  dispatch := Dispatch.inv_new
  cancelled := nofun
  looping h := absurd rfl h
  exited := nofun

/-- Until the main loop has ended the dispatcher takes every event. -/
theorem Inv.open (h : Inv lib self) (hphase : self.phase ≠ .exited) : self.dispatch.closed = false := by
  have hlooping : self.dispatch.phase = .looping := by
    by_contra hne
    exact hphase (h.cancelled (h.looping hne))
  cases hclosed : self.dispatch.closed with
  | false => rfl
  | true => rcases h.dispatch.closed.mp hclosed with hw | hw <;> rw [hw] at hlooping <;> cases hlooping

theorem accepted_step_of_open (d : Dispatch Metadata Event Span) (hopen : d.closed = false) (metadata : Metadata)
    (event : Event) (span : Span) :
    (d.step (.withSpan metadata event span)).accepted = d.accepted ++ [⟨metadata, event, some span⟩] ∧
      (d.step (.withSpan metadata event span)).cancelled = d.cancelled ∧
      (d.step (.withSpan metadata event span)).phase = d.phase := by
  unfold Dispatch.step Dispatch.enqueue
  simp [hopen]

/-- What the dispatcher does by itself accepts nothing, and leaves its loop only when it is told to. -/
structure Works (d d' : Dispatch Metadata Event Span) : Prop where
  accepted : d'.accepted = d.accepted
  cancelled : d'.cancelled = d.cancelled
  looping : d'.phase ≠ .looping → d.phase ≠ .looping ∨ d.cancelled = true

theorem works_recv (d : Dispatch Metadata Event Span) : Works d (d.step .recv) := by
  rcases d.step_recv with heq | ⟨message, receiver, hphase, -, heq⟩
  · rw [heq]
    exact ⟨rfl, rfl, .inl⟩
  · rw [heq]
    exact ⟨rfl, rfl, fun h => absurd hphase h⟩

theorem works_cancelled (d : Dispatch Metadata Event Span) : Works d (d.step .cancelled) := by
  unfold Dispatch.step
  dsimp only
  split_ifs with hc
  · exact ⟨rfl, rfl, fun _ => .inr hc.2⟩
  · exact ⟨rfl, rfl, .inl⟩

theorem works_close (d : Dispatch Metadata Event Span) : Works d (d.step .close) := by
  unfold Dispatch.step
  dsimp only
  split_ifs with hc
  · exact ⟨rfl, rfl, fun _ => .inl (by simp [hc])⟩
  · exact ⟨rfl, rfl, .inl⟩

theorem works_endWait (d : Dispatch Metadata Event Span) : Works d (d.step .endWait) := by
  unfold Dispatch.step
  dsimp only
  split_ifs with hc
  · exact ⟨rfl, rfl, fun _ => .inl (by simp [hc])⟩
  · exact ⟨rfl, rfl, .inl⟩

theorem Inv.works (h : Inv lib self) {d : Dispatch Metadata Event Span} (hinv : d.Inv)
    (hworks : Works self.dispatch d) : Inv lib { self with dispatch := d } where
  order := by
    rw [hworks.accepted]
    exact h.order
  updates := by
    rw [hworks.accepted]
    exact h.updates
  dispatch := hinv
  cancelled hcancelled := h.cancelled (hworks.cancelled ▸ hcancelled)
  looping hphase := by
    rw [hworks.cancelled]
    exact (hworks.looping hphase).elim h.looping id
  exited := h.exited

theorem parsed_append (messages messages' : List (List UInt8)) :
    parsed lib (messages ++ messages') = parsed lib messages ++ parsed lib messages' := List.filterMap_append

theorem parsed_cons_error {message : List UInt8} {err : DeliveryError} (h : parseDelivery lib message = .error err)
    (messages : List (List UInt8)) : parsed lib (message :: messages) = parsed lib messages := by
  rw [parsed, List.filterMap_cons, h]
  rfl

theorem parsed_cons_ok {message : List UInt8} {metadata : Metadata} {event : Event}
    (h : parseDelivery lib message = .ok (metadata, event)) (messages : List (List UInt8)) :
    parsed lib (message :: messages) = (metadata, event) :: parsed lib messages := by
  rw [parsed, List.filterMap_cons, h]
  rfl

theorem Inv.deliver (h : Inv lib self) (message : List UInt8) : Inv lib (self.step lib (.deliver message)) := by
  unfold step
  dsimp only
  split_ifs with hdisconnected
  · exact h
  · refine ⟨?_, h.updates, h.dispatch, h.cancelled, h.looping, fun hexited => absurd (h.exited hexited).2 hdisconnected⟩
    dsimp only
    rw [parsed_append, parsed_append, h.order, List.append_assoc]

theorem Inv.recv (h : Inv lib self) : Inv lib (self.step lib .recv) := by
  have hcancelled : self.phase = .receiving → self.dispatch.cancelled ≠ true := by
    intro hphase hcancelled
    rw [h.cancelled hcancelled] at hphase
    cases hphase
  unfold step
  dsimp only
  cases hphase : self.phase with
  | updating | queueing | exited => exact h
  | receiving =>
    have horder := h.order
    have hupdates := h.updates
    rw [hphase] at horder hupdates
    cases hrx : self.amqpRx with
    | nil =>
      dsimp only
      split_ifs with hdisconnected
      · refine ⟨?_, hupdates, h.dispatch, fun _ => rfl, h.looping, fun _ => ⟨rfl, hdisconnected⟩⟩
        rw [horder, hrx]
        rfl
      · exact h
    | cons message amqpRx =>
      rw [hrx] at horder
      dsimp only
      cases hparse : parseDelivery lib message with
      | error err =>
        refine ⟨?_, hupdates, h.dispatch, fun hc => absurd hc (hcancelled hphase), h.looping, nofun⟩
        dsimp only
        rw [horder, parsed_cons_error hparse]
      | ok result =>
        refine ⟨?_, hupdates, h.dispatch, fun hc => absurd hc (hcancelled hphase), h.looping, nofun⟩
        dsimp only
        rw [horder, parsed_cons_ok hparse]
        simp [inFlight]

theorem Inv.update (h : Inv lib self) (outcome : Except String Unit) : Inv lib (self.step lib (.update outcome)) := by
  unfold step
  dsimp only
  cases hphase : self.phase with
  | receiving | queueing | exited => exact h
  | updating metadata event =>
    have horder := h.order
    have hupdates := h.updates
    rw [hphase] at horder hupdates
    refine ⟨horder, ?_, h.dispatch, fun hc => ?_, h.looping, nofun⟩
    · dsimp only
      rw [List.map_append, hupdates]
      simp [updated]
    · have hexited := h.cancelled hc
      rw [hphase] at hexited
      cases hexited

theorem Inv.queue (h : Inv lib self) (span : Span) : Inv lib (self.step lib (.queue span)) := by
  unfold step
  dsimp only
  cases hphase : self.phase with
  | receiving | updating | exited => exact h
  | queueing metadata event =>
    have horder := h.order
    have hupdates := h.updates
    rw [hphase] at horder hupdates
    have hopen := h.open (by rw [hphase]; nofun)
    obtain ⟨haccepted, hcancelled, hlooping⟩ := accepted_step_of_open self.dispatch hopen metadata event span
    dsimp only
    refine ⟨?_, ?_, h.dispatch.step (.withSpan metadata event span), fun hc => ?_, fun hl => ?_, nofun⟩
    · dsimp only
      rw [haccepted, horder]
      simp [inFlight, pair]
    · dsimp only
      rw [haccepted, hupdates]
      simp [updated]
    · have hexited := h.cancelled (hcancelled ▸ hc)
      rw [hphase] at hexited
      cases hexited
    · dsimp only at hl ⊢
      rw [hcancelled]
      rw [hlooping] at hl
      exact h.looping hl

theorem Inv.shutdown (h : Inv lib self) : Inv lib (self.step lib .shutdown) := by
  unfold step
  dsimp only
  cases hphase : self.phase with
  | receiving | updating | queueing => exact h
  | exited =>
    have horder := h.order
    have hupdates := h.updates
    have hexited := h.exited hphase
    rw [hphase] at horder hupdates
    exact ⟨horder, hupdates, h.dispatch.step .shutdown, fun _ => rfl, fun _ => rfl, fun _ => hexited⟩

theorem Inv.step (h : Inv lib self) (act : Action Span) : Inv lib (self.step lib act) := by
  cases act with
  | deliver message => exact h.deliver message
  | disconnect => exact ⟨h.order, h.updates, h.dispatch, h.cancelled, h.looping, fun he => ⟨(h.exited he).1, rfl⟩⟩
  | recv => exact h.recv
  | update outcome => exact h.update outcome
  | queue span => exact h.queue span
  | shutdown => exact h.shutdown
  | dispatchRecv => exact h.works (h.dispatch.step .recv) (works_recv _)
  | dispatchCancelled => exact h.works (h.dispatch.step .cancelled) (works_cancelled _)
  | dispatchClose => exact h.works (h.dispatch.step .close) (works_close _)
  | dispatchEndWait => exact h.works (h.dispatch.step .endWait) (works_endWait _)

theorem inv_run (lib : Parsers Event) (acts : List (Action Span)) : Inv lib (new.run lib acts) :=
  foldl_invariant (Inv lib) (fun _ act h => h.step act) inv_new acts

/-- What the handlers are given, against what was delivered and against the updates of the cache. -/
structure InOrder (lib : Parsers Event) (p : Process Event Span) : Prop where
  order : parsed lib p.delivered =
    p.dispatch.handed.map pair ++ p.dispatch.receiver.map pair ++ inFlight p.phase ++ parsed lib p.amqpRx
  updated : p.dispatch.handed.map EventMessage.event <+: p.updates.map Prod.fst
  delivered : p.updates.map Prod.fst <+: (parsed lib p.delivered).map Prod.snd
  /-- behind the dispatcher's loop only its own queue is left -/
  stopped : p.dispatch.phase ≠ .looping →
    parsed lib p.delivered = p.dispatch.handed.map pair ++ p.dispatch.receiver.map pair

theorem Inv.queued (h : Inv lib self) :
    self.dispatch.accepted.map pair = self.dispatch.handed.map pair ++ self.dispatch.receiver.map pair := by
  rw [h.dispatch.accepted, List.map_append]

theorem map_snd_inFlight (phase : Phase Event) : updated phase <+: (inFlight phase).map Prod.snd := by
  cases phase with
  | receiving | exited => exact List.nil_prefix
  | updating metadata event => exact List.nil_prefix
  | queueing metadata event => exact List.prefix_rfl

theorem map_snd_pair (messages : List (EventMessage Metadata Event Span)) :
    (messages.map pair).map Prod.snd = messages.map EventMessage.event := List.map_map

/-- Behind its loop the dispatcher hands nothing on. -/
structure Stopped (d d' : Dispatch Metadata Event Span) : Prop where
  phase : d'.phase ≠ .looping
  handed : d'.handed = d.handed

theorem stopped_step {d : Dispatch Metadata Event Span} (h : d.phase ≠ .looping)
    (act : Dispatch.Action Metadata Event Span) : Stopped d (d.step act) := by
  cases act with
  | send | withSpan =>
    unfold Dispatch.step Dispatch.enqueue
    dsimp only
    split <;> exact ⟨h, rfl⟩
  | shutdown => exact ⟨h, rfl⟩
  | recv =>
    rcases d.step_recv with heq | ⟨message, receiver, hphase, -, -⟩
    · rw [heq]
      exact ⟨h, rfl⟩
    · exact absurd hphase h
  | cancelled | close | endWait =>
    unfold Dispatch.step
    dsimp only
    split
    · exact ⟨nofun, rfl⟩
    · exact ⟨h, rfl⟩

/-- The dispatcher makes at most one step. -/
theorem dispatch_step (lib : Parsers Event) (p : Process Event Span) (act : Action Span) :
    (p.step lib act).dispatch = p.dispatch ∨ ∃ act', (p.step lib act).dispatch = p.dispatch.step act' := by
  cases act with
  | dispatchRecv => exact .inr ⟨.recv, rfl⟩
  | dispatchCancelled => exact .inr ⟨.cancelled, rfl⟩
  | dispatchClose => exact .inr ⟨.close, rfl⟩
  | dispatchEndWait => exact .inr ⟨.endWait, rfl⟩
  | disconnect => exact .inl rfl
  | deliver | update | recv =>
    unfold step
    dsimp only
    repeat' split
    all_goals exact .inl rfl
  | queue span =>
    cases hphase : p.phase with
    | queueing metadata event => exact .inr ⟨.withSpan metadata event span, by simp only [step, hphase]⟩
    | receiving | updating | exited => exact .inl (by simp only [step, hphase])
  | shutdown =>
    unfold step
    dsimp only
    split
    next => exact .inr ⟨.shutdown, rfl⟩
    next => exact .inl rfl

theorem stopped_run (acts : List (Action Span)) (h : self.dispatch.phase ≠ .looping) :
    Stopped self.dispatch (self.run lib acts).dispatch := by
  refine foldl_invariant (fun p : Process Event Span => Stopped self.dispatch p.dispatch) (fun p act hp => ?_)
    ⟨h, rfl⟩ acts
  rcases dispatch_step lib p act with hsame | ⟨act', hstep⟩
  · rw [hsame]
    exact hp
  · rw [hstep]
    have hstopped := stopped_step hp.phase act'
    exact ⟨hstopped.phase, hstopped.handed.trans hp.handed⟩

/-- In every interleaving of the main loop with the AMQP connection, the dispatcher and the shutdown: what was
delivered is, in order, with the handlers, in the dispatcher's queue, in the main loop or still to be received, and
a handler is given an event only after the cache was updated with it or failed to be. What is in the queue when the
dispatcher leaves its loop stays there. -/
theorem in_order_behind_cache (lib : Parsers Event) (acts : List (Action Span)) :
    let p : Process Event Span := new.run lib acts
    InOrder lib p ∧ (p.dispatch.phase ≠ .looping → ∀ later, (p.run lib later).dispatch.handed = p.dispatch.handed) := by
  intro p
  have h : Inv lib p := inv_run lib acts
  refine ⟨?_, fun hphase later => (stopped_run later hphase).handed⟩
  have horder := h.order
  rw [h.queued] at horder
  refine ⟨horder, ?_, ?_, fun hphase => ?_⟩
  · rw [h.updates, h.dispatch.accepted, List.map_append, List.append_assoc]
    exact List.prefix_append _ _
  · rw [h.order, h.updates, List.map_append, List.map_append, map_snd_pair]
    exact ((List.prefix_append_right_inj _).mpr (map_snd_inFlight p.phase)).trans (List.prefix_append _ _)
  · have hexited := h.cancelled (h.looping hphase)
    rw [horder, hexited, (h.exited hexited).1]
    simp [inFlight, parsed]

end Inv

end Process

end Tulpje.Handler
