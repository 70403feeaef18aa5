import Tulpje.Lib.Run

/-!
# The dispatcher and its shutdown

`Dispatch::run` of `tulpje-framework/src/framework.rs` with the senders at one end of its queue and
`Framework::shutdown` at the other. A step is one branch of the `select!` loop, one of the calls after
it, or a call of another task, in any interleaving.

Taking the shutdown branch leaves the loop at once, so what is queued when the receiver is closed is never
received. `lossless_iff` says that this is the only way in which an accepted event is lost.

`DispatchHandle` keeps a sender, so `recv` does not return `None` before the receiver is closed.
-/

namespace Tulpje.Framework

open Lib

variable {Metadata Event Span : Type}

structure EventMessage (Metadata Event Span : Type) where
  metadata : Metadata
  event : Event
  span : Option Span
  deriving DecidableEq

/-- Where `Dispatch::run` is: in its loop, behind the `break`, waiting for its handlers, or done. -/
inductive Dispatch.Phase
  | looping | stopping | waiting | returned
  deriving DecidableEq

structure Dispatch (Metadata Event Span : Type) where
  receiver : List (EventMessage Metadata Event Span)
  closed : Bool
  /-- the shutdown token -/
  cancelled : Bool
  phase : Dispatch.Phase
  /-- events whose send returned `Ok` -/
  accepted : List (EventMessage Metadata Event Span)
  /-- events for which a task that runs `framework::handle` was spawned -/
  handed : List (EventMessage Metadata Event Span)

namespace Dispatch

inductive Action (Metadata Event Span : Type)
  | send (metadata : Metadata) (event : Event)
  | withSpan (metadata : Metadata) (event : Event) (span : Span)
  | shutdown
  | recv
  | cancelled
  | close
  | endWait

/-- `DispatchHandle::new`, which spawns the task. -/
def new : Dispatch Metadata Event Span := ⟨[], false, false, .looping, [], []⟩

variable (self : Dispatch Metadata Event Span)

/-- The send of `UnboundedSender`: an error leaves everything as it is. -/
def enqueue (message : EventMessage Metadata Event Span) : Dispatch Metadata Event Span :=
  if self.closed then self
  else
    { self with
      receiver := self.receiver ++ [message]
      accepted := self.accepted ++ [message] }

/-- A branch of the loop that is not ready leaves the task waiting. The wait for the handlers ends when
they have finished or after five seconds. -/
def step : Action Metadata Event Span → Dispatch Metadata Event Span
  | .send metadata event => self.enqueue ⟨metadata, event, none⟩
  | .withSpan metadata event span => self.enqueue ⟨metadata, event, some span⟩
  | .shutdown => { self with cancelled := true }
  | .recv =>
    match self.phase, self.receiver with
    | .looping, message :: receiver =>
      { self with receiver := receiver, handed := self.handed ++ [message] }
    | _, _ => self
  | .cancelled =>
    if self.phase = .looping ∧ self.cancelled then { self with phase := .stopping } else self
  | .close =>
    if self.phase = .stopping then { self with closed := true, phase := .waiting } else self
  | .endWait => if self.phase = .waiting then { self with phase := .returned } else self

def run (acts : List (Action Metadata Event Span)) : Dispatch Metadata Event Span := acts.foldl step self

/-- The receiver is closed on an empty queue. -/
def Safe : Action Metadata Event Span → Prop
  | .close => self.phase = .stopping → self.receiver = []
  | _ => True

/-! ### What a run keeps -/

/-- Every accepted event was handed over or is still queued, in order; the receiver is closed once the
`close` behind the loop was called. -/
structure Inv (d : Dispatch Metadata Event Span) : Prop where
  accepted : d.accepted = d.handed ++ d.receiver
  closed : d.closed = true ↔ d.phase = .waiting ∨ d.phase = .returned

theorem inv_new : (new : Dispatch Metadata Event Span).Inv := ⟨rfl, by simp [new]⟩

/-- A step of the loop that receives does so before the receiver is closed. -/
theorem step_recv : (self.step .recv = self) ∨
    ∃ message receiver, self.phase = .looping ∧ self.receiver = message :: receiver ∧
      self.step .recv = { self with receiver := receiver, handed := self.handed ++ [message] } := by
  unfold step
  cases hphase : self.phase <;> cases hreceiver : self.receiver <;> simp

variable {self}

theorem Inv.enqueue (h : self.Inv) (message : EventMessage Metadata Event Span) :
    (self.enqueue message).Inv := by
  unfold Dispatch.enqueue
  split_ifs with hclosed
  · exact h
  · refine ⟨?_, h.closed⟩
    show self.accepted ++ [message] = self.handed ++ (self.receiver ++ [message])
    rw [h.accepted, List.append_assoc]

theorem Inv.step (h : self.Inv) (a : Action Metadata Event Span) : (self.step a).Inv := by
  cases a with
  | send metadata event => exact h.enqueue _
  | withSpan metadata event span => exact h.enqueue _
  | shutdown => exact ⟨h.accepted, h.closed⟩
  | recv =>
    rcases self.step_recv with heq | ⟨message, receiver, -, hreceiver, heq⟩
    · rw [heq]
      exact h
    · rw [heq]
      refine ⟨?_, h.closed⟩
      show self.accepted = self.handed ++ [message] ++ receiver
      rw [h.accepted, hreceiver, List.append_assoc, List.singleton_append]
  | cancelled =>
    unfold Dispatch.step
    dsimp only
    split_ifs with hc
    · exact ⟨h.accepted, by simp [h.closed, hc.1]⟩
    · exact h
  | close =>
    unfold Dispatch.step
    dsimp only
    split_ifs with hc
    · exact ⟨h.accepted, by simp⟩
    · exact h
  | endWait =>
    unfold Dispatch.step
    dsimp only
    split_ifs with hc
    · exact ⟨h.accepted, by simp [h.closed, hc]⟩
    · exact h

/-- The receiver is closed and something is left in it. -/
def Lost (self : Dispatch Metadata Event Span) : Prop := self.closed = true ∧ self.receiver ≠ []

theorem lost_enqueue (message : EventMessage Metadata Event Span) :
    (self.enqueue message).Lost ↔ self.Lost := by
  unfold Lost Dispatch.enqueue
  split_ifs with hclosed
  · exact Iff.rfl
  · exact iff_of_false (fun h => hclosed h.1) fun h => hclosed h.1

theorem lost_step (h : self.Inv) (a : Action Metadata Event Span) :
    (self.step a).Lost ↔ self.Lost ∨ ¬ self.Safe a := by
  have hsafe : ∀ {p : Prop}, (p ↔ self.Lost) → (p ↔ self.Lost ∨ ¬ True) := fun hp =>
    hp.trans (or_iff_left fun hfalse => hfalse trivial).symm
  cases a with
  | send metadata event => exact hsafe (lost_enqueue _)
  | withSpan metadata event span => exact hsafe (lost_enqueue _)
  | shutdown => exact hsafe Iff.rfl
  | recv =>
    refine hsafe ?_
    rcases self.step_recv with heq | ⟨message, receiver, hphase, -, heq⟩
    · rw [heq]
    · rw [heq]
      -- the receiver is not closed as long as the loop goes on
      have hopen : self.closed ≠ true := fun hc => by
        rcases h.closed.mp hc with hw | hw <;> rw [hw] at hphase <;> cases hphase
      exact iff_of_false (fun hlost => hopen hlost.1) fun hlost => hopen hlost.1
  | cancelled =>
    refine hsafe ?_
    unfold Dispatch.step
    dsimp only
    split_ifs <;> exact Iff.rfl
  | close =>
    unfold Dispatch.step
    dsimp only
    split_ifs with hphase
    · have hopen : ¬ self.Lost := fun hlost => by
        rcases h.closed.mp hlost.1 with hw | hw <;> rw [hw] at hphase <;> cases hphase
      rw [or_iff_right hopen]
      simp [Lost, Safe, hphase]
    · exact (or_iff_left fun hs => hs fun hp => absurd hp hphase).symm
  | endWait =>
    refine hsafe ?_
    unfold Dispatch.step
    dsimp only
    split_ifs <;> exact Iff.rfl

theorem inv_run (acts : List (Action Metadata Event Span)) : (new.run acts).Inv :=
  foldl_invariant Inv (fun _ a h => h.step a) inv_new acts

/-- When `Dispatch::run` has returned, the handlers were given all accepted events, each one once and in
the order of the queue, exactly if the receiver was closed on an empty queue. -/
theorem lossless_iff (acts : List (Action Metadata Event Span))
    (hreturned : (new.run acts).phase = .returned) :
    (new.run acts).handed = (new.run acts).accepted ↔ AllSteps step Safe new acts := by
  have hinv := inv_run acts
  have hclosed : (new.run acts).closed = true := hinv.closed.mpr (.inr hreturned)
  have hlost : (new.run acts).Lost ↔ new.Lost ∨ ¬ AllSteps step Safe new acts :=
    foldl_iff_not_allSteps Inv Lost (fun _ a h => h.step a) (fun _ a h => lost_step h a) acts inv_new
  have hnew : ¬ (new : Dispatch Metadata Event Span).Lost := fun h => h.2 rfl
  rw [or_iff_right hnew, iff_comm, ← not_iff_not, not_not] at hlost
  calc (new.run acts).handed = (new.run acts).accepted
      ↔ (new.run acts).receiver = [] := by rw [hinv.accepted, List.self_eq_append_right]
    _ ↔ ¬ (new.run acts).Lost := by simp [Lost, hclosed]
    _ ↔ AllSteps step Safe new acts := hlost.symm

/-- One event is received before the shutdown. -/
theorem lossless_received :
    let acts : List (Action Unit String Unit) :=
      [.send () "READY", .recv, .shutdown, .cancelled, .close, .endWait]
    (new.run acts).phase = .returned ∧
      ((new.run acts).handed = (new.run acts).accepted ↔ AllSteps step Safe new acts) :=
  ⟨rfl, lossless_iff _ rfl⟩

/-- An event is queued, and the loop takes the shutdown branch before it receives it. -/
theorem loses_queued_event :
    let acts : List (Action Unit String Unit) :=
      [.send () "READY", .shutdown, .cancelled, .close, .endWait]
    (new.run acts).phase = .returned ∧ (new.run acts).accepted = [⟨(), "READY", none⟩] ∧
      (new.run acts).handed = [] := ⟨rfl, rfl, rfl⟩

end Dispatch

end Tulpje.Framework
