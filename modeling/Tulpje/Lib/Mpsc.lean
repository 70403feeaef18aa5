/-!
# Multi-producer channels

The bounded and the unbounded channel of `tokio::sync::mpsc`, as far as a sender and the receiver can
tell. `close` is `Receiver::close` or dropping the receiver: later sends fail, queued values stay.
-/

namespace Tulpje.Lib

variable {α : Type}

inductive TrySendError
  | full
  | closed
  deriving DecidableEq, Repr

/-- The `Display` text of `mpsc::error::TrySendError`. -/
def TrySendError.display : TrySendError → String
  | .full => "no available capacity"
  | .closed => "channel closed"

structure Bounded (α : Type) where
  capacity : Nat
  queue : List α
  closed : Bool

namespace Bounded

def new (capacity : Nat) : Bounded α := ⟨capacity, [], false⟩

/-- A send succeeds when the receiver is there and the queue is below its capacity. -/
def HasRoom (ch : Bounded α) : Prop := ch.closed = false ∧ ch.queue.length < ch.capacity

instance (ch : Bounded α) : Decidable ch.HasRoom := inferInstanceAs (Decidable (_ ∧ _))

def trySend (ch : Bounded α) (value : α) : Except TrySendError (Bounded α) :=
  if ch.closed then .error .closed
  else if ch.queue.length < ch.capacity then .ok { ch with queue := ch.queue ++ [value] }
  else .error .full

def recv (ch : Bounded α) : Bounded α := { ch with queue := ch.queue.tail }

def close (ch : Bounded α) : Bounded α := { ch with closed := true }

theorem trySend_of_hasRoom {ch : Bounded α} (h : ch.HasRoom) (value : α) :
    ch.trySend value = .ok { ch with queue := ch.queue ++ [value] } := by
  simp [trySend, h.1, h.2]

theorem trySend_of_not_hasRoom {ch : Bounded α} (h : ¬ ch.HasRoom) (value : α) :
    ∃ err, ch.trySend value = .error err := by
  unfold trySend
  split
  · exact ⟨_, rfl⟩
  · rename_i hopen
    rw [if_neg fun hlt => h ⟨by simpa using hopen, hlt⟩]
    exact ⟨_, rfl⟩

end Bounded

/-- The sent values of an unbounded channel, oldest first. -/
structure Unbounded (α : Type) where
  sent : List α
  closed : Bool

namespace Unbounded

def new : Unbounded α := ⟨[], false⟩

/-- `none` is `SendError`, whose text is "channel closed". -/
def send (ch : Unbounded α) (value : α) : Option (Unbounded α) :=
  if ch.closed then none else some { ch with sent := ch.sent ++ [value] }

theorem send_of_open {ch : Unbounded α} (h : ch.closed = false) (value : α) :
    ch.send value = some { ch with sent := ch.sent ++ [value] } := by
  simp [send, h]

end Unbounded

end Tulpje.Lib
