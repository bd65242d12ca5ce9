import Mathlib.Data.List.Basic
import Mathlib.Data.List.Nodup

namespace Sarena.Lib

/-!
# Library — a bounded channel with one receiver

Sending takes two steps: a sender reserves a place, which it may have to wait for, and then
pushes its message.  Closing refuses further reservations; messages that are queued, or for
which a place is reserved, still get through.

* `Channel.reserve`, `push`, `recv`, `close` — the operations;
* `Channel.Finished` — the receiver is told that nothing will come any more;
* `Channel.Fifo` — what was accepted is what was received and what is queued, in order.
-/

variable {α : Type*}

/-- A bounded channel, with the history of what went through it. -/
structure Channel (α : Type*) where
  capacity : Nat
  /-- The messages whose senders have reserved a place. -/
  reserved : List α := []
  queue : List α := []
  closed : Bool := false
  /-- All that was ever pushed, in order; no operation reads it. -/
  accepted : List α := []
  /-- All that was ever received, in order; no operation reads it. -/
  received : List α := []

namespace Channel

/-- A place is reserved, where there is one and the channel is open. -/
def reserve (c : Channel α) (a : α) : Option (Channel α) :=
  if c.closed = false ∧ c.reserved.length + c.queue.length < c.capacity then
    some { c with reserved := a :: c.reserved }
  else none

/-- The message goes to the place reserved for it. -/
def push [DecidableEq α] (c : Channel α) (a : α) : Channel α :=
  { c with
    reserved := c.reserved.erase a
    queue := c.queue ++ [a]
    accepted := c.accepted ++ [a] }

/-- The oldest message is taken out. -/
def recv (c : Channel α) : Option (α × Channel α) :=
  match c.queue with
  | a :: queue => some (a, { c with queue := queue, received := c.received ++ [a] })
  | [] => none

/-- No further reservations. -/
def close (c : Channel α) : Channel α := { c with closed := true }

/-- The receiver is gone, and the messages in the queue with it. -/
def dropReceiver (c : Channel α) : Channel α := { c with closed := true, queue := [] }

/-- Nothing will come any more. -/
def Finished (c : Channel α) : Prop := c.closed = true ∧ c.reserved = [] ∧ c.queue = []

/-- First in, first out. -/
def Fifo (c : Channel α) : Prop := c.accepted = c.received ++ c.queue

variable {c d : Channel α} {a : α}

theorem reserve_eq_some (h : c.reserve a = some d) :
    c.closed = false ∧ d = { c with reserved := a :: c.reserved } := by
  unfold reserve at h
  split at h
  next hopen => exact ⟨hopen.1, (Option.some.inj h).symm⟩
  next => cases h

theorem recv_eq_some (h : c.recv = some (a, d)) :
    ∃ queue, c.queue = a :: queue ∧
      d = { c with queue := queue, received := c.received ++ [a] } := by
  unfold recv at h
  split at h
  next b queue hqueue =>
    obtain ⟨rfl, rfl⟩ := Prod.mk.inj (Option.some.inj h)
    exact ⟨queue, hqueue, rfl⟩
  next => cases h

theorem Fifo.push [DecidableEq α] (h : c.Fifo) : (c.push a).Fifo := by
  show c.accepted ++ [a] = c.received ++ (c.queue ++ [a])
  rw [h, List.append_assoc]

theorem Fifo.recv (h : c.Fifo) (hrecv : c.recv = some (a, d)) : d.Fifo := by
  obtain ⟨queue, hqueue, rfl⟩ := recv_eq_some hrecv
  show c.accepted = c.received ++ [a] ++ queue
  rw [h, hqueue, List.append_assoc]
  rfl

/-- With an empty queue, all that was accepted has been received. -/
theorem Fifo.received_eq (h : c.Fifo) (hqueue : c.queue = []) : c.received = c.accepted := by
  rw [h, hqueue, List.append_nil]

/-- With an empty queue, nothing is lost when the receiver goes. -/
theorem Fifo.dropReceiver (h : c.Fifo) (hqueue : c.queue = []) : c.dropReceiver.Fifo := by
  show c.accepted = c.received ++ []
  rw [h, hqueue]

end Channel

end Sarena.Lib
