/-
A bounded broadcast channel with many receivers.  The channel is the list of
everything sent since it was made; a receiver is a position in that list.  A
receiver that falls behind by more than the capacity is told so and skips to
the oldest message still retained.
-/
import Mathlib

namespace Vellum

open List

universe u

variable {α : Type u}

structure Broadcast (α : Type u) where
  sent : List α

structure Receiver where
  next : Nat

/-- What one `recv` of a receiver yields. -/
inductive Received (α : Type u) where
  | empty
  | lagged (skipped : Nat)
  | message (value : α)

namespace Broadcast

def new : Broadcast α := ⟨[]⟩

def send (channel : Broadcast α) (value : α) : Broadcast α :=
  ⟨channel.sent ++ [value]⟩

/-- A new receiver sees only what is sent after it. -/
def subscribe (channel : Broadcast α) : Receiver := ⟨channel.sent.length⟩

def recv (capacity : Nat) (channel : Broadcast α) (receiver : Receiver) :
    Received α × Receiver :=
  if receiver.next + capacity < channel.sent.length then
    (.lagged (channel.sent.length - capacity - receiver.next),
      ⟨channel.sent.length - capacity⟩)
  else
    match channel.sent[receiver.next]? with
    | none => (.empty, receiver)
    | some value => (.message value, ⟨receiver.next + 1⟩)

/-- The messages a receiver has not read yet, oldest first. -/
def pending (channel : Broadcast α) (receiver : Receiver) : List α :=
  channel.sent.drop receiver.next

@[simp]
theorem pending_subscribe (channel : Broadcast α) :
    channel.pending channel.subscribe = [] := by
  simp [pending, subscribe]

theorem pending_send (channel : Broadcast α) (receiver : Receiver) (value : α)
    (hbound : receiver.next ≤ channel.sent.length) :
    (channel.send value).pending receiver =
      channel.pending receiver ++ [value] := by
  simp [pending, send, drop_append_of_le_length hbound]

theorem mem_of_recv {capacity : Nat} {channel : Broadcast α}
    {receiver next : Receiver} {value : α}
    (hrecv : channel.recv capacity receiver = (.message value, next)) :
    value ∈ channel.sent := by
  unfold recv at hrecv
  split at hrecv
  · cases hrecv
  · split at hrecv
    · cases hrecv
    · rename_i hget
      cases hrecv
      exact mem_of_getElem? hget

theorem recv_of_pending_nil (capacity : Nat) (channel : Broadcast α)
    (receiver : Receiver)
    (hlag : channel.sent.length ≤ receiver.next + capacity)
    (hpending : channel.pending receiver = []) :
    channel.recv capacity receiver = (.empty, receiver) := by
  have hget : channel.sent[receiver.next]? = none := by
    have hhead := congrArg List.head? hpending
    simpa [pending, head?_drop] using hhead
  rw [recv, if_neg (Nat.not_lt.mpr hlag), hget]

/-- A receiver within the capacity reads the oldest pending message and keeps
the rest. -/
theorem recv_of_pending_cons (capacity : Nat) (channel : Broadcast α)
    (receiver : Receiver) {value : α} {rest : List α}
    (hlag : channel.sent.length ≤ receiver.next + capacity)
    (hpending : channel.pending receiver = value :: rest) :
    channel.recv capacity receiver =
        (.message value, ⟨receiver.next + 1⟩) ∧
      channel.pending ⟨receiver.next + 1⟩ = rest := by
  have hget : channel.sent[receiver.next]? = some value := by
    have hhead := congrArg List.head? hpending
    simpa [pending, head?_drop] using hhead
  have hrest : channel.pending ⟨receiver.next + 1⟩ = rest := by
    have htail := congrArg List.tail hpending
    simpa [pending, tail_drop] using htail
  refine ⟨?_, hrest⟩
  rw [recv, if_neg (Nat.not_lt.mpr hlag), hget]

end Broadcast

end Vellum
