import EntityStore.Entity.Basic

/-!
# Channels

A source sends messages to a sink through a channel, which keeps them in their order and has room
for a number of them. A sender waits while there is no room and is refused once the receiver has
left. A receiver still gets what was sent before the sender left, and then finds the channel closed.

No channel has room for more than `channelLimit` messages, and who asks for one panics
(`Channel.withCapacity`).

`withCapacity` is the making of a bounded channel, as `execute` of `ExecutionEnvironment` and
`collect` of `DataSource` do it.
-/

namespace EntityStore.Bridge

/-- What a source sends. -/
inductive Message (κ ε : Type) where
  /-- A pair that was read from a store or is to be written to one. -/
  | record (key : κ) (entity : ε)
  /-- The end of the pairs. -/
  | eos

/-- The state of a channel. -/
structure Channel (κ ε : Type) where
  /-- The number of messages that there is room for. -/
  capacity : Nat
  /-- The messages that have been sent and not received, the oldest first. -/
  queue : List (Message κ ε) := []
  /-- May the sender still send? -/
  senderOpen : Bool := true
  /-- May the receiver still receive? -/
  receiverOpen : Bool := true

/-- What becomes of a message that is offered to a channel. -/
inductive Offer (κ ε : Type) where
  /-- It is in the channel. -/
  | accepted (channel : Channel κ ε)
  /-- The receiver has left. -/
  | refused
  /-- There is no room for it now. -/
  | full

/-- What a receiver finds in a channel. -/
inductive Receipt (κ ε : Type) where
  /-- A message, which is no longer in the channel. -/
  | message (message : Message κ ε) (channel : Channel κ ε)
  /-- No message, and there will not be one. -/
  | closed
  /-- No message now. -/
  | empty

namespace Channel

variable {κ ε : Type}

/-- An empty channel. There is always room for one message. -/
def empty (capacity : Nat) : Channel κ ε :=
  { capacity := max capacity 1 }

/-- Makes an empty channel, if there can be one with the capacity. -/
def withCapacity (capacity : Nat) : Except Panic (Channel κ ε) :=
  if channelLimit < capacity then .error (.oversizedChannel capacity) else .ok (.empty capacity)

/-- Offers a message. -/
def offer (c : Channel κ ε) (message : Message κ ε) : Offer κ ε :=
  if !c.receiverOpen then .refused
  else if c.queue.length < c.capacity then .accepted { c with queue := c.queue ++ [message] }
  else .full

/-- Looks for a message. -/
def receive (c : Channel κ ε) : Receipt κ ε :=
  match c.queue with
  | message :: rest => .message message { c with queue := rest }
  | [] => if c.senderOpen then .empty else .closed

/-- The sender leaves. -/
def closeSender (c : Channel κ ε) : Channel κ ε :=
  { c with senderOpen := false }

/-- The receiver leaves, and what it has not received is lost. -/
def closeReceiver (c : Channel κ ε) : Channel κ ε :=
  { c with receiverOpen := false, queue := [] }

/-- Up to the limit there is a channel. -/
theorem withCapacity_of_le {capacity : Nat} (h : capacity ≤ channelLimit) :
    (withCapacity capacity : Except Panic (Channel κ ε)) = .ok (.empty capacity) :=
  if_neg (Nat.not_lt.2 h)

/-- Beyond the limit there is none. -/
theorem withCapacity_of_lt {capacity : Nat} (h : channelLimit < capacity) :
    (withCapacity capacity : Except Panic (Channel κ ε)) = .error (.oversizedChannel capacity) :=
  if_pos h

/-- An offer that is accepted adds one message. -/
theorem offer_accepted_length {c c' : Channel κ ε} {message : Message κ ε}
    (h : c.offer message = .accepted c') : c'.queue.length = c.queue.length + 1 := by
  unfold offer at h
  split at h
  · exact absurd h nofun
  · split at h
    · obtain rfl := Offer.accepted.inj h
      simp
    · exact absurd h nofun

/-- An offer that is accepted does not concern the receiver. -/
theorem offer_accepted_receiverOpen {c c' : Channel κ ε} {message : Message κ ε}
    (h : c.offer message = .accepted c') : c'.receiverOpen = c.receiverOpen := by
  unfold offer at h
  split at h
  · exact absurd h nofun
  · split at h
    · obtain rfl := Offer.accepted.inj h
      rfl
    · exact absurd h nofun

/-- A message that is received is no longer in the channel. -/
theorem receive_message_length {c c' : Channel κ ε} {message : Message κ ε}
    (h : c.receive = .message message c') : c.queue.length = c'.queue.length + 1 := by
  unfold receive at h
  split at h
  · next hq =>
    obtain ⟨-, rfl⟩ := Receipt.message.inj h
    simp [hq]
  · split at h <;> exact absurd h nofun

end Channel

end EntityStore.Bridge
