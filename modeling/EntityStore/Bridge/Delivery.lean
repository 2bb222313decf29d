import EntityStore.Bridge.Source

/-!
# Sources with a receiver

What a source sends can be received without a sink. A receiver takes message after message as long
as it wants to and then leaves, or it leaves when it finds the channel closed.

`Delivery.run` lets the source move whenever it can, and the receiver take a message otherwise. With
a receiver that wants nothing the source goes on until it has to wait (`Delivery.settle`); with one
that wants messages up to the end of the pairs, all pairs are collected (`Delivery.collect`).

`Feed.collect` mirrors `collect` of `DataSource`.
-/

namespace EntityStore.Bridge

/-- What a receiver gets. -/
inductive Reception (κ ε : Type) where
  /-- A message. -/
  | message (message : Message κ ε)
  /-- The end of the channel. -/
  | closed

namespace Reception

variable {κ ε : Type}

/-- Does it end the pairs? -/
def isEnd : Reception κ ε → Bool
  | message (.record ..) => false
  | message .eos | closed => true

/-- The pair, if it is one. -/
def pair? : Reception κ ε → Option (κ × ε)
  | message (.record key entity) => some (key, entity)
  | message .eos | closed => none

end Reception

/-- The state of a source and of the receiver of its messages, with that of the client. -/
structure Delivery (σ κ ε : Type) where
  /-- Where the source stands. -/
  source : Source.Phase κ ε
  /-- The channel between the two. -/
  channel : Channel κ ε
  /-- What the receiver has got. -/
  received : List (Reception κ ε)
  /-- The state of the client. -/
  client : σ

namespace Delivery

variable {σ κ ε : Type}

/-- The state over a channel before the source has read its pairs. -/
def start (channel : Channel κ ε) (s : σ) : Delivery σ κ ε :=
  ⟨.reading, channel, [], s⟩

/-- A move of the source, if it does not have to wait. -/
def send (feed : Feed σ κ ε) (cancelled : Bool) (d : Delivery σ κ ε) : Option (Delivery σ κ ε) :=
  (feed.step cancelled d.source d.channel d.client).map fun (source, channel, client) =>
    { d with source, channel, client }

/-- The receiver leaves. -/
def leave (d : Delivery σ κ ε) : Delivery σ κ ε :=
  { d with channel := d.channel.closeReceiver }

/-- The receiver takes a message, or leaves if there will not be one. -/
def take (d : Delivery σ κ ε) : Option (Delivery σ κ ε) :=
  if d.channel.receiverOpen then
    match d.channel.receive with
    | .message m channel => some { d with channel, received := d.received ++ [.message m] }
    | .closed => some (leave { d with received := d.received ++ [.closed] })
    | .empty => none
  else none

/-- What every move lowers. -/
def measure (d : Delivery σ κ ε) : Nat × Nat :=
  (d.source.unread,
    d.source.weight + 4 * d.channel.queue.length + if d.channel.receiverOpen then 1 else 0)

/-- A move of the source, or of the receiver while the source has to wait, if the receiver wants
anything after what it has got. -/
def advance (feed : Feed σ κ ε) (cancelled : Bool) (wants : List (Reception κ ε) → Bool)
    (d : Delivery σ κ ε) : Option (Delivery σ κ ε) :=
  (d.send feed cancelled).or (if wants d.received then d.take else none)

/-- A move of the source lowers the measure. -/
theorem send_measure {feed : Feed σ κ ε} {cancelled : Bool} {d d' : Delivery σ κ ε}
    (h : d.send feed cancelled = some d') :
    Prod.Lex (· < ·) (· < ·) d'.measure d.measure := by
  obtain ⟨⟨source, channel, client⟩, hnext, rfl⟩ := Option.map_eq_some_iff.1 h
  obtain ⟨hopen, hlt | ⟨heq, hlt⟩⟩ := Feed.step_measure hnext
  · exact .left _ _ hlt
  · simp only at hopen heq hlt
    simp only [measure, heq, hopen]
    exact .right _ (by omega)

/-- A move of the receiver lowers the measure. -/
theorem take_measure {d d' : Delivery σ κ ε} (h : d.take = some d') :
    Prod.Lex (· < ·) (· < ·) d'.measure d.measure := by
  unfold take at h
  split at h
  · next hopen =>
    split at h
    · next m channel hreceive =>
      obtain rfl := Option.some.inj h
      have hlength := Channel.receive_message_length hreceive
      refine .right _ ?_
      simp only [hopen]
      split <;> simp only [ite_true] <;> omega
    · obtain rfl := Option.some.inj h
      refine .right _ ?_
      simp only [leave, Channel.closeReceiver, hopen, List.length_nil]
      simp only [ite_true, Bool.false_eq_true, ite_false]
      omega
    · exact absurd h nofun
  · exact absurd h nofun

/-- A move of whoever does not have to wait lowers the measure. -/
theorem advance_measure {feed : Feed σ κ ε} {cancelled : Bool}
    {wants : List (Reception κ ε) → Bool} {d d' : Delivery σ κ ε}
    (h : d.advance feed cancelled wants = some d') :
    Prod.Lex (· < ·) (· < ·) d'.measure d.measure := by
  rcases Option.or_eq_some_iff.1 h with h | ⟨-, h⟩
  · exact send_measure h
  · split at h
    · exact take_measure h
    · exact absurd h nofun

/-- Goes on until the source has to wait or has left, and the receiver has what it wants or finds
nothing. -/
def run (feed : Feed σ κ ε) (cancelled : Bool) (wants : List (Reception κ ε) → Bool)
    (d : Delivery σ κ ε) : Delivery σ κ ε :=
  match _ : d.advance feed cancelled wants with
  | some d' => d'.run feed cancelled wants
  | none => d
termination_by d.measure
decreasing_by exact advance_measure ‹_›

/-- The source goes on until it has to wait or has left. -/
def settle (feed : Feed σ κ ε) (cancelled : Bool) (d : Delivery σ κ ε) : Delivery σ κ ε :=
  d.run feed cancelled fun _ => false

/-- The receiver takes a number of messages, fewer if it finds the channel closed. The source goes
on whenever the channel is empty. -/
def accept (feed : Feed σ κ ε) (cancelled : Bool) : Nat → Delivery σ κ ε → Delivery σ κ ε
  | 0, d => d
  | n + 1, d =>
    match d.take with
    | some d' => d'.accept feed cancelled n
    | none =>
      let settled := d.settle feed cancelled
      match settled.take with
      | some d' => d'.accept feed cancelled n
      | none => settled

/-- The receiver leaves, and the source goes on to its end. -/
def abandon (feed : Feed σ κ ε) (cancelled : Bool) (d : Delivery σ κ ε) : Delivery σ κ ε :=
  d.leave.settle feed cancelled

end Delivery

/-- All pairs that a source sends through a channel of a capacity, if there is one and the source
does not fail. -/
def Feed.collect {σ κ ε : Type} (feed : Feed σ κ ε) (capacity : Nat) :
    Call σ (List (κ × ε)) := do
  let channel ← Call.ofExcept ((Channel.withCapacity capacity).mapError .panic)
  Call.ofState fun s =>
    let d := (Delivery.start channel s).run feed false fun received =>
      !received.any Reception.isEnd
    (d.source.result.map fun _ => d.received.filterMap Reception.pair?, d.client)

end EntityStore.Bridge
