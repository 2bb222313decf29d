import EntityStore.Bridge.Channel
import EntityStore.Bridge.InputFormat

/-!
# Sources

A source reads the pairs of its input format once, sends them one after the other, and then sends
the end of the pairs. It looks for a cancellation before it offers a pair; once it has offered one
it waits until the channel has room or the receiver leaves.

`Feed.step` is the source as a machine that makes one move at a time, so that it can be interleaved
with the receiver in any way. A `Feed` is a little more general than a source: it may also fail
after its last pair instead of sending the end. Every move but the reading lowers
`Source.Phase.weight` more than it fills the channel (`Feed.step_measure`), so a source makes
finitely many moves.

A source mirrors `DataSource`, and its moves are those of `run`.
-/

namespace EntityStore.Bridge

/-- A source of a bridge job. -/
structure Source (κ ε : Type) where
  /-- What it reads. -/
  format : InputFormat κ ε
  /-- The properties of the job. -/
  job : Job

namespace Source

variable {κ ε : Type}

/-- The names of the types of the pairs. -/
def types (source : Source κ ε) : TypePair :=
  source.format.types

/-- The name of a source. -/
def name (source : Source κ ε) : String :=
  "source" ++ source.types.display

/-- Where a source stands. -/
inductive Phase (κ ε : Type) where
  /-- It has not read its pairs. -/
  | reading
  /-- It goes on with the rest of the pairs. -/
  | ready (rest : List (κ × ε))
  /-- It offers a pair, and has others. -/
  | offering (pair : κ × ε) (rest : List (κ × ε))
  /-- It offers the end of the pairs. -/
  | ending
  /-- It has left the channel. -/
  | finished (result : Except Error Unit)

namespace Phase

/-- Has the source not read its pairs? As a number, for measures. -/
def unread : Phase κ ε → Nat
  | reading => 1
  | _ => 0

/-- A bound for the moves that are left after reading, with the receipt of what they send. -/
def weight : Phase κ ε → Nat
  | reading => 0
  | ready rest => 6 * rest.length + 6
  | offering _ rest => 6 * rest.length + 11
  | ending => 5
  | finished _ => 0

/-- Has the source left the channel? -/
def isFinished : Phase κ ε → Bool
  | finished _ => true
  | _ => false

/-- The result of a source that has left the channel. -/
def result : Phase κ ε → Except Error Unit
  | finished result => result
  | _ => .ok ()

end Phase

end Source

/-- The pairs that a source sends: how to read them, and the failure after the last one, if it does
not send the end of the pairs. -/
structure Feed (σ κ ε : Type) where
  /-- Reads the pairs. -/
  read : Call σ (List (κ × ε))
  /-- The failure after the last pair. -/
  failure : Option Error := none

/-- The pairs that the input format of a source reads. -/
def Source.feed {κ ε σ : Type} [Key κ] [Entity ε] (client : Client σ) (source : Source κ ε) :
    Feed σ κ ε :=
  { read := source.format.pairs client }

namespace Feed

variable {κ ε σ : Type}

/-- A source that leaves the channel with a result. -/
def leave (channel : Channel κ ε) (s : σ) (result : Except Error Unit) :
    Source.Phase κ ε × Channel κ ε × σ :=
  (.finished result, channel.closeSender, s)

/-- The end of a source that has no more pairs to send. -/
def close (feed : Feed σ κ ε) (channel : Channel κ ε) (s : σ) :
    Source.Phase κ ε × Channel κ ε × σ :=
  match feed.failure with
  | some e => leave channel s (.error e)
  | none => (.ending, channel, s)

/-- The next move of a source, if it does not have to wait. -/
def step (feed : Feed σ κ ε) (cancelled : Bool) (phase : Source.Phase κ ε) (channel : Channel κ ε)
    (s : σ) : Option (Source.Phase κ ε × Channel κ ε × σ) :=
  match phase with
  | .reading =>
    match feed.read.runFrom s with
    | (.ok pairs, s') => some (.ready pairs, channel, s')
    | (.error e, s') => some (leave channel s' (.error e))
  | .ready [] => some (feed.close channel s)
  | .ready (pair :: rest) =>
    if cancelled then some (feed.close channel s) else some (.offering pair rest, channel, s)
  | .offering pair rest =>
    match channel.offer (.record pair.1 pair.2) with
    | .accepted channel' => some (.ready rest, channel', s)
    | .refused =>
      if cancelled then some (feed.close channel s)
      else some (leave channel s (.error .channelClosed))
    | .full => none
  | .ending =>
    match channel.offer .eos with
    | .accepted channel' => some (leave channel' s (.ok ()))
    | .refused => some (leave channel s (.ok ()))
    | .full => none
  | .finished _ => none

/-- A source without more pairs has at most the end of them to send. -/
theorem close_measure (feed : Feed σ κ ε) (channel : Channel κ ε) (s : σ) :
    (feed.close channel s).1.unread = 0 ∧ (feed.close channel s).1.weight ≤ 5 ∧
      (feed.close channel s).2.1.queue = channel.queue ∧
      (feed.close channel s).2.1.receiverOpen = channel.receiverOpen := by
  unfold close
  split <;> simp [leave, Channel.closeSender, Source.Phase.unread, Source.Phase.weight]

/-- A move reads the pairs, or lowers the weight by more than four for each message that it sends.
Whether the receiver has left does not change. -/
theorem step_measure {feed : Feed σ κ ε} {cancelled : Bool} {phase : Source.Phase κ ε}
    {channel : Channel κ ε} {s : σ} {next : Source.Phase κ ε × Channel κ ε × σ}
    (h : feed.step cancelled phase channel s = some next) :
    next.2.1.receiverOpen = channel.receiverOpen ∧
      (next.1.unread < phase.unread ∨
        next.1.unread = phase.unread ∧
          next.1.weight + 4 * next.2.1.queue.length < phase.weight + 4 * channel.queue.length) := by
  obtain ⟨hunread, hweight, hqueue, hopen⟩ := feed.close_measure channel s
  have hclose : (feed.close channel s).1.unread = 0 ∧
      (feed.close channel s).1.weight + 4 * (feed.close channel s).2.1.queue.length <
        6 + 4 * channel.queue.length := by
    rw [hqueue]
    omega
  cases phase with
  | reading =>
    simp only [step] at h
    split at h <;> obtain rfl := Option.some.inj h <;>
      simp [leave, Channel.closeSender, Source.Phase.unread]
  | ready pairs =>
    cases pairs with
    | nil =>
      obtain rfl := Option.some.inj h
      exact ⟨hopen, .inr ⟨hclose.1, hclose.2⟩⟩
    | cons pair rest =>
      simp only [step] at h
      split at h
      · obtain rfl := Option.some.inj h
        refine ⟨hopen, .inr ⟨hclose.1, Nat.lt_of_lt_of_le hclose.2 ?_⟩⟩
        simp only [Source.Phase.weight]
        omega
      · obtain rfl := Option.some.inj h
        simp [Source.Phase.unread, Source.Phase.weight]
        omega
  | offering pair rest =>
    simp only [step] at h
    split at h
    · next channel' hoffer =>
      have hlength := Channel.offer_accepted_length hoffer
      obtain rfl := Option.some.inj h
      refine ⟨Channel.offer_accepted_receiverOpen hoffer, .inr ⟨rfl, ?_⟩⟩
      simp only [Source.Phase.weight, hlength]
      omega
    · split at h
      · obtain rfl := Option.some.inj h
        refine ⟨hopen, .inr ⟨hclose.1, Nat.lt_of_lt_of_le hclose.2 ?_⟩⟩
        simp only [Source.Phase.weight]
        omega
      · obtain rfl := Option.some.inj h
        simp [leave, Channel.closeSender, Source.Phase.unread, Source.Phase.weight]
    · exact absurd h nofun
  | ending =>
    simp only [step] at h
    split at h
    · next channel' hoffer =>
      have hlength := Channel.offer_accepted_length hoffer
      obtain rfl := Option.some.inj h
      have hopen' := Channel.offer_accepted_receiverOpen hoffer
      refine ⟨hopen', .inr ⟨rfl, ?_⟩⟩
      simp only [leave, Channel.closeSender, Source.Phase.weight, hlength]
      omega
    · obtain rfl := Option.some.inj h
      simp [leave, Channel.closeSender, Source.Phase.unread, Source.Phase.weight]
    · exact absurd h nofun
  | finished result => exact absurd h nofun

end Feed

end EntityStore.Bridge
