import EntityStore.Bridge.Channel
import EntityStore.Bridge.OutputFormat

/-!
# Sinks

A sink collects the pairs that it receives and writes them in batches, pair by pair, whenever it has
as many as the batch size says, and at the end of the pairs what is left. A closed channel ends the
pairs as their end does. A sink that finds itself cancelled drops the pairs that it has not begun to
write; a batch that it has begun it finishes.

Before its first move a sink takes a buffer for the pairs of a batch from a `Heap`. A sink that gets
none has failed then, and receives nothing.

`Sink.step` is the sink as a machine that makes one move at a time: to look for a cancellation, to
look into the channel, and to write one pair. Every move lowers `Sink.Progress.weight` by more than
it may save in the channel (`Sink.step_measure`), so a sink makes finitely many moves on what it is
sent.

A sink mirrors `DataSink`, and its moves are those of `run` and `drain`.
-/

namespace EntityStore.Bridge

/-- The memory from which buffers of pairs are taken. -/
structure Heap where
  /-- The number of octets that a pair takes. -/
  pairSize : Nat
  /-- The number of octets that there are for a buffer. -/
  available : Nat

namespace Heap

/-- There can be a buffer for that many pairs, and there is memory for it. -/
def Holds (heap : Heap) (size : Nat) : Prop :=
  size * heap.pairSize ≤ bufferLimit ∧ size * heap.pairSize ≤ heap.available

/-- Takes a buffer for that many pairs, if there can be one and there is memory for it. -/
def reserve (heap : Heap) (size : Nat) : Except Error Unit :=
  if bufferLimit < size * heap.pairSize then .error (.panic (.oversizedBuffer size))
  else if heap.available < size * heap.pairSize then .error (.outOfMemory (size * heap.pairSize))
  else .ok ()

/-- A heap gives a buffer exactly if it holds one. -/
theorem reserve_eq_ok_iff {heap : Heap} {size : Nat} :
    heap.reserve size = .ok () ↔ heap.Holds size := by
  unfold reserve Holds
  split
  · next hlimit => exact ⟨nofun, fun h => absurd hlimit (Nat.not_lt.2 h.1)⟩
  · next hlimit =>
    split
    · next havailable => exact ⟨nofun, fun h => absurd havailable (Nat.not_lt.2 h.2)⟩
    · next havailable =>
      exact ⟨fun _ => ⟨Nat.not_lt.1 hlimit, Nat.not_lt.1 havailable⟩, fun _ => rfl⟩

/-- There is no buffer with more octets than one may have. -/
theorem reserve_of_lt {heap : Heap} {size : Nat} (h : bufferLimit < size * heap.pairSize) :
    heap.reserve size = .error (.panic (.oversizedBuffer size)) :=
  if_pos h

end Heap

/-- A sink of a bridge job. -/
structure Sink (κ ε : Type) where
  /-- What it writes to. -/
  format : OutputFormat κ ε
  /-- The properties of the job. -/
  job : Job
  /-- The directory that it owns, since batch engines expect an output directory. -/
  scratch : String
  /-- The number of pairs that it has written. -/
  written : Nat := 0

namespace Sink

variable {κ ε σ : Type}

/-- The names of the types of the pairs. -/
def types (sink : Sink κ ε) : TypePair :=
  sink.format.types

/-- The name of a sink. -/
def name (sink : Sink κ ε) : String :=
  "sink" ++ sink.types.display

/-- Where a sink stands. -/
inductive Phase (κ ε : Type) where
  /-- It looks for a cancellation, with pairs that it has not written. -/
  | checking (pending : List (κ × ε))
  /-- It looks into the channel, with pairs that it has not written. -/
  | taking (pending : List (κ × ε))
  /-- It writes the rest of a batch of some size, which is the last one or not. -/
  | writing (size : Nat) (rest : List (κ × ε)) (last : Bool)
  /-- It has left the channel. -/
  | finished (result : Except Error Unit)

/-- Where a sink stands, and how many pairs of finished batches it has written. -/
structure Progress (κ ε : Type) where
  /-- Where it stands. -/
  phase : Phase κ ε := .checking []
  /-- The number of pairs in the batches that it has finished. -/
  written : Nat := 0

/-- A sink that has asked for its buffer: it goes on to make its first move, or has failed. -/
def start (sink : Sink κ ε) (buffer : Except Error Unit) : Progress κ ε where
  phase :=
    match buffer with
    | .ok _ => .checking []
    | .error e => .finished (.error e)
  written := sink.written

/-- A bound for the moves that are left, apart from those for messages in the channel. -/
def Progress.weight (p : Progress κ ε) : Nat :=
  match p.phase with
  | .checking pending => pending.length + 3
  | .taking pending => pending.length + 2
  | .writing _ rest true => rest.length + 1
  | .writing _ rest false => rest.length + 4
  | .finished _ => 0

/-- Has the sink left the channel? -/
def Progress.isFinished (p : Progress κ ε) : Bool :=
  match p.phase with
  | .finished _ => true
  | _ => false

/-- The result of a sink that has left the channel. -/
def Progress.result (p : Progress κ ε) : Except Error Unit :=
  match p.phase with
  | .finished result => result
  | _ => .ok ()

/-- A sink that leaves the channel with a result. -/
def leave (p : Progress κ ε) (channel : Channel κ ε) (s : σ) (result : Except Error Unit) :
    Progress κ ε × Channel κ ε × σ :=
  ({ p with phase := .finished result }, channel.closeReceiver, s)

/-- The sink after it has received a pair: it writes the pairs that it has if they fill a batch. -/
def afterRecord (batchSize : Nat) (pending : List (κ × ε)) : Phase κ ε :=
  if batchSize ≤ pending.length then .writing pending.length pending false else .checking pending

/-- The sink at the end of the pairs: it writes the ones that it has. -/
def afterEnd (p : Progress κ ε) (pending : List (κ × ε)) (channel : Channel κ ε) (s : σ) :
    Progress κ ε × Channel κ ε × σ :=
  if pending.isEmpty then leave p channel s (.ok ())
  else ({ p with phase := .writing pending.length pending true }, channel, s)

/-- The next move of a sink, if it does not have to wait. -/
def step [Key κ] [Entity ε] (client : Client σ) (format : OutputFormat κ ε) (cancelled : Bool)
    (p : Progress κ ε) (channel : Channel κ ε) (s : σ) :
    Option (Progress κ ε × Channel κ ε × σ) :=
  match p.phase with
  | .checking pending =>
    if cancelled then some (leave p channel s (.ok ()))
    else some ({ p with phase := .taking pending }, channel, s)
  | .taking pending =>
    match channel.receive with
    | .message (.record key entity) channel' =>
      let phase := afterRecord format.batchSize (pending ++ [(key, entity)])
      some ({ p with phase := phase }, channel', s)
    | .message .eos channel' => some (afterEnd p pending channel' s)
    | .closed => some (afterEnd p pending channel s)
    | .empty => if cancelled then some (leave p channel s (.ok ())) else none
  | .writing size [] last =>
    let p := { p with written := p.written + size }
    if last then some (leave p channel s (.ok ()))
    else some ({ p with phase := .checking [] }, channel, s)
  | .writing size (pair :: rest) last =>
    match (format.store.put client pair.1 pair.2).runFrom s with
    | (.ok (), s') => some ({ p with phase := .writing size rest last }, channel, s')
    | (.error e, s') => some (leave p channel s' (.error e))
  | .finished _ => none

/-- A sink that leaves has no move left, and there is no message for one. -/
theorem measure_leave (p : Progress κ ε) (channel : Channel κ ε) (s : σ)
    (result : Except Error Unit) :
    (leave p channel s result).1.weight + 4 * (leave p channel s result).2.1.queue.length = 0 :=
  rfl

/-- A sink at the end of the pairs has a move left for each pair, and one more. -/
theorem weight_afterEnd (p : Progress κ ε) (pending : List (κ × ε)) (channel : Channel κ ε)
    (s : σ) :
    (afterEnd p pending channel s).1.weight ≤ pending.length + 1 ∧
      (afterEnd p pending channel s).2.1.queue.length ≤ channel.queue.length := by
  unfold afterEnd
  split <;> simp [leave, Progress.weight, Channel.closeReceiver]

/-- A sink that has received a pair has at most four moves more than pairs. -/
theorem weight_afterRecord (p : Progress κ ε) (batchSize : Nat) (pending : List (κ × ε)) :
    ({ p with phase := afterRecord batchSize pending } : Progress κ ε).weight ≤
      pending.length + 4 := by
  unfold afterRecord
  split <;> simp [Progress.weight]

/-- A move lowers the weight together with four times the number of messages in the channel. -/
theorem step_measure [Key κ] [Entity ε] {client : Client σ} {format : OutputFormat κ ε}
    {cancelled : Bool} {p : Progress κ ε} {channel : Channel κ ε} {s : σ}
    {next : Progress κ ε × Channel κ ε × σ}
    (h : step client format cancelled p channel s = some next) :
    next.1.weight + 4 * next.2.1.queue.length < p.weight + 4 * channel.queue.length := by
  obtain ⟨phase, written⟩ := p
  cases phase with
  | checking pending =>
    simp only [step] at h
    split at h <;> obtain rfl := Option.some.inj h
    · rw [measure_leave]
      simp only [Progress.weight]
      omega
    · simp [Progress.weight]
  | taking pending =>
    simp only [step] at h
    split at h
    · next key entity channel' hreceive =>
      have hlength := Channel.receive_message_length hreceive
      obtain rfl := Option.some.inj h
      have hrecord := weight_afterRecord (⟨.taking pending, written⟩ : Progress κ ε)
        format.batchSize (pending ++ [(key, entity)])
      simp only [List.length_append, List.length_cons, List.length_nil] at hrecord
      simp only [Progress.weight] at hrecord ⊢
      omega
    · next channel' hreceive =>
      have hlength := Channel.receive_message_length hreceive
      obtain rfl := Option.some.inj h
      have hend := weight_afterEnd (⟨.taking pending, written⟩ : Progress κ ε) pending channel' s
      simp only [Progress.weight] at hend ⊢
      omega
    · obtain rfl := Option.some.inj h
      have hend := weight_afterEnd (⟨.taking pending, written⟩ : Progress κ ε) pending channel s
      simp only [Progress.weight] at hend ⊢
      omega
    · split at h
      · obtain rfl := Option.some.inj h
        rw [measure_leave]
        simp only [Progress.weight]
        omega
      · exact absurd h nofun
  | writing size rest last =>
    cases rest with
    | nil =>
      simp only [step] at h
      split at h <;> obtain rfl := Option.some.inj h
      · rw [measure_leave]
        cases last <;> simp only [Progress.weight] <;> omega
      · next hlast => simp [Progress.weight, hlast]
    | cons pair rest =>
      simp only [step] at h
      split at h <;> obtain rfl := Option.some.inj h
      · cases last <;> simp [Progress.weight]
      · rw [measure_leave]
        cases last <;> simp only [Progress.weight] <;> omega
  | finished result => exact absurd h nofun

end Sink

end EntityStore.Bridge
