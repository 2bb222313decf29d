import EntityStore.Bridge.Sink
import EntityStore.Bridge.Source

/-!
# Executing a job

An environment executes a job by running its source and its sink over one channel. The two make
their moves in any order, and a cancellation may come at any time; `Pipeline.step` is one move of
one of the three, and `Pipeline.follow` a whole schedule of them.

There may be no channel of the capacity of the environment. Then the job panics before either has
made a move. The sink is a task of its own, and a panic for want of a buffer ends just this task:
the source goes on, and the job fails when both have left.

`Pipeline.run` is one schedule, in which the source moves whenever it can and the sink otherwise. It
comes to an end since every move lowers `Execution.measure`.

`Environment.execute` mirrors `execute` of `ExecutionEnvironment`.
-/

namespace EntityStore.Bridge

/-- Who makes a move. -/
inductive Actor where
  /-- The source. -/
  | source
  /-- The sink. -/
  | sink
  /-- Whoever cancels the job. -/
  | canceller
  deriving DecidableEq

/-- The state of a job under execution, with that of the client. -/
structure Execution (σ κ ε : Type) where
  /-- Where the source stands. -/
  source : Source.Phase κ ε
  /-- The channel between the two. -/
  channel : Channel κ ε
  /-- Where the sink stands. -/
  sink : Sink.Progress κ ε
  /-- Is the job cancelled? -/
  cancelled : Bool
  /-- The state of the client. -/
  client : σ

namespace Execution

variable {σ κ ε : Type}

/-- The result of a job: the failure of the sink, or else that of the source. -/
def result (e : Execution σ κ ε) : Except Error Unit := do
  e.sink.result
  e.source.result

/-- Have both left the channel? -/
def isFinished (e : Execution σ κ ε) : Bool :=
  e.source.isFinished && e.sink.isFinished

/-- What every move of the source or the sink lowers. -/
def measure (e : Execution σ κ ε) : Nat × Nat :=
  (e.source.unread, e.source.weight + 4 * e.channel.queue.length + e.sink.weight)

end Execution

/-- A source and a sink that work together through a client. -/
structure Pipeline (σ κ ε : Type) where
  /-- The client of the sink's store. -/
  client : Client σ
  /-- The pairs of the source. -/
  feed : Feed σ κ ε
  /-- What the sink writes to. -/
  format : OutputFormat κ ε

namespace Pipeline

variable {σ κ ε : Type} [Key κ] [Entity ε]

/-- A move of one of the three, if it does not have to wait. -/
def step (p : Pipeline σ κ ε) (actor : Actor) (e : Execution σ κ ε) : Option (Execution σ κ ε) :=
  match actor with
  | .source =>
    (p.feed.step e.cancelled e.source e.channel e.client).map fun (source, channel, client) =>
      { e with source, channel, client }
  | .sink =>
    (Sink.step p.client p.format e.cancelled e.sink e.channel e.client).map
      fun (sink, channel, client) => { e with sink, channel, client }
  | .canceller => some { e with cancelled := true }

/-- The moves of a schedule, one after the other. Who has to wait is passed over. -/
def follow (p : Pipeline σ κ ε) (schedule : List Actor) (e : Execution σ κ ε) :
    Execution σ κ ε :=
  schedule.foldl (fun e actor => (p.step actor e).getD e) e

/-- A move of the source, or of the sink while the source has to wait. -/
def advance (p : Pipeline σ κ ε) (e : Execution σ κ ε) : Option (Execution σ κ ε) :=
  (p.step .source e).or (p.step .sink e)

/-- A move of the source or the sink lowers the measure. -/
theorem step_measure {p : Pipeline σ κ ε} {actor : Actor} {e e' : Execution σ κ ε}
    (hactor : actor ≠ .canceller) (h : p.step actor e = some e') :
    Prod.Lex (· < ·) (· < ·) e'.measure e.measure := by
  cases actor with
  | source =>
    obtain ⟨⟨source, channel, client⟩, hnext, rfl⟩ := Option.map_eq_some_iff.1 h
    obtain ⟨-, hlt | ⟨heq, hlt⟩⟩ := Feed.step_measure hnext
    · exact .left _ _ hlt
    · simp only at heq hlt
      simp only [Execution.measure, heq]
      exact .right _ (by omega)
  | sink =>
    obtain ⟨⟨sink, channel, client⟩, hnext, rfl⟩ := Option.map_eq_some_iff.1 h
    have hlt := Sink.step_measure hnext
    simp only at hlt
    exact .right _ (by simp only; omega)
  | canceller => exact absurd rfl hactor

/-- A move of whoever does not have to wait lowers the measure. -/
theorem advance_measure {p : Pipeline σ κ ε} {e e' : Execution σ κ ε}
    (h : p.advance e = some e') : Prod.Lex (· < ·) (· < ·) e'.measure e.measure := by
  rcases Option.or_eq_some_iff.1 h with h | ⟨-, h⟩ <;> exact step_measure (by decide) h

/-- Executes a job to its end, where both the source and the sink have nothing left to do. -/
def run (p : Pipeline σ κ ε) (e : Execution σ κ ε) : Execution σ κ ε :=
  match _ : p.advance e with
  | some e' => p.run e'
  | none => e
termination_by e.measure
decreasing_by exact advance_measure ‹_›

end Pipeline

/-- How jobs are executed. -/
structure Environment where
  /-- The number of messages that a channel has room for. -/
  capacity : Nat := 8
  /-- Are the jobs cancelled? -/
  cancelled : Bool := false
  /-- The memory that sinks take their buffers from. -/
  heap : Heap

namespace Environment

variable {σ κ ε : Type}

/-- The state of a job over a channel before its first move. A sink without a buffer has left. -/
def start (env : Environment) (sink : Sink κ ε) (channel : Channel κ ε) (s : σ) :
    Execution σ κ ε :=
  let progress := sink.start ((env.heap.reserve sink.format.batchSize).mapError .ofTask)
  { source := .reading
    channel := if progress.isFinished then channel.closeReceiver else channel
    sink := progress
    cancelled := env.cancelled
    client := s }

/-- Executes a job. The result is the finished sink. -/
def execute [Key κ] [Entity ε] (env : Environment) (client : Client σ) (feed : Feed σ κ ε)
    (sink : Sink κ ε) : Call σ (Sink κ ε) := do
  let channel ← Call.ofExcept ((Channel.withCapacity env.capacity).mapError .panic)
  Call.ofState fun s =>
    let e := Pipeline.run ⟨client, feed, sink.format⟩ (env.start sink channel s)
    (e.result.map fun _ => { sink with written := e.sink.written }, e.client)

end Environment

end EntityStore.Bridge
