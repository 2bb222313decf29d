import EntityStore.Bridge.Sink

/-!
# Sinks on their own

A sink can be run on a channel that is filled beforehand, without a source. `Intake.run` lets it
make moves until it has to wait for more messages or has left the channel.

It is `run` of `DataSink` without `execute` around it, so that a panic is one of its caller.
-/

namespace EntityStore.Bridge

/-- The state of a sink and of the channel that it receives from, with that of the client. -/
structure Intake (σ κ ε : Type) where
  /-- Where the sink stands. -/
  sink : Sink.Progress κ ε
  /-- The channel. -/
  channel : Channel κ ε
  /-- The state of the client. -/
  client : σ

namespace Intake

variable {σ κ ε : Type}

/-- The state of a sink that has not yet looked at certain messages. The sender may still send, or
has left. A sink without a buffer has left as well. -/
def start (heap : Heap) (sink : Sink κ ε) (messages : List (Message κ ε)) (senderOpen : Bool)
    (s : σ) : Intake σ κ ε :=
  let progress := sink.start (heap.reserve sink.format.batchSize)
  let channel : Channel κ ε := { capacity := messages.length + 1, queue := messages, senderOpen }
  { sink := progress
    channel := if progress.isFinished then channel.closeReceiver else channel
    client := s }

variable [Key κ] [Entity ε]

/-- A move of the sink, if it does not have to wait. -/
def step (client : Client σ) (format : OutputFormat κ ε) (cancelled : Bool) (i : Intake σ κ ε) :
    Option (Intake σ κ ε) :=
  (Sink.step client format cancelled i.sink i.channel i.client).map
    fun (sink, channel, client) => ⟨sink, channel, client⟩

/-- A move lowers what bounds the moves that are left. -/
theorem step_measure {client : Client σ} {format : OutputFormat κ ε} {cancelled : Bool}
    {i i' : Intake σ κ ε} (h : i.step client format cancelled = some i') :
    i'.sink.weight + 4 * i'.channel.queue.length < i.sink.weight + 4 * i.channel.queue.length := by
  obtain ⟨⟨sink, channel, client⟩, hnext, rfl⟩ := Option.map_eq_some_iff.1 h
  exact Sink.step_measure hnext

/-- Goes on until the sink has to wait or has left. -/
def run (client : Client σ) (format : OutputFormat κ ε) (cancelled : Bool) (i : Intake σ κ ε) :
    Intake σ κ ε :=
  match _ : i.step client format cancelled with
  | some i' => i'.run client format cancelled
  | none => i
termination_by i.sink.weight + 4 * i.channel.queue.length
decreasing_by exact step_measure ‹_›

end Intake

end EntityStore.Bridge
