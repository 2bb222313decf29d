import EntityStore.Bridge.Delivery
import EntityStore.Proofs.Bridge.Stage

/-!
# How a job begins

A job needs a channel, and its sink needs a buffer. If it has both, it begins with a source and a
sink that have done nothing (`Environment.start_of_holds`). If there can be no channel of the
capacity, `Environment.execute` panics and the client is as it was, and so does `Feed.collect`.

If the sink gets no buffer, it has left before the first move. The source does not know: it reads
its pairs and finds the receiver gone. `Pipeline.Refused` is a job in this state. It stays so
whatever moves are made, a cancellation included, and so the job fails for want of a buffer, with
its pairs read and none of them written (`Environment.execute_of_refused`).
-/

namespace EntityStore.Bridge

variable {σ κ ε : Type}

namespace Environment

variable {env : Environment} {sink : Sink κ ε} {error : Error}

/-- A job whose sink gets its buffer begins with a sink that has done nothing. -/
theorem start_of_holds (h : env.heap.Holds sink.format.batchSize) (channel : Channel κ ε) (s : σ) :
    env.start sink channel s =
      ⟨.reading, channel, { written := sink.written }, env.cancelled, s⟩ := by
  rw [start, Heap.reserve_eq_ok_iff.2 h]
  rfl

/-- A job whose sink gets no buffer begins with a sink that has left. -/
theorem start_of_refused (h : env.heap.reserve sink.format.batchSize = .error error)
    (channel : Channel κ ε) (s : σ) :
    env.start sink channel s = ⟨.reading, channel.closeReceiver,
      ⟨.finished (.error error.ofTask), sink.written⟩, env.cancelled, s⟩ := by
  rw [start, h]
  rfl

variable [Key κ] [Entity ε]

/-- Without a channel a job panics, and has not touched the client. -/
theorem execute_of_oversized (h : channelLimit < env.capacity) (client : Client σ)
    (feed : Feed σ κ ε) (sink : Sink κ ε) (s : σ) :
    (env.execute client feed sink).runFrom s =
      (.error (.panic (.oversizedChannel env.capacity)), s) := by
  rw [execute, Channel.withCapacity_of_lt h, Call.runFrom_bind]
  rfl

/-- With a channel a job makes its moves up to the end. -/
theorem runFrom_execute (h : env.capacity ≤ channelLimit) (client : Client σ) (feed : Feed σ κ ε)
    (sink : Sink κ ε) (s : σ) :
    (env.execute client feed sink).runFrom s =
      let e := Pipeline.run ⟨client, feed, sink.format⟩ (env.start sink (.empty env.capacity) s)
      (e.result.map fun _ => { sink with written := e.sink.written }, e.client) := by
  rw [execute, Channel.withCapacity_of_le h, Call.runFrom_bind]
  rfl

end Environment

/-- Without a channel nothing is collected, and the client is not touched. -/
theorem Feed.collect_of_oversized {capacity : Nat} (h : channelLimit < capacity)
    (feed : Feed σ κ ε) (s : σ) :
    (feed.collect capacity).runFrom s = (.error (.panic (.oversizedChannel capacity)), s) := by
  rw [collect, Channel.withCapacity_of_lt h, Call.runFrom_bind]
  rfl

/-- With a channel the receiver goes on up to the end of the pairs. -/
theorem Feed.runFrom_collect {capacity : Nat} (h : capacity ≤ channelLimit) (feed : Feed σ κ ε)
    (s : σ) :
    (feed.collect capacity).runFrom s =
      let d := (Delivery.start (.empty capacity) s).run feed false fun received =>
        !received.any Reception.isEnd
      (d.source.result.map fun _ => d.received.filterMap Reception.pair?, d.client) := by
  rw [collect, Channel.withCapacity_of_le h, Call.runFrom_bind]
  rfl

/-! ## Sinks without a buffer -/

namespace Pipeline

/-- Where a job stands whose sink has got no buffer: the sink has left, and the source has read its
pairs from a state of the client, or has not. -/
inductive Refused (p : Pipeline σ κ ε) (error : Error) (s : σ) : Execution σ κ ε → Prop where
  /-- The source has not read its pairs. -/
  | reading {channel : Channel κ ε} {written : Nat} {cancelled : Bool} :
      Refused p error s ⟨.reading, channel, ⟨.finished (.error error), written⟩, cancelled, s⟩
  /-- The source has read its pairs, and does not touch the client any more. -/
  | read {source : Source.Phase κ ε} {channel : Channel κ ε} {written : Nat} {cancelled : Bool}
      (hsource : source.unread = 0) :
      Refused p error s ⟨source, channel, ⟨.finished (.error error), written⟩, cancelled,
        (p.feed.read.runFrom s).2⟩

variable [Key κ] [Entity ε] {p : Pipeline σ κ ε} {error : Error} {s : σ} {e e' : Execution σ κ ε}

/-- No move gives the sink a buffer. -/
theorem Refused.step {actor : Actor} (h : p.Refused error s e) (hstep : p.step actor e = some e') :
    p.Refused error s e' := by
  cases actor with
  | source =>
    obtain ⟨⟨source', channel', s'⟩, hnext, rfl⟩ := Option.map_eq_some_iff.1 hstep
    cases h with
    | reading =>
      have hread : source'.unread = 0 ∧ s' = (p.feed.read.runFrom s).2 := by
        simp only [Feed.step] at hnext
        split at hnext
        · next hpairs =>
          obtain ⟨rfl, rfl, rfl⟩ := Option.some.inj hnext
          exact ⟨rfl, by rw [hpairs]⟩
        · next hfailed =>
          obtain ⟨rfl, rfl, rfl⟩ := Option.some.inj hnext
          exact ⟨rfl, by rw [hfailed]⟩
      obtain ⟨hsource, rfl⟩ := hread
      exact .read hsource
    | read hsource =>
      obtain ⟨hsource', -, rfl⟩ := Feed.step_of_unread_eq_zero hsource hnext
      exact .read hsource'
  | sink =>
    -- The sink has left.
    cases h <;> cases hstep
  | canceller =>
    obtain rfl := Option.some.inj hstep
    cases h with
    | reading => exact .reading
    | read hsource => exact .read hsource

/-- Nor do the moves of a schedule. -/
theorem Refused.follow (schedule : List Actor) (h : p.Refused error s e) :
    p.Refused error s (p.follow schedule e) := by
  induction schedule generalizing e with
  | nil => exact h
  | cons actor rest ih =>
    have hnext : p.Refused error s ((p.step actor e).getD e) := by
      cases hstep : p.step actor e with
      | none => exact h
      | some e' => exact h.step hstep
    exact ih hnext

omit [Key κ] [Entity ε] in
/-- Once its pairs are read, a job has failed for want of a buffer. -/
theorem Refused.outcome (h : p.Refused error s e) (hread : e.source.unread = 0) :
    e.result = .error error ∧ e.client = (p.feed.read.runFrom s).2 := by
  cases h with
  | reading => cases hread
  | read hsource => exact ⟨rfl, rfl⟩

/-- A job that is executed to its end has its pairs read. -/
theorem Refused.run (h : p.Refused error s e) :
    (p.run e).result = .error error ∧ (p.run e).client = (p.feed.read.runFrom s).2 := by
  fun_induction Pipeline.run p e with
  | case1 e e' hadvance ih =>
    rcases Option.or_eq_some_iff.1 hadvance with hstep | ⟨-, hstep⟩
    · exact ih (h.step hstep)
    · exact ih (h.step hstep)
  | case2 e hadvance =>
    refine h.outcome ?_
    cases h with
    | reading =>
      -- A source that has not read its pairs does not have to wait.
      simp only [advance, Pipeline.step, Feed.step, Option.or_eq_none_iff] at hadvance
      split at hadvance <;> cases hadvance.1
    | read hsource => exact hsource

end Pipeline

/-- If the sink gets no buffer, the job fails for want of it, with its pairs read and nothing
written. So does every schedule of moves that lets it finish, whether somebody cancels it or not. -/
theorem Environment.execute_of_refused [Key κ] [Entity ε] {env : Environment}
    (hcapacity : env.capacity ≤ channelLimit) {sink : Sink κ ε} {error : Error}
    (hrefused : env.heap.reserve sink.format.batchSize = .error error) (client : Client σ)
    (feed : Feed σ κ ε) (s : σ) :
    (env.execute client feed sink).runFrom s =
        (.error error.ofTask, (feed.read.runFrom s).2) ∧
      ∀ schedule : List Actor,
        let e := Pipeline.follow ⟨client, feed, sink.format⟩ schedule
          (env.start sink (.empty env.capacity) s)
        e.isFinished = true →
          e.result = .error error.ofTask ∧ e.client = (feed.read.runFrom s).2 := by
  let p : Pipeline σ κ ε := ⟨client, feed, sink.format⟩
  have hstart : p.Refused error.ofTask s (env.start sink (.empty env.capacity) s) := by
    rw [start_of_refused hrefused]
    exact .reading
  refine ⟨?_, fun schedule => ?_⟩
  · obtain ⟨hresult, hclient⟩ := hstart.run
    rw [runFrom_execute hcapacity]
    show (Except.map _ (p.run _).result, (p.run _).client) = _
    rw [hresult, hclient]
    rfl
  · intro e hfinished
    refine (hstart.follow schedule).outcome ?_
    cases hsource : e.source with
    | reading => simp [Execution.isFinished, hsource, Source.Phase.isFinished] at hfinished
    | _ => rfl

end EntityStore.Bridge
