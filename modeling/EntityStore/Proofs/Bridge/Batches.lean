import EntityStore.Client.Memory
import EntityStore.Entity.Untyped
import EntityStore.Proofs.Bridge.Scene
import EntityStore.Proofs.Bridge.Stage
import Mathlib.Data.List.Infix
import Mathlib.Data.List.Induction

/-!
# A sink writes whole batches

A sink that is cancelled drops the pairs that it has not begun to write, and never a part of a
batch, whatever its surroundings do.

`Sink.Tally` says how the pairs that a sink has applied, those that it holds and the number that it
reports belong together in each phase, and `Sink.Tally.step` that its moves keep this. A scene is
`Scene.Sound` if moreover these are the pairs that the sink has received, and those are the first
ones that were sent. From this follows which pairs are applied at any time, and which when the sink
has left (`Scene.applied_follow`).
-/

namespace EntityStore.Bridge

variable {σ κ ε : Type}

/-! ## The tally of a sink -/

namespace Sink

/-- How the pairs that a sink has applied, and those that it holds, belong to what it reports, as
long as no write has failed. The sink may be cancelled, and the first index says whether it has
received the end of the pairs. -/
inductive Tally (batchSize : Nat) (cancelled : Bool) :
    Bool → Nat → List (κ × ε) → Progress κ ε → Prop where
  /-- It has applied whole batches, and holds less than a batch. -/
  | checking {pending : List (κ × ε)} {written : Nat} (hbatches : batchSize ∣ written)
      (hpending : pending.length < batchSize) :
      Tally batchSize cancelled false written pending ⟨.checking pending, written⟩
  /-- So it has while it looks into the channel. -/
  | taking {pending : List (κ × ε)} {written : Nat} (hbatches : batchSize ∣ written)
      (hpending : pending.length < batchSize) :
      Tally batchSize cancelled false written pending ⟨.taking pending, written⟩
  /-- It has applied whole batches, and a part of the next one. -/
  | writing {rest : List (κ × ε)} {applied written : Nat} (hbatches : batchSize ∣ written)
      (hcount : applied + rest.length = written + batchSize) :
      Tally batchSize cancelled false applied rest ⟨.writing batchSize rest false, written⟩
  /-- It has applied a part of the last batch. -/
  | writingLast {rest : List (κ × ε)} {applied written size : Nat}
      (hcount : applied + rest.length = written + size) :
      Tally batchSize cancelled true applied rest ⟨.writing size rest true, written⟩
  /-- It has left since it was cancelled, with less than a batch that it has not applied. -/
  | interrupted {dropped : List (κ × ε)} {written : Nat} (hcancelled : cancelled = true)
      (hbatches : batchSize ∣ written) (hdropped : dropped.length < batchSize) :
      Tally batchSize cancelled false written dropped ⟨.finished (.ok ()), written⟩
  /-- It has left after the end of the pairs, and has applied them all. -/
  | complete {written : Nat} :
      Tally batchSize cancelled true written [] ⟨.finished (.ok ()), written⟩

/-- A cancellation does not change the tally. -/
theorem Tally.cancel {batchSize applied : Nat} {cancelled ended : Bool} {held : List (κ × ε)}
    {p : Progress κ ε} (h : Tally batchSize cancelled ended applied held p) :
    Tally batchSize true ended applied held p := by
  cases h with
  | checking hbatches hpending => exact .checking hbatches hpending
  | taking hbatches hpending => exact .taking hbatches hpending
  | writing hbatches hcount => exact .writing hbatches hcount
  | writingLast hcount => exact .writingLast hcount
  | interrupted _ hbatches hdropped => exact .interrupted rfl hbatches hdropped
  | complete => exact .complete

/-- A sink that has not left holds what its phase says. -/
theorem Tally.held_eq {batchSize applied : Nat} {cancelled ended : Bool} {held : List (κ × ε)}
    {p : Progress κ ε} (h : Tally batchSize cancelled ended applied held p)
    (hopen : p.isFinished = false) : p.phase.held = held := by
  cases h with
  | interrupted => cases hopen
  | complete => cases hopen
  | _ => rfl

/-- A sink that has left has applied what it reports, and it has applied everything or dropped less
than a batch. -/
theorem Tally.of_isFinished {batchSize applied : Nat} {cancelled ended : Bool}
    {held : List (κ × ε)} {p : Progress κ ε} (h : Tally batchSize cancelled ended applied held p)
    (hfinished : p.isFinished = true) :
    applied = p.written ∧ (ended = true → held = []) ∧
      (ended = false → cancelled = true ∧ batchSize ∣ p.written ∧ held.length < batchSize) := by
  cases h with
  | interrupted hcancelled hbatches hdropped =>
    exact ⟨rfl, nofun, fun _ => ⟨hcancelled, hbatches, hdropped⟩⟩
  | complete => exact ⟨rfl, fun _ => rfl, nofun⟩
  | _ => cases hfinished

/-- With one more pair a sink has less than a batch still, or begins to write just a batch. -/
theorem Tally.afterRecord {batchSize written : Nat} {cancelled : Bool} {pending : List (κ × ε)}
    (hbatches : batchSize ∣ written) (hpending : pending.length < batchSize) (pair : κ × ε) :
    Tally batchSize cancelled false written (pending ++ [pair])
      ⟨Sink.afterRecord batchSize (pending ++ [pair]), written⟩ := by
  have hlength : (pending ++ [pair]).length = pending.length + 1 := by
    rw [List.length_append, List.length_singleton]
  unfold Sink.afterRecord
  split
  · next hfull =>
    have hsize : (pending ++ [pair]).length = batchSize := by omega
    rw [hsize]
    exact .writing hbatches (by rw [hsize])
  · exact .checking hbatches (by omega)

variable [Key κ] [Entity ε] {client : Client σ} {format : OutputFormat κ ε}
  {cancelled ended : Bool} {applied : Nat} {held : List (κ × ε)} {p p' : Progress κ ε}
  {channel channel' : Channel κ ε} {s s' : σ}

/-- What a sink does in one move that does not fail: it applies the first of the pairs that it holds
or has just received, if it applies any, and holds the others. -/
theorem Tally.step (hbatch : 0 < format.batchSize)
    (h : Tally format.batchSize cancelled ended applied held p)
    (hstep : Sink.step client format cancelled p channel s = some (p', channel', s'))
    (hresult : p'.result = .ok ()) :
    ∃ wrote held',
      Tally format.batchSize cancelled (ended || (p.phase.hears channel).any Reception.isEnd)
        (applied + wrote.length) held' p' ∧
      held ++ ((p.phase.hears channel).bind Reception.pair?).toList = wrote ++ held' ∧
      (format.store.putAll client wrote).runFrom s = (.ok (), s') ∧
      (p'.isFinished = true → held' = held) := by
  -- What the sink does fixes its phase, and so the one case of the tally that it is in.
  have hadvance := step_cases hstep
  generalize p.phase.hears channel = heard at hadvance ⊢
  cases hadvance with
  | looks =>
    cases h with
    | checking hbatches hpending =>
      exact ⟨[], _, .taking hbatches hpending, List.append_nil _, rfl, nofun⟩
  | quits hcancelled hphase =>
    rcases hphase with rfl | rfl
    · cases h with
      | checking hbatches hpending =>
        exact ⟨[], _, .interrupted hcancelled hbatches hpending, List.append_nil _, rfl,
          fun _ => rfl⟩
    · cases h with
      | taking hbatches hpending =>
        exact ⟨[], _, .interrupted hcancelled hbatches hpending, List.append_nil _, rfl,
          fun _ => rfl⟩
  | takes =>
    cases h with
    | taking hbatches hpending =>
      refine ⟨[], _, .afterRecord hbatches hpending _, rfl, rfl, fun hfinished => ?_⟩
      -- A sink that has received a pair does not leave.
      unfold Sink.afterRecord at hfinished
      split at hfinished <;> cases hfinished
  | drains hend =>
    -- From here on the size of the batch does not matter any more.
    cases h with
    | taking => cases hend <;> exact ⟨[], _, .writingLast rfl, List.append_nil _, rfl, nofun⟩
  | leaves hend =>
    cases h with
    | taking => cases hend <;> exact ⟨[], _, .complete, rfl, rfl, fun _ => rfl⟩
  | @writes _ _ pair rest _ _ hput =>
    have hwrites := MappedStore.runFrom_putAll_cons_of_ok hput []
    cases h with
    | writing hbatches hcount =>
      rw [List.length_cons] at hcount
      exact ⟨[pair], rest, .writing hbatches (by simp; omega), List.append_nil _, hwrites, nofun⟩
    | writingLast hcount =>
      rw [List.length_cons] at hcount
      exact ⟨[pair], rest, .writingLast (by simp; omega), List.append_nil _, hwrites, nofun⟩
  | fails => cases hresult
  | fills =>
    cases h with
    | writing hbatches hcount =>
      -- The batch is complete, so that the pairs applied are those reported from now on.
      obtain rfl := hcount
      exact ⟨[], [], .checking (Nat.dvd_add_self_right.2 hbatches) hbatch, rfl, rfl, nofun⟩
  | completes =>
    cases h with
    | writingLast hcount =>
      obtain rfl := hcount
      exact ⟨[], [], .complete, rfl, rfl, fun _ => rfl⟩

omit [Key κ] [Entity ε] in
/-- A pair that a sink receives is the first one in the channel. -/
theorem Phase.hears_prefix (phase : Phase κ ε) (channel : Channel κ ε) :
    ((phase.hears channel).bind Reception.pair?).toList <+:
      channel.queue.filterMap Message.pair? := by
  cases phase with
  | taking pending =>
    simp only [Phase.hears]
    cases hreceive : channel.receive with
    | message message rest =>
      rw [Channel.eq_of_receive hreceive]
      cases message with
      | record key entity => exact List.prefix_append [(key, entity)] _
      | eos => exact List.nil_prefix
    | closed => exact List.nil_prefix
    | empty => exact List.nil_prefix
  | _ => exact List.nil_prefix

/-- A sink that makes a move has not left before. -/
theorem isFinished_of_step {next : Progress κ ε × Channel κ ε × σ}
    (hstep : step client format cancelled p channel s = some next) :
    p.isFinished = false ∧ p.result = .ok () := by
  obtain ⟨phase, written⟩ := p
  cases phase with
  | finished result => cases hstep
  | _ => exact ⟨rfl, rfl⟩

/-- As long as a sink has not left, it takes what it receives from the queue of the channel. -/
theorem queue_of_step
    (hstep : step client format cancelled p channel s = some (p', channel', s'))
    (hopen : p'.isFinished = false) :
    channel.queue.filterMap Message.pair? =
      ((p.phase.hears channel).bind Reception.pair?).toList ++
        channel'.queue.filterMap Message.pair? := by
  have hadvance := step_cases hstep
  generalize p.phase.hears channel = heard at hadvance ⊢
  cases hadvance with
  | quits => cases hopen
  | takes hreceive =>
    rw [Channel.eq_of_receive hreceive]
    rfl
  | drains hend =>
    cases hend with
    | eos hreceive =>
      rw [Channel.eq_of_receive hreceive]
      rfl
    | closed => rfl
  | leaves => cases hopen
  | fails => cases hopen
  | completes => cases hopen
  | _ => rfl

end Sink

/-! ## What is written in a scene -/

namespace Scene

variable [Key κ] [Entity ε] {client : Client σ} {format : OutputFormat κ ε} {s : σ}
  {e : Scene σ κ ε} {applied held : List (κ × ε)}

/-- A scene that began with the client in state `s`, and in which the sink has applied some pairs
and holds others, or has dropped them. -/
structure Sound (client : Client σ) (format : OutputFormat κ ε) (s : σ) (e : Scene σ κ ε)
    (applied held : List (κ × ε)) : Prop where
  /-- The number of pairs that the sink reports is right. -/
  tally : Sink.Tally format.batchSize e.cancelled e.ended applied.length held e.sink
  /-- The pairs are in the store, and nothing else has changed. -/
  writes : (format.store.putAll client applied).runFrom s = (.ok (), e.client)
  /-- The sink has received them before the others. -/
  receives : e.receivedPairs = applied ++ held
  /-- What the sink has received was sent before the rest. -/
  sends : e.receivedPairs <+: e.sent
  /-- The rest is in the channel. -/
  queues : e.sink.isFinished = false →
    e.sent = e.receivedPairs ++ e.channel.queue.filterMap Message.pair?
  /-- A sink that has left has dropped what it held. -/
  drops : e.sink.isFinished = true → e.dropped = held

/-- In the beginning nothing is applied, and nothing held. -/
theorem Sound.start {sink : Sink κ ε} (hwritten : sink.written = 0)
    (hbatch : 0 < sink.format.batchSize) (capacity : Nat) (s : σ) :
    Sound client sink.format s (start sink capacity s) [] [] where
  tally := by
    show Sink.Tally _ _ false 0 [] ⟨.checking [], sink.written⟩
    rw [hwritten]
    exact .checking (Nat.dvd_zero _) hbatch
  writes := rfl
  receives := rfl
  sends := List.nil_prefix
  queues _ := rfl
  drops := nofun

/-- A message that is accepted is the last one in the channel. -/
theorem Sound.send (h : Sound client format s e applied held) (message : Message κ ε) :
    Sound client format s (step client format e (.send message)) applied held := by
  simp only [step]
  split
  · cases hoffer : e.channel.offer message with
    | accepted channel =>
      refine ⟨h.tally, h.writes, h.receives, ?_, fun hopen => ?_, h.drops⟩
      · exact h.sends.trans (List.prefix_append _ _)
      · show e.sent ++ message.pair?.toList = e.receivedPairs ++ channel.queue.filterMap _
        rw [h.queues hopen, Channel.eq_of_offer hoffer, List.filterMap_append, List.append_assoc]
        cases message <;> rfl
    | refused => exact h
    | full => exact h
  · exact h

/-- A move of the sink that does not fail leads on to more pairs that are applied. -/
theorem Sound.move (hbatch : 0 < format.batchSize) (h : Sound client format s e applied held)
    (hresult : (step client format e .sink).sink.result = .ok ()) :
    ∃ applied' held', Sound client format s (step client format e .sink) applied' held' := by
  simp only [step] at hresult ⊢
  cases hstep : Sink.step client format e.cancelled e.sink e.channel e.client with
  | none => exact ⟨applied, held, h⟩
  | some next =>
    obtain ⟨sink, channel, s'⟩ := next
    rw [hstep] at hresult
    obtain ⟨wrote, held', htally, hpairs, hwrites, hdrops⟩ := h.tally.step hbatch hstep hresult
    have hreceived : (e.received ++ (e.sink.phase.hears e.channel).toList).filterMap
        Reception.pair? = e.receivedPairs ++
          ((e.sink.phase.hears e.channel).bind Reception.pair?).toList := by
      rw [List.filterMap_append, receivedPairs]
      cases e.sink.phase.hears e.channel with
      | none => rfl
      | some reception => cases hpair : reception.pair? <;> simp [hpair]
    have hended : (e.received ++ (e.sink.phase.hears e.channel).toList).any Reception.isEnd =
        (e.ended || (e.sink.phase.hears e.channel).any Reception.isEnd) := by
      rw [List.any_append, ended]
      cases e.sink.phase.hears e.channel <;> simp
    have hopen := (Sink.isFinished_of_step hstep).1
    refine ⟨applied ++ wrote, held', ?_, ?_, ?_, ?_, ?_, ?_⟩
    · rw [List.length_append]
      show Sink.Tally _ _ (List.any _ _) _ _ sink
      rw [hended]
      exact htally
    · rw [MappedStore.runFrom_putAll_append_of_ok h.writes]
      exact hwrites
    · show List.filterMap _ _ = _
      rw [hreceived, h.receives, List.append_assoc, hpairs, List.append_assoc]
    · -- The sink may leave with this move, and the channel is no help then.
      show List.filterMap _ _ <+: e.sent
      rw [hreceived, h.queues hopen]
      exact List.prefix_append_right_inj _ |>.2 (Sink.Phase.hears_prefix _ _)
    · intro hopen'
      show e.sent = List.filterMap _ _ ++ _
      rw [hreceived, h.queues hopen, Sink.queue_of_step hstep hopen', List.append_assoc]
    · intro hfinished
      show (if sink.isFinished then e.sink.phase.held else []) = held'
      rw [if_pos hfinished, hdrops hfinished, h.tally.held_eq hopen]

/-- A move does not undo a failure. -/
theorem result_of_step {move : Move κ ε} (h : (step client format e move).sink.result = .ok ()) :
    e.sink.result = .ok () := by
  cases move with
  | send message =>
    simp only [step] at h
    split at h
    · split at h <;> exact h
    · exact h
  | close => exact h
  | cancel => exact h
  | sink =>
    simp only [step] at h
    split at h
    · next hstep => exact (Sink.isFinished_of_step hstep).2
    · exact h

/-- As long as no write has failed, a sink has applied some of the pairs that it has received and
holds the others, whatever moves there are. -/
theorem Sound.follow (hbatch : 0 < format.batchSize) (h : Sound client format s e applied held)
    {moves : List (Move κ ε)}
    (hresult : (follow client format moves e).sink.result = .ok ()) :
    ∃ applied' held', Sound client format s (follow client format moves e) applied' held' := by
  -- A failure is never undone, so there was none before the last move either.
  induction moves using List.reverseRecOn with
  | nil => exact ⟨applied, held, h⟩
  | append_singleton moves move ih =>
    rw [Scene.follow, List.foldl_append, List.foldl_cons, List.foldl_nil] at hresult ⊢
    obtain ⟨applied', held', hsound⟩ := ih (result_of_step hresult)
    cases move with
    | send message => exact ⟨applied', held', hsound.send message⟩
    | close => exact ⟨applied', held', { hsound with }⟩
    | cancel => exact ⟨applied', held', { hsound with tally := hsound.tally.cancel }⟩
    | sink => exact hsound.move hbatch hresult

/-- A new sink, in whatever surroundings: as long as no write has failed, which would be the result
of the sink, the pairs that are applied are the first ones that were sent. A sink that leaves
without the end of the pairs is cancelled, has applied just the pairs that it reports, which are
whole batches, and has dropped less than a batch. A sink that leaves after the end of the pairs has
applied all that it has received, and reports them. -/
theorem applied_follow (client : Client σ) {sink : Sink κ ε} (hwritten : sink.written = 0)
    (hbatch : 1 ≤ sink.format.batchSize) (capacity : Nat) (s : σ) (moves : List (Move κ ε))
    (hresult :
      (follow client sink.format moves (start sink capacity s)).sink.result = .ok ()) :
    let e := follow client sink.format moves (start sink capacity s)
    (∃ applied, applied <+: e.sent ∧
      (sink.format.store.putAll client applied).runFrom s = (.ok (), e.client)) ∧
    (e.sink.isFinished = true → e.ended = false →
      e.cancelled = true ∧ e.sink.written ≤ e.sent.length ∧
      (sink.format.store.putAll client (e.sent.take e.sink.written)).runFrom s =
        (.ok (), e.client) ∧
      sink.format.batchSize ∣ e.sink.written ∧ e.dropped.length < sink.format.batchSize ∧
      e.receivedPairs = e.sent.take e.sink.written ++ e.dropped) ∧
    (e.sink.isFinished = true → e.ended = true →
      (sink.format.store.putAll client e.receivedPairs).runFrom s = (.ok (), e.client) ∧
      e.sink.written = e.receivedPairs.length) := by
  intro e
  have hstart : Sound client sink.format s (start sink capacity s) [] [] :=
    .start hwritten hbatch capacity s
  obtain ⟨applied, held, hsound⟩ := hstart.follow hbatch hresult
  have hprefix : applied <+: e.sent :=
    (List.prefix_append applied held).trans (hsound.receives ▸ hsound.sends)
  refine ⟨⟨applied, hprefix, hsound.writes⟩, fun hfinished hended => ?_,
    fun hfinished hended => ?_⟩
  · obtain ⟨hcount, -, hleft⟩ := hsound.tally.of_isFinished hfinished
    obtain ⟨hcancelled, hbatches, hdropped⟩ := hleft hended
    -- The pairs that are applied are a prefix, so their number determines them.
    have happlied : e.sent.take e.sink.written = applied := by
      rw [← hcount]
      exact (List.prefix_iff_eq_take.1 hprefix).symm
    rw [happlied, hsound.drops hfinished]
    exact ⟨hcancelled, hcount ▸ hprefix.length_le, hsound.writes, hbatches, hdropped,
      hsound.receives⟩
  · obtain ⟨hcount, hall, -⟩ := hsound.tally.of_isFinished hfinished
    have hreceived : e.receivedPairs = applied := by
      rw [hsound.receives, hall hended, List.append_nil]
    rw [hreceived]
    exact ⟨hsound.writes, hcount.symm⟩

/-- A sink that writes documents in batches of two pairs. -/
def twoByTwo : Sink String Document where
  format := ⟨⟨⟨"String", "polystore.Document", "app", "docs", .empty, {}, {}⟩, .native⟩, 2⟩
  job := .empty
  scratch := "/tmp/sink"

/-- A store with an empty collection for them. -/
def emptyCollection : Memory :=
  .ofList [("app", .ofList [("docs", .empty)])]

/-- Three pairs are sent, and the sink is cancelled when it has written two and received the
third. -/
def interruptedMoves : List (Move String Document) :=
  ["a", "b", "c"].map (fun key => .send (.record key ⟨.empty⟩)) ++
    List.replicate 9 .sink ++ [.cancel, .sink]

/-- The first two pairs are applied, and the third one is dropped. -/
theorem applied_follow_interrupted :
    let e := follow Memory.client twoByTwo.format interruptedMoves
      (start twoByTwo 8 emptyCollection)
    twoByTwo.written = 0 ∧ 1 ≤ twoByTwo.format.batchSize ∧ e.sink.result = .ok () ∧
      e.dropped = [("c", ⟨.empty⟩)] ∧
      (twoByTwo.format.store.putAll Memory.client [("a", ⟨.empty⟩), ("b", ⟨.empty⟩)]).runFrom
        emptyCollection = (.ok (), e.client) := by
  intro e
  have hresult : e.sink.result = .ok () := rfl
  obtain ⟨-, hinterrupted, -⟩ :=
    applied_follow Memory.client rfl (by decide) 8 emptyCollection interruptedMoves hresult
  obtain ⟨-, -, hwrites, -⟩ := hinterrupted rfl rfl
  exact ⟨rfl, by decide, hresult, rfl, hwrites⟩

end Scene

end EntityStore.Bridge
