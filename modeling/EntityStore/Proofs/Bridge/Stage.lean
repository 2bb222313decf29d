import EntityStore.Bridge.Execution
import EntityStore.Proofs.Store.Call

/-!
# The stages of a job

A job that is not cancelled goes through few stages, whatever the order of its moves is: the source
has not read its pairs, the pairs are on their way, the source has sent them all, the sink writes
the last batch, and both have left; or the reading has failed, or a write has.

`Stage` lists them. In each stage the outcome of the whole job is fixed by what is left to do
(`Pipeline.remainder`), as if the pairs that the sink holds, the pairs in the channel and the pairs
that the source has not sent were written one after the other from now on. A move may lead to
another stage, but never to another outcome (`Stage.step`), some move is always possible until both
have left (`Stage.exists_step`), and then the job has the outcome (`Stage.outcome_eq`).
-/

namespace EntityStore.Bridge

variable {σ κ ε : Type}

/-! ## Where the pairs are -/

/-- The message that sends a pair. -/
def Message.ofPair (pair : κ × ε) : Message κ ε :=
  .record pair.1 pair.2

/-- The pairs that a source has read and not sent, unless it has not read them or has left. -/
def Source.Phase.unsent? : Source.Phase κ ε → Option (List (κ × ε))
  | ready rest => some rest
  | offering pair rest => some (pair :: rest)
  | ending => some []
  | reading | finished _ => none

/-- A source that has pairs to send has read them. -/
theorem Source.Phase.unread_of_unsent? {source : Source.Phase κ ε} {unsent : List (κ × ε)}
    (h : source.unsent? = some unsent) : source.unread = 0 := by
  cases source with
  | reading => cases h
  | _ => rfl

/-- The pairs that a sink has received and not written. -/
def Sink.Phase.held : Sink.Phase κ ε → List (κ × ε)
  | checking pending | taking pending => pending
  | writing _ rest _ => rest
  | finished _ => []

/-- Does the sink go on to look into the channel? -/
def Sink.Phase.goesOn : Sink.Phase κ ε → Bool
  | checking _ | taking _ => true
  | writing _ _ last => !last
  | finished _ => false

/-- The number of pairs that a sink will have written once it has written those that it holds. -/
def Sink.Progress.counted (p : Sink.Progress κ ε) : Nat :=
  p.written + match p.phase with
    | .checking pending | .taking pending => pending.length
    | .writing size _ _ => size
    | .finished _ => 0

/-- After a pair a sink goes on, whether it writes a batch or not, and holds all that it has. -/
theorem Sink.afterRecord_eq (batchSize written : Nat) (pending : List (κ × ε)) :
    (afterRecord batchSize pending).goesOn = true ∧
      (afterRecord batchSize pending).held = pending ∧
      (⟨afterRecord batchSize pending, written⟩ : Progress κ ε).counted =
        written + pending.length := by
  unfold afterRecord
  split <;> exact ⟨rfl, rfl, rfl⟩

/-! ## What a source does in one move -/

/-- A source that has read its pairs does not touch the client. -/
theorem Feed.step_of_unread_eq_zero {feed : Feed σ κ ε} {cancelled : Bool}
    {phase : Source.Phase κ ε} {channel : Channel κ ε} {s : σ}
    {next : Source.Phase κ ε × Channel κ ε × σ} (hphase : phase.unread = 0)
    (h : feed.step cancelled phase channel s = some next) :
    next.1.unread = 0 ∧ next.2.1.receiverOpen = channel.receiverOpen ∧ next.2.2 = s := by
  obtain ⟨hopen, hunread⟩ := Feed.step_measure h
  refine ⟨by omega, hopen, ?_⟩
  have hclose : (feed.close channel s).2.2 = s := by
    unfold Feed.close
    split <;> rfl
  cases phase with
  | reading => cases hphase
  | ready pairs =>
    cases pairs with
    | nil =>
      obtain rfl := Option.some.inj h
      exact hclose
    | cons pair rest =>
      simp only [Feed.step] at h
      split at h <;> obtain rfl := Option.some.inj h
      · exact hclose
      · rfl
  | offering pair rest =>
    simp only [Feed.step] at h
    split at h
    · obtain rfl := Option.some.inj h
      rfl
    · split at h <;> obtain rfl := Option.some.inj h
      · exact hclose
      · rfl
    · cases h
  | ending =>
    simp only [Feed.step] at h
    split at h
    · obtain rfl := Option.some.inj h
      rfl
    · obtain rfl := Option.some.inj h
      rfl
    · cases h
  | finished result => cases h

/-- As long as the receiver is there, a message is accepted or has to wait. -/
theorem Channel.offer_of_receiverOpen {channel : Channel κ ε} (hopen : channel.receiverOpen = true)
    (message : Message κ ε) :
    channel.offer message = .accepted { channel with queue := channel.queue ++ [message] } ∨
      channel.offer message = .full := by
  unfold Channel.offer
  rw [hopen]
  by_cases hroom : channel.queue.length < channel.capacity
  · exact .inl (by simp [hroom])
  · exact .inr (by simp [hroom])

/-- What a source that has read its pairs does in one move while the receiver is there: it has the
same pairs to send afterwards, or it sends the first of them, or, if there are none, their end. -/
theorem Feed.step_of_unsent {feed : Feed σ κ ε} (hfailure : feed.failure = none)
    {source source' : Source.Phase κ ε} {unsent : List (κ × ε)}
    (hsource : source.unsent? = some unsent) {channel channel' : Channel κ ε}
    (hopen : channel.receiverOpen = true) {s s' : σ}
    (h : feed.step false source channel s = some (source', channel', s')) :
    s' = s ∧ (source'.unsent? = some unsent ∧ channel' = channel ∨
      (∃ pair rest, unsent = pair :: rest ∧ source'.unsent? = some rest ∧
        channel' = { channel with queue := channel.queue ++ [.ofPair pair] }) ∨
      unsent = [] ∧ source' = .finished (.ok ()) ∧
        channel' = { channel with queue := channel.queue ++ [.eos], senderOpen := false }) := by
  cases source with
  | reading => cases hsource
  | finished result => cases hsource
  | ready pairs =>
    obtain rfl := Option.some.inj hsource
    cases pairs with
    | nil =>
      obtain ⟨rfl, rfl, rfl⟩ : .ending = source' ∧ channel = channel' ∧ s = s' := by
        simpa [Feed.step, Feed.close, hfailure] using h
      exact ⟨rfl, .inl ⟨rfl, rfl⟩⟩
    | cons pair rest =>
      obtain ⟨rfl, rfl, rfl⟩ : .offering pair rest = source' ∧ channel = channel' ∧ s = s' := by
        simpa [Feed.step] using h
      exact ⟨rfl, .inl ⟨rfl, rfl⟩⟩
  | offering pair rest =>
    obtain rfl := Option.some.inj hsource
    rw [Feed.step] at h
    rcases channel.offer_of_receiverOpen hopen (.record pair.1 pair.2) with hoffer | hoffer
    · rw [hoffer] at h
      obtain ⟨rfl, rfl, rfl⟩ := Option.some.inj h
      exact ⟨rfl, .inr (.inl ⟨pair, rest, rfl, rfl, rfl⟩)⟩
    · rw [hoffer] at h
      cases h
  | ending =>
    obtain rfl := Option.some.inj hsource
    rw [Feed.step] at h
    rcases channel.offer_of_receiverOpen hopen .eos with hoffer | hoffer
    · rw [hoffer] at h
      obtain ⟨rfl, rfl, rfl⟩ := Option.some.inj h
      exact ⟨rfl, .inr (.inr ⟨rfl, rfl, rfl⟩)⟩
    · rw [hoffer] at h
      cases h

/-- A source that has read its pairs and goes on waits only for a full channel. -/
theorem Feed.isSome_step_of_unsent (feed : Feed σ κ ε) {source : Source.Phase κ ε}
    {unsent : List (κ × ε)} (hsource : source.unsent? = some unsent) {channel : Channel κ ε}
    (hroom : channel.receiverOpen = true → channel.queue.length < channel.capacity) (s : σ) :
    (feed.step false source channel s).isSome := by
  -- A source waits for nothing but room in the channel.
  have hoffer : ∀ message, channel.offer message ≠ .full := by
    intro message hfull
    unfold Channel.offer at hfull
    cases hopen : channel.receiverOpen with
    | true => simp [hopen, hroom hopen] at hfull
    | false => simp [hopen] at hfull
  cases source with
  | reading => cases hsource
  | finished result => cases hsource
  | ready pairs => cases pairs <;> rfl
  | offering pair rest =>
    simp only [Feed.step]
    cases hresult : channel.offer (.record pair.1 pair.2) with
    | accepted channel' => rfl
    | refused => rfl
    | full => exact absurd hresult (hoffer _)
  | ending =>
    simp only [Feed.step]
    cases hresult : channel.offer (.eos) with
    | accepted channel' => rfl
    | refused => rfl
    | full => exact absurd hresult (hoffer _)

namespace Pipeline

variable [Key κ] [Entity ε]

/-- Writes pairs one after the other, and reports a number if all are written. -/
def copy (p : Pipeline σ κ ε) (pairs : List (κ × ε)) (written : Nat) : Call σ Nat := do
  p.format.store.putAll p.client pairs
  return written

/-- After a pair that is written the others are. -/
theorem runFrom_copy_cons_of_ok {p : Pipeline σ κ ε} {pair : κ × ε} {s s' : σ}
    (h : (p.format.store.put p.client pair.1 pair.2).runFrom s = (.ok (), s'))
    (rest : List (κ × ε)) (written : Nat) :
    (p.copy (pair :: rest) written).runFrom s = (p.copy rest written).runFrom s' := by
  rw [copy, copy, Call.runFrom_bind, MappedStore.runFrom_putAll_cons_of_ok h, Call.runFrom_bind]

/-- After a pair that is not written none is. -/
theorem runFrom_copy_cons_of_error {p : Pipeline σ κ ε} {pair : κ × ε} {s s' : σ} {e : Error}
    (h : (p.format.store.put p.client pair.1 pair.2).runFrom s = (.error e, s'))
    (rest : List (κ × ε)) (written : Nat) :
    (p.copy (pair :: rest) written).runFrom s = (.error e, s') := by
  rw [copy, Call.runFrom_bind, MappedStore.runFrom_putAll_cons_of_error h]

/-- What is left to do if the sink receives certain pairs: to write them after those it holds. -/
def remainder (p : Pipeline σ κ ε) (sink : Sink.Progress κ ε) (pairs : List (κ × ε)) :
    Call σ Nat :=
  p.copy (sink.phase.held ++ pairs) (sink.counted + pairs.length)

/-! ## Stages -/

/-- Where a job stands that is not cancelled, with the outcome that it will have: its result, with
the number of pairs that the sink has written, and the state of the client. -/
inductive Stage (p : Pipeline σ κ ε) (outcome : Except Error Nat × σ) : Execution σ κ ε → Prop where
  /-- The source has not read its pairs, and the sink has nothing. -/
  | reading {capacity written : Nat} {phase : Sink.Phase κ ε} {s : σ} (hcapacity : 0 < capacity)
      (hsink : phase = .checking [] ∨ phase = .taking [])
      (houtcome : outcome =
        (p.feed.read >>= fun pairs => p.copy pairs (written + pairs.length)).runFrom s) :
      Stage p outcome ⟨.reading, { capacity }, ⟨phase, written⟩, false, s⟩
  /-- The source has read its pairs, and both go on. -/
  | copying {capacity : Nat} {source : Source.Phase κ ε} {sink : Sink.Progress κ ε}
      {sent unsent : List (κ × ε)} {s : σ} (hcapacity : 0 < capacity)
      (hsource : source.unsent? = some unsent) (hsink : sink.phase.goesOn = true)
      (houtcome : outcome = (p.remainder sink (sent ++ unsent)).runFrom s) :
      Stage p outcome ⟨source, { capacity, queue := sent.map .ofPair }, sink, false, s⟩
  /-- The source has sent all its pairs and their end. -/
  | draining {capacity : Nat} {sink : Sink.Progress κ ε} {sent : List (κ × ε)} {s : σ}
      (hsink : sink.phase.goesOn = true)
      (houtcome : outcome = (p.remainder sink sent).runFrom s) :
      Stage p outcome ⟨.finished (.ok ()),
        { capacity, queue := sent.map .ofPair ++ [.eos], senderOpen := false }, sink, false, s⟩
  /-- The sink has received the end of the pairs and writes the last batch. -/
  | writingLast {capacity size written : Nat} {rest : List (κ × ε)} {s : σ}
      (houtcome : outcome = (p.copy rest (written + size)).runFrom s) :
      Stage p outcome ⟨.finished (.ok ()), { capacity, senderOpen := false },
        ⟨.writing size rest true, written⟩, false, s⟩
  /-- Everything is written, and both have left. -/
  | done {capacity written : Nat} {s : σ} (houtcome : outcome = (.ok written, s)) :
      Stage p outcome ⟨.finished (.ok ()),
        { capacity, senderOpen := false, receiverOpen := false },
        ⟨.finished (.ok ()), written⟩, false, s⟩
  /-- The reading has failed, and the sink, which has nothing, will find that out. -/
  | unread {capacity written : Nat} {phase : Sink.Phase κ ε} {e : Error} {s : σ}
      (hsink : phase = .checking [] ∨ phase = .taking []) (houtcome : outcome = (.error e, s)) :
      Stage p outcome ⟨.finished (.error e), { capacity, senderOpen := false }, ⟨phase, written⟩,
        false, s⟩
  /-- The reading has failed, and both have left. -/
  | abandoned {capacity written : Nat} {e : Error} {s : σ} (houtcome : outcome = (.error e, s)) :
      Stage p outcome ⟨.finished (.error e),
        { capacity, senderOpen := false, receiverOpen := false },
        ⟨.finished (.ok ()), written⟩, false, s⟩
  /-- A write has failed, and the source, which has read its pairs, will find that out. -/
  | failed {source : Source.Phase κ ε} {channel : Channel κ ε} {written : Nat} {e : Error} {s : σ}
      (hsource : source.unread = 0) (hchannel : channel.receiverOpen = false)
      (houtcome : outcome = (.error e, s)) :
      Stage p outcome ⟨source, channel, ⟨.finished (.error e), written⟩, false, s⟩

/-! ## Moves of the source -/

/-- A move of the source leads to a stage with the same outcome. -/
theorem Stage.step_source {p : Pipeline σ κ ε} {outcome : Except Error Nat × σ}
    {e e' : Execution σ κ ε} (hfeed : p.feed.failure = none) (h : p.Stage outcome e)
    (hstep : p.step .source e = some e') : p.Stage outcome e' := by
  obtain ⟨⟨source', channel', s'⟩, hnext, rfl⟩ := Option.map_eq_some_iff.1 hstep
  cases h with
  | reading hcapacity hsink houtcome =>
    rename_i capacity written phase s
    -- The sink has received nothing, so the pairs that are read are all that there is to write.
    have hsink' : phase.goesOn = true ∧ phase.held = [] ∧
        (⟨phase, written⟩ : Sink.Progress κ ε).counted = written := by
      rcases hsink with rfl | rfl <;> exact ⟨rfl, rfl, rfl⟩
    rw [Call.runFrom_bind] at houtcome
    simp only [Feed.step] at hnext
    cases hread : p.feed.read.runFrom s with
    | mk result s₁ =>
      rw [hread] at hnext houtcome
      cases result with
      | ok pairs =>
        obtain ⟨rfl, rfl, rfl⟩ : .ready pairs = source' ∧ _ = channel' ∧ s₁ = s' := by
          simpa using hnext
        have hcopy : outcome = (p.remainder ⟨phase, written⟩ ([] ++ pairs)).runFrom s₁ := by
          rw [remainder, hsink'.2.1, hsink'.2.2, houtcome]
          rfl
        exact .copying hcapacity rfl hsink'.1 hcopy
      | error e =>
        obtain ⟨rfl, rfl, rfl⟩ : .finished (.error e) = source' ∧ _ = channel' ∧ s₁ = s' := by
          simpa [Feed.leave] using hnext
        exact .unread hsink houtcome
  | copying hcapacity hsource hsink houtcome =>
    rename_i capacity source sink sent unsent s
    obtain ⟨rfl, hmove⟩ := Feed.step_of_unsent hfeed hsource rfl hnext
    rcases hmove with ⟨hunsent, rfl⟩ | ⟨pair, rest, rfl, hunsent, rfl⟩ | ⟨rfl, rfl, rfl⟩
    · exact .copying hcapacity hunsent hsink houtcome
    · -- The pair moves from the front of those that are not sent to the end of those that are.
      have hqueue : sent.map Message.ofPair ++ [Message.ofPair pair] =
          (sent ++ [pair]).map Message.ofPair := by
        rw [List.map_append, List.map_singleton]
      have hpairs : sent ++ pair :: rest = sent ++ [pair] ++ rest := by
        rw [List.append_assoc, List.singleton_append]
      rw [hpairs] at houtcome
      rw [hqueue]
      exact .copying hcapacity hunsent hsink houtcome
    · rw [List.append_nil] at houtcome
      exact .draining hsink houtcome
  | draining => cases hnext
  | writingLast => cases hnext
  | done => cases hnext
  | unread => cases hnext
  | abandoned => cases hnext
  | failed hsource hchannel houtcome =>
    obtain ⟨hunread, hopen, rfl⟩ := Feed.step_of_unread_eq_zero hsource hnext
    exact .failed hunread (hopen.trans hchannel) houtcome

/-! ## Moves of the sink -/

/-- A sink that receives a pair has the same to do as before. -/
theorem remainder_afterRecord (p : Pipeline σ κ ε) (batchSize written : Nat)
    (pending : List (κ × ε)) (pair : κ × ε) (others : List (κ × ε)) :
    p.remainder ⟨.taking pending, written⟩ (pair :: others) =
      p.remainder ⟨Sink.afterRecord batchSize (pending ++ [pair]), written⟩ others := by
  obtain ⟨-, hheld, hcounted⟩ := Sink.afterRecord_eq batchSize written (pending ++ [pair])
  have hcount : written + pending.length + (pair :: others).length =
      written + (pending ++ [pair]).length + others.length := by
    simp only [List.length_append, List.length_cons, List.length_nil]
    omega
  rw [remainder, remainder, hheld, hcounted, ← hcount, List.append_assoc]
  rfl

/-- What a sink that goes on does in one move while there are pairs in the channel, with more
messages behind them: it has the same to do afterwards, or it fails to write the first of the pairs
that it holds, or it looks at what is behind the pairs because there are none. -/
theorem step_of_goesOn {p : Pipeline σ κ ε} {sink sink' : Sink.Progress κ ε}
    (hgoes : sink.phase.goesOn = true) {channel channel' : Channel κ ε} {sent : List (κ × ε)}
    {behind : List (Message κ ε)} (hqueue : channel.queue = sent.map .ofPair ++ behind) {s s' : σ}
    (h : Sink.step p.client p.format false sink channel s = some (sink', channel', s')) :
    (∃ left, sink'.phase.goesOn = true ∧
      channel' = { channel with queue := left.map .ofPair ++ behind } ∧
      ∀ others, (p.remainder sink (sent ++ others)).runFrom s =
        (p.remainder sink' (left ++ others)).runFrom s') ∨
    (∃ e, sink'.phase = .finished (.error e) ∧ channel' = channel.closeReceiver ∧
      ∀ others, (p.remainder sink (sent ++ others)).runFrom s = (.error e, s')) ∨
    sent = [] ∧ ∃ pending, sink.phase = .taking pending := by
  obtain ⟨phase, written⟩ := sink
  cases phase with
  | checking pending =>
    obtain ⟨rfl, rfl, rfl⟩ := Option.some.inj h
    exact .inl ⟨sent, rfl, by rw [← hqueue], fun _ => rfl⟩
  | taking pending =>
    cases sent with
    | nil => exact .inr (.inr ⟨rfl, pending, rfl⟩)
    | cons pair left =>
      have hreceive : channel.receive = .message (.record pair.1 pair.2)
          { channel with queue := left.map .ofPair ++ behind } := by
        rw [Channel.receive, hqueue]
        rfl
      simp only [Sink.step, hreceive] at h
      obtain ⟨rfl, rfl, rfl⟩ := Option.some.inj h
      refine .inl ⟨left, (Sink.afterRecord_eq _ written _).1, rfl, fun others => ?_⟩
      exact congrArg (Call.runFrom · s) (p.remainder_afterRecord _ _ _ _ _)
  | finished result => cases hgoes
  | writing size rest last =>
    obtain rfl : last = false := by simpa [Sink.Phase.goesOn] using hgoes
    cases rest with
    | nil =>
      obtain ⟨rfl, rfl, rfl⟩ := Option.some.inj h
      exact .inl ⟨sent, rfl, by rw [← hqueue], fun _ => rfl⟩
    | cons pair rest =>
      simp only [Sink.step] at h
      split at h
      · next hput =>
        obtain ⟨rfl, rfl, rfl⟩ := Option.some.inj h
        exact .inl ⟨sent, rfl, by rw [← hqueue], fun _ => runFrom_copy_cons_of_ok hput _ _⟩
      · next e s₁ hput =>
        obtain ⟨rfl, rfl, rfl⟩ := Option.some.inj h
        exact .inr (.inl ⟨e, rfl, rfl, fun _ => runFrom_copy_cons_of_error hput _ _⟩)

/-- A move of the sink leads to a stage with the same outcome. -/
theorem Stage.step_sink {p : Pipeline σ κ ε} {outcome : Except Error Nat × σ}
    {e e' : Execution σ κ ε} (h : p.Stage outcome e) (hstep : p.step .sink e = some e') :
    p.Stage outcome e' := by
  obtain ⟨⟨sink', channel', s'⟩, hnext, rfl⟩ := Option.map_eq_some_iff.1 hstep
  cases h with
  | reading hcapacity hsink houtcome =>
    rcases hsink with rfl | rfl
    · obtain ⟨rfl, rfl, rfl⟩ := Option.some.inj hnext
      exact .reading hcapacity (.inr rfl) houtcome
    · cases hnext
  | copying hcapacity hsource hsink houtcome =>
    rename_i capacity source sink sent unsent s
    rcases step_of_goesOn hsink (List.append_nil _).symm hnext with
      ⟨left, hgoes, rfl, hsame⟩ | ⟨e, hphase, rfl, hfail⟩ | ⟨rfl, pending, hpending⟩
    · rw [List.append_nil]
      exact .copying hcapacity hsource hgoes (houtcome.trans (hsame unsent))
    · obtain ⟨phase', written'⟩ := sink'
      obtain rfl : phase' = .finished (.error e) := hphase
      have hunread := Source.Phase.unread_of_unsent? hsource
      exact .failed hunread rfl (houtcome.trans (hfail unsent))
    · -- The channel is empty and the source may still send, so the sink has to wait.
      obtain ⟨phase, written⟩ := sink
      obtain rfl : phase = .taking pending := hpending
      cases hnext
  | draining hsink houtcome =>
    rename_i capacity sink sent s
    rw [← List.append_nil sent] at houtcome
    rcases step_of_goesOn hsink rfl hnext with
      ⟨left, hgoes, rfl, hsame⟩ | ⟨e, hphase, rfl, hfail⟩ | ⟨rfl, pending, hpending⟩
    · -- There is nothing left to send, so the pairs in the channel are the last ones.
      have hleft := houtcome.trans (hsame [])
      rw [List.append_nil] at hleft
      exact .draining hgoes hleft
    · obtain ⟨phase', written'⟩ := sink'
      obtain rfl : phase' = .finished (.error e) := hphase
      exact .failed rfl rfl (houtcome.trans (hfail []))
    · -- The end of the pairs is next, and the sink writes those that it holds, if there are any.
      obtain ⟨phase, written⟩ := sink
      obtain rfl : phase = .taking pending := hpending
      have hend : Sink.afterEnd ⟨.taking pending, written⟩ pending
          { capacity, senderOpen := false } s = (sink', channel', s') := Option.some.inj hnext
      cases pending with
      | nil =>
        obtain ⟨rfl, rfl, rfl⟩ := hend
        exact .done houtcome
      | cons pair rest =>
        obtain ⟨rfl, rfl, rfl⟩ := hend
        exact .writingLast (by simpa [remainder, Sink.Phase.held, Sink.Progress.counted] using
          houtcome)
  | writingLast houtcome =>
    rename_i capacity size written rest s
    cases rest with
    | nil =>
      obtain ⟨rfl, rfl, rfl⟩ := Option.some.inj hnext
      exact .done houtcome
    | cons pair rest =>
      simp only [Sink.step] at hnext
      split at hnext
      · next hput =>
        obtain ⟨rfl, rfl, rfl⟩ := Option.some.inj hnext
        exact .writingLast (houtcome.trans (runFrom_copy_cons_of_ok hput _ _))
      · next e s₁ hput =>
        obtain ⟨rfl, rfl, rfl⟩ := Option.some.inj hnext
        exact .failed rfl rfl (houtcome.trans (runFrom_copy_cons_of_error hput _ _))
  | done => cases hnext
  | unread hsink houtcome =>
    rcases hsink with rfl | rfl
    · obtain ⟨rfl, rfl, rfl⟩ := Option.some.inj hnext
      exact .unread (.inr rfl) houtcome
    · obtain ⟨rfl, rfl, rfl⟩ := Option.some.inj hnext
      exact .abandoned houtcome
  | abandoned => cases hnext
  | failed hsource hchannel houtcome => cases hnext

/-- A move of the source or the sink leads to a stage with the same outcome. -/
theorem Stage.step {p : Pipeline σ κ ε} {outcome : Except Error Nat × σ} {actor : Actor}
    {e e' : Execution σ κ ε} (hfeed : p.feed.failure = none) (hactor : actor ≠ .canceller)
    (h : p.Stage outcome e) (hstep : p.step actor e = some e') : p.Stage outcome e' := by
  cases actor with
  | source => exact h.step_source hfeed hstep
  | sink => exact h.step_sink hstep
  | canceller => exact absurd rfl hactor

/-! ## The end -/

/-- A sink that goes on waits only for an empty channel. -/
theorem isSome_step_of_goesOn (p : Pipeline σ κ ε) {sink : Sink.Progress κ ε}
    (hgoes : sink.phase.goesOn = true) {channel : Channel κ ε} (hqueue : channel.queue ≠ [])
    (s : σ) : (Sink.step p.client p.format false sink channel s).isSome := by
  obtain ⟨phase, written⟩ := sink
  cases phase with
  | checking pending => rfl
  | taking pending =>
    cases hmessages : channel.queue with
    | nil => exact absurd hmessages hqueue
    | cons message rest =>
      cases message with
      | record key entity => simp [Sink.step, Channel.receive, hmessages]
      | eos => simp [Sink.step, Channel.receive, hmessages]
  | writing size rest last =>
    cases rest with
    | nil => cases last <;> rfl
    | cons pair rest =>
      simp only [Sink.step]
      split <;> rfl
  | finished result => cases hgoes

/-- As long as the source or the sink has not left, one of them can make a move. -/
theorem Stage.exists_step {p : Pipeline σ κ ε} {outcome : Except Error Nat × σ}
    {e : Execution σ κ ε} (h : p.Stage outcome e) (hfinished : e.isFinished = false) :
    (p.step .source e).isSome ∨ (p.step .sink e).isSome := by
  unfold Pipeline.step
  simp only [Option.isSome_map]
  cases h with
  | reading hcapacity hsink houtcome =>
    refine .inl ?_
    simp only [Feed.step]
    split <;> rfl
  | copying hcapacity hsource hsink houtcome =>
    rename_i capacity source sink sent unsent s
    by_cases hempty : sent = []
    · -- The channel has room for one message at least, so the source does not have to wait.
      subst hempty
      refine .inl (p.feed.isSome_step_of_unsent hsource ?_ s)
      exact fun _ => hcapacity
    · refine .inr (isSome_step_of_goesOn p hsink ?_ s)
      exact fun h => hempty (List.map_eq_nil_iff.1 h)
  | draining hsink houtcome =>
    refine .inr (isSome_step_of_goesOn p hsink ?_ _)
    exact List.append_ne_nil_of_right_ne_nil _ (List.cons_ne_nil _ _)
  | writingLast houtcome =>
    rename_i capacity size written rest s
    refine .inr ?_
    cases rest with
    | nil => rfl
    | cons pair rest =>
      simp only [Sink.step]
      split <;> rfl
  | done => cases hfinished
  | unread hsink houtcome => rcases hsink with rfl | rfl <;> exact .inr rfl
  | abandoned => cases hfinished
  | failed hsource hchannel houtcome =>
    rename_i source channel written error s
    -- The sink has left, so that the source is refused whatever it offers, and does not wait.
    cases hunsent : source.unsent? with
    | some unsent =>
      refine .inl (p.feed.isSome_step_of_unsent hunsent (fun hopen => ?_) s)
      rw [hchannel] at hopen
      cases hopen
    | none =>
      cases source with
      | reading => cases hsource
      | ready rest => cases hunsent
      | offering pair rest => cases hunsent
      | ending => cases hunsent
      | finished result => cases hfinished

/-- A job that both have left has the outcome of its stage. -/
theorem Stage.outcome_eq {p : Pipeline σ κ ε} {outcome : Except Error Nat × σ}
    {e : Execution σ κ ε} (h : p.Stage outcome e) (hfinished : e.isFinished = true) :
    (e.result.map fun _ => e.sink.written, e.client) = outcome := by
  cases h with
  | reading => cases hfinished
  | copying hcapacity hsource hsink houtcome =>
    rename_i capacity source sink sent unsent s
    cases source with
    | finished result => cases hsource
    | _ => cases hfinished
  | draining hsink houtcome =>
    rename_i capacity sink sent s
    obtain ⟨phase, written⟩ := sink
    cases phase with
    | finished result => cases hsink
    | _ => cases hfinished
  | writingLast => cases hfinished
  | done houtcome => exact houtcome.symm
  | unread hsink => rcases hsink with rfl | rfl <;> cases hfinished
  | abandoned houtcome => exact houtcome.symm
  | failed hsource hchannel houtcome => exact houtcome.symm

end Pipeline

end EntityStore.Bridge
