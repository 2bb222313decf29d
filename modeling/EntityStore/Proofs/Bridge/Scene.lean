import EntityStore.Proofs.Bridge.Beginning

/-!
# A sink in its surroundings

A sink may have any surroundings: a source that a job is executed with, one that leaves without
sending the end of the pairs, or one that goes on after it. So the surroundings are just a sequence
of moves here (`Move`): messages are sent, the senders leave, somebody cancels, and the sink makes
its own moves in between. A `Scene` is the state of all that, with the pairs that were sent and what
the sink has received and dropped.

A job whose source does not change the client and whose sink gets its buffer is such a scene,
whatever its schedule is (`Pipeline.exists_shows`).
-/

namespace EntityStore.Bridge

variable {σ κ ε : Type}

/-! ## What a sink does in one move -/

/-- The pair that a message sends, if it is not the end of the pairs. -/
def Message.pair? : Message κ ε → Option (κ × ε)
  | record key entity => some (key, entity)
  | eos => none

/-- A message that is received is the oldest one in the queue. -/
theorem Channel.eq_of_receive {channel channel' : Channel κ ε} {message : Message κ ε}
    (h : channel.receive = .message message channel') :
    channel = { channel' with queue := message :: channel'.queue } := by
  obtain ⟨capacity, queue, senderOpen, receiverOpen⟩ := channel
  cases queue with
  | nil => cases senderOpen <;> cases h
  | cons head rest =>
    obtain ⟨rfl, rfl⟩ := Receipt.message.inj h
    rfl

/-- A message that is accepted is the latest one in the queue. -/
theorem Channel.eq_of_offer {channel channel' : Channel κ ε} {message : Message κ ε}
    (h : channel.offer message = .accepted channel') :
    channel' = { channel with queue := channel.queue ++ [message] } := by
  unfold offer at h
  split at h
  · cases h
  · split at h
    · exact (Offer.accepted.inj h).symm
    · cases h

/-- What a sink takes from the channel in its next move, if it takes anything. -/
def Sink.Phase.hears (phase : Phase κ ε) (channel : Channel κ ε) : Option (Reception κ ε) :=
  match phase with
  | .taking _ =>
    match channel.receive with
    | .message message _ => some (.message message)
    | .closed => some .closed
    | .empty => none
  | _ => none

/-- A receiver finds the end of the pairs: it is the next message, or the channel is closed. -/
inductive Channel.EndsWith (channel : Channel κ ε) : Reception κ ε → Channel κ ε → Prop where
  /-- The end of the pairs is the next message. -/
  | eos {rest : Channel κ ε} (h : channel.receive = .message .eos rest) :
    EndsWith channel (.message .eos) rest
  /-- There is no message any more. -/
  | closed (h : channel.receive = .closed) : EndsWith channel .closed channel

/-- What a sink does in one move, with what it takes from the channel. -/
inductive Sink.Advance [Key κ] [Entity ε] (client : Client σ) (format : OutputFormat κ ε)
    (cancelled : Bool) (channel : Channel κ ε) (s : σ) :
    Option (Reception κ ε) → Progress κ ε → Progress κ ε × Channel κ ε × σ → Prop where
  /-- It is not cancelled and will look into the channel. -/
  | looks {pending : List (κ × ε)} {written : Nat} (hcancelled : cancelled = false) :
    Advance client format cancelled channel s none ⟨.checking pending, written⟩
      (⟨.taking pending, written⟩, channel, s)
  /-- It is cancelled and drops what it has, perhaps when it has found nothing in the channel. -/
  | quits {phase : Phase κ ε} {pending : List (κ × ε)} {written : Nat}
      (hcancelled : cancelled = true)
      (hphase : phase = .checking pending ∨ phase = .taking pending) :
    Advance client format cancelled channel s none ⟨phase, written⟩
      (⟨.finished (.ok ()), written⟩, channel.closeReceiver, s)
  /-- It takes a pair. -/
  | takes {pending : List (κ × ε)} {written : Nat} {key : κ} {entity : ε} {rest : Channel κ ε}
      (hreceive : channel.receive = .message (.record key entity) rest) :
    Advance client format cancelled channel s (some (.message (.record key entity)))
      ⟨.taking pending, written⟩
      (⟨afterRecord format.batchSize (pending ++ [(key, entity)]), written⟩, rest, s)
  /-- It finds the end of the pairs, and has to write what it has. -/
  | drains {pending : List (κ × ε)} {written : Nat} {found : Reception κ ε} {rest : Channel κ ε}
      (hend : channel.EndsWith found rest) :
    Advance client format cancelled channel s (some found) ⟨.taking pending, written⟩
      (⟨.writing pending.length pending true, written⟩, rest, s)
  /-- It finds the end of the pairs, and has none. -/
  | leaves {written : Nat} {found : Reception κ ε} {rest : Channel κ ε}
      (hend : channel.EndsWith found rest) :
    Advance client format cancelled channel s (some found) ⟨.taking [], written⟩
      (⟨.finished (.ok ()), written⟩, rest.closeReceiver, s)
  /-- It writes a pair. -/
  | writes {size written : Nat} {pair : κ × ε} {rest : List (κ × ε)} {last : Bool} {s' : σ}
      (hput : (format.store.put client pair.1 pair.2).runFrom s = (.ok (), s')) :
    Advance client format cancelled channel s none ⟨.writing size (pair :: rest) last, written⟩
      (⟨.writing size rest last, written⟩, channel, s')
  /-- It fails to write a pair. -/
  | fails {size written : Nat} {pair : κ × ε} {rest : List (κ × ε)} {last : Bool} {e : Error}
      {s' : σ} (hput : (format.store.put client pair.1 pair.2).runFrom s = (.error e, s')) :
    Advance client format cancelled channel s none ⟨.writing size (pair :: rest) last, written⟩
      (⟨.finished (.error e), written⟩, channel.closeReceiver, s')
  /-- It has written a batch. -/
  | fills {size written : Nat} :
    Advance client format cancelled channel s none ⟨.writing size [] false, written⟩
      (⟨.checking [], written + size⟩, channel, s)
  /-- It has written the last batch. -/
  | completes {size written : Nat} :
    Advance client format cancelled channel s none ⟨.writing size [] true, written⟩
      (⟨.finished (.ok ()), written + size⟩, channel.closeReceiver, s)

/-- A sink does nothing else. -/
theorem Sink.step_cases [Key κ] [Entity ε] {client : Client σ} {format : OutputFormat κ ε}
    {cancelled : Bool} {p : Progress κ ε} {channel : Channel κ ε} {s : σ}
    {next : Progress κ ε × Channel κ ε × σ}
    (h : step client format cancelled p channel s = some next) :
    Advance client format cancelled channel s (p.phase.hears channel) p next := by
  obtain ⟨phase, written⟩ := p
  cases phase with
  | checking pending =>
    simp only [step] at h
    split at h <;> obtain rfl := Option.some.inj h
    · next hcancelled => exact .quits hcancelled (.inl rfl)
    · next hcancelled => exact .looks (Bool.eq_false_iff.2 hcancelled)
  | taking pending =>
    -- The end of the pairs as a message and a closed channel come to the same.
    have hend {found : Reception κ ε} {rest : Channel κ ε} (hfound : channel.EndsWith found rest) :
        Advance client format cancelled channel s (some found) ⟨.taking pending, written⟩
          (afterEnd ⟨.taking pending, written⟩ pending rest s) := by
      unfold afterEnd
      cases pending with
      | nil => exact .leaves hfound
      | cons pair others => exact .drains hfound
    simp only [step] at h
    simp only [Phase.hears]
    cases hreceive : channel.receive with
    | message message rest =>
      rw [hreceive] at h
      cases message with
      | record key entity =>
        obtain rfl := Option.some.inj h
        exact .takes hreceive
      | eos =>
        obtain rfl := Option.some.inj h
        exact hend (.eos hreceive)
    | closed =>
      rw [hreceive] at h
      obtain rfl := Option.some.inj h
      exact hend (.closed hreceive)
    | empty =>
      rw [hreceive] at h
      cases cancelled with
      | false => cases h
      | true =>
        obtain rfl := Option.some.inj h
        exact .quits rfl (.inr rfl)
  | writing size rest last =>
    cases rest with
    | nil =>
      cases last with
      | false =>
        obtain rfl := Option.some.inj h
        exact .fills
      | true =>
        obtain rfl := Option.some.inj h
        exact .completes
    | cons pair rest =>
      simp only [step] at h
      split at h
      · next hput =>
        obtain rfl := Option.some.inj h
        exact .writes hput
      · next hput =>
        obtain rfl := Option.some.inj h
        exact .fails hput
  | finished result => cases h

/-! ## Scenes -/

/-- A move of a sink, or of its surroundings. -/
inductive Move (κ ε : Type) where
  /-- Somebody sends a message, if there is room for it. -/
  | send (message : Message κ ε)
  /-- All that could send leave. -/
  | close
  /-- Somebody cancels the sink. -/
  | cancel
  /-- The sink makes a move, if it does not have to wait. -/
  | sink

/-- A sink and its surroundings. -/
structure Scene (σ κ ε : Type) where
  /-- Where the sink stands. -/
  sink : Sink.Progress κ ε
  /-- The channel that it receives from. -/
  channel : Channel κ ε
  /-- Is the sink cancelled? -/
  cancelled : Bool
  /-- The state of the client. -/
  client : σ
  /-- The pairs that have been sent. -/
  sent : List (κ × ε)
  /-- What the sink has received. -/
  received : List (Reception κ ε)
  /-- The pairs that the sink had not written when it left. -/
  dropped : List (κ × ε)

namespace Scene

/-- A sink that has its buffer and that nothing has been sent to. -/
def start (sink : Sink κ ε) (capacity : Nat) (s : σ) : Scene σ κ ε where
  sink := { written := sink.written }
  channel := .empty capacity
  cancelled := false
  client := s
  sent := []
  received := []
  dropped := []

/-- The pairs that the sink has received. -/
def receivedPairs (e : Scene σ κ ε) : List (κ × ε) :=
  e.received.filterMap Reception.pair?

/-- Has the sink received the end of the pairs, or found the channel closed? -/
def ended (e : Scene σ κ ε) : Bool :=
  e.received.any Reception.isEnd

variable [Key κ] [Entity ε]

/-- A move. What cannot be done is passed over. -/
def step (client : Client σ) (format : OutputFormat κ ε) (e : Scene σ κ ε) :
    Move κ ε → Scene σ κ ε
  | .send message =>
    if e.channel.senderOpen then
      match e.channel.offer message with
      | .accepted channel => { e with channel, sent := e.sent ++ message.pair?.toList }
      | .refused | .full => e
    else e
  | .close => { e with channel := e.channel.closeSender }
  | .cancel => { e with cancelled := true }
  | .sink =>
    match Sink.step client format e.cancelled e.sink e.channel e.client with
    | some (sink, channel, s) =>
      { e with
        sink, channel, client := s
        received := e.received ++ (e.sink.phase.hears e.channel).toList
        dropped := if sink.isFinished then e.sink.phase.held else [] }
    | none => e

/-- Moves one after the other. -/
def follow (client : Client σ) (format : OutputFormat κ ε) (moves : List (Move κ ε))
    (e : Scene σ κ ε) : Scene σ κ ε :=
  moves.foldl (step client format) e

end Scene

/-! ## Jobs as scenes -/

/-- The channel, the sink and the client of a job are those of a scene. -/
structure Scene.Shows (e : Scene σ κ ε) (job : Execution σ κ ε) : Prop where
  /-- The sink stands at the same place. -/
  sink : e.sink = job.sink
  /-- There are the same messages in the channel. -/
  channel : e.channel = job.channel
  /-- Both are cancelled, or none is. -/
  cancelled : e.cancelled = job.cancelled
  /-- The client is in the same state. -/
  client : e.client = job.client

/-- What a source does in one move: it sends a message or none, and may leave then. -/
theorem Feed.step_cases {feed : Feed σ κ ε} (hread : ∀ s, (feed.read.runFrom s).2 = s)
    {cancelled : Bool} {phase phase' : Source.Phase κ ε} {channel channel' : Channel κ ε} {s s' : σ}
    (h : feed.step cancelled phase channel s = some (phase', channel', s')) :
    phase.isFinished = false ∧ s' = s ∧
      ∃ c, (c = channel ∨ ∃ message, channel.offer message = .accepted c) ∧
        channel' = if phase'.isFinished then c.closeSender else c := by
  -- A source that has nothing more to send closes, wherever it was.
  have hclose (hnext : feed.close channel s = (phase', channel', s')) :
      s' = s ∧ channel' = if phase'.isFinished then channel.closeSender else channel := by
    unfold close at hnext
    split at hnext <;> obtain ⟨rfl, rfl, rfl⟩ := hnext <;> exact ⟨rfl, rfl⟩
  cases phase with
  | reading =>
    simp only [step] at h
    have hsame := hread s
    split at h <;> next hresult =>
      obtain ⟨rfl, rfl, rfl⟩ := Option.some.inj h
      rw [hresult] at hsame
      exact ⟨rfl, hsame, channel, .inl rfl, rfl⟩
  | ready pairs =>
    cases pairs with
    | nil =>
      obtain ⟨hclient, hchannel⟩ := hclose (Option.some.inj h)
      exact ⟨rfl, hclient, channel, .inl rfl, hchannel⟩
    | cons pair rest =>
      simp only [step] at h
      split at h
      · obtain ⟨hclient, hchannel⟩ := hclose (Option.some.inj h)
        exact ⟨rfl, hclient, channel, .inl rfl, hchannel⟩
      · obtain ⟨rfl, rfl, rfl⟩ := Option.some.inj h
        exact ⟨rfl, rfl, channel, .inl rfl, rfl⟩
  | offering pair rest =>
    simp only [step] at h
    split at h
    · next hoffer =>
      obtain ⟨rfl, rfl, rfl⟩ := Option.some.inj h
      exact ⟨rfl, rfl, _, .inr ⟨_, hoffer⟩, rfl⟩
    · split at h
      · obtain ⟨hclient, hchannel⟩ := hclose (Option.some.inj h)
        exact ⟨rfl, hclient, channel, .inl rfl, hchannel⟩
      · obtain ⟨rfl, rfl, rfl⟩ := Option.some.inj h
        exact ⟨rfl, rfl, channel, .inl rfl, rfl⟩
    · cases h
  | ending =>
    simp only [step] at h
    split at h
    · next hoffer =>
      obtain ⟨rfl, rfl, rfl⟩ := Option.some.inj h
      exact ⟨rfl, rfl, _, .inr ⟨_, hoffer⟩, rfl⟩
    · obtain ⟨rfl, rfl, rfl⟩ := Option.some.inj h
      exact ⟨rfl, rfl, channel, .inl rfl, rfl⟩
    · cases h
  | finished result => cases h

variable [Key κ] [Entity ε]

/-- A sink does not make the senders leave. -/
theorem Sink.senderOpen_of_step {client : Client σ} {format : OutputFormat κ ε} {cancelled : Bool}
    {p : Sink.Progress κ ε} {channel : Channel κ ε} {s : σ}
    {next : Sink.Progress κ ε × Channel κ ε × σ}
    (h : step client format cancelled p channel s = some next) :
    next.2.1.senderOpen = channel.senderOpen := by
  have hend {found : Reception κ ε} {rest : Channel κ ε} (hfound : channel.EndsWith found rest) :
      rest.senderOpen = channel.senderOpen := by
    cases hfound with
    | eos hreceive => rw [Channel.eq_of_receive hreceive]
    | closed => rfl
  have hadvance := step_cases h
  generalize p.phase.hears channel = heard at hadvance
  cases hadvance with
  | takes hreceive => rw [Channel.eq_of_receive hreceive]
  | drains hfound => exact hend hfound
  | leaves hfound =>
    have hsender := hend hfound
    exact hsender
  | _ => rfl

/-- A move of a job is moves of its scene. -/
theorem Pipeline.exists_shows_step {p : Pipeline σ κ ε}
    (hread : ∀ s, (p.feed.read.runFrom s).2 = s) {actor : Actor} {job job' : Execution σ κ ε}
    (hstep : p.step actor job = some job') {e : Scene σ κ ε} (hshows : e.Shows job)
    (hopen : job.source.isFinished = false → job.channel.senderOpen = true) :
    (∃ moves, (Scene.follow p.client p.format moves e).Shows job') ∧
      (job'.source.isFinished = false → job'.channel.senderOpen = true) := by
  cases actor with
  | source =>
    obtain ⟨⟨source', channel', s'⟩, hnext, rfl⟩ := Option.map_eq_some_iff.1 hstep
    obtain ⟨hsource, rfl, c, hsend, rfl⟩ := Feed.step_cases hread hnext
    have hsender := hopen hsource
    -- First the message is sent, if there is one, and then the source may leave.
    have hsent : c.senderOpen = true ∧
        ∃ moves, (Scene.follow p.client p.format moves e).Shows { job with channel := c } := by
      rcases hsend with rfl | ⟨message, hoffer⟩
      · exact ⟨hsender, [], hshows⟩
      · refine ⟨by rw [Channel.eq_of_offer hoffer, hsender], [.send message], ?_⟩
        rw [Scene.follow, List.foldl_cons, List.foldl_nil, Scene.step, hshows.channel,
          if_pos hsender, hoffer]
        exact ⟨hshows.sink, rfl, hshows.cancelled, hshows.client⟩
    obtain ⟨hc, moves, hmoves⟩ := hsent
    cases hfinished : source'.isFinished with
    | false =>
      refine ⟨⟨moves, ?_⟩, fun _ => hc⟩
      exact ⟨hmoves.sink, hmoves.channel, hmoves.cancelled, hmoves.client⟩
    | true =>
      refine ⟨⟨moves ++ [.close], ?_⟩, nofun⟩
      rw [Scene.follow, List.foldl_append, List.foldl_cons, List.foldl_nil]
      exact ⟨hmoves.sink, congrArg Channel.closeSender hmoves.channel, hmoves.cancelled,
        hmoves.client⟩
  | sink =>
    obtain ⟨⟨sink', channel', s'⟩, hnext, rfl⟩ := Option.map_eq_some_iff.1 hstep
    have hsender := Sink.senderOpen_of_step hnext
    refine ⟨⟨[.sink], ?_⟩, fun hsource => hsender.trans (hopen hsource)⟩
    rw [Scene.follow, List.foldl_cons, List.foldl_nil, Scene.step, hshows.sink, hshows.channel,
      hshows.cancelled, hshows.client, hnext]
    exact ⟨rfl, rfl, rfl, rfl⟩
  | canceller =>
    obtain rfl := Option.some.inj hstep
    exact ⟨⟨[.cancel], ⟨hshows.sink, hshows.channel, rfl, hshows.client⟩⟩, hopen⟩

/-- The moves of a job are moves of its scene. -/
theorem Pipeline.exists_shows_follow {p : Pipeline σ κ ε}
    (hread : ∀ s, (p.feed.read.runFrom s).2 = s) (schedule : List Actor) {job : Execution σ κ ε}
    {e : Scene σ κ ε} (hshows : e.Shows job)
    (hopen : job.source.isFinished = false → job.channel.senderOpen = true) :
    ∃ moves, (Scene.follow p.client p.format moves e).Shows (p.follow schedule job) := by
  induction schedule generalizing job e with
  | nil => exact ⟨[], hshows⟩
  | cons actor rest ih =>
    rw [Pipeline.follow, List.foldl_cons]
    cases hstep : p.step actor job with
    | none => exact ih hshows hopen
    | some job' =>
      obtain ⟨⟨moves, hmoves⟩, hopen'⟩ := exists_shows_step hread hstep hshows hopen
      obtain ⟨others, hothers⟩ := ih hmoves hopen'
      rw [Scene.follow, Scene.follow, ← List.foldl_append] at hothers
      exact ⟨moves ++ others, hothers⟩

/-- A job whose source does not change the client and whose sink gets its buffer is a scene,
whatever its schedule is. -/
theorem Pipeline.exists_shows {p : Pipeline σ κ ε} (hread : ∀ s, (p.feed.read.runFrom s).2 = s)
    {env : Environment} {sink : Sink κ ε} (hbuffer : env.heap.Holds sink.format.batchSize) (s : σ)
    (schedule : List Actor) :
    ∃ moves, (Scene.follow p.client p.format moves (.start sink env.capacity s)).Shows
      (p.follow schedule (env.start sink (.empty env.capacity) s)) := by
  rw [Environment.start_of_holds hbuffer]
  -- A job may be cancelled from the beginning, and then the scene begins with a cancellation.
  have hstart : ∃ moves, (Scene.follow p.client p.format moves (.start sink env.capacity s)).Shows
      ⟨.reading, .empty env.capacity, { written := sink.written }, env.cancelled, s⟩ := by
    cases env.cancelled with
    | false => exact ⟨[], rfl, rfl, rfl, rfl⟩
    | true => exact ⟨[.cancel], rfl, rfl, rfl, rfl⟩
  have hopen : (.reading : Source.Phase κ ε).isFinished = false →
      (.empty env.capacity : Channel κ ε).senderOpen = true := fun _ => rfl
  obtain ⟨moves, hmoves⟩ := hstart
  obtain ⟨others, hothers⟩ := exists_shows_follow hread schedule hmoves hopen
  rw [Scene.follow, Scene.follow, ← List.foldl_append] at hothers
  exact ⟨moves ++ others, hothers⟩

end EntityStore.Bridge
