import EntityStore.Proofs.Bridge.Beginning
import Mathlib.Logic.Relation
import Mathlib.Order.WellFounded

/-!
# What a receiver gets that goes on

A source that is not cancelled and a receiver that takes whatever there is make their moves in any
order (`Delivery.Moves`). While they do, each message is in one of three places: it is received, or
in the channel, or not sent yet, and the three make up the pairs that were read and their end.
`Delivery.Stage` lists how far they may have come, and a move leads from stage to stage
(`Delivery.Stage.of_moves`).

As every move lowers `Delivery.measure`, they cannot go on for ever, and before the receiver has
found the channel closed one of them can make a move (`Delivery.Stage.exists_moves`). So however
they take turns, the receiver gets all pairs and their end at last, which `Feed.delivers` says
together with what `Feed.collect` gives.
-/

namespace EntityStore.Bridge

variable {σ κ ε : Type}

/-- The messages that send pairs and then their end. -/
def Message.sequence (pairs : List (κ × ε)) : List (Message κ ε) :=
  pairs.map .ofPair ++ [.eos]

/-- The message that is got, if it is not the end of the channel. -/
def Reception.message? : Reception κ ε → Option (Message κ ε)
  | message m => some m
  | closed => none

namespace Delivery

/-- The source or the receiver makes a move. -/
inductive Moves (feed : Feed σ κ ε) (d d' : Delivery σ κ ε) : Prop where
  /-- The source makes a move. -/
  | send (h : d.send feed false = some d')
  /-- The receiver takes a message, or leaves as there will not be one. -/
  | take (h : d.take = some d')

/-- The messages that the source has sent, those that are received first. -/
def sent (d : Delivery σ κ ε) : List (Message κ ε) :=
  d.received.filterMap Reception.message? ++ d.channel.queue

/-- A source that does not have to wait makes a move. -/
theorem exists_moves_of_isSome_step {feed : Feed σ κ ε} {d : Delivery σ κ ε}
    (h : (feed.step false d.source d.channel d.client).isSome) : ∃ d', Moves feed d d' := by
  obtain ⟨next, hnext⟩ := Option.isSome_iff_exists.1 h
  refine ⟨{ d with source := next.1, channel := next.2.1, client := next.2.2 }, .send ?_⟩
  rw [send, hnext]
  rfl

/-! ## Messages that are received -/

/-- A message is got after others. -/
theorem map_message_concat (taken : List (Message κ ε)) (message : Message κ ε) :
    (taken ++ [message]).map Reception.message = taken.map .message ++ [.message message] := by
  rw [List.map_append, List.map_singleton]

/-- All that was got are messages. -/
theorem filterMap_message? (taken : List (Message κ ε)) :
    (taken.map Reception.message).filterMap Reception.message? = taken := by
  rw [List.filterMap_map]
  exact List.filterMap_some

/-- The pairs among the messages that send them are these pairs. -/
theorem filterMap_pair? (pairs : List (κ × ε)) :
    ((Message.sequence pairs).map Reception.message).filterMap Reception.pair? = pairs := by
  have hpair : Reception.pair? ∘ Reception.message ∘ Message.ofPair =
      (some : κ × ε → Option (κ × ε)) := rfl
  rw [Message.sequence, List.map_append, List.filterMap_append, List.filterMap_map,
    List.filterMap_map, Function.comp_assoc, hpair, List.filterMap_some]
  exact List.append_nil pairs

/-- As long as messages are missing, the end of the pairs is not received. -/
theorem any_isEnd_of_append {taken rest : List (Message κ ε)} {pairs : List (κ × ε)}
    (h : taken ++ rest = Message.sequence pairs) (hrest : rest ≠ []) :
    (taken.map Reception.message).any Reception.isEnd = false := by
  -- The end is the last one of the messages, and so it is among those that are missing.
  have hpairs : taken ++ rest.dropLast = pairs.map Message.ofPair := by
    rw [← List.dropLast_append_of_ne_nil hrest, h, Message.sequence, List.dropLast_concat]
  rw [List.any_map, List.any_eq_false]
  intro message hmem
  have hsent : message ∈ pairs.map Message.ofPair := hpairs ▸ List.mem_append_left _ hmem
  obtain ⟨pair, -, rfl⟩ := List.mem_map.1 hsent
  exact Bool.false_ne_true

/-- Once all messages are received, so is the end of the pairs. -/
theorem any_isEnd_sequence (pairs : List (κ × ε)) :
    ((Message.sequence pairs).map Reception.message).any Reception.isEnd = true := by
  rw [Message.sequence, List.map_append, List.any_append, Bool.or_eq_true]
  exact .inr rfl

/-! ## Stages -/

/-- How far a source with certain pairs and its receiver may have come. After the pairs are read,
the client has a certain state. -/
inductive Stage (feed : Feed σ κ ε) (pairs : List (κ × ε)) (s : σ) : Delivery σ κ ε → Prop where
  /-- The source has not read its pairs. -/
  | reading {capacity : Nat} {s₀ : σ} (hcapacity : 0 < capacity)
      (hread : feed.read.runFrom s₀ = (.ok pairs, s)) :
    Stage feed pairs s ⟨.reading, { capacity }, [], s₀⟩
  /-- The source has something to send. -/
  | sending {capacity : Nat} {source : Source.Phase κ ε} {unsent : List (κ × ε)}
      {taken queue : List (Message κ ε)} (hcapacity : 0 < capacity)
      (hsource : source.unsent? = some unsent)
      (hmessages : taken ++ queue ++ Message.sequence unsent = Message.sequence pairs) :
    Stage feed pairs s ⟨source, { capacity, queue }, taken.map .message, s⟩
  /-- The source has sent all its pairs and their end. -/
  | closing {capacity : Nat} {taken queue : List (Message κ ε)}
      (hmessages : taken ++ queue = Message.sequence pairs) :
    Stage feed pairs s
      ⟨.finished (.ok ()), { capacity, queue, senderOpen := false }, taken.map .message, s⟩
  /-- The receiver has got all of it and has left. -/
  | left {capacity : Nat} :
    Stage feed pairs s
      ⟨.finished (.ok ()), { capacity, senderOpen := false, receiverOpen := false },
        (Message.sequence pairs).map .message ++ [.closed], s⟩

namespace Stage

variable {feed : Feed σ κ ε} {pairs : List (κ × ε)} {s : σ} {d d' : Delivery σ κ ε}

/-- A move of the source leads to a stage. -/
theorem of_send (hfailure : feed.failure = none) (h : Stage feed pairs s d)
    (hsend : d.send feed false = some d') : Stage feed pairs s d' := by
  obtain ⟨⟨source', channel', s'⟩, hnext, rfl⟩ := Option.map_eq_some_iff.1 hsend
  cases h with
  | reading hcapacity hread =>
    simp only [Feed.step, hread] at hnext
    obtain ⟨rfl, rfl, rfl⟩ := Option.some.inj hnext
    exact @sending _ _ _ feed pairs s _ (.ready pairs) pairs [] [] hcapacity rfl rfl
  | sending hcapacity hsource hmessages =>
    rename_i capacity source unsent taken queue
    obtain ⟨rfl, hmove⟩ := Feed.step_of_unsent hfailure hsource rfl hnext
    rcases hmove with ⟨hunsent, rfl⟩ | ⟨pair, rest, rfl, hunsent, rfl⟩ | ⟨rfl, rfl, rfl⟩
    · exact .sending hcapacity hunsent hmessages
    · -- The pair moves from those that are not sent into the channel.
      refine .sending hcapacity hunsent (Eq.trans ?_ hmessages)
      simp only [Message.sequence, List.map_cons, List.append_assoc, List.cons_append,
        List.nil_append]
    · exact .closing ((List.append_assoc _ _ _).symm.trans hmessages)
  | closing => cases hnext
  | left => cases hnext

/-- A move of the receiver leads to a stage. -/
theorem of_take (h : Stage feed pairs s d) (htake : d.take = some d') : Stage feed pairs s d' := by
  cases h with
  | reading => cases htake
  | sending hcapacity hsource hmessages =>
    rename_i capacity source unsent taken queue
    cases queue with
    | nil => cases htake
    | cons message queue =>
      obtain rfl := Option.some.inj htake
      rw [← map_message_concat]
      refine .sending hcapacity hsource (Eq.trans ?_ hmessages)
      rw [List.append_assoc taken, List.singleton_append]
  | closing hmessages =>
    rename_i capacity taken queue
    cases queue with
    | nil =>
      obtain rfl := Option.some.inj htake
      rw [List.append_nil] at hmessages
      subst hmessages
      exact .left
    | cons message queue =>
      obtain rfl := Option.some.inj htake
      rw [← map_message_concat]
      refine .closing (Eq.trans ?_ hmessages)
      rw [List.append_assoc, List.singleton_append]
  | left => cases htake

/-- A move leads from a stage to a stage. -/
theorem of_moves (hfailure : feed.failure = none) (h : Stage feed pairs s d)
    (hmoves : Moves feed d d') : Stage feed pairs s d' := by
  cases hmoves with
  | send hsend => exact h.of_send hfailure hsend
  | take htake => exact h.of_take htake

/-- Moves lead from a stage to a stage. -/
theorem of_reflTransGen (hfailure : feed.failure = none) (h : Stage feed pairs s d)
    (hmoves : Relation.ReflTransGen (Moves feed) d d') : Stage feed pairs s d' := by
  induction hmoves with
  | refl => exact h
  | tail _ hmove ih => exact ih.of_moves hfailure hmove

/-- What is sent is the beginning of what there is to send. -/
theorem prefix_sequence (h : Stage feed pairs s d) : d.sent <+: Message.sequence pairs := by
  cases h with
  | reading => exact List.nil_prefix
  | sending hcapacity hsource hmessages =>
    rw [sent, filterMap_message?]
    exact ⟨_, hmessages⟩
  | closing hmessages =>
    refine ⟨[], ?_⟩
    rw [List.append_nil, sent, filterMap_message?]
    exact hmessages
  | left =>
    refine ⟨[], ?_⟩
    rw [List.append_nil, sent, List.filterMap_append, filterMap_message?]
    simp [Reception.message?]

/-- Unless the receiver has got everything and has left, one of the two can make a move. -/
theorem exists_moves (h : Stage feed pairs s d) :
    (∃ d', Moves feed d d') ∨
      d.source = .finished (.ok ()) ∧
        d.received = (Message.sequence pairs).map .message ++ [.closed] ∧ d.client = s := by
  cases h with
  | reading hcapacity hread =>
    refine .inl (exists_moves_of_isSome_step ?_)
    simp only [Feed.step, hread]
    rfl
  | sending hcapacity hsource hmessages =>
    rename_i capacity source unsent taken queue
    cases queue with
    | nil =>
      -- The channel has room for one message at least, so the source does not have to wait.
      refine .inl (exists_moves_of_isSome_step (feed.isSome_step_of_unsent hsource ?_ s))
      exact fun _ => hcapacity
    | cons message queue => exact .inl ⟨_, .take rfl⟩
  | closing hmessages =>
    rename_i capacity taken queue
    cases queue with
    | nil => exact .inl ⟨_, .take rfl⟩
    | cons message queue => exact .inl ⟨_, .take rfl⟩
  | left => exact .inr ⟨rfl, rfl, rfl⟩

/-- Once the end of the pairs is received, the source has sent all of them. -/
theorem of_isEnd (h : Stage feed pairs s d) (hend : d.received.any Reception.isEnd = true) :
    d.source = .finished (.ok ()) ∧ d.received.filterMap Reception.pair? = pairs ∧
      d.client = s := by
  cases h with
  | reading => cases hend
  | sending hcapacity hsource hmessages =>
    rename_i unsent taken queue
    rw [List.append_assoc] at hmessages
    have hmissing : queue ++ Message.sequence unsent ≠ [] := by simp [Message.sequence]
    rw [any_isEnd_of_append hmessages hmissing] at hend
    cases hend
  | closing hmessages =>
    rename_i capacity taken queue
    obtain rfl : queue = [] := by
      by_contra hmissing
      rw [any_isEnd_of_append hmessages hmissing] at hend
      cases hend
    rw [List.append_nil] at hmessages
    subst hmessages
    exact ⟨rfl, filterMap_pair? pairs, rfl⟩
  | left =>
    refine ⟨rfl, ?_, rfl⟩
    rw [List.filterMap_append, filterMap_pair?]
    exact List.append_nil pairs

/-- A source whose receiver goes on up to the end of the pairs sends them all. -/
theorem run_collect (hfailure : feed.failure = none) (h : Stage feed pairs s d) :
    let last := d.run feed false fun received => !received.any Reception.isEnd
    last.source = .finished (.ok ()) ∧ last.received.filterMap Reception.pair? = pairs ∧
      last.client = s := by
  fun_induction Delivery.run feed false (fun received => !received.any Reception.isEnd) d with
  | case1 d d' hadvance ih =>
    rcases Option.or_eq_some_iff.1 hadvance with hsend | ⟨-, htake⟩
    · exact ih (h.of_send hfailure hsend)
    · split at htake
      · exact ih (h.of_take htake)
      · cases htake
  | case2 d hadvance =>
    refine h.of_isEnd ?_
    by_contra hend
    obtain ⟨hsend, htake⟩ := Option.or_eq_none_iff.1 hadvance
    rw [Bool.not_eq_true] at hend
    simp only [hend, Bool.not_false, if_true] at htake
    rcases h.exists_moves with ⟨d', hmove | hmove⟩ | ⟨-, hreceived, -⟩
    · rw [hsend] at hmove
      cases hmove
    · rw [htake] at hmove
      cases hmove
    · rw [hreceived, List.any_append, any_isEnd_sequence] at hend
      cases hend

end Stage

/-- Every move lowers the measure. -/
theorem Moves.measure {feed : Feed σ κ ε} {d d' : Delivery σ κ ε} (h : Moves feed d d') :
    Prod.Lex (· < ·) (· < ·) d'.measure d.measure := by
  cases h with
  | send h => exact send_measure h
  | take h => exact take_measure h

end Delivery

/-! ## Deliveries -/

/-- However the source and its receiver take turns over a channel of a capacity, the receiver gets
certain pairs and then their end, and the state of the client is a certain one afterwards. -/
structure Feed.Delivers (feed : Feed σ κ ε) (capacity : Nat) (s : σ) (pairs : List (κ × ε))
    (s' : σ) : Prop where
  /-- At any time the messages that are sent are the first ones of those that send the pairs and
  their end. -/
  inOrder : ∀ d, Relation.ReflTransGen (Delivery.Moves feed) (.start (.empty capacity) s) d →
    d.sent <+: Message.sequence pairs
  /-- When neither can make a move, the source has finished, and the receiver has got all messages
  and then found the channel closed. -/
  complete : ∀ d, Relation.ReflTransGen (Delivery.Moves feed) (.start (.empty capacity) s) d →
    (∀ d', ¬Delivery.Moves feed d d') →
    d.source = .finished (.ok ()) ∧
      d.received = (Message.sequence pairs).map .message ++ [.closed] ∧ d.client = s'
  /-- They do not take turns for ever. -/
  finite : ∀ turns : Nat → Delivery σ κ ε, ∃ n, ¬Delivery.Moves feed (turns n) (turns (n + 1))
  /-- The pairs can be collected. -/
  collected : (feed.collect capacity).runFrom s = (.ok pairs, s')

/-- If a source can read its pairs, it delivers them through any channel that there can be. -/
theorem Feed.delivers {feed : Feed σ κ ε} (hfailure : feed.failure = none) {s s' : σ}
    {pairs : List (κ × ε)} (hread : feed.read.runFrom s = (.ok pairs, s')) {capacity : Nat}
    (hcapacity : capacity ≤ channelLimit) : feed.Delivers capacity s pairs s' := by
  have hroom : 0 < max capacity 1 := Nat.lt_of_lt_of_le Nat.one_pos (Nat.le_max_right _ _)
  have hstart : Delivery.Stage feed pairs s' (.start (.empty capacity) s) := .reading hroom hread
  refine ⟨fun d hmoves => ?_, fun d hmoves hstuck => ?_, fun turns => ?_, ?_⟩
  · exact (hstart.of_reflTransGen hfailure hmoves).prefix_sequence
  · rcases (hstart.of_reflTransGen hfailure hmoves).exists_moves with ⟨d', hmove⟩ | hcomplete
    · exact absurd hmove (hstuck d')
    · exact hcomplete
  · obtain ⟨n, hn⟩ := @WellFounded.not_rel_apply_succ _ (Prod.Lex (· < ·) (· < ·)) inferInstance
      fun n => (turns n).measure
    exact ⟨n, fun hmove => hn hmove.measure⟩
  · obtain ⟨hsource, hpairs, hclient⟩ := hstart.run_collect hfailure
    rw [runFrom_collect hcapacity]
    simp only [hsource, hpairs, hclient]
    rfl

end EntityStore.Bridge
