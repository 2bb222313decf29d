import EntityStore.Client.Log
import EntityStore.Proofs.Store.Request

/-!
# What a mapped store says to its client

Nothing is known here about the client but that it is a state machine: it may answer any call with
any outcome or any failure, and change its state as it likes.

For each request the store has a plan, which is a list of calls (`MappedStore.plan`). All of them
concern the namespace and the collection of the mapping and carry its policies, and none depends on
what the client has answered to the others. The store makes the calls of the plan in their order, up
to the first one that fails (`Client.Dialogue`), and never again after that. A failure of the client
is the result of the request, and otherwise the result follows from the replies
(`MappedStore.Concludes`). `MappedStore.respond_logged` puts this together.

The key types are those whose every key can be written. So every key has a digest, and a read or a
removal always reaches the client. An entity may have no bins: a plan ends before the first write
whose entity cannot be converted.

The proof goes along the construction of calls: `Conducts` says of a call what is to be shown of a
request, together with the same call of the client that keeps a log.
-/

namespace EntityStore

/-! ## Dialogues -/

/-- What a client replies to a call that does not fail. -/
inductive Reply where
  /-- The outcome of an operation. -/
  | outcome (outcome : Outcome)
  /-- The collections of a namespace, if it exists. -/
  | metadata (found : Option NamespaceMetadata)
  /-- The end of the use of the store. -/
  | closed

/-- A call of a client, with what the client has answered. -/
structure Exchange where
  /-- The call. -/
  call : ClientCall
  /-- The answer. -/
  answer : Except StoreError Reply

namespace Client

variable {σ : Type}

/-- What a client answers to a call, and its state afterwards. -/
def answer (client : Client σ) : ClientCall → σ → Except StoreError Reply × σ
  | .execute operation, s =>
    ((client.execute operation s).1.map .outcome, (client.execute operation s).2)
  | .metadata ns, s => ((client.metadata ns s).1.map .metadata, (client.metadata ns s).2)
  | .close, s => (.ok .closed, client.close s)

/-- Calls are made of a client in their order, up to the first one that fails: the calls that are
made with their answers, and the failure, or else the replies to all calls. -/
inductive Dialogue (client : Client σ) : List ClientCall → σ → List Exchange →
    Except StoreError (List Reply) → σ → Prop where
  /-- There are no calls to make. -/
  | nil (s : σ) : Dialogue client [] s [] (.ok []) s
  /-- The client fails, and no other call is made. -/
  | failed {call : ClientCall} {s s' : σ} {e : StoreError}
      (hanswer : client.answer call s = (.error e, s')) (rest : List ClientCall) :
      Dialogue client (call :: rest) s [⟨call, .error e⟩] (.error e) s'
  /-- The client replies, and the other calls are made. -/
  | replied {call : ClientCall} {s s₁ s' : σ} {reply : Reply} {rest : List ClientCall}
      {exchanges : List Exchange} {heard : Except StoreError (List Reply)}
      (hanswer : client.answer call s = (.ok reply, s₁))
      (hrest : Dialogue client rest s₁ exchanges heard s') :
      Dialogue client (call :: rest) s (⟨call, .ok reply⟩ :: exchanges) (heard.map (reply :: ·)) s'

/-- What each of the calls keeps is kept by all of them together. -/
theorem Dialogue.keeps {client : Client σ} {calls : List ClientCall} {s s' : σ}
    {exchanges : List Exchange} {heard : Except StoreError (List Reply)} {P : σ → Prop}
    (h : client.Dialogue calls s exchanges heard s')
    (hcalls : ∀ call ∈ calls, ∀ s, P s → P (client.answer call s).2) (hs : P s) : P s' := by
  induction h with
  | nil s => exact hs
  | failed hanswer rest =>
    have hnext := hcalls _ List.mem_cons_self _ hs
    rwa [hanswer] at hnext
  | replied hanswer _ ih =>
    have hnext := hcalls _ List.mem_cons_self _ hs
    rw [hanswer] at hnext
    exact ih (fun call hmem => hcalls call (List.mem_cons_of_mem _ hmem)) hnext

end Client

/-- The result of a request after a dialogue: the failure of the client, or something that follows
from the replies. -/
inductive Resulting {α : Type} (P : List Reply → Except Error α → Prop) :
    Except StoreError (List Reply) → Except Error α → Prop where
  /-- The client has failed. -/
  | failed (e : StoreError) : Resulting P (.error e) (.error (.store e))
  /-- The client has replied to all calls. -/
  | replied {replies : List Reply} {result : Except Error α} (h : P replies result) :
      Resulting P (.ok replies) result

/-- What follows from the replies may be weakened. -/
theorem Resulting.imp {α : Type} {P Q : List Reply → Except Error α → Prop}
    {heard : Except StoreError (List Reply)} {result : Except Error α}
    (h : Resulting P heard result) (hnext : ∀ replies result, P replies result → Q replies result) :
    Resulting Q heard result := by
  cases h with
  | failed e => exact .failed e
  | replied h => exact .replied (hnext _ _ h)

/-! ## Plans and conclusions -/

namespace MappedStore

variable {κ ε : Type} [Key κ] [Entity ε]

/-- The writes of pairs, up to the first one whose entity cannot be converted. -/
def writes (store : MappedStore κ ε) : List (κ × ε) → List ClientCall
  | [] => []
  | (key, entity) :: rest =>
    match store.encode entity with
    | .ok bins =>
      .execute (.put (store.addressOf key) bins store.mapping.writePolicy) :: store.writes rest
    | .error _ => []

/-- The calls that a request makes of a client that does not fail. -/
def plan (store : MappedStore κ ε) : Request κ ε → List ClientCall
  | .createSchema => [.execute (.createNamespace store.mapping.ns),
      .execute (.createCollection store.mapping.ns store.mapping.collection)]
  | .dropSchema => [.execute (.dropCollection store.mapping.ns store.mapping.collection),
      .execute (.dropNamespace store.mapping.ns)]
  | .hasSchema => [.metadata store.mapping.ns]
  | .clear => [.execute (.truncateCollection store.mapping.ns store.mapping.collection)]
  | .put key entity => store.writes [(key, entity)]
  | .putAll pairs => store.writes pairs
  | .get key => [.execute (.get (store.addressOf key) store.mapping.readPolicy)]
  | .delete key => [.execute (.delete (store.addressOf key) store.mapping.writePolicy)]
  | .query q => [.execute
      (.scan store.mapping.ns store.mapping.collection q.limit store.mapping.readPolicy)]

/-- What a store makes of the replies to all calls of its plan. A request that writes is done if all
entities could be converted; a request that reads looks for the outcome of its own kind. -/
inductive Concludes (store : MappedStore κ ε) :
    Request κ ε → List Reply → Except Error (Answer κ ε) → Prop where
  /-- The schema is created. -/
  | createSchema (replies : List Reply) : Concludes store .createSchema replies (.ok .done)
  /-- The schema is dropped. -/
  | dropSchema (replies : List Reply) : Concludes store .dropSchema replies (.ok .done)
  /-- The namespace is there, with certain collections. -/
  | hasSchema (found : NamespaceMetadata) : Concludes store .hasSchema [.metadata (some found)]
      (.ok (.found (found.count? store.mapping.collection).isSome))
  /-- The namespace is not there. -/
  | hasNoNamespace : Concludes store .hasSchema [.metadata none] (.ok (.found false))
  /-- The records are removed. -/
  | clear (replies : List Reply) : Concludes store .clear replies (.ok .done)
  /-- The entity is written, unless it could not be converted. -/
  | put (key : κ) (entity : ε) (replies : List Reply) :
      Concludes store (.put key entity) replies ((store.encode entity).map fun _ => .done)
  /-- The pairs are written, up to the first one whose entity could not be converted. -/
  | putAll (pairs : List (κ × ε)) (replies : List Reply) : Concludes store (.putAll pairs) replies
      ((pairs.mapM fun pair => store.encode pair.2).map fun _ => .done)
  /-- A record is read. -/
  | get (key : κ) (record : Record) :
      Concludes store (.get key) [.outcome (.record (some record))]
        ((store.decode record.bins).map fun entity => .entity (some entity))
  /-- There is no record to read. -/
  | getNothing (key : κ) :
      Concludes store (.get key) [.outcome (.record none)] (.ok (.entity none))
  /-- The client has answered a read with an outcome of another kind. -/
  | getOther (key : κ) {outcome : Outcome} (h : ∀ found, outcome ≠ .record found) :
      Concludes store (.get key) [.outcome outcome] (.error (.unexpected outcome "get"))
  /-- A record is removed, or there was none. -/
  | delete (key : κ) (removed : Bool) :
      Concludes store (.delete key) [.outcome (.deleted removed)] (.ok (.found removed))
  /-- The client has answered a removal with an outcome of another kind. -/
  | deleteOther (key : κ) {outcome : Outcome} (h : ∀ removed, outcome ≠ .deleted removed) :
      Concludes store (.delete key) [.outcome outcome] (.error (.unexpected outcome "delete"))
  /-- Records are listed, and read as pairs up to the first one that is not a pair. -/
  | query (q : Query) (found : List (String × Record)) :
      Concludes store (.query q) [.outcome (.records found)]
        ((found.mapM store.pairOf).map .pairs)
  /-- The client has answered a scan with an outcome of another kind. -/
  | queryOther (q : Query) {outcome : Outcome} (h : ∀ found, outcome ≠ .records found) :
      Concludes store (.query q) [.outcome outcome] (.error (.unexpected outcome "scan"))

omit [Entity ε] in
/-- The operations that a mapped store issues: all of them concern the namespace and the collection
of its mapping, with the policies of the mapping. -/
inductive Issues (store : MappedStore κ ε) : Operation → Prop where
  /-- The first half of creating the schema. -/
  | createNamespace : Issues store (.createNamespace store.mapping.ns)
  /-- The second half of creating the schema. -/
  | createCollection :
    Issues store (.createCollection store.mapping.ns store.mapping.collection)
  /-- The first half of dropping the schema. -/
  | dropCollection : Issues store (.dropCollection store.mapping.ns store.mapping.collection)
  /-- The second half of dropping the schema. -/
  | dropNamespace : Issues store (.dropNamespace store.mapping.ns)
  /-- Removing all records. -/
  | truncateCollection :
    Issues store (.truncateCollection store.mapping.ns store.mapping.collection)
  /-- Writing an entity under a key. -/
  | put (key : κ) (bins : Bins) :
    Issues store (.put (store.addressOf key) bins store.mapping.writePolicy)
  /-- Reading the entity under a key. -/
  | get (key : κ) : Issues store (.get (store.addressOf key) store.mapping.readPolicy)
  /-- Removing the entity under a key. -/
  | delete (key : κ) : Issues store (.delete (store.addressOf key) store.mapping.writePolicy)
  /-- Reading the pairs of the collection. -/
  | scan (limit : Option Nat) :
    Issues store (.scan store.mapping.ns store.mapping.collection limit store.mapping.readPolicy)

omit [Entity ε] in
/-- A call concerns the namespace of a mapping, or is an operation that the store issues. -/
def Concerns (store : MappedStore κ ε) : ClientCall → Prop
  | .execute operation => store.Issues operation
  | .metadata ns => ns = store.mapping.ns
  | .close => False

/-- The writes of pairs write the bins of entities under keys, with the policy of the mapping. -/
theorem exists_put_of_mem_writes {store : MappedStore κ ε} {pairs : List (κ × ε)}
    {call : ClientCall} (h : call ∈ store.writes pairs) :
    ∃ key entity bins, store.encode entity = .ok bins ∧
      call = .execute (.put (store.addressOf key) bins store.mapping.writePolicy) := by
  induction pairs with
  | nil => cases h
  | cons pair rest ih =>
    rw [writes] at h
    split at h
    · next bins hencode =>
      rcases List.mem_cons.1 h with rfl | h
      · exact ⟨_, _, bins, hencode, rfl⟩
      · exact ih h
    · cases h

/-- All calls of a plan are calls that the store makes. -/
theorem concerns_of_mem_plan {store : MappedStore κ ε} {request : Request κ ε} {call : ClientCall}
    (h : call ∈ store.plan request) : store.Concerns call := by
  cases request with
  | createSchema =>
    simp only [plan, List.mem_cons, List.not_mem_nil, or_false] at h
    rcases h with rfl | rfl
    · exact .createNamespace
    · exact .createCollection
  | dropSchema =>
    simp only [plan, List.mem_cons, List.not_mem_nil, or_false] at h
    rcases h with rfl | rfl
    · exact .dropCollection
    · exact .dropNamespace
  | hasSchema =>
    obtain rfl := List.mem_singleton.1 h
    exact rfl
  | clear =>
    obtain rfl := List.mem_singleton.1 h
    exact .truncateCollection
  | put | putAll =>
    obtain ⟨key, entity, bins, -, rfl⟩ := exists_put_of_mem_writes h
    exact .put key bins
  | get key =>
    obtain rfl := List.mem_singleton.1 h
    exact .get key
  | delete key =>
    obtain rfl := List.mem_singleton.1 h
    exact .delete key
  | query q =>
    obtain rfl := List.mem_singleton.1 h
    exact .scan q.limit

/-- A write in a plan writes the bins of an entity under a key. -/
theorem exists_encode_of_mem_plan {store : MappedStore κ ε} {request : Request κ ε}
    {address : RecordKey} {bins : Bins} {policy : WritePolicy}
    (h : .execute (.put address bins policy) ∈ store.plan request) :
    ∃ key entity, store.addressOf key = address ∧ store.encode entity = .ok bins := by
  cases request with
  | put | putAll =>
    obtain ⟨key, entity, bins', hencode, hcall⟩ := exists_put_of_mem_writes h
    cases hcall
    exact ⟨key, entity, rfl, hencode⟩
  | _ => simp [plan] at h

end MappedStore

/-! ## Calls that conduct a dialogue -/

namespace Client

variable {σ α β : Type}

/-- A call conducts the dialogue of certain calls, and its result follows from the replies by `P`:
so does the call itself, and so does the same call of the client that keeps a log, which lists the
calls that are made. -/
def Conducts (client : Client σ) (calls : List ClientCall)
    (P : List Reply → Except Error α → Prop) (x : Call σ α)
    (y : Call (σ × List ClientCall) α) : Prop :=
  ∀ s log, ∃ exchanges heard s' result,
    client.Dialogue calls s exchanges heard s' ∧ Resulting P heard result ∧
      x.runFrom s = (result, s') ∧
      y.runFrom (s, log) = (result, s', (exchanges.map Exchange.call).reverse ++ log)

namespace Conducts

variable {client : Client σ} {calls : List ClientCall} {P : List Reply → Except Error α → Prop}

/-- A result that needs no client makes no call. -/
theorem ofExcept (result : Except Error α) (h : P [] result) :
    client.Conducts [] P (.ofExcept result) (.ofExcept result) :=
  fun s _ => ⟨[], .ok [], s, result, .nil s, .replied h, rfl, rfl⟩

/-- What follows from the replies may be weakened. -/
theorem imp {Q : List Reply → Except Error α → Prop} {x : Call σ α}
    {y : Call (σ × List ClientCall) α} (h : client.Conducts calls P x y)
    (hnext : ∀ replies result, P replies result → Q replies result) :
    client.Conducts calls Q x y := by
  intro s log
  obtain ⟨exchanges, heard, s', result, hdialogue, hresulting, hrun, hlogged⟩ := h s log
  exact ⟨exchanges, heard, s', result, hdialogue, hresulting.imp hnext, hrun, hlogged⟩

/-- A call that begins with a call of the client conducts the dialogue that begins with it. -/
theorem of_answer {γ : Type} {call : ClientCall} {wrap : γ → Reply}
    {answer : σ → Except StoreError γ × σ}
    (hanswer : ∀ s, client.answer call s = ((answer s).1.map wrap, (answer s).2))
    {f : γ → Call σ α} {g : γ → Call (σ × List ClientCall) α}
    (h : ∀ c, client.Conducts calls (fun replies => P (wrap c :: replies)) (f c) (g c)) :
    client.Conducts (call :: calls) P
      (.ofState (fun s => ((answer s).1.mapError .store, (answer s).2)) >>= f)
      (.ofState (fun s => ((answer s.1).1.mapError .store, (answer s.1).2, call :: s.2)) >>= g) := by
  intro s log
  have hanswer := hanswer s
  rw [Call.runFrom_bind, Call.runFrom_bind, Call.runFrom_ofState, Call.runFrom_ofState]
  simp only
  cases hresult : (answer s).1 with
  | error e =>
    rw [hresult] at hanswer
    exact ⟨_, _, _, _, .failed hanswer calls, .failed e, rfl, rfl⟩
  | ok c =>
    rw [hresult] at hanswer
    obtain ⟨exchanges, heard, s', result, hdialogue, hresulting, hrun, hlogged⟩ :=
      h c (answer s).2 (call :: log)
    refine ⟨_, _, s', result, .replied hanswer hdialogue, ?_, hrun, ?_⟩
    · cases hresulting with
      | failed e => exact .failed e
      | replied h => exact .replied h
    · rw [List.map_cons, List.reverse_cons, List.append_assoc, List.singleton_append]
      exact hlogged

/-- A call that begins with an operation. -/
theorem perform {operation : Operation} {f : Outcome → Call σ α}
    {g : Outcome → Call (σ × List ClientCall) α}
    (h : ∀ outcome, client.Conducts calls (fun replies => P (.outcome outcome :: replies))
      (f outcome) (g outcome)) :
    client.Conducts (.execute operation :: calls) P (client.perform operation >>= f)
      (client.logged.perform operation >>= g) :=
  of_answer (fun _ => rfl) h

/-- A call that begins with a request for metadata. -/
theorem inspect {ns : String} {f : Option NamespaceMetadata → Call σ α}
    {g : Option NamespaceMetadata → Call (σ × List ClientCall) α}
    (h : ∀ found, client.Conducts calls (fun replies => P (.metadata found :: replies))
      (f found) (g found)) :
    client.Conducts (.metadata ns :: calls) P (client.inspect ns >>= f)
      (client.logged.inspect ns >>= g) :=
  of_answer (fun _ => rfl) h

/-- A function of the result changes what follows from the replies. -/
theorem map {f : α → β} {P : List Reply → Except Error β → Prop} {x : Call σ α}
    {y : Call (σ × List ClientCall) α}
    (h : client.Conducts calls (fun replies result => P replies (result.map f)) x y) :
    client.Conducts calls P (f <$> x) (f <$> y) := by
  intro s log
  obtain ⟨exchanges, heard, s', result, hdialogue, hresulting, hrun, hlogged⟩ := h s log
  refine ⟨exchanges, heard, s', result.map f, hdialogue, ?_, ?_, ?_⟩
  · cases hresulting with
    | failed e => exact .failed e
    | replied h => exact .replied h
  · rw [Call.runFrom_map, hrun]
  · rw [Call.runFrom_map, hlogged]

end Conducts

end Client

/-! ## Requests -/

/-- A function of a function of the result is one function of it. -/
theorem map_map_except {ε α β γ : Type} (result : Except ε α) (f : α → β) (g : β → γ) :
    (result.map f).map g = result.map fun a => g (f a) := by
  cases result <;> rfl

namespace MappedStore

variable {κ ε σ : Type} [Key κ] [Entity ε]

/-- An entity that can be converted is written by one operation. -/
theorem put_of_encode {store : MappedStore κ ε} {entity : ε} {bins : Bins}
    (h : store.encode entity = .ok bins) (client : Client σ) (key : κ) :
    store.put client key entity =
      client.perform (.put (store.addressOf key) bins store.mapping.writePolicy) >>=
        fun _ => pure () := by
  rw [put, h]
  rfl

/-- An entity that cannot be converted does not reach the client. -/
theorem put_of_encode_error {store : MappedStore κ ε} {entity : ε} {e : Error}
    (h : store.encode entity = .error e) (client : Client σ) (key : κ) :
    store.put client key entity = Call.ofExcept (.error e) := by
  rw [put, h]
  rfl

/-- Pairs are written by the calls of their writes, and the first entity that cannot be converted
says why no more are. -/
theorem conducts_putAll (client : Client σ) (store : MappedStore κ ε) (pairs : List (κ × ε)) :
    client.Conducts (store.writes pairs)
      (fun _ result => result = (pairs.mapM fun pair => store.encode pair.2).map fun _ => ())
      (store.putAll client pairs) (store.putAll client.logged pairs) := by
  induction pairs with
  | nil => exact .ofExcept (.ok ()) rfl
  | cons pair rest ih =>
    obtain ⟨key, entity⟩ := pair
    rw [writes, putAll, putAll]
    cases hencode : store.encode entity with
    | error e =>
      rw [put_of_encode_error hencode, put_of_encode_error hencode]
      refine .ofExcept (.error e) ?_
      simp only [List.mapM_cons, hencode]
      rfl
    | ok bins =>
      rw [put_of_encode hencode, put_of_encode hencode, bind_assoc, bind_assoc]
      refine .perform fun outcome => ?_
      simp only [pure_bind, List.mapM_cons, hencode]
      refine ih.imp ?_
      rintro replies _ rfl
      cases rest.mapM fun pair => store.encode pair.2 <;> rfl

/-- Every request conducts the dialogue of its plan, and concludes from the replies. -/
theorem conducts_respond (client : Client σ) (store : MappedStore κ ε) (request : Request κ ε) :
    client.Conducts (store.plan request) (store.Concludes request)
      (store.respond client request) (store.respond client.logged request) := by
  cases request with
  | createSchema =>
    refine .map (.perform fun _ => .perform fun _ => ?_)
    exact .ofExcept (.ok ()) (.createSchema _)
  | dropSchema =>
    refine .map (.perform fun _ => .perform fun _ => ?_)
    exact .ofExcept (.ok ()) (.dropSchema _)
  | hasSchema =>
    refine .map (.inspect fun found => ?_)
    cases found with
    | some found => exact .ofExcept (.ok _) (.hasSchema found)
    | none => exact .ofExcept (.ok false) .hasNoNamespace
  | clear => exact .map (.perform fun _ => .ofExcept (.ok ()) (.clear _))
  | put key entity =>
    have hconcludes (replies : List Reply) :
        store.Concludes (.put key entity) replies _ := .put key entity replies
    rw [plan, writes, respond, respond]
    cases hencode : store.encode entity with
    | error e =>
      rw [hencode] at hconcludes
      rw [put_of_encode_error hencode, put_of_encode_error hencode]
      exact .map (.ofExcept (.error e) (hconcludes []))
    | ok bins =>
      rw [hencode] at hconcludes
      rw [put_of_encode hencode, put_of_encode hencode]
      exact .map (.perform fun _ => .ofExcept (.ok ()) (hconcludes _))
  | putAll pairs =>
    refine .map ((conducts_putAll client store pairs).imp ?_)
    rintro replies _ rfl
    rw [map_map_except]
    exact .putAll pairs replies
  | get key =>
    refine .map (.perform fun outcome => ?_)
    cases outcome with
    | record found =>
      cases found with
      | some record =>
        refine .map (.ofExcept (store.decode record.bins) ?_)
        rw [map_map_except]
        exact .get key record
      | none => exact .ofExcept (.ok none) (.getNothing key)
    | _ => exact .ofExcept (.error _) (.getOther key (by simp))
  | delete key =>
    refine .map (.perform fun outcome => ?_)
    cases outcome with
    | deleted removed => exact .ofExcept (.ok removed) (.delete key removed)
    | _ => exact .ofExcept (.error _) (.deleteOther key (by simp))
  | query q =>
    refine .map (.perform fun outcome => ?_)
    cases outcome with
    | records found => exact .ofExcept (found.mapM store.pairOf) (.query q found)
    | _ => exact .ofExcept (.error _) (.queryOther q (by simp))

/-- Whatever the client answers, a request is a dialogue. All calls of its plan concern the namespace
and the collection of the mapping, with the mapping's policies. They are made in their order, up to
the first one that fails; this failure is the result, and if there is none the result follows from
the replies. The log of the client lists the calls that were made, and no others. -/
theorem respond_logged (client : Client σ) (store : MappedStore κ ε) (request : Request κ ε)
    (s : σ) (log : List ClientCall) :
    (∀ call ∈ store.plan request, store.Concerns call) ∧
      ∃ exchanges heard s' result,
        client.Dialogue (store.plan request) s exchanges heard s' ∧
          Resulting (store.Concludes request) heard result ∧
          (store.respond client request).runFrom s = (result, s') ∧
          (store.respond client.logged request).runFrom (s, log) =
            (result, s', (exchanges.map Exchange.call).reverse ++ log) :=
  ⟨fun _ => concerns_of_mem_plan, conducts_respond client store request s log⟩

end MappedStore

end EntityStore
