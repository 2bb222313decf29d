import EntityStore.Proofs.Memory.Basic
import EntityStore.Proofs.OrderedMap.Related
import EntityStore.Proofs.Store.Call

/-!
# The memory store does not look at values

Two memory stores are related by a relation of values if they have the same namespaces, collections
and records, and the records have the same generation, the same user key, and related values in the
same bins (`Memory.Related`). Related operations on related stores fail alike, or succeed with
related outcomes and leave related stores (`Memory.related_run`), whatever the relation is: the
store moves values around without looking at them.
-/

namespace EntityStore

variable {V : Value → Value → Prop}

/-- Records with the same generation and the same user key, and related values in the same bins. -/
structure Record.Related (V : Value → Value → Prop) (r r' : Record) : Prop where
  /-- The bins have related values. -/
  bins : OrderedMap.Related V r.bins r'.bins
  /-- The generations are the same. -/
  generation : r.generation = r'.generation
  /-- The user keys are the same. -/
  key : r.key = r'.key

/-- Collections with related records under the same digests. -/
abbrev Collection.Related (V : Value → Value → Prop) : Collection → Collection → Prop :=
  OrderedMap.Related (Record.Related V)

/-- Stores with related collections of the same names in namespaces of the same names. -/
abbrev Memory.Related (V : Value → Value → Prop) : Memory → Memory → Prop :=
  OrderedMap.Related (OrderedMap.Related (Collection.Related V))

/-- Does the operation write values? -/
def Operation.isPut : Operation → Bool
  | put .. => true
  | _ => false

/-- The same operation, with related values to write. -/
inductive Operation.Related (V : Value → Value → Prop) : Operation → Operation → Prop where
  /-- A write of related values. -/
  | put (key : RecordKey) {bins bins' : Bins} (h : OrderedMap.Related V bins bins')
      (policy : WritePolicy) : Related V (.put key bins policy) (.put key bins' policy)
  /-- An operation that writes no values. -/
  | other {operation : Operation} (h : operation.isPut = false) : Related V operation operation

/-- Does the operation report something about records? -/
def Operation.isReport : Operation → Bool
  | get .. | delete .. | scan .. => true
  | _ => false

/-- The same outcome of an operation, with related values that were read. -/
inductive Outcome.Related (V : Value → Value → Prop) : Operation → Outcome → Outcome → Prop where
  /-- There is nothing to report. -/
  | done {operation : Operation} (h : operation.isReport = false) : Related V operation .done .done
  /-- Related records were read, or none. -/
  | record (key : RecordKey) (policy : ReadPolicy) {found found' : Option Record}
      (h : Option.Rel (Record.Related V) found found') :
      Related V (.get key policy) (.record found) (.record found')
  /-- The same was removed. -/
  | deleted (key : RecordKey) (policy : WritePolicy) (removed : Bool) :
      Related V (.delete key policy) (.deleted removed) (.deleted removed)
  /-- Related records were read under the same digests. -/
  | records (ns name : String) (limit : Option Nat) (policy : ReadPolicy)
      {found found' : List (String × Record)}
      (h : List.Forall₂ (OrderedMap.RelatedEntry (Record.Related V)) found found') :
      Related V (.scan ns name limit policy) (.records found) (.records found')

/-! ## Writing a record -/

/-- Actions make related records of related ones. -/
theorem ExistsAction.related_apply (action : ExistsAction) (key : RecordKey) {bins bins' : Bins}
    {stored stored' : Option Record} (hbins : OrderedMap.Related V bins bins')
    (hstored : Option.Rel (Record.Related V) stored stored') :
    Alike (Record.Related V) (action.apply key bins stored) (action.apply key bins' stored') := by
  cases hstored with
  | some h =>
    obtain ⟨hold, hgeneration, hkey⟩ := h
    have hnext := congrArg (· + 1) hgeneration
    cases action with
    | createOnly => exact .error _
    | update | updateOnly => exact .ok ⟨hold.overlay hbins, hnext, hkey⟩
    | replace | replaceOnly => exact .ok ⟨hbins, hnext, hkey⟩
  | none =>
    cases action with
    | updateOnly | replaceOnly => exact .error _
    | update | replace | createOnly => exact .ok ⟨hbins, rfl, rfl⟩

/-- The generation check looks at the generation alone. -/
theorem WritePolicy.accepts_eq_of_related (policy : WritePolicy) {r r' : Record}
    (h : r.Related V r') : policy.accepts r = policy.accepts r' := by
  unfold accepts
  rw [h.generation]

/-- Related records may get the same user key. -/
theorem Record.Related.withKey {r r' : Record} (h : r.Related V r') (mode : KeyMode)
    (key : RecordKey) : (r.withKey mode key).Related V (r'.withKey mode key) := by
  cases mode with
  | send => exact ⟨h.bins, h.generation, rfl⟩
  | digest => exact h

/-- Writes leave related records where related ones were. -/
theorem Record.related_afterWrite (key : RecordKey) (policy : WritePolicy) {bins bins' : Bins}
    {stored stored' : Option Record} (hbins : OrderedMap.Related V bins bins')
    (hstored : Option.Rel (Record.Related V) stored stored') :
    Alike (Record.Related V) (Record.afterWrite key bins policy stored)
      (Record.afterWrite key bins' policy stored') := by
  have hwritten := (policy.existsAction.related_apply key hbins hstored).map
    (f := (·.withKey policy.keyMode key)) (g := (·.withKey policy.keyMode key))
    fun _ _ h => h.withKey policy.keyMode key
  cases hstored with
  | some h =>
    rw [afterWrite_some, afterWrite_some, policy.accepts_eq_of_related h, h.generation]
    split
    · exact hwritten
    · exact .error _
  | none =>
    rw [afterWrite_none, afterWrite_none]
    exact hwritten

/-! ## Operations -/

namespace Memory

variable {m m' : Memory}

/-- Related stores have related namespaces, or neither has the namespace. -/
theorem related_findNamespace (h : m.Related V m') (ns : String) :
    Alike (OrderedMap.Related (Collection.Related V)) (m.findNamespace ns)
      (m'.findNamespace ns) := by
  unfold findNamespace
  rcases h.at_key ns with ⟨v, v', hv, hv', hrelated⟩ | ⟨hv, hv'⟩
  · rw [hv, hv']
    exact .ok hrelated
  · rw [hv, hv']
    exact .error _

/-- Related stores have related collections, or neither has the collection. -/
theorem related_findCollection (h : m.Related V m') (ns name : String) :
    Alike (Collection.Related V) (m.findCollection ns name) (m'.findCollection ns name) := by
  refine (related_findNamespace h ns).bind fun collections collections' hrelated => ?_
  rcases hrelated.at_key name with ⟨v, v', hv, hv', hrecords⟩ | ⟨hv, hv'⟩
  · rw [hv, hv']
    exact .ok hrecords
  · rw [hv, hv']
    exact .error _

/-- Related collections may take the place of others. -/
theorem related_setCollection (h : m.Related V m') (ns name : String)
    {records records' : Collection} (hrecords : records.Related V records') :
    (m.setCollection ns name records).Related V (m'.setCollection ns name records') :=
  h.modify ns fun _ _ hcollections => hcollections.insert name hrecords

/-- Related operations on related stores fail alike, or succeed with related outcomes and leave
related stores. -/
theorem related_run (h : m.Related V m') {operation operation' : Operation}
    (hoperation : operation.Related V operation') :
    Alike (fun result result' =>
        Outcome.Related V operation result.1 result'.1 ∧ result.2.Related V result'.2)
      (m.run operation) (m'.run operation') := by
  cases hoperation with
  | put key hbins policy =>
    -- The collection is found alike, and so is the record that the write goes over.
    refine (related_findCollection h _ _).bind fun records records' hrecords => ?_
    refine (Record.related_afterWrite key policy hbins (hrecords key.digest)).bind
      fun record record' hrecord => ?_
    exact .ok ⟨.done rfl, related_setCollection h _ _ (hrecords.insert _ hrecord)⟩
  | other hput =>
    -- The operations without values are the same on both sides.
    cases operation with
    | put key bins policy => cases hput
    | createNamespace ns =>
      refine .ok ⟨.done rfl, ?_⟩
      simp only [h.contains_eq ns]
      split
      · exact h
      · exact h.insert ns OrderedMap.related_empty
    | dropNamespace ns => exact .ok ⟨.done rfl, h.erase ns⟩
    | createCollection ns name =>
      refine (related_findNamespace h ns).bind fun collections collections' hcollections => ?_
      refine .ok ⟨.done rfl, ?_⟩
      simp only [hcollections.contains_eq name]
      split
      · exact h
      · exact related_setCollection h ns name OrderedMap.related_empty
    | dropCollection ns name =>
      exact .ok ⟨.done rfl, h.modify ns fun _ _ hcollections => hcollections.erase name⟩
    | truncateCollection ns name =>
      refine (related_findCollection h ns name).bind fun _ _ _ => ?_
      exact .ok ⟨.done rfl, related_setCollection h ns name OrderedMap.related_empty⟩
    | get key policy =>
      refine (related_findNamespace h key.ns).bind fun collections collections' hcollections => ?_
      refine .ok ⟨.record key policy ?_, h⟩
      rcases hcollections.at_key key.collection with ⟨v, v', hv, hv', hrecords⟩ | ⟨hv, hv'⟩
      · rw [hv, hv']
        exact hrecords key.digest
      · rw [hv, hv']
        exact .none
    | delete key policy =>
      refine (related_findNamespace h key.ns).bind fun collections collections' hcollections => ?_
      rcases hcollections.at_key key.collection with ⟨v, v', hv, hv', hrecords⟩ | ⟨hv, hv'⟩
      · rw [hv, hv']
        simp only [hrecords.contains_eq key.digest]
        exact .ok ⟨.deleted key policy _, related_setCollection h _ _ (hrecords.erase _)⟩
      · rw [hv, hv']
        exact .ok ⟨.deleted key policy _, h⟩
    | scan ns name limit policy =>
      refine (related_findNamespace h ns).bind fun collections collections' hcollections => ?_
      rcases hcollections.at_key name with ⟨v, v', hv, hv', hrecords⟩ | ⟨hv, hv'⟩
      · rw [hv, hv']
        refine .ok ⟨.records ns name limit policy ?_, h⟩
        cases limit with
        | some n => exact List.forall₂_take n hrecords.entries
        | none => exact hrecords.entries
      · rw [hv, hv']
        refine .ok ⟨.records ns name limit policy ?_, h⟩
        cases limit with
        | some n => exact List.forall₂_take n .nil
        | none => exact .nil

/-- Related stores report the same collections. -/
theorem metadata_eq_of_related (h : m.Related V m') (ns : String) :
    m.metadata ns = m'.metadata ns := by
  unfold metadata
  rcases h.at_key ns with ⟨v, v', hv, hv', hcollections⟩ | ⟨hv, hv'⟩
  · rw [hv, hv', Option.map_some, Option.map_some]
    have hsizes : v.entries.map (fun c => (c.1, c.2.size)) =
        v'.entries.map fun c => (c.1, c.2.size) := by
      refine List.forall₂_eq_eq_eq ▸ List.forall₂_map_left_iff.2 (List.forall₂_map_right_iff.2 ?_)
      refine hcollections.entries.imp fun e e' hentry => ?_
      exact Prod.ext hentry.1 hentry.2.entries.length_eq
    rw [hsizes]
  · rw [hv, hv']

/-! ## The client -/

/-- From related stores the client answers related operations alike. -/
theorem agrees_perform {operation operation' : Operation}
    (h : operation.Related V operation') :
    Call.Agrees (Memory.Related V) (Outcome.Related V operation)
      (Memory.client.perform operation) (Memory.client.perform operation') := by
  intro m m' hmemory
  simp only [Client.perform, Call.runFrom_ofState, client]
  have hrun := related_run hmemory h
  generalize m.run operation = result at hrun ⊢
  generalize m'.run operation' = result' at hrun ⊢
  cases hrun with
  | ok hresult => exact ⟨.ok hresult.1, hresult.2⟩
  | error e => exact ⟨.error _, hmemory⟩

/-- From related stores the client reports the same collections. -/
theorem agrees_inspect (ns : String) :
    Call.Agrees (Memory.Related V) (· = ·) (Memory.client.inspect ns)
      (Memory.client.inspect ns) := by
  intro m m' hmemory
  simp only [Client.inspect, Call.runFrom_ofState, client, metadata_eq_of_related hmemory]
  exact ⟨.of_eq rfl, hmemory⟩

end Memory

end EntityStore
