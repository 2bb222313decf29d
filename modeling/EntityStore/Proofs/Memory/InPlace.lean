import EntityStore.Proofs.Memory.Basic

/-!
# The memory store changed in place

`Memory.run` gives the store that an operation leaves, or the reason why it fails. Here each
operation is a program that changes the store in place: it goes into the namespace, and into the
collection, and checks and writes there, and whatever it has done before it fails stays done
(`Call.inside`). `Memory.edit` is the program of each operation, and the memory client executes just
these programs (`Memory.runFrom_perform_eq_edit`).

So it is a property of the programs that one that fails has changed nothing
(`Memory.failsClean_edit`): all checks come before the first change.
-/

namespace EntityStore

variable {σ α β : Type}

namespace Call

/-- Changes the value at a key in place. If there is none, that is the failure. -/
def inside (key : String) (missing : StoreError) (edit : Call α β) : Call (OrderedMap α) β :=
  .ofState fun m =>
    match m.get? key with
    | some value => ((edit.runFrom value).1, m.insert key (edit.runFrom value).2)
    | none => (.error (.store missing), m)

/-- A call that fails leaves the state as it was. -/
def FailsClean (call : Call σ α) : Prop :=
  ∀ s e, (call.runFrom s).1 = .error e → (call.runFrom s).2 = s

/-- Looking at the state gives it and leaves it. -/
@[simp] theorem runFrom_get (s : σ) : (get : Call σ σ).runFrom s = (.ok s, s) := rfl

/-- Changing the state does not fail. -/
@[simp] theorem runFrom_modify (f : σ → σ) (s : σ) :
    (modify f : Call σ PUnit).runFrom s = (.ok ⟨⟩, f s) := rfl

namespace FailsClean

/-- A call that does not fail does so trivially. -/
theorem of_ok {call : Call σ α} (h : ∀ s, ∃ a, (call.runFrom s).1 = .ok a) : FailsClean call := by
  intro s e hfails
  obtain ⟨a, ha⟩ := h s
  rw [ha] at hfails
  cases hfails

/-- A result that needs no client. -/
theorem ofExcept (result : Except Error α) : FailsClean (ofExcept result : Call σ α) :=
  fun _ _ _ => rfl

/-- A function of the result does not matter. -/
theorem map {call : Call σ α} {f : α → β} (h : FailsClean call) : FailsClean (f <$> call) := by
  intro s e hfails
  rw [runFrom_map] at hfails ⊢
  cases hresult : (call.runFrom s).1 with
  | ok a =>
    rw [hresult] at hfails
    cases hfails
  | error e => exact h s e hresult

/-- A call that begins with one that only reads. -/
theorem bind_of_same {call : Call σ α} {f : α → Call σ β} (hsame : ∀ s, (call.runFrom s).2 = s)
    (h : ∀ a, FailsClean (f a)) : FailsClean (call >>= f) := by
  intro s e hfails
  have hsame := hsame s
  rw [runFrom_bind] at hfails ⊢
  cases hrun : call.runFrom s with
  | mk result s' =>
    rw [hrun] at hfails hsame
    obtain rfl : s' = s := hsame
    cases result with
    | ok a => exact h a s' e hfails
    | error e' => rfl

/-- A call that does not fail any more after its first part. -/
theorem bind_of_ok {call : Call σ α} {f : α → Call σ β} (h : FailsClean call)
    (hrest : ∀ s a s', call.runFrom s = (.ok a, s') → ∃ b, ((f a).runFrom s').1 = .ok b) :
    FailsClean (call >>= f) := by
  intro s e hfails
  have hclean := h s
  rw [runFrom_bind] at hfails ⊢
  cases hrun : call.runFrom s with
  | mk result s' =>
    rw [hrun] at hfails hclean
    cases result with
    | ok a =>
      obtain ⟨b, hb⟩ := hrest s a s' hrun
      rw [hb] at hfails
      cases hfails
    | error e' => exact hclean e' rfl

/-- A change of one value that leaves the value as it was leaves all of them as they were. -/
theorem inside {key : String} {missing : StoreError} {edit : Call α β} (h : FailsClean edit) :
    FailsClean (inside key missing edit) := by
  intro m e hfails
  unfold Call.inside at hfails ⊢
  rw [runFrom_ofState] at hfails ⊢
  cases hvalue : m.get? key with
  | none => rfl
  | some value =>
    rw [hvalue] at hfails
    simp only [h value e hfails]
    exact OrderedMap.insert_of_get? hvalue

end FailsClean

end Call

namespace Memory

/-- The program of an operation. -/
def edit : Operation → Call Memory Outcome
  | .createNamespace ns => do
    modify fun m => m.add ns .empty
    return .done
  | .dropNamespace ns => do
    modify fun m => m.erase ns
    return .done
  | .createCollection ns name => Call.inside ns (.namespaceNotFound ns) do
    modify fun collections => collections.add name .empty
    return .done
  | .dropCollection ns name => do
    modify fun m => m.modify ns fun collections => collections.erase name
    return .done
  | .truncateCollection ns name =>
    Call.inside ns (.namespaceNotFound ns) <| Call.inside name (.collectionNotFound ns name) do
      modify fun _ => .empty
      return .done
  | .put key bins policy =>
    Call.inside key.ns (.namespaceNotFound key.ns) <|
      Call.inside key.collection (.collectionNotFound key.ns key.collection) do
        let records ← get
        let record ← Call.ofExcept
          ((Record.afterWrite key bins policy (records.get? key.digest)).mapError .store)
        modify fun records => records.insert key.digest record
        return .done
  | .get key _ => Call.inside key.ns (.namespaceNotFound key.ns) do
    let collections ← get
    return .record ((collections.get? key.collection).bind (·.get? key.digest))
  | .delete key _ => Call.inside key.ns (.namespaceNotFound key.ns) do
    let collections ← get
    modify fun collections =>
      collections.modify key.collection fun records => records.erase key.digest
    return .deleted ((collections.get? key.collection).any (·.contains key.digest))
  | .scan ns name limit _ => Call.inside ns (.namespaceNotFound ns) do
    let collections ← get
    let found := (collections.get? name).elim [] OrderedMap.entries
    return .records (match limit with | some n => found.take n | none => found)

/-- A program that fails has changed nothing. -/
theorem failsClean_edit (operation : Operation) : (edit operation).FailsClean := by
  cases operation with
  | createNamespace ns => exact .of_ok fun m => ⟨.done, rfl⟩
  | dropNamespace ns => exact .of_ok fun m => ⟨.done, rfl⟩
  | createCollection ns name => exact .inside (.of_ok fun collections => ⟨.done, rfl⟩)
  | dropCollection ns name => exact .of_ok fun m => ⟨.done, rfl⟩
  | truncateCollection ns name => exact .inside (.inside (.of_ok fun records => ⟨.done, rfl⟩))
  | put key bins policy =>
    refine .inside (.inside (.bind_of_same (fun _ => rfl) fun records => ?_))
    refine .bind_of_same (fun _ => rfl) fun record => ?_
    exact .of_ok fun records => ⟨.done, rfl⟩
  | get key policy => exact .inside (.of_ok fun collections => ⟨_, rfl⟩)
  | delete key policy => exact .inside (.of_ok fun collections => ⟨_, rfl⟩)
  | scan ns name limit policy => exact .inside (.of_ok fun collections => ⟨_, rfl⟩)

/-! ## The memory client executes these programs -/

variable {m : Memory}

/-- A program inside a namespace or a collection that is there. -/
theorem runFrom_inside_of_get? {key : String} {value : α} {m : OrderedMap α}
    (h : m.get? key = some value) (missing : StoreError) (program : Call α β) :
    (Call.inside key missing program).runFrom m =
      ((program.runFrom value).1, m.insert key (program.runFrom value).2) := by
  rw [Call.inside, Call.runFrom_ofState, h]

/-- A program inside a namespace or a collection that is not there. -/
theorem runFrom_inside_of_absent {key : String} {m : OrderedMap α} (h : m.get? key = none)
    (missing : StoreError) (program : Call α β) :
    (Call.inside key missing program).runFrom m = (.error (.store missing), m) := by
  rw [Call.inside, Call.runFrom_ofState, h]

/-- Putting other records into a collection is putting the changed namespace into the store. -/
theorem setCollection_of_get? {ns : String} {collections : Namespace}
    (h : m.get? ns = some collections) (name : String) (records : Collection) :
    m.setCollection ns name records = m.insert ns (collections.insert name records) :=
  OrderedMap.modify_of_get? h _

/-- Putting the records that a collection has into it changes nothing. -/
theorem setCollection_of_collection? {ns name : String} {records : Collection}
    (h : m.collection? ns name = some records) : m.setCollection ns name records = m := by
  obtain ⟨collections, hns, hname⟩ := Option.bind_eq_some_iff.1 h
  rw [setCollection_of_get? hns, OrderedMap.insert_of_get? hname, OrderedMap.insert_of_get? hns]

variable {operation : Operation} {ns name : String}

/-- An operation on a namespace is a program inside it if it fails where the namespace is not there,
and does the same to its collections. -/
theorem runFrom_perform_eq_inside {program : Call Namespace Outcome}
    (hfails : ∀ e, m.findNamespace ns = .error e → m.run operation = .error e)
    (hfound : ∀ collections, m.get? ns = some collections →
      (client.perform operation).runFrom m =
        ((program.runFrom collections).1, m.insert ns (program.runFrom collections).2)) :
    (client.perform operation).runFrom m =
      (Call.inside ns (.namespaceNotFound ns) program).runFrom m := by
  cases hns : m.get? ns with
  | none =>
    rw [runFrom_inside_of_absent hns,
      runFrom_perform_of_error (hfails _ (findNamespace_of_absent hns))]
  | some collections => rw [runFrom_inside_of_get? hns, hfound collections hns]

/-- An operation on a collection is a program inside it if it fails where the collection is not
there, and does the same to its records. -/
theorem runFrom_perform_eq_inside_inside {program : Call Collection Outcome}
    (hfails : ∀ e, m.findCollection ns name = .error e → m.run operation = .error e)
    (hfound : ∀ records, m.collection? ns name = some records →
      (client.perform operation).runFrom m =
        ((program.runFrom records).1, m.setCollection ns name (program.runFrom records).2)) :
    (client.perform operation).runFrom m =
      (Call.inside ns (.namespaceNotFound ns)
        (Call.inside name (.collectionNotFound ns name) program)).runFrom m := by
  refine runFrom_perform_eq_inside (fun e hns => hfails e ?_) fun collections hns => ?_
  · rw [findCollection, hns]
    rfl
  · cases hname : collections.get? name with
    | none =>
      rw [runFrom_inside_of_absent hname, OrderedMap.insert_of_get? hns]
      refine runFrom_perform_of_error (hfails _ ?_)
      simp [findCollection, findNamespace, hns, hname, bind, Except.bind]
    | some records =>
      rw [runFrom_inside_of_get? hname, ← setCollection_of_get? hns]
      exact hfound records (by rw [collection?, hns, Option.bind_some, hname])

/-- The client executes an operation as its program does. -/
theorem runFrom_perform_eq_edit (operation : Operation) (m : Memory) :
    (client.perform operation).runFrom m = (edit operation).runFrom m := by
  -- In a namespace that is there, the client finds its collections.
  have hfind {ns : String} {collections : Namespace} (hns : m.get? ns = some collections) :
      m.findNamespace ns = .ok collections := by rw [findNamespace, hns]
  cases operation with
  | createNamespace ns =>
    rw [runFrom_perform_of_ok rfl, ← OrderedMap.add_eq]
    rfl
  | dropNamespace ns => rfl
  | createCollection ns name =>
    refine runFrom_perform_eq_inside (fun e hns => by rw [run, hns]; rfl) fun collections hns => ?_
    have hrun : m.run (.createCollection ns name) =
        .ok (.done, m.insert ns (collections.add name .empty)) := by
      rw [run, hfind hns, OrderedMap.add_eq, setCollection_of_get? hns]
      cases hname : collections.contains name with
      | true => simp [hname, bind, Except.bind, OrderedMap.insert_of_get? hns]
      | false => simp [hname, bind, Except.bind]
    rw [runFrom_perform_of_ok hrun]
    rfl
  | dropCollection ns name => rfl
  | truncateCollection ns name =>
    refine runFrom_perform_eq_inside_inside (fun e h => by rw [run, h]; rfl) fun records h => ?_
    rw [runFrom_perform_of_ok (run_truncate h)]
    rfl
  | put key bins policy =>
    refine runFrom_perform_eq_inside_inside (fun e h => by rw [run, h]; rfl) fun records h => ?_
    have hrun := run_put h bins policy
    simp only [Call.runFrom_bind, Call.runFrom_get, Call.runFrom_ofExcept]
    cases hafter : Record.afterWrite key bins policy (records.get? key.digest) with
    | ok record =>
      rw [hafter] at hrun
      exact runFrom_perform_of_ok hrun
    | error e =>
      -- The records have not been changed yet, and are put back as they were.
      rw [hafter] at hrun
      rw [runFrom_perform_of_error hrun]
      exact Prod.ext rfl (setCollection_of_collection? h).symm
  | get key policy =>
    refine runFrom_perform_eq_inside (fun e hns => by rw [run, hns]; rfl) fun collections hns => ?_
    have hrun : m.run (.get key policy) = .ok (.record ((collections.get? key.collection).bind
        (·.get? key.digest)), m) := by
      rw [run, hfind hns]
      rfl
    rw [runFrom_perform_of_ok hrun]
    exact Prod.ext rfl (OrderedMap.insert_of_get? hns).symm
  | delete key policy =>
    refine runFrom_perform_eq_inside (fun e hns => by rw [run, hns]; rfl) fun collections hns => ?_
    cases hname : collections.get? key.collection with
    | none =>
      have hrun : m.run (.delete key policy) = .ok (.deleted false, m) := by
        simp [run, hfind hns, hname, bind, Except.bind]
      rw [runFrom_perform_of_ok hrun]
      simp only [Call.runFrom_bind, Call.runFrom_get, Call.runFrom_modify, hname]
      rw [OrderedMap.modify_of_absent hname]
      exact Prod.ext rfl (OrderedMap.insert_of_get? hns).symm
    | some records =>
      have hcollection : m.collection? key.ns key.collection = some records := by
        rw [collection?, hns, Option.bind_some, hname]
      rw [runFrom_perform_of_ok (run_delete hcollection policy), setCollection_of_get? hns]
      simp only [Call.runFrom_bind, Call.runFrom_get, Call.runFrom_modify, hname]
      rw [OrderedMap.modify_of_get? hname]
      rfl
  | scan ns name limit policy =>
    refine runFrom_perform_eq_inside (fun e hns => by rw [run, hns]; rfl) fun collections hns => ?_
    have hrun : m.run (.scan ns name limit policy) = .ok (.records
        (match limit with
          | some n => ((collections.get? name).elim [] OrderedMap.entries).take n
          | none => (collections.get? name).elim [] OrderedMap.entries), m) := by
      rw [run, hfind hns]
      cases hname : collections.get? name <;> cases limit <;> simp [hname, bind, Except.bind]
    rw [runFrom_perform_of_ok hrun]
    exact Prod.ext rfl (OrderedMap.insert_of_get? hns).symm

/-- An operation that fails has changed nothing. -/
theorem failsClean_perform (operation : Operation) : (client.perform operation).FailsClean := by
  intro m e hfails
  rw [runFrom_perform_eq_edit] at hfails ⊢
  exact failsClean_edit operation m e hfails

/-- A removal that succeeds tells whether there was a record. -/
theorem exists_deleted_of_perform {key : RecordKey} {policy : WritePolicy} {outcome : Outcome}
    {m' : Memory} (h : (client.perform (.delete key policy)).runFrom m = (.ok outcome, m')) :
    ∃ removed, outcome = .deleted removed := by
  rw [runFrom_perform_eq_edit, edit] at h
  cases hns : m.get? key.ns with
  | none =>
    rw [runFrom_inside_of_absent hns] at h
    cases h
  | some collections =>
    rw [runFrom_inside_of_get? hns] at h
    exact ⟨_, (Except.ok.inj (Prod.mk.inj h).1).symm⟩

end Memory

end EntityStore
