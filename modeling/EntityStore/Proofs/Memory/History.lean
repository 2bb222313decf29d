import EntityStore.Proofs.Memory.Address
import Mathlib.Algebra.Group.Nat.Defs
import Mathlib.Data.List.DropRight

/-!
# A stored record is its history

The history of an address in a run is the list of the writes of its record that have succeeded since
the last operation that removed it (`Memory.history`). What is stored at the address is a function
of the history alone (`Memory.history_of_record?`): the generation is the number of the writes, the
user key is there if one of them has sent it, and the bins are those of the last write that replaces
the stored ones, or of the first write, with the bins of the later writes over them.

`Record.IsLeftBy` says that of one record. It holds of the first write of a missing record
(`isLeftBy_singleton`) and is preserved by each further one (`IsLeftBy.concat`); since an operation
removes a record, writes it or leaves it (`Memory.touch`), it holds after every run.
-/

namespace EntityStore

/-! ## What a list of writes leaves -/

/-- The record is the one that writes leave where there was none, one after the other. -/
structure Record.IsLeftBy (record : Record) (key : RecordKey) (writes : List Write) : Prop where
  /-- The generation counts the writes. -/
  generation : record.generation = UInt32.ofNat writes.length
  /-- The user key is there if some write has sent it. -/
  key : record.key = if writes.any Write.sendsKey then some key.digest else none
  /-- The bins are those of the last write that replaces what is stored, or of the first write, with
  those of the later writes over them. -/
  bins : ∃ earlier base later, writes = earlier ++ base :: later ∧
    (earlier = [] ∨ base.replaces = true) ∧ (∀ w ∈ later, w.replaces = false) ∧
    record.bins = later.foldl (fun bins w => bins.overlay w.bins) base.bins

namespace Record

variable {key : RecordKey} {w : Write} {stored record : Record} {writes : List Write}

/-- The first write leaves what it brings. -/
theorem isLeftBy_singleton (h : afterWrite key w.bins w.policy none = .ok record) :
    record.IsLeftBy key [w] := by
  obtain ⟨hgeneration, hkey, hbins⟩ := afterWrite_none_eq_ok h
  refine ⟨hgeneration, ?_, [], w, [], rfl, .inl rfl, fun _ hmem => absurd hmem List.not_mem_nil,
    hbins⟩
  simpa using hkey

/-- A write over a record that writes have left is the last one of them afterwards. -/
theorem IsLeftBy.concat (hstored : stored.IsLeftBy key writes)
    (h : afterWrite key w.bins w.policy (some stored) = .ok record) :
    record.IsLeftBy key (writes ++ [w]) := by
  obtain ⟨-, hgeneration, hkey, hbins⟩ := afterWrite_some_eq_ok h
  refine ⟨?_, ?_, ?_⟩
  · rw [hgeneration, hstored.generation, List.length_append, List.length_singleton,
      UInt32.ofNat_add]
    rfl
  · rw [hkey, hstored.key, List.any_append, List.any_cons, List.any_nil, Bool.or_false]
    cases w.sendsKey <;> cases writes.any Write.sendsKey <;> rfl
  · cases hreplaces : w.replaces with
    | true =>
      -- The bins start anew with this write.
      rw [hreplaces, if_pos rfl] at hbins
      exact ⟨writes, w, [], rfl, .inr hreplaces, fun _ hmem => absurd hmem List.not_mem_nil, hbins⟩
    | false =>
      obtain ⟨earlier, base, later, rfl, hbase, hlater, hfold⟩ := hstored.bins
      rw [hreplaces] at hbins
      refine ⟨earlier, base, later ++ [w], ?_, hbase, ?_, ?_⟩
      · rw [List.append_assoc, List.cons_append]
      · intro other hmem
        rcases List.mem_append.1 hmem with hmem | hmem
        · exact hlater other hmem
        · rwa [List.mem_singleton.1 hmem]
      · rw [List.foldl_append, ← hfold]
        exact hbins

end Record

namespace Memory

variable {m : Memory} {key : RecordKey} {operation : Operation}

/-! ## Runs and their writes -/

/-- A run is one operation after the other. -/
theorem after_append (m : Memory) (earlier later : List Operation) :
    m.after (earlier ++ later) = (m.after earlier).after later :=
  List.foldl_append

/-- The writes of the record at an address that succeed in a run, in their order. -/
def writes (key : RecordKey) : Memory → List Operation → List Write
  | _, [] => []
  | m, operation :: rest => (m.writeOf? key operation).toList ++ writes key (m.next operation) rest

/-- The writes of a run are those of its first part and those of the rest. -/
theorem writes_append (m : Memory) (key : RecordKey) (earlier later : List Operation) :
    m.writes key (earlier ++ later) =
      m.writes key earlier ++ (m.after earlier).writes key later := by
  induction earlier generalizing m with
  | nil => rfl
  | cons operation rest ih =>
    rw [List.cons_append, writes, writes, ih, List.append_assoc]
    rfl

/-- An operation writes at most once, and only if it is a write. -/
theorem length_writeOf?_le (m : Memory) (key : RecordKey) (operation : Operation) :
    (m.writeOf? key operation).toList.length ≤ [operation].countP Operation.isPut := by
  cases hput : operation.isPut with
  | false =>
    rw [m.writeOf?_of_not_isPut key hput]
    exact Nat.zero_le _
  | true =>
    rw [List.countP_singleton, hput, if_pos rfl]
    cases m.writeOf? key operation <;> simp

/-- A run has at most as many writes of one record as it has writes. -/
theorem length_writes_le (m : Memory) (key : RecordKey) (operations : List Operation) :
    (m.writes key operations).length ≤ operations.countP Operation.isPut := by
  induction operations generalizing m with
  | nil => exact Nat.le_refl _
  | cons operation rest ih =>
    have hhead := m.length_writeOf?_le key operation
    have hrest := ih (m.next operation)
    have hcount : (operation :: rest).countP Operation.isPut =
        [operation].countP Operation.isPut + rest.countP Operation.isPut := by
      rw [← List.countP_append, List.singleton_append]
    rw [writes, List.length_append, hcount]
    omega

/-! ## Histories -/

/-- The history of an address: the writes of its record that succeed after the last operation of a
run that removes it, or from the start if none does. -/
def history (m : Memory) (key : RecordKey) (operations : List Operation) : List Write :=
  (m.after (operations.rdropWhile fun operation => !operation.removes key)).writes key
    (operations.rtakeWhile fun operation => !operation.removes key)

/-- After an operation that removes the record the history is empty. -/
theorem history_concat_of_removes (m : Memory) (operations : List Operation)
    (h : operation.removes key = true) : m.history key (operations ++ [operation]) = [] := by
  unfold history
  rw [List.rtakeWhile_concat_neg _ _ _ (by simp [h])]
  rfl

/-- After another operation the history goes on with its write, if it is one and succeeds. -/
theorem history_concat (m : Memory) (operations : List Operation)
    (h : operation.removes key = false) :
    m.history key (operations ++ [operation]) =
      m.history key operations ++ ((m.after operations).writeOf? key operation).toList := by
  have hparts : (operations.rdropWhile fun operation => !operation.removes key) ++
      (operations.rtakeWhile fun operation => !operation.removes key) = operations :=
    List.rdropWhile_append_rtakeWhile
  unfold history
  rw [List.rtakeWhile_concat_pos _ _ _ (by simp [h]),
    List.rdropWhile_concat_pos _ _ _ (by simp [h]), writes_append, ← after_append, hparts]
  rw [writes, writes, List.append_nil]

/-- A history is no longer than the run has writes. -/
theorem length_history_le (m : Memory) (key : RecordKey) (operations : List Operation) :
    (m.history key operations).length ≤ operations.countP Operation.isPut :=
  (length_writes_le _ _ _).trans (List.rtakeWhile_suffix _ _).sublist.countP_le

/-- What is stored at an address is what a history has left there. -/
def Accounts (key : RecordKey) (history : List Write) : Option Record → Prop
  | some record => record.IsLeftBy key history
  | none => history = []

/-- After every run of an empty store, what is stored at an address is what its history has left
there. -/
theorem accounts_history (key : RecordKey) (operations : List Operation) :
    Accounts key (history .empty key operations) ((after .empty operations).record? key) := by
  induction operations using List.reverseRecOn with
  | nil => rfl
  | append_singleton operations operation ih =>
    rw [after_append]
    show Accounts key _ ((next (after .empty operations) operation).record? key)
    cases touch (after .empty operations) key operation with
    | removed hremoves hwrite hrecord =>
      rw [history_concat_of_removes _ _ hremoves, hrecord]
      rfl
    | written hremoves hwrite hafter hrecord =>
      rw [history_concat _ _ hremoves, hwrite, hrecord, Option.toList_some]
      cases hstored : (after .empty operations).record? key with
      | none =>
        -- There was no record, so this write is the first one.
        rw [hstored] at ih hafter
        rw [show history .empty key operations = [] from ih]
        exact Record.isLeftBy_singleton hafter
      | some stored =>
        rw [hstored] at ih hafter
        exact Record.IsLeftBy.concat ih hafter
    | kept hremoves hwrite hrecord =>
      rw [history_concat _ _ hremoves, hwrite, hrecord, Option.toList_none, List.append_nil]
      exact ih

/-- In a run with fewer writes than there are generations, starting from an empty store, a record
is determined by the writes of it that have succeeded since it was last removed. -/
theorem history_of_record? {operations : List Operation}
    (hputs : operations.countP Operation.isPut < 2 ^ 32) {key : RecordKey} {record : Record}
    (h : (after .empty operations).record? key = some record) :
    let writes := history .empty key operations
    1 ≤ writes.length ∧ record.generation.toNat = writes.length ∧
      record.key = (if writes.any Write.sendsKey then some key.digest else none) ∧
      ∃ earlier base later, writes = earlier ++ base :: later ∧
        (earlier = [] ∨ base.replaces = true) ∧ (∀ w ∈ later, w.replaces = false) ∧
        record.bins = later.foldl (fun bins w => bins.overlay w.bins) base.bins := by
  intro writes
  have hleft := accounts_history key operations
  rw [h] at hleft
  obtain ⟨hgeneration, hkey, hbins⟩ : record.IsLeftBy key writes := hleft
  have hlength : writes.length < 2 ^ 32 :=
    Nat.lt_of_le_of_lt (length_history_le .empty key operations) hputs
  refine ⟨?_, ?_, hkey, hbins⟩
  · obtain ⟨earlier, base, later, hsplit, -⟩ := hbins
    rw [hsplit, List.length_append, List.length_cons]
    omega
  · rw [hgeneration, UInt32.toNat_ofNat_of_lt' hlength]

/-- A run that writes a record, removes it, and writes it three times again, with a fourth attempt
to create it in between. -/
def rewritingRun : List Operation :=
  let key : RecordKey := ⟨"app", "users", "1"⟩
  let bin (name : String) : Bins := .ofList [(name, .null)]
  [.createNamespace "app", .createCollection "app" "users",
    .put key (bin "old") {}, .delete key {},
    .put key (bin "a") { keyMode := .send }, .put key (bin "x") { existsAction := .createOnly },
    .put key (bin "b") { existsAction := .replace }, .put key (bin "c") {}]

/-- The record counts the three writes, has the user key that the first one has sent, and the bins
of the second and the third one. -/
theorem history_of_record?_rewritten :
    rewritingRun.countP Operation.isPut < 2 ^ 32 ∧
      ∃ record, (after .empty rewritingRun).record? ⟨"app", "users", "1"⟩ = some record ∧
        record.generation.toNat = 3 ∧ record.key = some "1" ∧
        record.bins = .ofList [("b", .null), ("c", .null)] := by
  have hputs : rewritingRun.countP Operation.isPut < 2 ^ 32 := by decide
  obtain ⟨record, hrecord⟩ : ∃ record,
      (after .empty rewritingRun).record? ⟨"app", "users", "1"⟩ = some record := ⟨_, rfl⟩
  obtain ⟨-, hgeneration, hkey, -⟩ := history_of_record? hputs hrecord
  refine ⟨hputs, record, hrecord, hgeneration, hkey, ?_⟩
  obtain rfl := Option.some.inj hrecord
  rfl

end Memory

end EntityStore
