import EntityStore.Proofs.Memory.History

/-!
# Writes that expect what was read

Several clients use one store, which executes their operations one at a time, in any order. A client
that has read a record may write it under the condition that the stored generation is the one it has
read. As long as nobody removes the record, such a write goes through only if nobody has written the
record in between (`Memory.writes_expecting_read_generation`), so no update is lost; and of all
clients that write under the same condition one at most is successful.

The reason is that every successful write raises the generation by one, whatever its action is, and
that nothing else changes the record. So the `n`-th write after a read, if it expects a generation,
expects the one that was read and `n` more (`expectedGeneration_of_writes`); and since the counter
does not come round in a run with fewer writes than there are generations, a write that expects the
very generation that was read is the first one (`eq_nil_of_writes_expects`).
-/

namespace EntityStore

/-- Operations of several clients of one store, in the order in which the store executes them. -/
abbrev Interleaving (ι : Type) := List (ι × Operation)

/-- The operations, whoever requests them. -/
def Interleaving.operations {ι : Type} (trace : Interleaving ι) : List Operation :=
  trace.map (·.2)

/-- A counter that comes back to its value after fewer steps than it has values has not moved. -/
theorem eq_zero_of_add_ofNat_eq {g : UInt32} {n : Nat} (hn : n < 2 ^ 32)
    (h : g = g + UInt32.ofNat n) : n = 0 := by
  have hvalue : g.toNat = (g.toNat + n) % 2 ^ 32 := by
    have := congrArg UInt32.toNat h
    rwa [UInt32.toNat_add, UInt32.toNat_ofNat_of_lt' hn] at this
  have hg : g.toNat < 2 ^ 32 := g.toNat_lt
  omega

/-- If no member of a list but the first one has a property, at most one has it. -/
theorem countP_le_one_of_first {α : Type} {p : α → Bool} {l : List α}
    (h : ∀ earlier a rest, l = earlier ++ a :: rest → p a = true → earlier = []) :
    l.countP p ≤ 1 := by
  cases l with
  | nil => exact Nat.zero_le _
  | cons head rest =>
    have hrest : rest.countP p = 0 := by
      refine List.countP_eq_zero.2 fun a hmem ha => ?_
      obtain ⟨s, t, rfl⟩ := List.append_of_mem hmem
      exact List.cons_ne_nil _ _ (h (head :: s) a t rfl ha)
    rw [List.countP_cons, hrest]
    split <;> omega

namespace Memory

variable {m : Memory} {key : RecordKey} {record : Record} {operations : List Operation}

/-- As long as nothing removes a record, it stays there, and without writes it stays the same. -/
theorem record?_after_of_not_removes (h : m.record? key = some record)
    (hkeeps : ∀ operation ∈ operations, operation.removes key = false) :
    ∃ record', (m.after operations).record? key = some record' ∧
      (m.writes key operations = [] → record' = record) := by
  induction operations generalizing m record with
  | nil => exact ⟨record, h, fun _ => rfl⟩
  | cons operation rest ih =>
    have hrest : ∀ other ∈ rest, other.removes key = false := fun other hmem =>
      hkeeps other (List.mem_cons_of_mem _ hmem)
    cases m.touch key operation with
    | removed hremoves =>
      rw [hkeeps operation List.mem_cons_self] at hremoves
      cases hremoves
    | written _ hwrite _ hrecord =>
      obtain ⟨record', hafter, -⟩ := ih hrecord hrest
      refine ⟨record', hafter, fun hempty => ?_⟩
      rw [writes, hwrite] at hempty
      cases hempty
    | kept _ hwrite hrecord =>
      obtain ⟨record', hafter, hsame⟩ := ih (hrecord.trans h) hrest
      refine ⟨record', hafter, fun hempty => hsame ?_⟩
      rwa [writes, hwrite] at hempty

/-- A write that succeeds and expects a generation expects the one that was there at first, and one
more for each write before it. -/
theorem expectedGeneration_of_writes (h : m.record? key = some record)
    (hkeeps : ∀ operation ∈ operations, operation.removes key = false) {earlier later : List Write}
    {w : Write} (hsplit : m.writes key operations = earlier ++ w :: later)
    (hexpects : w.policy.generation = .expectEqual) :
    w.policy.expectedGeneration = record.generation + UInt32.ofNat earlier.length := by
  induction operations generalizing m record earlier with
  | nil => exact absurd hsplit.symm (List.append_ne_nil_of_right_ne_nil _ (List.cons_ne_nil _ _))
  | cons operation rest ih =>
    have hrest : ∀ other ∈ rest, other.removes key = false := fun other hmem =>
      hkeeps other (List.mem_cons_of_mem _ hmem)
    rw [writes] at hsplit
    cases m.touch key operation with
    | removed hremoves =>
      rw [hkeeps operation List.mem_cons_self] at hremoves
      cases hremoves
    | kept _ hwrite hrecord =>
      rw [hwrite] at hsplit
      exact ih (hrecord.trans h) hrest hsplit
    | @written first record' _ hwrite hafter hrecord =>
      rw [hwrite] at hsplit
      rw [h] at hafter
      obtain ⟨haccepts, hgeneration, -⟩ := Record.afterWrite_some_eq_ok hafter
      cases earlier with
      | nil =>
        -- This write is the first one, and has passed the check.
        obtain ⟨rfl, -⟩ := List.cons.inj hsplit
        rw [WritePolicy.accepts, hexpects] at haccepts
        have hequal : record.generation = first.policy.expectedGeneration := by
          simpa using haccepts
        rw [← hequal]
        exact (UInt32.add_zero _).symm
      | cons head earlier =>
        obtain ⟨-, hsplit⟩ := List.cons.inj hsplit
        rw [ih hrecord hrest hsplit, hgeneration, List.length_cons, UInt32.ofNat_add,
          UInt32.add_assoc, UInt32.add_comm 1]
        rfl

/-- A write that succeeds and expects the generation that was there at first is the first write, if
there are not enough writes to bring the counter round. -/
theorem eq_nil_of_writes_expects (h : m.record? key = some record)
    (hkeeps : ∀ operation ∈ operations, operation.removes key = false)
    (hputs : operations.countP Operation.isPut < 2 ^ 32) {earlier later : List Write} {w : Write}
    (hsplit : m.writes key operations = earlier ++ w :: later)
    (hexpects : w.expects record.generation = true) : earlier = [] := by
  obtain ⟨hequal, hgeneration⟩ : w.policy.generation = .expectEqual ∧
      w.policy.expectedGeneration = record.generation := by simpa [Write.expects] using hexpects
  have hnumber := expectedGeneration_of_writes h hkeeps hsplit hequal
  rw [hgeneration] at hnumber
  have hlength : earlier.length < 2 ^ 32 := by
    have hwrites := length_writes_le m key operations
    rw [hsplit, List.length_append] at hwrites
    omega
  exact List.eq_nil_of_length_eq_zero (eq_zero_of_add_ofNat_eq hlength hnumber)

/-- Before a write that succeeds and expects the generation that was there at first, the record has
not been written. -/
theorem writes_eq_nil_of_put_expects (h : m.record? key = some record)
    (hkeeps : ∀ operation ∈ operations, operation.removes key = false) {w : Write}
    (hputs : (operations ++ [Operation.put key w.bins w.policy]).countP Operation.isPut < 2 ^ 32)
    (hexpects : w.expects record.generation = true) {outcome : Outcome}
    (hwrite : (client.execute (.put key w.bins w.policy) (m.after operations)).1 = .ok outcome) :
    m.writes key operations = [] := by
  have hkeeps' : ∀ operation ∈ operations ++ [Operation.put key w.bins w.policy],
      operation.removes key = false := by
    intro operation hmem
    rcases List.mem_append.1 hmem with hmem | hmem
    · exact hkeeps operation hmem
    · rw [List.mem_singleton.1 hmem]
      rfl
  have hsplit : m.writes key (operations ++ [Operation.put key w.bins w.policy]) =
      m.writes key operations ++ w :: [] := by
    rw [writes_append, writes, writes, writeOf?_put_of_ok hwrite]
    rfl
  exact eq_nil_of_writes_expects h hkeeps' hputs hsplit hexpects

/-- If a client has read a record and nobody removes it, a write of the record that expects the
generation that was read succeeds only if no other write of the record has succeeded since, so that
it writes over the very record that was read; and of all such writes at most one succeeds. -/
theorem writes_expecting_read_generation {ι : Type} (m : Memory) {before later : Interleaving ι}
    {reader : ι} {key : RecordKey} {policy : ReadPolicy} {record : Record}
    (hputs : (Interleaving.operations (before ++ (reader, .get key policy) :: later)).countP
      Operation.isPut < 2 ^ 32)
    (hread : (client.execute (.get key policy) (m.after before.operations)).1 =
      .ok (.record (some record))) :
    let seen := m.after (Interleaving.operations (before ++ [(reader, .get key policy)]))
    (∀ (between rest : Interleaving ι) (writer : ι) (bins : Bins) (writePolicy : WritePolicy)
        (outcome : Outcome), later = between ++ (writer, .put key bins writePolicy) :: rest →
      (∀ e ∈ between, e.2.removes key = false) → writePolicy.generation = .expectEqual →
      writePolicy.expectedGeneration = record.generation →
      (client.execute (.put key bins writePolicy) (seen.after between.operations)).1 =
        .ok outcome →
      seen.writes key between.operations = [] ∧
        (seen.after between.operations).record? key = some record) ∧
    (seen.writes key (later.operations.takeWhile fun operation =>
      !operation.removes key)).countP (·.expects record.generation) ≤ 1 := by
  intro seen
  have hseen : seen = m.after before.operations := by
    show m.after (List.map _ (before ++ _)) = _
    rw [List.map_append, after_append]
    exact next_get _ key policy
  have hrecord : seen.record? key = some record := hseen ▸ record?_of_execute_get _ hread
  -- There are not enough writes to bring the counter round.
  have hlater : later.operations.countP Operation.isPut < 2 ^ 32 := by
    have hpart : later.Sublist (before ++ (reader, .get key policy) :: later) :=
      (List.sublist_cons_self _ _).trans (List.sublist_append_right _ _)
    exact Nat.lt_of_le_of_lt (hpart.map _).countP_le hputs
  refine ⟨?_, ?_⟩
  · intro between rest writer bins writePolicy outcome hlater' hkeeps hequal hgeneration hwrite
    have hoperations : later.operations = (between.operations ++ [.put key bins writePolicy]) ++
        Interleaving.operations rest := by
      rw [hlater', List.append_assoc]
      exact List.map_append
    have hbetween : ∀ operation ∈ between.operations, operation.removes key = false := by
      intro operation hmem
      obtain ⟨e, he, rfl⟩ := List.mem_map.1 hmem
      exact hkeeps e he
    have hcount : (between.operations ++ [Operation.put key bins writePolicy]).countP
        Operation.isPut < 2 ^ 32 := by
      rw [hoperations, List.countP_append] at hlater
      omega
    have hempty : seen.writes key between.operations = [] :=
      writes_eq_nil_of_put_expects (w := ⟨bins, writePolicy⟩) hrecord hbetween hcount
        (by simp [Write.expects, hequal, hgeneration]) hwrite
    obtain ⟨record', hafter, hsame⟩ := record?_after_of_not_removes hrecord hbetween
    exact ⟨hempty, hsame hempty ▸ hafter⟩
  · refine countP_le_one_of_first fun earlier w rest hsplit hexpects => ?_
    refine eq_nil_of_writes_expects hrecord ?_ ?_ hsplit hexpects
    · intro operation hmem
      simpa using List.mem_takeWhile_imp hmem
    · exact Nat.lt_of_le_of_lt (List.takeWhile_sublist _).countP_le hlater

/-- The address that the clients use. -/
def contendedKey : RecordKey := ⟨"app", "users", "1"⟩

/-- Of three clients the first one writes a record, and the second one reads it. -/
def contendedBefore : Interleaving Nat :=
  [(0, .createNamespace "app"), (0, .createCollection "app" "users"),
    (0, .put contendedKey (.ofList [("a", .null)]) {})]

/-- The third client reads the record too, and fails to create it. -/
def contendedBetween : Interleaving Nat :=
  [(2, .get contendedKey {}), (2, .put contendedKey .empty { existsAction := .createOnly })]

/-- A write under the condition that the record is at its first generation. -/
def contendedWrite (bin : String) : Operation :=
  .put contendedKey (.ofList [(bin, .null)]) { generation := .expectEqual, expectedGeneration := 1 }

/-- Then both clients write under the condition that the record is as they have read it: the second
client writes over the record that it has read, and the third one fails. -/
theorem writes_expecting_read_generation_contended :
    let seen := after .empty (Interleaving.operations
      (contendedBefore ++ [(1, .get contendedKey {})]))
    let later : Interleaving Nat :=
      contendedBetween ++ (1, contendedWrite "b") :: [(2, contendedWrite "c")]
    (seen.after contendedBetween.operations).record? contendedKey =
        some ⟨.ofList [("a", .null)], 1, none⟩ ∧
      (seen.writes contendedKey later.operations).countP (·.expects 1) ≤ 1 := by
  intro seen later
  have hread : (client.execute (.get contendedKey {})
      (after .empty contendedBefore.operations)).1 =
        .ok (.record (some ⟨.ofList [("a", .null)], 1, none⟩)) := rfl
  have hputs : (Interleaving.operations
      (contendedBefore ++ (1, .get contendedKey {}) :: later)).countP Operation.isPut < 2 ^ 32 := by
    decide
  have hboth := writes_expecting_read_generation .empty hputs hread
  refine ⟨?_, hboth.2⟩
  exact (hboth.1 contendedBetween _ 1 _ _ .done rfl (by decide) rfl rfl rfl).2

end Memory

end EntityStore
