import EntityStore.Proofs.Entity.LawfulKey
import EntityStore.Proofs.Store.Table
import EntityStore.Proofs.Text.Order
import Mathlib.Data.List.Dedup
import Mathlib.Data.List.Sort

/-!
# What writes leave in a table

If documents are written one after the other into a table that starts empty, what is there in the
end can be told without the writes: under each key, once, the document that those of the key leave
(`Table.leftBy`), with the keys in the order of the octets of their digests. This is
`Table.settled`, and `Table.runFrom_putAll_nil` says that writing the documents leads there.

The proof carries `Table.Settles` from one write to the next: the digests ascend, and each key has
what the documents so far leave under it. These two facts determine a table (`Settles.unique`), and
`settled` has them.
-/

namespace EntityStore

namespace Table

/-! ## The table that is left -/

section Left

variable {κ : Type} [DecidableEq κ]

/-- The documents that are given for a key, in their order. -/
def documentsOf (lines : List (κ × Document)) (key : κ) : List Document :=
  (lines.filter fun line => line.1 = key).map (·.2)

/-- What documents leave that are written under one key one after the other: an update lays the
fields of each over those before it, and of other writes the last one counts. -/
def leftBy (action : ExistsAction) : List Document → Option Document
  | [] => none
  | first :: rest => some <|
    match action with
    | .update | .updateOnly =>
      rest.foldl (fun stored document => ⟨stored.fields.overlay document.fields⟩) first
    | .replace | .replaceOnly | .createOnly => rest.getLastD first

/-- The keys of documents, once each, in the order of the octets of their digests. -/
def keysOf [Key κ] (lines : List (κ × Document)) : List κ :=
  (lines.map (·.1)).dedup.insertionSort fun a b =>
    Text.octets (Key.digest a) ≤ Text.octets (Key.digest b)

/-- The table that is left of documents which are written one after the other. -/
def settled [Key κ] (action : ExistsAction) (lines : List (κ × Document)) : Table κ :=
  (keysOf lines).filterMap fun key =>
    (leftBy action (documentsOf lines key)).map fun document => (key, document)

/-- One more document is the last one under its key. -/
theorem documentsOf_concat (lines : List (κ × Document)) (line : κ × Document) (key : κ) :
    documentsOf (lines ++ [line]) key =
      documentsOf lines key ++ if key = line.1 then [line.2] else [] := by
  unfold documentsOf
  rw [List.filter_append, List.map_append, List.filter_singleton]
  by_cases heq : key = line.1
  · simp [heq]
  · simp [heq, Ne.symm heq]

/-- A key has documents exactly if it is the key of one. -/
theorem documentsOf_eq_nil_iff {lines : List (κ × Document)} {key : κ} :
    documentsOf lines key = [] ↔ key ∉ lines.map (·.1) := by
  unfold documentsOf
  rw [List.map_eq_nil_iff, List.filter_eq_nil_iff, List.mem_map]
  constructor
  · rintro h ⟨line, hmem, rfl⟩
    exact h line hmem (decide_eq_true rfl)
  · intro h line hmem heq
    exact h ⟨line, hmem, of_decide_eq_true heq⟩

omit [DecidableEq κ] in
/-- A document that is written over what is left is left itself, over it or in its place. -/
theorem written_leftBy {action : ExistsAction} (h : action = .update ∨ action = .replace)
    (address : RecordKey) (documents : List Document) (document : Document) :
    ∃ result, written action address document (leftBy action documents) = .ok result ∧
      leftBy action (documents ++ [document]) = some result := by
  cases documents with
  | nil => rcases h with rfl | rfl <;> exact ⟨document, rfl, rfl⟩
  | cons first rest =>
    rcases h with rfl | rfl
    · refine ⟨_, rfl, ?_⟩
      rw [List.cons_append, leftBy, List.foldl_append]
      rfl
    · refine ⟨_, rfl, ?_⟩
      rw [List.cons_append, leftBy, List.getLastD_concat]

/-- What is left has a property of documents that overlays keep, if all documents have it. -/
theorem property_of_leftBy {action : ExistsAction} {P : Document → Prop}
    (hoverlay : ∀ old new, P old → P new → P ⟨old.fields.overlay new.fields⟩)
    {documents : List Document} (h : ∀ document ∈ documents, P document) {document : Document}
    (hleft : leftBy action documents = some document) : P document := by
  have hfold (rest : List Document) (hrest : ∀ document ∈ rest, P document) (first : Document)
      (hfirst : P first) : P (rest.foldl
        (fun stored document => ⟨stored.fields.overlay document.fields⟩) first) := by
    induction rest generalizing first with
    | nil => exact hfirst
    | cons next rest ih =>
      refine ih (fun document hmem => hrest document (List.mem_cons_of_mem _ hmem)) _ ?_
      exact hoverlay _ _ hfirst (hrest next List.mem_cons_self)
  cases documents with
  | nil => cases hleft
  | cons first rest =>
    have hfirst := h first List.mem_cons_self
    have hrest := fun document hmem => h document (List.mem_cons_of_mem _ hmem)
    obtain rfl := Option.some.inj hleft
    cases action with
    | update | updateOnly => exact hfold rest hrest first hfirst
    | replace | replaceOnly | createOnly =>
      exact List.forall_mem_cons.2 ⟨hfirst, hrest⟩ _ List.getLastD_mem_cons

end Left

/-! ## Tables whose digests ascend -/

variable {κ : Type} [DecidableEq κ] [Key κ]

/-- The digests of the keys ascend. -/
def Ascending (t : Table κ) : Prop :=
  t.Pairwise fun a b => Key.digest a.1 < Key.digest b.1

variable {t t' : Table κ}

omit [DecidableEq κ] in
/-- Ascending digests are those of different keys. -/
theorem Ascending.pairwise_ne (h : t.Ascending) : t.Pairwise fun a b => a.1 ≠ b.1 := by
  refine h.imp fun hlt heq => ?_
  rw [heq] at hlt
  exact String.lt_irrefl _ hlt

/-- A document is found under a key exactly if the two are a pair of the table. -/
theorem Ascending.find_eq_some_iff (h : t.Ascending) {key : κ} {document : Document} :
    t.find key = some document ↔ (key, document) ∈ t := by
  have hne := h.pairwise_ne
  clear h
  unfold find
  induction t with
  | nil => simp
  | cons pair rest ih =>
    obtain ⟨k, d⟩ := pair
    obtain ⟨hhead, hrest⟩ := List.pairwise_cons.1 hne
    rw [List.find?_cons, List.mem_cons]
    by_cases heq : k = key
    · -- The key does not come again, so the first pair is the only one.
      subst heq
      have habsent : (k, document) ∉ rest := fun hmem => hhead _ hmem rfl
      simp [habsent, eq_comm]
    · simp only [heq, decide_false, ih hrest, Prod.mk.injEq, Ne.symm heq, false_and, false_or]

/-- A table is determined by what is found in it. -/
theorem Ascending.ext (h : t.Ascending) (h' : t'.Ascending)
    (hfind : ∀ key, t.find key = t'.find key) : t = t' := by
  have hnodup {t : Table κ} (h : t.Ascending) : t.Nodup :=
    h.pairwise_ne.imp fun hne heq => hne (congrArg Prod.fst heq)
  -- Sorted lists with the same members are the same.
  have hperm : t.Perm t' := by
    refine (List.perm_ext_iff_of_nodup (hnodup h) (hnodup h')).2 ?_
    rintro ⟨key, document⟩
    rw [← h.find_eq_some_iff, ← h'.find_eq_some_iff, hfind]
  refine hperm.eq_of_pairwise (fun a b _ _ hab hba => ?_) h h'
  exact absurd (String.lt_trans hab hba) (String.lt_irrefl _)

omit [DecidableEq κ] [Key κ] in
/-- The pairs that a query asks for are some of the pairs, in their order. -/
theorem select_sublist (q : Query) (t : Table κ) : (select q t).Sublist t := by
  unfold select
  split
  · exact List.take_sublist _ _
  · exact .refl t

variable [LawfulKey κ]

/-- Assigning a document to a key is putting the pair into the map of the pairs by their digests. -/
theorem map_assign (t : Table κ) (key : κ) (document : Document) :
    (t.assign key document).map (fun pair => (Key.digest pair.1, pair)) =
      OrderedMap.insertEntry (Key.digest key) (key, document)
        (t.map fun pair => (Key.digest pair.1, pair)) := by
  induction t with
  | nil => rfl
  | cons pair rest ih =>
    obtain ⟨k, d⟩ := pair
    rw [assign, List.map_cons, OrderedMap.insertEntry]
    simp only [LawfulKey.digest_inj]
    split_ifs
    · rfl
    · rfl
    · rw [List.map_cons, ih]

/-- The digests still ascend after an assignment. -/
theorem Ascending.assign (h : t.Ascending) (key : κ) (document : Document) :
    (t.assign key document).Ascending := by
  have hmapped : (t.map fun pair => (Key.digest pair.1, pair)).Pairwise fun a b => a.1 < b.1 :=
    List.pairwise_map.2 h
  have hsorted := OrderedMap.sorted_insertEntry (Key.digest key) (key, document) hmapped
  rw [← map_assign, List.pairwise_map] at hsorted
  exact hsorted

omit [LawfulKey κ] in
/-- A key whose digest comes after all others is assigned at the end, and was not there. -/
theorem assign_of_forall_lt {key : κ} (h : ∀ pair ∈ t, Key.digest pair.1 < Key.digest key)
    (document : Document) :
    t.assign key document = t ++ [(key, document)] ∧ t.find key = none := by
  induction t with
  | nil => exact ⟨rfl, rfl⟩
  | cons pair rest ih =>
    obtain ⟨k, d⟩ := pair
    have hlt : Key.digest k < Key.digest key := h (k, d) List.mem_cons_self
    have hne : key ≠ k := fun heq => String.lt_irrefl _ (heq ▸ hlt)
    obtain ⟨hassign, hfind⟩ := ih fun pair hmem => h pair (List.mem_cons_of_mem _ hmem)
    constructor
    · rw [Table.assign, if_neg (fun hgt => String.lt_irrefl _ (String.lt_trans hlt hgt)),
        if_neg hne, hassign, List.cons_append]
    · rw [find] at hfind ⊢
      rw [List.find?_cons_of_neg (by simpa using hne.symm), hfind]

/-! ## Writes one after the other -/

/-- The table is what is left of lines: its digests ascend, and under each key there is what the
documents of the key leave. -/
structure Settles (action : ExistsAction) (lines : List (κ × Document)) (t : Table κ) : Prop where
  /-- The digests ascend. -/
  ascending : t.Ascending
  /-- Each key has what its documents leave. -/
  find : ∀ key, t.find key = leftBy action (documentsOf lines key)

omit [LawfulKey κ] in
/-- There is one table that is left of lines. -/
theorem Settles.unique {action : ExistsAction} {lines : List (κ × Document)}
    (h : Settles action lines t) (h' : Settles action lines t') : t = t' :=
  h.ascending.ext h'.ascending fun key => (h.find key).trans (h'.find key).symm

/-- The distinct keys of lines have ascending digests. -/
theorem pairwise_keysOf (lines : List (κ × Document)) :
    (keysOf lines).Pairwise fun a b => Key.digest a < Key.digest b := by
  let before (a b : κ) : Prop := Text.octets (Key.digest a) ≤ Text.octets (Key.digest b)
  have hbefore (a b : κ) : before a b ↔ Key.digest a ≤ Key.digest b := Text.octets_le_octets_iff
  have : Std.Total before := ⟨fun a b => by
    rw [hbefore, hbefore]
    exact String.le_total _ _⟩
  have : IsTrans κ before := ⟨fun a b c hab hbc => by
    rw [hbefore] at hab hbc ⊢
    exact String.le_trans hab hbc⟩
  have hsorted := List.pairwise_insertionSort before (lines.map (·.1)).dedup
  have hnodup : (keysOf lines).Nodup :=
    (List.perm_insertionSort before _).nodup_iff.2 (List.nodup_dedup _)
  refine (hsorted.and hnodup).imp fun {a b} h => ?_
  obtain ⟨hle, hne⟩ := h
  rcases Decidable.em (Key.digest a < Key.digest b) with hlt | hnot
  · exact hlt
  · have heq := String.le_antisymm ((hbefore a b).1 hle) (String.not_lt.1 hnot)
    exact absurd (LawfulKey.digest_inj.1 heq) hne

/-- The table that is told without the writes is what is left of lines. -/
theorem settles_settled (action : ExistsAction) (lines : List (κ × Document)) :
    Settles action lines (settled action lines) := by
  have hascending : (settled action lines).Ascending := by
    refine (pairwise_keysOf lines).filterMap _ fun a b hlt pair hpair pair' hpair' => ?_
    obtain ⟨_, -, rfl⟩ := Option.map_eq_some_iff.1 hpair
    obtain ⟨_, -, rfl⟩ := Option.map_eq_some_iff.1 hpair'
    exact hlt
  refine ⟨hascending, fun key => Option.ext fun document => ?_⟩
  rw [hascending.find_eq_some_iff, settled, List.mem_filterMap]
  constructor
  · rintro ⟨k, -, hpair⟩
    obtain ⟨d, hleft, heq⟩ := Option.map_eq_some_iff.1 hpair
    obtain ⟨rfl, rfl⟩ := Prod.mk.inj heq
    exact hleft
  · intro hleft
    refine ⟨key, ?_, by rw [hleft]; rfl⟩
    -- The key is one of the lines, since something is left under it.
    rw [keysOf, List.mem_insertionSort, List.mem_dedup]
    by_contra habsent
    rw [documentsOf_eq_nil_iff.2 habsent] at hleft
    cases hleft

variable {store : MappedStore κ Document}

/-- A line that is written into what is left of the lines before it. -/
theorem settles_write {lines : List (κ × Document)}
    (haction : store.mapping.writePolicy.existsAction = .update ∨
      store.mapping.writePolicy.existsAction = .replace)
    (h : Settles store.mapping.writePolicy.existsAction lines t) (line : κ × Document) :
    ∃ t', write store line.1 line.2 t = (.ok (), t') ∧
      Settles store.mapping.writePolicy.existsAction (lines ++ [line]) t' := by
  obtain ⟨result, hwritten, hleft⟩ := written_leftBy haction (store.addressOf line.1)
    (documentsOf lines line.1) line.2
  refine ⟨t.assign line.1 result, ?_, h.ascending.assign line.1 result, fun key => ?_⟩
  · rw [write, h.find, hwritten]
  · rw [find_assign, documentsOf_concat]
    split
    · next heq => rw [heq, hleft]
    · rw [List.append_nil, h.find]

/-- Lines that are not refused are all written into what is left of the lines before them. -/
theorem settles_putAll {before lines : List (κ × Document)}
    (haction : store.mapping.writePolicy.existsAction = .update ∨
      store.mapping.writePolicy.existsAction = .replace)
    (hrefusal : ∀ line ∈ lines, store.refusal? line.2 = none)
    (h : Settles store.mapping.writePolicy.existsAction before t) :
    ∃ t', (putAll store lines).runFrom (some t) = (.ok (), some t') ∧
      Settles store.mapping.writePolicy.existsAction (before ++ lines) t' := by
  induction lines generalizing before t with
  | nil => exact ⟨t, rfl, by rwa [List.append_nil]⟩
  | cons line rest ih =>
    obtain ⟨t₁, hwrite, hsettles⟩ := settles_write haction h line
    have hput : (put store line.1 line.2).runFrom (some t) = (.ok (), some t₁) := by
      rw [put, hrefusal line List.mem_cons_self]
      show ((write store line.1 line.2 t).1, some (write store line.1 line.2 t).2) = _
      rw [hwrite]
    obtain ⟨t', hrest, hsettles'⟩ := ih (fun l hmem => hrefusal l (List.mem_cons_of_mem _ hmem))
      hsettles
    refine ⟨t', ?_, by rwa [List.append_assoc] at hsettles'⟩
    rw [Table.putAll, Call.runFrom_bind, hput]
    exact hrest

/-- Writing lines into the empty table leads to the table that is told without the writes. -/
theorem runFrom_putAll_nil {lines : List (κ × Document)}
    (haction : store.mapping.writePolicy.existsAction = .update ∨
      store.mapping.writePolicy.existsAction = .replace)
    (hrefusal : ∀ line ∈ lines, store.refusal? line.2 = none) :
    (putAll store lines).runFrom (some []) =
      (.ok (), some (settled store.mapping.writePolicy.existsAction lines)) := by
  have hempty : Settles (κ := κ) store.mapping.writePolicy.existsAction [] [] :=
    ⟨.nil, fun _ => rfl⟩
  obtain ⟨t, hrun, hsettles⟩ := settles_putAll haction hrefusal hempty
  rw [hrun, hsettles.unique (settles_settled _ lines)]

end Table

end EntityStore
