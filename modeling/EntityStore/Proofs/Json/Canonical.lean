import EntityStore.Json.Written
import EntityStore.Proofs.Json.Nesting
import EntityStore.Proofs.OrderedMap

/-!
# What is read is canonical

A JSON value that is read from a text lists the members of its objects in the order of their names,
since an object is made of a map, and nests no deeper than the reader goes
(`Written.canonical_of_toJson?`). So the values that an application receives are canonical, and only
its own limit on the depth decides whether the CBOR serializer is made for them.
-/

namespace EntityStore.Json

/-! ## Items and members one by one -/

/-- Items are canonical if each of them is. -/
theorem canonicalItems_iff {items : List Json} :
    CanonicalItems items ↔ ∀ item ∈ items, item.Canonical := by
  induction items with
  | nil => simp [CanonicalItems]
  | cons item rest ih =>
    rw [CanonicalItems, ih]
    simp

/-- Items nest as deep as the deepest of them. -/
theorem itemsNesting_le_iff {items : List Json} {depth : Nat} :
    itemsNesting items ≤ depth ↔ ∀ item ∈ items, item.nesting ≤ depth := by
  induction items with
  | nil => simp [itemsNesting]
  | cons item rest ih =>
    rw [itemsNesting, Nat.max_le, ih]
    simp

/-- Members are canonical if each of their values is. -/
theorem canonicalMembers_iff {members : List (String × Json)} :
    CanonicalMembers members ↔ ∀ m ∈ members, m.2.Canonical := by
  induction members with
  | nil => simp [CanonicalMembers]
  | cons m rest ih =>
    obtain ⟨name, value⟩ := m
    rw [CanonicalMembers, ih]
    simp

/-- Members nest as deep as the deepest of their values. -/
theorem membersNesting_le_iff {members : List (String × Json)} {depth : Nat} :
    membersNesting members ≤ depth ↔ ∀ m ∈ members, m.2.nesting ≤ depth := by
  induction members with
  | nil => simp [membersNesting]
  | cons m rest ih =>
    obtain ⟨name, value⟩ := m
    rw [membersNesting, Nat.max_le, ih]
    simp

/-- An array of canonical items is canonical, and nests one level deeper. -/
theorem canonical_array {items : List Json} {depth : Nat}
    (h : ∀ item ∈ items, item.Canonical ∧ item.nesting ≤ depth) :
    (array items).Canonical ∧ (array items).nesting ≤ depth + 1 :=
  ⟨canonicalItems_iff.2 fun item hitem => (h item hitem).1,
    Nat.succ_le_succ (itemsNesting_le_iff.2 fun item hitem => (h item hitem).2)⟩

/-- An object with the canonical values of a map is canonical, and nests one level deeper. -/
theorem canonical_ofMap {members : OrderedMap Json} {depth : Nat}
    (h : ∀ m ∈ members.entries, m.2.Canonical ∧ m.2.nesting ≤ depth) :
    (ofMap members).Canonical ∧ (ofMap members).nesting ≤ depth + 1 :=
  ⟨⟨members.sorted, canonicalMembers_iff.2 fun m hm => (h m hm).1⟩,
    Nat.succ_le_succ (membersNesting_le_iff.2 fun m hm => (h m hm).2)⟩

/-- An object that is made of members has some of them, in the order of their names. -/
theorem canonical_ofMembers {members : List (String × Json)} {depth : Nat}
    (h : ∀ m ∈ members, m.2.Canonical ∧ m.2.nesting ≤ depth) :
    (ofMembers members).Canonical ∧ (ofMembers members).nesting ≤ depth + 1 :=
  canonical_ofMap fun m hm =>
    h m (OrderedMap.mem_of_get?_ofList (OrderedMap.get?_eq_some_iff.2 hm))

/-! ## Values that are read -/

/-- A number that is read with a sign is a floating-point number. -/
theorem Numeral.float_of_signed? {negative : Bool} {magnitude : Binary.Double} {json : Json}
    (h : signed? negative magnitude = some json) : ∃ x, json = .float x := by
  obtain ⟨x, -, rfl⟩ := Option.map_eq_some_iff.1 h
  exact ⟨x, rfl⟩

/-- A number whose exponent is out of range is nothing or zero, and any other is scaled. -/
theorem Numeral.float_of_ite {outOfRange tooGreat : Prop} [Decidable outOfRange]
    [Decidable tooGreat] {negative : Bool} {zero : Binary.Double} {scaled : Option Binary.Double}
    {json : Json}
    (h : (if outOfRange then if tooGreat then none else signed? negative zero
      else scaled.bind (signed? negative)) = some json) : ∃ x, json = .float x := by
  split_ifs at h
  · exact float_of_signed? h
  · obtain ⟨magnitude, -, hsigned⟩ := Option.bind_eq_some_iff.1 h
    exact float_of_signed? hsigned

/-- A number that is read is an integer or a floating-point number. -/
theorem Numeral.value?_eq_some {n : Numeral} {json : Json} (h : n.value? = some json) :
    (∃ i, json = .int i) ∨ ∃ x, json = .float x := by
  unfold value? at h
  cases hint : n.intValue? with
  | some i =>
    rw [hint] at h
    exact .inl ⟨i, (Option.some.inj h).symm⟩
  | none =>
    rw [hint] at h
    exact .inr (float_of_ite h)

mutual

/-- A value that is read is canonical, and nests no deeper than the reader goes. -/
theorem Written.canonical_of_toJson? : ∀ (written : Written) (depth : Nat) {json : Json},
    written.toJson? depth = some json → json.Canonical ∧ json.nesting ≤ depth
  | .null, depth, json, h => by
    obtain rfl := Option.some.inj h
    exact ⟨trivial, Nat.zero_le _⟩
  | .bool b, depth, json, h => by
    obtain rfl := Option.some.inj h
    exact ⟨trivial, Nat.zero_le _⟩
  | .numeral n, depth, json, h => by
    rcases Numeral.value?_eq_some h with ⟨i, rfl⟩ | ⟨x, rfl⟩
    · exact ⟨trivial, Nat.zero_le _⟩
    · exact ⟨trivial, Nat.zero_le _⟩
  | .text pieces, depth, json, h => by
    obtain ⟨s, -, rfl⟩ := Option.map_eq_some_iff.1 h
    exact ⟨trivial, Nat.zero_le _⟩
  | .array items, 0, json, h => by cases h
  | .array items, depth + 1, json, h => by
    obtain ⟨values, hvalues, rfl⟩ := Option.map_eq_some_iff.1 h
    obtain ⟨hcanonical, hnesting⟩ := canonicalItems_of_itemsToJson? items depth hvalues
    exact ⟨hcanonical, Nat.succ_le_succ hnesting⟩
  | .object members, 0, json, h => by cases h
  | .object members, depth + 1, json, h => by
    obtain ⟨named, hnamed, rfl⟩ := Option.map_eq_some_iff.1 h
    exact canonical_ofMembers (canonical_of_membersToJson? members depth hnamed)

/-- Items that are read are canonical, and nest no deeper than the reader goes. -/
theorem Written.canonicalItems_of_itemsToJson? : ∀ (items : List Written) (depth : Nat)
    {values : List Json}, itemsToJson? depth items = some values →
    CanonicalItems values ∧ itemsNesting values ≤ depth
  | [], depth, values, h => by
    obtain rfl := Option.some.inj h
    exact ⟨trivial, Nat.zero_le _⟩
  | item :: rest, depth, values, h => by
    rw [itemsToJson?] at h
    cases hitem : item.toJson? depth with
    | none =>
      rw [hitem] at h
      cases h
    | some value =>
      rw [hitem] at h
      obtain ⟨others, hothers, rfl⟩ := Option.map_eq_some_iff.1 h
      obtain ⟨hcanonical, hnesting⟩ := canonical_of_toJson? item depth hitem
      obtain ⟨hcanonical', hnesting'⟩ := canonicalItems_of_itemsToJson? rest depth hothers
      exact ⟨⟨hcanonical, hcanonical'⟩, Nat.max_le.2 ⟨hnesting, hnesting'⟩⟩

/-- The values of members that are read are canonical, and nest no deeper than the reader goes. -/
theorem Written.canonical_of_membersToJson? : ∀ (members : List (List Piece × Written))
    (depth : Nat) {named : List (String × Json)}, membersToJson? depth members = some named →
    ∀ m ∈ named, m.2.Canonical ∧ m.2.nesting ≤ depth
  | [], depth, named, h => by
    obtain rfl := Option.some.inj h
    exact fun _ hm => absurd hm List.not_mem_nil
  | (pieces, written) :: rest, depth, named, h => by
    rw [membersToJson?] at h
    split at h
    · next name value _ hvalue =>
      obtain ⟨others, hothers, rfl⟩ := Option.map_eq_some_iff.1 h
      intro m hm
      rcases List.mem_cons.1 hm with rfl | hm
      · exact canonical_of_toJson? written depth hvalue
      · exact canonical_of_membersToJson? rest depth hothers m hm
    · cases h

end

end EntityStore.Json
