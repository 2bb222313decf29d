import EntityStore.Proofs.Mapping.Binding
import EntityStore.Proofs.Text.Order
import Mathlib.Data.Set.Function
import Mathlib.Data.String.Basic

/-!
# Fields that cannot be bound

Binding takes the fields in their order. It refuses a field whose bin an earlier field owns, and it
refuses a field whose value cannot be converted, in this order (`Mapping.Resolved.Refuses`). It
stops at the first field that it refuses, and it succeeds if it refuses none
(`Mapping.Resolved.toBins_eq_error_iff`). The loop invariant `Mapping.Resolved.Progress` says of the
owners so far that they are the owners in this sense: those of the fields that have been bound.

A conversion that never fails leaves one cause, two fields with one bin. So fields are either all
kept, each in its own bin, or refused for the first field that comes too late
(`Mapping.Resolved.toBins_keeps_or_refuses`).
-/

namespace EntityStore.Mapping.Resolved

variable {m : Resolved} {convert : String → Json → Except SerializationError Value}
  {fields : OrderedMap Json} {field owner : String} {json : Json} {e e' : SerializationError}

/-! ## The first field that is refused -/

/-- A field comes before another one, in the order of their octets, and goes to the same bin. So it
owns the bin when the other one is to be bound. -/
structure Owns (m : Resolved) (fields : OrderedMap Json) (owner field : String) : Prop where
  /-- The owner is a field. -/
  mem : owner ∈ fields.keys
  /-- It comes before the other one. -/
  before : Text.octets owner < Text.octets field
  /-- It goes to the same bin. -/
  bin : m.binOf owner = m.binOf field

/-- Why a field is refused if no field before it is. Its bin is looked at before its value. -/
inductive Refuses (m : Resolved) (convert : String → Json → Except SerializationError Value)
    (fields : OrderedMap Json) : String → SerializationError → Prop where
  /-- Another field owns the bin. -/
  | shared {owner field : String} (hfield : field ∈ fields.keys)
    (howns : m.Owns fields owner field) :
    Refuses m convert fields field (.sharedBin owner field m.entityType (m.binOf field))
  /-- Nobody owns the bin, and the value cannot be converted. -/
  | unconverted {field : String} {json : Json} {e : SerializationError}
    (hget : fields.get? field = some json) (hfree : ∀ owner, ¬m.Owns fields owner field)
    (hconvert : convert (m.binOf field) json = .error e) : Refuses m convert fields field e

/-- The field is refused, and no field before it is. -/
structure FirstRefusal (m : Resolved) (convert : String → Json → Except SerializationError Value)
    (fields : OrderedMap Json) (field : String) (e : SerializationError) : Prop where
  /-- The field is refused. -/
  refuses : m.Refuses convert fields field e
  /-- No field before it is refused. -/
  first : ∀ other, Text.octets other < Text.octets field → ∀ cause,
    ¬m.Refuses convert fields other cause

/-- What is refused is a field. -/
theorem Refuses.mem (h : m.Refuses convert fields field e) : field ∈ fields.keys := by
  cases h with
  | shared hfield howns => exact hfield
  | unconverted hget hfree hconvert => exact OrderedMap.mem_keys_iff.2 ⟨_, hget⟩

/-- Two fields before the first refused one do not go to the same bin. -/
theorem FirstRefusal.owner_eq {other : String} (h : m.FirstRefusal convert fields field e)
    (howns : m.Owns fields owner field) (howns' : m.Owns fields other field) : owner = other := by
  have hbin : m.binOf owner = m.binOf other := howns.bin.trans howns'.bin.symm
  -- The later one of the two would be refused because of the other one.
  rcases lt_trichotomy owner other with hlt | heq | hlt
  · have hearlier : m.Owns fields owner other :=
      ⟨howns.mem, Text.octets_lt_octets_iff.2 hlt, hbin⟩
    exact absurd (.shared howns'.mem hearlier) (h.first other howns'.before _)
  · exact heq
  · have hearlier : m.Owns fields other owner :=
      ⟨howns'.mem, Text.octets_lt_octets_iff.2 hlt, hbin.symm⟩
    exact absurd (.shared howns.mem hearlier) (h.first owner howns.before _)

/-- There is one first refusal at most. -/
theorem FirstRefusal.unique {other : String} (h : m.FirstRefusal convert fields field e)
    (h' : m.FirstRefusal convert fields other e') : field = other ∧ e = e' := by
  have hfield : field = other := by
    rcases lt_trichotomy field other with hlt | heq | hlt
    · exact absurd h.refuses (h'.first field (Text.octets_lt_octets_iff.2 hlt) e)
    · exact heq
    · exact absurd h'.refuses (h.first other (Text.octets_lt_octets_iff.2 hlt) e')
  subst hfield
  refine ⟨rfl, ?_⟩
  cases h.refuses with
  | shared hfield howns =>
    cases h'.refuses with
    | shared hfield' howns' => rw [h.owner_eq howns howns']
    | unconverted hget hfree hconvert => exact absurd howns (hfree _)
  | unconverted hget hfree hconvert =>
    cases h'.refuses with
    | shared hfield' howns' => exact absurd howns' (hfree _)
    | unconverted hget' hfree' hconvert' =>
      obtain rfl := Option.some.inj (hget.symm.trans hget')
      exact Except.error.inj (hconvert.symm.trans hconvert')

/-! ## The loop -/

/-- What is known when some fields have been bound and the rest is still to be bound. -/
structure Progress (m : Resolved) (convert : String → Json → Except SerializationError Value)
    (fields : OrderedMap Json) (bound rest : List (String × Json)) (owners : OrderedMap String) :
    Prop where
  /-- The fields are taken in their order. -/
  entries : fields.entries = bound ++ rest
  /-- The owners are the fields that have been bound. -/
  owner_iff : ∀ bin owner, owners.get? bin = some owner ↔
    ∃ member ∈ bound, member.1 = owner ∧ m.binOf owner = bin
  /-- None of them is refused. -/
  accepted : ∀ member ∈ bound, ∀ cause, ¬m.Refuses convert fields member.1 cause

namespace Progress

variable {bound rest : List (String × Json)} {owners : OrderedMap String}

/-- Before the first field nobody owns a bin. -/
theorem start (m : Resolved) (convert : String → Json → Except SerializationError Value)
    (fields : OrderedMap Json) : m.Progress convert fields [] fields.entries .empty :=
  ⟨rfl, by simp, by simp⟩

/-- The fields that have been bound are those before the next one. -/
theorem mem_bound_iff (h : m.Progress convert fields bound ((field, json) :: rest) owners) :
    (∃ member ∈ bound, member.1 = owner) ↔ owner ∈ fields.keys ∧ owner < field := by
  have hsorted := fields.sorted
  rw [h.entries, List.pairwise_append] at hsorted
  obtain ⟨-, hrest, hbefore⟩ := hsorted
  have hafter := (List.pairwise_cons.1 hrest).1
  rw [OrderedMap.keys, h.entries, List.mem_map]
  constructor
  · rintro ⟨member, hmember, rfl⟩
    exact ⟨⟨member, List.mem_append_left _ hmember, rfl⟩,
      hbefore member hmember _ List.mem_cons_self⟩
  · rintro ⟨⟨member, hmember, rfl⟩, hlt⟩
    rcases List.mem_append.1 hmember with hmember | hmember
    · exact ⟨member, hmember, rfl⟩
    · -- The next field and those after it do not come before it.
      rcases List.mem_cons.1 hmember with rfl | hmember
      · exact absurd hlt (String.lt_irrefl _)
      · exact absurd (String.lt_trans hlt (hafter member hmember)) (String.lt_irrefl _)

/-- The owner of the bin of the next field is a field before it with the same bin. -/
theorem get?_owners_iff (h : m.Progress convert fields bound ((field, json) :: rest) owners) :
    owners.get? (m.binOf field) = some owner ↔ m.Owns fields owner field := by
  have hbound : (∃ member ∈ bound, member.1 = owner) ↔ _ := h.mem_bound_iff
  rw [h.owner_iff]
  constructor
  · rintro ⟨member, hmember, heq, hbin⟩
    obtain ⟨hmem, hlt⟩ := hbound.1 ⟨member, hmember, heq⟩
    exact ⟨hmem, Text.octets_lt_octets_iff.2 hlt, hbin⟩
  · rintro ⟨hmem, hlt, hbin⟩
    obtain ⟨member, hmember, heq⟩ := hbound.2 ⟨hmem, Text.octets_lt_octets_iff.1 hlt⟩
    exact ⟨member, hmember, heq, hbin⟩

/-- The value of the next field. -/
theorem get?_next (h : m.Progress convert fields bound ((field, json) :: rest) owners) :
    fields.get? field = some json := by
  rw [OrderedMap.get?_eq_some_iff, h.entries]
  exact List.mem_append_right _ List.mem_cons_self

/-- If the next field is refused, it is the first one. -/
theorem firstRefusal (h : m.Progress convert fields bound ((field, json) :: rest) owners)
    (hrefuses : m.Refuses convert fields field e) : m.FirstRefusal convert fields field e := by
  refine ⟨hrefuses, fun other hbefore cause hother => ?_⟩
  obtain ⟨member, hmember, rfl⟩ :=
    h.mem_bound_iff.2 ⟨hother.mem, Text.octets_lt_octets_iff.1 hbefore⟩
  exact h.accepted member hmember cause hother

/-- A field whose bin nobody owns and whose value is converted is bound. -/
theorem step (h : m.Progress convert fields bound ((field, json) :: rest) owners)
    (hfree : owners.get? (m.binOf field) = none) {value : Value}
    (hconvert : convert (m.binOf field) json = .ok value) :
    m.Progress convert fields (bound ++ [(field, json)]) rest
      (owners.insert (m.binOf field) field) := by
  refine ⟨?_, fun bin owner => ?_, fun member hmember cause => ?_⟩
  · rw [h.entries, List.append_assoc, List.singleton_append]
  · rw [OrderedMap.get?_insert]
    split
    · next heq =>
      subst heq
      -- The field is the only one so far that goes to its bin.
      constructor
      · intro howner
        obtain rfl := Option.some.inj howner
        exact ⟨_, List.mem_append_right _ (List.mem_singleton_self _), rfl, rfl⟩
      · rintro ⟨member, hmember, rfl, hbin⟩
        rcases List.mem_append.1 hmember with hmember | hmember
        · have howner := (h.owner_iff (m.binOf field) member.1).2 ⟨member, hmember, rfl, hbin⟩
          rw [hfree] at howner
          cases howner
        · rw [List.mem_singleton.1 hmember]
    · next hne =>
      rw [h.owner_iff]
      constructor
      · rintro ⟨member, hmember, heq, hbin⟩
        exact ⟨member, List.mem_append_left _ hmember, heq, hbin⟩
      · rintro ⟨member, hmember, rfl, hbin⟩
        rcases List.mem_append.1 hmember with hmember | hmember
        · exact ⟨member, hmember, rfl, hbin⟩
        · rw [List.mem_singleton.1 hmember] at hbin
          exact absurd hbin.symm hne
  · rcases List.mem_append.1 hmember with hmember | hmember
    · exact h.accepted member hmember cause
    · rw [List.mem_singleton.1 hmember]
      intro hrefuses
      cases hrefuses with
      | shared hfield howns =>
        rw [h.get?_owners_iff.2 howns] at hfree
        cases hfree
      | unconverted hget hnobody herror =>
        obtain rfl := Option.some.inj (h.get?_next.symm.trans hget)
        rw [hconvert] at herror
        cases herror

/-- The loop fails with the first refusal, or succeeds and there is no refusal. -/
theorem bindInto_cases (h : m.Progress convert fields bound rest owners) (bins : Bins) :
    (∃ field e, m.bindInto convert owners bins rest = .error e ∧
        m.FirstRefusal convert fields field e) ∨
      ∃ result, m.bindInto convert owners bins rest = .ok result ∧
        ∀ field e, ¬m.Refuses convert fields field e := by
  induction rest generalizing bound owners bins with
  | nil =>
    refine .inr ⟨bins, rfl, fun field e hrefuses => ?_⟩
    obtain ⟨member, hmember, rfl⟩ := List.mem_map.1 hrefuses.mem
    rw [h.entries, List.append_nil] at hmember
    exact h.accepted member hmember e hrefuses
  | cons next rest ih =>
    obtain ⟨field, json⟩ := next
    rw [bindInto]
    cases howner : owners.get? (m.binOf field) with
    | some owner =>
      have howns := h.get?_owners_iff.1 howner
      have hmem : field ∈ fields.keys := OrderedMap.mem_keys_iff.2 ⟨json, h.get?_next⟩
      exact .inl ⟨field, _, rfl, h.firstRefusal (.shared hmem howns)⟩
    | none =>
      have hfree : ∀ owner, ¬m.Owns fields owner field := by
        intro owner howns
        rw [h.get?_owners_iff.2 howns] at howner
        cases howner
      cases hconvert : convert (m.binOf field) json with
      | error e =>
        exact .inl ⟨field, e, rfl, h.firstRefusal (.unconverted h.get?_next hfree hconvert)⟩
      | ok value =>
        exact ih (h.step howner hconvert) (bins.insert (m.binOf field) value)

end Progress

/-! ## All fields together -/

/-- Fields are refused for the cause of the first field that is. -/
theorem toBins_eq_error_iff :
    m.toBins convert fields = .error e ↔ ∃ field, m.FirstRefusal convert fields field e := by
  unfold toBins
  rcases (Progress.start m convert fields).bindInto_cases .empty with
    ⟨field, cause, hresult, hfirst⟩ | ⟨result, hresult, hnone⟩
  · rw [hresult, Except.error.injEq]
    constructor
    · rintro rfl
      exact ⟨field, hfirst⟩
    · rintro ⟨other, hother⟩
      exact (hfirst.unique hother).2
  · rw [hresult]
    constructor
    · intro herror
      cases herror
    · rintro ⟨field, hfirst⟩
      exact absurd hfirst.refuses (hnone field e)

/-! ## Conversions that never fail -/

/-- If every value is converted, a field is refused because another one owns its bin. -/
theorem Refuses.exists_owns {conversion : String → Json → Value}
    (h : m.Refuses (fun bin json => .ok (conversion bin json)) fields field e) :
    ∃ owner, m.Owns fields owner field ∧
      e = .sharedBin owner field m.entityType (m.binOf field) := by
  cases h with
  | shared hfield howns => exact ⟨_, howns, rfl⟩
  | unconverted hget hfree hconvert => cases hconvert

/-- If every value is converted, fields are bound exactly if no two of them go to the same bin. -/
theorem exists_toBins_iff_injOn (conversion : String → Json → Value) :
    (∃ bins, m.toBins (fun bin json => .ok (conversion bin json)) fields = .ok bins) ↔
      Set.InjOn m.binOf {field | field ∈ fields.keys} := by
  constructor
  · rintro ⟨bins, hbins⟩ f hf g hg hbin
    obtain ⟨v, hv⟩ := OrderedMap.mem_keys_iff.1 hf
    obtain ⟨w, hw⟩ := OrderedMap.mem_keys_iff.1 hg
    exact (binds_of_toBins hbins).injective hv hw hbin
  · intro hinjective
    cases hresult : m.toBins (fun bin json => .ok (conversion bin json)) fields with
    | ok bins => exact ⟨bins, rfl⟩
    | error e =>
      obtain ⟨field, hfirst⟩ := toBins_eq_error_iff.1 hresult
      obtain ⟨owner, howns, -⟩ := hfirst.refuses.exists_owns
      obtain rfl := hinjective howns.mem hfirst.refuses.mem howns.bin
      exact absurd howns.before (List.lt_irrefl _)

/-- Bins that fields are bound to are the bins of the fields, each with the converted value. -/
theorem mem_keys_toBins_iff {bins : Bins} (h : m.toBins convert fields = .ok bins) {bin : String} :
    bin ∈ bins.keys ↔ ∃ field ∈ fields.keys, m.binOf field = bin := by
  have hbinds := binds_of_toBins h
  constructor
  · intro hbin
    obtain ⟨value, hvalue⟩ := OrderedMap.mem_keys_iff.1 hbin
    obtain ⟨field, json, hget, heq⟩ := hbinds.found hvalue
    exact ⟨field, OrderedMap.mem_keys_iff.2 ⟨json, hget⟩, heq⟩
  · rintro ⟨field, hfield, rfl⟩
    obtain ⟨json, hget⟩ := OrderedMap.mem_keys_iff.1 hfield
    obtain ⟨value, -, hstored⟩ := hbinds.stored hget
    exact OrderedMap.mem_keys_iff.2 ⟨value, hstored⟩

/-- With a conversion that never fails, fields are bound exactly if no two of them go to the same
bin. What they are bound to are then their bins, with the converted values, and otherwise the
failure names the first field whose bin is owned already, and its owner. With any conversion, the
failure is that of the first field that is refused, be it for its bin or for its value. -/
theorem toBins_keeps_or_refuses (m : Resolved) (fields : OrderedMap Json) :
    (∀ conversion : String → Json → Value,
      let bound := m.toBins (fun bin json => .ok (conversion bin json)) fields
      ((∃ bins, bound = .ok bins) ↔ Set.InjOn m.binOf {field | field ∈ fields.keys}) ∧
      (∀ bins, bound = .ok bins →
        (∀ bin, bin ∈ bins.keys ↔ ∃ field ∈ fields.keys, m.binOf field = bin) ∧
        ∀ field json, fields.get? field = some json →
          bins.get? (m.binOf field) = some (conversion (m.binOf field) json)) ∧
      ∀ e, bound = .error e → ∃ owner field,
        e = .sharedBin owner field m.entityType (m.binOf field) ∧ field ∈ fields.keys ∧
          m.Owns fields owner field ∧
          ∀ other ∈ fields.keys, (∃ owner', m.Owns fields owner' other) →
            Text.octets field ≤ Text.octets other) ∧
    ∀ convert e, m.toBins convert fields = .error e ↔
      ∃ field, m.FirstRefusal convert fields field e := by
  refine ⟨fun conversion => ⟨exists_toBins_iff_injOn conversion, ?_, ?_⟩,
    fun convert e => toBins_eq_error_iff⟩
  · intro bins hbins
    refine ⟨fun bin => mem_keys_toBins_iff hbins, fun field json hget => ?_⟩
    obtain ⟨value, hvalue, hstored⟩ := (binds_of_toBins hbins).stored hget
    rw [hstored, Except.ok.inj hvalue]
  · intro e herror
    obtain ⟨field, hfirst⟩ := toBins_eq_error_iff.1 herror
    obtain ⟨owner, howns, rfl⟩ := hfirst.refuses.exists_owns
    refine ⟨owner, field, rfl, hfirst.refuses.mem, howns, fun other hother howned => ?_⟩
    obtain ⟨owner', howns'⟩ := howned
    -- A field before this one whose bin is owned would have been refused.
    rw [← List.not_lt]
    intro hbefore
    exact hfirst.first other hbefore _ (.shared hother howns')

/-- A mapping that sends two fields to the bin that has the name of a third one. -/
def crossing : Resolved where
  keyType := "String"
  entityType := "app.Item"
  ns := "app"
  collection := "Item"
  bindings := .ofList [("d", "a"), ("c", "a"), ("b", "x")]
  readPolicy := {}
  writePolicy := {}

/-- A field for each binding, and one more that owns the bin of two of them. -/
def crossingFields (b c : Json) : OrderedMap Json :=
  .ofList [("d", .null), ("c", c), ("b", b), ("a", .null)]

/-- A conversion that has no bin for truth values. -/
def withoutTruth (bin : String) : Json → Except SerializationError Value
  | .bool _ => .error (.oversizedBin bin)
  | json => .ok (Native.ofJson json)

/-- Of the two fields that go to an owned bin the first one is refused. It is refused for its bin
even if its value cannot be converted, but a field before it whose value cannot be converted is
refused first. -/
theorem toBins_keeps_or_refuses_crossing :
    (crossing.Owns (crossingFields .null .null) "a" "c" ∧
        ∀ other ∈ (crossingFields .null .null).keys,
          (∃ owner, crossing.Owns (crossingFields .null .null) owner other) →
            Text.octets "c" ≤ Text.octets other) ∧
      (∃ field, crossing.FirstRefusal withoutTruth (crossingFields .null (.bool true)) field
        (.sharedBin "a" "c" "app.Item" "a")) ∧
      ∃ field, crossing.FirstRefusal withoutTruth (crossingFields (.bool false) (.bool true)) field
        (.oversizedBin "x") := by
  obtain ⟨htotal, -⟩ := toBins_keeps_or_refuses crossing (crossingFields .null .null)
  obtain ⟨-, -, hrefused⟩ := htotal fun _ json => Native.ofJson json
  refine ⟨?_, ?_, ?_⟩
  · obtain ⟨owner, field, herror, -, howns, hleast⟩ := hrefused _ rfl
    obtain ⟨rfl, rfl, -, -⟩ := SerializationError.sharedBin.inj herror
    exact ⟨howns, hleast⟩
  · exact ((toBins_keeps_or_refuses crossing _).2 _ _).1 rfl
  · exact ((toBins_keeps_or_refuses crossing _).2 _ _).1 rfl

end EntityStore.Mapping.Resolved
