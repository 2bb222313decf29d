import EntityStore.Proofs.Mapping.Binding
import EntityStore.Proofs.Serializer.Codec

/-!
# Bins that carry certain fields

An entity of a type with a fixed shape is read from the fields it needs, and other fields do not
matter. So its bins may be among others, as they are after a write over a stored record. The others
do not disturb as long as none of them leads to a field of the entity and all of them can be read
(`Mapping.Resolved.Spares`). Bins that carry fields in this sense lead back to these fields
(`Mapping.Resolved.Carries.exists_fields`), if the names of the fields survive the way to their bins
and back.
-/

namespace EntityStore.Mapping.Resolved

variable {m : Resolved} {s : Serializer} {names : List String} {members : List (String × Json)}
  {bins old : Bins}

/-- Besides the bins of certain fields there are only bins that can be read and lead to other
fields. -/
def Spares (m : Resolved) (s : Serializer) (names : List String) (bins : Bins) : Prop :=
  ∀ bin value, bins.get? bin = some value →
    (∃ name ∈ names, m.binOf name = bin) ∨
      m.fieldOf bin ∉ names ∧ ∃ json, s.fieldOfBin bin value = .ok json

/-- The bins hold the values of certain fields, and spare these fields. -/
structure Carries (m : Resolved) (s : Serializer) (members : List (String × Json)) (bins : Bins) :
    Prop where
  /-- Every field has its value in its bin. -/
  stored : ∀ member ∈ members, ∃ value,
    s.binOfField (m.binOf member.1) member.2 = .ok value ∧
      bins.get? (m.binOf member.1) = some value
  /-- Other bins do not disturb. -/
  spares : m.Spares s (members.map Prod.fst) bins

/-- Bins that were made of fields carry them. -/
theorem carries_of_binds (hdistinct : members.Pairwise fun a b => a.1 ≠ b.1)
    (h : m.Binds s.binOfField (.ofList members) bins) : m.Carries s members bins := by
  have hget : ∀ {name value},
      (OrderedMap.ofList members).get? name = some value ↔ (name, value) ∈ members :=
    OrderedMap.get?_ofList_eq_some_iff hdistinct
  constructor
  · intro member hmember
    exact h.stored (hget.2 hmember)
  · intro bin value hbin
    obtain ⟨name, json, hname, rfl⟩ := h.found hbin
    exact .inl ⟨name, List.mem_map_of_mem (hget.1 hname), rfl⟩

/-- Bins that carry fields still do so over bins that spare the fields. -/
theorem Carries.overlay (h : m.Carries s members bins)
    (hold : m.Spares s (members.map Prod.fst) old) : m.Carries s members (old.overlay bins) := by
  constructor
  · intro member hmember
    obtain ⟨value, hkept, hstored⟩ := h.stored member hmember
    exact ⟨value, hkept, by rw [OrderedMap.get?_overlay, hstored, Option.some_or]⟩
  · intro bin value hbin
    rw [OrderedMap.get?_overlay, Option.or_eq_some_iff] at hbin
    rcases hbin with hnew | ⟨-, hunder⟩
    · exact h.spares bin value hnew
    · exact hold bin value hunder

/-- The value of a carried field is read from its bin. -/
theorem Carries.exists_fieldOfBin (h : m.Carries s members bins)
    (hpreserves : ∀ member ∈ members, s.Preserves member.2) {member : String × Json}
    (hmember : member ∈ members) :
    ∃ value, bins.get? (m.binOf member.1) = some value ∧
      s.fieldOfBin (m.binOf member.1) value = .ok member.2 := by
  obtain ⟨value, hkept, hstored⟩ := h.stored member hmember
  obtain ⟨haccepts, rfl⟩ := Serializer.binOfField_eq_ok_iff.1 hkept
  exact ⟨_, hstored, Serializer.fieldOfBin_toValue haccepts (hpreserves member hmember) _⟩

/-- Bins that carry fields lead back to these fields, and maybe to others, if the names of the
fields survive. -/
theorem Carries.exists_fields (h : m.Carries s members bins)
    (hnames : ∀ name ∈ members.map Prod.fst, m.fieldOf (m.binOf name) = name)
    (hpreserves : ∀ member ∈ members, s.Preserves member.2) :
    ∃ fields, m.ofBins s.fieldOfBin bins = .ok fields ∧
      ∀ member ∈ members, fields.get? member.1 = some member.2 := by
  have hreadable : ∀ bin value, bins.get? bin = some value →
      ∃ json, s.fieldOfBin bin value = .ok json := by
    intro bin value hbin
    rcases h.spares bin value hbin with ⟨name, hname, rfl⟩ | ⟨-, hread⟩
    · obtain ⟨member, hmember, rfl⟩ := List.mem_map.1 hname
      obtain ⟨stored, hstored, hread⟩ := h.exists_fieldOfBin hpreserves hmember
      rw [hbin] at hstored
      obtain rfl := Option.some.inj hstored
      exact ⟨_, hread⟩
    · exact hread
  obtain ⟨fields, hfields, horigin, harrival⟩ := ofBins_eq_ok hreadable
  refine ⟨fields, hfields, fun member hmember => ?_⟩
  have hname : member.1 ∈ members.map Prod.fst := List.mem_map_of_mem hmember
  obtain ⟨stored, hstored, hread⟩ := h.exists_fieldOfBin hpreserves hmember
  obtain ⟨json, hjson⟩ := harrival _ _ hstored
  rw [hnames _ hname] at hjson
  -- What has arrived under the name comes from a bin of the fields, so from that of the name.
  obtain ⟨bin, value, hbin, hfield, hback⟩ := horigin _ _ hjson
  have hself : bin = m.binOf member.1 := by
    rcases h.spares bin value hbin with ⟨other, hother, rfl⟩ | ⟨hforeign, -⟩
    · rw [hnames _ hother] at hfield
      rw [hfield]
    · rw [hfield] at hforeign
      exact absurd hname hforeign
  subst hself
  rw [hbin] at hstored
  obtain rfl := Option.some.inj hstored
  rw [hread] at hback
  rw [hjson, Except.ok.inj hback]

end EntityStore.Mapping.Resolved
