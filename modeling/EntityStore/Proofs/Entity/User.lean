import EntityStore.Entity.User
import EntityStore.Proofs.Json.Canonical
import EntityStore.Proofs.Json.Shape
import EntityStore.Proofs.Serializer.Codec
import Mathlib.Data.List.Pairwise

/-!
# Users as fields

The fields of a user are those of `User.members`, with the same names for all users
(`User.fieldNames`). Every serializer preserves them (`User.preserves_of_mem_members`), and a user
is read back from any fields that have these among them, whatever the others are
(`User.ofFields_of_members`). There is one exception: a score that is not finite is written as
`null`, and no user is read then.
-/

namespace EntityStore.User

/-- The names and values of the fields of a user. -/
def members (u : User) : List (String × Json) := [
  ("name", .string u.name),
  ("email", (u.email.map Json.string).getD .null),
  ("age", .int (.ofUInt64 u.age.toUInt64)),
  ("score", .ofDouble u.score),
  ("hits", .int (.ofUInt64 u.hits)),
  ("floor", .int (.ofInt64 u.floor)),
  ("tags", .array (u.tags.map .string)),
  ("attributes", .ofMap (u.attributes.mapValues fun n => .int (.ofInt64 n)))]

/-- The names of the fields of users. -/
def fieldNames : List String :=
  ["name", "email", "age", "score", "hits", "floor", "tags", "attributes"]

/-- The fields of all users have the same names. -/
theorem map_fst_members (u : User) : u.members.map Prod.fst = fieldNames := rfl

/-- No two fields of a user have the same name. -/
theorem distinct_members (u : User) : u.members.Pairwise fun a b => a.1 ≠ b.1 := by
  have hnames : fieldNames.Pairwise (· ≠ ·) := by decide
  rw [← map_fst_members u] at hnames
  exact List.pairwise_map.1 hnames

/-- A user is stored as the map of its members. -/
theorem fields_eq (u : User) : Entity.fields u = .ok (.ofList u.members) :=
  congrArg Except.ok (OrderedMap.ofList_entries _)

/-! ## The values of the fields -/

/-- The members of a user are scalars, lists of scalars and maps of scalars. -/
theorem canonical_of_mem_members {u : User} {member : String × Json} (h : member ∈ u.members) :
    member.2.Canonical ∧ member.2.nesting ≤ 1 := by
  have hscalar : ∀ json : Json, json.Canonical → json.nesting ≤ 0 →
      json.Canonical ∧ json.nesting ≤ 1 := fun json hcanonical hnesting =>
    ⟨hcanonical, Nat.le_succ_of_le hnesting⟩
  have hemail : ((u.email.map Json.string).getD .null).Canonical ∧
      ((u.email.map Json.string).getD .null).nesting ≤ 1 := by
    cases u.email with
    | none => exact hscalar _ trivial (Nat.le_refl 0)
    | some address => exact hscalar _ trivial (Nat.le_refl 0)
  have hscore : (Json.ofDouble u.score).Canonical ∧ (Json.ofDouble u.score).nesting ≤ 1 := by
    unfold Json.ofDouble
    cases Binary.FiniteDouble.ofDouble? u.score with
    | none => exact hscalar _ trivial (Nat.le_refl 0)
    | some x => exact hscalar _ trivial (Nat.le_refl 0)
  have htag : ∀ item ∈ u.tags.map Json.string, item.Canonical ∧ item.nesting ≤ 0 := by
    intro item hitem
    obtain ⟨tag, -, rfl⟩ := List.mem_map.1 hitem
    exact ⟨trivial, Nat.le_refl 0⟩
  have hnumber : ∀ m ∈ (u.attributes.mapValues fun n => Json.int (.ofInt64 n)).entries,
      m.2.Canonical ∧ m.2.nesting ≤ 0 := by
    intro m hm
    obtain ⟨number, -, rfl⟩ := List.mem_map.1 hm
    exact ⟨trivial, Nat.le_refl 0⟩
  revert member
  simp only [members, List.forall_mem_cons]
  exact ⟨hscalar _ trivial (Nat.le_refl 0), hemail, hscalar _ trivial (Nat.le_refl 0), hscore,
    hscalar _ trivial (Nat.le_refl 0), hscalar _ trivial (Nat.le_refl 0), Json.canonical_array htag,
    Json.canonical_ofMap hnumber, nofun⟩

/-- Every serializer preserves the fields of users. -/
theorem preserves_of_mem_members {u : User} {member : String × Json} (h : member ∈ u.members)
    (s : Serializer) : s.Preserves member.2 := by
  obtain ⟨hcanonical, hnesting⟩ := canonical_of_mem_members h
  cases s with
  | native => trivial
  | cbor => exact ⟨hcanonical, Nat.le_trans hnesting (by decide)⟩

/-! ## Reading users -/

/-- From fields that have those of a user among them the user is read back, if the score is finite.
A score that is not finite is `null` among the fields, where a double is expected. -/
theorem ofFields_of_members {u : User} {fields : OrderedMap Json}
    (h : ∀ member ∈ u.members, fields.get? member.1 = some member.2) :
    ofFields fields =
      if u.score.isFinite then .ok u else .error (.wrongType .null .f64) := by
  simp only [members, List.forall_mem_cons] at h
  obtain ⟨hname, hemail, hage, hscore, hhits, hfloor, htags, hattributes, -⟩ := h
  have htext : ∀ s : String, Json.asText (.string s) = .ok s := fun _ => rfl
  have hage := Json.field?_eq_ok hage (Json.asUInt32_ofUInt64 u.age)
  have hattributes := Json.field?_eq_ok hattributes
    (Json.asMap_ofMap_mapValues Json.asInt64_ofInt64 u.attributes)
  have hemail := Json.field?_eq_ok hemail (Json.asOption_getD htext (fun _ => nofun) u.email)
  have hfloor := Json.field?_eq_ok hfloor (Json.asInt64_ofInt64 u.floor)
  have hhits := Json.field?_eq_ok hhits (Json.asUInt64_ofUInt64 u.hits)
  have hname := Json.field?_eq_ok hname (htext u.name)
  have htags := Json.field?_eq_ok htags (Json.asList_array_map htext u.tags)
  have hdouble := Json.asDouble_ofDouble u.score
  unfold ofFields
  rw [hage, hattributes, hemail, hfloor, hhits, hname, htags]
  split_ifs at hdouble ⊢ with hfinite
  · rw [Json.field?_eq_ok hscore hdouble]
    rfl
  · rw [Json.field?_eq_error hscore hdouble]
    rfl

end EntityStore.User
