import EntityStore.Proofs.Binary.Finite
import EntityStore.Proofs.Serializer.Native
import Mathlib.Algebra.Order.Group.Nat

/-!
# The store values that JSON values become

Native conversion loses nothing of a JSON value (`toJson_ofJson`). The other way round some store
values have no JSON value of their own: octets, doubles that are not finite, and unsigned words that
a signed word could hold (`Value.Foreign`). They turn into another value on the way to JSON and
back, wherever they are inside a value, and they are all that does (`ofJson_toJson_iff`). So the
store values that JSON values become are those with nothing foreign inside (`ofJson_image`).
-/

namespace EntityStore

namespace Value

/-- One value is inside another one, at any depth: it is the value itself, or inside an item of a
list or inside a member of a map. -/
inductive Inside : Value → Value → Prop where
  /-- A value is inside itself. -/
  | self (value : Value) : Inside value value
  /-- What is inside an item is inside the list. -/
  | item {inner item : Value} {items : List Value} (hmem : item ∈ items) (h : Inside inner item) :
    Inside inner (list items)
  /-- What is inside a member is inside the map. -/
  | member {inner : Value} {entry : String × Value} {members : List (String × Value)}
    (hmem : entry ∈ members) (h : Inside inner entry.2) : Inside inner (map members)

/-- The values that JSON has only another value for. -/
inductive Foreign : Value → Prop where
  /-- Octets become a list of numbers. -/
  | bytes (octets : List UInt8) : Foreign (bytes octets)
  /-- What is not a finite number becomes `null`. -/
  | float {x : Binary.Double} (h : x.datum = .nan ∨ ∃ negative, x.datum = .infinity negative) :
    Foreign (float x)
  /-- An unsigned word that a signed one could hold becomes the signed one. -/
  | uint {n : UInt64} (h : n.toNat < 2 ^ 63) : Foreign (uint n)

/-- Nothing that is inside the value is foreign. -/
def IsNative (value : Value) : Prop :=
  ∀ inner : Value, inner.Inside value → ¬inner.Foreign

/-- Are there no items and no members in the value? -/
def isLeaf : Value → Bool
  | list _ | map _ => false
  | _ => true

/-- A value without items and members is native unless it is foreign itself. -/
theorem isNative_iff_of_isLeaf {value : Value} (h : value.isLeaf = true) :
    value.IsNative ↔ ¬value.Foreign := by
  constructor
  · intro hnative
    exact hnative value (.self value)
  · intro hforeign inner hinside
    cases hinside with
    | self => exact hforeign
    | item | member => cases h

/-- A list is native exactly if its items are. -/
theorem isNative_list_iff {items : List Value} :
    (list items).IsNative ↔ ∀ item ∈ items, item.IsNative := by
  constructor
  · intro hnative item hmem inner hinside
    exact hnative inner (.item hmem hinside)
  · intro hitems inner hinside
    cases hinside with
    | self => exact nofun
    | item hmem hinside => exact hitems _ hmem inner hinside

/-- A map is native exactly if its members are. -/
theorem isNative_map_iff {members : List (String × Value)} :
    (map members).IsNative ↔ ∀ entry ∈ members, entry.2.IsNative := by
  constructor
  · intro hnative entry hmem inner hinside
    exact hnative inner (.member hmem hinside)
  · intro hmembers inner hinside
    cases hinside with
    | self => exact nofun
    | member hmem hinside => exact hmembers _ hmem inner hinside

end Value

namespace Native

/-! ## Numbers -/

/-- A signed word comes back from the integer that it holds. -/
theorem ofInt_ofInt64 (n : Int64) : ofInt (.ofInt64 n) = .int n := by
  have hlt : (WideInt.ofInt64 n).val < 9223372036854775808 := n.toInt_lt
  unfold ofInt
  rw [if_pos hlt]
  exact congrArg Value.int (Int64.ofInt_toInt n)

/-- An unsigned word comes back from its JSON value exactly if no signed word could hold it. -/
theorem ofJson_ofUInt64_iff (n : UInt64) :
    ofJson (.int (.ofUInt64 n)) = .uint n ↔ ¬(Value.uint n).Foreign := by
  have hval : (WideInt.ofUInt64 n).val = n.toNat := rfl
  unfold ofJson ofInt
  constructor
  · rintro heq (_ | _ | hlt)
    have hsigned : (WideInt.ofUInt64 n).val < 9223372036854775808 := by omega
    rw [if_pos hsigned] at heq
    cases heq
  · intro hnative
    have hge : ¬n.toNat < 2 ^ 63 := fun hlt => hnative (.uint hlt)
    have hunsigned : ¬(WideInt.ofUInt64 n).val < 9223372036854775808 := by omega
    rw [if_neg hunsigned, hval, Int.toNat_natCast, UInt64.ofNat_toNat]

/-- A double comes back from its JSON value exactly if it is finite. -/
theorem ofJson_ofDouble_iff (x : Binary.Double) :
    ofJson (.ofDouble x) = .float x ↔ ¬(Value.float x).Foreign := by
  cases hfinite : x.isFinite with
  | true =>
    have hvalue : Json.ofDouble x = .float ⟨x, hfinite⟩ := ofDouble_finite ⟨x, hfinite⟩
    have hnative : ¬(Value.float x).Foreign := by
      rintro (_ | hnumber | _)
      rw [← Binary.Double.isFinite_eq_false_iff, hfinite] at hnumber
      cases hnumber
    rw [hvalue]
    exact iff_of_true rfl hnative
  | false =>
    have hforeign := Value.Foreign.float (Binary.Double.isFinite_eq_false_iff.1 hfinite)
    rw [ofDouble_not_finite hfinite]
    exact iff_of_false nofun (not_not_intro hforeign)

/-! ## All values -/

mutual

/-- A store value comes back from its JSON value exactly if nothing foreign is inside it. -/
theorem ofJson_toJson_iff : ∀ value : Value, ofJson (toJson value) = value ↔ value.IsNative
  | .null => iff_of_true rfl ((Value.isNative_iff_of_isLeaf rfl).2 nofun)
  | .bool _ => iff_of_true rfl ((Value.isNative_iff_of_isLeaf rfl).2 nofun)
  | .text _ => iff_of_true rfl ((Value.isNative_iff_of_isLeaf rfl).2 nofun)
  | .int n => iff_of_true (ofInt_ofInt64 n) ((Value.isNative_iff_of_isLeaf rfl).2 nofun)
  | .uint n => by
    rw [Value.isNative_iff_of_isLeaf rfl]
    exact ofJson_ofUInt64_iff n
  | .float x => by
    rw [Value.isNative_iff_of_isLeaf rfl]
    exact ofJson_ofDouble_iff x
  | .bytes octets => iff_of_false nofun fun hnative => hnative _ (.self _) (.bytes octets)
  | .list items => by
    rw [toJson, ofJson, Value.list.injEq, Value.isNative_list_iff]
    exact ofJsonItems_toJsonItems_iff items
  | .map members => by
    rw [toJson, ofJson, Value.map.injEq, Value.isNative_map_iff]
    exact ofJsonMembers_toJsonMembers_iff members

/-- Items come back from their JSON values exactly if nothing foreign is inside them. -/
theorem ofJsonItems_toJsonItems_iff : ∀ items : List Value,
    ofJsonItems (toJsonItems items) = items ↔ ∀ item ∈ items, item.IsNative
  | [] => by simp [toJsonItems, ofJsonItems]
  | item :: rest => by
    rw [toJsonItems, ofJsonItems, List.cons.injEq, List.forall_mem_cons, ofJson_toJson_iff item,
      ofJsonItems_toJsonItems_iff rest]

/-- Members come back from their JSON values exactly if nothing foreign is inside them. -/
theorem ofJsonMembers_toJsonMembers_iff : ∀ members : List (String × Value),
    ofJsonMembers (toJsonMembers members) = members ↔ ∀ entry ∈ members, entry.2.IsNative
  | [] => by simp [toJsonMembers, ofJsonMembers]
  | (name, value) :: rest => by
    rw [toJsonMembers, ofJsonMembers, List.cons.injEq, Prod.mk.injEq, List.forall_mem_cons,
      ofJson_toJson_iff value, ofJsonMembers_toJsonMembers_iff rest, eq_self, true_and]

end

/-- Every JSON value comes back from its store value. A store value comes back from its JSON value
exactly if nothing inside it, at any depth, is octets, a double that is not finite or an unsigned
word that a signed one could hold; and those are the store values that JSON values become. -/
theorem ofJson_image :
    (∀ json, toJson (ofJson json) = json) ∧
      ∀ value : Value,
        (ofJson (toJson value) = value ↔ ∀ inner : Value, inner.Inside value → ¬inner.Foreign) ∧
        ((∃ json, ofJson json = value) ↔ ∀ inner : Value, inner.Inside value → ¬inner.Foreign) := by
  refine ⟨toJson_ofJson, fun value => ?_⟩
  have hback : ofJson (toJson value) = value ↔ value.IsNative := ofJson_toJson_iff value
  refine ⟨hback, ⟨?_, fun hnative => ⟨toJson value, hback.2 hnative⟩⟩⟩
  rintro ⟨json, rfl⟩
  exact hback.1 (congrArg ofJson (toJson_ofJson json))

/-- A word that is greater than all signed ones comes back, also from inside a list, and a smaller
one becomes a signed word. -/
example : ofJson (toJson (.list [.uint 9223372036854775808, .uint 7])) =
    .list [.uint 9223372036854775808, .int 7] := by
  rfl

end Native

end EntityStore
