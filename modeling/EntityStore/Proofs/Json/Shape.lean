import EntityStore.Json.Shape
import EntityStore.Proofs.OrderedMap
import EntityStore.Proofs.Serializer.Native

/-!
# Typed values read back from JSON

A word, a list or a map that is written as a JSON value is read back by the reader of its shape, and
so is an optional value, unless what it is written as is `null`. Only a double can be lost: one that
is not finite is written as `null`, and no double is read from that (`asDouble_ofDouble`).
-/

namespace EntityStore.Json

variable {α : Type}

/-! ## Numbers -/

/-- An integer in the range of a shape is read. -/
theorem asInt_int {expected : Shape} {least bound : Int} {n : WideInt}
    (hleast : least ≤ n.val) (hbound : n.val < bound) :
    asInt expected least bound (.int n) = .ok n.val :=
  if_pos ⟨hleast, hbound⟩

/-- An unsigned word of 64 bits is read back. -/
theorem asUInt64_ofUInt64 (n : UInt64) : asUInt64 (.int (.ofUInt64 n)) = .ok n := by
  have hval : (WideInt.ofUInt64 n).val = n.toNat := rfl
  have hlt := n.toNat_lt
  rw [asUInt64, asInt_int (by omega) (by omega), hval, Except.map, Int.toNat_natCast,
    UInt64.ofNat_toNat]

/-- An unsigned word of 32 bits is read back from the wider one. -/
theorem asUInt32_ofUInt64 (n : UInt32) : asUInt32 (.int (.ofUInt64 n.toUInt64)) = .ok n := by
  have hval : (WideInt.ofUInt64 n.toUInt64).val = n.toNat :=
    congrArg Nat.cast (UInt32.toNat_toUInt64 n)
  have hlt := n.toNat_lt
  rw [asUInt32, asInt_int (by omega) (by omega), hval, Except.map, Int.toNat_natCast,
    UInt32.ofNat_toNat]

/-- A signed word is read back. -/
theorem asInt64_ofInt64 (n : Int64) : asInt64 (.int (.ofInt64 n)) = .ok n := by
  have hval : (WideInt.ofInt64 n).val = n.toInt := rfl
  have hle := n.le_toInt
  have hlt := n.toInt_lt
  rw [asInt64, asInt_int (by omega) (by omega), hval, Except.map, Int64.ofInt_toInt]

/-- A double is read back if it is finite. Otherwise it was written as `null`, which is none. -/
theorem asDouble_ofDouble (x : Binary.Double) :
    asDouble (.ofDouble x) = if x.isFinite then .ok x else .error (.wrongType .null .f64) := by
  cases hfinite : x.isFinite with
  | true =>
    have hvalue : Json.ofDouble x = .float ⟨x, hfinite⟩ := Native.ofDouble_finite ⟨x, hfinite⟩
    rw [hvalue]
    rfl
  | false =>
    rw [Native.ofDouble_not_finite hfinite]
    rfl

/-! ## Values that are made of others -/

section Collections

variable {read : Json → Except ShapeError α} {write : α → Json}

/-- An optional value is read back if what it is written as is read back and is not `null`. -/
theorem asOption_getD (h : ∀ a, read (write a) = .ok a) (hnull : ∀ a, write a ≠ .null)
    (found : Option α) : asOption read ((found.map write).getD .null) = .ok found := by
  cases found with
  | none => rfl
  | some a =>
    have hread := h a
    have hne := hnull a
    rw [Option.map_some, Option.getD_some]
    generalize write a = value at hread hne
    unfold asOption
    split
    · exact absurd rfl hne
    · rw [hread]
      rfl

/-- A list is read back if its items are. -/
theorem asList_array_map (h : ∀ a, read (write a) = .ok a) (l : List α) :
    asList read (.array (l.map write)) = .ok l := by
  have hback : read ∘ write = pure := funext h
  rw [asList, List.mapM_map, hback, List.mapM_pure, List.map_id']
  rfl

/-- A map is read back if its values are. -/
theorem asMap_ofMap_mapValues (h : ∀ a, read (write a) = .ok a) (m : OrderedMap α) :
    asMap read (.ofMap (m.mapValues write)) = .ok m := by
  have hback : (fun e : String × Json => (read e.2).map (e.1, ·)) ∘
      (fun e : String × α => (e.1, write e.2)) = pure := by
    funext e
    simp only [Function.comp_apply, h]
    rfl
  rw [ofMap, OrderedMap.mapValues, asMap, List.mapM_map, hback, List.mapM_pure, List.map_id']
  exact congrArg Except.ok (OrderedMap.ofList_entries m)

end Collections

/-! ## Fields -/

variable {fields : OrderedMap Json} {name : String} {value : Json}
  {read : Json → Except ShapeError α}

/-- A field that is there and is read has a value. -/
theorem field?_eq_ok {a : α} (hget : fields.get? name = some value) (hread : read value = .ok a) :
    field? fields name read = .ok (some a) := by
  rw [field?, hget]
  simp only [hread]
  rfl

/-- A field that is there and is not read says why. -/
theorem field?_eq_error {e : ShapeError} (hget : fields.get? name = some value)
    (hread : read value = .error e) : field? fields name read = .error e := by
  rw [field?, hget]
  simp only [hread]
  rfl

end EntityStore.Json
