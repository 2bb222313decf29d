import EntityStore.Serializer.Native

/-!
# Native values lead back to the JSON values they were made of

`Native.toJson_ofJson` goes by recursion on the value. Only the numbers need an argument: an integer
takes the signed word if it is below `2 ^ 63` and the unsigned one otherwise, and either word has
the integer as its value.
-/

namespace EntityStore.Native

/-- The word of an integer has the integer as its value. -/
theorem toJson_ofInt (n : WideInt) : toJson (ofInt n) = .int n := by
  obtain ⟨val, lower, upper⟩ := n
  unfold ofInt
  split
  · next hlt =>
    -- The signed word has room for the integer.
    simp only at hlt
    have hword : (Int64.ofInt val).toInt = val := Int64.toInt_ofInt_of_le lower hlt
    simp [toJson, WideInt.ofInt64, hword]
  · next hge =>
    simp only at hge
    have hword : (UInt64.ofNat val.toNat).toNat = val.toNat :=
      UInt64.toNat_ofNat_of_lt' (by simp only [UInt64.size]; omega)
    have hval : (val.toNat : Int) = val := Int.toNat_of_nonneg (by omega)
    simp [toJson, WideInt.ofUInt64, hword, hval]

/-- A finite double is a JSON value itself. -/
theorem ofDouble_finite (x : Binary.FiniteDouble) : Json.ofDouble x.val = .float x := by
  simp [Json.ofDouble, Binary.FiniteDouble.ofDouble?, x.isFinite]

/-- A double that is not finite has no place in a document. -/
theorem ofDouble_not_finite {d : Binary.Double} (h : d.isFinite = false) :
    Json.ofDouble d = .null := by
  simp [Json.ofDouble, Binary.FiniteDouble.ofDouble?, h]

/-- The value of a double is a floating-point number exactly if it is this number. -/
theorem ofDouble_eq_float_iff {x : Binary.FiniteDouble} {d : Binary.Double} :
    Json.ofDouble d = .float x ↔ d = x.val := by
  constructor
  · intro h
    cases hfinite : d.isFinite with
    | true =>
      have hd : Json.ofDouble d = .float ⟨d, hfinite⟩ := ofDouble_finite ⟨d, hfinite⟩
      obtain rfl := Json.float.inj (hd.symm.trans h)
      rfl
    | false => cases (ofDouble_not_finite hfinite).symm.trans h
  · rintro rfl
    exact ofDouble_finite x

mutual

/-- A JSON value comes back from its store value. -/
theorem toJson_ofJson : ∀ value : Json, toJson (ofJson value) = value
  | .null => rfl
  | .bool _ => rfl
  | .int n => toJson_ofInt n
  | .float x => ofDouble_finite x
  | .string _ => rfl
  | .array items => congrArg Json.array (toJsonItems_ofJsonItems items)
  | .object members => congrArg Json.object (toJsonMembers_ofJsonMembers members)

/-- The items of a list come back from their store values. -/
theorem toJsonItems_ofJsonItems : ∀ items : List Json, toJsonItems (ofJsonItems items) = items
  | [] => rfl
  | item :: rest => by
    rw [ofJsonItems, toJsonItems, toJson_ofJson item, toJsonItems_ofJsonItems rest]

/-- Named values come back from their store values. -/
theorem toJsonMembers_ofJsonMembers :
    ∀ members : List (String × Json), toJsonMembers (ofJsonMembers members) = members
  | [] => rfl
  | (name, value) :: rest => by
    rw [ofJsonMembers, toJsonMembers, toJson_ofJson value, toJsonMembers_ofJsonMembers rest]

end

end EntityStore.Native
