import EntityStore.Proofs.Cbor.Depth
import EntityStore.Proofs.Cbor.Encoding
import EntityStore.Proofs.Serializer.Codec

/-!
# Fields in octets

The CBOR serializer keeps the encoding of a field, if a bin may hold that many octets, and it does
not look at how deep the field nests. The reader does: what is kept of a field is read back if the
field nests at most 127 levels, and is refused otherwise (`fieldOfBin_of_binOfField`). A value
inside 128 arrays takes 129 octets, so that it is accepted and then cannot be read
(`fieldOfBin_nested`).

Within this depth the serializer is exact: it keeps a field if and only if the encoding is short
enough, it keeps this encoding, and it gives the field back (`binOfField_exact`).
-/

namespace EntityStore

/-- The empty value inside arrays that are inside one another. -/
def Json.nested : Nat → Json
  | 0 => .null
  | levels + 1 => .array [nested levels]

namespace Json

/-- Nested arrays are canonical, since nothing in them could be otherwise. -/
theorem canonical_nested (levels : Nat) : (nested levels).Canonical := by
  induction levels with
  | zero => trivial
  | succ levels ih => exact ⟨ih, trivial⟩

/-- The nesting of nested arrays is their number. -/
theorem nesting_nested (levels : Nat) : (nested levels).nesting = levels := by
  induction levels with
  | zero => rfl
  | succ levels ih => rw [nested, nesting, itemsNesting, itemsNesting, ih, Nat.max_zero]

/-- Each array takes one octet. -/
theorem write_nested (levels : Nat) :
    Cbor.write (nested levels) = List.replicate levels 0x81 ++ [0xf6] := by
  induction levels with
  | zero => rfl
  | succ levels ih =>
    have hhead : Cbor.head 4 [nested levels].length = [0x81] := rfl
    rw [nested, Cbor.write, hhead, Cbor.writeItems, Cbor.writeItems, ih, List.append_nil]
    rfl

end Json

namespace Serializer

/-! ## The depth of a field -/

/-- The encoding of a canonical value, if it is short enough for a bin, is read if the value nests
at most 127 levels. -/
theorem fieldOfBin_write {json : Json} (hcanonical : json.Canonical)
    (hlength : (Cbor.write json).length ≤ fieldLimit) (bin : String) :
    cbor.fieldOfBin bin (.bytes (Cbor.write json)) =
      if json.nesting ≤ 127 then .ok json else .error (.undecodableBin bin) := by
  have hlimit : fieldLimit < 2 ^ 64 := by decide
  have hread := Cbor.read?_write_eq hcanonical (Nat.lt_of_le_of_lt hlength hlimit)
  unfold Cbor.maxDepth at hread
  unfold fieldOfBin
  simp only [Value.bytes?, hlength, if_true, hread]
  split_ifs with hnesting
  · rfl
  · rfl

/-- The CBOR serializer keeps what is short enough for a bin. -/
theorem binOfField_eq_bytes_iff {bin : String} {json : Json} {value : Value} :
    cbor.binOfField bin json = .ok value ↔
      (Cbor.write json).length ≤ fieldLimit ∧ value = .bytes (Cbor.write json) := by
  rw [binOfField_eq_ok_iff, accepts, toValue, decide_eq_true_eq, eq_comm]

/-- What is kept of a field is read back if the field nests at most 127 levels, and is refused
otherwise. -/
theorem fieldOfBin_of_binOfField {bin : String} {json : Json} {value : Value}
    (hcanonical : json.Canonical) (h : cbor.binOfField bin json = .ok value) :
    cbor.fieldOfBin bin value =
      if json.nesting ≤ 127 then .ok json else .error (.undecodableBin bin) := by
  obtain ⟨hlength, rfl⟩ := binOfField_eq_bytes_iff.1 h
  exact fieldOfBin_write hcanonical hlength bin

/-- A value inside as many arrays as the reader goes deep is read back. -/
theorem fieldOfBin_of_binOfField_deepest :
    ∃ value, cbor.binOfField "f" (.nested 127) = .ok value ∧
      cbor.fieldOfBin "f" value = .ok (.nested 127) := by
  have hlength : (Cbor.write (.nested 127)).length ≤ fieldLimit := by
    rw [Json.write_nested, List.length_append, List.length_replicate]
    decide
  have hkept : cbor.binOfField "f" (.nested 127) = .ok (.bytes (Cbor.write (.nested 127))) :=
    binOfField_eq_bytes_iff.2 ⟨hlength, rfl⟩
  refine ⟨_, hkept, ?_⟩
  rw [fieldOfBin_of_binOfField (Json.canonical_nested 127) hkept, Json.nesting_nested]
  rfl

/-- A value inside arrays is kept as long as there are fewer than a bin may hold octets, and is
refused by the reader from 128 arrays on. -/
theorem fieldOfBin_nested {levels : Nat} (hlevels : levels < fieldLimit) (bin : String) :
    ∃ value, cbor.binOfField bin (.nested levels) = .ok value ∧
      cbor.fieldOfBin bin value =
        if levels ≤ 127 then .ok (.nested levels) else .error (.undecodableBin bin) := by
  have hlength : (Cbor.write (.nested levels)).length ≤ fieldLimit := by
    rw [Json.write_nested, List.length_append, List.length_replicate]
    exact hlevels
  refine ⟨_, binOfField_eq_bytes_iff.2 ⟨hlength, rfl⟩, ?_⟩
  rw [fieldOfBin_write (Json.canonical_nested levels) hlength, Json.nesting_nested]

/-- The serializer accepts a value inside 128 arrays, and refuses what it keeps of it. -/
theorem undecodable_nested :
    ∃ value, cbor.binOfField "f" (.nested 128) = .ok value ∧
      cbor.fieldOfBin "f" value = .error (.undecodableBin "f") := by
  have hlimit : 128 < fieldLimit := by decide
  obtain ⟨value, hkept, hread⟩ := fieldOfBin_nested hlimit "f"
  exact ⟨value, hkept, hread⟩

/-! ## The encoding of a field -/

/-- A field is kept exactly if it has an encoding that is short enough for a bin. -/
theorem exists_binOfField_iff {bin : String} {json : Json} :
    (∃ value, cbor.binOfField bin json = .ok value) ↔
      ∃ octets, Cbor.Encodes json octets ∧ octets.length ≤ fieldLimit := by
  have hlimit : fieldLimit < 2 ^ 64 := by decide
  constructor
  · rintro ⟨value, hkept⟩
    obtain ⟨hlength, -⟩ := binOfField_eq_bytes_iff.1 hkept
    exact ⟨_, Cbor.encodes_write json (Nat.lt_of_le_of_lt hlength hlimit), hlength⟩
  · rintro ⟨octets, hencodes, hlength⟩
    obtain rfl := Cbor.eq_write_of_encodes hencodes
    exact ⟨_, binOfField_eq_bytes_iff.2 ⟨hlength, rfl⟩⟩

/-- A field that nests at most 127 levels is kept exactly if its encoding takes at most `2 ^ 20`
octets. What is kept is the encoding, and the field is read back from it. -/
theorem binOfField_exact {bin : String} {json : Json} (hcanonical : json.Canonical)
    (hnesting : json.nesting ≤ 127) :
    ((∃ value, cbor.binOfField bin json = .ok value) ↔
        ∃ octets, Cbor.Encodes json octets ∧ octets.length ≤ 2 ^ 20) ∧
      ∀ value, cbor.binOfField bin json = .ok value →
        (∃ octets, Cbor.Encodes json octets ∧ value = .bytes octets) ∧
          cbor.fieldOfBin bin value = .ok json := by
  have hlimit : fieldLimit = 2 ^ 20 := by decide
  constructor
  · rw [exists_binOfField_iff, hlimit]
  · intro value hkept
    obtain ⟨hlength, rfl⟩ := binOfField_eq_bytes_iff.1 hkept
    have hencodes := Cbor.encodes_write json (by omega)
    have hread := fieldOfBin_write hcanonical hlength bin
    rw [if_pos hnesting] at hread
    exact ⟨⟨_, hencodes, rfl⟩, hread⟩

/-- A field with a negative zero, with the least positive number of half precision, the greatest one
of single precision and the least positive one of double precision, with integers at the ends of
their range, and with a text. -/
def manyNumbers : Json :=
  .object [
    ("floats", .array [
      .float ⟨⟨0x8000000000000000⟩, by decide⟩, .float ⟨⟨0x3e70000000000000⟩, by decide⟩,
      .float ⟨⟨0x47efffffe0000000⟩, by decide⟩, .float ⟨⟨1⟩, by decide⟩]),
    ("integers", .array [
      .int ⟨-9223372036854775808, by decide, by decide⟩,
      .int ⟨18446744073709551615, by decide, by decide⟩]),
    ("text", .string "é")]

/-- The numbers and the text are kept, and read back as they are. -/
theorem binOfField_exact_manyNumbers :
    ∃ value, cbor.binOfField "f" manyNumbers = .ok value ∧
      (∃ octets, Cbor.Encodes manyNumbers octets ∧ value = .bytes octets) ∧
        cbor.fieldOfBin "f" value = .ok manyNumbers := by
  have hcanonical : manyNumbers.Canonical :=
    ⟨by decide, ⟨trivial, trivial, trivial, trivial, trivial⟩, ⟨trivial, trivial, trivial⟩,
      trivial, trivial⟩
  have hnesting : manyNumbers.nesting ≤ 127 := by decide
  have hlength : (Cbor.write manyNumbers).length ≤ fieldLimit := by decide +kernel
  have hkept : cbor.binOfField "f" manyNumbers = .ok (.bytes (Cbor.write manyNumbers)) :=
    binOfField_eq_bytes_iff.2 ⟨hlength, rfl⟩
  exact ⟨_, hkept, (binOfField_exact hcanonical hnesting).2 _ hkept⟩

end Serializer

end EntityStore
