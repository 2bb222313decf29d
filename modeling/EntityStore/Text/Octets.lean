/-!
# Texts as octets

Files, CBOR items and the tags of YAML nodes hold texts as octets, in the encoding UTF-8. `octets`
writes a text and `ofOctets?` reads one; not every list of octets is a text, but what was written
reads back (`ofOctets?_octets`).
-/

namespace EntityStore.Text

/-- The octets that encode a text. -/
def octets (s : String) : List UInt8 :=
  s.toByteArray.data.toList

/-- The text that octets encode, if they encode one. -/
def ofOctets? (octets : List UInt8) : Option String :=
  String.fromUTF8? ⟨octets.toArray⟩

/-- The octets of a text are those of its characters. -/
theorem octets_eq_flatMap (s : String) : octets s = s.toList.flatMap String.utf8EncodeChar := by
  rw [octets, ← String.utf8Encode_toList, List.utf8Encode, List.data_toByteArray]

/-- The octets of a text encode it. -/
theorem ofOctets?_octets (s : String) : ofOctets? (octets s) = some s := by
  simp only [ofOctets?, octets, Array.toArray_toList]
  exact dif_pos s.isValidUTF8

end EntityStore.Text
