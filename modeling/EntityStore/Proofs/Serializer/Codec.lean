import EntityStore.Proofs.Cbor.RoundTrip
import EntityStore.Proofs.Serializer.Native
import EntityStore.Serializer.Basic

/-!
# What the two serializers have in common

Either serializer turns a JSON value into one store value (`Serializer.toValue`) or refuses it for
its length (`Serializer.accepts`), and reads an accepted value back (`fieldOfBin_toValue`) if it is
one that the encoding is made for (`Serializer.Preserves`).
-/

namespace EntityStore.Serializer

/-- The store value of a JSON value. -/
def toValue : Serializer → Json → Value
  | native, json => Native.ofJson json
  | cbor, json => .bytes (Cbor.write json)

/-- Is the encoding of a value short enough? The native serializer has no limit. -/
def accepts : Serializer → Json → Bool
  | native, _ => true
  | cbor, json => (Cbor.write json).length ≤ fieldLimit

/-- The values that a serializer is made for: all of them, or the canonical ones that nest no deeper
than the CBOR reader goes. -/
def Preserves : Serializer → Json → Prop
  | native, _ => True
  | cbor, json => json.Canonical ∧ json.nesting ≤ Cbor.maxDepth

/-- A value is kept, unless it is refused for its length. -/
theorem binOfField_eq (s : Serializer) (bin : String) (json : Json) :
    s.binOfField bin json =
      if s.accepts json then .ok (s.toValue json) else .error (.oversizedBin bin) := by
  cases s with
  | native => rfl
  | cbor => simp [binOfField, accepts, toValue]

/-- A value that is kept is an accepted one. -/
theorem binOfField_eq_ok_iff {s : Serializer} {bin : String} {json : Json} {value : Value} :
    s.binOfField bin json = .ok value ↔ s.accepts json = true ∧ s.toValue json = value := by
  rw [binOfField_eq]
  split
  · next haccepts => simp [haccepts]
  · next haccepts => simp [haccepts]

/-- An accepted value is read back. -/
theorem fieldOfBin_toValue {s : Serializer} {json : Json} (haccepts : s.accepts json = true)
    (hpreserves : s.Preserves json) (bin : String) :
    s.fieldOfBin bin (s.toValue json) = .ok json := by
  cases s with
  | native => rw [toValue, fieldOfBin, Native.toJson_ofJson]
  | cbor =>
    have hlength : (Cbor.write json).length ≤ fieldLimit := by simpa [accepts] using haccepts
    have hlimit : fieldLimit < 2 ^ 64 := by decide
    have hread := Cbor.read?_write hpreserves.1 hpreserves.2 (Nat.lt_of_le_of_lt hlength hlimit)
    simp [toValue, fieldOfBin, Value.bytes?, hlength, hread]

end EntityStore.Serializer
