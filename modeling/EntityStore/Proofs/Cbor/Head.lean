import EntityStore.Cbor.Reader
import EntityStore.Cbor.Writer
import EntityStore.Proofs.Binary.Range
import Mathlib.Algebra.Order.Group.Nat
import Mathlib.Tactic.Ring

/-!
# The heads of CBOR items read back

An item begins with a head in one of five widths. Whatever the width, its first octet holds the
major type and a low part, and `argument` reads the number back from the low part and the octets
after it (`exists_head`).
-/

namespace EntityStore.Cbor

/-! ## Numbers in octets -/

/-- A number is written in as many octets as are asked for. -/
@[simp] theorem length_bigEndian (n width : Nat) : (bigEndian n width).length = width := by
  induction width with
  | zero => rfl
  | succ width ih => rw [bigEndian, List.length_cons, ih]

/-- The octets of a number write its remainder. -/
theorem bigEndianValue_bigEndian (n width read : Nat) :
    bigEndianValue read (bigEndian n width) = read * 256 ^ width + n % 256 ^ width := by
  induction width generalizing read with
  | zero => simp [bigEndian, bigEndianValue, Nat.mod_one]
  | succ width ih =>
    have hoctet : (UInt8.ofNat (n / Nat.pow 256 width)).toNat = n / 256 ^ width % 256 := rfl
    rw [bigEndian, bigEndianValue, ih, hoctet, Nat.mod_pow_succ]
    ring

/-- Octets at the start are read whole. -/
theorem octets_append (read rest : List UInt8) :
    octets read.length (read ++ rest) = some (read, rest) := by
  simp [octets]

/-- A number that fits in its octets is read back. -/
theorem word_bigEndian (width : Nat) {n : Nat} (h : n < 256 ^ width) (rest : List UInt8) :
    word width (bigEndian n width ++ rest) = some (n, rest) := by
  have hread := octets_append (bigEndian n width) rest
  rw [length_bigEndian] at hread
  simp [word, hread, bigEndianValue_bigEndian, Nat.mod_eq_of_lt h]

/-! ## Heads -/

/-- The first octet of a head. -/
def firstOctet (major low : Nat) : UInt8 :=
  UInt8.ofNat (32 * major + low)

/-- The high bits of a first octet are the major type. -/
theorem firstOctet_div {major low : Nat} (hmajor : major < 8) (hlow : low < 32) :
    (firstOctet major low).toNat / 32 = major := by
  have hword : (firstOctet major low).toNat = (32 * major + low) % 256 := rfl
  rw [hword]
  omega

/-- The low bits of a first octet are its low part. -/
theorem firstOctet_mod (major : Nat) {low : Nat} (hlow : low < 32) :
    (firstOctet major low).toNat % 32 = low := by
  have hword : (firstOctet major low).toNat = (32 * major + low) % 256 := rfl
  rw [hword]
  omega

/-- A head is a first octet with a low part, and octets from which the number is read back. -/
theorem exists_head (major : Nat) {n : Nat} (h : n < 2 ^ 64) :
    ∃ low tail, head major n = firstOctet major low :: tail ∧ low < 28 ∧
      ∀ rest, argument low (tail ++ rest) = some (n, rest) := by
  unfold head
  -- The five widths: in the low part itself, or in one, two, four or eight octets after it.
  split_ifs with h0 h1 h2 h3
  · exact ⟨n, [], rfl, by omega, fun rest => by simp [argument, h0]⟩
  · exact ⟨24, bigEndian n 1, rfl, by decide, fun rest => by
      simpa [argument] using word_bigEndian 1 (by omega) rest⟩
  · exact ⟨25, bigEndian n 2, rfl, by decide, fun rest => by
      simpa [argument] using word_bigEndian 2 (by omega) rest⟩
  · exact ⟨26, bigEndian n 4, rfl, by decide, fun rest => by
      simpa [argument] using word_bigEndian 4 (by omega) rest⟩
  · exact ⟨27, bigEndian n 8, rfl, by decide, fun rest => by
      simpa [argument] using word_bigEndian 8 (by omega) rest⟩

/-- A head has an octet at least. -/
theorem head_ne_nil (major n : Nat) : head major n ≠ [] := by
  unfold head
  split_ifs <;> exact List.cons_ne_nil _ _

end EntityStore.Cbor
