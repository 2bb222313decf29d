import EntityStore.Binary.Double
import Mathlib.Tactic.SplitIfs

/-!
# Finite doubles

`Double.isFinite` looks at the exponent field of the word only. What it says of the number is that
it is neither infinite nor no number at all (`Double.isFinite_eq_false_iff`).
-/

namespace EntityStore.Binary.Double

/-- A word is that of a number unless it is that of an infinity or of no number. -/
theorem isFinite_eq_false_iff {x : Double} :
    x.isFinite = false ↔ x.datum = .nan ∨ ∃ negative, x.datum = .infinity negative := by
  have hexponent : x.isFinite = false ↔ x.bits.toNat / Nat.pow 2 52 % 2048 = 2047 := by
    simp [isFinite]
  rw [hexponent]
  unfold datum Format.decode
  -- The two fields of the word decide between the kinds of numbers.
  have hfield : x.bits.toNat / Nat.pow 2 Format.double.fractionBits %
      Nat.pow 2 Format.double.exponentBits = x.bits.toNat / Nat.pow 2 52 % 2048 := rfl
  have hones : Nat.pow 2 Format.double.exponentBits - 1 = 2047 := rfl
  simp only [hfield, hones]
  split_ifs with hexponent hfraction hzero
  · simp [hexponent]
  · simp [hexponent]
  · simp [hzero]
  · simp [hexponent]

end EntityStore.Binary.Double
