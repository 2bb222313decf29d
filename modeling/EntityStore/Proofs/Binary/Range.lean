import EntityStore.Binary.Double
import Mathlib.Algebra.Order.Group.Nat

/-!
# Words fit in their formats

Rounding and conversion give words of the target format, with one bit for the sign and the bits of
the two fields (`Format.convert_lt`). In particular the words that `Double.narrow?` finds fit in two
octets and in four (`Double.narrow?_half_lt`, `Double.narrow?_single_lt`).
-/

namespace EntityStore.Binary

namespace Format

/-- The words of a format's magnitudes are below its sign bit. -/
theorem infinityWord_lt_signBit (f : Format) : f.infinityWord < f.signBit := by
  unfold infinityWord signBit
  have hexponent : 0 < Nat.pow 2 f.exponentBits := Nat.pow_pos (by decide)
  have hfraction : 0 < Nat.pow 2 f.fractionBits := Nat.pow_pos (by decide)
  have hsplit : Nat.pow 2 (f.exponentBits + f.fractionBits) =
      Nat.pow 2 f.exponentBits * Nat.pow 2 f.fractionBits := Nat.pow_add 2 _ _
  rw [hsplit]
  exact Nat.mul_lt_mul_of_pos_right (by omega) hfraction

/-- Rounding gives a word of the format. -/
theorem round_lt (f : Format) (negative : Bool) (numerator denominator : Nat) :
    f.round negative numerator denominator < 2 * f.signBit := by
  have hinfinity := f.infinityWord_lt_signBit
  have hsigned : ∀ magnitude ≤ f.infinityWord,
      (if negative then f.signBit + magnitude else magnitude) < 2 * f.signBit := by
    intro magnitude hle
    split <;> omega
  apply hsigned
  -- A magnitude is zero, or it is cut off at the one of infinity.
  split
  · exact Nat.zero_le _
  · exact Nat.min_le_left _ _

/-- The word that stands for no number is below the sign bit in formats with a fraction. -/
theorem nanWord_le_signBit (f : Format) :
    f.infinityWord + Nat.pow 2 (f.fractionBits - 1) ≤ f.signBit := by
  unfold infinityWord signBit
  have hexponent : 0 < Nat.pow 2 f.exponentBits := Nat.pow_pos (by decide)
  have hfraction : Nat.pow 2 (f.fractionBits - 1) ≤ Nat.pow 2 f.fractionBits :=
    Nat.pow_le_pow_right (by decide) (Nat.sub_le _ _)
  have hsplit : Nat.pow 2 (f.exponentBits + f.fractionBits) =
      Nat.pow 2 f.exponentBits * Nat.pow 2 f.fractionBits := Nat.pow_add 2 _ _
  rw [hsplit, Nat.sub_mul]
  have hle : 1 * Nat.pow 2 f.fractionBits ≤
      Nat.pow 2 f.exponentBits * Nat.pow 2 f.fractionBits := Nat.mul_le_mul_right _ hexponent
  omega

/-- Conversion gives a word of the target format. -/
theorem convert_lt (target source : Format) (word : Nat) :
    target.convert source word < 2 * target.signBit := by
  have hinfinity := target.infinityWord_lt_signBit
  have hnan := target.nanWord_le_signBit
  unfold convert
  split
  · omega
  · split <;> omega
  · exact round_lt _ _ _ _

end Format

namespace Double

/-- A narrower word is a word of the narrower format. -/
theorem narrow?_lt {target : Format} {x : Double} {word : Nat} (h : x.narrow? target = some word) :
    word < 2 * target.signBit := by
  unfold narrow? at h
  simp only at h
  split at h
  · cases h
    exact Format.convert_lt _ _ _
  · cases h

/-- A word of half precision fits in two octets. -/
theorem narrow?_half_lt {x : Double} {word : Nat} (h : x.narrow? .half = some word) :
    word < 256 ^ 2 :=
  narrow?_lt h

/-- A word of single precision fits in four octets. -/
theorem narrow?_single_lt {x : Double} {word : Nat} (h : x.narrow? .single = some word) :
    word < 256 ^ 4 :=
  narrow?_lt h

end Double

end EntityStore.Binary
