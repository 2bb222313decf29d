import EntityStore.Binary.Format

/-!
# Double-precision numbers

A number of double precision is its 64-bit word, and two are the same number exactly when their
words are: `-0.0` is not `0.0`. `FiniteDouble` leaves out the infinities and the words that are not
numbers, which documents cannot hold.
-/

namespace EntityStore.Binary

/-- A double-precision number, by its word. -/
structure Double where
  /-- The word: sign, exponent and fraction. -/
  bits : UInt64
  deriving DecidableEq

namespace Double

/-- What the word stands for. -/
def datum (x : Double) : Datum :=
  Format.double.decode x.bits.toNat

/-- Is the exponent field short of all ones? -/
def isFinite (x : Double) : Bool :=
  x.bits.toNat / Nat.pow 2 52 % 2048 != 2047

/-- The double nearest to `± numerator / denominator`. -/
def ofRatio (negative : Bool) (numerator denominator : Nat) : Double :=
  ⟨UInt64.ofNat (Format.double.round negative numerator denominator)⟩

/-- An infinity. -/
def infinity (negative : Bool) : Double :=
  ⟨if negative then 0xfff0000000000000 else 0x7ff0000000000000⟩

/-- A word that stands for no number. -/
def nan : Double := ⟨0x7ff8000000000000⟩

/-- The double nearest to a natural number. -/
def ofNat (n : Nat) : Double :=
  ofRatio false n 1

/-- The magnitude of a finite double as a quotient of natural numbers. -/
def magnitude? (x : Double) : Option (Nat × Nat) :=
  match x.datum with
  | .finite _ significand exponent => some (Format.scale significand 1 (-exponent))
  | _ => none

/-- The double with the other sign. -/
def negate (x : Double) : Double :=
  ⟨x.bits ^^^ 0x8000000000000000⟩

/-- The rounded product of two magnitudes, if it is finite. -/
def mul? (x y : Double) : Option Double :=
  match x.magnitude?, y.magnitude? with
  | some (n, d), some (n', d') =>
    let product := ofRatio false (n * n') (d * d')
    if product.isFinite then some product else none
  | _, _ => none

/-- The rounded quotient of two magnitudes, if it is finite. -/
def div? (x y : Double) : Option Double :=
  match x.magnitude?, y.magnitude? with
  | some (n, d), some (n', d') =>
    if n' = 0 then none
    else
      let quotient := ofRatio false (n * d') (d * n')
      if quotient.isFinite then some quotient else none
  | _, _ => none

/-- The word of a narrower format that stands for exactly the same number, if there is one. -/
def narrow? (target : Format) (x : Double) : Option Nat :=
  let word := target.convert .double x.bits.toNat
  if Format.double.convert target word = x.bits.toNat then some word else none

/-- The double that stands for the same number as a word of a narrower format. -/
def widen (source : Format) (word : Nat) : Double :=
  ⟨UInt64.ofNat (Format.double.convert source word)⟩

/-- A narrower word that `narrow?` finds widens to the double it was found for. -/
theorem widen_of_narrow? {target : Format} {x : Double} {word : Nat}
    (h : x.narrow? target = some word) : widen target word = x := by
  unfold narrow? at h
  simp only at h
  split at h
  · rename_i heq
    cases h
    simp [widen, heq]
  · cases h

end Double

/-- A double that is neither infinite nor not a number. -/
structure FiniteDouble where
  /-- The number. -/
  val : Double
  /-- It has a value. -/
  isFinite : val.isFinite = true
  deriving DecidableEq

/-- The finite double with a word, if the word is one of a finite double. -/
def FiniteDouble.ofDouble? (x : Double) : Option FiniteDouble :=
  if h : x.isFinite = true then some ⟨x, h⟩ else none

end EntityStore.Binary
