/-!
# Binary floating-point formats

A format of IEEE 754 is given by the widths of its fraction and exponent fields. `decode` reads a
word as the number it stands for, and `round` finds the word nearest to a quotient of natural
numbers, the even one of two that are equally near. Both are exact integer arithmetic.

The words of one sign are in the order of their numbers, so a significand that is rounded up to the
next power of two carries into the exponent field, and from the greatest finite word into infinity.
-/

namespace EntityStore.Binary

/-- A binary floating-point format: the widths of the two fields below the sign. -/
structure Format where
  /-- The number of bits of the fraction. -/
  fractionBits : Nat
  /-- The number of bits of the exponent. -/
  exponentBits : Nat

/-- What a word of a format stands for. -/
inductive Datum where
  /-- Not a number. -/
  | nan
  /-- An infinity. -/
  | infinity (negative : Bool)
  /-- The number `± significand * 2 ^ exponent`. -/
  | finite (negative : Bool) (significand : Nat) (exponent : Int)
  deriving DecidableEq

namespace Format

/-- Half precision. -/
def half : Format := ⟨10, 5⟩

/-- Single precision. -/
def single : Format := ⟨23, 8⟩

/-- Double precision. -/
def double : Format := ⟨52, 11⟩

/-- The exponent of the last place of the smallest numbers. -/
def leastExponent (f : Format) : Int :=
  2 - (Nat.pow 2 (f.exponentBits - 1) : Int) - f.fractionBits

/-- The word of the positive infinity, just above the finite words. -/
def infinityWord (f : Format) : Nat :=
  (Nat.pow 2 f.exponentBits - 1) * Nat.pow 2 f.fractionBits

/-- The value of the sign bit. -/
def signBit (f : Format) : Nat :=
  Nat.pow 2 (f.exponentBits + f.fractionBits)

/-- What a word stands for. -/
def decode (f : Format) (word : Nat) : Datum :=
  let negative := word / f.signBit % 2 == 1
  let exponent := word / Nat.pow 2 f.fractionBits % Nat.pow 2 f.exponentBits
  let fraction := word % Nat.pow 2 f.fractionBits
  if exponent = Nat.pow 2 f.exponentBits - 1 then
    if fraction = 0 then .infinity negative else .nan
  else if exponent = 0 then
    .finite negative fraction f.leastExponent
  else
    .finite negative (Nat.pow 2 f.fractionBits + fraction) (f.leastExponent + exponent - 1)

/-- The quotient of two numbers, rounded to the nearest natural number, a tie to the even one. -/
def roundDiv (numerator denominator : Nat) : Nat :=
  let quotient := numerator / denominator
  let twice := 2 * (numerator % denominator)
  if twice > denominator ∨ twice = denominator ∧ quotient % 2 = 1 then quotient + 1 else quotient

/-- The quotient `numerator / (denominator * 2 ^ exponent)` as a pair of natural numbers. -/
def scale (numerator denominator : Nat) (exponent : Int) : Nat × Nat :=
  match exponent with
  | .ofNat e => (numerator, denominator * Nat.pow 2 e)
  | .negSucc e => (numerator * Nat.pow 2 (e + 1), denominator)

/-- The exponent of the last place of the numbers near a quotient that is not zero. -/
def placeExponent (f : Format) (numerator denominator : Nat) : Int :=
  let low := max f.leastExponent
    ((Nat.log2 numerator : Int) - Nat.log2 denominator - f.fractionBits - 1)
  let (n, d) := scale numerator denominator low
  if n / d ≥ Nat.pow 2 (f.fractionBits + 1) then low + 1 else low

/-- The word nearest to `± numerator / denominator`, infinity from halfway above the greatest finite
number on. -/
def round (f : Format) (negative : Bool) (numerator denominator : Nat) : Nat :=
  let magnitude :=
    if numerator = 0 then 0
    else
      let exponent := f.placeExponent numerator denominator
      let (n, d) := scale numerator denominator exponent
      min f.infinityWord
        ((exponent - f.leastExponent).toNat * Nat.pow 2 f.fractionBits + roundDiv n d)
  if negative then f.signBit + magnitude else magnitude

/-- The word of a format nearest to the number that a word of another format stands for. -/
def convert (target source : Format) (word : Nat) : Nat :=
  match source.decode word with
  | .nan => target.infinityWord + Nat.pow 2 (target.fractionBits - 1)
  | .infinity negative =>
    if negative then target.signBit + target.infinityWord else target.infinityWord
  | .finite negative significand exponent =>
    let (n, d) := scale significand 1 (-exponent)
    target.round negative n d

end Format

end EntityStore.Binary
