import EntityStore.Binary.Double

/-!
# The shortest decimal that reads back

Of the decimals that a reader rounds to a given double, `shortest` finds one with the fewest digits,
and of those the one nearest to the double. A `Tie` tells which of two equally near ones it takes.

The reals that round to `m * 2 ^ q` reach half a unit of the last place to either side, or only a
quarter of it below a power of two, and include their ends when `m` is even. For one digit, two
digits, and so on, the two multiples of the last place around the number are tried; seventeen
digits always suffice.
-/

namespace EntityStore.Decimal

open Binary

/-- Which of two equally near decimals is taken. -/
inductive Tie where
  /-- The one whose last digit is even. -/
  | toEven
  /-- The greater one. -/
  | up
  deriving DecidableEq

/-- Is the lower one of two equally near decimals taken, if it has these digits? -/
def Tie.takesLower : Tie → Nat → Bool
  | toEven, digits => digits % 2 == 0
  | up, _ => false

/-- A positive decimal number `digits * 10 ^ exponent`. -/
structure Scientific where
  /-- The digits, as a number. -/
  digits : Nat
  /-- The power of ten of the last digit. -/
  exponent : Int
  deriving DecidableEq

/-- The reals that round to a positive double, and the double among them, in units of
`2 ^ exponent`. -/
structure RoundingInterval where
  /-- The lower end. -/
  low : Nat
  /-- The double. -/
  value : Nat
  /-- The upper end. -/
  high : Nat
  /-- The power of two of the unit. -/
  exponent : Int
  /-- Do the ends round to the double too? -/
  closed : Bool

namespace RoundingInterval

/-- The interval of the double `significand * 2 ^ exponent`. -/
def ofFinite (significand : Nat) (exponent : Int) : RoundingInterval :=
  let atPower := significand = Nat.pow 2 52 ∧ exponent ≠ Format.double.leastExponent
  { low := 4 * significand - (if atPower then 1 else 2)
    value := 4 * significand
    high := 4 * significand + 2
    exponent := exponent - 2
    closed := significand % 2 == 0 }

/-- The two sides of a comparison of `candidate * 10 ^ place` with `point` units. -/
def sides (i : RoundingInterval) (candidate : Nat) (place : Int) (point : Nat) : Nat × Nat :=
  (candidate * Nat.pow 10 place.toNat * Nat.pow 2 (-i.exponent).toNat,
    point * Nat.pow 2 i.exponent.toNat * Nat.pow 10 (-place).toNat)

/-- Does `candidate * 10 ^ place` round to the double? -/
def contains (i : RoundingInterval) (candidate : Nat) (place : Int) : Bool :=
  let (c, low) := i.sides candidate place i.low
  let (c', high) := i.sides candidate place i.high
  if i.closed then low ≤ c && c' ≤ high else low < c && c' < high

/-- The number of digits of the double before its point, or minus the number of zeros that follow
the point. -/
def magnitude (i : RoundingInterval) : Int :=
  let n := i.value * Nat.pow 2 i.exponent.toNat
  let d := Nat.pow 2 (-i.exponent).toNat
  if d ≤ n then (Nat.toDigits 10 (n / d)).length
  else 1 - ((Nat.toDigits 10 ((d - 1) / n)).length : Int)

/-- The better of the two multiples of `10 ^ place` around the double that rounds to it. -/
def atPlace? (i : RoundingInterval) (tie : Tie) (place : Int) : Option Nat :=
  let (unit, point) := i.sides 1 place i.value
  let below := point / unit
  let rest := 2 * (point % unit)
  match i.contains below place, i.contains (below + 1) place with
  | true, true =>
    some (if rest < unit ∨ rest = unit ∧ tie.takesLower below then below else below + 1)
  | true, false => some below
  | false, true => some (below + 1)
  | false, false => none

/-- Tries one digit, two digits, and so on, up to `count` more digits. -/
def search (i : RoundingInterval) (tie : Tie) (place : Int) : Nat → Scientific
  | 0 => ⟨0, 0⟩
  | count + 1 =>
    match i.atPlace? tie place with
    | some digits => ⟨digits, place⟩
    | none => i.search tie (place - 1) count

end RoundingInterval

/-- The shortest decimal that rounds to the double `significand * 2 ^ exponent`, and of several the
nearest one. -/
def shortest (tie : Tie) (significand : Nat) (exponent : Int) : Scientific :=
  let i := RoundingInterval.ofFinite significand exponent
  i.search tie (i.magnitude - 1) 17

end EntityStore.Decimal
