import EntityStore.Decimal.Natural
import EntityStore.Json.Basic

/-!
# JSON numerals

`Numeral` is a number as it is written: a sign, whole digits, perhaps a fraction and an exponent.
`Numeral.value?` gives its value. A numeral without fraction and exponent is an integer if it is one
of 64 bits; `-0` and the integers outside are floating-point numbers, like all other numerals.

A floating-point value is computed from a significand below `2 ^ 64`: the digits are taken in while
they fit, and the significand, rounded to a double, is then multiplied or divided by a power of ten.
Each of the two steps rounds once, so the value need not be the double nearest to the numeral.
-/

namespace EntityStore.Json

open Binary

/-- A number as it is written. -/
structure Numeral where
  /-- Is there a minus sign? -/
  negative : Bool
  /-- The digits before the point. -/
  whole : List Nat
  /-- The digits after the point, if there is one. -/
  fraction : Option (List Nat)
  /-- The sign and the digits of the exponent, if there is one. -/
  exponent : Option (Bool × List Nat)
  deriving DecidableEq

namespace Numeral

/-- The digits at the start of the characters, and the characters after them. -/
def leadingDigits : List Char → List Nat × List Char
  | [] => ([], [])
  | c :: rest =>
    match Decimal.digit? c with
    | some d =>
      let (digits, tail) := leadingDigits rest
      (d :: digits, tail)
    | none => ([], c :: rest)

/-- Reads the exponent that ends a numeral. -/
def exponent? : List Char → Option (Option (Bool × List Nat))
  | [] => some none
  | 'e' :: rest | 'E' :: rest =>
    let (negative, digits) := match rest with
      | '-' :: digits => (true, digits)
      | '+' :: digits => (false, digits)
      | digits => (false, digits)
    match leadingDigits digits with
    | (d :: ds, []) => some (some (negative, d :: ds))
    | _ => none
  | _ => none

/-- Reads the fraction and the exponent that end a numeral. -/
def fraction? : List Char → Option (Option (List Nat) × Option (Bool × List Nat))
  | '.' :: rest =>
    match leadingDigits rest with
    | ([], _) => none
    | (digits, tail) => (exponent? tail).map (some digits, ·)
  | cs => (exponent? cs).map (none, ·)

/-- Reads a numeral. A zero at the start is the only whole digit. -/
def ofChars? (cs : List Char) : Option Numeral :=
  let (negative, cs) := match cs with
    | '-' :: rest => (true, rest)
    | cs => (false, cs)
  match leadingDigits cs with
  | ([], _) | (0 :: _ :: _, _) => none
  | (whole, tail) => (fraction? tail).map fun (fraction, exponent) =>
    { negative, whole, fraction, exponent }

/-- Takes in digits while the significand stays below `2 ^ 64`, and returns it with the digits that
are left over. -/
def absorb (significand : Nat) : List Nat → Nat × List Nat
  | [] => (significand, [])
  | d :: rest =>
    if 10 * significand + d < UInt64.size then absorb (10 * significand + d) rest
    else (significand, d :: rest)

/-- The double nearest to a power of ten. -/
def powerOfTen (exponent : Nat) : Double :=
  Double.ofNat (Nat.pow 10 exponent)

/-- The magnitude `x * 10 ^ exponent`, rounded in each step, if it is finite. Exponents below -308
are divided out 308 powers at a time, `steps` times at most. -/
def scaled? (x : Double) (exponent : Int) : Nat → Option Double
  | 0 => none
  | steps + 1 =>
    if exponent.natAbs ≤ 308 then
      if 0 ≤ exponent then x.mul? (powerOfTen exponent.natAbs)
      else x.div? (powerOfTen exponent.natAbs)
    else if x = Double.ofNat 0 then some x
    else if 0 ≤ exponent then none
    else (x.div? (powerOfTen 308)).bind fun y => scaled? y (exponent + 308) steps

/-- The number that the digits of an exponent write. -/
def digitsNumber (digits : List Nat) : Nat :=
  digits.foldl (fun n d => 10 * n + d) 0

/-- A magnitude with a sign, as a floating-point value. -/
def signed? (negative : Bool) (magnitude : Double) : Option Json :=
  (FiniteDouble.ofDouble? (if negative then magnitude.negate else magnitude)).map float

/-- The floating-point value of a numeral, if its magnitude is not too great. -/
def floatValue? (n : Numeral) : Option Json :=
  let (significand, dropped) := absorb 0 n.whole
  let fraction := n.fraction.getD []
  let (significand, ignored) := absorb significand fraction
  let shift : Int := dropped.length - (fraction.length - ignored.length : Nat)
  let (negative, exponent) := match n.exponent with
    | some (negative, digits) => (negative, digitsNumber digits)
    | none => (false, 0)
  if 2147483648 ≤ exponent then
    if significand ≠ 0 ∧ !negative then none else signed? n.negative (Double.ofNat 0)
  else
    let exponent : Int := if negative then shift - exponent else shift + exponent
    (scaled? (Double.ofNat significand) exponent (exponent.natAbs + 1)).bind (signed? n.negative)

/-- The integer that a numeral writes, if it is one of 64 bits. -/
def intValue? (n : Numeral) : Option WideInt :=
  match n.fraction, n.exponent with
  | none, none =>
    let magnitude := digitsNumber n.whole
    if n.negative then
      if magnitude = 0 then none else WideInt.ofInt? (-(magnitude : Int))
    else WideInt.ofInt? magnitude
  | _, _ => none

/-- The value of a numeral, if its magnitude is not too great for a double. -/
def value? (n : Numeral) : Option Json :=
  match n.intValue? with
  | some i => some (int i)
  | none => n.floatValue?

end Numeral

end EntityStore.Json
