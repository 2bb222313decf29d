/-!
# Natural numbers written in decimal

Timeouts, limits, batch sizes and capacities are written as an optional plus sign and one or more
ASCII digits, with any number of leading zeros, and have to stay below the bound of their type.
`toText` writes a number with its digits alone.
-/

namespace EntityStore.Decimal

/-- The value of an ASCII digit. -/
def digit? (c : Char) : Option Nat :=
  if '0' ≤ c ∧ c ≤ '9' then some (c.toNat - '0'.toNat) else none

/-- The value of a run of ASCII digits that continues a number read so far. -/
def digitsValue? (read : Nat) : List Char → Option Nat
  | [] => some read
  | c :: rest =>
    match digit? c with
    | some d => digitsValue? (10 * read + d) rest
    | none => none

/-- The characters after an optional plus sign. -/
def skipPlus : List Char → List Char
  | '+' :: rest => rest
  | cs => cs

/-- Reads an optional plus sign and one or more digits as a number below `bound`. -/
def natural? (bound : Nat) (text : List Char) : Option Nat :=
  match skipPlus text with
  | [] => none
  | digits => (digitsValue? 0 digits).filter (· < bound)

/-- The decimal digits of a number, without a sign and without leading zeros. -/
def toText (n : Nat) : String :=
  String.ofList (Nat.toDigits 10 n)

/-- The decimal digits of an integer, after a minus sign if it is negative. -/
def intText : Int → String
  | .ofNat n => toText n
  | .negSucc n => "-" ++ toText (n + 1)

end EntityStore.Decimal
