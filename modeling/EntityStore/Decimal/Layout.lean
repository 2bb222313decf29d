import EntityStore.Decimal.Natural
import EntityStore.Decimal.Shortest

/-!
# How floating-point numbers are written

A `Layout` holds the decisions of a text form: which magnitudes are written with a point in place
and which with an exponent, whether an exponent has a plus sign, and which of two equally near
decimals is written. Whole numbers keep `.0` so that they read back as floating-point numbers.
`Layout.json` is the form of document lines and `Layout.yaml` that of untyped policy attributes.
-/

namespace EntityStore.Decimal

open Binary

/-- The decisions of a text form of floating-point numbers. -/
structure Layout where
  /-- The least power of ten of a first digit that is written in place. -/
  leastInPlace : Int
  /-- The greatest power of ten of a first digit that is written in place. -/
  greatestInPlace : Int
  /-- Does a positive exponent have a sign? -/
  exponentPlus : Bool
  /-- Which of two equally near decimals is written? -/
  tie : Tie
  /-- The text of the positive infinity. -/
  infinity : String
  /-- The text of what is not a number. -/
  nan : String

namespace Layout

/-- The form in which JSON texts hold floating-point numbers. JSON has no infinities. -/
def json : Layout := ⟨-5, 15, true, .toEven, "null", "null"⟩

/-- The form in which an untyped YAML number becomes a text. -/
def yaml : Layout := ⟨-5, 15, false, .toEven, ".inf", ".nan"⟩

/-- Digits without the zeros at their end, and the power of ten of the last one that stays. -/
def dropZeros (digits : List Char) (exponent : Int) : List Char × Int :=
  let zeros := (digits.reverse.takeWhile (· == '0')).length
  (digits.take (digits.length - zeros), exponent + zeros)

/-- The digits with a point after the first `count` of them, filled up with zeros. -/
def withPoint (digits : List Char) (count : Int) : List Char :=
  if count ≤ 0 then
    '0' :: '.' :: (List.replicate (-count).toNat '0' ++ digits)
  else
    let whole := digits.take count.toNat ++ List.replicate (count.toNat - digits.length) '0'
    match digits.drop count.toNat with
    | [] => whole ++ ['.', '0']
    | fraction => whole ++ '.' :: fraction

/-- The digits with a point after the first one, and an exponent. -/
def withExponent (layout : Layout) (digits : List Char) (exponent : Int) : List Char :=
  let mantissa := match digits with
    | first :: second :: rest => first :: '.' :: second :: rest
    | _ => digits
  let sign := if exponent < 0 then ['-'] else if layout.exponentPlus then ['+'] else []
  mantissa ++ 'e' :: (sign ++ Nat.toDigits 10 exponent.natAbs)

/-- The text of a positive decimal number. -/
def scientific (layout : Layout) (x : Scientific) : List Char :=
  let (digits, last) := dropZeros (Nat.toDigits 10 x.digits) x.exponent
  let first := last + digits.length - 1
  if layout.leastInPlace ≤ first ∧ first ≤ layout.greatestInPlace then
    withPoint digits (first + 1)
  else
    layout.withExponent digits first

/-- The text of a double. -/
def text (layout : Layout) (x : Double) : String :=
  match x.datum with
  | .nan => layout.nan
  | .infinity negative => if negative then "-" ++ layout.infinity else layout.infinity
  | .finite negative significand exponent =>
    let magnitude :=
      if significand = 0 then ['0', '.', '0']
      else layout.scientific (shortest layout.tie significand exponent)
    String.ofList (if negative then '-' :: magnitude else magnitude)

end Layout

end EntityStore.Decimal
