import EntityStore.Decimal.Layout
import EntityStore.Yaml.Node.Basic

/-!
# What plain scalars stand for

A scalar without quotes and tag is a null, a truth value, an integer, a floating-point number or
else a text, in this order. `Scalar.ofPlain?` finds out which. Integers are decimal without leading
zeros, or have a prefix for base sixteen, eight or two; those that need more than 64 bits but fit in
128 are refused, and longer ones are floating-point numbers.
-/

namespace EntityStore.Yaml

open Binary

/-- What a scalar stands for. -/
inductive Scalar where
  /-- No value. -/
  | null
  /-- A truth value. -/
  | bool (value : Bool)
  /-- An integer of 64 bits. -/
  | int (value : Int)
  /-- A floating-point number. -/
  | float (value : Double)
  /-- A text. -/
  | text (value : String)
  deriving DecidableEq

namespace Scalar

/-- Is the text a word for no value? -/
def isNullWord (text : String) : Bool :=
  ["null", "Null", "NULL", "~"].contains text

/-- The truth value that a word stands for. -/
def boolWord? (text : String) : Option Bool :=
  if ["true", "True", "TRUE"].contains text then some true
  else if ["false", "False", "FALSE"].contains text then some false
  else none

/-- The value of a digit in a base. -/
def digitValue? (base : Nat) (ch : Char) : Option Nat :=
  let value :=
    if ch.isDigit then ch.toNat - '0'.toNat
    else if 'a' ≤ ch ∧ ch ≤ 'z' then ch.toNat - 'a'.toNat + 10
    else if 'A' ≤ ch ∧ ch ≤ 'Z' then ch.toNat - 'A'.toNat + 10
    else base
  if value < base then some value else none

/-- The number that one or more digits write in a base. -/
def number? (base : Nat) (digits : List Char) : Option Nat :=
  if digits.isEmpty then none
  else digits.foldlM (fun n ch => (digitValue? base ch).map (base * n + ·)) 0

/-- Are the characters, after a sign, a zero and then only digits? -/
def hasLeadingZero (cs : List Char) : Bool :=
  let digits := match cs with
    | '-' :: rest | '+' :: rest => rest
    | _ => cs
  match digits with
  | '0' :: d :: rest => (d :: rest).all Char.isDigit
  | _ => false

/-- The number that characters without a sign write, with or without a prefix for the base. -/
def magnitude? (cs : List Char) : Option Nat :=
  match cs with
  | '0' :: 'x' :: digits => number? 16 digits
  | '0' :: 'o' :: digits => number? 8 digits
  | '0' :: 'b' :: digits => number? 2 digits
  | _ => if hasLeadingZero cs then none else number? 10 cs

/-- The integer that characters write, of any size. -/
def integer? (cs : List Char) : Option Int :=
  match cs with
  | '-' :: rest => (magnitude? rest).map fun n => -(n : Int)
  | '+' :: rest => (magnitude? rest).map fun n => (n : Int)
  | _ => (magnitude? cs).map fun n => (n : Int)

/-- Does an integer fit in a signed or an unsigned word of so many bits? -/
def fits (bits : Nat) (n : Int) : Bool :=
  -(Nat.pow 2 (bits - 1) : Int) ≤ n && n < (Nat.pow 2 bits : Int)

/-- Splits off the leading decimal digits. -/
def splitDigits (cs : List Char) : List Char × List Char :=
  (cs.takeWhile Char.isDigit, cs.dropWhile Char.isDigit)

/-- The number that decimal digits write. -/
def digitsNumber (digits : List Char) : Nat :=
  digits.foldl (fun n ch => 10 * n + (ch.toNat - '0'.toNat)) 0

/-- The exponent at the end of a decimal number, zero if there is none. -/
def exponent? (cs : List Char) : Option Int :=
  match cs with
  | [] => some 0
  | 'e' :: rest | 'E' :: rest =>
    let (negative, digits) := match rest with
      | '-' :: digits => (true, digits)
      | '+' :: digits => (false, digits)
      | digits => (false, digits)
    if digits.isEmpty || !digits.all Char.isDigit then none
    else
      let n : Int := digitsNumber digits
      some (if negative then -n else n)
  | _ => none

/-- The double nearest to `± significand * 10 ^ exponent`. Magnitudes far outside the range of
doubles are not computed. -/
def decimalDouble (negative : Bool) (significand : Nat) (exponent : Int) : Double :=
  let magnitude := (Nat.toDigits 10 significand).length + exponent
  if significand = 0 ∨ magnitude < -400 then Double.ofRatio negative 0 1
  else if 400 < magnitude then Double.infinity negative
  else if 0 ≤ exponent then Double.ofRatio negative (significand * Nat.pow 10 exponent.toNat) 1
  else Double.ofRatio negative significand (Nat.pow 10 (-exponent).toNat)

/-- The finite double nearest to the decimal number that characters write. -/
def decimal? (cs : List Char) : Option Double := do
  let (negative, cs) := match cs with
    | '-' :: rest => (true, rest)
    | '+' :: rest => (false, rest)
    | _ => (false, cs)
  let (whole, cs) := splitDigits cs
  let (fraction, cs) := match cs with
    | '.' :: rest => splitDigits rest
    | _ => ([], cs)
  let exponent ← exponent? cs
  if whole.isEmpty && fraction.isEmpty then none
  else
    let x := decimalDouble negative (digitsNumber (whole ++ fraction))
      (exponent - fraction.length)
    if x.isFinite then some x else none

/-- The floating-point number that a text writes. -/
def float? (text : String) : Option Double :=
  if [".inf", ".Inf", ".INF", "+.inf", "+.Inf", "+.INF"].contains text then
    some (Double.infinity false)
  else if ["-.inf", "-.Inf", "-.INF"].contains text then some (Double.infinity true)
  else if [".nan", ".NaN", ".NAN"].contains text then some Double.nan
  else decimal? text.toList

/-- The integer that a text writes, if it writes one of at most 128 bits; the inner answer is
missing if it does not fit in 64. -/
def wideInteger? (text : String) : Option (Option Int) :=
  match integer? text.toList with
  | some n => if fits 64 n then some (some n) else if fits 128 n then some none else none
  | none => none

/-- What a plain scalar without a tag stands for, unless it is an integer that is too long. -/
def ofPlain? (text : String) : Option Scalar :=
  if text.isEmpty || isNullWord text then some null
  else
    match boolWord? text, wideInteger? text with
    | some b, _ => some (bool b)
    | none, some (some n) => some (int n)
    | none, some none => none
    | none, none =>
      if hasLeadingZero text.toList then some (.text text)
      else
        match float? text with
        | some x => some (float x)
        | none => some (.text text)

/-- What a scalar without a tag stands for, unless it is an integer that is too long. -/
def ofUntagged? (style : Style) (text : String) : Option Scalar :=
  if style = .plain then ofPlain? text else some (.text text)

/-- What a scalar with a tag that is not local stands for, unless its text is not of the type that
the tag names. A tag of no standard scalar type makes it a text. -/
def ofTagged? (tag : Tag) (text : String) : Option Scalar :=
  if tag = Tag.standard "bool" then (boolWord? text).map bool
  else if tag = Tag.standard "int" then
    match wideInteger? text with
    | some (some n) => some (int n)
    | _ => none
  else if tag = Tag.standard "float" then (float? text).map float
  else if tag = Tag.standard "null" then if isNullWord text then some null else none
  else some (.text text)

/-- What a scalar stands for. A local tag makes it no scalar, or counts as no tag if it is not a
text. -/
def of? (tag : Option Tag) (style : Style) (text : String) : Option Scalar :=
  match tag with
  | some tag =>
    if tag.isLocal then if tag.isText then none else ofUntagged? style text
    else ofTagged? tag text
  | none => ofUntagged? style text

/-- The text of a value, none for no value. Numbers are written anew. -/
def toText? : Scalar → Option String
  | null => none
  | bool true => some "true"
  | bool false => some "false"
  | int n => some (Decimal.intText n)
  | float x => some (Decimal.Layout.yaml.text x)
  | text s => some s

end Scalar

end EntityStore.Yaml
