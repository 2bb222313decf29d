import EntityStore.Decimal.Layout
import EntityStore.Operation
import EntityStore.Text.Quoted

/-!
# Outcomes in messages

A message about an outcome that nobody asked for shows it in full: the name of each kind of value
with its contents in parentheses, lists in brackets and maps in braces.

It is how the derived descriptions of `OpResult` and `Value` stand in the message of `unexpected`.
-/

namespace EntityStore

/-- The form in which messages show floating-point numbers. -/
def Value.floatLayout : Decimal.Layout := ⟨-4, 15, false, .up, "inf", "NaN"⟩

/-- Texts with a comma and a space between them. -/
def commaSeparated (parts : List String) : String :=
  String.intercalate ", " parts

/-- An optional text, in quotes if it is there. -/
def describeKey : Option String → String
  | some key => "Some(" ++ Text.quoted key ++ ")"
  | none => "None"

mutual

/-- A value as messages show it. -/
def Value.describe : Value → String
  | .null => "Null"
  | .bool true => "Bool(true)"
  | .bool false => "Bool(false)"
  | .int n => "Int(" ++ Decimal.intText n.toInt ++ ")"
  | .uint n => "UInt(" ++ Decimal.toText n.toNat ++ ")"
  | .float x => "Float(" ++ Value.floatLayout.text x ++ ")"
  | .text s => "Str(" ++ Text.quoted s ++ ")"
  | .bytes octets =>
    "Bytes([" ++ commaSeparated (octets.map fun b => Decimal.toText b.toNat) ++ "])"
  | .list items => "List([" ++ commaSeparated (describeItems items) ++ "])"
  | .map members => "Map(\x7b" ++ commaSeparated (describeMembers members) ++ "\x7d)"

/-- The values of a list as messages show them. -/
def Value.describeItems : List Value → List String
  | [] => []
  | item :: rest => item.describe :: describeItems rest

/-- Named values as messages show them. -/
def Value.describeMembers : List (String × Value) → List String
  | [] => []
  | (name, value) :: rest =>
    (Text.quoted name ++ ": " ++ value.describe) :: describeMembers rest

end

/-- A record as messages show it. -/
def Record.describe (r : Record) : String :=
  "Record \x7b bins: \x7b" ++ commaSeparated (Value.describeMembers r.bins.entries) ++
    "\x7d, generation: " ++ Decimal.toText r.generation.toNat ++ ", key: " ++ describeKey r.key ++
    " \x7d"

/-- An outcome as messages show it. -/
def Outcome.describe : Outcome → String
  | .done => "Done"
  | .record none => "Record(None)"
  | .record (some r) => "Record(Some(" ++ r.describe ++ "))"
  | .deleted true => "Deleted(true)"
  | .deleted false => "Deleted(false)"
  | .records found =>
    "Records([" ++
      commaSeparated (found.map fun f => "(" ++ Text.quoted f.1 ++ ", " ++ f.2.describe ++ ")") ++
      "])"

end EntityStore
