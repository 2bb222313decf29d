import EntityStore.Json.Basic

/-!
# How deep a JSON value nests

`Json.nesting` counts the arrays and objects that are inside one another, which is what readers of
JSON values bound.
-/

namespace EntityStore.Json

mutual

/-- The greatest number of arrays and objects that are inside one another in a value. -/
def nesting : Json → Nat
  | array items => itemsNesting items + 1
  | object members => membersNesting members + 1
  | _ => 0

/-- The greatest nesting of the values of a list. -/
def itemsNesting : List Json → Nat
  | [] => 0
  | item :: rest => max (nesting item) (itemsNesting rest)

/-- The greatest nesting of the values of a list of members. -/
def membersNesting : List (String × Json) → Nat
  | [] => 0
  | (_, value) :: rest => max (nesting value) (membersNesting rest)

end

end EntityStore.Json
