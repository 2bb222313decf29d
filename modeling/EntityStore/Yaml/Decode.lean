import EntityStore.Yaml.Node.Grammar
import EntityStore.Yaml.Scalar

/-!
# Reading structures from YAML documents

A `Decoder` reads a value of some type from a node. Structures are mappings whose keys are names of
members, in any order; a member may have a second name, must not occur twice, and members with other
names do not count. An empty scalar is a mapping or a sequence without entries.

Decoders follow aliases. A document of size `n` allows `100 * n` aliases to be followed, so that one
that refers to itself over and over is refused.
-/

namespace EntityStore.Yaml

/-- A computation that may follow aliases: the targets by their numbers, and the number of aliases
that may still be followed. -/
abbrev Decoding (α : Type) := List (Nat × Node) → StateT Nat Option α

/-- Reads a value from a node. -/
abbrev Decoder (α : Type) := Node → Decoding α

namespace Decoder

variable {α : Type}

/-- The node itself, or the one that an alias refers to. -/
def follow : Decoder Node
  | .reference number, targets => do
    match ← get, targets.lookup number with
    | remaining + 1, some node =>
      set remaining
      pure node
    | _, _ => failure
  | node, _ => pure node

/-- Reads the text of a scalar, whatever it stands for. -/
def text : Decoder String := fun node targets => do
  match ← follow node targets with
  | .scalar _ _ _ text => pure text
  | _ => failure

/-- Reads a scalar unless it is empty or a word for no value, without quotes and tag. With the tag
of no value it has to be such a word. -/
def optional (read : Decoder α) : Decoder (Option α) := fun node targets => do
  let node ← follow node targets
  match node with
  | .scalar _ tag .plain text =>
    if tag = some (Tag.standard "null") then
      if Scalar.isNullWord text then pure none else failure
    else if tag = none ∧ (text.isEmpty || Scalar.isNullWord text) then pure none
    else some <$> read node targets
  | _ => some <$> read node targets

/-- Reads a scalar by what it stands for, as a text. -/
def typedText : Decoder (Option String) := fun node targets => do
  match ← follow node targets with
  | .scalar _ tag style text =>
    match Scalar.of? tag style text with
    | some value => pure value.toText?
    | none => failure
  | _ => failure

/-- Reads a truth value, without quotes, or as a literal block with the tag of truth values. -/
def bool : Decoder Bool := fun node targets => do
  match ← follow node targets with
  | .scalar _ tag style text =>
    if style = .plain ∨ style = .literal ∧ tag = some (Tag.standard "bool") then
      match Scalar.boolWord? text with
      | some b => pure b
      | none => failure
    else failure
  | _ => failure

/-- Reads the items of a sequence. -/
def list (read : Decoder α) : Decoder (List α) := fun node targets => do
  match ← follow node targets with
  | .sequence _ items => items.mapM fun item => read item targets
  | .scalar _ _ .plain "" => pure []
  | _ => failure

/-- Reads the entries of a mapping whose keys are scalars. -/
def entries (read : Decoder α) : Decoder (List (String × α)) := fun node targets => do
  match ← follow node targets with
  | .mapping _ found =>
    found.mapM fun (key, value) => do
      pure (← text key targets, ← read value targets)
  | .scalar _ _ .plain "" => pure []
  | _ => failure

/-- The values of the members of a structure, not read yet. -/
def members : Decoder (List (String × Node)) :=
  entries fun node _ => pure node

/-- Reads the member that has one of some names, if there is one. -/
def member? (names : List String) (read : Decoder α) (found : List (String × Node)) :
    Decoding (Option α) := fun targets =>
  match found.filter fun m => names.contains m.1 with
  | [] => pure none
  | [m] => some <$> read m.2 targets
  | _ => failure

/-- Reads the member that has one of some names, and has to be there. -/
def member (names : List String) (read : Decoder α) (found : List (String × Node)) :
    Decoding α := fun targets => do
  match ← member? names read found targets with
  | some value => pure value
  | none => failure

/-- Reads the member that has one of some names, with a value for its absence. -/
def memberD (names : List String) (read : Decoder α) (absent : α) (found : List (String × Node)) :
    Decoding α := fun targets => do
  pure ((← member? names read found targets).getD absent)

/-- Reads a structure from a text with at most one document. -/
def ofText? (read : Decoder α) (text : String) : Option α := do
  let root := (← Node.ofText? text).getD .empty
  let (value, _) ← (read root (root.anchored [])).run (100 * root.size)
  some value

end Decoder

end EntityStore.Yaml
