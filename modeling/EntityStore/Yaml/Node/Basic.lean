import EntityStore.Yaml.Token.Basic

/-!
# Nodes of a YAML document

A document is a tree of scalars, sequences and mappings. A node may have an anchor, by which an
alias in another place refers to it, so the document as a whole is a graph; it may even be cyclic.
Anchors are numbered, and of two nodes with one number the later one in the document counts.
-/

namespace EntityStore.Yaml

/-- A node of a document, with the number of its anchor. -/
inductive Node where
  /-- A scalar with its tag in full. -/
  | scalar (anchor : Option Nat) (tag : Option Tag) (style : Style) (text : String)
  /-- A sequence. -/
  | sequence (anchor : Option Nat) (items : List Node)
  /-- A mapping. -/
  | mapping (anchor : Option Nat) (entries : List (Node × Node))
  /-- A reference to the node with an anchor of this number. -/
  | reference (target : Nat)

namespace Node

instance : Inhabited Node := ⟨scalar none none .plain ""⟩

/-- The scalar that stands where a node may be but none is written. -/
def empty : Node := scalar none none .plain ""

mutual

/-- The nodes with anchors, in front of those found so far: later ones come first. -/
def anchored (node : Node) (found : List (Nat × Node)) : List (Nat × Node) :=
  match node with
  | scalar (some n) tag style text => (n, scalar (some n) tag style text) :: found
  | sequence (some n) items => anchoredItems items ((n, sequence (some n) items) :: found)
  | sequence none items => anchoredItems items found
  | mapping (some n) entries => anchoredEntries entries ((n, mapping (some n) entries) :: found)
  | mapping none entries => anchoredEntries entries found
  | _ => found

/-- The nodes with anchors in the items of a sequence. -/
def anchoredItems (items : List Node) (found : List (Nat × Node)) : List (Nat × Node) :=
  match items with
  | [] => found
  | item :: rest => anchoredItems rest (anchored item found)

/-- The nodes with anchors in the entries of a mapping. -/
def anchoredEntries (entries : List (Node × Node)) (found : List (Nat × Node)) :
    List (Nat × Node) :=
  match entries with
  | [] => found
  | (key, value) :: rest => anchoredEntries rest (anchored value (anchored key found))

end

mutual

/-- The size of a node: one for a scalar or an alias, two and the sizes of the parts for a
collection. -/
def size : Node → Nat
  | scalar .. => 1
  | sequence _ items => 2 + sizeItems items
  | mapping _ entries => 2 + sizeEntries entries
  | reference _ => 1

/-- The sizes of the items of a sequence. -/
def sizeItems : List Node → Nat
  | [] => 0
  | item :: rest => size item + sizeItems rest

/-- The sizes of the entries of a mapping. -/
def sizeEntries : List (Node × Node) → Nat
  | [] => 0
  | (key, value) :: rest => size key + size value + sizeEntries rest

end

end Node

end EntityStore.Yaml
