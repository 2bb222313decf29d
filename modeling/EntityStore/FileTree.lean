import EntityStore.OrderedMap
import EntityStore.Text.Octets

/-!
# Files

Mappings, configurations and documents are read from files. A `FileTree` says which paths lead to a
file, and what octets it has. `FileTree.ofEntries` is the tree under a working directory with
certain files and directories, where paths are followed component by component.

It is what `MappingSource` and `StoreConfig` see of a file system.
-/

namespace EntityStore

/-- The files that can be read, by their paths. -/
structure FileTree where
  /-- The octets of the file at a path, if there is a file. -/
  contents? : String → Option (List UInt8)

namespace FileTree

/-- Does the path lead to a file? -/
def isFile (files : FileTree) (path : String) : Bool :=
  (files.contents? path).isSome

/-- The text of the file at a path, if there is a file and its octets encode a text. -/
def text? (files : FileTree) (path : String) : Option String :=
  (files.contents? path).bind Text.ofOctets?

/-- Is the path one from the root of the tree? -/
def isAbsolute (path : String) : Bool :=
  path.toList.head? = some '/'

/-- The path of a name in a directory. A path from the root leads there from every directory. -/
def join (directory name : String) : String :=
  if isAbsolute name then name
  else if directory.isEmpty || directory.toList.getLast? = some '/' then directory ++ name
  else directory ++ "/" ++ name

/-- The tree whose files have just the paths of a list. -/
def ofList (files : List (String × List UInt8)) : FileTree :=
  ⟨fun path => files.lookup path⟩

/-- The components of a path, with empty ones where slashes meet. -/
def components (path : List Char) : List (List Char) :=
  match path with
  | [] => [[]]
  | '/' :: rest => [] :: components rest
  | c :: rest =>
    match components rest with
    | first :: others => (c :: first) :: others
    | [] => [[c]]

/-- The place that a component leads to from a directory. Places list their names innermost
first. -/
def enter (place : List (List Char)) (component : List Char) : List (List Char) :=
  match component with
  | [] | ['.'] => place
  | ['.', '.'] => place.tail
  | name => name :: place

/-- What may be at a place. -/
inductive Entry where
  /-- A directory. -/
  | directory
  /-- A file with its octets. -/
  | file (octets : List UInt8)

/-- What is at a place, in a tree with certain entries and the directories that they are in. -/
def entryAt? (entries : List (List (List Char) × Entry)) (place : List (List Char)) :
    Option Entry :=
  match entries.find? fun e => e.1 = place with
  | some e => some e.2
  | none => if entries.any fun e => place.isSuffixOf e.1 then some .directory else none

/-- The place that components lead to. Each of them has to be followed from a directory. -/
def follow? (entries : List (List (List Char) × Entry)) (place : List (List Char)) :
    List (List Char) → Option (List (List Char))
  | [] => some place
  | component :: rest =>
    match entryAt? entries place with
    | some .directory => follow? entries (enter place component) rest
    | _ => none

/-- The tree with certain files and directories, named from a working directory. -/
def ofEntries (directory : String) (named : List (String × Entry)) : FileTree :=
  let place (start : List (List Char)) (path : String) :=
    (components path.toList).foldl enter start
  let working := place [] directory
  let entries := (working, .directory) :: named.map fun e => (place working e.1, e.2)
  ⟨fun path =>
    let start := if isAbsolute path then [] else working
    if path.isEmpty then none
    else
      match (follow? entries start (components path.toList)).bind (entryAt? entries) with
      | some (.file octets) => some octets
      | _ => none⟩

end FileTree

end EntityStore
