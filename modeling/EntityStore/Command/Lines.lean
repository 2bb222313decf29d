import EntityStore.Command.Failure
import EntityStore.Entity.Untyped
import EntityStore.FileTree
import EntityStore.Text.Blank

/-!
# Files of documents

A file of documents has one document on a line: a JSON object with the key and the value, or an
array of the two. Blank lines are passed over. A line ends with a newline character, before which
one carriage return does not count.

Documents are written in the same form, so that what is written can be read back.

`readDocuments` mirrors `read_lines`, and a line is a `Line`.
-/

namespace EntityStore.Command

/-- The lines of octets, each without what ends it. What follows the last newline character is a
line if it is not empty, and all of it counts. -/
def linesOf (octets : List UInt8) : List (List UInt8) :=
  loop [] octets
where
  /-- The lines that are left, in the first of which some octets have been read, latest first. -/
  loop (read : List UInt8) : List UInt8 → List (List UInt8)
    | [] => if read.isEmpty then [] else [read.reverse]
    | 10 :: rest => (endLine read).reverse :: loop [] rest
    | octet :: rest => loop (octet :: read) rest
  /-- A line, latest octet first, without a carriage return at its end. -/
  endLine : List UInt8 → List UInt8
    | 13 :: read => read
    | read => read

/-- The greatest depth of a value on a line. The document around it is one level more. -/
def maxValueDepth : Nat := 126

/-- The key and the document that a line writes. -/
def documentOf? (line : String) : Option (String × Document) := do
  let parts ← (← Json.Written.ofText? line).parts? ["key", "value"]
  match parts with
  | [key, value] =>
    match ← value.toJson? maxValueDepth with
    | .object fields => some (← key.toText?, ⟨.ofList fields⟩)
    | _ => none
  | _ => none

/-- The documents on lines, which are numbered from one after `read`. -/
def documentsOf (path : String) (read : Nat) :
    List (List UInt8) → Except Failure (List (String × Document))
  | [] => .ok []
  | line :: rest =>
    match Text.ofOctets? line with
    | none => .error .undecodableLine
    | some text =>
      if Text.isAllBlank text then documentsOf path (read + 1) rest
      else
        match documentOf? text with
        | none => .error (.invalidLine path (read + 1))
        | some document => (documentsOf path (read + 1) rest).map (document :: ·)

/-- The documents in a file. -/
def readDocuments (files : FileTree) (path : String) :
    Except Failure (List (String × Document)) :=
  match files.contents? path with
  | none => .error (.missingInput path)
  | some octets => documentsOf path 0 (linesOf octets)

/-- The line of a document. -/
def documentLine (document : String × Document) : String :=
  (Json.object [("key", .string document.1), ("value", Entity.toJson document.2)]).compact ++ "\n"

end EntityStore.Command
