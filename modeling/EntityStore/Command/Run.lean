import EntityStore.Command.Check
import EntityStore.Command.Copy

/-!
# Running a command

A run of the program takes its arguments and the files that it may read, and ends with an exit code
and two texts. `Command.paths` and `Command.mappingPaths` are the files that it looks at.
-/

namespace EntityStore.Command

/-- The end of a run. -/
structure Exit where
  /-- The exit code. -/
  code : UInt8
  /-- What is printed. -/
  output : String
  /-- The message about a failure. -/
  message : String
  deriving DecidableEq

/-- The names of the serializers, each on a line. -/
def serializerLines : String :=
  String.join (Serializer.all.map fun s => s.name ++ "\n")

/-- What a command prints. -/
def execute (memory : Nat) (files : FileTree) : Command → Except Failure String
  | .check subject keyType entityType serializer =>
    checkOutput files subject keyType entityType serializer
  | .copy source target input capacity => copyOutput memory files source target input capacity
  | .serializers => .ok serializerLines

/-- Runs the program, with a number of octets for a buffer. -/
def run (memory : Nat) (files : FileTree) (arguments : List String) : Exit :=
  match ofArguments arguments with
  | .error .help => ⟨0, "", ""⟩
  | .error .misuse => ⟨2, "", "unknown command line"⟩
  | .ok command =>
    match execute memory files command with
    | .ok output => ⟨0, output, ""⟩
    | .error failure => ⟨failure.code, "", failure.message⟩

/-- The paths of the store configurations that a command reads. -/
def configPaths : Command → List String
  | .check (.config path) _ _ _ => [path]
  | .copy source target _ _ => [source, target]
  | _ => []

/-- The paths that a command names. -/
def paths (command : Command) : List String :=
  match command with
  | .check (.mapping path) _ _ _ => [path]
  | .copy _ _ input _ => input :: command.configPaths
  | _ => command.configPaths

/-- The paths at which a command may look for mappings, by the configurations in files. -/
def mappingPaths (files : FileTree) (command : Command) : List String :=
  command.configPaths.flatMap fun path =>
    match StoreConfig.load files path with
    | .ok config => config.candidates
    | .error _ => []

end EntityStore.Command
