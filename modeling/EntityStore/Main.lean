import EntityStore.Command.Run

/-!
# The program

The program reads the files that its command looks at, the ones that the command names and then the
mappings that their configurations may mean, and prints what the run of the command ends with.
-/

namespace EntityStore

/-- The octets of the files at paths, of those that can be read. -/
def readFiles (paths : List String) : IO (List (String × List UInt8)) :=
  paths.filterMapM fun (path : String) => do
    try
      let octets ← IO.FS.readBinFile path
      return some (path, octets.data.toList)
    catch _ => return none

/-- The files that a command looks at. -/
def snapshot (command : Command) : IO FileTree := do
  let named ← readFiles command.paths
  let mappings ← readFiles (command.mappingPaths (.ofList named))
  return .ofList (named ++ mappings)

end EntityStore

open EntityStore

/-- Runs the command of the command line, with memory for every buffer that there can be. -/
def main (arguments : List String) : IO UInt32 := do
  let files ← match Command.ofArguments arguments with
    | .ok command => snapshot command
    | .error _ => pure (.ofList [])
  let exit := Command.run bufferLimit files arguments
  IO.print exit.output
  if exit.code ≠ 0 then IO.eprintln ("Error: " ++ exit.message)
  return exit.code.toUInt32
