import TraitMock.Command.Run

/-!
# Main — the program

Reads the sources that the command line names, runs, and writes what comes of it.
-/

namespace TraitMock

open Command

/-- The code with which a system tells that a path leads to a folder. -/
def folderCode : UInt32 := 21

/-- What is found under a path.  A path that leads through a file leads nowhere. -/
def findSource (path : SourcePath) : IO Source := do
  try
    return .file (← IO.FS.readBinFile path.text).toList
  catch
    | .inappropriateType _ code _ => return if code = folderCode then .folder else .missing
    | .noFileOrDirectory .. => return .missing
    | fault => throw fault

/-- What is found under each of some paths. -/
def findSources (paths : List SourcePath) : IO (SourcePath → Source) := do
  let found ← paths.mapM fun path => return (path, ← findSource path)
  return fun path => ((found.find? (·.1 = path)).map (·.2)).getD .missing

end TraitMock

open TraitMock TraitMock.Command

/-- **The program.** -/
def main (args : List String) : IO UInt32 := do
  let paths := match Options.ofArgs args with
    | .ok options => options.paths
    | .error _ => []
  match run args (← findSources paths) with
  | .ok output =>
    (← IO.getStdout).putStr output.stdout
    (← IO.getStderr).putStr output.stderr
    return output.exitCode.toUInt32
  | .error fault =>
    (← IO.getStderr).putStrLn fault.message
    return 1
