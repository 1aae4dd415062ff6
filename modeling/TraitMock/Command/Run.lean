import TraitMock.Command.Findings
import TraitMock.Command.Options

/-!
# Command/Run — a run of the program

A run is a function from the words of its command line and what is found under the paths of its
sources to what it writes and the code that it exits with.
-/

namespace TraitMock.Command

/-- **What a run writes, and its exit code.** -/
structure Output where
  exitCode : Nat
  stdout : String := ""
  stderr : String := ""
  deriving DecidableEq, Repr

/-- Lines of text, each with its end. -/
def unlines (lines : List String) : String := String.join (lines.map (· ++ "\n"))

/-- The name of the program. -/
def programName : String := "mockgen"

/-- How the program is called. -/
def usageLine : String :=
  "usage: " ++ programName ++ " [-h] [--levels LEVELS] [--json] source [source ...]"

/-- **The help.** -/
def helpLines : List String := [
  usageLine,
  "",
  "mock synthesis planner",
  "",
  "positional arguments:",
  "  source           Path(s) to declaration file(s)",
  "",
  "options:",
  "  -h, --help       show this help message and exit",
  "  --levels LEVELS  How many modules below the mock struct expectation types",
  "                   are emitted (default: 2)",
  "  --json           Emit plans and diagnostics as JSON"]

/-- What is written where a command line is wrong. -/
def misuseLines (cause : Misuse) : List String :=
  [usageLine, programName ++ ": error: " ++ cause.message]

/-- What comes of a command line that asks for no run. -/
def Stop.output : Stop → Except RunFault Output
  | .help => .ok { exitCode := 0, stdout := unlines helpLines }
  | .misuse cause => .ok { exitCode := 2, stderr := unlines (misuseLines cause) }
  | .uncountedLevels => .error .uncountedLevels

/-- What is written about findings: one line of JSON, or the lines of the plans and, apart from
them, those of the diagnostics. -/
def Findings.output (f : Findings) (json : Bool) : Output :=
  if json then { exitCode := f.exitCode, stdout := unlines [f.toJson.render] }
  else
    { exitCode := f.exitCode, stdout := unlines f.planLines, stderr := unlines f.problemLines }

/-- The paths of the sources. -/
def Options.paths (o : Options) : List SourcePath := o.sources.map SourcePath.ofString

/-- A run with the given options. -/
def Options.run (o : Options) (lookup : SourcePath → Source) : Except RunFault Output :=
  (Findings.ofSources o.levels lookup o.paths).map (·.output o.json)

/-- **A run of the program.** -/
def run (args : List String) (lookup : SourcePath → Source) : Except RunFault Output :=
  match Options.ofArgs args with
  | .error stop => stop.output
  | .ok options => options.run lookup

end TraitMock.Command
