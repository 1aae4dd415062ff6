import TraitMock.Command.FileTree
import TraitMock.Mock.Text
import TraitMock.Syntax.Collect
import TraitMock.Text.Utf8

/-!
# Command/Findings — what a run finds in its sources

The findings of a source are its plans and its diagnostics, and those of several sources are the
findings of each, one behind the other.  A fault in one source ends the whole run.
-/

namespace TraitMock.Command

/-- **A diagnostic and the source that it is about.** -/
structure Finding where
  diagnostic : Diagnostic
  source : String
  deriving DecidableEq, Repr

/-- **What a run finds.** -/
structure Findings where
  plans : List MockPlan := []
  problems : List Finding := []

/-- **Why a run ends without findings.** -/
inductive RunFault
  /-- A source is a folder. -/
  | folder (path : String)
  /-- A source is no text. -/
  | undecodable (error : Text.Utf8Error)
  /-- A source asks for something that is not supported at all. -/
  | planning (fault : Fault)
  /-- There is no number of levels to be compared with one. -/
  | uncountedLevels
  deriving DecidableEq, Repr

/-- The wording of a fault of a run. -/
def RunFault.message : RunFault → String
  | .folder path => "[Errno 21] Is a directory: " ++ Text.quoted path
  | .undecodable error => error.message
  | .planning fault => fault.message
  | .uncountedLevels => "'<' not supported between instances of 'list' and 'int'"

namespace Findings

/-- The findings of two runs, one behind the other. -/
def append (a b : Findings) : Findings := ⟨a.plans ++ b.plans, a.problems ++ b.problems⟩

instance : Append Findings := ⟨append⟩

@[simp] theorem plans_append (a b : Findings) : (a ++ b).plans = a.plans ++ b.plans := rfl

@[simp] theorem problems_append (a b : Findings) :
    (a ++ b).problems = a.problems ++ b.problems := rfl

/-- Findings of diagnostics alone. -/
def ofDiagnostics (source : String) (diagnostics : List Diagnostic) : Findings :=
  { problems := diagnostics.map (⟨·, source⟩) }

/-- **The findings of a text.** -/
def ofText (levels : Int) (source text : String) : Except Fault Findings :=
  match DeclFile.collect (some source) text with
  | (none, diagnostics) => .ok (ofDiagnostics source diagnostics)
  | (some decls, diagnostics) =>
    let outcome := (decls.plan levels).run .collect
    outcome.result.map fun plans =>
      { plans, problems := (diagnostics ++ outcome.reports).map (⟨·, source⟩) }

/-- **The findings of a source.** -/
def ofSource (levels : Int) (path : String) : Source → Except RunFault Findings
  | .missing => .ok (ofDiagnostics path [.ofProblem (.missingSource path) { file := some path }])
  | .folder => .error (.folder path)
  | .file bytes =>
    match Text.decodeUtf8 bytes with
    | .error error => .error (.undecodable error)
    | .ok cs => (ofText levels path (String.ofList (Text.unifyLineEnds cs))).mapError .planning

/-- **The findings of several sources.** -/
def ofSources (levels : Int) (lookup : SourcePath → Source) :
    List SourcePath → Except RunFault Findings
  | [] => .ok {}
  | path :: rest => do
    let first ← ofSource levels path.text (lookup path)
    return first ++ (← ofSources levels lookup rest)

/-- Whether there is an error among the findings. -/
def hasError (f : Findings) : Bool := Diagnostic.anyError (f.problems.map (·.diagnostic))

/-- **The exit code of a run**: one as soon as there is an error. -/
def exitCode (f : Findings) : Nat := if f.hasError then 1 else 0

/-- **Findings as JSON.** -/
def toJson (f : Findings) : Json :=
  .object [
    ("exit_code", .int f.exitCode),
    ("plans", .list (f.plans.map MockPlan.toJson)),
    ("diagnostics", .list (f.problems.map fun p => p.diagnostic.toJson p.source))]

/-- The lines that show the plans. -/
def planLines (f : Findings) : List String := f.plans.flatMap MockPlan.lines

/-- The lines that show the diagnostics. -/
def problemLines (f : Findings) : List String :=
  f.problems.map fun p => p.diagnostic.line p.source

end Findings

end TraitMock.Command
