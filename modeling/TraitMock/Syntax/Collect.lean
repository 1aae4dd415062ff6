import TraitMock.Report.Diagnostic
import TraitMock.Syntax.Parse

/-!
# Syntax/Collect — reading a declaration file into diagnostics
-/

namespace TraitMock

/-- A syntax error as a diagnostic; where the faulty place ends is not known. -/
def SyntaxError.toDiagnostic (file : Option String) (e : SyntaxError) : Diagnostic :=
  .ofProblem (.syntactic e) { file, line := some e.pos.line, column := some e.pos.column }

/-- **Reading a declaration file**: its declarations, or one diagnostic that says where and why it
cannot be read. -/
def DeclFile.collect (file : Option String) (text : String) :
    Option DeclFile × List Diagnostic :=
  match DeclFile.parse file text with
  | .ok decls => (some decls, [])
  | .error e => (none, [e.toDiagnostic file])

end TraitMock
