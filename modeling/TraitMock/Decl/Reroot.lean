import TraitMock.Decl.Visibility
import TraitMock.Report.Diagnostic
import TraitMock.Walk.Edit
import TraitMock.Walk.SuperPath

/-!
# Decl/Reroot — a visibility as it has to be written further down

What is emitted some modules below a declaration has to be visible exactly where the declaration
was.  A visibility that is relative to the module of the declaration gets that many steps up in
front; one that is rooted in the crate, and a public one, mean the same everywhere.
-/

namespace TraitMock

/-- The segment that names the root of the crate. -/
def crateName : String := "crate"

/-- The segment that names the module itself. -/
def hereName : String := "self"

/-- **A restricting path seen from some levels down.**  A leading `self` is dropped: the steps up
lead to the module that it names. -/
def Path.reroot (levels : Nat) (path : Path) : Path :=
  let rest := if path.firstName? = some hereName then path.segments.drop 1 else path.segments
  let span := (path.segments.head?.map (·.ident.span)).getD .unknown
  ⟨supers levels span ++ rest, false⟩

/-- **A visibility seen from some levels down.** -/
def Visibility.rerootBy (levels : Nat) : Visibility → Edit Visibility
  | .inherited => .replace (.restricted ⟨supers levels .unknown, false⟩ true)
  | .restricted path _ =>
    if path.firstName? = some crateName then .keep
    else .replace (.restricted (path.reroot levels) true)
  | _ => .keep

/-- A visibility seen from some levels down, of which there must be at least one. -/
def Visibility.reroot (vis : Visibility) (levels : Int) : Except Fault (Edit Visibility) :=
  if levels < 1 then .error (.levelsBelowOne levels) else .ok (vis.rerootBy levels.toNat)

end TraitMock
