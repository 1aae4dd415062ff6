import TraitMock.Text.Joined

/-!
# Command/SourcePath — the names of sources

A source is named by a path.  Empty names and `.` in it mean nothing and are dropped, `..` is kept;
a path without any name is the place where the program runs, written `.`.
-/

namespace TraitMock.Command

/-- Where a path begins. -/
inductive PathRoot
  /-- Where the program runs. -/
  | here
  /-- The root of all files. -/
  | root
  /-- Two slashes exactly, which a system may give a meaning of their own. -/
  | doubled
  deriving DecidableEq, Repr

/-- How the beginning of a path is written. -/
def PathRoot.text : PathRoot → String
  | .here => ""
  | .root => "/"
  | .doubled => "//"

/-- **The path of a source.** -/
structure SourcePath where
  root : PathRoot
  names : List String
  deriving DecidableEq, Repr

namespace SourcePath

/-- The pieces of a text between slashes. -/
def pieces : List Char → List (List Char)
  | [] => [[]]
  | c :: cs =>
    if c = '/' then [] :: pieces cs
    else
      match pieces cs with
      | [] => [[c]]
      | piece :: rest => (c :: piece) :: rest

/-- The number of slashes at the front decides where a path begins. -/
def rootOf (cs : List Char) : PathRoot :=
  match (cs.takeWhile (· = '/')).length with
  | 0 => .here
  | 2 => .doubled
  | _ => .root

/-- **Reading a path.** -/
def ofString (text : String) : SourcePath :=
  { root := rootOf text.toList
    names := ((pieces text.toList).map String.ofList).filter fun name => name ≠ "" && name ≠ "." }

/-- **A path as it is shown.** -/
def text (p : SourcePath) : String :=
  if p.root = .here ∧ p.names = [] then "." else p.root.text ++ Text.joined "/" p.names

end SourcePath

end TraitMock.Command
