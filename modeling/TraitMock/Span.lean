import TraitMock.Text.Joined

/-!
# Span — where something stands in a source text

A `Span` names a file and the two ends of a stretch of text; every part may be unknown.  Spans are
carried for messages only: no decision of the library looks at one.

* `Span.fillFile` — a span keeps the file it already names.
* `Location.toSpan` — how a foreign location becomes a span.
* `Span.format` — the short form `file:line:column` of what is known.
-/

namespace TraitMock

/-- **A stretch of source text**: lines and columns count from one, and the end column is one past
the last character.  A part that is not known is `none`. -/
structure Span where
  file : Option String := none
  line : Option Int := none
  column : Option Int := none
  endLine : Option Int := none
  endColumn : Option Int := none
  deriving DecidableEq, Repr, Inhabited

namespace Span

/-- The span of something whose place is not known at all. -/
abbrev unknown : Span := {}

/-- A span is known as soon as its line is. -/
def isKnown (s : Span) : Bool := s.line.isSome

/-- **Naming the file of a span**: only a span without a file takes the given one. -/
def fillFile (s : Span) (file : Option String) : Span :=
  { s with file := s.file <|> file }

@[simp] theorem fillFile_none (s : Span) : s.fillFile none = s := by
  cases s; simp [fillFile]

/-- A span that names a file keeps it. -/
theorem fillFile_of_file {s : Span} {f : String} (h : s.file = some f) (file : Option String) :
    s.fillFile file = s := by
  cases s; simp_all [fillFile]

/-- The parts of the short form: the file unless its name is empty, then line and column, where a
column that is not known counts as zero. -/
def formatParts (s : Span) : List String :=
  let place := match s.line with
    | none => []
    | some line => [toString line ++ ":" ++ toString (s.column.getD 0)]
  match s.file with
  | none => place
  | some file => if file.isEmpty then place else file :: place

/-- **The short form** `file:line:column` of whatever is known. -/
def format (s : Span) : String :=
  match s.formatParts with
  | [] => "<unknown location>"
  | parts => Text.joined ":" parts

end Span

/-- **A location of another tool**: it may say where it stands under either of two names for the
file, or say that it covers no text at all. -/
structure Location where
  line : Option Int := none
  column : Option Int := none
  endLine : Option Int := none
  endColumn : Option Int := none
  file : Option String := none
  filename : Option String := none
  isEmpty : Bool := false

namespace Location

/-- The first name that is not empty, and the last one if all are. -/
def firstNamed : List (Option String) → Option String
  | [] => none
  | [name] => name
  | some name :: more => if name.isEmpty then firstNamed more else some name
  | none :: more => firstNamed more

/-- **A foreign location as a span**: a location that covers no text gives the file alone; any
other takes the given file, then its own names for it. -/
def toSpan (l : Location) (file : Option String) : Span :=
  if l.isEmpty then { file }
  else
    { file := firstNamed [file, l.file, l.filename]
      line := l.line, column := l.column, endLine := l.endLine, endColumn := l.endColumn }

end Location

end TraitMock
