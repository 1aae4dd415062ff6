import TraitMock.Span
import TraitMock.Decl.Basic
import TraitMock.Syntax.Terminal

/-!
# Syntax/Token — positions, tokens, and the stretches of text they cover

A `Pos` counts lines and columns from one; only a line feed ends a line, and a column counts
characters.  A `Token` is a lexeme with the positions of its two ends, and an `Extent` is the
stretch from one token to another.
-/

namespace TraitMock

/-- A place between two characters of a text. -/
structure Pos where
  line : Nat := 1
  column : Nat := 1
  deriving DecidableEq, Repr, Inhabited

namespace Pos

/-- The place behind a character. -/
def next (p : Pos) (c : Char) : Pos :=
  if c = '\n' then ⟨p.line + 1, 1⟩ else ⟨p.line, p.column + 1⟩

/-- The place behind a stretch of characters. -/
def after (p : Pos) (cs : List Char) : Pos := cs.foldl next p

@[simp] theorem after_nil (p : Pos) : p.after [] = p := rfl

@[simp] theorem after_cons (p : Pos) (c : Char) (cs : List Char) :
    p.after (c :: cs) = (p.next c).after cs := rfl

theorem after_append (p : Pos) (cs ds : List Char) :
    p.after (cs ++ ds) = (p.after cs).after ds := List.foldl_append

end Pos

/-- The stretch of text between two places. -/
structure Extent where
  start : Pos
  stop : Pos
  deriving DecidableEq, Repr, Inhabited

/-- An extent as a span of the given file. -/
def Extent.toSpan (e : Extent) (file : Option String) : Span :=
  { file
    line := some e.start.line, column := some e.start.column
    endLine := some e.stop.line, endColumn := some e.stop.column }

/-- **A lexeme at its place.** -/
structure Token where
  kind : Terminal
  text : String
  extent : Extent
  deriving DecidableEq, Repr, Inhabited

/-- The name of a lifetime token, without its quote. -/
def Token.lifetime (t : Token) : String := String.ofList (t.text.toList.drop 1)

/-- **The place of a phrase**: the file it stands in and the extent from its first token to its
last. -/
structure Place where
  file : Option String
  extent : Extent

namespace Place

/-- **The file of a phrase**: an empty name is none. -/
def namedFile (place : Place) : Option String := place.file.filter fun name => !name.isEmpty

/-- The span of the whole phrase. -/
def span (place : Place) : Span := place.extent.toSpan place.namedFile

/-- The identifier that a token spells.  Its span names the file as it is, even if the name is
empty. -/
def ident (place : Place) (t : Token) : Ident := ⟨t.text, t.extent.toSpan place.file⟩

/-- The identifier that a lifetime token spells: its name, at the place of the whole token. -/
def lifetimeIdent (place : Place) (t : Token) : Ident :=
  ⟨t.lifetime, t.extent.toSpan place.file⟩

end Place

end TraitMock
