import TraitMock.Syntax.Token

/-!
# Syntax/Lexer — the next token, as far as the context accepts it

Which lexeme stands at the front of a text depends on the terminals that the context accepts.

* Where a name is accepted, a whole name is read; it is a keyword if it spells one that the context
  accepts too (`Lexer.nameKind`).
* Where no name is accepted, a keyword is read as soon as its letters are there, whatever follows.
* Blanks and comments stand between any two tokens (`Lexer.skip`).
* A text at whose front no accepted terminal matches is read once more with every terminal accepted,
  so that the error can name the token that is not expected (`Lexer.next`).
-/

namespace TraitMock

/-- **Why a text is not a declaration, and where.** -/
inductive SyntaxError
  /-- A token that cannot stand here; its extent begins where the message points. -/
  | unexpectedToken (token : Token)
  /-- A character with which no token begins. -/
  | unexpectedChar (c : Char) (pos : Pos)
  deriving DecidableEq, Repr

/-- The place a syntax error points to. -/
def SyntaxError.pos : SyntaxError → Pos
  | .unexpectedToken token => token.extent.start
  | .unexpectedChar _ pos => pos

namespace Lexer

/-- The blanks: space, tab, form feed, carriage return, line feed. -/
def isBlank (c : Char) : Bool := c == ' ' || c == '\t' || c == '\x0c' || c == '\r' || c == '\n'

/-- **Skipping blanks and comments.**  A comment runs from two slashes to the end of its line. -/
def skip : (inComment : Bool) → Pos → List Char → Pos × List Char
  | _, pos, [] => (pos, [])
  | true, pos, c :: cs => skip (c != '\n') (pos.next c) cs
  | false, pos, c :: cs =>
    if isBlank c then skip false (pos.next c) cs
    else if c = '/' ∧ cs.head? = some '/' then skip true (pos.next c) cs
    else (pos, c :: cs)

/-- The terminal that a whole name belongs to: an accepted keyword that it spells, or a name. -/
def nameKind (accepts : Terminal → Bool) (word : List Char) : Terminal :=
  (Terminal.all.find? fun t =>
    t.isWord && accepts t && t.spelling? == some (String.ofList word)).getD .name

/-- What one terminal matches in a context: nothing unless it is accepted, and keywords are left to
the names where names are accepted. -/
def scanIn (accepts : Terminal → Bool) (cs : List Char) (t : Terminal) :
    Option (Terminal × List Char × List Char) :=
  if !accepts t || (accepts .name && t.isWord) then none
  else (t.scan cs).map fun (word, rest) =>
    (if t = .name then nameKind accepts word else t, word, rest)

/-- **The lexeme at the front of a text**: the first terminal that matches wins. -/
def lexeme (accepts : Terminal → Bool) (cs : List Char) :
    Option (Terminal × List Char × List Char) :=
  Terminal.all.findSome? (scanIn accepts cs)

/-- The token of a lexeme that begins at a place. -/
def tokenAt (pos : Pos) (kind : Terminal) (word : List Char) : Token :=
  ⟨kind, String.ofList word, ⟨pos, pos.after word⟩⟩

/-- **The next token** of a text that stands at `pos`, with the text behind it; `none` at the end of
the text. -/
def next (accepts : Terminal → Bool) (pos : Pos) (cs : List Char) :
    Except SyntaxError (Option (Token × List Char)) :=
  match skip false pos cs with
  | (_, []) => .ok none
  | (pos, c :: cs) =>
    match lexeme accepts (c :: cs) with
    | some (kind, word, rest) => .ok (some (tokenAt pos kind word, rest))
    | none =>
      match lexeme (fun _ => true) (c :: cs) with
      | some (kind, word, _) => .error (.unexpectedToken (tokenAt pos kind word))
      | none => .error (.unexpectedChar c pos)

end Lexer

end TraitMock
