import TraitMock.Syntax.Lexer
import TraitMock.Text.Quoted

/-!
# Syntax/Message — the wording of syntax errors

A message is one line.  A token is quoted; a character that begins no token is shown as it is, so a
character that ends a line ends the message too.
-/

namespace TraitMock.SyntaxError

/-- **What a syntax error says.** -/
def message : SyntaxError → String
  | .unexpectedToken token =>
    "Unexpected token Token(" ++ Text.quoted token.kind.label ++ ", " ++ Text.quoted token.text ++
      ") at line " ++ toString token.extent.start.line ++
      ", column " ++ toString token.extent.start.column ++ "."
  | .unexpectedChar c pos =>
    Text.firstLine <|
      "No terminal matches '" ++ String.singleton c ++
        "' in the current parser context, at line " ++ toString pos.line ++
        " col " ++ toString pos.column

end TraitMock.SyntaxError
