import TraitMock.Text.Printable

/-!
# Text/Quoted — a text in quotes, with everything that is not printable escaped

A text stands in single quotes, or in double quotes if it holds a single quote and no double one.
Inside, the quote that surrounds it and the backslash are escaped by a backslash; a tab, a line feed
and a carriage return have letters, and any other character that is not printable is written by its
code with two, four or eight hexadecimal digits.
-/

namespace TraitMock.Text

/-- The hexadecimal digits of a code, lower case, filled up with zeros to a width. -/
def hex (width n : Nat) : String :=
  let digits := Nat.toDigits 16 n
  String.ofList (List.replicate (width - digits.length) '0' ++ digits)

/-- The code of a character behind a backslash. -/
def codeEscape (c : Char) : String :=
  if c.toNat < 0x100 then "\\x" ++ hex 2 c.toNat
  else if c.toNat < 0x10000 then "\\u" ++ hex 4 c.toNat
  else "\\U" ++ hex 8 c.toNat

/-- One character of a text in the given quotes. -/
def quoteChar (quote c : Char) : String :=
  if c = quote ∨ c = '\\' then String.ofList ['\\', c]
  else if c = '\t' then "\\t"
  else if c = '\n' then "\\n"
  else if c = '\r' then "\\r"
  else if isPrintable c then String.singleton c
  else codeEscape c

/-- The quote that surrounds a text. -/
def quoteFor (s : String) : Char :=
  if s.toList.contains '\x27' && !s.toList.contains '"' then '"' else '\x27'

/-- **A text in quotes.** -/
def quoted (s : String) : String :=
  let quote := quoteFor s
  String.singleton quote ++ String.join (s.toList.map (quoteChar quote)) ++ String.singleton quote

end TraitMock.Text
