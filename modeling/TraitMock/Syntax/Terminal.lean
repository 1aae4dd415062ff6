/-!
# Syntax/Terminal — the words and marks of the declaration language

A `Terminal` is a class of lexemes.  `Terminal.scan` says what a terminal matches at the front of a
text: the longest word of its class, a fixed spelling, or for `macroArgs` one group of parentheses.
`Terminal.all` lists the terminals in the order in which they are tried.
-/

namespace TraitMock

/-- **A class of lexemes.** -/
inductive Terminal
  | macroArgs | lifetime | name | int
  | constKw | crateKw | traitKw | whereKw | implKw | selfKw | dynKw | forKw | mutKw | pubKw | refKw
  | arrow | asKw | fnKw | inKw | pathSep | amp | atMark | bang | colon | comma | equal | lbrace
  | less | lparen | lbracket | greater | plus | question | rbrace | rparen | rbracket | semicolon
  | star | underscore
  /-- What stands behind the last lexeme. -/
  | endOfText
  deriving DecidableEq, Repr, Inhabited

namespace Terminal

/-- The terminals that match some text, in the order in which they are tried. -/
def all : List Terminal :=
  [.macroArgs, .lifetime, .name, .int, .constKw, .crateKw, .traitKw, .whereKw, .implKw, .selfKw,
    .dynKw, .forKw, .mutKw, .pubKw, .refKw, .arrow, .asKw, .fnKw, .inKw, .pathSep, .amp, .atMark,
    .bang, .colon, .comma, .equal, .lbrace, .less, .lparen, .lbracket, .greater, .plus, .question,
    .rbrace, .rparen, .rbracket, .semicolon, .star, .underscore]

/-- The name under which messages speak of a terminal. -/
def label : Terminal → String
  | .macroArgs => "MACRO_ARGS" | .lifetime => "LIFETIME" | .name => "NAME" | .int => "INT"
  | .constKw => "CONST" | .crateKw => "CRATE" | .traitKw => "TRAIT" | .whereKw => "WHERE"
  | .implKw => "IMPL" | .selfKw => "SELF" | .dynKw => "DYN" | .forKw => "FOR" | .mutKw => "MUT"
  | .pubKw => "PUB" | .refKw => "REF" | .arrow => "ARROW" | .asKw => "AS" | .fnKw => "FN"
  | .inKw => "IN" | .pathSep => "__ANON_0" | .amp => "AMP" | .atMark => "AT" | .bang => "BANG"
  | .colon => "COLON" | .comma => "COMMA" | .equal => "EQUAL" | .lbrace => "LBRACE"
  | .less => "LESSTHAN" | .lparen => "LPAR" | .lbracket => "LSQB" | .greater => "MORETHAN"
  | .plus => "PLUS" | .question => "QUESTION" | .rbrace => "RBRACE" | .rparen => "RPAR"
  | .rbracket => "RSQB" | .semicolon => "SEMICOLON" | .star => "STAR"
  | .underscore => "UNDERSCORE" | .endOfText => "$END"

/-- The one spelling of a keyword or a mark; the open classes have none. -/
def spelling? : Terminal → Option String
  | .macroArgs | .lifetime | .name | .int | .endOfText => none
  | .constKw => "const" | .crateKw => "crate" | .traitKw => "trait" | .whereKw => "where"
  | .implKw => "impl" | .selfKw => "self" | .dynKw => "dyn" | .forKw => "for" | .mutKw => "mut"
  | .pubKw => "pub" | .refKw => "ref" | .arrow => "->" | .asKw => "as" | .fnKw => "fn"
  | .inKw => "in" | .pathSep => "::" | .amp => "&" | .atMark => "@" | .bang => "!" | .colon => ":"
  | .comma => "," | .equal => "=" | .lbrace => "\x7b" | .less => "<" | .lparen => "("
  | .lbracket => "[" | .greater => ">" | .plus => "+" | .question => "?" | .rbrace => "\x7d"
  | .rparen => ")" | .rbracket => "]" | .semicolon => ";" | .star => "*" | .underscore => "_"

/-! ## Names -/

/-- A name begins with an ASCII letter or an underscore. -/
def isNameStart (c : Char) : Bool := c.isAlpha || c == '_'

/-- A name goes on with ASCII letters, digits and underscores. -/
def isNameChar (c : Char) : Bool := isNameStart c || c.isDigit

/-- A keyword is a terminal whose spelling has the form of a name, the underscore included. -/
def isWord (t : Terminal) : Bool :=
  match t.spelling?.map String.toList with
  | some (c :: _) => isNameStart c
  | _ => false

/-! ## Matching at the front of a text

Each function gives the matched characters and the rest. -/

/-- The longest front of characters of a class, if it is not empty. -/
def scanWhile (p : Char → Bool) (cs : List Char) : Option (List Char × List Char) :=
  match cs.takeWhile p with
  | [] => none
  | word => some (word, cs.dropWhile p)

/-- The longest name. -/
def scanName : List Char → Option (List Char × List Char)
  | [] => none
  | c :: cs =>
    if isNameStart c then some (c :: cs.takeWhile isNameChar, cs.dropWhile isNameChar) else none

/-- The quote that marks a lifetime. -/
def quoteMark : Char := '\x27'

/-- A lifetime: a quote and a name. -/
def scanLifetime : List Char → Option (List Char × List Char)
  | [] => none
  | c :: cs =>
    if c = quoteMark then (scanName cs).map fun (word, rest) => (c :: word, rest) else none

/-- **A group of parentheses** up to its closing one, with at most one further level inside.
`depth` groups are open. -/
def scanGroup : Nat → List Char → Option (List Char × List Char)
  | _, [] => none
  | depth, c :: cs =>
    if c = '(' then
      if depth < 2 then (scanGroup (depth + 1) cs).map fun (body, rest) => (c :: body, rest)
      else none
    else if depth = 0 then none
    else if c = ')' then
      if depth = 1 then some ([c], cs)
      else (scanGroup (depth - 1) cs).map fun (body, rest) => (c :: body, rest)
    else (scanGroup depth cs).map fun (body, rest) => (c :: body, rest)

/-- A fixed spelling, whatever follows it. -/
def scanSpelling : List Char → List Char → Option (List Char × List Char)
  | [], rest => some ([], rest)
  | _ :: _, [] => none
  | w :: word, c :: cs =>
    if w = c then (scanSpelling word cs).map fun (done, rest) => (c :: done, rest) else none

/-- **What a terminal matches at the front of a text.** -/
def scan (t : Terminal) (cs : List Char) : Option (List Char × List Char) :=
  match t with
  | .macroArgs => scanGroup 0 cs
  | .lifetime => scanLifetime cs
  | .name => scanName cs
  | .int => scanWhile Char.isDigit cs
  | t => t.spelling?.bind fun word => scanSpelling word.toList cs

end Terminal

end TraitMock
