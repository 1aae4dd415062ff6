import TraitMock.Text.Decimal
import TraitMock.Text.Joined
import TraitMock.Text.Quoted

/-!
# Command/Word — the words of a command line

Before anything is done, each word of a command line is sorted: it is plain, or it asks for an
option.  A long option may be cut short as long as only one option begins that way, and `--` makes
everything behind it plain (`words_separator`).
-/

namespace TraitMock.Command

/-- **The options.** -/
inductive OptionName
  | help
  | levels
  | json
  deriving DecidableEq, Repr

namespace OptionName

/-- Every option, in the order in which they are named. -/
def all : List OptionName := [help, levels, json]

/-- The long spelling. -/
def long : OptionName → String
  | help => "--help"
  | levels => "--levels"
  | json => "--json"

/-- All spellings, as messages name them. -/
def label : OptionName → String
  | help => "-h/--help"
  | name => name.long

/-- The options whose long spelling begins with the given characters. -/
def beginning (front : List Char) : List OptionName :=
  all.filter fun name => front.isPrefixOf name.long.toList

end OptionName

/-- **How a command line can be wrong.** -/
inductive Misuse
  /-- A word that several options begin with. -/
  | ambiguous (word : String) (options : List OptionName)
  /-- An option without the value that it needs. -/
  | lacksValue (name : OptionName)
  /-- A value that is no whole number. -/
  | noNumber (name : OptionName) (value : String)
  /-- A value for an option that takes none. -/
  | ignoredValue (name : OptionName) (value : String)
  /-- No declaration file is named. -/
  | noSource
  /-- Words that mean nothing. -/
  | unrecognized (words : List String)
  | levelsBelowOne
  deriving DecidableEq, Repr

/-- The wording of a misuse. -/
def Misuse.message : Misuse → String
  | .ambiguous word options =>
    "ambiguous option: " ++ word ++ " could match " ++
      Text.joined ", " (options.map OptionName.long)
  | .lacksValue name => "argument " ++ name.label ++ ": expected one argument"
  | .noNumber name value =>
    "argument " ++ name.label ++ ": invalid int value: " ++ Text.quoted value
  | .ignoredValue name value =>
    "argument " ++ name.label ++ ": ignored explicit argument " ++ Text.quoted value
  | .noSource => "the following arguments are required: source"
  | .unrecognized words => "unrecognized arguments: " ++ Text.joined " " words
  | .levelsBelowOne => "--levels must be at least 1"

/-- **A word, sorted.** -/
inductive Word
  | plain (text : String)
  /-- The first `--`. -/
  | separator
  /-- An option by a spelling of its own, with the value behind its `=`. -/
  | option (name : OptionName) (value : Option String)
  /-- `-h` with letters behind it, which may follow a `=`. -/
  | short (tail : List Char)
  /-- A word that looks like an option and is none. -/
  | unknown (text : String)
  deriving DecidableEq, Repr

/-- Whether some characters are decimal digits, at least one. -/
def areDigits (cs : List Char) : Bool :=
  !cs.isEmpty && cs.all fun c => (Text.digitValue? c).isSome

/-- Whether what stands behind a dash makes it a negative number: digits, or digits with a point of
which those before it may be absent.  A line feed may follow. -/
def isNegated (cs : List Char) : Bool :=
  let cs := if cs.getLast? = some '\n' then cs.dropLast else cs
  let front := cs.takeWhile (· ≠ '.')
  match cs.dropWhile (· ≠ '.') with
  | [] => areDigits front
  | _ :: behind => (front.isEmpty || areDigits front) && areDigits behind

/-- A word that begins with a dash and is no option: plain if a blank is in it. -/
def Word.ofDashed (text : String) : Word :=
  if text.toList.contains ' ' then .plain text else .unknown text

namespace Word

/-- A word that begins with two dashes. -/
def ofLong (text : String) : Except Misuse Word :=
  let cs := text.toList
  let value := match cs.dropWhile (· ≠ '=') with
    | [] => none
    | _ :: value => some (String.ofList value)
  match OptionName.beginning (cs.takeWhile (· ≠ '=')) with
  | [] => .ok (ofDashed text)
  | [name] => .ok (option name value)
  | names => .error (.ambiguous text names)

/-- **Sorting one word.** -/
def ofString (text : String) : Except Misuse Word :=
  match text.toList with
  | '-' :: '-' :: _ => ofLong text
  | ['-', 'h'] => .ok (option .help none)
  | '-' :: 'h' :: '=' :: tail => .ok (short tail)
  | '-' :: 'h' :: tail => .ok (short tail)
  | '-' :: rest => .ok (if rest.isEmpty || isNegated rest then plain text else ofDashed text)
  | _ => .ok (plain text)

end Word

/-- The word that makes everything behind it plain. -/
def separatorText : String := "--"

/-- **Sorting the words of a command line.** -/
def words : List String → Except Misuse (List Word)
  | [] => .ok []
  | text :: rest =>
    if text = separatorText then .ok (.separator :: rest.map .plain)
    else do return (← Word.ofString text) :: (← words rest)

/-- Behind the separator every word is plain. -/
theorem words_separator (rest : List String) :
    words (separatorText :: rest) = .ok (.separator :: rest.map .plain) := by
  simp [words]

end TraitMock.Command
