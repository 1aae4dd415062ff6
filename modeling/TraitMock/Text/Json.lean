import TraitMock.Text.Joined
import TraitMock.Text.Quoted

/-!
# Text/Json — JSON values as ASCII text on one line

Members are separated by a comma and a blank, a name from its value by a colon and a blank.
Characters beyond ASCII are written by their UTF-16 units, so the text is ASCII whatever it says.
-/

namespace TraitMock

/-- **A JSON value** without fractions; the members of an object keep their order. -/
inductive Json
  | null
  | bool (value : Bool)
  | int (value : Int)
  | str (value : String)
  | list (members : List Json)
  | object (members : List (String × Json))

instance : Inhabited Json := ⟨.null⟩

namespace Json

/-- A unit of UTF-16 by its four hexadecimal digits. -/
def unitEscape (unit : Nat) : String := "\\u" ++ Text.hex 4 unit

/-- One character inside a JSON string. -/
def charText (c : Char) : String :=
  if c = '"' then "\\\""
  else if c = '\\' then "\\\\"
  else if c = '\n' then "\\n"
  else if c = '\r' then "\\r"
  else if c = '\t' then "\\t"
  else if c = '\x0c' then "\\f"
  else if c = '\x08' then "\\b"
  else if 0x20 ≤ c.toNat ∧ c.toNat < 0x7f then String.singleton c
  else if c.toNat < 0x10000 then unitEscape c.toNat
  else
    let rest := c.toNat - 0x10000
    unitEscape (0xd800 + rest / 0x400) ++ unitEscape (0xdc00 + rest % 0x400)

/-- A JSON string. -/
def strText (s : String) : String := "\"" ++ String.join (s.toList.map charText) ++ "\""

mutual

/-- **A value as JSON text.** -/
def render : Json → String
  | null => "null"
  | bool true => "true"
  | bool false => "false"
  | int value => toString value
  | str value => strText value
  | list members => "[" ++ Text.joined ", " (renderMembers members) ++ "]"
  | object members => "\x7b" ++ Text.joined ", " (renderFields members) ++ "\x7d"

/-- The members of a list as JSON texts. -/
def renderMembers : List Json → List String
  | [] => []
  | value :: rest => value.render :: renderMembers rest

/-- The members of an object as JSON texts. -/
def renderFields : List (String × Json) → List String
  | [] => []
  | (name, value) :: rest => (strText name ++ ": " ++ value.render) :: renderFields rest

end

/-- A text, or null where there is none. -/
def ofOption : Option String → Json
  | none => null
  | some s => str s

/-- A number, or null where there is none. -/
def ofOptionInt : Option Int → Json
  | none => null
  | some n => int n

/-- A list of texts. -/
def strs (texts : List String) : Json := list (texts.map str)

end Json

end TraitMock
