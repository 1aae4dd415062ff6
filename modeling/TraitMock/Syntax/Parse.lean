import TraitMock.Syntax.Machine
import TraitMock.Text.Blank

/-!
# Syntax/Parse — reading types, methods, generics, visibilities and declaration files
-/

namespace TraitMock

/-- **Reading a type.** -/
def Ty.parse (text : String) : Except SyntaxError Ty := Machine.parse none .type text.toList

/-- The text of a method with the mark at its end, which may be left out.  Blanks may follow the
mark; a comment may not. -/
def Method.completed (text : List Char) : List Char :=
  if (Text.trimRight text).getLast? = some ';' then text else text ++ [';']

/-- **Reading one method.** -/
def Method.parse (text : String) : Except SyntaxError Method :=
  Machine.parse none .method (completed text.toList)

/-- **Reading a parameter list**, brackets included. -/
def Generics.parse (text : String) : Except SyntaxError Generics :=
  Machine.parse none .generics text.toList

/-- **Reading a visibility.**  A text of blanks alone is the private one. -/
def Visibility.parse (text : String) : Except SyntaxError Visibility :=
  if text.toList.all Text.isBlank then .ok .inherited
  else Machine.parse none .visibility text.toList

/-- **Reading a declaration file**; the name of the file goes into every span. -/
def DeclFile.parse (file : Option String) (text : String) : Except SyntaxError DeclFile :=
  (Machine.parse file .declFile text.toList).map fun items => ⟨items, file⟩

/-- A declaration file is read if its items are, and keeps its name. -/
theorem DeclFile.parse_eq_ok_iff {file : Option String} {text : String} {decls : DeclFile} :
    DeclFile.parse file text = .ok decls ↔
      Machine.parse file .declFile text.toList = .ok decls.items ∧ decls.file = file := by
  obtain ⟨items, name⟩ := decls
  unfold DeclFile.parse
  cases Machine.parse file .declFile text.toList with
  | error e => exact ⟨nofun, nofun⟩
  | ok items' =>
    constructor
    · rintro ⟨⟩
      exact ⟨rfl, rfl⟩
    · rintro ⟨⟨⟩, ⟨⟩⟩
      rfl

end TraitMock
