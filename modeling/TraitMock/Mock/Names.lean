import TraitMock.Decl.Basic

/-!
# Mock/Names — the names of a mock and of its module
-/

namespace TraitMock

/-- **The name of the mock** of a struct or a trait. -/
def mockIdent (struct : Ident) : Ident := ⟨"Mock" ++ struct.name, struct.span⟩

/-- **The module of the mock's expectations**: one for the methods of a struct itself, and one for
each trait that it implements. -/
def moduleIdent (struct : Ident) : (interface : Option Ident) → Ident
  | none => ⟨"__mock_" ++ struct.name, struct.span⟩
  | some interface => ⟨"__mock_" ++ struct.name ++ "_" ++ interface.name, struct.span⟩

end TraitMock
