import TraitMock.Decl.Basic

/-!
# Decl/Visibility — who may see an item
-/

namespace TraitMock

/-- **A visibility.** -/
inductive Visibility
  /-- No keyword: private to the enclosing module. -/
  | inherited
  /-- `pub` -/
  | pub
  /-- The bare keyword `crate`. -/
  | crate
  /-- `pub(super)`, `pub(self)`, `pub(crate)`, or `pub(in path)` when `hasIn`. -/
  | restricted (path : Path) (hasIn : Bool)
  /-- A node of no known shape; `kind` is what it calls itself. -/
  | unknown (kind : String)
  deriving Inhabited

/-- Whether no keyword was written. -/
def Visibility.isInherited : Visibility → Bool
  | .inherited => true
  | _ => false

end TraitMock
