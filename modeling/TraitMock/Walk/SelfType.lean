import TraitMock.Walk.Basic

/-!
# Walk/SelfType — putting the mock in the place of `Self`

A mock returns itself where the interface returns `Self`.  So every segment named `Self` gets the
name of the mock, and a trait object whose only bound is the interface (or `Self`) becomes the mock
itself: what returns a boxed `dyn Foo` in trait `Foo` returns a boxed mock.  A sole bound that names
another trait keeps its `dyn`, since nothing says that the mock implements that trait.
-/

namespace TraitMock

/-- The name by which a type speaks of itself. -/
def selfName : String := "Self"

/-- Whether a path has a segment named `Self`. -/
def Path.mentionsSelf (path : Path) : Bool := path.segments.any (·.ident.name == selfName)

/-- Whether a bound is a trait whose path has a segment named `Self`. -/
def Bound.mentionsSelf : Bound → Bool
  | .trait path _ => path.mentionsSelf
  | .outlives _ => false

/-- **Whether a bound names the mock**: a trait, not relaxed, whose path ends in `Self` or in the
interface. -/
def Bound.namesMock (interface : Option String) : Bound → Bool
  | .trait path false =>
    match path.lastName? with
    | some name => name == selfName || some name == interface
    | none => false
  | _ => false

/-- **The pass that puts `actual` in the place of `Self`.** -/
def Pass.selfType (actual : Ident) (interface : Option String) : Pass where
  unseen := .opaqueReturn
  rename name := if name = selfName then some actual.name else none
  collapse
    | [bound] => if bound.namesMock interface then some actual.name else none
    | _ => none
  objection bounds :=
    if 1 < bounds.length && bounds.any Bound.mentionsSelf then some .selfAmongBounds else none

/-- **Putting the mock in the place of `Self`** throughout a return type. -/
def Ty.substSelf (actual : Ident) (interface : Option String) (ty : Ty) : Checked (Edit Ty) :=
  ty.walk (.selfType actual interface)

end TraitMock
