import TraitMock.Walk.Basic

/-!
# Walk/SuperPath — types seen from two modules further down

The items of a mock stand in a private module inside the module of the mock.  A path that climbs
from the place of the declaration has two more steps to climb from there.
-/

namespace TraitMock

/-- The segment that climbs to the parent module. -/
def superName : String := "super"

/-- A number of steps up, all at one place. -/
def supers (levels : Nat) (span : Span) : List Segment :=
  List.replicate levels ⟨⟨superName, span⟩, .none⟩

/-- The steps that a path gets in front: two if it climbs from where it stands, and none if it
begins at the root or goes down. -/
def Path.climb (path : Path) : List Segment :=
  match path.leadingColon, path.segments with
  | false, first :: _ => if first.ident.name = superName then supers 2 first.ident.span else []
  | _, _ => []

/-- **The pass that lifts climbing paths.** -/
def Pass.superPath : Pass where
  lead := Path.climb

/-- **Lifting every climbing path** of a type by two modules. -/
def Ty.liftSuper (ty : Ty) : Checked (Edit Ty) := ty.walk .superPath

end TraitMock
