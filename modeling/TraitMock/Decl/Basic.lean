import TraitMock.Span

/-!
# Decl/Basic — types, paths and bounds as trees

The type expressions of a declaration, and the three families that are tied up with them: paths
with their segments, generic arguments, and bounds.  A lifetime is its name without the quote; a
length or a constant is its text.  Every shape that can be pointed at carries a `Span`.
-/

namespace TraitMock

/-- **A name and the place it was written.** -/
structure Ident where
  name : String
  span : Span := {}
  deriving DecidableEq, Repr, Inhabited

mutual

/-- **A type expression.** -/
inductive Ty
  /-- The slice `[T]`. -/
  | slice (elem : Ty) (span : Span)
  /-- The array `[T; n]`; the length is the text of a literal or of a name. -/
  | array (elem : Ty) (length : String) (span : Span)
  /-- The raw pointer `*const T` or `*mut T`. -/
  | pointer (elem : Ty) (isMut : Bool) (span : Span)
  /-- The reference `&'a mut T`, its lifetime and `mut` both optional. -/
  | reference (elem : Ty) (lifetime : Option String) (isMut : Bool) (span : Span)
  /-- The tuple `(A, B)`; with no element it is the unit type. -/
  | tuple (elems : List Ty) (span : Span)
  /-- A type in written parentheses. -/
  | paren (elem : Ty) (span : Span)
  /-- A type in a grouping that is not written. -/
  | group (elem : Ty) (span : Span)
  /-- The function pointer `fn(A, B) -> R`. -/
  | function (inputs : List Ty) (output : Option Ty) (span : Span)
  /-- The trait object `dyn A + B`. -/
  | traitObject (bounds : List Bound) (span : Span)
  /-- The unnamed type `impl A + B`. -/
  | implTrait (bounds : List Bound) (span : Span)
  /-- The type `_`, left to be inferred. -/
  | infer (span : Span)
  /-- The empty type `!`. -/
  | never (span : Span)
  /-- A macro call, kept as its text. -/
  | macroCall (text : String) (span : Span)
  /-- Raw tokens without a known shape, kept as their text. -/
  | verbatim (text : String) (span : Span)
  /-- A path such as `a::B<C>`. -/
  | path (path : Path) (span : Span)
  /-- The qualified path `<self as a::T>::X`: the first `position` segments of its path spell the
  trait. -/
  | qualified (self : Ty) (position : Int) (path : Path) (span : Span)
  /-- A node of no known shape; `kind` is what it calls itself. -/
  | unknown (kind : String)

/-- **A path**: segments joined by `::`. -/
structure Path where
  segments : List Segment
  leadingColon : Bool := false

/-- **One segment of a path**: a name and what is applied to it. -/
structure Segment where
  ident : Ident
  args : SegmentArgs

/-- What is applied to a path segment. -/
inductive SegmentArgs
  /-- Nothing at all. -/
  | none
  /-- Arguments in angle brackets, `<A, 'a, N = B>`. -/
  | angle (args : List GenericArg)
  /-- The arguments of a call signature, `(A, B) -> R`. -/
  | call (inputs : List Ty) (output : Option Ty)

/-- An argument in angle brackets. -/
inductive GenericArg
  | type (ty : Ty)
  | lifetime (name : String)
  /-- The constraint `Item = T` on an associated type. -/
  | binding (ident : Ident) (ty : Ty)
  | const (text : String)

/-- A bound of a trait object, of a parameter or of a predicate. -/
inductive Bound
  /-- A trait; `?Trait` when `relaxed`. -/
  | trait (path : Path) (relaxed : Bool)
  /-- A lifetime to be outlived. -/
  | outlives (lifetime : String)

end

instance : Inhabited Ty := ⟨.infer {}⟩

/-- The place of a type; a node of no known shape has none. -/
def Ty.span : Ty → Span
  | .slice _ s | .array _ _ s | .pointer _ _ s | .reference _ _ _ s | .tuple _ s | .paren _ s
  | .group _ s | .function _ _ s | .traitObject _ s | .implTrait _ s | .infer s | .never s
  | .macroCall _ s | .verbatim _ s | .path _ s | .qualified _ _ _ s => s
  | .unknown _ => .unknown

namespace Path

/-- **The path of plain names** `a::b::c`. -/
def ofIdents (idents : List Ident) : Path := ⟨idents.map (⟨·, .none⟩), false⟩

/-- The name a path begins with. -/
def firstName? (p : Path) : Option String := p.segments.head?.map (·.ident.name)

/-- The name a path ends with. -/
def lastName? (p : Path) : Option String := p.segments.getLast?.map (·.ident.name)

end Path

end TraitMock
