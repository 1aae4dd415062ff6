import TraitMock.Decl.Generics
import TraitMock.Decl.Visibility

/-!
# Decl/Item — methods, traits, implementations, declaration files

Methods carry no bodies.  A parameter of a method is a receiver or a pattern with a type.
-/

namespace TraitMock

/-- The pattern that binds an argument. -/
inductive Pat
  /-- `ref mut x @ sub`, everything but the name optional. -/
  | ident (ident : Ident) (byRef isMut : Bool) (sub : Option Pat) (span : Span)
  /-- `_` -/
  | wild (span : Span)
  /-- `(a, b)` -/
  | tuple (elems : List Pat) (span : Span)
  /-- A node of no known shape; `kind` is what it calls itself. -/
  | unknown (kind : String)

/-- The place of a pattern. -/
def Pat.span : Pat → Span
  | .ident _ _ _ _ s | .wild s | .tuple _ s => s
  | .unknown _ => .unknown

/-- How a method takes `self`. -/
inductive ReceiverKind
  | value
  | ref
  | refMut
  deriving DecidableEq, Repr

/-- **A parameter of a method.** -/
inductive Param
  /-- `mut self`, `&'a self`, `&mut self`. -/
  | receiver (kind : ReceiverKind) (isMut : Bool) (lifetime : Option String) (span : Span)
  /-- `pattern: type` -/
  | typed (pat : Pat) (ty : Ty) (span : Span)

/-- The expression that hands an argument on. -/
inductive Expr
  | name (ident : Ident) (span : Span)
  | ref (expr : Expr) (isMut : Bool) (span : Span)
  /-- A node of no known shape; `kind` is what it calls itself. -/
  | unknown (kind : String)

/-- **A method without a body.**  `output` is `none` when no arrow is written. -/
structure Method where
  ident : Ident
  params : List Param := []
  output : Option Ty := none
  generics : Generics := {}
  vis : Visibility := .inherited
  span : Span := {}

/-- The kind of the first receiver among the parameters. -/
def Method.receiver? (m : Method) : Option ReceiverKind :=
  m.params.findSome? fun
    | .receiver kind _ _ _ => some kind
    | .typed .. => none

/-- `trait Name<..> where .. { methods }` -/
structure TraitDecl where
  ident : Ident
  generics : Generics := {}
  vis : Visibility := .inherited
  methods : List Method := []
  span : Span := {}

/-- `impl<..> Type { methods }` or `impl<..> Trait for Type { methods }`. -/
structure ImplDecl where
  selfTy : Ty
  traitPath : Option Path := none
  generics : Generics := {}
  methods : List Method := []
  span : Span := {}

/-- **A declaration.** -/
inductive Item
  | traitDecl (decl : TraitDecl)
  | implDecl (decl : ImplDecl)

namespace Item

/-- The methods of a declaration. -/
def methods : Item → List Method
  | .traitDecl d => d.methods
  | .implDecl d => d.methods

/-- The generics of a declaration. -/
def generics : Item → Generics
  | .traitDecl d => d.generics
  | .implDecl d => d.generics

/-- The place of a declaration. -/
def span : Item → Span
  | .traitDecl d => d.span
  | .implDecl d => d.span

/-- The place of the type that a declaration is about. -/
def targetSpan : Item → Span
  | .traitDecl d => d.ident.span
  | .implDecl d => d.selfTy.span

end Item

/-- **The declarations of one file.** -/
structure DeclFile where
  items : List Item := []
  file : Option String := none

end TraitMock
