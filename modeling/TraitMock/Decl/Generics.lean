import TraitMock.Decl.Basic

/-!
# Decl/Generics — generic parameters and where clauses

An item or a method declares a list of parameters and may carry a where clause.  A parameter list
written `<>` is not the same as none at all, and a where clause without predicates is not the same
as no where clause; both differences are kept.
-/

namespace TraitMock

/-- A declared parameter. -/
inductive GenericParam
  | type (ident : Ident) (bounds : List Bound) (default : Option Ty)
  | lifetime (ident : Ident) (bounds : List String)
  | const (ident : Ident) (ty : Ty)

/-- A condition of a where clause. -/
inductive Predicate
  /-- `T: A + B` -/
  | bounded (ty : Ty) (bounds : List Bound)
  /-- `'a: 'b + 'c` -/
  | outlives (lifetime : String) (bounds : List String)
  /-- `T = U` -/
  | equal (lhs rhs : Ty)

/-- **Generic parameters with their where clause.**  `hasBrackets` tells an explicit `<>` from no
parameter list at all. -/
structure Generics where
  params : List GenericParam := []
  whereClause : Option (List Predicate) := none
  hasBrackets : Bool := false
  deriving Inhabited

/-- The three kinds of parameters. -/
inductive ParamKind
  | type
  | lifetime
  | const
  deriving DecidableEq, Repr

/-- **What makes two parameters the same one**: kind and name. -/
def GenericParam.key : GenericParam → ParamKind × String
  | .type ident _ _ => (.type, ident.name)
  | .lifetime ident _ => (.lifetime, ident.name)
  | .const ident _ => (.const, ident.name)

/-- The argument that applies a parameter: bounds and defaults are dropped. -/
def GenericParam.toArg : GenericParam → GenericArg
  | .type ident _ _ => .type (.path (.ofIdents [ident]) .unknown)
  | .lifetime ident _ => .lifetime ident.name
  | .const ident _ => .const ident.name

namespace Generics

/-- Generics without angle brackets count as empty, whatever else they hold. -/
def isEmpty (g : Generics) : Bool := !g.hasBrackets

/-- **The arguments that apply the parameters to a type**, one for each, in order. -/
def typeArgs (g : Generics) : List GenericArg := g.params.map (·.toArg)

/-- Adding the where clause written after the head of a declaration. -/
def withWhere (g : Generics) : Option (List Predicate) → Generics
  | none => g
  | some clause => { g with whereClause := some clause }

end Generics

end TraitMock
