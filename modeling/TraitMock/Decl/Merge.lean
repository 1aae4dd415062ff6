import TraitMock.Decl.Alike

/-!
# Decl/Merge — the generics of an item together with those of a method

Merging keeps the parameters of the left side and adds those of the right side that are new; what
makes two parameters the same is kind and name, and what makes two predicates the same is their
left-hand side.  Bounds are not compared: of two declarations of one parameter the left one stays.
Generics without brackets are the identity on either side.
-/

namespace TraitMock

/-- **An ordered union**: the left list, then each member of the right one that has not occurred. -/
def unionBy {α : Type} (same : α → α → Bool) (xs ys : List α) : List α :=
  ys.foldl (fun seen y => if seen.any (same · y) then seen else seen ++ [y]) xs

@[simp] theorem unionBy_nil {α : Type} (same : α → α → Bool) (xs : List α) :
    unionBy same xs [] = xs := rfl

theorem unionBy_append {α : Type} (same : α → α → Bool) (xs ys zs : List α) :
    unionBy same xs (ys ++ zs) = unionBy same (unionBy same xs ys) zs := List.foldl_append

/-- Two declarations of one parameter. -/
def GenericParam.sameKey (a b : GenericParam) : Bool := a.key == b.key

/-- **What a predicate is about**: a type it bounds, a lifetime, or the left side of an equation. -/
inductive PredicateKey
  | type (ty : Ty)
  | lifetime (name : String)
  | equal (lhs : Ty)

/-- What a predicate is about. -/
def Predicate.key : Predicate → PredicateKey
  | .bounded ty _ => .type ty
  | .outlives lifetime _ => .lifetime lifetime
  | .equal lhs _ => .equal lhs

/-- Two keys are alike: of one kind, and about the same thing wherever it was written. -/
def PredicateKey.alike : PredicateKey → PredicateKey → Bool
  | .type a, .type b => a.alike b
  | .lifetime s, .lifetime t => s == t
  | .equal a, .equal b => a.alike b
  | _, _ => false

/-- Two predicates about one thing. -/
def Predicate.sameKey (a b : Predicate) : Bool := a.key.alike b.key

/-- Merging where clauses; an absent one adds nothing. -/
def mergeWhere : Option (List Predicate) → Option (List Predicate) → Option (List Predicate)
  | none, y => y
  | x, none => x
  | some x, some y => some (unionBy Predicate.sameKey x y)

/-- Which of two generics a merge gives back. -/
inductive MergeSide
  | left | right | both
  deriving DecidableEq, Repr

namespace Generics

/-- **Which side a merge gives back**: the other one of an empty side, and otherwise a new value. -/
def mergeSide (x y : Generics) : MergeSide :=
  if x.isEmpty then .right else if y.isEmpty then .left else .both

/-- **Merging generics.** -/
def merge (x y : Generics) : Generics :=
  match mergeSide x y with
  | .right => y
  | .left => x
  | .both =>
    { params := unionBy GenericParam.sameKey x.params y.params
      whereClause := mergeWhere x.whereClause y.whereClause
      hasBrackets := true }

/-- Generics without brackets add nothing on the left. -/
theorem merge_of_isEmpty_left {x : Generics} (h : x.isEmpty) (y : Generics) : x.merge y = y := by
  simp [merge, mergeSide, h]

/-- Generics without brackets add nothing on the right. -/
theorem merge_of_isEmpty_right {x y : Generics} (hx : x.isEmpty = false) (hy : y.isEmpty) :
    x.merge y = x := by
  simp [merge, mergeSide, hx, hy]

end Generics

end TraitMock
