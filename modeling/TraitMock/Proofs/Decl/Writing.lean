import TraitMock.Proofs.Syntax.Layout
import TraitMock.Proofs.Decl.Plain

/-!
# Proofs/Decl/Writing — the written form of every phrase

`declared` gives every phrase the text that it is rendered as: a list of further members has its
mark in front of each, and a phrase that stands for an empty list is not written at all.
-/

namespace TraitMock

namespace Text

/-- **Texts behind a first one**, each with the separator in front of it. -/
def followed (sep : String) : List String → String
  | [] => ""
  | s :: rest => sep ++ s ++ followed sep rest

@[simp] theorem followed_nil (sep : String) : followed sep [] = "" := rfl

theorem joined_cons_eq (sep : String) : ∀ (s : String) (rest : List String),
    joined sep (s :: rest) = s ++ followed sep rest
  | s, [] => by simp [followed]
  | s, t :: rest => by
    rw [joined_cons_cons, joined_cons_eq sep t rest, followed, String.append_assoc,
      String.append_assoc]

theorem followed_concat (sep s : String) : ∀ rest : List String,
    followed sep (rest ++ [s]) = followed sep rest ++ (sep ++ s)
  | [] => by simp [followed]
  | t :: rest => by
    rw [List.cons_append, followed, followed_concat sep s rest, followed, ← String.append_assoc]

end Text

open Text

namespace Nonterminal

/-- **The text of a phrase.**  The phrases of whole items have none. -/
@[simp] def text : (n : Nonterminal) → n.Val → String
  | .items, _ | .methods, _ | .declFile, _ | .item, _ | .traitItem, _ | .implItem, _ => ""
  | .moreParams, xs => followed ", " (xs.map Param.render)
  | .morePatterns, xs => followed ", " (xs.map Pat.render)
  | .moreGenericParams, xs => followed ", " (xs.map GenericParam.render)
  | .moreLifetimes, xs => followed " + " (xs.map renderLifetime)
  | .morePredicates, xs => followed ", " (xs.map Predicate.render)
  | .moreBounds, xs => followed " + " (xs.map Bound.render)
  | .moreTypes, xs => followed ", " (xs.map Ty.render)
  | .moreSegments, xs => followed "::" (xs.map Segment.render)
  | .moreGenericArgs, xs => followed ", " (xs.map GenericArg.render)
  | .typeOnly, x | .type, x | .typeNoBounds, x | .refTarget, x | .qualifiedType, x => Ty.render x
  | .method, x => Method.render x ++ ";"
  | .params, xs => joined ", " (xs.map Param.render)
  | .param, x | .receiver, x => Param.render x
  | .pattern, x => Pat.render x
  | .visibility, x => Visibility.render x
  | .visTarget, x | .pathIdent, x => Ident.name x
  | .generics, x => Generics.render x
  | .genericParam, x => GenericParam.render x
  | .lifetimeBounds, xs => renderLifetimes xs
  | .whereClause, xs => "where " ++ joined ", " (xs.map Predicate.render)
  | .predicate, x => Predicate.render x
  | .bounds, xs => renderBounds xs
  | .bound, x => Bound.render x
  | .arrayLength, x => x
  | .path, x => Path.render x
  | .segment, x => Segment.render x
  | .segmentArgs, x => SegmentArgs.render x
  | .genericArg, x => GenericArg.render x

/-- **What is known of a phrase that has been read.** -/
@[simp] def Sound : (n : Nonterminal) → n.Val → Prop
  | .path, x => Path.segments x ≠ [] ∧ Path.leadingColon x = false
  | .moreTypes, xs => xs ≠ []
  | .bounds, xs => xs ≠ []
  | .lifetimeBounds, xs => xs ≠ []
  | .visibility, x => Visibility.render x ≠ ""
  | .generics, x => Generics.whereClause x = none ∧ Generics.hasBrackets x = true
  | _, _ => True

/-- **Whether a phrase is written**: not if it is an empty list of arguments, of parameters or of
conditions. -/
@[simp] def Written : (n : Nonterminal) → n.Val → Prop
  | .segmentArgs, x => x ≠ .angle []
  | .generics, x => Generics.params x ≠ []
  | .whereClause, xs => xs ≠ []
  | _, _ => True

/-- **What a phrase may come back as.** -/
@[simp] def BackAs : (n : Nonterminal) → n.Val → n.Val → Prop
  | .items, _, _ | .methods, _, _ | .declFile, _, _ | .item, _, _ | .traitItem, _, _
  | .implItem, _, _ => True
  | .moreParams, a, b | .params, a, b => List.Forall₂ Param.BackAs a b
  | .morePatterns, a, b => List.Forall₂ Pat.BackAs a b
  | .moreGenericParams, a, b => List.Forall₂ GenericParam.BackAs a b
  | .moreLifetimes, a, b | .lifetimeBounds, a, b => b = a
  | .morePredicates, a, b | .whereClause, a, b => List.Forall₂ Predicate.BackAs a b
  | .moreBounds, a, b | .bounds, a, b => List.Forall₂ Bound.BackAs a b
  | .moreTypes, a, b => List.Forall₂ Ty.BackAs a b
  | .moreSegments, a, b => List.Forall₂ Segment.BackAs a b
  | .moreGenericArgs, a, b => List.Forall₂ GenericArg.BackAs a b
  | .typeOnly, a, b | .type, a, b | .typeNoBounds, a, b | .refTarget, a, b | .qualifiedType, a, b =>
    Ty.BackAs a b
  | .method, a, b => Method.BackAs a b
  | .param, a, b | .receiver, a, b => Param.BackAs a b
  | .pattern, a, b => Pat.BackAs a b
  | .visibility, a, b => Visibility.BackAs a b
  | .visTarget, a, b | .pathIdent, a, b => Ident.BackAs a b
  | .generics, a, b => Generics.BackAs a b
  | .genericParam, a, b => GenericParam.BackAs a b
  | .predicate, a, b => Predicate.BackAs a b
  | .bound, a, b => Bound.BackAs a b
  | .arrayLength, a, b => b = a
  | .path, a, b => Path.BackAs a b
  | .segment, a, b => Segment.BackAs a b
  | .segmentArgs, a, b => SegmentArgs.BackAs a b
  | .genericArg, a, b => GenericArg.BackAs a b

end Nonterminal

/-- **The texts of declarations.** -/
@[simps] def declared : Writing where
  text := Nonterminal.text
  sound := Nonterminal.Sound
  written := Nonterminal.Written
  back := Nonterminal.BackAs

end TraitMock
