import TraitMock.Decl.Item
import TraitMock.Syntax.Token

/-!
# Syntax/Symbol — the phrases of the grammar and what each of them means

A `Symbol` is a terminal or a nonterminal, and `Symbol.Val` is the type of what a phrase of that
symbol stands for.  The grammar is typed by it: a rule takes the values of its right-hand side to a
value of its left-hand side, so no phrase can ever carry a value of the wrong sort.
-/

namespace TraitMock

/-- **The phrases of the declaration language.**  The names with `more` are the further members of a
list, each with the mark in front of it. -/
inductive Nonterminal
  | items | methods | moreParams | morePatterns | moreGenericParams | moreLifetimes
  | morePredicates | moreBounds | moreTypes | moreSegments | moreGenericArgs
  | declFile | typeOnly | item | traitItem | implItem | method | params | param | receiver
  | pattern | visibility | visTarget | generics | genericParam | lifetimeBounds | whereClause
  | predicate | bounds | bound | type | typeNoBounds | refTarget | qualifiedType | arrayLength
  | path | segment | pathIdent | segmentArgs | genericArg
  deriving DecidableEq, Repr, Inhabited

/-- **What a phrase stands for.** -/
@[reducible] def Nonterminal.Val : Nonterminal → Type
  | .items | .declFile => List Item
  | .item | .traitItem | .implItem => Item
  | .methods => List Method
  | .method => Method
  | .moreParams | .params => List Param
  | .param | .receiver => Param
  | .morePatterns => List Pat
  | .pattern => Pat
  | .visibility => Visibility
  | .visTarget | .pathIdent => Ident
  | .generics => Generics
  | .moreGenericParams => List GenericParam
  | .genericParam => GenericParam
  | .moreLifetimes | .lifetimeBounds => List String
  | .morePredicates | .whereClause => List Predicate
  | .predicate => Predicate
  | .moreBounds | .bounds => List Bound
  | .bound => Bound
  | .moreTypes => List Ty
  | .typeOnly | .type | .typeNoBounds | .refTarget | .qualifiedType => Ty
  | .arrayLength => String
  | .path => Path
  | .moreSegments => List Segment
  | .segment => Segment
  | .segmentArgs => SegmentArgs
  | .moreGenericArgs => List GenericArg
  | .genericArg => GenericArg

/-- A terminal or a nonterminal. -/
inductive Symbol
  | term (t : Terminal)
  | phrase (n : Nonterminal)
  deriving DecidableEq, Repr

/-- What a symbol stands for: a terminal for its token, a phrase for its tree. -/
@[reducible] def Symbol.Val : Symbol → Type
  | .term _ => Token
  | .phrase n => n.Val

/-- The values of a sequence of symbols. -/
@[reducible] def Symbol.Vals : List Symbol → Type
  | [] => Unit
  | s :: ss => s.Val × Vals ss

/-- Splitting the values of two sequences that stand one behind the other. -/
def Symbol.Vals.split : (ss : List Symbol) → {ts : List Symbol} → Vals (ss ++ ts) →
    Vals ss × Vals ts
  | [], _, vals => ((), vals)
  | _ :: ss, _, (v, vals) => let (vs, rest) := split ss vals; ((v, vs), rest)

end TraitMock
