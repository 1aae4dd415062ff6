import TraitMock.Proofs.Decl.Moved

/-!
# Proofs/Decl/Alike — trees are alike exactly if they differ in their places only

Moving every span to one and the same place forgets them all.  Two trees are alike if and only if
nothing is left to tell them apart after that (`Ty.alike_iff`, and so on up to
`DeclFile.alike_iff`), so moving a tree changes nothing about what it is alike (`Ty.alike_moved`),
nor what a merge of generics keeps (`Generics.merge_moved`).
-/

namespace TraitMock

/-- **No place at all.** -/
@[simp] def Span.forget (_ : Span) : Span := {}

/-- If values are alike when `g` makes the same of them, so are options of them. -/
theorem alikeOption_iff {α β : Type} {alike : α → α → Bool} {g : α → β}
    (h : ∀ a b, alike a b = true ↔ g a = g b) :
    ∀ o p : Option α, alikeOption alike o p = true ↔ o.map g = p.map g
  | none, none | some _, none | none, some _ => by simp [alikeOption]
  | some a, some b => by simp [alikeOption, h]

/-- If values are alike when `g` makes the same of them, so are lists of them, member by member. -/
theorem isEqv_iff {α β : Type} {alike : α → α → Bool} {g : α → β}
    (h : ∀ a b, alike a b = true ↔ g a = g b) :
    ∀ as bs : List α, as.isEqv bs alike = true ↔ as.map g = bs.map g
  | [], [] | [], _ :: _ | _ :: _, [] => by simp
  | a :: as, b :: bs => by simp [List.isEqv_cons_cons, h, isEqv_iff h as bs]

/-- Two identifiers are alike when they are of one name: their spans are all that is forgotten. -/
theorem Ident.alike_iff (i j : Ident) : i.alike j = true ↔ i.moved .forget = j.moved .forget := by
  simp [Ident.alike, Ident.moved]

mutual

/-- **Two types are alike exactly if nothing tells them apart** once their places are forgotten. -/
theorem Ty.alike_iff : ∀ a b : Ty, a.alike b = true ↔ a.moved .forget = b.moved .forget
  | .slice a _, b | .paren a _, b | .group a _, b => by
    cases b <;> simp [Ty.alike, Ty.moved, a.alike_iff]
  | .array a _ _, b | .pointer a _ _, b => by
    cases b <;> simp [Ty.alike, Ty.moved, a.alike_iff]
  | .reference a _ _ _, b => by
    cases b <;> simp [Ty.alike, Ty.moved, a.alike_iff, and_assoc]
  | .tuple as _, b => by cases b <;> simp [Ty.alike, Ty.moved, alikeTypes_iff as]
  | .function as a _, b => by
    cases b <;> simp [Ty.alike, Ty.moved, alikeTypes_iff as, alikeOutput_iff a]
  | .traitObject as _, b | .implTrait as _, b => by
    cases b <;> simp [Ty.alike, Ty.moved, alikeBounds_iff as]
  | .infer _, b | .never _, b | .macroCall _ _, b | .verbatim _ _, b | .unknown _, b => by
    cases b <;> simp [Ty.alike, Ty.moved]
  | .path p _, b => by cases b <;> simp [Ty.alike, Ty.moved, p.alike_iff]
  | .qualified a _ p _, b => by
    cases b <;> simp [Ty.alike, Ty.moved, a.alike_iff, p.alike_iff, and_assoc]

/-- Types are alike one by one, and so are they forgotten. -/
theorem alikeTypes_iff : ∀ as bs : List Ty,
    alikeTypes as bs = true ↔ movedTypes .forget as = movedTypes .forget bs
  | [], bs => by cases bs <;> simp [alikeTypes, movedTypes]
  | a :: as, bs => by cases bs <;> simp [alikeTypes, movedTypes, a.alike_iff, alikeTypes_iff as]

/-- Two results are alike if both are absent, or both there and alike. -/
theorem alikeOutput_iff : ∀ a b : Option Ty,
    alikeOutput a b = true ↔ movedOutput .forget a = movedOutput .forget b
  | none, b => by cases b <;> simp [alikeOutput, movedOutput]
  | some a, b => by cases b <;> simp [alikeOutput, movedOutput, a.alike_iff]

/-- Two paths are alike if their segments are and both lead with `::` or neither. -/
theorem Path.alike_iff : ∀ p q : Path, p.alike q = true ↔ p.moved .forget = q.moved .forget
  | ⟨as, _⟩, ⟨bs, _⟩ => by simp [Path.alike, Path.moved, alikeSegments_iff as]

/-- Segments are alike one by one. -/
theorem alikeSegments_iff : ∀ as bs : List Segment,
    alikeSegments as bs = true ↔ movedSegments .forget as = movedSegments .forget bs
  | [], bs => by cases bs <;> simp [alikeSegments, movedSegments]
  | a :: as, bs => by
    cases bs <;> simp [alikeSegments, movedSegments, a.alike_iff, alikeSegments_iff as]

/-- Two segments are alike if their names and their arguments are. -/
theorem Segment.alike_iff : ∀ a b : Segment, a.alike b = true ↔ a.moved .forget = b.moved .forget
  | ⟨i, a⟩, ⟨j, b⟩ => by simp [Segment.alike, Segment.moved, i.alike_iff, a.alike_iff]

/-- Arguments in brackets are alike only to arguments in brackets, and calls to calls. -/
theorem SegmentArgs.alike_iff : ∀ a b : SegmentArgs,
    a.alike b = true ↔ a.moved .forget = b.moved .forget
  | .none, b => by cases b <;> simp [SegmentArgs.alike, SegmentArgs.moved]
  | .angle as, b => by
    cases b <;> simp [SegmentArgs.alike, SegmentArgs.moved, alikeGenericArgs_iff as]
  | .call as a, b => by
    cases b <;> simp [SegmentArgs.alike, SegmentArgs.moved, alikeTypes_iff as, alikeOutput_iff a]

/-- Generic arguments are alike one by one. -/
theorem alikeGenericArgs_iff : ∀ as bs : List GenericArg,
    alikeGenericArgs as bs = true ↔ movedArgs .forget as = movedArgs .forget bs
  | [], bs => by cases bs <;> simp [alikeGenericArgs, movedArgs]
  | a :: as, bs => by
    cases bs <;> simp [alikeGenericArgs, movedArgs, a.alike_iff, alikeGenericArgs_iff as]

/-- A generic argument is alike only to one of its own kind. -/
theorem GenericArg.alike_iff : ∀ a b : GenericArg,
    a.alike b = true ↔ a.moved .forget = b.moved .forget
  | .type a, b => by cases b <;> simp [GenericArg.alike, GenericArg.moved, a.alike_iff]
  | .binding i a, b => by
    cases b <;> simp [GenericArg.alike, GenericArg.moved, i.alike_iff, a.alike_iff]
  | .lifetime _, b | .const _, b => by cases b <;> simp [GenericArg.alike, GenericArg.moved]

/-- A bound by a path is alike only to one by a path, `?` in front of both or of neither. -/
theorem Bound.alike_iff : ∀ a b : Bound, a.alike b = true ↔ a.moved .forget = b.moved .forget
  | .trait p _, b => by cases b <;> simp [Bound.alike, Bound.moved, p.alike_iff]
  | .outlives _, b => by cases b <;> simp [Bound.alike, Bound.moved]

/-- Bounds are alike one by one, in their order. -/
theorem alikeBounds_iff : ∀ as bs : List Bound,
    alikeBounds as bs = true ↔ movedBounds .forget as = movedBounds .forget bs
  | [], bs => by cases bs <;> simp [alikeBounds, movedBounds]
  | a :: as, bs => by cases bs <;> simp [alikeBounds, movedBounds, a.alike_iff, alikeBounds_iff as]

end

/-- Two generic parameters are alike if their names, bounds and defaults are. -/
theorem GenericParam.alike_iff (a b : GenericParam) :
    a.alike b = true ↔ a.moved .forget = b.moved .forget := by
  cases a <;> cases b <;>
    simp [GenericParam.alike, GenericParam.moved, Ident.alike_iff, alikeBounds_iff, alikeOutput_iff,
      Ty.alike_iff, and_assoc]

/-- Two predicates are alike if what they bound and their bounds are. -/
theorem Predicate.alike_iff (a b : Predicate) :
    a.alike b = true ↔ a.moved .forget = b.moved .forget := by
  cases a <;> cases b <;>
    simp [Predicate.alike, Predicate.moved, alikeBounds_iff, Ty.alike_iff]

/-- Predicates are alike one by one, in their order. -/
theorem alikeClauses_iff (as bs : List Predicate) :
    alikeClauses as bs = true ↔
      as.map (Predicate.moved .forget) = bs.map (Predicate.moved .forget) :=
  isEqv_iff Predicate.alike_iff as bs

/-- Generics are alike if both have brackets or neither, with like parameters and clauses. -/
theorem Generics.alike_iff (g h : Generics) :
    g.alike h = true ↔ g.moved .forget = h.moved .forget := by
  simp [Generics.alike, Generics.moved, isEqv_iff GenericParam.alike_iff,
    alikeOption_iff alikeClauses_iff, and_assoc]

/-- Two restrictions are alike if their paths are, and both say `in` or neither. -/
theorem Visibility.alike_iff (a b : Visibility) :
    a.alike b = true ↔ a.moved .forget = b.moved .forget := by
  cases a <;> cases b <;> simp [Visibility.alike, Visibility.moved, Path.alike_iff]

mutual

/-- Two patterns are alike if nothing tells them apart once their places are forgotten. -/
theorem Pat.alike_iff : ∀ a b : Pat, a.alike b = true ↔ a.moved .forget = b.moved .forget
  | .ident i _ _ a _, b => by
    cases b <;> simp [Pat.alike, Pat.moved, i.alike_iff, alikeSub_iff a, and_assoc]
  | .tuple as _, b => by cases b <;> simp [Pat.alike, Pat.moved, alikePats_iff as]
  | .wild _, b | .unknown _, b => by cases b <;> simp [Pat.alike, Pat.moved]

/-- Subpatterns are alike if both are absent, or both there and alike. -/
theorem alikeSub_iff : ∀ a b : Option Pat,
    alikeSub a b = true ↔ movedSub .forget a = movedSub .forget b
  | none, b => by cases b <;> simp [alikeSub, movedSub]
  | some a, b => by cases b <;> simp [alikeSub, movedSub, a.alike_iff]

/-- The members of tuple patterns are alike one by one. -/
theorem alikePats_iff : ∀ as bs : List Pat,
    alikePats as bs = true ↔ movedPats .forget as = movedPats .forget bs
  | [], bs => by cases bs <;> simp [alikePats, movedPats]
  | a :: as, bs => by cases bs <;> simp [alikePats, movedPats, a.alike_iff, alikePats_iff as]

end

/-- A receiver is alike only to a receiver, and a typed parameter to a typed one. -/
theorem Param.alike_iff (a b : Param) : a.alike b = true ↔ a.moved .forget = b.moved .forget := by
  cases a <;> cases b <;> simp [Param.alike, Param.moved, Pat.alike_iff, Ty.alike_iff, and_assoc]

/-- Two methods are alike if nothing tells them apart once their places are forgotten. -/
theorem Method.alike_iff (m n : Method) : m.alike n = true ↔ m.moved .forget = n.moved .forget := by
  simp [Method.alike, Method.moved, Ident.alike_iff, isEqv_iff Param.alike_iff, alikeOutput_iff,
    Generics.alike_iff, Visibility.alike_iff, movedOutput_eq_map, and_assoc]

/-- Two traits are alike if their heads are and their methods, one by one. -/
theorem TraitDecl.alike_iff (s t : TraitDecl) :
    s.alike t = true ↔ s.moved .forget = t.moved .forget := by
  simp [TraitDecl.alike, TraitDecl.moved, Ident.alike_iff, isEqv_iff Method.alike_iff,
    Generics.alike_iff, Visibility.alike_iff, and_assoc]

/-- Two implementations are alike if their heads are and their methods, one by one. -/
theorem ImplDecl.alike_iff (s t : ImplDecl) :
    s.alike t = true ↔ s.moved .forget = t.moved .forget := by
  simp [ImplDecl.alike, ImplDecl.moved, Ty.alike_iff, isEqv_iff Method.alike_iff,
    alikeOption_iff Path.alike_iff, Generics.alike_iff, and_assoc]

/-- A trait is alike only to a trait, and an implementation to an implementation. -/
theorem Item.alike_iff (a b : Item) : a.alike b = true ↔ a.moved .forget = b.moved .forget := by
  cases a <;> cases b <;> simp [Item.alike, Item.moved, TraitDecl.alike_iff, ImplDecl.alike_iff]

/-- **Declaration files are alike exactly if they are the same up to places.** -/
theorem DeclFile.alike_iff (a b : DeclFile) :
    a.alike b = true ↔ a.moved .forget = b.moved .forget := by
  simp [DeclFile.alike, DeclFile.moved, isEqv_iff Item.alike_iff]

/-! ## Moving twice -/

variable {f g : Span → Span}

/-- Moving an identifier twice is moving it once, by both. -/
theorem Ident.moved_moved (i : Ident) : (i.moved f).moved g = i.moved (g ∘ f) := rfl

mutual

/-- **Moving a type twice is moving it once, by both.** -/
theorem Ty.moved_moved : ∀ ty : Ty, (ty.moved f).moved g = ty.moved (g ∘ f)
  | .slice elem _ | .array elem _ _ | .pointer elem _ _ | .reference elem _ _ _ | .paren elem _
  | .group elem _ => by simp only [Ty.moved, elem.moved_moved, Function.comp_apply]
  | .tuple elems _ => by simp only [Ty.moved, movedTypes_moved elems, Function.comp_apply]
  | .function inputs output _ => by
    simp only [Ty.moved, movedTypes_moved inputs, movedOutput_moved output, Function.comp_apply]
  | .traitObject bounds _ | .implTrait bounds _ => by
    simp only [Ty.moved, movedBounds_moved bounds, Function.comp_apply]
  | .infer _ | .never _ | .macroCall _ _ | .verbatim _ _ | .unknown _ => by
    simp only [Ty.moved, Function.comp_apply]
  | .path path _ => by simp only [Ty.moved, path.moved_moved, Function.comp_apply]
  | .qualified self _ path _ => by
    simp only [Ty.moved, self.moved_moved, path.moved_moved, Function.comp_apply]

theorem movedTypes_moved : ∀ tys : List Ty,
    movedTypes g (movedTypes f tys) = movedTypes (g ∘ f) tys
  | [] => rfl
  | ty :: rest => by simp only [movedTypes, ty.moved_moved, movedTypes_moved rest]

theorem movedOutput_moved : ∀ output : Option Ty,
    movedOutput g (movedOutput f output) = movedOutput (g ∘ f) output
  | none => rfl
  | some ty => by simp only [movedOutput, ty.moved_moved]

/-- Moving a path twice is moving it once, segment by segment. -/
theorem Path.moved_moved : ∀ path : Path, (path.moved f).moved g = path.moved (g ∘ f)
  | ⟨segments, _⟩ => by simp only [Path.moved, movedSegments_moved segments]

theorem movedSegments_moved : ∀ segments : List Segment,
    movedSegments g (movedSegments f segments) = movedSegments (g ∘ f) segments
  | [] => rfl
  | segment :: rest => by
    simp only [movedSegments, segment.moved_moved, movedSegments_moved rest]

theorem Segment.moved_moved : ∀ segment : Segment,
    (segment.moved f).moved g = segment.moved (g ∘ f)
  | ⟨ident, args⟩ => by simp only [Segment.moved, ident.moved_moved, args.moved_moved]

/-- Moving arguments twice is moving them once, in whichever brackets. -/
theorem SegmentArgs.moved_moved : ∀ args : SegmentArgs, (args.moved f).moved g = args.moved (g ∘ f)
  | .none => rfl
  | .angle args => by simp only [SegmentArgs.moved, movedArgs_moved args]
  | .call inputs output => by
    simp only [SegmentArgs.moved, movedTypes_moved inputs, movedOutput_moved output]

theorem movedArgs_moved : ∀ args : List GenericArg,
    movedArgs g (movedArgs f args) = movedArgs (g ∘ f) args
  | [] => rfl
  | arg :: rest => by simp only [movedArgs, arg.moved_moved, movedArgs_moved rest]

/-- Moving a generic argument twice is moving it once, whatever its kind. -/
theorem GenericArg.moved_moved : ∀ arg : GenericArg, (arg.moved f).moved g = arg.moved (g ∘ f)
  | .type ty => by simp only [GenericArg.moved, ty.moved_moved]
  | .binding ident ty => by simp only [GenericArg.moved, ident.moved_moved, ty.moved_moved]
  | .lifetime _ | .const _ => rfl

/-- Moving a bound twice is moving it once. -/
theorem Bound.moved_moved : ∀ bound : Bound, (bound.moved f).moved g = bound.moved (g ∘ f)
  | .trait path _ => by simp only [Bound.moved, path.moved_moved]
  | .outlives _ => rfl

theorem movedBounds_moved : ∀ bounds : List Bound,
    movedBounds g (movedBounds f bounds) = movedBounds (g ∘ f) bounds
  | [] => rfl
  | bound :: rest => by simp only [movedBounds, bound.moved_moved, movedBounds_moved rest]

end

/-- **Moving two types changes nothing about whether they are alike.** -/
theorem Ty.alike_moved (a b : Ty) : (a.moved f).alike (b.moved f) = a.alike b :=
  Bool.eq_iff_iff.mpr (by
    rw [Ty.alike_iff, Ty.alike_iff, Ty.moved_moved, Ty.moved_moved]
    rfl)

/-! ## Merging -/

/-- What a generic parameter is told apart by is not where it stands. -/
theorem GenericParam.key_moved (p : GenericParam) : (p.moved f).key = p.key := by
  cases p <;> rfl

/-- So neither is whether two generic parameters are one to a merge. -/
theorem GenericParam.sameKey_moved (p q : GenericParam) :
    (p.moved f).sameKey (q.moved f) = p.sameKey q := by
  rw [sameKey, sameKey, key_moved, key_moved]

/-- Whether two predicates are one to a merge is not a matter of where they stand. -/
theorem Predicate.sameKey_moved (p q : Predicate) :
    (p.moved f).sameKey (q.moved f) = p.sameKey q := by
  cases p <;> cases q <;>
    simp only [sameKey, Predicate.moved, key, PredicateKey.alike, Ty.alike_moved]

/-- A union of lists, where what makes two members the same survives a map. -/
theorem unionBy_map {α β : Type} {same : α → α → Bool} {same' : β → β → Bool} {g : α → β}
    (h : ∀ a b, same' (g a) (g b) = same a b) (xs ys : List α) :
    unionBy same' (xs.map g) (ys.map g) = (unionBy same xs ys).map g := by
  induction ys generalizing xs with
  | nil => rfl
  | cons y ys ih =>
    have hany : (xs.map g).any (same' · (g y)) = xs.any (same · y) := by
      simp only [List.any_map, Function.comp_def, h]
    rw [List.map_cons, unionBy, unionBy, List.foldl_cons, List.foldl_cons, hany]
    split
    · exact ih xs
    · rw [← List.map_singleton, ← List.map_append]
      exact ih (xs ++ [y])

/-- Merging `where` clauses and then moving them is moving them and then merging. -/
theorem mergeWhere_map (x y : Option (List Predicate)) :
    mergeWhere (x.map (·.map (Predicate.moved f))) (y.map (·.map (Predicate.moved f))) =
      (mergeWhere x y).map (·.map (Predicate.moved f)) := by
  cases x <;> cases y <;> simp only [mergeWhere, Option.map_none, Option.map_some,
    unionBy_map Predicate.sameKey_moved]

/-- **Merging generics at other places.** -/
theorem Generics.merge_moved (x y : Generics) :
    (x.moved f).merge (y.moved f) = (x.merge y).moved f := by
  have hside : (x.moved f).mergeSide (y.moved f) = x.mergeSide y := rfl
  rw [merge, merge, hside]
  cases x.mergeSide y with
  | left | right => rfl
  | both =>
    simp only [Generics.moved, unionBy_map GenericParam.sameKey_moved, mergeWhere_map]

end TraitMock
