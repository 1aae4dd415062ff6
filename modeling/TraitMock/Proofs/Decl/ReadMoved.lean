import TraitMock.Proofs.Decl.ListRules
import TraitMock.Proofs.Decl.Moved
import TraitMock.Proofs.Syntax.Likeness

/-!
# Proofs/Decl/ReadMoved — what is read from two places is the same, moved

Two values of a phrase are the same up to places if moving the places of the one and those of the
other makes them equal (`sameMoved`).  Every rule of the grammar respects this, if corresponding
extents are moved to one span (`Grammar.rules_respect`): what a rule makes of its parts depends on
their places and on its own only in the spans that it writes down.
-/

namespace TraitMock

/-! ## Moving what a phrase stands for -/

/-- **What a phrase stands for, at another place.** -/
def Nonterminal.moved (f : Span → Span) : (n : Nonterminal) → n.Val → n.Val
  | .items, xs | .declFile, xs => xs.map (Item.moved f)
  | .item, x | .traitItem, x | .implItem, x => Item.moved f x
  | .methods, xs => xs.map (Method.moved f)
  | .method, x => Method.moved f x
  | .moreParams, xs | .params, xs => xs.map (Param.moved f)
  | .param, x | .receiver, x => Param.moved f x
  | .morePatterns, xs => xs.map (Pat.moved f)
  | .pattern, x => Pat.moved f x
  | .visTarget, x | .pathIdent, x => Ident.moved f x
  | .moreLifetimes, xs | .lifetimeBounds, xs => xs
  | .arrayLength, x => x
  | .visibility, x => Visibility.moved f x
  | .generics, x => Generics.moved f x
  | .moreGenericParams, xs => xs.map (GenericParam.moved f)
  | .genericParam, x => GenericParam.moved f x
  | .morePredicates, xs | .whereClause, xs => xs.map (Predicate.moved f)
  | .predicate, x => Predicate.moved f x
  | .moreBounds, xs | .bounds, xs => xs.map (Bound.moved f)
  | .bound, x => Bound.moved f x
  | .moreTypes, xs => xs.map (Ty.moved f)
  | .typeOnly, x | .type, x | .typeNoBounds, x | .refTarget, x | .qualifiedType, x => Ty.moved f x
  | .path, x => Path.moved f x
  | .moreSegments, xs => xs.map (Segment.moved f)
  | .segment, x => Segment.moved f x
  | .segmentArgs, x => SegmentArgs.moved f x
  | .moreGenericArgs, xs => xs.map (GenericArg.moved f)
  | .genericArg, x => GenericArg.moved f x

/-- **Two values are the same up to places**: `f` moves the one where `g` moves the other. -/
def sameMoved (f g : Span → Span) : Likeness := fun n v v' => n.moved f v = n.moved g v'

/-- **Two extents become one span**, in whatever file. -/
def Extent.SameMoved (f g : Span → Span) (e e' : Extent) : Prop :=
  ∀ file : Option String, f (e.toSpan file) = g (e'.toSpan file)

variable {f g : Span → Span}

/-! ## Tokens and places -/

/-- The spans of like places are moved to one. -/
theorem Place.span_moved {place place' : Place} (h : place.Alike (Extent.SameMoved f g) place') :
    f place.span = g place'.span := by
  rw [Place.span, Place.span, Place.namedFile, Place.namedFile, ← h.file]
  exact h.extent _

/-! ## Options and lists -/

section Options

open Grammar

variable {α β : Type} {φ ψ : α → β}

/-- Optional members that agree under two functions. -/
theorem optionAlike_iff_map_only {o o' : Option (α × Unit)} :
    OptionAlike (fun u u' => φ u.1 = ψ u'.1) o o' ↔ (only o).map φ = (only o').map ψ := by
  cases o <;> cases o' <;> simp [OptionAlike]

/-- Optional values are the same up to places if what is read in them is. -/
theorem optionAlike_iff_only {o o' : Option (α × Unit)} :
    OptionAlike (fun u u' => u.1 = u'.1) o o' ↔ only o = only o' := by
  rcases o with _ | ⟨_, ⟨⟩⟩ <;> rcases o' with _ | ⟨_, ⟨⟩⟩ <;> simp [OptionAlike]

/-- Optional marks are the same if both are there or neither. -/
theorem optionAlike_iff_isSome {o o' : Option Unit} :
    OptionAlike (fun _ _ => True) o o' ↔ o.isSome = o'.isSome := by
  cases o <;> cases o' <;> simp [OptionAlike]

/-- A list that may be missing is moved member by member, and a missing one is empty. -/
theorem map_getD (φ : α → β) (o : Option (List α)) :
    (o.getD []).map φ = (o.map (List.map φ)).getD [] := by
  cases o <;> rfl

-- The next three are equivalent to `True` so that `simp` closes a goal by them; it would rewrite
-- the one side of an equation instead, and not find the members on the other.

/-- A list that may be empty agrees under two functions if its members do. -/
theorem map_orEmpty_iff {o o' : Option (α × Option (List α × Unit) × Option Unit × Unit)}
    (h : OptionAlike (fun u u' => φ u.1 = ψ u'.1 ∧
      (only u.2.1).map (List.map φ) = (only u'.2.1).map (List.map ψ) ∧
        u.2.2.1.isSome = u'.2.2.1.isSome) o o') :
    (orEmpty o).map φ = (orEmpty o').map ψ ↔ True := by
  refine iff_true_intro ?_
  rcases o with _ | u <;> rcases o' with _ | u'
  · rfl
  · cases h
  · cases h
  · obtain ⟨hfirst, hmore, -⟩ := h
    simp only [orEmpty, listed, orNil, List.map_cons, hfirst, map_getD, hmore]

/-- Optional lifetimes agree if their tokens do. -/
theorem map_lifetime_iff (f g : Span → Span) {o o' : Option (Token × Unit)}
    (h : OptionAlike (fun u u' => u.1.kind = u'.1.kind ∧ u.1.text = u'.1.text ∧
      ∀ file : Option String, f (u.1.extent.toSpan file) = g (u'.1.extent.toSpan file)) o o') :
    (only o).map (fun t => String.ofList t.text.toList.tail) =
      (only o').map (fun t => String.ofList t.text.toList.tail) ↔ True := by
  refine iff_true_intro ?_
  rcases o with _ | u <;> rcases o' with _ | u'
  · rfl
  · cases h
  · cases h
  · simp only [only, Option.map_some, h.2.1]

/-- Bounds behind a colon agree, whether there are any or not. -/
theorem map_bind_iff {o o' : Option (Option (α × Unit) × Unit)} {default : β}
    (h : OptionAlike (fun u u' => (only u.1).map φ = (only u'.1).map ψ) o o') :
    ((only (o.bind (·.1))).map φ).getD default = ((only (o'.bind (·.1))).map ψ).getD default ↔
      True := by
  refine iff_true_intro ?_
  rcases o with _ | u <;> rcases o' with _ | u'
  · rfl
  · cases h
  · cases h
  · exact congrArg (Option.getD · default) h

/-- Arguments that may be missing are moved where they are there. -/
theorem SegmentArgs.moved_getD (o : Option SegmentArgs) :
    (o.getD .none).moved f = (o.map (SegmentArgs.moved f)).getD .none := by
  cases o <;> rfl

/-- A visibility that may be missing is moved where it is there. -/
theorem Visibility.moved_getD (o : Option Visibility) :
    (o.getD .inherited).moved f = (o.map (Visibility.moved f)).getD .inherited := by
  cases o <;> rfl

/-- A type that may be missing is moved, and so is the one in its stead. -/
theorem Ty.moved_getD (o : Option Ty) (ty : Ty) :
    (o.getD ty).moved f = (o.map (Ty.moved f)).getD (ty.moved f) := by
  cases o <;> rfl

/-- The segments of a moved path are those of the path, moved. -/
theorem Path.segments_moved (path : Path) :
    (path.moved f).segments = path.segments.map (Segment.moved f) := by
  obtain ⟨segments, leadingColon⟩ := path
  rw [Path.moved, movedSegments_eq_map]

/-- Generics are moved with the `where` clause that is put to them. -/
theorem Generics.moved_withWhere (o : Option Generics) (clause : Option (List Predicate)) :
    ((o.getD {}).withWhere clause).moved f =
      ((o.map (Generics.moved f)).getD {}).withWhere
        (clause.map (List.map (Predicate.moved f))) := by
  cases o <;> cases clause <;> rfl

theorem map_const_path (o : Option (Ty × Unit)) (path : Path) :
    (o.map fun _ => path).map (Path.moved f) =
      ((only o).map (Ty.moved f)).map fun _ => path.moved f := by
  cases o <;> rfl

end Options

namespace Grammar

/-- All of some rules respect sameness up to places. -/
def RulesRespect (f g : Span → Span) (rules : List Rule) : Prop :=
  ∀ r ∈ rules, r.Respects (Extent.SameMoved f g) (sameMoved f g)

/-- What rules respect, and further ones, they respect together. -/
theorem RulesRespect.append {rs rs' : List Rule} (h : RulesRespect f g rs)
    (h' : RulesRespect f g rs') : RulesRespect f g (rs ++ rs') :=
  List.forall_mem_append.mpr ⟨h, h'⟩

-- With these, like parts and like values come apart into equations between their members, and
-- `simp` rewrites the one side of each into the other.
attribute [local simp] RulesRespect Rule.Respects sameMoved Nonterminal.moved Parts.Alike
  Nonterminal.Val Parts.Val Token.alike_iff Place.alike_iff Extent.SameMoved Token.lifetime
  Place.ident Place.lifetimeIdent Place.span Place.namedFile Path.ofIdents Ident.moved Ty.moved
  Path.moved Segment.moved SegmentArgs.moved GenericArg.moved Bound.moved Pat.moved
  movedTypes_eq_map movedBounds_eq_map movedSegments_eq_map movedArgs_eq_map movedPats_eq_map
  movedOutput_eq_map movedSub_eq_map optionAlike_iff_map_only optionAlike_iff_only
  optionAlike_iff_isSome map_getD map_orEmpty_iff map_bind_iff

/-- The rules of lists respect moving: they put a member behind others. -/
theorem lists_respect : RulesRespect f g (items ++ methods ++ moreParams ++ morePatterns ++
    moreGenericParams ++ moreLifetimes ++ morePredicates ++ moreBounds ++ moreTypes ++
    moreSegments ++ moreGenericArgs ++ declFile ++ typeOnly ++ item) := by
  simp +contextual [items, methods, moreParams, morePatterns, moreGenericParams, moreLifetimes,
    morePredicates, moreBounds, moreTypes, moreSegments, moreGenericArgs, declFile, typeOnly, item,
    -Prod.forall, -only]

/-- The rules of items and methods respect moving. -/
theorem items_respect : RulesRespect f g (traitItem ++ implItem ++ method) := by
  simp +contextual [traitItem, implItem, method, Item.moved, TraitDecl.moved, ImplDecl.moved,
    Method.moved, Visibility.moved_getD, Ty.moved_getD, Generics.moved_withWhere, map_const_path,
    -Prod.forall, -only, -Option.map_map]

/-- The rules of parameters, visibilities and generics respect moving. -/
theorem params_respect : RulesRespect f g (params ++ param ++ receiver ++ pattern ++ visibility ++
    visTarget ++ generics ++ genericParam) := by
  simp +contextual [params, param, receiver, pattern, visibility, visTarget, generics, genericParam,
    Param.moved, Visibility.moved, Generics.moved, GenericParam.moved, map_lifetime_iff f g,
    -Prod.forall, -only, -orEmpty]

/-- The rules of bounds and of most types respect moving. -/
theorem types_respect : RulesRespect f g (lifetimeBounds ++ whereClause ++ predicate ++ bounds ++
    bound ++ type ++ typeNoBounds ++ groupedType ++ atomicType ++ refTarget) := by
  simp +contextual [lifetimeBounds, whereClause, predicate, bounds, bound, type, typeNoBounds,
    groupedType, atomicType, refTarget, Predicate.moved, map_lifetime_iff f g, -Prod.forall, -only,
    -orEmpty]

/-- The position of the trait in a qualified type is the number of its segments, wherever they
stand. -/
theorem qualifiedType_respects : RulesRespect f g qualifiedType := by
  refine List.forall_mem_singleton.mpr ?_
  rintro place place' ⟨ty, path, first, more, ⟨⟩⟩ ⟨ty', path', first', more', ⟨⟩⟩ hplace h
  obtain ⟨hty, hpath, hfirst, hmore, -⟩ := h
  have hsegments : path.segments.map (Segment.moved f) = path'.segments.map (Segment.moved g) := by
    rw [← Path.segments_moved, ← Path.segments_moved]
    exact congrArg Path.segments hpath
  have hlength : path.segments.length = path'.segments.length := by
    simpa only [List.length_map] using congrArg List.length hsegments
  have hmore' : (only more).map (List.map (Segment.moved f)) =
      (only more').map (List.map (Segment.moved g)) := by
    simpa [-only] using hmore
  have hspan : f place.span = g place'.span := Place.span_moved hplace
  simp only [sameMoved, Nonterminal.moved, Ty.moved, Path.moved, movedSegments_eq_map,
    List.map_append, listed, orNil, List.map_cons, map_getD, hsegments, hlength, hmore', hspan]
  rw [show ty.moved f = ty'.moved g from hty, show first.moved f = first'.moved g from hfirst]

/-- The rules of paths and of what is applied in them respect moving. -/
theorem paths_respect : RulesRespect f g (arrayLength ++ path ++ segment ++ pathIdent ++
    segmentArgs ++ genericArg) := by
  simp +contextual [arrayLength, path, segment, pathIdent, segmentArgs, genericArg,
    SegmentArgs.moved_getD, -Prod.forall, -only, -orEmpty]

/-- **Every rule makes of the same parts at two places the same value at two places.** -/
theorem rules_respect : ∀ r ∈ rules, r.Respects (Extent.SameMoved f g) (sameMoved f g) := by
  unfold rules
  have h : RulesRespect f g _ := lists_respect.append items_respect |>.append params_respect
    |>.append types_respect |>.append qualifiedType_respects |>.append paths_respect
  simpa only [RulesRespect, List.append_assoc] using h

end Grammar

end TraitMock
