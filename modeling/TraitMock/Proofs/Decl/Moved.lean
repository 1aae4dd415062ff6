import Mathlib.Data.List.Basic
import TraitMock.Decl.Merge
import TraitMock.Decl.Render

/-!
# Proofs/Decl/Moved — the same tree at other places

`Ty.moved f` and its kin put every span of a tree where `f` says and change nothing else.  What a
tree is written as does not depend on where it stands (`Ty.render_moved`, and so on up to
`Method.renderWith_moved`).
-/

namespace TraitMock

variable (f : Span → Span)

/-! ## Moving trees -/

/-- The identifier at another place. -/
def Ident.moved (i : Ident) : Ident := ⟨i.name, f i.span⟩

mutual

/-- **The type at another place**, with everything in it. -/
def Ty.moved : Ty → Ty
  | .slice elem s => .slice elem.moved (f s)
  | .array elem length s => .array elem.moved length (f s)
  | .pointer elem isMut s => .pointer elem.moved isMut (f s)
  | .reference elem lifetime isMut s => .reference elem.moved lifetime isMut (f s)
  | .tuple elems s => .tuple (movedTypes elems) (f s)
  | .paren elem s => .paren elem.moved (f s)
  | .group elem s => .group elem.moved (f s)
  | .function inputs output s => .function (movedTypes inputs) (movedOutput output) (f s)
  | .traitObject bounds s => .traitObject (movedBounds bounds) (f s)
  | .implTrait bounds s => .implTrait (movedBounds bounds) (f s)
  | .infer s => .infer (f s)
  | .never s => .never (f s)
  | .macroCall text s => .macroCall text (f s)
  | .verbatim text s => .verbatim text (f s)
  | .path path s => .path path.moved (f s)
  | .qualified self position path s => .qualified self.moved position path.moved (f s)
  | .unknown kind => .unknown kind

/-- Types at other places. -/
def movedTypes : List Ty → List Ty
  | [] => []
  | ty :: rest => ty.moved :: movedTypes rest

/-- A result type at another place. -/
def movedOutput : Option Ty → Option Ty
  | none => none
  | some ty => some ty.moved

/-- **The path at another place.** -/
def Path.moved : Path → Path
  | ⟨segments, leadingColon⟩ => ⟨movedSegments segments, leadingColon⟩

/-- Segments at other places. -/
def movedSegments : List Segment → List Segment
  | [] => []
  | segment :: rest => segment.moved :: movedSegments rest

/-- A segment at another place. -/
def Segment.moved : Segment → Segment
  | ⟨ident, args⟩ => ⟨ident.moved f, args.moved⟩

/-- What is applied to a segment, at another place. -/
def SegmentArgs.moved : SegmentArgs → SegmentArgs
  | .none => .none
  | .angle args => .angle (movedArgs args)
  | .call inputs output => .call (movedTypes inputs) (movedOutput output)

/-- Generic arguments at other places. -/
def movedArgs : List GenericArg → List GenericArg
  | [] => []
  | arg :: rest => arg.moved :: movedArgs rest

/-- A generic argument at another place. -/
def GenericArg.moved : GenericArg → GenericArg
  | .type ty => .type ty.moved
  | .lifetime name => .lifetime name
  | .binding ident ty => .binding (ident.moved f) ty.moved
  | .const text => .const text

/-- A bound at another place. -/
def Bound.moved : Bound → Bound
  | .trait path relaxed => .trait path.moved relaxed
  | .outlives lifetime => .outlives lifetime

/-- Bounds at other places. -/
def movedBounds : List Bound → List Bound
  | [] => []
  | bound :: rest => bound.moved :: movedBounds rest

end

/-- A declared parameter at another place. -/
def GenericParam.moved : GenericParam → GenericParam
  | .type ident bounds default =>
    .type (ident.moved f) (movedBounds f bounds) (movedOutput f default)
  | .lifetime ident bounds => .lifetime (ident.moved f) bounds
  | .const ident ty => .const (ident.moved f) (ty.moved f)

/-- A condition at another place. -/
def Predicate.moved : Predicate → Predicate
  | .bounded ty bounds => .bounded (ty.moved f) (movedBounds f bounds)
  | .outlives lifetime bounds => .outlives lifetime bounds
  | .equal lhs rhs => .equal (lhs.moved f) (rhs.moved f)

/-- **Generics at another place.** -/
def Generics.moved (g : Generics) : Generics :=
  { params := g.params.map (GenericParam.moved f)
    whereClause := g.whereClause.map (·.map (Predicate.moved f))
    hasBrackets := g.hasBrackets }

/-- A visibility at another place. -/
def Visibility.moved : Visibility → Visibility
  | .restricted path hasIn => .restricted (path.moved f) hasIn
  | .inherited => .inherited
  | .pub => .pub
  | .crate => .crate
  | .unknown kind => .unknown kind

mutual

/-- A pattern at another place. -/
def Pat.moved : Pat → Pat
  | .ident ident byRef isMut sub s => .ident (ident.moved f) byRef isMut (movedSub sub) (f s)
  | .wild s => .wild (f s)
  | .tuple elems s => .tuple (movedPats elems) (f s)
  | .unknown kind => .unknown kind

/-- The pattern behind a binding, at another place. -/
def movedSub : Option Pat → Option Pat
  | none => none
  | some pat => some pat.moved

/-- Patterns at other places. -/
def movedPats : List Pat → List Pat
  | [] => []
  | pat :: rest => pat.moved :: movedPats rest

end

/-- A parameter at another place. -/
def Param.moved : Param → Param
  | .receiver kind isMut lifetime s => .receiver kind isMut lifetime (f s)
  | .typed pat ty s => .typed (pat.moved f) (ty.moved f) (f s)

/-- **The method at another place.** -/
def Method.moved (m : Method) : Method :=
  { ident := m.ident.moved f
    params := m.params.map (Param.moved f)
    output := m.output.map (Ty.moved f)
    generics := m.generics.moved f
    vis := m.vis.moved f
    span := f m.span }

/-- A trait at another place. -/
def TraitDecl.moved (d : TraitDecl) : TraitDecl :=
  { ident := d.ident.moved f
    generics := d.generics.moved f
    vis := d.vis.moved f
    methods := d.methods.map (Method.moved f)
    span := f d.span }

/-- An implementation at another place. -/
def ImplDecl.moved (d : ImplDecl) : ImplDecl :=
  { selfTy := d.selfTy.moved f
    traitPath := d.traitPath.map (Path.moved f)
    generics := d.generics.moved f
    methods := d.methods.map (Method.moved f)
    span := f d.span }

/-- **The item at another place.** -/
def Item.moved : Item → Item
  | .traitDecl d => .traitDecl (d.moved f)
  | .implDecl d => .implDecl (d.moved f)

/-- **The declarations of a file at other places.** -/
def DeclFile.moved (decls : DeclFile) : DeclFile :=
  { decls with items := decls.items.map (Item.moved f) }

variable {f}

/-! ## Lists and options -/

/-- The types of a list are moved one by one. -/
theorem movedTypes_eq_map (tys : List Ty) : movedTypes f tys = tys.map (Ty.moved f) := by
  induction tys with
  | nil => rfl
  | cons ty rest ih => rw [movedTypes, ih, List.map_cons]

/-- The segments of a path are moved one by one. -/
theorem movedSegments_eq_map (segments : List Segment) :
    movedSegments f segments = segments.map (Segment.moved f) := by
  induction segments with
  | nil => rfl
  | cons segment rest ih => rw [movedSegments, ih, List.map_cons]

/-- Generic arguments are moved one by one. -/
theorem movedArgs_eq_map (args : List GenericArg) :
    movedArgs f args = args.map (GenericArg.moved f) := by
  induction args with
  | nil => rfl
  | cons arg rest ih => rw [movedArgs, ih, List.map_cons]

/-- Bounds are moved one by one. -/
theorem movedBounds_eq_map (bounds : List Bound) :
    movedBounds f bounds = bounds.map (Bound.moved f) := by
  induction bounds with
  | nil => rfl
  | cons bound rest ih => rw [movedBounds, ih, List.map_cons]

/-- Patterns are moved one by one. -/
theorem movedPats_eq_map (pats : List Pat) : movedPats f pats = pats.map (Pat.moved f) := by
  induction pats with
  | nil => rfl
  | cons pat rest ih => rw [movedPats, ih, List.map_cons]

/-- A result is moved if there is one. -/
theorem movedOutput_eq_map (output : Option Ty) :
    movedOutput f output = output.map (Ty.moved f) := by
  cases output <;> rfl

/-- A subpattern is moved if there is one. -/
theorem movedSub_eq_map (sub : Option Pat) : movedSub f sub = sub.map (Pat.moved f) := by
  cases sub <;> rfl

/-! ## Written forms -/

mutual

/-- **What a type is written as does not depend on where it stands.** -/
theorem Ty.render_moved : ∀ ty : Ty, (ty.moved f).render = ty.render
  | .slice elem _ | .array elem _ _ | .pointer elem _ _ | .reference elem _ _ _ | .paren elem _
  | .group elem _ => by simp only [Ty.moved, Ty.render, elem.render_moved]
  | .tuple elems _ => by simp only [Ty.moved, Ty.render, renderTypes_moved elems]
  | .function inputs output _ => by
    simp only [Ty.moved, Ty.render, renderTypes_moved inputs, renderOutput_moved output]
  | .traitObject bounds _ | .implTrait bounds _ => by
    simp only [Ty.moved, Ty.render, renderBoundList_moved bounds]
  | .infer _ | .never _ | .macroCall _ _ | .verbatim _ _ | .unknown _ => by
    simp only [Ty.moved, Ty.render]
  | .path path _ => by simp only [Ty.moved, Ty.render, path.render_moved]
  | .qualified self _ ⟨segments, _⟩ _ => by
    simp only [Ty.moved, Path.moved, Ty.render, self.render_moved, renderSegments_moved segments]

/-- Types are written one by one, so wherever they stand. -/
theorem renderTypes_moved : ∀ tys : List Ty, renderTypes (movedTypes f tys) = renderTypes tys
  | [] => rfl
  | ty :: rest => by simp only [movedTypes, renderTypes, ty.render_moved, renderTypes_moved rest]

/-- A result is written wherever it stands, if there is one. -/
theorem renderOutput_moved : ∀ output : Option Ty,
    renderOutput (movedOutput f output) = renderOutput output
  | none => rfl
  | some ty => by simp only [movedOutput, renderOutput, ty.render_moved]

/-- A path is written by its segments, whose places are not in the text. -/
theorem Path.render_moved : ∀ path : Path, (path.moved f).render = path.render
  | ⟨segments, _⟩ => by simp only [Path.moved, Path.render, renderSegments_moved segments]

/-- Segments are written by their names and arguments alone. -/
theorem renderSegments_moved : ∀ segments : List Segment,
    renderSegments (movedSegments f segments) = renderSegments segments
  | [] => rfl
  | segment :: rest => by
    simp only [movedSegments, renderSegments, segment.render_moved, renderSegments_moved rest]

/-- The name of a segment is moved by its span, which is not written. -/
theorem Segment.render_moved : ∀ segment : Segment, (segment.moved f).render = segment.render
  | ⟨ident, args⟩ => by simp only [Segment.moved, Ident.moved, Segment.render, args.render_moved]

/-- Brackets and parentheses stay what they are when what they hold is moved. -/
theorem SegmentArgs.render_moved : ∀ args : SegmentArgs, (args.moved f).render = args.render
  | .none => rfl
  | .angle [] => rfl
  | .angle (arg :: rest) => by
    simp only [SegmentArgs.moved, movedArgs, SegmentArgs.render, arg.render_moved,
      renderGenericArgs_moved rest]
  | .call inputs output => by
    simp only [SegmentArgs.moved, SegmentArgs.render, renderTypes_moved inputs,
      renderOutput_moved output]

/-- Generic arguments are written one by one, so wherever they stand. -/
theorem renderGenericArgs_moved : ∀ args : List GenericArg,
    renderGenericArgs (movedArgs f args) = renderGenericArgs args
  | [] => rfl
  | arg :: rest => by
    simp only [movedArgs, renderGenericArgs, arg.render_moved, renderGenericArgs_moved rest]

/-- An argument is written alike elsewhere; a lifetime or a constant has no place to move. -/
theorem GenericArg.render_moved : ∀ arg : GenericArg, (arg.moved f).render = arg.render
  | .type ty | .binding _ ty => by
    simp only [GenericArg.moved, Ident.moved, GenericArg.render, ty.render_moved]
  | .lifetime _ | .const _ => rfl

/-- A bound is written by its path or its lifetime, wherever it stands. -/
theorem Bound.render_moved : ∀ bound : Bound, (bound.moved f).render = bound.render
  | .trait path _ => by simp only [Bound.moved, Bound.render, path.render_moved]
  | .outlives _ => rfl

/-- Bounds are written one by one, so wherever they stand. -/
theorem renderBoundList_moved : ∀ bounds : List Bound,
    renderBoundList (movedBounds f bounds) = renderBoundList bounds
  | [] => rfl
  | bound :: rest => by
    simp only [movedBounds, renderBoundList, bound.render_moved, renderBoundList_moved rest]

end

/-- Bounds joined by `+` are written wherever they stand. -/
theorem renderBounds_moved (bounds : List Bound) :
    renderBounds (movedBounds f bounds) = renderBounds bounds := by
  rw [renderBounds, renderBounds, renderBoundList_moved]

/-- Moving bounds leaves none out. -/
theorem isEmpty_movedBounds (bounds : List Bound) :
    (movedBounds f bounds).isEmpty = bounds.isEmpty := by
  rw [movedBounds_eq_map, List.isEmpty_map]

/-- A generic parameter is written with its bounds or its default, wherever they stand. -/
theorem GenericParam.render_moved (p : GenericParam) : (p.moved f).render = p.render := by
  cases p with
  | type ident bounds default =>
    cases default <;>
      simp only [GenericParam.moved, Ident.moved, GenericParam.render, isEmpty_movedBounds,
        renderBounds_moved, movedOutput, Ty.render_moved]
  | lifetime ident bounds => rfl
  | const ident ty =>
    simp only [GenericParam.moved, Ident.moved, GenericParam.render, ty.render_moved]

/-- A predicate is written by what it bounds and its bounds, wherever they stand. -/
theorem Predicate.render_moved (p : Predicate) : (p.moved f).render = p.render := by
  cases p with
  | bounded ty bounds =>
    simp only [Predicate.moved, Predicate.render, ty.render_moved, renderBounds_moved]
  | outlives lifetime bounds => rfl
  | equal lhs rhs => simp only [Predicate.moved, Predicate.render, Ty.render_moved]

/-- The brackets of generics are written wherever they stand. -/
theorem Generics.render_moved (g : Generics) : (g.moved f).render = g.render := by
  simp only [Generics.render, Generics.moved, List.isEmpty_map, List.map_map, Function.comp_def,
    GenericParam.render_moved]

/-- So is the `where` clause. -/
theorem Generics.renderWhere_moved (g : Generics) : (g.moved f).renderWhere = g.renderWhere := by
  obtain ⟨params, _ | _ | ⟨p, rest⟩, hasBrackets⟩ := g
  · rfl
  · rfl
  · simp only [Generics.moved, Generics.renderWhere, Option.map_some, List.map_cons, List.map_map,
      Function.comp_def, Predicate.render_moved]

/-- A visibility is written alike wherever its path stands. -/
theorem Visibility.render_moved (vis : Visibility) : (vis.moved f).render = vis.render := by
  cases vis <;> simp only [Visibility.moved, Visibility.render, Path.render_moved]

mutual

/-- A pattern is written with what is nested in it, wherever it stands. -/
theorem Pat.render_moved : ∀ pat : Pat, (pat.moved f).render = pat.render
  | .ident ident _ _ sub _ => by
    simp only [Pat.moved, Ident.moved, Pat.render, renderSub_moved sub]
  | .wild _ | .unknown _ => by simp only [Pat.moved, Pat.render]
  | .tuple elems _ => by simp only [Pat.moved, Pat.render, renderPats_moved elems]

/-- What follows an `@` is written wherever it stands. -/
theorem renderSub_moved : ∀ sub : Option Pat, renderSub (movedSub f sub) = renderSub sub
  | none => rfl
  | some pat => by simp only [movedSub, renderSub, pat.render_moved]

/-- The members of a tuple pattern are written wherever they stand. -/
theorem renderPats_moved : ∀ pats : List Pat, renderPats (movedPats f pats) = renderPats pats
  | [] => rfl
  | pat :: rest => by simp only [movedPats, renderPats, pat.render_moved, renderPats_moved rest]

end

/-- A parameter is written by its pattern and its type, wherever they stand. -/
theorem Param.render_moved (p : Param) : (p.moved f).render = p.render := by
  cases p with
  | receiver kind isMut lifetime s => cases kind <;> rfl
  | typed pat ty s => simp only [Param.moved, Param.render, pat.render_moved, ty.render_moved]

/-- **A method is written the same wherever it stands**, with whatever result. -/
theorem Method.renderWith_moved (output : Option Ty) (m : Method) :
    (m.moved f).renderWith (output.map (Ty.moved f)) = m.renderWith output := by
  have hresult : ((output.map (Ty.moved f) <|> m.output.map (Ty.moved f)).map Ty.render) =
      (output <|> m.output).map Ty.render := by
    cases output <;> cases m.output <;> simp [Ty.render_moved]
  simp only [Method.renderWith, Method.moved, Ident.moved, Visibility.render_moved,
    Generics.render_moved, Generics.renderWhere_moved, List.map_map, Function.comp_def,
    Param.render_moved, hresult]

/-! ## Moving nowhere -/

theorem Ident.moved_id (i : Ident) : i.moved id = i := rfl

mutual

/-- **A type that is moved nowhere is the same type.** -/
theorem Ty.moved_id : ∀ ty : Ty, ty.moved id = ty
  | .slice elem _ | .array elem _ _ | .pointer elem _ _ | .reference elem _ _ _ | .paren elem _
  | .group elem _ => by simp only [Ty.moved, elem.moved_id, id_eq]
  | .tuple elems _ => by simp only [Ty.moved, movedTypes_id elems, id_eq]
  | .function inputs output _ => by
    simp only [Ty.moved, movedTypes_id inputs, movedOutput_id output, id_eq]
  | .traitObject bounds _ | .implTrait bounds _ => by
    simp only [Ty.moved, movedBounds_id bounds, id_eq]
  | .infer _ | .never _ | .macroCall _ _ | .verbatim _ _ | .unknown _ => by
    simp only [Ty.moved, id_eq]
  | .path path _ => by simp only [Ty.moved, path.moved_id, id_eq]
  | .qualified self _ path _ => by simp only [Ty.moved, self.moved_id, path.moved_id, id_eq]

theorem movedTypes_id : ∀ tys : List Ty, movedTypes id tys = tys
  | [] => rfl
  | ty :: rest => by simp only [movedTypes, ty.moved_id, movedTypes_id rest]

theorem movedOutput_id : ∀ output : Option Ty, movedOutput id output = output
  | none => rfl
  | some ty => by simp only [movedOutput, ty.moved_id]

/-- A path that is moved nowhere is the same path. -/
theorem Path.moved_id : ∀ path : Path, path.moved id = path
  | ⟨segments, _⟩ => by simp only [Path.moved, movedSegments_id segments]

theorem movedSegments_id : ∀ segments : List Segment, movedSegments id segments = segments
  | [] => rfl
  | segment :: rest => by simp only [movedSegments, segment.moved_id, movedSegments_id rest]

theorem Segment.moved_id : ∀ segment : Segment, segment.moved id = segment
  | ⟨ident, args⟩ => by simp only [Segment.moved, ident.moved_id, args.moved_id]

/-- Arguments that are moved nowhere are the same, in whichever brackets. -/
theorem SegmentArgs.moved_id : ∀ args : SegmentArgs, args.moved id = args
  | .none => rfl
  | .angle args => by simp only [SegmentArgs.moved, movedArgs_id args]
  | .call inputs output => by
    simp only [SegmentArgs.moved, movedTypes_id inputs, movedOutput_id output]

theorem movedArgs_id : ∀ args : List GenericArg, movedArgs id args = args
  | [] => rfl
  | arg :: rest => by simp only [movedArgs, arg.moved_id, movedArgs_id rest]

theorem GenericArg.moved_id : ∀ arg : GenericArg, arg.moved id = arg
  | .type ty => by simp only [GenericArg.moved, ty.moved_id]
  | .binding ident ty => by simp only [GenericArg.moved, ident.moved_id, ty.moved_id]
  | .lifetime _ | .const _ => rfl

theorem Bound.moved_id : ∀ bound : Bound, bound.moved id = bound
  | .trait path _ => by simp only [Bound.moved, path.moved_id]
  | .outlives _ => rfl

theorem movedBounds_id : ∀ bounds : List Bound, movedBounds id bounds = bounds
  | [] => rfl
  | bound :: rest => by simp only [movedBounds, bound.moved_id, movedBounds_id rest]

end

/-- A generic parameter that is moved nowhere is the same one. -/
theorem GenericParam.moved_id (p : GenericParam) : p.moved id = p := by
  cases p <;> simp only [GenericParam.moved, Ident.moved_id, movedBounds_id, movedOutput_id,
    Ty.moved_id]

/-- A predicate that is moved nowhere is the same one. -/
theorem Predicate.moved_id (p : Predicate) : p.moved id = p := by
  cases p <;> simp only [Predicate.moved, movedBounds_id, Ty.moved_id]

/-- Generics that are moved nowhere are the same, with their `where` clause. -/
theorem Generics.moved_id (g : Generics) : g.moved id = g := by
  have hclause : (fun clause : List Predicate => clause.map (Predicate.moved id)) = id :=
    funext fun clause => List.map_id'' Predicate.moved_id clause
  rw [Generics.moved, List.map_id'' GenericParam.moved_id, hclause, Option.map_id_fun, id_eq]

/-- A visibility that is moved nowhere is the same one. -/
theorem Visibility.moved_id (vis : Visibility) : vis.moved id = vis := by
  cases vis <;> simp only [Visibility.moved, Path.moved_id]

mutual

/-- A pattern that is moved nowhere is the same one, with what is nested in it. -/
theorem Pat.moved_id : ∀ pat : Pat, pat.moved id = pat
  | .ident ident _ _ sub _ => by simp only [Pat.moved, ident.moved_id, movedSub_id sub, id_eq]
  | .wild _ | .unknown _ => by simp only [Pat.moved, id_eq]
  | .tuple elems _ => by simp only [Pat.moved, movedPats_id elems, id_eq]

theorem movedSub_id : ∀ sub : Option Pat, movedSub id sub = sub
  | none => rfl
  | some pat => by simp only [movedSub, pat.moved_id]

theorem movedPats_id : ∀ pats : List Pat, movedPats id pats = pats
  | [] => rfl
  | pat :: rest => by simp only [movedPats, pat.moved_id, movedPats_id rest]

end

/-- A parameter that is moved nowhere is the same one. -/
theorem Param.moved_id (p : Param) : p.moved id = p := by
  cases p <;> simp only [Param.moved, Pat.moved_id, Ty.moved_id, id_eq]

/-- A method that is moved nowhere is the same method. -/
theorem Method.moved_id (m : Method) : m.moved id = m := by
  have houtput : m.output.map (Ty.moved id) = m.output := by
    rw [← movedOutput_eq_map, movedOutput_id]
  rw [Method.moved, Ident.moved_id, List.map_id'' Param.moved_id, houtput, Generics.moved_id,
    Visibility.moved_id, id_eq]

/-- A trait that is moved nowhere is the same, method by method. -/
theorem TraitDecl.moved_id (d : TraitDecl) : d.moved id = d := by
  rw [TraitDecl.moved, Ident.moved_id, Generics.moved_id, Visibility.moved_id,
    List.map_id'' Method.moved_id, id_eq]

/-- An implementation that is moved nowhere is the same, method by method. -/
theorem ImplDecl.moved_id (d : ImplDecl) : d.moved id = d := by
  have hpath : Path.moved id = id := funext Path.moved_id
  rw [ImplDecl.moved, Ty.moved_id, hpath, Option.map_id_fun, Generics.moved_id,
    List.map_id'' Method.moved_id, id_eq, id_eq]

/-- **An item that is moved nowhere** stays as it is. -/
theorem Item.moved_id (item : Item) : item.moved id = item := by
  cases item <;> simp only [Item.moved, TraitDecl.moved_id, ImplDecl.moved_id]

end TraitMock
