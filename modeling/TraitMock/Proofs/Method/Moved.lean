import TraitMock.Method.Facts
import TraitMock.Proofs.Decl.Alike
import TraitMock.Proofs.Walk.Moved

/-!
# Proofs/Method/Moved — what follows from a method that stands elsewhere

The facts of a method are those of the same method at any other place, moved there, and so are the
reports on the way (`Method.facts_moved`).  Places may be moved in any way that leaves the unknown
place where it is: some parts of the facts stand nowhere.
-/

namespace TraitMock

open Checked

/-! ## Moving what follows from a method -/

section Moving

variable (f : Span → Span)

/-- An expression at another place. -/
def Expr.moved : Expr → Expr
  | .name ident s => .name (ident.moved f) (f s)
  | .ref expr isMut s => .ref expr.moved isMut (f s)
  | .unknown kind => .unknown kind

/-- An argument as a matcher sees it, at another place. -/
def StandIn.moved (s : StandIn) : StandIn := ⟨s.arg.moved f, s.expr.moved f, s.ty.moved f⟩

/-- **The facts of a method at another place.** -/
def MethodFacts.moved (facts : MethodFacts) : MethodFacts :=
  { facts with
    expectation := facts.expectation.moved f
    expectations := facts.expectations.moved f
    expectObj := facts.expectObj.moved f
    standIns := facts.standIns.map (StandIn.moved f)
    argTypes := facts.argTypes.map (Ty.moved f)
    params := facts.params.map (Param.moved f)
    output := facts.output.map (Ty.moved f) }

end Moving

variable {f : Span → Span}

/-- An expression is written alike wherever it stands. -/
theorem Expr.render_moved (e : Expr) : (e.moved f).render = e.render := by
  induction e with
  | name ident s => rfl
  | ref expr isMut s ih => simp only [Expr.moved, Expr.render, ih]
  | unknown kind => rfl

/-! ## Parameters -/

/-- A moved type stands where its span is moved. -/
theorem Ty.span_moved (hf : f {} = {}) (ty : Ty) : (ty.moved f).span = f ty.span := by
  cases ty <;> simp [Ty.moved, Ty.span, hf]

/-- **Normalizing a parameter that stands elsewhere.** -/
theorem Param.normalize_moved (hf : f {} = {}) (p : Param) :
    (p.moved f).normalize = do return (← p.normalize.moved f).map (Param.moved f) := by
  cases p with
  | receiver kind isMut lifetime s => cases kind <;> cases isMut <;> rfl
  | typed pat ty span =>
    cases pat with
    | wild s =>
      simp only [Param.moved, Pat.moved, Param.normalize, moved_bind, moved_report, moved_pure,
        Checked.bind_assoc, Checked.pure_bind, Edit.map_keep]
    | ident ident byRef isMut sub s =>
      cases byRef <;> cases isMut <;> cases sub <;>
        simp [Param.moved, Pat.moved, movedSub, Param.normalize, moved_bind, moved_report,
          moved_pure, Checked.bind_assoc, Checked.pure_bind, Edit.map_keep, Edit.map_replace]
    | tuple elems s =>
      simp only [Param.moved, Pat.moved, Param.normalize, moved_bind, moved_report, moved_pure,
        Checked.bind_assoc, Checked.pure_bind, Edit.map_keep, Pat.span]
    | unknown kind =>
      simp only [Param.moved, Pat.moved, Param.normalize, moved_bind, moved_report, moved_pure,
        Checked.bind_assoc, Checked.pure_bind, Edit.map_keep, Pat.span, hf]

/-- Parameters are normalized alike elsewhere, one by one. -/
theorem normalizeParams_moved (hf : f {} = {}) : ∀ params : List Param,
    normalizeParams (params.map (Param.moved f)) =
      do return (← (normalizeParams params).moved f).map (Edit.map (Param.moved f))
  | [] => rfl
  | p :: rest => by
    simp only [List.map_cons, normalizeParams, p.normalize_moved hf, normalizeParams_moved hf rest,
      moved_bind, moved_pure, Checked.bind_assoc, Checked.pure_bind]

/-- Edits of parameters apply alike elsewhere. -/
theorem applyEdits_moved : ∀ (params : List Param) (edits : List (Edit Param)),
    applyEdits (params.map (Param.moved f)) (edits.map (Edit.map (Param.moved f))) =
      (applyEdits params edits).map (Param.moved f)
  | [], _ => rfl
  | _ :: _, [] => rfl
  | p :: params, e :: edits => by
    have ih := applyEdits_moved params edits
    rw [applyEdits] at ih ⊢
    rw [List.map_cons, List.map_cons, List.zipWith_cons_cons, ih, Edit.apply_map]
    rfl

/-- The normalized parameters of a method move with it. -/
theorem Method.normalizedParams_moved (hf : f {} = {}) (m : Method) :
    (m.moved f).normalizedParams =
      do return (← m.normalizedParams.moved f).map (Param.moved f) := by
  simp only [Method.normalizedParams, Method.moved, normalizeParams_moved hf, moved_bind,
    moved_pure, Checked.bind_assoc, Checked.pure_bind, applyEdits_moved]

/-- A receiver is one wherever it stands. -/
theorem Param.isReceiver_moved (p : Param) : (p.moved f).isReceiver = p.isReceiver := by
  cases p <;> rfl

/-- The type of a parameter moves with it. -/
theorem Param.ty?_moved (p : Param) : (p.moved f).ty? = p.ty?.map (Ty.moved f) := by
  cases p <;> rfl

/-- The types of parameters move with them. -/
theorem filterMap_ty?_moved (params : List Param) :
    (params.map (Param.moved f)).filterMap Param.ty? =
      (params.filterMap Param.ty?).map (Ty.moved f) := by
  rw [List.filterMap_map, List.map_filterMap]
  exact List.filterMap_congr fun p _ => p.ty?_moved

/-! ## Stand-ins -/

/-- What stands in for a parameter moves with it, but for its name, which is told by the position.
-/
theorem Param.standIn?_moved (hf : f {} = {}) (position : Nat) (p : Param) :
    (p.moved f).standIn? position = (p.standIn? position).map (StandIn.moved f) := by
  cases p with
  | receiver kind isMut lifetime s => rfl
  | typed pat ty span =>
    cases pat with
    | wild s | tuple elems s | unknown kind => rfl
    | ident ident byRef isMut sub s =>
      have hspan := ty.span_moved hf
      cases ty <;>
        simp [Param.moved, Pat.moved, movedSub, Param.standIn?, StandIn.moved, Expr.moved,
          Ident.moved, Ty.moved, Ty.span, hf]

/-- What stands in for parameters moves with them, in their order. -/
theorem standIns_moved (hf : f {} = {}) : ∀ (position : Nat) (params : List Param),
    standIns position (params.map (Param.moved f)) =
      (standIns position params).map (StandIn.moved f)
  | _, [] => rfl
  | position, p :: rest => by
    rw [List.map_cons, standIns, standIns, standIns_moved hf, p.standIn?_moved hf, List.map_append]
    cases p.standIn? position <;> rfl

/-! ## Results and expectations -/

/-- How a call is dispatched is told alike elsewhere, and reported there. -/
theorem CallKind.ofOutput_moved (output : Option Ty) :
    CallKind.ofOutput (output.map (Ty.moved f)) = (CallKind.ofOutput output).moved f := by
  cases output with
  | none => rfl
  | some ty =>
    cases ty with
    | reference elem lifetime isMut s =>
      simp only [Option.map_some, Ty.moved, CallKind.ofOutput]
      cases isServedLifetime lifetime
      · simp only [Bool.not_false, if_true, moved_bind, moved_report, moved_pure]
      · rfl
    | _ => rfl

/-- The path to expectations moves with the method and what it is applied to. -/
theorem expectationPath_moved (method : Ident) (name : String) (args : List GenericArg) :
    expectationPath (method.moved f) name (args.map (GenericArg.moved f)) =
      (expectationPath method name args).moved f := by
  cases args with
  | nil => rfl
  | cons arg rest =>
    simp only [expectationPath, List.map_cons, List.isEmpty_cons, Ty.moved, Path.moved,
      movedSegments, Segment.moved, SegmentArgs.moved, movedArgs, movedArgs_eq_map, Ident.moved,
      Bool.false_eq_true, if_false]

/-- A generic parameter is applied alike elsewhere. -/
theorem GenericParam.toArg_moved (hf : f {} = {}) (p : GenericParam) :
    (p.moved f).toArg = p.toArg.moved f := by
  cases p <;>
    simp [GenericParam.moved, GenericParam.toArg, GenericArg.moved, Ty.moved, Path.moved,
      Path.ofIdents, movedSegments, Segment.moved, SegmentArgs.moved, Ident.moved, hf]

/-- What generics are applied to moves with them. -/
theorem Generics.typeArgs_moved (hf : f {} = {}) (g : Generics) :
    (g.moved f).typeArgs = g.typeArgs.map (GenericArg.moved f) := by
  simp only [Generics.typeArgs, Generics.moved, List.map_map, Function.comp_def,
    GenericParam.toArg_moved hf]

/-! ## Facts -/

/-- Boxing an unnamed type, if it is one, and moving it can be done in either order. -/
theorem Ty.apply_eraseImpl_moved (ty : Ty) :
    (ty.moved f).eraseImpl.apply (ty.moved f) = (ty.eraseImpl.apply ty).moved f := by
  rw [Ty.eraseImpl_moved, Edit.apply_map]

/-- **The facts of a method that stands elsewhere.** -/
theorem Method.facts_moved (hf : f {} = {}) (m : Method) (generics : Option Generics) :
    (m.moved f).facts (generics.map (Generics.moved f)) =
      do return MethodFacts.moved f (← (m.facts generics).moved f) := by
  have houtput : (m.moved f).output.map (fun ty => ty.eraseImpl.apply ty) =
      (m.output.map fun ty => ty.eraseImpl.apply ty).map (Ty.moved f) := by
    simp only [Method.moved, Option.map_map, Function.comp_def, Ty.apply_eraseImpl_moved]
  have hnone (name : String) : expectationPath (m.ident.moved f) name [] =
      (expectationPath m.ident name []).moved f := expectationPath_moved m.ident name []
  have hident : (m.moved f).ident = m.ident.moved f := rfl
  have hgenerics : (m.moved f).generics = m.generics.moved f := rfl
  have hgeneric : (m.generics.moved f).params.isEmpty = m.generics.params.isEmpty :=
    List.isEmpty_map
  rw [Method.facts.eq_def, Method.facts.eq_def]
  cases generics <;>
    simp only [m.normalizedParams_moved hf, hident, hgenerics, hgeneric, houtput, hnone,
      Option.map_some, Option.map_none, Generics.merge_moved, Generics.typeArgs_moved hf,
      expectationPath_moved, CallKind.ofOutput_moved, moved_bind, moved_pure, Checked.bind_assoc,
      Checked.pure_bind, MethodFacts.moved, standIns_moved hf, filterMap_ty?_moved,
      apply_ite (Ty.moved f), List.any_map, Function.comp_def, Param.isReceiver_moved]

end TraitMock
