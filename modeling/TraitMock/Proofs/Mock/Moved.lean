import TraitMock.Mock.Text
import TraitMock.Proofs.Method.Moved

/-!
# Proofs/Mock/Moved — no place leaks into a plan

The plan of a declaration file that stands elsewhere is the plan of the file, moved there, with its
reports moved as well (`DeclFile.plan_moved`); and a moved plan is shown the same
(`MockPlan.toJson_moved`).
-/

namespace TraitMock

open Checked

/-! ## Moving plans -/

section Moving

variable (f : Span → Span)

/-- **The plan of a method at another place.** -/
def MethodPlan.moved (p : MethodPlan) : MethodPlan :=
  { sig := p.sig.moved f
    vis := p.vis.moved f
    argTypes := p.argTypes.map (Ty.moved f)
    output := p.output.map (Ty.moved f)
    facts := p.facts.moved f }

/-- **The plan of a mock at another place.** -/
def MockPlan.moved (p : MockPlan) : MockPlan :=
  { mock := p.mock.moved f
    module := p.module.moved f
    interface := p.interface
    generics := p.generics.moved f
    methods := p.methods.map (MethodPlan.moved f)
    span := f p.span }

/-- The head of a mock at another place. -/
def MockHead.moved (head : MockHead) : MockHead :=
  ⟨head.struct.moved f, head.module.moved f, head.interface, head.defaultVis.moved f⟩

end Moving

variable {f : Span → Span}

/-! ## What is shown -/

/-- **What is shown of a plan does not depend on where the method stands.** -/
theorem MethodPlan.shown_moved (p : MethodPlan) : (p.moved f).shown = p.shown := by
  simp only [MethodPlan.shown, MethodPlan.moved, MethodFacts.moved, StandIn.moved,
    Method.renderWith_moved, Visibility.render_moved, Ty.render_moved, Param.render_moved,
    Expr.render_moved, List.map_map, Option.map_map, Function.comp_def]
  rfl

/-- So the plan of a method is put out the same. -/
theorem MethodPlan.toJson_moved (p : MethodPlan) : (p.moved f).toJson = p.toJson := by
  rw [toJson, toJson, shown_moved]

/-- **A plan is shown the same wherever it stands.** -/
theorem MockPlan.toJson_moved (p : MockPlan) : (p.moved f).toJson = p.toJson := by
  simp only [MockPlan.toJson, MockPlan.moved, MethodPlan.toJson_moved,
    Generics.render_moved, Generics.renderWhere_moved, List.map_map, Function.comp_def, Ident.moved]

/-! ## Heads -/

/-- The last segment of a moved path is that of the path, moved. -/
theorem getLast?_segments_moved (path : Path) :
    (path.moved f).segments.getLast? = path.segments.getLast?.map (Segment.moved f) := by
  obtain ⟨segments, leadingColon⟩ := path
  rw [Path.moved, movedSegments_eq_map, List.getLast?_map]

/-- The head of a mock is at the place of the implementation that it is for. -/
theorem ImplDecl.mockHead?_moved (d : ImplDecl) :
    (d.moved f).mockHead? = d.mockHead?.map (MockHead.moved f) := by
  obtain ⟨selfTy, traitPath, generics, methods, span⟩ := d
  cases selfTy with
  | path path s =>
    simp only [ImplDecl.mockHead?, ImplDecl.moved, Ty.moved, getLast?_segments_moved]
    cases path.segments.getLast? with
    | none => rfl
    | some struct =>
      cases traitPath with
      | none => cases struct; rfl
      | some traitPath =>
        simp only [Option.map_some, getLast?_segments_moved]
        cases traitPath.segments.getLast? with
        | none => rfl
        | some interface => cases struct; cases interface; rfl
  | _ => rfl

/-- **The head of a mock moves with its item.** -/
theorem Item.mockHead?_moved (item : Item) :
    (item.moved f).mockHead? = item.mockHead?.map (MockHead.moved f) := by
  cases item with
  | traitDecl d => rfl
  | implDecl d => exact d.mockHead?_moved

/-! ## Types and visibilities -/

/-- The type of an argument is lifted alike elsewhere, or stays as it is there. -/
theorem liftArgType_moved (hf : f {} = {}) (ty : Ty) :
    liftArgType (ty.moved f) = do return Ty.moved f (← (liftArgType ty).moved f) := by
  simp only [liftArgType, Ty.hasImplTrait_moved, moved_bind, moved_ofExcept, Checked.bind_assoc]
  congr 1
  funext found
  cases found
  · simp [Ty.liftSuper_moved, moved_bind, moved_pure, Checked.bind_assoc, Checked.pure_bind,
      Edit.apply_map]
  · simp [moved_bind, moved_pure, moved_report, Checked.bind_assoc, Checked.pure_bind,
      Ty.span_moved hf]

/-- The types of arguments are lifted alike elsewhere. -/
theorem liftArgTypes_moved (hf : f {} = {}) (tys : List Ty) :
    liftArgTypes (tys.map (Ty.moved f)) =
      do return (← (liftArgTypes tys).moved f).map (Ty.moved f) := by
  induction tys with
  | nil => rfl
  | cons ty rest ih =>
    simp only [List.map_cons, liftArgTypes, liftArgType_moved hf, ih, moved_bind, moved_pure,
      Checked.bind_assoc, Checked.pure_bind]

/-- A result is lowered alike elsewhere. -/
theorem lowerOutput_moved (mock : Ident) (interface : Option String) (output : Option Ty) :
    lowerOutput (mock.moved f) interface (output.map (Ty.moved f)) =
      do return (← (lowerOutput mock interface output).moved f).map (Ty.moved f) := by
  cases output with
  | none => rfl
  | some ty =>
    simp only [Option.map_some, lowerOutput, Ty.substSelf_moved, Edit.apply_map, Ty.liftSuper_moved,
      moved_bind, moved_pure, Checked.bind_assoc, Checked.pure_bind]

/-- A path begins with the same name wherever it stands. -/
theorem Path.firstName?_moved (path : Path) : (path.moved f).firstName? = path.firstName? := by
  rw [Path.firstName?, Path.firstName?, ← List.head?_map, ← List.head?_map, path.names_moved]

/-- A path is re-rooted alike elsewhere; the steps in front of it stand nowhere. -/
theorem Path.reroot_moved (hf : f {} = {}) (levels : Nat) (path : Path) :
    (path.moved f).reroot levels = (path.reroot levels).moved f := by
  obtain ⟨segments, leadingColon⟩ := path
  have hspan : ((movedSegments f segments).head?.map (·.ident.span)).getD .unknown =
      f ((segments.head?.map (·.ident.span)).getD .unknown) := by
    rcases segments with _ | ⟨⟨ident, args⟩, rest⟩
    · exact hf.symm
    · rfl
  have hfirst := Path.firstName?_moved (f := f) ⟨segments, leadingColon⟩
  simp only [Path.moved] at hfirst
  simp only [Path.reroot, Path.moved, hfirst, hspan, supers_moved]
  split <;> simp only [movedSegments_eq_map, List.map_append, List.map_drop]

/-- A visibility is re-rooted alike elsewhere, or refused there too. -/
theorem Visibility.reroot_moved (hf : f {} = {}) (vis : Visibility) (levels : Int) :
    (vis.moved f).reroot levels = (vis.reroot levels).map (Edit.map (Visibility.moved f)) := by
  have hby : (vis.moved f).rerootBy levels.toNat =
      (vis.rerootBy levels.toNat).map (Visibility.moved f) := by
    cases vis with
    | inherited =>
      have hsupers := supers_moved (f := f) levels.toNat .unknown
      rw [hf] at hsupers
      simp only [Visibility.moved, Visibility.rerootBy, Edit.map_replace, Path.moved,
        movedSegments_eq_map, ← hsupers]
    | restricted path hasIn =>
      simp only [Visibility.moved, Visibility.rerootBy, Path.firstName?_moved, Path.reroot_moved hf]
      split <;> rfl
    | pub | crate | unknown kind => rfl
  rw [Visibility.reroot, Visibility.reroot, hby]
  split <;> rfl

/-- A visibility that is inherited is so wherever it would stand. -/
theorem Visibility.isInherited_moved (vis : Visibility) :
    (vis.moved f).isInherited = vis.isInherited := by
  cases vis <;> rfl

/-! ## Plans -/

/-- **The plan of a method that stands elsewhere.** -/
theorem Method.plan_moved (hf : f {} = {}) (m : Method) (head : MockHead) (generics : Generics)
    (levels : Int) :
    (m.moved f).plan (head.moved f) (generics.moved f) levels =
      do return MethodPlan.moved f (← (m.plan head generics levels).moved f) := by
  have hfacts := m.facts_moved hf (some generics)
  have hvis : (if (m.moved f).vis.isInherited then (head.moved f).defaultVis else (m.moved f).vis) =
      (if m.vis.isInherited then head.defaultVis else m.vis).moved f := by
    rw [show (m.moved f).vis = m.vis.moved f from rfl, Visibility.isInherited_moved]
    split <;> rfl
  have hmock : mockIdent (head.moved f).struct = (mockIdent head.struct).moved f := rfl
  have hinterface : (head.moved f).interface = head.interface := rfl
  simp only [Option.map_some] at hfacts
  rw [Method.plan.eq_def, Method.plan.eq_def]
  simp only [hfacts, hvis, hmock, hinterface, moved_bind, moved_pure, Checked.bind_assoc,
    Checked.pure_bind, MethodFacts.moved, lowerOutput_moved, liftArgTypes_moved hf, moved_ofExcept,
    Visibility.reroot_moved hf, ofExcept_map, Edit.apply_map]
  rfl

/-- Methods are planned alike elsewhere, one by one. -/
theorem planMethods_moved (hf : f {} = {}) (head : MockHead) (generics : Generics) (levels : Int) :
    ∀ methods : List Method,
      planMethods (head.moved f) (generics.moved f) levels (methods.map (Method.moved f)) =
        do return (← (planMethods head generics levels methods).moved f).map (MethodPlan.moved f)
  | [] => rfl
  | m :: rest => by
    simp only [List.map_cons, planMethods, m.plan_moved hf,
      planMethods_moved hf head generics levels rest, moved_bind, moved_pure, Checked.bind_assoc,
      Checked.pure_bind]

/-- What an item is for moves with it. -/
theorem Item.targetSpan_moved (hf : f {} = {}) (item : Item) :
    (item.moved f).targetSpan = f item.targetSpan := by
  cases item with
  | traitDecl d => rfl
  | implDecl d => exact d.selfTy.span_moved hf

/-- **An item is planned alike elsewhere.** -/
theorem Item.plan_moved (hf : f {} = {}) (item : Item) (levels : Int) :
    (item.moved f).plan levels =
      do return (← (item.plan levels).moved f).map (MockPlan.moved f) := by
  have hmethods : (item.moved f).methods = item.methods.map (Method.moved f) := by
    cases item <;> rfl
  have hgenerics : (item.moved f).generics = item.generics.moved f := by
    cases item <;> rfl
  have hspan : (item.moved f).span = f item.span := by
    cases item <;> rfl
  rw [Item.plan, Item.plan, item.mockHead?_moved]
  cases item.mockHead? with
  | none =>
    simp only [Option.map_none, item.targetSpan_moved hf, moved_bind, moved_report, moved_pure,
      Checked.bind_assoc, Checked.pure_bind]
  | some head =>
    simp only [Option.map_some, hmethods, hgenerics, hspan, planMethods_moved hf, moved_bind,
      moved_pure, Checked.bind_assoc, Checked.pure_bind]
    rfl

/-- Items are planned alike elsewhere, one by one. -/
theorem planItems_moved (hf : f {} = {}) (levels : Int) : ∀ items : List Item,
    planItems levels (items.map (Item.moved f)) =
      do return (← (planItems levels items).moved f).map (MockPlan.moved f)
  | [] => rfl
  | item :: rest => by
    simp only [List.map_cons, planItems, item.plan_moved hf, planItems_moved hf levels rest,
      moved_bind, moved_pure, Checked.bind_assoc, Checked.pure_bind, Option.toList_map,
      List.map_append]

/-- **The plan of a declaration file that stands elsewhere**: the same plan and the same reports,
there. -/
theorem DeclFile.plan_moved (hf : f {} = {}) (decls : DeclFile) (levels : Int) :
    (decls.moved f).plan levels =
      do return (← (decls.plan levels).moved f).map (MockPlan.moved f) :=
  planItems_moved hf levels decls.items

/-- Running the plan of a declaration file that stands elsewhere. -/
theorem DeclFile.run_plan_moved (hf : f {} = {}) (decls : DeclFile) (levels : Int)
    (policy : Policy) : ((decls.moved f).plan levels).run policy =
      ⟨((decls.plan levels).run policy).result.map (List.map (MockPlan.moved f)),
        ((decls.plan levels).run policy).reports.map (Diagnostic.moved f)⟩ := by
  rw [decls.plan_moved hf, run_bind, run_moved]
  rcases (decls.plan levels).run policy with ⟨_ | plans, reports⟩
  · rfl
  · simp only [run_pure, List.append_nil, Except.map]

/-- **Files that are the same up to places are planned the same up to places.** -/
theorem DeclFile.exists_run_plan (hf : f {} = {}) {decls decls' : DeclFile}
    (h : decls.moved f = decls'.moved f) {levels : Int} {policy : Policy} {plans : List MockPlan}
    {reports : List Diagnostic} (hplan : (decls.plan levels).run policy = ⟨.ok plans, reports⟩) :
    ∃ plans' reports', (decls'.plan levels).run policy = ⟨.ok plans', reports'⟩ ∧
      plans.map (MockPlan.moved f) = plans'.map (MockPlan.moved f) ∧
      reports.map (Diagnostic.moved f) = reports'.map (Diagnostic.moved f) := by
  have hmoved := decls.run_plan_moved hf levels policy
  rw [h, decls'.run_plan_moved hf, hplan] at hmoved
  rcases hplan' : (decls'.plan levels).run policy with ⟨_ | plans', reports'⟩
  · rw [hplan'] at hmoved
    cases (Outcome.mk.inj hmoved).1
  · rw [hplan'] at hmoved
    obtain ⟨hplans, hreports⟩ := Outcome.mk.inj hmoved
    exact ⟨plans', reports', rfl, (Except.ok.inj hplans).symm, hreports.symm⟩

end TraitMock
