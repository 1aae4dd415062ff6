import TraitMock.Proofs.Decl.Scope
import TraitMock.Proofs.Mock.Closed
import TraitMock.Proofs.Walk.SelfType

/-!
# Proofs/Mock/Depth — how far below the declaration a plan is rooted

The types of a plan stand in a module two below that of the declaration, whatever is asked for; only
the visibility is rooted as many modules below as that, if its path has no leading colon.

* `Path.goal_after_superPath` — a climbing path that is lifted leads, from two modules below, where
  it led before.
* `Item.rooted_of_plan` — in a clean plan this holds of all climbing paths of all types.
* `boxedSelf_one_below` — so where one module is asked for, types and visibility part company.
-/

namespace TraitMock

variable {policy : Policy}

/-! ## Where paths lead -/

/-- **Where a path leads** from a module; behind a leading colon it does so from the root. -/
def Path.goal (path : Path) (m : ModulePath) : Option ModulePath :=
  if path.leadingColon then ModulePath.follow [] path.names else m.resolve path.names

/-- **A path as it has to be written two modules below** another one, if that begins with
`super`. -/
def Path.Lifts (old new : Path) : Prop :=
  old.firstName? = some superName →
    ∀ m below : ModulePath, below.length = 2 → new.goal (m ++ below) = old.goal m

/-- **A climbing path is lifted** by the two modules. -/
theorem Path.lifts_after_superPath (path : Path) : path.Lifts (path.after .superPath) := by
  intro hfirst m below hbelow
  rw [← head?_names] at hfirst
  rw [goal, goal, leadingColon_after, (carries_after .superPath path).names_superPath,
    climbs, hfirst]
  cases path.leadingColon with
  | true => rfl
  | false =>
    have hne : below ≠ [] := List.ne_nil_of_length_pos (by omega)
    have hcrate : path.names.head? ≠ some crateName := by
      rw [hfirst]
      decide
    have hresolve := ModulePath.resolve_supers hne m path.names
    rw [hbelow] at hresolve
    rw [ModulePath.resolve_of_head? hcrate]
    exact hresolve

/-! ## The paths of planned types -/

/-- All paths inside a type. -/
def Ty.paths (ty : Ty) : List Path := ty.parts.filterMap Part.path?

/-- The paths of a type that a walk comes to. -/
def Ty.pathsMet (p : Pass) (ty : Ty) : List Path := (ty.places p).filterMap Part.path?

/-- The paths of places after a walk. -/
theorem paths_map_after (p : Pass) (places : List Part) :
    (places.map (Part.after p)).filterMap Part.path? =
      (places.filterMap Part.path?).map (Path.after p) := by
  induction places with
  | nil => rfl
  | cons place places ih =>
    cases place with
    | type ty => exact ih
    | path path => exact congrArg ((path.after p) :: ·) ih

/-- **The paths of a type that is cleanly lifted** are those of the old one, each of them lifted. -/
theorem Ty.paths_liftSuper {ty : Ty} {e : Edit Ty} (h : ty.liftSuper.Yields policy e) :
    (e.apply ty).paths = (ty.pathsMet .superPath).map (Path.after .superPath) := by
  obtain ⟨hwalkable, happly⟩ := Ty.run_walk_inv Pass.orderly_superPath h
  have hclears := Pass.orderly_superPath.clears (q := .superPath) fun _ => rfl
  rw [paths, ← Ty.places_eq_parts (q := .superPath) (fun _ => rfl) _ (Ty.clean_liftSuper h).1,
    happly, Ty.places_after hclears (nomatch ·) hwalkable, paths_map_after]
  rfl

/-- The paths of a type in which `Self` was replaced. -/
theorem Ty.pathsMet_substSelf {actual : Ident} {interface : Option String} {ty : Ty} {e : Edit Ty}
    (hactual : actual.name ≠ selfName) (h : (ty.substSelf actual interface).Yields policy e) :
    (e.apply ty).pathsMet .superPath =
      (ty.pathsMet (.selfType actual interface)).map (Path.after (.selfType actual interface)) := by
  have hself := Pass.orderly_selfType actual interface
  obtain ⟨hwalkable, happly⟩ := Ty.run_walk_inv hself h
  rw [pathsMet, happly, Ty.places_after (hself.clears fun _ => rfl)
    (Pass.spares_name_selfType hactual) hwalkable, paths_map_after]
  rfl

/-- **A type that is cleanly lifted** has all its paths lifted. -/
theorem Ty.lifts_liftSuper {ty : Ty} {e : Edit Ty} (h : ty.liftSuper.Yields policy e) :
    List.Forall₂ Path.Lifts (ty.pathsMet .superPath) (e.apply ty).paths := by
  rw [Ty.paths_liftSuper h, List.forall₂_map_right_iff]
  exact List.forall₂_same.mpr fun path _ => path.lifts_after_superPath

/-- **A type that is cleanly lifted behind the replacement of `Self`** has all paths lifted that
this one came to. -/
theorem Ty.lifts_substSelf {actual : Ident} {interface : Option String} {ty : Ty} {e e' : Edit Ty}
    (hactual : actual.name ≠ selfName) (h : (ty.substSelf actual interface).Yields policy e)
    (h' : (e.apply ty).liftSuper.Yields policy e') :
    List.Forall₂ (fun old new => Path.Lifts (old.after (.selfType actual interface)) new)
      (ty.pathsMet (.selfType actual interface)) (e'.apply (e.apply ty)).paths := by
  have hlifts := Ty.lifts_liftSuper h'
  rwa [Ty.pathsMet_substSelf hactual h, List.forall₂_map_left_iff] at hlifts

/-! ## Rooted plans -/

/-- **A plan whose types stand two modules below the method**, and its visibility a given number of
them: each path of a type that was written with `super` in front leads from there where it led in
the declaration.  A result that is an unnamed type is its box; and in a result `Self` stands for the
mock, and so does a trait object of nothing but the mocked trait.  A leading colon in front of a
visibility is not kept, and nothing is said of one. -/
structure MethodPlan.Rooted (plan : MethodPlan) (m : Method) (head : MockHead) (levels : Int) :
    Prop where
  argTypes : List.Forall₂ (fun written planned =>
      List.Forall₂ Path.Lifts (Ty.pathsMet .superPath written) planned.paths)
    (m.params.filterMap Param.ty?) plan.argTypes
  output : ∀ planned ∈ plan.output, ∃ written ∈ m.output.map fun ty => ty.eraseImpl.apply ty,
    let self := Pass.selfType (mockIdent head.struct) head.interface
    List.Forall₂ (fun old new => Path.Lifts (old.after self) new) (written.pathsMet self)
      planned.paths
  vis : let written := if m.vis.isInherited then head.defaultVis else m.vis
    ∀ path ∈ written.restriction?, path.leadingColon = false →
      ∀ m below : ModulePath, (below.length : Int) = levels →
        plan.vis.scope (m ++ below) = written.scope m

/-- **A clean plan of a method is rooted**: its types are lifted and its visibility is re-rooted. -/
theorem Method.CleanPlan.rooted {m : Method} {head : MockHead} {generics : Generics} {levels : Int}
    {plan : MethodPlan} (h : m.CleanPlan head generics levels policy plan) :
    plan.Rooted m head levels where
  argTypes := by
    have htypes : plan.facts.argTypes = m.params.filterMap Param.ty? := by
      rw [h.facts.argTypes, h.facts.params, Param.filterMap_ty?_withoutMut]
    rw [← htypes]
    refine h.argTypes.imp ?_
    rintro written _ ⟨e, he, rfl⟩
    exact Ty.lifts_liftSuper he
  output planned hplanned := by
    obtain ⟨written, hwritten, e, he, e', he', rfl⟩ := exists_lowered h.output hplanned
    rw [h.facts.output] at hwritten
    exact ⟨written, hwritten, Ty.lifts_substSelf (mockIdent_name_ne_self head.struct) he he'⟩
  vis := by
    obtain ⟨e, he, hplanned⟩ := h.vis
    rw [hplanned]
    exact fun _ hpath _ => Visibility.scope_of_reroot he (Option.isSome_of_mem hpath)

/-- **A clean plan is rooted**: its types two modules below the declaration, however many are asked
for, and its visibilities as many as are asked for. -/
theorem Item.rooted_of_plan {item : Item} {levels : Int} {plan : MockPlan}
    (h : (item.plan levels).Yields policy (some plan)) :
    ∃ head, item.mockHead? = some head ∧
      List.Forall₂ (fun m planned => planned.Rooted m head levels) item.methods plan.methods := by
  obtain ⟨head, hhead, hplans⟩ := Item.cleanPlans h
  exact ⟨head, hhead, hplans.imp fun _ _ => Method.CleanPlan.rooted⟩

/-- Three modules are asked for, and the types stand two below. -/
theorem boxedSelf_rooted :
    ∃ plan head, (boxedSelf.plan 3).Yields .collect (some plan) ∧ boxedSelf.mockHead? = some head ∧
      List.Forall₂ (fun m planned => planned.Rooted m head 3) boxedSelf.methods plan.methods := by
  have hplan : (boxedSelf.plan 3).Yields .collect (some _) := rfl
  obtain ⟨head, hhead, hrooted⟩ := Item.rooted_of_plan hplan
  exact ⟨_, head, hplan, hhead, hrooted⟩

/-- **One module below, the types are not rooted**: of a method in `a::b`, whose expectations are
seen from `a::b::c` as far as `a::b`, the argument type `super::T` is the `T` of the module `a`, and
the planned one the `T` of the root. -/
theorem boxedSelf_one_below :
    ∃ plan planned written lifted, (boxedSelf.plan 1).Yields .collect (some plan) ∧
      plan.methods = [planned] ∧
      (boxedSelf.methods.flatMap (·.params.filterMap Param.ty?)).flatMap Ty.paths = [written] ∧
      planned.argTypes.flatMap Ty.paths = [lifted] ∧
      planned.vis.scope (["a", "b"] ++ ["c"]) = some ["a", "b"] ∧
      written.firstName? = some superName ∧
      lifted.goal (["a", "b"] ++ ["c"]) ≠ written.goal ["a", "b"] :=
  ⟨_, _, _, _, rfl, rfl, rfl, rfl, by decide, by decide, by decide⟩

end TraitMock
