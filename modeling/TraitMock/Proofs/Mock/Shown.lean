import TraitMock.Mock.Text
import TraitMock.Proofs.Decl.RoundTrip
import TraitMock.Proofs.Mock.Depth

/-!
# Proofs/Mock/Shown — where the types of a plan stand that are shown

The types that a plan shows are of two kinds.  Those of the normalized parameters and of the
stand-ins are the declared ones, and stand where the method is declared; the types of the arguments
inside the mock and the result, which the signature shows in place of the declared one, stand two
modules below (`Item.shown_of_plan`).  So a signature is of one module as long as only its arguments
or only its result have climbing paths, and where both have it need not be
(`climbingMethod_parted`).
-/

namespace TraitMock

variable {policy : Policy}

/-! ## Paths at some depth -/

/-- **A path as it has to be written some modules below** another one, if that begins with
`super`. -/
def Path.LiftsBy (depth : Nat) (old new : Path) : Prop :=
  old.firstName? = some superName →
    ∀ m below : ModulePath, below.length = depth → new.goal (m ++ below) = old.goal m

/-- A path stands where it is written. -/
theorem Path.liftsBy_zero (path : Path) : path.LiftsBy 0 path := by
  intro _ m below hbelow
  rw [List.length_eq_zero_iff.mp hbelow, List.append_nil]

/-- A relation that every element on the left has to all is there along every pairing. -/
theorem forall₂_of_left {α β : Type} {R S : α → β → Prop} {xs : List α} {ys : List β}
    (h : List.Forall₂ R xs ys) (hS : ∀ x ∈ xs, ∀ y, S x y) : List.Forall₂ S xs ys := by
  induction h with
  | nil => exact .nil
  | cons _ _ ih =>
    obtain ⟨hx, hrest⟩ := List.forall_mem_cons.mp hS
    exact .cons (hx _) (ih hrest)

/-! ## The types that a matcher sees -/

/-- The type behind a reference, and any other type itself. -/
def Ty.pointee : Ty → Ty
  | .reference elem _ _ _ => elem
  | ty => ty

/-- The type under which an argument is handed on: a reference as it is, any other type behind
one. -/
def Ty.handed : Ty → Ty
  | .reference elem lifetime isMut s => .reference elem lifetime isMut s
  | ty => .reference ty none false ty.span

/-- The stand-in of a plain argument is of the type behind it, and is matched under the type that it
is handed on under. -/
theorem Param.standIn_of_isPlain {p : Param} (h : p.isPlain) (position : Nat) :
    (p.standIn? position).map (fun a => (a.arg.ty?, a.ty)) =
      p.ty?.map fun ty => (some ty.pointee, ty.handed) := by
  rcases isPlain_cases h with ⟨_, _, _, _, rfl⟩ | ⟨ident, s, ty, span, rfl⟩
  · rfl
  · cases ty <;> rfl

/-- **The stand-ins of plain parameters** are of the types behind the declared ones. -/
theorem standIns_of_isPlain {params : List Param} (h : ∀ p ∈ params, p.isPlain) (position : Nat) :
    (standIns position params).map (fun a => (a.arg.ty?, a.ty)) =
      (params.filterMap Param.ty?).map fun ty => (some ty.pointee, ty.handed) := by
  induction params generalizing position with
  | nil => rfl
  | cons p rest ih =>
    obtain ⟨hp, hrest⟩ := List.forall_mem_cons.mp h
    have hhead := congrArg Option.toList (Param.standIn_of_isPlain hp position)
    rw [standIns, List.map_append, ih hrest, ← Option.toList_map, hhead, Option.toList_map]
    cases ht : p.ty? with
    | none => rw [List.filterMap_cons_none ht]; rfl
    | some ty => rw [List.filterMap_cons_some ht]; rfl

/-! ## What is shown -/

/-- The declared types of the arguments of a method. -/
def Method.argTypes (m : Method) : List Ty := m.params.filterMap Param.ty?

/-- The declared result of a method, without an unnamed type. -/
def Method.erasedOutput (m : Method) : Option Ty := m.output.map fun ty => ty.eraseImpl.apply ty

/-- **A type is shown some modules below** the one it was written in, as far as a pass comes to its
paths. -/
def Ty.ShownBy (pass : Pass) (depth : Nat) (written shown : Ty) : Prop :=
  List.Forall₂ (fun old new => Path.LiftsBy depth (old.after pass) new)
    (written.pathsMet pass) shown.paths

/-- **Where the types stand that a plan shows** of a method. -/
structure MethodPlan.ShownOf (plan : MethodPlan) (m : Method) (head : MockHead) : Prop where
  /-- The signature shows arguments of the declared types, and the planned result. -/
  signature : ∃ params : List Param, params.filterMap Param.ty? = m.argTypes ∧
    plan.shown.signature = Method.render { m with params, output := plan.output }
  /-- The stand-ins are of the declared types, or of those behind them. -/
  altargs : ∃ args : List Param, args.map Param.ty? = m.argTypes.map (some ∘ Ty.pointee) ∧
    plan.shown.altargs = args.map Param.render
  /-- They are matched under the declared types, or under references to them. -/
  matchTypes : plan.shown.matchTypes = (m.argTypes.map Ty.handed).map Ty.render
  /-- The types of the arguments inside the mock stand two modules below the declared ones. -/
  argTypes : plan.shown.argTypes = plan.argTypes.map Ty.render ∧
    List.Forall₂
      (fun written planned =>
        List.Forall₂ (Path.LiftsBy 2) (Ty.pathsMet .superPath written) planned.paths)
      m.argTypes plan.argTypes
  /-- So does the result, in which `Self` stands for the mock. -/
  output : plan.shown.output = plan.output.map Ty.render ∧
    Option.Rel (Ty.ShownBy (.selfType (mockIdent head.struct) head.interface) 2)
      m.erasedOutput plan.output

/-- An argument of a method is declared with a climbing path. -/
def Method.ArgsClimb (m : Method) : Prop :=
  ∃ ty ∈ m.argTypes, ∃ path ∈ ty.paths, path.firstName? = some superName

/-- The result of a method is declared with a climbing path, or has one where `Self` stands for the
mock. -/
def Method.ResultClimbs (m : Method) (head : MockHead) : Prop :=
  let self := Pass.selfType (mockIdent head.struct) head.interface
  ∃ ty ∈ m.erasedOutput, ∃ path ∈ ty.pathsMet self, (path.after self).firstName? = some superName

/-- **A signature is of one module**, some number of them below the declaration: there its arguments
are of the declared types and its result is of the declared type, in which `Self` stands for the
mock. -/
def MethodPlan.OfOneModule (plan : MethodPlan) (m : Method) (head : MockHead) : Prop :=
  ∃ depth, (∀ ty ∈ m.argTypes, ∀ path ∈ ty.paths, path.LiftsBy depth path) ∧
    Option.Rel (Ty.ShownBy (.selfType (mockIdent head.struct) head.interface) depth) m.erasedOutput
      plan.output

/-! ## Clean plans -/

section Clean

variable {m : Method} {head : MockHead} {generics : Generics} {levels : Int} {plan : MethodPlan}

/-- The signature of a plan is the declared method with the normalized parameters. -/
theorem Method.sig_of_plan (h : (m.plan head generics levels).Yields policy plan) :
    plan.sig = { m with params := plan.facts.params } := by
  simp only [Method.plan, Checked.yields_bind, Checked.yields_pure] at h
  obtain ⟨facts, -, output, -, argTypes, -, e, -, rfl⟩ := h
  rfl

/-- A result is planned where one is declared, and is lifted by two modules. -/
theorem rel_lowerOutput {mock : Ident} {interface : Option String} {output planned : Option Ty}
    (hmock : mock.name ≠ selfName) (h : (lowerOutput mock interface output).Yields policy planned) :
    Option.Rel (Ty.ShownBy (.selfType mock interface) 2) output planned := by
  cases output with
  | none =>
    rw [lowerOutput, Checked.yields_pure] at h
    exact h ▸ .none
  | some ty =>
    simp only [lowerOutput, Checked.yields_bind, Checked.yields_pure] at h
    obtain ⟨e, he, e', he', rfl⟩ := h
    exact .some (Ty.lifts_substSelf hmock he he')

/-- Where nothing is declared to be returned, nothing is planned to be either. -/
theorem orElse_output {R : Ty → Ty → Prop} {planned : Option Ty}
    (h : Option.Rel R m.erasedOutput planned) : (planned <|> m.output) = planned := by
  unfold Method.erasedOutput at h
  cases hdeclared : m.output with
  | none => cases planned <;> rfl
  | some ty =>
    rw [hdeclared] at h
    cases h
    rfl

theorem Method.CleanPlan.shownOf (h : m.CleanPlan head generics levels policy plan)
    (hsig : plan.sig = { m with params := plan.facts.params }) : plan.ShownOf m head := by
  have hparams : plan.facts.params.filterMap Param.ty? = m.argTypes := by
    rw [h.facts.params, Param.filterMap_ty?_withoutMut, Method.argTypes]
  have hargTypes : plan.facts.argTypes = m.argTypes := h.facts.argTypes.trans hparams
  have hstandIns : plan.facts.standIns.map (fun a => (a.arg.ty?, a.ty)) =
      m.argTypes.map fun ty => (some ty.pointee, ty.handed) := by
    rw [h.facts.standIns, standIns_of_isPlain h.facts.plain, hparams]
  have houtput : Option.Rel (Ty.ShownBy (.selfType (mockIdent head.struct) head.interface) 2)
      m.erasedOutput plan.output := by
    rw [erasedOutput, ← h.facts.output]
    exact rel_lowerOutput (mockIdent_name_ne_self head.struct) h.output
  refine ⟨⟨plan.facts.params, hparams, ?_⟩, ⟨plan.facts.standIns.map (·.arg), ?_, ?_⟩, ?_,
    ⟨rfl, ?_⟩, rfl, houtput⟩
  · rw [MethodPlan.shown, hsig]
    simp only [Method.render, Method.renderWith, orElse_output houtput]
    rfl
  · have hargs := congrArg (List.map Prod.fst) hstandIns
    rw [List.map_map, List.map_map] at hargs
    rw [List.map_map]
    exact hargs
  · rw [MethodPlan.shown, List.map_map]
    rfl
  · have htypes := congrArg (List.map (Ty.render ∘ Prod.snd)) hstandIns
    rw [List.map_map, List.map_map] at htypes
    rw [List.map_map]
    exact htypes
  · rw [← hargTypes]
    refine h.argTypes.imp ?_
    rintro written _ ⟨e, he, rfl⟩
    exact Ty.lifts_liftSuper he

/-- **A signature in which only one side climbs is of one module.** -/
theorem MethodPlan.ShownOf.ofOneModule (h : plan.ShownOf m head)
    (hclimbs : ¬ (m.ArgsClimb ∧ m.ResultClimbs head)) : plan.OfOneModule m head := by
  by_cases hargs : m.ArgsClimb
  · refine ⟨0, fun ty _ path _ => path.liftsBy_zero, ?_⟩
    have hresult : ¬ m.ResultClimbs head := fun hresult => hclimbs ⟨hargs, hresult⟩
    obtain ⟨-, houtput⟩ := h.output
    unfold Method.ResultClimbs at hresult
    revert hresult houtput
    generalize m.erasedOutput = declared
    generalize plan.output = planned
    intro hresult houtput
    cases houtput with
    | none => exact .none
    | some hshown =>
      refine .some (forall₂_of_left hshown fun old hold new hsuper => ?_)
      exact absurd ⟨_, rfl, old, hold, hsuper⟩ hresult
  · exact ⟨2, fun ty hty path hpath hsuper => absurd ⟨ty, hty, path, hpath, hsuper⟩ hargs,
      h.output.2⟩

end Clean

/-- **Where the types stand that a clean plan shows**: the declared ones of the signature's
arguments and of the stand-ins in the module of the declaration, those of the arguments inside the
mock and the result two modules below.  So the signature is of one module unless its arguments and
its result both climb. -/
theorem Item.shown_of_plan {item : Item} {levels : Int} {plan : MockPlan}
    (h : (item.plan levels).Yields policy (some plan)) :
    ∃ head, item.mockHead? = some head ∧
      List.Forall₂ (fun m planned => planned.ShownOf m head ∧
        (¬ (m.ArgsClimb ∧ m.ResultClimbs head) → planned.OfOneModule m head))
        item.methods plan.methods := by
  obtain ⟨head, hhead, hplans⟩ := Item.yields_methods h
  refine ⟨head, hhead, hplans.imp fun m planned hplanned => ?_⟩
  have hshown := (Method.cleanPlan hplanned).shownOf (Method.sig_of_plan hplanned)
  exact ⟨hshown, hshown.ofOneModule⟩

/-- A method whose argument climbs, and whose result speaks of the mock. -/
theorem boxedSelf_shown :
    ∃ plan head, (boxedSelf.plan 2).Yields .collect (some plan) ∧ boxedSelf.mockHead? = some head ∧
      List.Forall₂ (fun m planned => planned.ShownOf m head ∧
        (¬ (m.ArgsClimb ∧ m.ResultClimbs head) → planned.OfOneModule m head))
        boxedSelf.methods plan.methods := by
  have hplan : (boxedSelf.plan 2).Yields .collect (some _) := rfl
  obtain ⟨head, hhead, hshown⟩ := Item.shown_of_plan hplan
  exact ⟨_, head, hplan, hhead, hshown⟩

/-- The path `super::name`. -/
def upTo (name : String) : Path := ⟨[⟨⟨superName, {}⟩, .none⟩, ⟨⟨name, {}⟩, .none⟩], false⟩

/-- Below the module that it is written in, `super::name` leads elsewhere as it stands. -/
theorem eq_zero_of_liftsBy_upTo {name : String} {depth : Nat}
    (hname : name ≠ hereName ∧ name ≠ superName) (h : (upTo name).LiftsBy depth (upTo name)) :
    depth = 0 := by
  have hgoal : ∀ m last, (upTo name).goal (m ++ [last]) = some (m ++ [name]) := by
    intro m last
    refine (ModulePath.follow_supers m [last] [name]).trans ?_
    simp [ModulePath.follow, ModulePath.step, hname]
  cases depth with
  | zero => rfl
  | succ depth =>
    have hlead := h rfl ([] ++ ["x"]) (List.replicate (depth + 1) "y") List.length_replicate
    rw [List.replicate_succ', ← List.append_assoc, hgoal, hgoal] at hlead
    simpa using congrArg List.length (Option.some.inj hlead)

/-- `trait Foo { fn f(&self, a: super::A) -> super::B; }` -/
def climbingMethod : Item :=
  .traitDecl {
    ident := ⟨"Foo", {}⟩
    methods := [{
      ident := ⟨"f", {}⟩
      params := [.receiver .ref false none {},
        .typed (.ident ⟨"a", {}⟩ false false none {}) (.path (upTo "A") {}) {}]
      output := some (.path (upTo "B") {}) }] }

/-- **Where arguments and result both climb, a signature is of no one module**, and the stand-ins
are not of the modules that the types of the arguments inside the mock are of. -/
theorem climbingMethod_parted :
    ∃ plan m planned head, (climbingMethod.plan 2).Yields .collect (some plan) ∧
      climbingMethod.methods = [m] ∧ climbingMethod.mockHead? = some head ∧
      plan.methods = [planned] ∧
      planned.shown.signature = "fn f(&self, a: super::A) -> super::super::super::B" ∧
      ¬ planned.OfOneModule m head ∧
      planned.shown.altargs = ["p1: super::A"] ∧ planned.shown.matchTypes = ["&super::A"] ∧
      planned.shown.argTypes = ["super::super::super::A"] := by
  refine ⟨_, _, _, _, rfl, rfl, rfl, rfl, by decide +kernel,
    ?_, by decide +kernel, by decide +kernel, by decide +kernel⟩
  rintro ⟨depth, hargs, houtput⟩
  obtain rfl : depth = 0 :=
    eq_zero_of_liftsBy_upTo (by decide)
      (hargs (.path (upTo "A") {}) List.mem_cons_self _ List.mem_cons_self)
  -- In the module of the declaration the lifted result leads up too far.
  cases houtput with
  | some hshown =>
    cases hshown with
    | cons hlead _ => exact absurd (hlead rfl ["x"] [] rfl) (by decide)

end TraitMock
