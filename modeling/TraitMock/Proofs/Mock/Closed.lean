import Mathlib.Data.List.Forall2
import TraitMock.Mock.Plan
import TraitMock.Proofs.Method.Normalize
import TraitMock.Proofs.Walk.Passes

/-!
# Proofs/Mock/Closed — a clean plan is closed

What a plan made without a complaint says about a method can be written down as it stands: the types
are of supported forms throughout, the result does not speak of `Self`, and each argument has its
stand-in.

The passes hand this on to one another.  Normalization makes every argument a plain binding, so that
it has a stand-in; the replacement of `Self` looks at everything that it leaves in the result, or
reports it; lifting adds only steps up.
-/

namespace TraitMock

variable {policy : Policy}

/-! ## Clean plans, part by part -/

/-- What stands on the right of a pairing has its partner on the left. -/
theorem exists_mem_left {α β : Type} {R : α → β → Prop} {xs : List α} {ys : List β}
    (h : List.Forall₂ R xs ys) {y : β} (hy : y ∈ ys) : ∃ x ∈ xs, R x y := by
  induction h with
  | nil => cases hy
  | cons hr _ ih =>
    rcases List.mem_cons.mp hy with rfl | hy
    · exact ⟨_, List.mem_cons_self, hr⟩
    · obtain ⟨x, hx, hr⟩ := ih hy
      exact ⟨x, List.mem_cons_of_mem _ hx, hr⟩

/-- No mock is called `Self`. -/
theorem mockIdent_name_ne_self (struct : Ident) : (mockIdent struct).name ≠ selfName := by
  intro h
  have hchars := congrArg (·.toList.head?) h
  simp [mockIdent, selfName, String.toList_append] at hchars

/-- A result that is cleanly planned has had its `Self` replaced, and has been lifted then. -/
theorem exists_lowered {mock : Ident} {interface : Option String} {output planned : Option Ty}
    (h : (lowerOutput mock interface output).Yields policy planned) {new : Ty}
    (hnew : new ∈ planned) :
    ∃ ty ∈ output, ∃ e, (ty.substSelf mock interface).Yields policy e ∧
      ∃ e', (e.apply ty).liftSuper.Yields policy e' ∧ new = e'.apply (e.apply ty) := by
  cases output with
  | none =>
    rw [lowerOutput, Checked.yields_pure] at h
    subst h
    cases hnew
  | some ty =>
    simp only [lowerOutput, Checked.yields_bind, Checked.yields_pure] at h
    obtain ⟨e, he, e', he', rfl⟩ := h
    exact ⟨ty, rfl, e, he, e', he', (Option.some.inj hnew).symm⟩

/-- The result of a method as it is cleanly planned. -/
theorem clean_lowerOutput {mock : Ident} {interface : Option String} {output planned : Option Ty}
    (hmock : mock.name ≠ selfName)
    (h : (lowerOutput mock interface output).Yields policy planned) :
    ∀ ty ∈ planned, ty.Supported ∧ ty.Selfless := by
  intro ty hty
  obtain ⟨written, -, e, he, e', he', rfl⟩ := exists_lowered h hty
  obtain ⟨-, hself⟩ := Ty.clean_substSelf hmock he
  obtain ⟨hsupported, hkeeps⟩ := Ty.clean_liftSuper he'
  exact ⟨hsupported, hkeeps hself⟩

/-- An argument type that is cleanly planned has been lifted. -/
theorem clean_liftArgType {ty planned : Ty} (h : (liftArgType ty).Yields policy planned) :
    ∃ e, ty.liftSuper.Yields policy e ∧ planned = e.apply ty := by
  simp only [liftArgType, Checked.yields_bind, Checked.yields_ofExcept] at h
  obtain ⟨found, -, h⟩ := h
  cases found with
  | true => simp at h
  | false =>
    simp only [Bool.false_eq_true, if_false, Checked.yields_bind, Checked.yields_pure] at h
    obtain ⟨e, he, rfl⟩ := h
    exact ⟨e, he, rfl⟩

/-- Argument types that are cleanly planned have been lifted one by one. -/
theorem clean_liftArgTypes {tys planned : List Ty}
    (h : (liftArgTypes tys).Yields policy planned) :
    List.Forall₂ (fun ty new => ∃ e, ty.liftSuper.Yields policy e ∧ new = e.apply ty) tys
      planned := by
  induction tys generalizing planned with
  | nil =>
    rw [liftArgTypes, Checked.yields_pure] at h
    exact h ▸ .nil
  | cons ty rest ih =>
    simp only [liftArgTypes, Checked.yields_bind, Checked.yields_pure] at h
    obtain ⟨new, hnew, news, hnews, rfl⟩ := h
    exact .cons (clean_liftArgType hnew) (ih hnews)

/-- **A clean plan of a method**, made of what its parts are planned to be. -/
structure Method.CleanPlan (m : Method) (head : MockHead) (generics : Generics) (levels : Int)
    (policy : Policy) (plan : MethodPlan) : Prop where
  facts : m.CleanFacts plan.facts
  output : (lowerOutput (mockIdent head.struct) head.interface plan.facts.output).Yields policy
    plan.output
  argTypes : List.Forall₂ (fun ty new => ∃ e, ty.liftSuper.Yields policy e ∧ new = e.apply ty)
    plan.facts.argTypes plan.argTypes
  vis : ∃ e, (if m.vis.isInherited then head.defaultVis else m.vis).reroot levels = .ok e ∧
    plan.vis = e.apply (if m.vis.isInherited then head.defaultVis else m.vis)

theorem Method.cleanPlan {m : Method} {head : MockHead} {generics : Generics} {levels : Int}
    {plan : MethodPlan} (h : (m.plan head generics levels).Yields policy plan) :
    m.CleanPlan head generics levels policy plan := by
  simp only [Method.plan, Checked.yields_bind, Checked.yields_pure, Checked.yields_ofExcept] at h
  obtain ⟨facts, hfacts, output, houtput, argTypes, hargs, e, he, rfl⟩ := h
  exact ⟨Method.cleanFacts hfacts, houtput, clean_liftArgTypes hargs, e, he, rfl⟩

/-- Methods that are cleanly planned are so one by one. -/
theorem yields_planMethods {head : MockHead} {generics : Generics} {levels : Int}
    {methods : List Method} {plans : List MethodPlan}
    (h : (planMethods head generics levels methods).Yields policy plans) :
    List.Forall₂ (fun m plan => (m.plan head generics levels).Yields policy plan) methods
      plans := by
  induction methods generalizing plans with
  | nil =>
    rw [planMethods, Checked.yields_pure] at h
    exact h ▸ .nil
  | cons m rest ih =>
    simp only [planMethods, Checked.yields_bind, Checked.yields_pure] at h
    obtain ⟨plan, hplan, plans, hplans, rfl⟩ := h
    exact .cons hplan (ih hplans)

/-- **The methods of an item that is cleanly planned**, each beside the plan that it yields. -/
theorem Item.yields_methods {item : Item} {levels : Int} {plan : MockPlan}
    (h : (item.plan levels).Yields policy (some plan)) :
    ∃ head, item.mockHead? = some head ∧
      List.Forall₂ (fun m planned => (m.plan head item.generics levels).Yields policy planned)
        item.methods plan.methods := by
  unfold Item.plan at h
  cases hhead : item.mockHead? with
  | none => simp [hhead] at h
  | some head =>
    simp only [hhead, Checked.yields_bind, Checked.yields_pure] at h
    obtain ⟨plans, hplans, hplan⟩ := h
    obtain rfl := Option.some.inj hplan
    exact ⟨head, rfl, yields_planMethods hplans⟩

/-- They are made of what their parts are planned to be. -/
theorem Item.cleanPlans {item : Item} {levels : Int} {plan : MockPlan}
    (h : (item.plan levels).Yields policy (some plan)) :
    ∃ head, item.mockHead? = some head ∧
      List.Forall₂ (fun m plan => m.CleanPlan head item.generics levels policy plan)
        item.methods plan.methods := by
  obtain ⟨head, hhead, hplans⟩ := Item.yields_methods h
  exact ⟨head, hhead, hplans.imp fun _ _ => Method.cleanPlan⟩

/-! ## Closed plans -/

/-- **A plan that is closed**: the result does not speak of `Self`, all types are supported
throughout, and there is a stand-in (its argument, the expression that is matched and the type of
that expression) for each argument. -/
structure MethodPlan.Closed (plan : MethodPlan) : Prop where
  output_selfless : ∀ ty ∈ plan.output, ty.Selfless
  output_supported : ∀ ty ∈ plan.output, ty.Supported
  argTypes_supported : ∀ ty ∈ plan.argTypes, ty.Supported
  length_standIns : plan.facts.standIns.length = plan.argTypes.length

theorem Method.CleanPlan.closed {m : Method} {head : MockHead} {generics : Generics} {levels : Int}
    {plan : MethodPlan} (h : m.CleanPlan head generics levels policy plan) : plan.Closed := by
  have houtput := clean_lowerOutput (mockIdent_name_ne_self head.struct) h.output
  refine ⟨fun ty hty => (houtput ty hty).2, fun ty hty => (houtput ty hty).1, fun ty hty => ?_, ?_⟩
  · obtain ⟨_, -, e, he, rfl⟩ := exists_mem_left h.argTypes hty
    exact (Ty.clean_liftSuper he).1
  · rw [h.facts.standIns, length_standIns h.facts.plain, ← h.facts.argTypes, h.argTypes.length_eq]

/-- **A clean plan is closed.** -/
theorem Item.closed_of_plan {item : Item} {levels : Int} {plan : MockPlan}
    (h : (item.plan levels).Yields policy (some plan)) : ∀ m ∈ plan.methods, m.Closed := by
  obtain ⟨head, -, hplans⟩ := Item.cleanPlans h
  intro m hm
  obtain ⟨_, -, hplan⟩ := exists_mem_left hplans hm
  exact hplan.closed

/-- `trait Foo { fn f(&self, mut x: super::T) -> Box<dyn Foo>; }` -/
def boxedSelf : Item :=
  let segment (name : String) (args : SegmentArgs) : Segment := ⟨⟨name, {}⟩, args⟩
  let named (segments : List Segment) : Ty := .path ⟨segments, false⟩ {}
  let object : Ty := .traitObject [.trait ⟨[segment "Foo" .none], false⟩ false] {}
  .traitDecl {
    ident := ⟨"Foo", {}⟩
    methods := [{
      ident := ⟨"f", {}⟩
      params := [.receiver .ref false none {},
        .typed (.ident ⟨"x", {}⟩ false true none {})
          (named [segment superName .none, segment "T" .none]) {}]
      output := some (named [segment "Box" (.angle [.type object])]) }] }

/-- Its plan has one method, and is closed. -/
theorem boxedSelf_closed :
    ∃ plan m, (boxedSelf.plan 2).Yields .collect (some plan) ∧ plan.methods = [m] ∧ m.Closed := by
  have hplan : (boxedSelf.plan 2).Yields .collect (some _) := rfl
  exact ⟨_, _, hplan, rfl, Item.closed_of_plan hplan _ List.mem_cons_self⟩

end TraitMock
