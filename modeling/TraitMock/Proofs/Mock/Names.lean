import TraitMock.Proofs.Mock.Forms

/-!
# Proofs/Mock/Names — which mocks and which modules have the same name

A mock is named after a struct or a trait, and its module after this and the trait that is
implemented (`Item.subject?`).  Mocks have the same name if and only if what they are named after
has.  The name of a module does not say where the one name in it ends and the other begins: the
modules of two subjects have the same name if they are the same subject, and else only if an
underscore inside a name is taken for the one between two names (`Subject.Merges`,
`DeclFile.sameName_of_plan`).
-/

namespace TraitMock

/-! ## Subjects -/

/-- **What a mock is about**: the struct or the trait that it is named after, and the trait that the
struct implements, if it is about an implementation of one. -/
structure Subject where
  struct : String
  interface : Option String
  deriving DecidableEq, Repr

/-- **What the mock of an item is about**, if it can have one: the last names of the paths of an
implementation. -/
def Item.subject? : Item → Option Subject
  | .traitDecl d => some ⟨d.ident.name, none⟩
  | .implDecl d =>
    match d.selfTy, d.traitPath with
    | .path path _, none => path.lastName?.map fun struct => ⟨struct, none⟩
    | .path path _, some traitPath =>
      path.lastName?.bind fun struct => traitPath.lastName?.map fun interface =>
        ⟨struct, some interface⟩
    | _, _ => none

/-- **What the mocks of a file are about**, in its order. -/
def DeclFile.subjects (decls : DeclFile) : List Subject := decls.items.filterMap Item.subject?

namespace Subject

/-- The names that a module is called by, with an underscore between any two. -/
def glued : Subject → String
  | ⟨struct, none⟩ => struct
  | ⟨struct, some interface⟩ => struct ++ "_" ++ interface

/-- The name of the mock. -/
def mockName (s : Subject) : String := "Mock" ++ s.struct

/-- The name of the module of the expectations. -/
def moduleName (s : Subject) : String := "__mock_" ++ s.glued

/-- **Two different subjects that read the same** in the name of a module. -/
inductive Merges : Subject → Subject → Prop
  /-- What is called `A_B`, and an implementation of `B` for `A`. -/
  | whole (a b : String) : Merges ⟨a ++ "_" ++ b, none⟩ ⟨a, some b⟩
  /-- An implementation of `C` for `A_B`, and one of `B_C` for `A`.  Here `B` need not be a name and
  may be empty: then they are one of `C` for `A_`, and one of `_C` for `A`. -/
  | shifted (a b c : String) : Merges ⟨a ++ "_" ++ b, some c⟩ ⟨a, some (b ++ "_" ++ c)⟩

theorem Merges.glued_eq {s t : Subject} (h : Merges s t) : s.glued = t.glued := by
  cases h with
  | whole a b => rfl
  | shifted a b c => simp only [glued, String.append_assoc]

/-- **Two texts with an underscore in them that are the same** part at the same one, or one of them
parts at an earlier one. -/
theorem append_mark_eq {a b a' b' : String} (h : a ++ "_" ++ b = a' ++ "_" ++ b') :
    (a = a' ∧ b = b') ∨ (∃ c, a' = a ++ "_" ++ c ∧ b = c ++ "_" ++ b') ∨
      ∃ c, a = a' ++ "_" ++ c ∧ b' = c ++ "_" ++ b := by
  have hmark : "_".toList = ['_'] := by decide
  simp only [← String.toList_inj, String.toList_append, hmark, List.append_assoc,
    List.singleton_append] at h ⊢
  rcases List.append_eq_append_iff.mp h with ⟨cs, ha', hb⟩ | ⟨cs, ha, hb'⟩
  · rcases cs with _ | ⟨c, cs⟩
    · rw [List.append_nil] at ha'
      exact .inl ⟨ha'.symm, (List.cons.inj hb).2⟩
    · rw [List.cons_append, List.cons.injEq] at hb
      obtain ⟨rfl, hb⟩ := hb
      exact .inr (.inl
        ⟨.ofList cs, by rw [ha', String.toList_ofList], by rw [hb, String.toList_ofList]⟩)
  · rcases cs with _ | ⟨c, cs⟩
    · rw [List.append_nil] at ha
      exact .inl ⟨ha, (List.cons.inj hb').2.symm⟩
    · rw [List.cons_append, List.cons.injEq] at hb'
      obtain ⟨rfl, hb'⟩ := hb'
      exact .inr (.inr
        ⟨.ofList cs, by rw [ha, String.toList_ofList], by rw [hb', String.toList_ofList]⟩)

/-- **Which subjects read the same**: those that are the same, and those of which one merges with
the other. -/
theorem glued_eq_iff (s t : Subject) : s.glued = t.glued ↔ s = t ∨ Merges s t ∨ Merges t s := by
  constructor
  · intro h
    obtain ⟨a, i⟩ := s
    obtain ⟨a', i'⟩ := t
    rcases i with _ | b <;> rcases i' with _ | b'
    · obtain rfl : a = a' := h
      exact .inl rfl
    · obtain rfl : a = a' ++ "_" ++ b' := h
      exact .inr (.inl (.whole a' b'))
    · obtain rfl : a ++ "_" ++ b = a' := h
      exact .inr (.inr (.whole a b))
    · rcases append_mark_eq h with ⟨rfl, rfl⟩ | ⟨c, rfl, rfl⟩ | ⟨c, rfl, rfl⟩
      · exact .inl rfl
      · exact .inr (.inr (.shifted a c b'))
      · exact .inr (.inl (.shifted a' c b))
  · rintro (rfl | h | h)
    · rfl
    · exact h.glued_eq
    · exact h.glued_eq.symm

example : glued ⟨"A_", some "C"⟩ = glued ⟨"A", some "_C"⟩ := by decide

end Subject

/-! ## Plans -/

/-- The names in the head of a mock are those of what it is about. -/
theorem Item.names_mockHead? (item : Item) :
    item.mockHead?.map (fun head => ((mockIdent head.struct).name, head.module.name)) =
      item.subject?.map fun s => (s.mockName, s.moduleName) := by
  cases item with
  | traitDecl d => rfl
  | implDecl d =>
    obtain ⟨selfTy, traitPath, generics, methods, span⟩ := d
    cases selfTy with
    | path path s =>
      cases traitPath with
      | none =>
        simp only [mockHead?, ImplDecl.mockHead?, subject?, Path.lastName?]
        cases path.segments.getLast? <;> rfl
      | some traitPath =>
        simp only [mockHead?, ImplDecl.mockHead?, subject?, Path.lastName?]
        cases path.segments.getLast? with
        | none => rfl
        | some struct =>
          cases traitPath.segments.getLast? with
          | none => rfl
          | some interface =>
            simp only [moduleIdent, Subject.moduleName, Subject.glued, Option.map_some,
              Option.bind_some, String.append_assoc]
            rfl
    | _ => rfl

/-- **An item is planned if it can have a mock**, which is named after what it is about. -/
theorem Item.names_of_plan {item : Item} {levels : Int} {policy : Policy} {plan? : Option MockPlan}
    (h : ((item.plan levels).run policy).result = .ok plan?) :
    plan?.map (fun plan => (plan.mock.name, plan.module.name)) =
      item.subject?.map fun s => (s.mockName, s.moduleName) := by
  rw [← item.names_mockHead?]
  rw [Item.plan] at h
  cases hhead : item.mockHead? with
  | none =>
    rw [hhead] at h
    obtain ⟨-, -, hplan⟩ := Checked.result_bind_eq_ok.mp h
    cases hplan
    rfl
  | some head =>
    rw [hhead] at h
    obtain ⟨methods, -, hplan⟩ := Checked.result_bind_eq_ok.mp h
    cases hplan
    rfl

theorem names_of_planItems {levels : Int} {policy : Policy} {items : List Item}
    {plans : List MockPlan} (h : ((planItems levels items).run policy).result = .ok plans) :
    plans.map (fun plan => (plan.mock.name, plan.module.name)) =
      (items.filterMap Item.subject?).map fun s => (s.mockName, s.moduleName) := by
  induction items generalizing plans with
  | nil =>
    cases h
    rfl
  | cons item rest ih =>
    obtain ⟨plan?, hplan, h⟩ := Checked.result_bind_eq_ok.mp h
    obtain ⟨plans', hplans, h⟩ := Checked.result_bind_eq_ok.mp h
    cases h
    have hnames := Item.names_of_plan hplan
    rw [List.map_append, ih hplans, List.filterMap_cons]
    cases hsubject : item.subject? with
    | none =>
      rw [hsubject, Option.map_none, Option.map_eq_none_iff] at hnames
      rw [hnames]
      rfl
    | some s =>
      rw [hsubject, Option.map_some, Option.map_eq_some_iff] at hnames
      obtain ⟨plan, rfl, hnames⟩ := hnames
      rw [Option.toList_some, List.map_singleton, hnames]
      rfl

/-- **Which mocks and which modules of a file have the same name.**  The plans of a file are those
of its subjects, in their order.  Two mocks have the same name if and only if they are named after
the same name.  Two modules have the same name if they are about the same subject, and else only if
one of them is about what is called `A_B` and the other about an implementation of `B` for `A`, or
the one about an implementation of `C` for `A_B` and the other about one of `B_C` for `A`, where `B`
may be empty. -/
theorem DeclFile.sameName_of_plan {decls : DeclFile} {levels : Int} {policy : Policy}
    {plans : List MockPlan} {reports : List Diagnostic}
    (h : (decls.plan levels).run policy = ⟨.ok plans, reports⟩) :
    plans.length = decls.subjects.length ∧
    ∀ (i j : Nat) (s t : Subject) (plan plan' : MockPlan),
      decls.subjects[i]? = some s → plans[i]? = some plan →
      decls.subjects[j]? = some t → plans[j]? = some plan' →
        (plan.mock.name = plan'.mock.name ↔ s.struct = t.struct) ∧
        (plan.module.name = plan'.module.name ↔ s = t ∨ s.Merges t ∨ t.Merges s) := by
  have hnames := names_of_planItems (congrArg Outcome.result h)
  have hname {i : Nat} {s : Subject} {plan : MockPlan} (hs : decls.subjects[i]? = some s)
      (hplan : plans[i]? = some plan) :
      plan.mock.name = s.mockName ∧ plan.module.name = s.moduleName := by
    have hi := congrArg (·[i]?) hnames
    rw [DeclFile.subjects] at hs
    simp only [List.getElem?_map, hs, hplan, Option.map_some, Option.some.injEq,
      Prod.mk.injEq] at hi
    exact hi
  refine ⟨by simpa [DeclFile.subjects] using congrArg List.length hnames, ?_⟩
  intro i j s t plan plan' hs hplan ht hplan'
  obtain ⟨hmock, hmodule⟩ := hname hs hplan
  obtain ⟨hmock', hmodule'⟩ := hname ht hplan'
  rw [hmock, hmock', hmodule, hmodule', Subject.mockName, Subject.mockName, Subject.moduleName,
    Subject.moduleName, String.append_right_inj, String.append_right_inj, Subject.glued_eq_iff]
  exact ⟨Iff.rfl, Iff.rfl⟩

/-- Two implementations whose modules have the same name and whose mocks have not, and a third one
whose mock has the name of the first, and whose module has not. -/
theorem shiftedNames_merged :
    ∃ decls plans reports plan plan' plan'',
      DeclFile.parse none "impl C for A_B {} impl B_C for A {} impl D for A_B {}" = .ok decls ∧
      (decls.plan 2).run .collect = ⟨.ok plans, reports⟩ ∧
      decls.subjects = [⟨"A_B", some "C"⟩, ⟨"A", some "B_C"⟩, ⟨"A_B", some "D"⟩] ∧
      plans = [plan, plan', plan''] ∧
      plan.module.name = plan'.module.name ∧ plan.mock.name ≠ plan'.mock.name ∧
      plan.module.name ≠ plan''.module.name ∧ plan.mock.name = plan''.mock.name := by
  obtain ⟨decls, hparse, hdecls⟩ := exists_of_toOption
    (e := DeclFile.parse none "impl C for A_B {} impl B_C for A {} impl D for A_B {}")
    (f := fun decls => (decls.subjects,
      ((decls.plan 2).run .collect).result.toOption.map List.length))
    (b := ([⟨"A_B", some "C"⟩, ⟨"A", some "B_C"⟩, ⟨"A_B", some "D"⟩], some 3)) (by decide +kernel)
  obtain ⟨hsubjects, hplans⟩ := Prod.mk.inj hdecls
  obtain ⟨plans, reports, hrun, hlength⟩ := Checked.exists_run_of_toOption hplans
  obtain ⟨plan, plan', plan'', rfl⟩ := List.length_eq_three.mp hlength
  obtain ⟨-, hnames⟩ := DeclFile.sameName_of_plan hrun
  rw [hsubjects] at hnames
  obtain ⟨hmock, hmodule⟩ := hnames 0 1 _ _ _ _ rfl rfl rfl rfl
  obtain ⟨hmock', hmodule'⟩ := hnames 0 2 _ _ _ _ rfl rfl rfl rfl
  refine ⟨decls, _, reports, plan, plan', plan'', hparse, hrun, hsubjects, rfl,
    hmodule.mpr (.inr (.inl (.shifted "A" "B" "C"))), hmock.not.mpr (by decide),
    hmodule'.not.mpr ?_, hmock'.mpr rfl⟩
  rw [← Subject.glued_eq_iff]
  decide

/-- A trait and an implementation whose modules have the same name, though their subjects differ in
both names. -/
theorem traitAndImpl_merged :
    ∃ decls plans reports plan plan',
      DeclFile.parse none "trait A_B {} impl B for A {}" = .ok decls ∧
      (decls.plan 2).run .collect = ⟨.ok plans, reports⟩ ∧
      decls.subjects = [⟨"A_B", none⟩, ⟨"A", some "B"⟩] ∧ plans = [plan, plan'] ∧
      plan.module.name = plan'.module.name := by
  obtain ⟨decls, hparse, hdecls⟩ := exists_of_toOption
    (e := DeclFile.parse none "trait A_B {} impl B for A {}")
    (f := fun decls => (decls.subjects,
      ((decls.plan 2).run .collect).result.toOption.map (List.map fun plan => plan.module.name)))
    (b := ([⟨"A_B", none⟩, ⟨"A", some "B"⟩], some ["__mock_A_B", "__mock_A_B"])) (by decide +kernel)
  obtain ⟨hsubjects, hplans⟩ := Prod.mk.inj hdecls
  obtain ⟨plans, reports, hrun, hnames⟩ := Checked.exists_run_of_toOption hplans
  obtain ⟨plan, rest, rfl, hplan, hrest⟩ := List.map_eq_cons_iff.mp hnames
  obtain ⟨plan', rfl, hplan'⟩ := List.map_eq_singleton_iff.mp hrest
  exact ⟨decls, _, reports, plan, plan', hparse, hrun, hsubjects, rfl, hplan.trans hplan'.symm⟩

end TraitMock
