import TraitMock.Proofs.Decl.Planned
import TraitMock.Proofs.Method.Named
import TraitMock.Proofs.Mock.Forms
import TraitMock.Proofs.Mock.Shown

/-!
# Proofs/Mock/Signature — planned signatures are source again

The text that a plan shows as the signature of a method is read as a method, and as the planned one:
with the declared name, visibility and generics, the normalized arguments and the planned result
(`Item.signature_of_plan`).  Only an argument whose name `mut` had kept from being a keyword stands
in the way.
-/

namespace TraitMock

variable {policy : Policy}

/-! ## The name of the mock -/

theorem Terminal.spells_name_of_isIdentifier {text : String} (h : isIdentifier text) :
    Terminal.name.Spells text := by
  unfold isIdentifier at h
  split at h
  next => cases h
  next c cs htext =>
    obtain ⟨hstart, hrest⟩ := Bool.and_eq_true_iff.mp h
    have hall := List.all_eq_true.mp hrest
    rw [Spells, htext, scan, scanName, if_pos hstart, List.takeWhile_eq_self_iff.mpr hall,
      List.dropWhile_eq_nil_iff.mpr hall]

/-- **The name of a mock is no keyword**: none begins like it. -/
theorem Ident.free_mockIdent {struct : Ident} (h : isIdentifier struct.name) (span : Span) :
    (⟨(mockIdent struct).name, span⟩ : Ident).Free where
  spells := Terminal.spells_name_of_isIdentifier (isIdentifier_mockIdent h)
  avoids t ht := by
    have hall : ∀ t ∈ Terminal.all, ∀ s ∈ t.spelling?.toList, s.toList.head? ≠ some 'M' := by decide
    refine hall t (Terminal.mem_all_of_spelling ht) _
      (by rw [ht]; exact List.mem_singleton_self _) ?_
    simp [mockIdent, String.toList_append]

/-- No mock is called `super`. -/
theorem mockIdent_name_ne_super (struct : Ident) : (mockIdent struct).name ≠ superName := by
  intro h
  have hchars := congrArg (·.toList.head?) h
  simp [mockIdent, superName, String.toList_append] at hchars

/-! ## Planned results -/

/-- **A result that is cleanly planned** has been lowered, with nothing unsupported left in it. -/
theorem lowering_of_lowerOutput {mock : Ident} {interface : Option String}
    {output planned : Option Ty} (hmock : mock.name ≠ selfName)
    (h : (lowerOutput mock interface output).Yields policy planned) :
    planned = output.map (lowering mock interface .type) ∧
      ∀ ty ∈ output, Lowers mock interface .type ty := by
  cases output with
  | none =>
    rw [lowerOutput, Checked.yields_pure] at h
    exact ⟨h.symm, fun _ hty => absurd hty (Option.not_mem_none _)⟩
  | some ty =>
    simp only [lowerOutput, Checked.yields_bind, Checked.yields_pure] at h
    obtain ⟨e, he, e', he', rfl⟩ := h
    obtain ⟨-, hreplaced⟩ := Ty.run_walk_inv (Pass.orderly_selfType mock interface) he
    obtain ⟨-, hlifted⟩ := Ty.run_walk_inv Pass.orderly_superPath he'
    obtain ⟨hsupported, -⟩ := Ty.clean_substSelf hmock he
    rw [hreplaced] at hsupported hlifted
    refine ⟨?_, ?_⟩
    · rw [hreplaced, hlifted]
      rfl
    · rintro _ ⟨⟩
      refine ⟨by decide, fun part hpart => ?_⟩
      cases part with
      | type ty' => exact hsupported ty' hpart
      | path path => trivial

/-! ## Planned signatures -/

/-- The names that are keywords where a pattern begins, and names behind `mut`. -/
def hiddenNames : List String := ["mut", "ref", "_"]

/-- The name in front of a pattern, whatever stands around it. -/
def Param.name? : Param → Option String
  | .typed (.ident ident _ _ _ _) _ _ => some ident.name
  | _ => none

/-- A plain parameter can be handed on, unless its name is a hidden keyword. -/
theorem Param.handed_of_isPlain {p : Param} (h : p.withoutMut.isPlain)
    (hname : ∀ name ∈ p.name?, name ∉ hiddenNames) : p.Handed := by
  have hhidden : hiddenNames = hiddenWords.filterMap Terminal.spelling? := by decide
  rcases p with _ | ⟨pat, ty, span⟩
  · trivial
  · rcases isPlain_withoutMut_cases h with hreceiver | ⟨ident, isMut, s, _, _, heq, -⟩
    · rw [withoutMut_typed] at hreceiver
      cases hreceiver
    · cases heq
      exact fun t ht hspelling =>
        hname _ rfl (hhidden ▸ List.mem_filterMap.mpr ⟨t, ht, hspelling⟩)

/-- **The signature that a plan shows is source again**: what it shows are the declared name,
visibility and generics, the normalized arguments and the planned result, and that is what it is
read as, but for what is empty in it. -/
structure MethodPlan.IsSource (plan : MethodPlan) (m : Method) (head : MockHead) (policy : Policy) :
    Prop where
  sig : plan.sig = { m with params := plan.sig.params }
  params : m.normalizedParams.Yields policy plan.sig.params
  output : (lowerOutput (mockIdent head.struct) head.interface m.erasedOutput).Yields policy
    plan.output
  reads : (∀ p ∈ m.params, ∀ name ∈ p.name?, name ∉ hiddenNames) →
    ∃ m', Method.parse plan.shown.signature = .ok m' ∧
      m'.alike (Method.plain { plan.sig with output := plan.output }) = true ∧
      m'.render = plan.shown.signature

variable {m : Method} {head : MockHead} {generics : Generics} {levels : Int} {plan : MethodPlan}

/-- The signature that a clean plan shows is that of the planned method. -/
theorem Method.CleanPlan.planned (h : m.CleanPlan head generics levels policy plan)
    (hsig : plan.sig = { m with params := plan.facts.params }) :
    { plan.sig with output := plan.output } = m.planned (mockIdent head.struct) head.interface ∧
      plan.shown.signature = (m.planned (mockIdent head.struct) head.interface).render := by
  obtain ⟨houtput, -⟩ := lowering_of_lowerOutput (mockIdent_name_ne_self head.struct) h.output
  have hplanned : plan.output = m.output.map fun ty =>
      lowering (mockIdent head.struct) head.interface .type ty.erased := by
    rw [houtput, h.facts.output, Option.map_map]
    rfl
  have hmethod : { plan.sig with output := plan.output } =
      m.planned (mockIdent head.struct) head.interface := by
    rw [Method.planned, hsig, h.facts.params, hplanned]
  refine ⟨hmethod, ?_⟩
  rw [← hmethod, MethodPlan.shown, Method.render, Method.renderWith, Method.renderWith]
  -- Where a result is planned it is shown, and elsewhere none is declared.
  have hshown : (plan.output <|> plan.sig.output) = plan.output := by
    rw [hsig, hplanned]
    cases m.output <;> rfl
  dsimp only
  rw [hshown]
  rfl

/-- The arguments that a clean plan shows are those that normalization yields. -/
theorem Method.normalizedParams_of_plan (h : (m.plan head generics levels).Yields policy plan) :
    m.normalizedParams.Yields policy plan.sig.params := by
  simp only [Method.plan, Method.facts, Checked.yields_bind, Checked.yields_pure] at h
  obtain ⟨facts, ⟨params, hparams, dispatch, -, rfl⟩, output, -, argTypes, -, e, -, rfl⟩ := h
  exact hparams

theorem Method.CleanPlan.isSource (h : m.CleanPlan head generics levels policy plan)
    (hsig : plan.sig = { m with params := plan.facts.params })
    (hparams : m.normalizedParams.Yields policy plan.sig.params)
    (hreads : m.ReadsPlanned (mockIdent head.struct) head.interface) :
    plan.IsSource m head policy where
  sig := by rw [hsig]
  params := hparams
  output := by
    rw [erasedOutput, ← h.facts.output]
    exact h.output
  reads hnames := by
    obtain ⟨hmethod, hsignature⟩ := h.planned hsig
    obtain ⟨-, hlowers⟩ := lowering_of_lowerOutput (mockIdent_name_ne_self head.struct) h.output
    have hplannable : m.Plannable (mockIdent head.struct) head.interface := by
      refine ⟨fun p hp => Param.handed_of_isPlain ?_ (hnames p hp), fun ty hty => hlowers _ ?_⟩
      · refine h.facts.plain _ ?_
        rw [h.facts.params]
        exact List.mem_map_of_mem hp
      · rw [h.facts.output]
        exact Option.mem_map_of_mem _ hty
    obtain ⟨m', hparse, halike, hrender⟩ := hreads hplannable
    rw [hmethod, hsignature]
    exact ⟨m', hparse, halike, hrender⟩

/-- **Planned signatures are source again**: of every item of a declaration file, if it is planned
without a complaint, the signature that is shown of a method is read as the planned method, alike
but for spans and for what is empty in it, unless an argument is bound by a name that `mut` had kept
from being a keyword. -/
theorem Item.signature_of_plan {file : Option String} {text : String} {decls : DeclFile}
    (hparse : DeclFile.parse file text = .ok decls) {item : Item} (hitem : item ∈ decls.items)
    {levels : Int} {plan : MockPlan} (hplan : (item.plan levels).Yields policy (some plan)) :
    ∃ head, item.mockHead? = some head ∧
      List.Forall₂ (fun m planned => planned.IsSource m head policy) item.methods plan.methods := by
  obtain ⟨head, hhead, hplans⟩ := Item.yields_methods hplan
  obtain ⟨hparts, hformed⟩ := DeclFile.wellFormed_of_parse hparse item hitem
  have hstruct := Item.isIdentifier_struct hparts hformed hhead
  have hreads : ∀ m ∈ item.methods, m.ReadsPlanned (mockIdent head.struct) head.interface :=
    DeclFile.readsPlanned_of_parse (Ident.free_mockIdent hstruct)
      (mockIdent_name_ne_super head.struct) hparse item hitem
  refine ⟨head, hhead, ((List.forall₂_and_left _ _).mpr ⟨hreads, hplans⟩).imp ?_⟩
  rintro m planned ⟨hread, hplanned⟩
  exact (Method.cleanPlan hplanned).isSource (Method.sig_of_plan hplanned)
    (Method.normalizedParams_of_plan hplanned) hread

/-- An argument loses its `mut`, and the result, an unnamed type, becomes a box of the mock with the
path in it lifted; what is empty in the declaration is gone. -/
theorem mutArgument_signature :
    ∃ decls item plan planned m',
      DeclFile.parse none "trait Foo { fn f<>(&self, mut x: super::T<>,) -> impl Foo<super::T>; }" =
        .ok decls ∧
      item ∈ decls.items ∧ (item.plan 2).Yields .collect (some plan) ∧ plan.methods = [planned] ∧
      planned.shown.signature = "fn f(&self, x: super::T) -> Box<MockFoo<super::super::super::T>>" ∧
      Method.parse planned.shown.signature = .ok m' ∧
      m'.alike (Method.plain { planned.sig with output := planned.output }) = true := by
  obtain ⟨decls, hparse, hrun⟩ := exists_of_toOption
    (e := DeclFile.parse none
      "trait Foo { fn f<>(&self, mut x: super::T<>,) -> impl Foo<super::T>; }")
    (f := fun decls => decls.items.map fun item =>
      (item.methods.all fun m =>
          m.params.all fun p => p.name?.all fun name => !hiddenNames.contains name,
        ((item.plan 2).run .collect).result.toOption.map fun plan =>
          plan.elim [] fun plan => plan.methods.map (·.shown.signature),
        ((item.plan 2).run .collect).reports))
    (b := [(true, some ["fn f(&self, x: super::T) -> Box<MockFoo<super::super::super::T>>"], [])])
    (by decide +kernel)
  obtain ⟨item, hitems, hitem⟩ := List.map_eq_singleton_iff.mp hrun
  obtain ⟨hnames, hrun⟩ := Prod.mk.inj hitem
  obtain ⟨_ | plan, hplan, hshown⟩ := Checked.exists_yields hrun
  · cases hshown
  obtain ⟨planned, hmethods, hsignature⟩ := List.map_eq_singleton_iff.mp hshown
  have hmem : item ∈ decls.items := hitems ▸ List.mem_singleton_self _
  obtain ⟨head, -, hsources⟩ := Item.signature_of_plan hparse hmem hplan
  obtain ⟨m, hm, hsource⟩ := exists_mem_left hsources (hmethods ▸ List.mem_singleton_self planned)
  have hnames : ∀ p ∈ m.params, ∀ name ∈ p.name?, name ∉ hiddenNames := by
    intro p hp name hname
    simp only [List.all_eq_true] at hnames
    simpa [Option.mem_def.mp hname] using hnames m hm p hp
  obtain ⟨m', hparse', halike, -⟩ := hsource.reads hnames
  exact ⟨decls, item, plan, planned, m', hparse, hmem, hplan, hmethods, hsignature, hparse', halike⟩

end TraitMock
