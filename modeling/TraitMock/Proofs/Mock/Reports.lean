import TraitMock.Proofs.Mock.Forms
import TraitMock.Proofs.Report.OneLine
import TraitMock.Proofs.Report.Reports
import TraitMock.Proofs.Walk.SelfType

/-!
# Proofs/Mock/Reports — all that can be reported on an item

Whatever is reported while an item is planned is a problem at one of its types or at the pattern of
one of its parameters, and it quotes nothing but the text of that type (`Item.reports_plan`).  The
types that the passes make keep the place and the text of those that they make them of, so this
holds for a type that has been through a pass too.
-/

namespace TraitMock

open Checked

/-- The text of a type that cannot be looked into. -/
def Ty.opaqueText? : Ty → Option String
  | .macroCall text _ | .verbatim text _ => some text
  | _ => none

/-- **A problem quotes nothing but a text**, if that. -/
def Problem.Quotes (text : Option String) (problem : Problem) : Prop :=
  ∀ quoted ∈ problem.quoted?, text = some quoted

/-- **What can be reported on an item**: a problem at one of its types, which quotes nothing but the
text of the type, or one at the pattern of a parameter, which quotes nothing. -/
inductive Item.MayReport (item : Item) : Diagnostic → Prop
  | type {ty : Ty} {problem : Problem} (mem : .type ty ∈ item.parts)
      (quotes : problem.Quotes ty.opaqueText?) : MayReport item (.ofProblem problem ty.span)
  | pattern {m : Method} {pat : Pat} {ty : Ty} {s : Span} {problem : Problem}
      (mem : m ∈ item.methods) (param : .typed pat ty s ∈ m.params) (quotes : problem.Quotes none) :
      MayReport item (.ofProblem problem pat.span)

variable {P : Diagnostic → Prop}

/-! ## Parts on which anything may be reported -/

/-- Whatever can be reported on a part has a property. -/
def Part.Allows (P : Diagnostic → Prop) : Part → Prop
  | .type ty => ∀ problem : Problem, problem.Quotes ty.opaqueText? → P (.ofProblem problem ty.span)
  | .path _ => True

/-- Whatever can be reported on the pattern of a parameter has a property. -/
def Param.Allows (P : Diagnostic → Prop) : Param → Prop
  | .receiver _ _ _ _ => True
  | .typed pat _ _ => ∀ problem : Problem, problem.Quotes none → P (.ofProblem problem pat.span)

/-- A problem without a text of its own quotes nothing. -/
theorem Problem.quotes_of_eq_none {problem : Problem} (h : problem.quoted? = none)
    (text : Option String) : problem.Quotes text := by
  intro quoted hquoted
  rw [h] at hquoted
  cases hquoted

/-! ## Walks -/

/-- What a walk makes of a type is opaque only where it was, and has its text. -/
theorem Ty.opaqueText?_after (p : Pass) (ty : Ty) : (ty.after p).opaqueText? = ty.opaqueText? := by
  cases ty with
  | traitObject bounds s =>
    rw [Ty.after]
    split
    · split <;> rfl
    · rfl
  | _ => rfl

/-- **A pass that complains of what it comes to**: what it says of an opaque type quotes nothing but
its text, and what it says of bounds quotes nothing. -/
structure Pass.Pertinent (p : Pass) : Prop extends p.Orderly where
  unseen : ∀ text, (p.unseen text).Quotes (some text)
  objection : ∀ {bounds problem}, p.objection bounds = some problem → problem.Quotes none

namespace Pass

theorem pertinent_superPath : superPath.Pertinent where
  toOrderly := orderly_superPath
  unseen _ _ h := h
  objection h := nomatch h

theorem pertinent_selfType (actual : Ident) (interface : Option String) :
    (selfType actual interface).Pertinent where
  toOrderly := orderly_selfType actual interface
  unseen _ _ h := h
  objection h := by
    rw [eq_of_mem_objection_selfType h]
    exact Problem.quotes_of_eq_none rfl none

/-- A walk complains of a type, at its place. -/
theorem exists_of_complaint? {p : Pass} (hp : p.Pertinent) {place : Part} {d : Diagnostic}
    (h : p.complaint? place = some d) :
    ∃ ty problem, place = .type ty ∧ problem.Quotes ty.opaqueText? ∧
      d = .ofProblem problem ty.span := by
  unfold complaint? at h
  split at h
  next text s => exact ⟨_, _, rfl, hp.unseen text, (Option.some.inj h).symm⟩
  next text s => exact ⟨_, _, rfl, hp.unseen text, (Option.some.inj h).symm⟩
  next s => exact ⟨_, _, rfl, Problem.quotes_of_eq_none rfl _, (Option.some.inj h).symm⟩
  next bounds s =>
    split at h
    · cases h
    · obtain ⟨problem, hproblem, rfl⟩ := Option.map_eq_some_iff.mp h
      exact ⟨_, problem, rfl, hp.objection hproblem, rfl⟩
  next => cases h

theorem reports_inspect {p : Pass} (hp : p.Pertinent) {places : List Part}
    (h : ∀ place ∈ places, place.Allows P) : (p.inspect places).Reports P := by
  induction places with
  | nil => exact .pure ()
  | cons place rest ih =>
    obtain ⟨hplace, hrest⟩ := List.forall_mem_cons.mp h
    refine Reports.bind ?_ fun _ _ => ih hrest
    unfold check
    split
    next fault _ => exact .fail fault
    next =>
      split
      next d hcomplaint =>
        obtain ⟨ty, problem, rfl, hquotes, rfl⟩ := exists_of_complaint? hp hcomplaint
        exact .emit (hplace problem hquotes)
      next => exact .pure ()

/-- **Every pass keeps what can be reported.** -/
theorem keeps_allows {p : Pass} (hp : p.Orderly) : p.Keeps (Part.Allows P) :=
  { hp with
    after := by
      rintro (ty | path) h
      · intro problem hquotes
        rw [Ty.opaqueText?_after] at hquotes
        rw [Ty.span_after]
        exact h problem hquotes
      · trivial
    sole := fun _ _ _ => trivial }

end Pass

variable {ty : Ty}

/-- **A walk reports on the types inside** the type it walks over. -/
theorem Ty.reports_walk {p : Pass} (hp : p.Pertinent) (h : AllParts (Part.Allows P) ty.parts) :
    (ty.walk p).Reports P := by
  obtain ⟨e, hwalk, -, -⟩ := Ty.walks hp.toOrderly ty
  rw [hwalk]
  refine (Pass.reports_inspect hp fun place hplace => ?_).map fun _ => e
  cases place with
  | path path => trivial
  | type inner => exact h _ (Ty.places_within p ty inner hplace)

theorem Ty.allows_eraseImpl (h : AllParts (Part.Allows P) ty.parts) :
    AllParts (Part.Allows P) (ty.eraseImpl.apply ty).parts :=
  Ty.forall_mem_parts_eraseImpl h fun _ _ himpl => ⟨himpl, trivial, himpl⟩

/-- Any problem that quotes nothing can be reported on a type itself. -/
theorem Ty.allows_of_parts (h : AllParts (Part.Allows P) ty.parts) {problem : Problem}
    (hquoted : problem.quoted? = none) : P (.ofProblem problem ty.span) :=
  h _ ty.mem_parts problem (Problem.quotes_of_eq_none hquoted _)

/-! ## Methods -/

theorem Param.reports_normalize {param : Param} (h : param.Allows P) :
    param.normalize.Reports P := by
  unfold normalize
  split
  next => exact .pure _
  next => exact .pure _
  next => exact .bind (.report (h _ (Problem.quotes_of_eq_none rfl _))) fun _ _ => .pure _
  next =>
    refine .reportIf _ (h _ (Problem.quotes_of_eq_none rfl _)) fun _ =>
      .reportIf _ (h _ (Problem.quotes_of_eq_none rfl _)) fun _ => ?_
    split <;> exact .pure _
  next => exact .bind (.report (h _ (Problem.quotes_of_eq_none rfl _))) fun _ _ => .pure _

theorem reports_normalizeParams {params : List Param} (h : ∀ param ∈ params, param.Allows P) :
    (normalizeParams params).Reports P := by
  induction params with
  | nil => exact .pure _
  | cons param rest ih =>
    obtain ⟨hparam, hrest⟩ := List.forall_mem_cons.mp h
    exact .bind (Param.reports_normalize hparam) fun _ _ => (ih hrest).map _

theorem CallKind.reports_ofOutput {output : Option Ty}
    (h : ∀ ty ∈ output, AllParts (Part.Allows P) ty.parts) : (ofOutput output).Reports P := by
  unfold ofOutput
  split
  next => exact .reportIf _ (Ty.allows_of_parts (h _ rfl) rfl) fun _ => .pure _
  next => exact .pure _

/-- **Whatever can be reported on a method has a property.** -/
structure Method.Allows (P : Diagnostic → Prop) (m : Method) : Prop where
  params : ∀ param ∈ m.params, param.Allows P
  parts : AllParts (Part.Allows P) m.parts

variable {m : Method}

namespace Method.Allows

theorem args (h : m.Allows P) :
    ∀ ty ∈ m.params.filterMap Param.ty?, AllParts (Part.Allows P) ty.parts :=
  fun _ hty part hpart => h.parts part (argTypeParts_subset hty hpart)

/-- What can be reported on the result can be without an unnamed type too. -/
theorem output (h : m.Allows P) :
    ∀ ty ∈ m.output.map fun ty => ty.eraseImpl.apply ty, AllParts (Part.Allows P) ty.parts := by
  intro ty hty
  obtain ⟨declared, houtput, rfl⟩ := Option.map_eq_some_iff.mp hty
  exact Ty.allows_eraseImpl fun part hpart => h.parts part (outputParts_subset houtput hpart)

end Method.Allows

theorem Method.reports_facts (h : m.Allows P) (generics : Option Generics) :
    (m.facts generics).Reports P := by
  rw [Method.facts.eq_def]
  refine .bind ((reports_normalizeParams h.params).map _) fun params _ => ?_
  exact (CallKind.reports_ofOutput h.output).map _

/-! ## Types inside the mock -/

theorem reports_liftArgType (h : AllParts (Part.Allows P) ty.parts) :
    (liftArgType ty).Reports P := by
  refine .bind (.ofExcept _) fun found _ => ?_
  split
  · exact .bind (.report (Ty.allows_of_parts h rfl)) fun _ _ => .pure _
  · exact (Ty.reports_walk Pass.pertinent_superPath h).map _

theorem reports_liftArgTypes {tys : List Ty} (h : ∀ ty ∈ tys, AllParts (Part.Allows P) ty.parts) :
    (liftArgTypes tys).Reports P := by
  induction tys with
  | nil => exact .pure _
  | cons ty rest ih =>
    obtain ⟨hty, hrest⟩ := List.forall_mem_cons.mp h
    exact .bind (reports_liftArgType hty) fun _ _ => (ih hrest).map _

/-- **A result is reported on as it was written**, also where what is lifted has been made by the
pass that replaces `Self`. -/
theorem reports_lowerOutput {output : Option Ty} {mock : Ident} {interface : Option String}
    (h : ∀ ty ∈ output, AllParts (Part.Allows P) ty.parts) :
    (lowerOutput mock interface output).Reports P := by
  cases output with
  | none => exact .pure _
  | some ty =>
    have hty := h ty rfl
    refine .bind (Ty.reports_walk (Pass.pertinent_selfType mock interface) hty) fun e he => ?_
    obtain ⟨reports, hrun⟩ := he
    have hreplaced : AllParts (Part.Allows P) (e.apply ty).parts :=
      (Pass.keeps_allows (Pass.orderly_selfType mock interface)).run_walk hrun hty
    exact (Ty.reports_walk Pass.pertinent_superPath hreplaced).map _

variable {head : MockHead} {generics : Generics} {levels : Int}

theorem Method.reports_plan (h : m.Allows P) : (m.plan head generics levels).Reports P := by
  refine .bind (reports_facts h _) fun facts hgives => ?_
  obtain ⟨facts', reports, hrun, hread⟩ := m.exists_facts (some generics)
  obtain rfl := Gives.unique ⟨reports, hrun⟩ hgives
  refine .bind (reports_lowerOutput ?_) fun output _ => ?_
  · rw [hread.output]
    exact h.output
  refine .bind (reports_liftArgTypes ?_) fun argTypes _ => ?_
  · rw [hread.argTypes]
    exact h.args
  exact .bind (.ofExcept _) fun _ _ => .pure _

theorem reports_planMethods {methods : List Method} (h : ∀ m ∈ methods, m.Allows P) :
    (planMethods head generics levels methods).Reports P := by
  induction methods with
  | nil => exact .pure _
  | cons m rest ih =>
    obtain ⟨hm, hrest⟩ := List.forall_mem_cons.mp h
    exact .bind (Method.reports_plan hm) fun _ _ => (ih hrest).map _

/-! ## Items -/

/-- All that can be reported on an item can be on its methods. -/
theorem Item.allows_mayReport {item : Item} (hm : m ∈ item.methods) : m.Allows item.MayReport where
  params
    | .receiver _ _ _ _, _ => trivial
    | .typed _ _ _, hparam => fun _ hquotes => .pattern hm hparam hquotes
  parts
    | .type _, hpart => fun _ hquotes => .type (methodParts_subset hm hpart) hquotes
    | .path _, _ => trivial

/-- **An item is reported on at its types and patterns**, and nothing is quoted but what is written
there. -/
theorem Item.reports_plan (item : Item) (levels : Int) :
    (item.plan levels).Reports item.MayReport := by
  unfold Item.plan
  split
  next hhead =>
    refine .bind (.report ?_) fun _ _ => .pure _
    cases item with
    | traitDecl d => cases hhead
    | implDecl d =>
      refine .type ?_ (Problem.quotes_of_eq_none rfl _)
      exact List.mem_append_left _
        (List.mem_append_right _ (List.mem_append_right _ d.selfTy.mem_parts))
  next head _ => exact (reports_planMethods fun _ hm => allows_mayReport hm).map _

theorem reports_planItems {items : List Item} (h : ∀ item ∈ items, (item.plan levels).Reports P) :
    (planItems levels items).Reports P := by
  induction items with
  | nil => exact .pure _
  | cons item rest ih =>
    obtain ⟨hitem, hrest⟩ := List.forall_mem_cons.mp h
    exact .bind hitem fun _ _ => (ih hrest).map _

end TraitMock
