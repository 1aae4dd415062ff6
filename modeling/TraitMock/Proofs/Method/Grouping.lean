import TraitMock.Proofs.Decl.RoundTrip
import TraitMock.Proofs.Method.StandIns
import TraitMock.Proofs.Report.Clean

/-!
# Proofs/Method/Grouping — types in parentheses

A grouping, written or not, is no part of what a type says.  How a method is dispatched and how its
arguments are handed on is told by the outermost node of a type alone, though, so a reference in
groupings is taken for a type that is not one; groupings around anything else change nothing.

* `Ty.grouped`, `Ty.ungrouped` — putting groupings around a type, and taking them off.
* `Ty.IsGroupedReference` — the references that are not seen.
* `Method.grouped` — a method with groupings around its result and its arguments.
* `Method.facts_grouped` — what groupings leave as it is, and what is told without regard to them.
* `groupedReferences_missed` — neither a result nor an argument is seen to be a reference in
  parentheses.
-/

namespace TraitMock

/-! ## Groupings -/

/-- **One grouping** around a type. -/
inductive Layer
  /-- Written parentheses. -/
  | paren (span : Span)
  /-- A grouping that is not written. -/
  | group (span : Span)

/-- A type in one grouping. -/
def Layer.around : Layer → Ty → Ty
  | .paren s, ty => .paren ty s
  | .group s, ty => .group ty s

namespace Ty

variable (layers : List Layer) (ty : Ty)

/-- **A type in groupings**, the first of them outermost. -/
def grouped : Ty := layers.foldr Layer.around ty

/-- **A type without its groupings.** -/
def ungrouped : Ty → Ty
  | .paren elem _ => elem.ungrouped
  | .group elem _ => elem.ungrouped
  | ty => ty

/-- Whether a type is one of mutable references. -/
def isMutReference : Ty → Bool
  | .reference _ _ isMut _ => isMut
  | _ => false

/-- Whether a type is one of references under a lifetime that cannot be served. -/
def isUnserved : Ty → Bool
  | .reference _ lifetime _ _ => !isServedLifetime lifetime
  | _ => false

/-- **A reference in groupings**, of which there is at least one. -/
def IsGroupedReference : Prop :=
  ∃ layer layers ref, ref.isReference ∧ ty = grouped (layer :: layers) ref

@[simp] theorem grouped_nil : ty.grouped [] = ty := rfl

@[simp] theorem grouped_cons (layer : Layer) :
    ty.grouped (layer :: layers) = layer.around (ty.grouped layers) := rfl

section Around

variable (layer : Layer)

/-- Taking groupings off takes off one more just as well. -/
@[simp] theorem ungrouped_around : (layer.around ty).ungrouped = ty.ungrouped := by
  cases layer <;> rfl

/-- A grouping is seen as no reference, whatever it is around. -/
@[simp] theorem isReference_around : (layer.around ty).isReference = false := by
  cases layer <;> rfl

/-- So it is not seen as a mutable one either. -/
@[simp] theorem isMutReference_around : (layer.around ty).isMutReference = false := by
  cases layer <;> rfl

/-- Nor as a reference under a lifetime that cannot be served. -/
@[simp] theorem isUnserved_around : (layer.around ty).isUnserved = false := by
  cases layer <;> rfl

end Around

/-- Groupings are taken off again. -/
@[simp] theorem ungrouped_grouped : (ty.grouped layers).ungrouped = ty.ungrouped := by
  induction layers with
  | nil => rfl
  | cons layer rest ih => rw [grouped_cons, ungrouped_around, ih]

variable {ty}

/-- A mutable reference is a reference. -/
theorem isReference_of_isMutReference (h : ty.isMutReference) : ty.isReference := by
  cases ty with
  | reference => rfl
  | _ => cases h

/-- A reference is in no grouping. -/
theorem ungrouped_of_isReference (h : ty.isReference) : ty.ungrouped = ty := by
  cases ty with
  | reference => rfl
  | _ => cases h

/-- A type is what it is without its groupings, in groupings. -/
theorem exists_grouped (ty : Ty) : ∃ layers, ty = ty.ungrouped.grouped layers := by
  fun_induction ungrouped ty with
  | case1 elem s ih =>
    obtain ⟨layers, h⟩ := ih
    exact ⟨.paren s :: layers, congrArg (Ty.paren · s) h⟩
  | case2 elem s ih =>
    obtain ⟨layers, h⟩ := ih
    exact ⟨.group s :: layers, congrArg (Ty.group · s) h⟩
  | case3 => exact ⟨[], rfl⟩

/-- In the groupings of a reference that is not seen there is a reference. -/
theorem IsGroupedReference.ungrouped (h : ty.IsGroupedReference) : ty.ungrouped.isReference := by
  obtain ⟨layer, layers, ref, href, rfl⟩ := h
  rwa [ungrouped_grouped, ungrouped_of_isReference href]

/-- **References are seen that are not in groupings.** -/
theorem isReference_iff : ty.isReference ↔ ty.ungrouped.isReference ∧ ¬ ty.IsGroupedReference := by
  constructor
  · intro h
    refine ⟨by rwa [ungrouped_of_isReference h], ?_⟩
    rintro ⟨layer, layers, ref, -, rfl⟩
    rw [grouped_cons, isReference_around] at h
    cases h
  · rintro ⟨h, hseen⟩
    obtain ⟨layers, hty⟩ := ty.exists_grouped
    cases layers with
    | nil => rwa [hty]
    | cons layer layers => exact absurd ⟨layer, layers, _, h, hty⟩ hseen

/-- A type is seen to be a mutable reference if it is one in no grouping. -/
theorem isMutReference_iff :
    ty.isMutReference ↔ ty.ungrouped.isMutReference ∧ ¬ ty.IsGroupedReference := by
  constructor
  · intro h
    have href := isReference_of_isMutReference h
    exact ⟨by rwa [ungrouped_of_isReference href], (isReference_iff.mp href).2⟩
  · rintro ⟨h, hseen⟩
    have href := isReference_iff.mpr ⟨isReference_of_isMutReference h, hseen⟩
    rwa [ungrouped_of_isReference href] at h

/-- A reference is missed exactly where groupings are put around it. -/
theorem isReference_grouped_iff :
    (ty.grouped layers).isReference = ty.isReference ↔ (ty.isReference → layers = []) := by
  cases layers <;> simp

end Ty

/-! ## Methods in groupings -/

/-- **Groupings for the types of a method**: for its result, and for the argument at each position
among all parameters. -/
structure Groupings where
  output : List Layer
  args : Nat → List Layer

/-- An argument with groupings around its type. -/
def BoundArg.grouped (layers : List Layer) (b : BoundArg) : BoundArg :=
  { b with ty := b.ty.grouped layers }

namespace Param

/-- A parameter with groupings around its type, if it has one. -/
def grouped (layers : List Layer) : Param → Param
  | .receiver kind isMut lifetime s => .receiver kind isMut lifetime s
  | .typed pat ty s => .typed pat (ty.grouped layers) s

variable (layers : List Layer) (p : Param)

theorem bound?_grouped : (p.grouped layers).bound? = p.bound?.map (BoundArg.grouped layers) := by
  cases p with
  | receiver => rfl
  | typed pat => cases pat <;> rfl

/-- What is reported of a parameter is a matter of its pattern. -/
theorem reports_grouped : ((p.grouped layers).normalize.run .collect).reports =
    (p.normalize.run .collect).reports := by
  match p with
  | .receiver .value true _ _ | .receiver .value false _ _ | .receiver .ref _ _ _
  | .receiver .refMut _ _ _ => rfl
  | .typed (.wild _) _ _ | .typed (.tuple _ _) _ _ | .typed (.unknown _) _ _ => rfl
  | .typed (.ident _ byRef isMut none _) _ _ | .typed (.ident _ byRef isMut (some _) _) _ _ =>
    cases byRef <;> cases isMut <;> rfl

end Param

/-- **A method with groupings around its types.** -/
def Method.grouped (gs : Groupings) (m : Method) : Method :=
  { m with
    params := m.params.mapIdx fun j p => p.grouped (gs.args j)
    output := m.output.map (Ty.grouped gs.output) }

/-- What is told of the elements of a list stays where an element is changed into one of which the
same is told, whatever its position. -/
theorem map_mapIdx_of_forall {α β : Type} {f : Nat → α → α} {g : α → β}
    (h : ∀ j a, g (f j a) = g a) (l : List α) : (l.mapIdx f).map g = l.map g := by
  refine List.ext_getElem? fun j => ?_
  rw [List.getElem?_map, List.getElem?_mapIdx, Option.map_map, List.getElem?_map]
  exact congrArg (Option.map · _) (funext fun a => h j a)

/-- What is reported of a list of parameters is what is reported of each. -/
theorem flatten_reports_normalize (params : List Param) :
    ((normalizeParams params).run .collect).reports =
      (params.map fun p => (p.normalize.run .collect).reports).flatten := by
  induction params with
  | nil => rfl
  | cons p rest ih =>
    obtain ⟨e, reports, hrun, -⟩ := p.exists_normalize
    obtain ⟨es, reports', hruns, -⟩ := exists_normalizeParams rest
    rw [normalizeParams, Checked.run_bind_ok hrun, Checked.run_bind_ok hruns, List.map_cons,
      List.flatten_cons, ← ih, hrun, hruns]
    simp

namespace Method

variable (gs : Groupings) (m : Method)

theorem bound?_grouped (j : Nat) : (m.grouped gs).params[j]?.bind Param.bound? =
    (m.params[j]?.bind Param.bound?).map (BoundArg.grouped (gs.args j)) := by
  rw [grouped, List.getElem?_mapIdx]
  cases m.params[j]? with
  | none => rfl
  | some p => exact p.bound?_grouped _

/-- Groupings leave the arguments that are bound by a name at their positions. -/
theorem boundPositions_grouped :
    boundPositions (m.grouped gs).params = boundPositions m.params := by
  have hmap : ∀ l : List Param,
      boundPositions l = (l.map fun p => p.bound?.isSome).findIdxs id := by
    intro l
    rw [List.findIdxs_map]
    rfl
  rw [hmap, hmap, grouped, map_mapIdx_of_forall]
  intro j p
  rw [Param.bound?_grouped, Option.isSome_map]

/-- Groupings leave what is reported on patterns, which stand beside the types. -/
theorem reports_normalizeParams_grouped :
    ((normalizeParams (m.grouped gs).params).run .collect).reports =
      ((normalizeParams m.params).run .collect).reports := by
  rw [flatten_reports_normalize, flatten_reports_normalize, grouped, map_mapIdx_of_forall]
  exact fun j p => p.reports_grouped _

end Method

/-! ## What is told of a type -/

/-- What does not show in groupings is told of a result as before, unless it is put into them. -/
theorem any_grouped_iff {f : Ty → Bool} (hf : ∀ ty layer, f (Layer.around layer ty) = false)
    (layers : List Layer) (output : Option Ty) :
    (output.map (Ty.grouped layers)).any f = output.any f ↔ ∀ ty ∈ output, f ty → layers = [] := by
  cases output <;> cases layers <;> simp [hf]

namespace CallKind

/-- The dispatch of a call that returns a mutable reference, or does not. -/
def ofMut : Bool → CallKind
  | true => .callMut
  | false => .call

/-- How a call is dispatched tells whether it returns a mutable reference. -/
@[simp] theorem ofMut_inj {b c : Bool} : ofMut b = ofMut c ↔ b = c := by
  cases b <;> cases c <;> decide

@[simp] theorem ofMut_eq_callMut_iff {b : Bool} : ofMut b = .callMut ↔ b = true :=
  ofMut_inj (c := true)

/-- What is reported of a result. -/
def reports (output : Option Ty) : List Diagnostic :=
  (output.toList.filter Ty.isUnserved).map fun ty => .ofProblem .namedReturnLifetime ty.span

/-- **How a call is dispatched**: by `call_mut` exactly if a mutable reference is returned, and a
lifetime is reported that cannot be served. -/
theorem run_ofOutput (output : Option Ty) :
    (ofOutput output).run .collect =
      ⟨.ok (ofMut (output.any Ty.isMutReference)), reports output⟩ := by
  cases output with
  | none => rfl
  | some ty =>
    cases ty with
    | reference elem lifetime isMut s =>
      dsimp only [ofOutput]
      cases h : isServedLifetime lifetime <;> cases isMut <;>
        simp [reports, Ty.isUnserved, h] <;> rfl
    | _ => rfl

/-- Erasing an unnamed type leaves how a call is dispatched. -/
theorem ofOutput_erased (output : Option Ty) :
    ofOutput (output.map fun ty => ty.eraseImpl.apply ty) = ofOutput output := by
  cases output with
  | none => rfl
  | some ty => cases ty <;> rfl

/-- Groupings change what is reported of a result exactly if its lifetime cannot be served. -/
theorem reports_grouped_iff (layers : List Layer) (output : Option Ty) :
    reports (output.map (Ty.grouped layers)) = reports output ↔
      ∀ ty ∈ output, ty.isUnserved → layers = [] := by
  rw [reports, reports]
  cases output <;> cases layers <;> simp [List.filter_cons]

end CallKind

/-- How a method is dispatched is told by its result, and reported after its parameters. -/
theorem Method.call_of_facts {m : Method} {generics : Option Generics} {facts : MethodFacts}
    {reports : List Diagnostic} (h : (m.facts generics).run .collect = ⟨.ok facts, reports⟩) :
    facts.call = .ofMut (m.output.any Ty.isMutReference) ∧
      reports = ((normalizeParams m.params).run .collect).reports ++ CallKind.reports m.output := by
  obtain ⟨params, reports', hparams, rfl, -⟩ := m.exists_normalizedParams
  have hkind := CallKind.run_ofOutput m.output
  rw [← CallKind.ofOutput_erased] at hkind
  rw [Method.facts.eq_def, Checked.run_bind_ok hparams, Checked.run_bind_ok hkind] at h
  obtain ⟨hfacts, hreports⟩ := Outcome.mk.inj h
  obtain rfl := Except.ok.inj hfacts
  refine ⟨rfl, ?_⟩
  rw [← hreports, Checked.run_pure, List.append_nil]

/-- The number of references that an expression takes. -/
def Expr.borrows : Expr → Nat
  | .ref expr _ _ => expr.borrows + 1
  | _ => 0

/-- **What a stand-in tells of an argument**, whose type may be in groupings. -/
structure StandIn.Tells (a : StandIn) (b : BoundArg) : Prop where
  /-- The bare name is handed on of an argument that is seen to be a reference. -/
  name : a.expr = .name b.ident b.patSpan ↔ b.ty.ungrouped.isReference ∧ ¬ b.ty.IsGroupedReference
  /-- Of anything else, a reference to it. -/
  ref : a.expr = .ref (.name b.ident b.patSpan) false b.span ↔
    ¬ b.ty.ungrouped.isReference ∨ b.ty.IsGroupedReference
  /-- Together with the one that the argument is, there is one reference to what is handed on. -/
  deep : a.expr.borrows + b.ty.ungrouped.isReference.toNat = 1 ↔ ¬ b.ty.IsGroupedReference

/-- A stand-in that serves for an argument tells this of it. -/
theorem StandIn.ServesFor.tells {a : StandIn} {position : Nat} {b : BoundArg}
    (h : a.ServesFor position b) : a.Tells b := by
  have hexpr := h.expr
  have hseen := b.ty.isReference_iff
  cases href : b.ty.isReference with
  | true =>
    obtain ⟨hun, hgrouped⟩ := hseen.mp href
    rw [if_pos href] at hexpr
    exact ⟨by simp [hexpr, hun, hgrouped], by simp [hexpr, hun, hgrouped],
      by simp [hexpr, hun, hgrouped, Expr.borrows]⟩
  | false =>
    rw [href, if_neg Bool.false_ne_true] at hexpr
    have hgrouped : b.ty.IsGroupedReference ↔ b.ty.ungrouped.isReference :=
      ⟨Ty.IsGroupedReference.ungrouped, fun hun => by simpa [href, hun] using hseen⟩
    cases hun : b.ty.ungrouped.isReference <;>
      exact ⟨by simp [hexpr, hun, hgrouped], by simp [hexpr, hun, hgrouped],
        by simp [hexpr, hun, hgrouped, Expr.borrows]⟩

/-- The expression that hands an argument on stays, unless that is a reference put into
groupings. -/
theorem StandIn.ServesFor.expr_grouped_iff {a a' : StandIn} {position : Nat} {b : BoundArg}
    {layers : List Layer} (ha : a.ServesFor position b)
    (ha' : a'.ServesFor position (b.grouped layers)) :
    a'.expr = a.expr ↔ (b.ty.isReference → layers = []) := by
  rw [← Ty.isReference_grouped_iff, ha.expr, ha'.expr, BoundArg.grouped]
  cases (b.ty.grouped layers).isReference <;> cases b.ty.isReference <;> simp

/-- Lists that are both matched with a third are matched with it together. -/
theorem forall₂_zip {α β γ : Type} {R : α → γ → Prop} {S : β → γ → Prop} {as : List α} {bs : List β}
    {cs : List γ} (has : List.Forall₂ R as cs) (hbs : List.Forall₂ S bs cs) :
    List.Forall₂ (fun pair c => R pair.1 c ∧ S pair.2 c) (as.zip bs) cs := by
  induction has generalizing bs with
  | nil =>
    cases hbs
    exact .nil
  | cons ha _ ih =>
    cases hbs with
    | cons hb hrest => exact .cons ⟨ha, hb⟩ (ih hrest)

/-- **Groupings do not change how a method is classified**, but for those right around a reference.
Whatever groupings are put around the result and the arguments of a method, it is classified with
and without them where problems are collected, and

* the dispatch stays, unless it is a mutable reference that is returned and put into groupings;
* what is reported stays, unless it is a reference under a lifetime that cannot be served;
* the dispatch is by `call_mut` exactly if the result without its groupings is a mutable reference,
  and is not one in groupings;
* the stand-ins are those of the same arguments, one by one.  The expression that hands an argument
  on stays, unless it is a reference that is put into groupings, and it tells what there is to be
  told of its type without its groupings, unless that is a reference in groupings. -/
theorem Method.facts_grouped (m : Method) (generics : Option Generics) (gs : Groupings) :
    ∃ facts facts' reports reports',
      (m.facts generics).run .collect = ⟨.ok facts, reports⟩ ∧
      ((m.grouped gs).facts generics).run .collect = ⟨.ok facts', reports'⟩ ∧
      (facts'.call = facts.call ↔ ∀ ty ∈ m.output, ty.isMutReference → gs.output = []) ∧
      (reports' = reports ↔ ∀ ty ∈ m.output, ty.isUnserved → gs.output = []) ∧
      (facts.call = .callMut ↔
        ∃ ty ∈ m.output, ty.ungrouped.isMutReference ∧ ¬ ty.IsGroupedReference) ∧
      facts'.standIns.length = facts.standIns.length ∧
      List.Forall₂ (fun pair j => ∃ b, m.params[j]?.bind Param.bound? = some b ∧
          (pair.2.expr = pair.1.expr ↔ (b.ty.isReference → gs.args j = [])) ∧ pair.1.Tells b)
        (facts.standIns.zip facts'.standIns) (boundPositions m.params) := by
  obtain ⟨facts, reports, hrun, hread⟩ := m.exists_facts generics
  obtain ⟨facts', reports', hrun', hread'⟩ := (m.grouped gs).exists_facts generics
  obtain ⟨hcall, hreports⟩ := call_of_facts hrun
  obtain ⟨hcall', hreports'⟩ := call_of_facts hrun'
  rw [reports_normalizeParams_grouped] at hreports'
  have hserve := standIns_serve_of_readsAs hread.params
  have hserve' := standIns_serve_of_readsAs hread'.params
  rw [← hread.standIns] at hserve
  rw [← hread'.standIns, boundPositions_grouped] at hserve'
  refine ⟨facts, facts', reports, reports', hrun, hrun', ?_, ?_, ?_,
    hserve'.length_eq.trans hserve.length_eq.symm, (forall₂_zip hserve hserve').imp ?_⟩
  · rw [hcall, hcall', CallKind.ofMut_inj]
    exact any_grouped_iff Ty.isMutReference_around _ _
  · rw [hreports, hreports', List.append_cancel_left_eq]
    exact CallKind.reports_grouped_iff _ _
  · rw [hcall, CallKind.ofMut_eq_callMut_iff, Option.any_eq_true]
    exact exists_congr fun ty => and_congr_right fun _ => Ty.isMutReference_iff
  · rintro ⟨a, a'⟩ j ⟨⟨b, hb, ha⟩, b', hb', ha'⟩
    rw [bound?_grouped, hb] at hb'
    obtain rfl := Option.some.inj hb'
    exact ⟨b, hb, ha.expr_grouped_iff ha', ha.tells⟩

/-- Of `fn f<'a>(&'a self, x: (&u32)) -> (&'a mut u32)`, neither the result nor the argument is seen
to be a reference: without the parentheses the dispatch is by `call_mut` and the lifetime is
reported, but nothing is reported of the method, its dispatch is by `call`, and `x` is handed on as
`&x`. -/
theorem groupedReferences_missed :
    ∃ m facts reports,
      Method.parse "fn f<'a>(&'a self, x: (&u32)) -> (&'a mut u32)" = .ok m ∧
      (CallKind.ofOutput (m.output.map Ty.ungrouped)).run .collect = ⟨.ok .callMut, reports⟩ ∧
      reports.map (·.message) = [Problem.namedReturnLifetime.message] ∧
      (m.facts none).Yields .collect facts ∧ facts.call = .call ∧
      (m.params.filterMap Param.ty?).map (·.ungrouped.isReference) = [true] ∧
      facts.standIns.map (·.expr.render) = ["&x"] := by
  obtain ⟨m, hparse, hread⟩ := exists_of_toOption
    (e := Method.parse "fn f<'a>(&'a self, x: (&u32)) -> (&'a mut u32)")
    (f := fun m =>
      let seen := (CallKind.ofOutput (m.output.map Ty.ungrouped)).run .collect
      let told := (m.facts none).run .collect
      ((seen.result.toOption, seen.reports.map (·.message),
        (m.params.filterMap Param.ty?).map (·.ungrouped.isReference)),
        told.result.toOption.map fun facts => (facts.call, facts.standIns.map (·.expr.render)),
        told.reports))
    (b := ((some .callMut, [Problem.namedReturnLifetime.message], [true]),
      some (.call, ["&x"]), [])) (by decide +kernel)
  obtain ⟨hread, hrun⟩ := Prod.mk.inj hread
  obtain ⟨hseen, hread⟩ := Prod.mk.inj hread
  obtain ⟨hmessage, href⟩ := Prod.mk.inj hread
  obtain ⟨facts, hfacts, htold⟩ := Checked.exists_yields hrun
  obtain ⟨hcall, hexprs⟩ := Prod.mk.inj htold
  obtain ⟨kind, reports, hkind⟩ := CallKind.exists_ofOutput (m.output.map Ty.ungrouped)
  rw [hkind] at hseen hmessage
  obtain rfl := Option.some.inj hseen
  exact ⟨m, facts, reports, hparse, hkind, hmessage, hfacts, hcall, href, hexprs⟩

end TraitMock
