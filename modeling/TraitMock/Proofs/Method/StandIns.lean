import Mathlib.Data.List.Forall2
import Mathlib.Data.List.Nodup
import TraitMock.Proofs.Method.Normalize
import TraitMock.Proofs.Report.Laws

/-!
# Proofs/Method/StandIns — what a matcher is handed

Every argument that is bound by a name has one stand-in, in order, and the stand-in is well typed:
the expression that hands the argument on has the type it is said to have, which is a type of
references to what the stand-in itself holds.

* `Expr.HasType` — the types of the expressions that hand arguments on.
* `Param.ReadsAs` — normalizing a parameter leaves its name, its type, and whether it is a receiver,
  even where it is reported.
* `Method.exists_facts` — so a method can be classified whatever is wrong with its parameters.
* `Method.wellTyped_standIns` — stand-ins are aligned with the bound arguments, and well typed.
-/

namespace TraitMock

/-! ## Types of expressions -/

/-- **An expression has a type** where names have those of a scope: a name has its own, and a
reference has that of the references to what is behind it. -/
inductive Expr.HasType (scope : String → Option Ty) : Expr → Ty → Prop
  | name {ident : Ident} {span : Span} {ty : Ty} (h : scope ident.name = some ty) :
      HasType scope (.name ident span) ty
  | ref {expr : Expr} {ty : Ty} (isMut : Bool) (span place : Span) (h : HasType scope expr ty) :
      HasType scope (.ref expr isMut span) (.reference ty none isMut place)

/-- Whether a type is one of references. -/
def Ty.isReference : Ty → Bool
  | .reference _ _ _ _ => true
  | _ => false

/-! ## Bound arguments -/

/-- **An argument that is bound by a name**, whatever else its pattern says. -/
structure BoundArg where
  ident : Ident
  patSpan : Span
  ty : Ty
  span : Span

namespace Param

/-- The argument that a parameter binds by a name. -/
def bound? : Param → Option BoundArg
  | .typed (.ident ident _ _ _ patSpan) ty span => some ⟨ident, patSpan, ty, span⟩
  | _ => none

/-- Two parameters of which the same is read: who hands them on, under what name and of what
type. -/
structure ReadsAs (p q : Param) : Prop where
  bound : q.bound? = p.bound?
  ty : q.ty? = p.ty?
  receiver : q.isReceiver = p.isReceiver

theorem ReadsAs.refl (p : Param) : p.ReadsAs p := ⟨rfl, rfl, rfl⟩

theorem readsAs_withoutMut (p : Param) : p.ReadsAs p.withoutMut where
  bound := by
    unfold withoutMut
    split <;> rfl
  ty := ty?_withoutMut p
  receiver := by
    unfold withoutMut
    split <;> rfl

/-- Normalizing a parameter leaves what is read of it, even where it is reported. -/
theorem exists_normalize (p : Param) :
    ∃ e reports, p.normalize.run .collect = ⟨.ok e, reports⟩ ∧ p.ReadsAs (e.apply p) := by
  match p with
  | .receiver .value true _ _ => exact ⟨_, _, rfl, readsAs_withoutMut _⟩
  | .receiver .value false _ _ | .receiver .ref _ _ _ | .receiver .refMut _ _ _ =>
    exact ⟨_, _, rfl, .refl _⟩
  | .typed (.wild _) _ _ | .typed (.tuple _ _) _ _ | .typed (.unknown _) _ _ =>
    exact ⟨_, _, rfl, .refl _⟩
  | .typed (.ident _ true _ none _) _ _ | .typed (.ident _ true _ (some _) _) _ _
  | .typed (.ident _ false _ (some _) _) _ _ | .typed (.ident _ false false none _) _ _ =>
    exact ⟨_, _, rfl, .refl _⟩
  | .typed (.ident _ false true none _) _ _ => exact ⟨_, _, rfl, readsAs_withoutMut _⟩

end Param

/-- Normalizing a list of parameters leaves what is read of each of them. -/
theorem exists_normalizeParams (params : List Param) :
    ∃ edits reports, (normalizeParams params).run .collect = ⟨.ok edits, reports⟩ ∧
      List.Forall₂ Param.ReadsAs params (applyEdits params edits) := by
  induction params with
  | nil => exact ⟨_, _, rfl, .nil⟩
  | cons p rest ih =>
    obtain ⟨e, reports, hrun, hp⟩ := p.exists_normalize
    obtain ⟨es, reports', hruns, hrest⟩ := ih
    refine ⟨e :: es, reports ++ reports', ?_, .cons hp hrest⟩
    rw [normalizeParams, Checked.run_bind_ok hrun, Checked.run_bind_ok hruns]
    simp

/-! ## Stand-ins -/

/-- **A stand-in serves for the argument at a position.** -/
structure StandIn.ServesFor (a : StandIn) (position : Nat) (b : BoundArg) : Prop where
  /-- It is bound by the name of the position alone, and what is handed on are references to what it
  holds. -/
  arg : ∃ elem lifetime isMut place,
    a.arg = .typed (.ident ⟨"p" ++ toString position, b.span⟩ false false none b.span) elem b.span ∧
      a.ty = .reference elem lifetime isMut place
  /-- A reference is handed on as it is, and anything else by a reference to it. -/
  expr : a.expr =
    if b.ty.isReference then .name b.ident b.patSpan
    else .ref (.name b.ident b.patSpan) false b.span
  /-- What is handed on is of the type it is said to be of. -/
  typed : ∀ scope, scope b.ident.name = some b.ty → a.expr.HasType scope a.ty

/-- A parameter that binds an argument by a name has a stand-in that serves for it. -/
theorem Param.exists_standIn {p : Param} {b : BoundArg} (h : p.bound? = some b) (position : Nat) :
    ∃ a, p.standIn? position = some a ∧ a.ServesFor position b := by
  cases p with
  | receiver => cases h
  | typed pat ty span =>
    cases pat with
    | wild | tuple | unknown => cases h
    | ident ident byRef isMut sub patSpan =>
      obtain rfl := Option.some.inj h
      cases ty with
      | reference elem lifetime isMut place =>
        exact ⟨_, rfl, ⟨_, _, _, _, rfl, rfl⟩, rfl, fun _ hscope => .name hscope⟩
      | _ =>
        exact ⟨_, rfl, ⟨_, _, _, _, rfl, rfl⟩, rfl, fun _ hscope => .ref _ _ _ (.name hscope)⟩

/-- A parameter that binds no argument by a name has no stand-in. -/
theorem Param.standIn?_eq_none {p : Param} (h : p.bound? = none) (position : Nat) :
    p.standIn? position = none := by
  cases p with
  | receiver => rfl
  | typed pat ty span =>
    cases pat with
    | wild | tuple | unknown => rfl
    | ident => cases h

theorem standIns_eq_filterMap (position : Nat) (params : List Param) :
    standIns position params =
      (params.zipIdx position).filterMap fun place => place.1.standIn? place.2 := by
  induction params generalizing position with
  | nil => rfl
  | cons p rest ih =>
    rw [standIns, ih, List.zipIdx_cons, List.filterMap_cons]
    cases p.standIn? position <;> rfl

/-- The positions of the arguments that are bound by a name, among all parameters. -/
def boundPositions (params : List Param) : List Nat := params.findIdxs (·.bound?.isSome)

/-- A stand-in serves for the argument at a position of a list of parameters. -/
def StandIn.ServesAt (params : List Param) (a : StandIn) (position : Nat) : Prop :=
  ∃ b, params[position]?.bind Param.bound? = some b ∧ a.ServesFor position b

/-- **The stand-ins of a list of parameters** serve for its bound arguments, in order. -/
theorem standIns_serve (params : List Param) :
    List.Forall₂ (StandIn.ServesAt params) (standIns 0 params) (boundPositions params) := by
  rw [standIns_eq_filterMap, boundPositions, List.findIdxs_eq_filterMap_zipIdx]
  have hplaces : List.Forall₂ (fun place place' => place = place' ∧ place ∈ params.zipIdx)
      params.zipIdx params.zipIdx := List.forall₂_same.mpr fun place hplace => ⟨rfl, hplace⟩
  refine List.rel_filterMap ?_ hplaces
  rintro ⟨p, j⟩ _ ⟨rfl, hmem⟩
  have hp : params[j]? = some p := List.mem_zipIdx_iff_getElem?.mp hmem
  cases hb : p.bound? with
  | none =>
    dsimp only
    rw [p.standIn?_eq_none hb, hb]
    exact .none
  | some b =>
    obtain ⟨a, ha, hserves⟩ := Param.exists_standIn hb j
    dsimp only
    rw [ha, hb]
    exact .some ⟨b, by rw [hp, Option.bind_some, hb], hserves⟩

/-- The name under which a stand-in holds its argument. -/
def StandIn.name? (a : StandIn) : Option String := a.arg.bound?.map (·.ident.name)

/-- Stand-ins that serve for arguments at different positions have different names. -/
theorem nodup_names {params : List Param} {standIns : List StandIn} {positions : List Nat}
    (h : List.Forall₂ (StandIn.ServesAt params) standIns positions) (hpos : positions.Nodup) :
    (standIns.map StandIn.name?).Nodup := by
  have hnames : List.Forall₂ Eq (standIns.map StandIn.name?)
      (positions.map fun j => some ("p" ++ toString j)) := by
    rw [List.forall₂_map_left_iff, List.forall₂_map_right_iff]
    refine h.imp ?_
    rintro a j ⟨b, -, ⟨_, _, _, _, harg, -⟩, -, -⟩
    rw [StandIn.name?, harg]
    rfl
  rw [List.forall₂_eq_eq_eq] at hnames
  rw [hnames]
  refine List.Nodup.map ?_ hpos
  intro i j hij
  have hnumeral : toString i = toString j := (String.append_right_inj "p").mp (Option.some.inj hij)
  rw [Nat.toString_eq_ofList_toDigits, Nat.toString_eq_ofList_toDigits,
    String.ofList_inj] at hnumeral
  -- A numeral is read back as the position that it is written for.
  have hread := congrArg (Nat.ofDigitChars 10 · 0) hnumeral
  simpa only [Nat.ofDigitChars_toDigits (by decide : 1 < 10) (Nat.le_refl 10)] using hread

/-! ## Classified methods -/

section Reads

variable {params params' : List Param}

theorem map_bound?_eq (h : List.Forall₂ Param.ReadsAs params params') :
    params'.map Param.bound? = params.map Param.bound? := by
  induction h with
  | nil => rfl
  | cons hp _ ih => rw [List.map_cons, List.map_cons, hp.bound, ih]

theorem filterMap_ty?_eq (h : List.Forall₂ Param.ReadsAs params params') :
    params'.filterMap Param.ty? = params.filterMap Param.ty? := by
  induction h with
  | nil => rfl
  | cons hp _ ih => rw [List.filterMap_cons, List.filterMap_cons, hp.ty, ih]

theorem any_isReceiver_eq (h : List.Forall₂ Param.ReadsAs params params') :
    params'.any Param.isReceiver = params.any Param.isReceiver := by
  induction h with
  | nil => rfl
  | cons hp _ ih => rw [List.any_cons, List.any_cons, hp.receiver, ih]

/-- The stand-ins of parameters serve for those that read the same. -/
theorem standIns_serve_of_readsAs (h : List.Forall₂ Param.ReadsAs params params') :
    List.Forall₂ (StandIn.ServesAt params) (standIns 0 params') (boundPositions params) := by
  have hbound := map_bound?_eq h
  have hpositions : boundPositions params' = boundPositions params := by
    have hmap : ∀ l : List Param,
        boundPositions l = (l.map Param.bound?).findIdxs Option.isSome := by
      intro l
      rw [List.findIdxs_map]
      rfl
    rw [hmap, hmap, hbound]
  have hserves : StandIn.ServesAt params' = StandIn.ServesAt params := by
    have hmap : ∀ (l : List Param) (j : Nat),
        l[j]?.bind Param.bound? = (l.map Param.bound?)[j]?.join := by
      intro l j
      rw [List.getElem?_map]
      cases l[j]? <;> rfl
    funext a j
    rw [StandIn.ServesAt, StandIn.ServesAt, hmap, hmap, hbound]
  rw [← hpositions, ← hserves]
  exact standIns_serve params'

end Reads

/-- The dispatch of a method can always be told where problems are collected. -/
theorem CallKind.exists_ofOutput (output : Option Ty) :
    ∃ kind reports, (CallKind.ofOutput output).run .collect = ⟨.ok kind, reports⟩ := by
  unfold ofOutput
  split
  · next lifetime _ _ => cases isServedLifetime lifetime <;> exact ⟨_, _, rfl⟩
  · exact ⟨_, _, rfl⟩

/-- **What the facts of a method are read off**: parameters that read as the declared ones do, and
the result without an unnamed type. -/
structure Method.FactsRead (m : Method) (facts : MethodFacts) : Prop where
  params : List.Forall₂ Param.ReadsAs m.params facts.params
  standIns : facts.standIns = TraitMock.standIns 0 facts.params
  argTypes : facts.argTypes = m.params.filterMap Param.ty?
  isStatic : facts.isStatic = !m.params.any Param.isReceiver
  output : facts.output = m.output.map fun ty => ty.eraseImpl.apply ty

/-- Normalizing the parameters of a method leaves what is read of each of them. -/
theorem Method.exists_normalizedParams (m : Method) :
    ∃ params reports, m.normalizedParams.run .collect = ⟨.ok params, reports⟩ ∧
      reports = ((normalizeParams m.params).run .collect).reports ∧
      List.Forall₂ Param.ReadsAs m.params params := by
  obtain ⟨edits, reports, hedits, hreads⟩ := exists_normalizeParams m.params
  refine ⟨applyEdits m.params edits, reports, ?_, by rw [hedits], hreads⟩
  rw [normalizedParams, Checked.run_bind_ok hedits, Checked.run_pure, List.append_nil]

/-- **A method can be classified** where problems are collected, whatever is wrong with it. -/
theorem Method.exists_facts (m : Method) (generics : Option Generics) :
    ∃ facts reports, (m.facts generics).run .collect = ⟨.ok facts, reports⟩ ∧
      m.FactsRead facts := by
  obtain ⟨params, reports, hparams, -, hreads⟩ := m.exists_normalizedParams
  obtain ⟨kind, reports', hkind⟩ :=
    CallKind.exists_ofOutput (m.output.map fun ty => ty.eraseImpl.apply ty)
  rw [Method.facts.eq_def, Checked.run_bind_ok hparams, Checked.run_bind_ok hkind]
  exact ⟨_, _, rfl, hreads, rfl, filterMap_ty?_eq hreads,
    congrArg (!·) (any_isReceiver_eq hreads), rfl⟩

/-- **The stand-ins of a method are aligned and well typed**, whatever its parameters are and
whatever is wrong with them: where problems are collected, the method is classified, and

* its stand-ins serve, one by one, for the arguments that are bound by a name, under different
  names,
* its argument types are all the declared ones, and
* it is static exactly if it has no receiver. -/
theorem Method.wellTyped_standIns (m : Method) (generics : Option Generics) :
    ∃ facts reports, (m.facts generics).run .collect = ⟨.ok facts, reports⟩ ∧
      List.Forall₂ (StandIn.ServesAt m.params) facts.standIns (boundPositions m.params) ∧
      (facts.standIns.map StandIn.name?).Nodup ∧
      facts.argTypes = m.params.filterMap Param.ty? ∧
      (facts.isStatic ↔ ∀ p ∈ m.params, ¬ p.isReceiver) := by
  obtain ⟨facts, reports, hrun, hfacts⟩ := m.exists_facts generics
  have hserve := standIns_serve_of_readsAs hfacts.params
  rw [← hfacts.standIns] at hserve
  refine ⟨facts, reports, hrun, hserve, nodup_names hserve List.nodup_findIdxs, hfacts.argTypes, ?_⟩
  rw [hfacts.isStatic, Bool.not_eq_true', List.any_eq_false]

end TraitMock
