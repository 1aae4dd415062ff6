import TraitMock.Decl.Alike
import TraitMock.Decl.Render
import Mathlib.Data.List.Forall2

/-!
# Proofs/Decl/Plain — trees without empty lists, and what a tree comes back as

The written form of a tree leaves out what is empty: angle brackets without arguments, the brackets
of generics without parameters, and a where clause without predicates.  `plain` leaves the same out
of the tree.  A tree *comes back as* another one if the second is alike the plain form of the first
and is written the same (`Ty.BackAs` and its companions); this is what reading a written tree gives.
-/

namespace TraitMock

/-! ## Plain trees -/

mutual

/-- **A type without empty angle brackets.** -/
def Ty.plain : Ty → Ty
  | .slice elem s => .slice elem.plain s
  | .array elem n s => .array elem.plain n s
  | .pointer elem m s => .pointer elem.plain m s
  | .reference elem l m s => .reference elem.plain l m s
  | .tuple elems s => .tuple (plainTypes elems) s
  | .paren elem s => .paren elem.plain s
  | .group elem s => .group elem.plain s
  | .function inputs output s => .function (plainTypes inputs) (plainOutput output) s
  | .traitObject bounds s => .traitObject (plainBounds bounds) s
  | .implTrait bounds s => .implTrait (plainBounds bounds) s
  | .infer s => .infer s
  | .never s => .never s
  | .macroCall text s => .macroCall text s
  | .verbatim text s => .verbatim text s
  | .path p s => .path p.plain s
  | .qualified self i p s => .qualified self.plain i p.plain s
  | .unknown kind => .unknown kind

/-- Types without empty angle brackets. -/
def plainTypes : List Ty → List Ty
  | [] => []
  | ty :: rest => ty.plain :: plainTypes rest

/-- A result type without empty angle brackets. -/
def plainOutput : Option Ty → Option Ty
  | none => none
  | some ty => some ty.plain

/-- **A path without empty angle brackets.** -/
def Path.plain : Path → Path
  | ⟨segments, leadingColon⟩ => ⟨plainSegments segments, leadingColon⟩

/-- Segments without empty angle brackets. -/
def plainSegments : List Segment → List Segment
  | [] => []
  | segment :: rest => segment.plain :: plainSegments rest

/-- A segment without empty angle brackets. -/
def Segment.plain : Segment → Segment
  | ⟨ident, args⟩ => ⟨ident, args.plain⟩

/-- **What is applied to a segment**: an empty list in angle brackets is nothing. -/
def SegmentArgs.plain : SegmentArgs → SegmentArgs
  | .none => .none
  | .angle [] => .none
  | .angle (arg :: rest) => .angle (arg.plain :: plainGenericArgs rest)
  | .call inputs output => .call (plainTypes inputs) (plainOutput output)

/-- Generic arguments without empty angle brackets. -/
def plainGenericArgs : List GenericArg → List GenericArg
  | [] => []
  | arg :: rest => arg.plain :: plainGenericArgs rest

/-- A generic argument without empty angle brackets. -/
def GenericArg.plain : GenericArg → GenericArg
  | .type ty => .type ty.plain
  | .lifetime name => .lifetime name
  | .binding ident ty => .binding ident ty.plain
  | .const text => .const text

/-- **A bound without empty angle brackets.** -/
def Bound.plain : Bound → Bound
  | .trait path relaxed => .trait path.plain relaxed
  | .outlives lifetime => .outlives lifetime

/-- Bounds without empty angle brackets. -/
def plainBounds : List Bound → List Bound
  | [] => []
  | bound :: rest => bound.plain :: plainBounds rest

end

/-- A parameter without empty angle brackets. -/
def GenericParam.plain : GenericParam → GenericParam
  | .type ident bounds default => .type ident (plainBounds bounds) (plainOutput default)
  | .lifetime ident bounds => .lifetime ident bounds
  | .const ident ty => .const ident ty.plain

/-- A condition without empty angle brackets. -/
def Predicate.plain : Predicate → Predicate
  | .bounded ty bounds => .bounded ty.plain (plainBounds bounds)
  | .outlives lifetime bounds => .outlives lifetime bounds
  | .equal lhs rhs => .equal lhs.plain rhs.plain

/-- Generics without empty angle brackets in their members. -/
def Generics.plain (g : Generics) : Generics :=
  { g with
    params := g.params.map GenericParam.plain
    whereClause := g.whereClause.map (·.map Predicate.plain) }

/-- **Generics as they are written**: no brackets without parameters, and no where clause without
predicates. -/
def Generics.written (g : Generics) : Generics :=
  { params := g.params
    whereClause := g.whereClause.filter (!·.isEmpty)
    hasBrackets := g.hasBrackets && !g.params.isEmpty }

/-- A visibility without empty angle brackets. -/
def Visibility.plain : Visibility → Visibility
  | .restricted path hasIn => .restricted path.plain hasIn
  | vis => vis

/-- A parameter of a method without empty angle brackets. -/
def Param.plain : Param → Param
  | .receiver kind isMut lifetime s => .receiver kind isMut lifetime s
  | .typed pat ty s => .typed pat ty.plain s

/-- **A method without what is empty in it.** -/
def Method.plain (m : Method) : Method :=
  { m with
    params := m.params.map Param.plain
    output := plainOutput m.output
    generics := m.generics.plain.written
    vis := m.vis.plain }

/-! ## What a tree comes back as -/

/-- What an identifier comes back as: one that is spelled alike. -/
def Ident.BackAs (i j : Ident) : Prop := j.name = i.name

/-- **What a type comes back as**: one alike its plain form that is written the same. -/
def Ty.BackAs (a b : Ty) : Prop := b.alike a.plain = true ∧ b.render = a.render

/-- What a segment comes back as. -/
def Segment.BackAs (a b : Segment) : Prop := b.alike a.plain = true ∧ b.render = a.render

/-- What is applied to a segment comes back as this. -/
def SegmentArgs.BackAs (a b : SegmentArgs) : Prop := b.alike a.plain = true ∧ b.render = a.render

/-- What a generic argument comes back as. -/
def GenericArg.BackAs (a b : GenericArg) : Prop := b.alike a.plain = true ∧ b.render = a.render

/-- What a bound comes back as. -/
def Bound.BackAs (a b : Bound) : Prop := b.alike a.plain = true ∧ b.render = a.render

/-- What a path comes back as; a path that has been read has no leading colon. -/
def Path.BackAs (p q : Path) : Prop :=
  p.leadingColon = false ∧ q.leadingColon = false ∧
    List.Forall₂ Segment.BackAs p.segments q.segments

/-- What a declared parameter comes back as. -/
def GenericParam.BackAs (a b : GenericParam) : Prop :=
  b.alike a.plain = true ∧ b.render = a.render

/-- What a condition comes back as. -/
def Predicate.BackAs (a b : Predicate) : Prop := b.alike a.plain = true ∧ b.render = a.render

/-- What generics come back as. -/
def Generics.BackAs (g h : Generics) : Prop :=
  List.Forall₂ GenericParam.BackAs g.params h.params ∧
    g.whereClause = none ∧ h.whereClause = none ∧ g.hasBrackets = true ∧ h.hasBrackets = true

/-- What a visibility comes back as. -/
def Visibility.BackAs (a b : Visibility) : Prop := b.alike a.plain = true ∧ b.render = a.render

/-- What a pattern comes back as. -/
def Pat.BackAs (p q : Pat) : Prop := q.alike p = true ∧ q.render = p.render

/-- What a parameter of a method comes back as. -/
def Param.BackAs (a b : Param) : Prop := b.alike a.plain = true ∧ b.render = a.render

/-- **What a method comes back as.** -/
def Method.BackAs (m n : Method) : Prop := n.alike m.plain = true ∧ n.render = m.render

/-! ## Lists that come back member by member -/

section Lists

theorem types_back {as bs : List Ty} (h : List.Forall₂ Ty.BackAs as bs) :
    alikeTypes bs (plainTypes as) = true ∧ renderTypes bs = renderTypes as := by
  induction h with
  | nil => simp [alikeTypes, plainTypes]
  | cons h _ ih => simp [alikeTypes, plainTypes, renderTypes, h.1, h.2, ih.1, ih.2]

theorem segments_back {as bs : List Segment} (h : List.Forall₂ Segment.BackAs as bs) :
    alikeSegments bs (plainSegments as) = true ∧ renderSegments bs = renderSegments as := by
  induction h with
  | nil => simp [alikeSegments, plainSegments]
  | cons h _ ih => simp [alikeSegments, plainSegments, renderSegments, h.1, h.2, ih.1, ih.2]

theorem genericArgs_back {as bs : List GenericArg} (h : List.Forall₂ GenericArg.BackAs as bs) :
    alikeGenericArgs bs (plainGenericArgs as) = true ∧
      renderGenericArgs bs = renderGenericArgs as := by
  induction h with
  | nil => simp [alikeGenericArgs, plainGenericArgs]
  | cons h _ ih =>
    simp [alikeGenericArgs, plainGenericArgs, renderGenericArgs, h.1, h.2, ih.1, ih.2]

theorem bounds_back {as bs : List Bound} (h : List.Forall₂ Bound.BackAs as bs) :
    alikeBounds bs (plainBounds as) = true ∧ renderBoundList bs = renderBoundList as := by
  induction h with
  | nil => simp [alikeBounds, plainBounds]
  | cons h _ ih => simp [alikeBounds, plainBounds, renderBoundList, h.1, h.2, ih.1, ih.2]

theorem pats_back {ps qs : List Pat} (h : List.Forall₂ Pat.BackAs ps qs) :
    alikePats qs ps = true ∧ renderPats qs = renderPats ps := by
  induction h with
  | nil => simp [alikePats]
  | cons h _ ih => simp [alikePats, renderPats, h.1, h.2, ih.1, ih.2]

/-- Members that come back as `alike` ones that are written the same. -/
theorem isEqv_back {α : Type} {alike : α → α → Bool} {plain : α → α} {render : α → String}
    {as bs : List α}
    (h : List.Forall₂ (fun a b => alike b (plain a) = true ∧ render b = render a) as bs) :
    bs.isEqv (as.map plain) alike = true ∧ bs.map render = as.map render := by
  induction h with
  | nil => simp
  | cons h _ ih => simp [List.isEqv, h.1, h.2, ih.1, ih.2]

end Lists

/-- A path comes back as one that is alike and written the same. -/
theorem Path.BackAs.back {p q : Path} (h : p.BackAs q) :
    q.alike p.plain = true ∧ q.render = p.render := by
  obtain ⟨ps, _⟩ := p
  obtain ⟨qs, _⟩ := q
  obtain ⟨rfl, rfl, hsegments⟩ := h
  obtain ⟨halike, hrender⟩ := segments_back hsegments
  simp [Path.alike, Path.plain, Path.render, halike, hrender]

/-- Generics come back as alike ones that are written the same. -/
theorem Generics.BackAs.back {g h : Generics} (hback : g.BackAs h) :
    h.alike g.plain = true ∧ h.render = g.render := by
  obtain ⟨ps, wh, br⟩ := g
  obtain ⟨qs, wh', br'⟩ := h
  obtain ⟨hparams, hg, hh, hgb, hhb⟩ := hback
  obtain ⟨halike, hrender⟩ := isEqv_back hparams
  have hempty : qs.isEmpty = ps.isEmpty := by cases hparams <;> rfl
  simp_all [Generics.alike, Generics.plain, Generics.render, alikeOption]

/-- An optional result comes back as an optional one. -/
theorem output_back : ∀ {a b : Option Ty}, Option.Rel Ty.BackAs a b →
    alikeOutput b (plainOutput a) = true ∧ renderOutput b = renderOutput a
  | _, _, .none => by simp [alikeOutput, plainOutput]
  | _, _, .some h => by simp [alikeOutput, plainOutput, renderOutput, h.1, h.2]

/-! ## Trees made of what comes back -/

section Trees

attribute [local simp] Ty.BackAs Ty.alike Ty.plain Ty.render SegmentArgs.BackAs SegmentArgs.alike
  SegmentArgs.plain SegmentArgs.render

/-- What is made of one type comes back as made of what the type comes back as. -/
theorem elem_back {elem elem' : Ty} (s s' : Span) (h : Ty.BackAs elem elem') :
    Ty.BackAs (.slice elem s) (.slice elem' s') ∧ Ty.BackAs (.paren elem s) (.paren elem' s') ∧
      (∀ n, Ty.BackAs (.array elem n s) (.array elem' n s')) ∧
        (∀ m, Ty.BackAs (.pointer elem m s) (.pointer elem' m s')) ∧
          ∀ l m, Ty.BackAs (.reference elem l m s) (.reference elem' l m s') := by
  simp [h.1, h.2]

/-- A tuple comes back element by element. -/
theorem tuple_back {elems elems' : List Ty} (s s' : Span)
    (h : List.Forall₂ Ty.BackAs elems elems') : Ty.BackAs (.tuple elems s) (.tuple elems' s') := by
  obtain ⟨halike, hrender⟩ := types_back h
  simp [halike, hrender]

/-- Unnamed types and trait objects come back bound by bound. -/
theorem boundsType_back {bounds bounds' : List Bound} (s s' : Span)
    (h : List.Forall₂ Bound.BackAs bounds bounds') :
    Ty.BackAs (.implTrait bounds s) (.implTrait bounds' s') ∧
      Ty.BackAs (.traitObject bounds s) (.traitObject bounds' s') := by
  obtain ⟨halike, hrender⟩ := bounds_back h
  simp [halike, hrender]

/-- A qualified path comes back part by part. -/
theorem qualified_back {self self' : Ty} {path path' : Path} {rest rest' : List Segment}
    (s s' : Span) (hself : Ty.BackAs self self') (hpath : Path.BackAs path path')
    (hrest : List.Forall₂ Segment.BackAs rest rest') :
    Ty.BackAs (.qualified self path.segments.length ⟨path.segments ++ rest, false⟩ s)
      (.qualified self' path'.segments.length ⟨path'.segments ++ rest', false⟩ s') := by
  obtain ⟨halike, hrender⟩ := segments_back (List.rel_append hpath.2.2 hrest)
  simp [Path.alike, Path.plain, hself.1, hself.2, halike, hrender, hpath.2.2.length_eq]

/-- Generic arguments in angle brackets come back member by member. -/
theorem angle_back {args args' : List GenericArg} (hne : args ≠ [])
    (h : List.Forall₂ GenericArg.BackAs args args') :
    SegmentArgs.BackAs (.angle args) (.angle args') := by
  cases h with
  | nil => exact absurd rfl hne
  | cons h hs =>
    obtain ⟨halike, hrender⟩ := genericArgs_back hs
    simp [alikeGenericArgs, h.1, h.2, halike, hrender]

/-- The arguments of a call signature come back part by part. -/
theorem callArgs_back {inputs inputs' : List Ty} {output output' : Option Ty}
    (hinputs : List.Forall₂ Ty.BackAs inputs inputs')
    (houtput : Option.Rel Ty.BackAs output output') :
    SegmentArgs.BackAs (.call inputs output) (.call inputs' output') := by
  obtain ⟨halike, hrender⟩ := types_back hinputs
  obtain ⟨halike', hrender'⟩ := output_back houtput
  simp [halike, hrender, halike', hrender']

/-- A function pointer comes back part by part. -/
theorem function_back {inputs inputs' : List Ty} {output output' : Option Ty} (s s' : Span)
    (hinputs : List.Forall₂ Ty.BackAs inputs inputs')
    (houtput : Option.Rel Ty.BackAs output output') :
    Ty.BackAs (.function inputs output s) (.function inputs' output' s') := by
  obtain ⟨halike, hrender⟩ := types_back hinputs
  obtain ⟨halike', hrender'⟩ := output_back houtput
  simp [halike, hrender, halike', hrender']

end Trees

end TraitMock
