import Mathlib.Data.List.Basic
import TraitMock.Decl.Item
import TraitMock.Proofs.Walk.Parts
import TraitMock.Syntax.Grammar

/-!
# Proofs/Decl/ReadParts — the types and paths inside declarations

`Nonterminal.parts` lists everything inside the value of a phrase that is a type or a path, from the
types of a whole item down to the arguments of a segment.  Here are also the tools for what holds of
all that is read: of the members of lists, and of all rules, the plain ones taken together
(`Grammar.forall_rules`).
-/

namespace TraitMock

/-! ## The parts of declarations -/

/-- The parts of a declared parameter. -/
def GenericParam.parts : GenericParam → List Part
  | .type _ bounds default => boundsParts bounds ++ outputParts default
  | .lifetime _ _ => []
  | .const _ ty => ty.parts

/-- The parts of a condition. -/
def Predicate.parts : Predicate → List Part
  | .bounded ty bounds => ty.parts ++ boundsParts bounds
  | .outlives _ _ => []
  | .equal lhs rhs => lhs.parts ++ rhs.parts

/-- The parts of generics. -/
def Generics.parts (g : Generics) : List Part :=
  g.params.flatMap GenericParam.parts ++ (g.whereClause.getD []).flatMap Predicate.parts

/-- The parts of a visibility. -/
def Visibility.parts : Visibility → List Part
  | .restricted path _ => path.parts
  | _ => []

/-- The parts of a parameter. -/
def Param.parts : Param → List Part
  | .receiver _ _ _ _ => []
  | .typed _ ty _ => ty.parts

/-- **The parts of a method.** -/
def Method.parts (m : Method) : List Part :=
  m.vis.parts ++ m.generics.parts ++ m.params.flatMap Param.parts ++ outputParts m.output

/-- **The parts of an item.** -/
def Item.parts : Item → List Part
  | .traitDecl d => d.vis.parts ++ d.generics.parts ++ d.methods.flatMap Method.parts
  | .implDecl d => d.generics.parts ++ (d.traitPath.elim [] Path.parts ++ d.selfTy.parts) ++
    d.methods.flatMap Method.parts

/-- **The parts of what a phrase stands for.** -/
def Nonterminal.parts : (n : Nonterminal) → n.Val → List Part
  | .items, xs | .declFile, xs => xs.flatMap Item.parts
  | .item, x | .traitItem, x | .implItem, x => Item.parts x
  | .methods, xs => xs.flatMap Method.parts
  | .method, x => Method.parts x
  | .moreParams, xs | .params, xs => xs.flatMap Param.parts
  | .param, x | .receiver, x => Param.parts x
  | .morePatterns, _ | .pattern, _ | .visTarget, _ | .pathIdent, _ | .moreLifetimes, _
  | .lifetimeBounds, _ | .arrayLength, _ => []
  | .visibility, x => Visibility.parts x
  | .generics, x => Generics.parts x
  | .moreGenericParams, xs => xs.flatMap GenericParam.parts
  | .genericParam, x => GenericParam.parts x
  | .morePredicates, xs | .whereClause, xs => xs.flatMap Predicate.parts
  | .predicate, x => Predicate.parts x
  | .moreBounds, xs | .bounds, xs => boundsParts xs
  | .bound, x => Bound.parts x
  | .moreTypes, xs => typesParts xs
  | .typeOnly, x | .type, x | .typeNoBounds, x | .refTarget, x | .qualifiedType, x => Ty.parts x
  | .path, x => Path.parts x
  | .moreSegments, xs => segmentsParts xs
  | .segment, x => Segment.parts x
  | .segmentArgs, x => SegmentArgs.parts x
  | .moreGenericArgs, xs => argsParts xs
  | .genericArg, x => GenericArg.parts x

/-! ## Parts of lists -/

/-- The parts of types are those of each, in their order. -/
theorem typesParts_eq_flatMap (tys : List Ty) : typesParts tys = tys.flatMap Ty.parts := by
  induction tys with
  | nil => rfl
  | cons ty rest ih => rw [typesParts, ih, List.flatMap_cons]

/-- The parts of bounds are those of each, in their order. -/
theorem boundsParts_eq_flatMap (bounds : List Bound) :
    boundsParts bounds = bounds.flatMap Bound.parts := by
  induction bounds with
  | nil => rfl
  | cons bound rest ih => rw [boundsParts, ih, List.flatMap_cons]

/-- The parts of segments are those of each, in their order. -/
theorem segmentsParts_eq_flatMap (segments : List Segment) :
    segmentsParts segments = segments.flatMap Segment.parts := by
  induction segments with
  | nil => rfl
  | cons segment rest ih => rw [segmentsParts, ih, List.flatMap_cons]

/-- The parts of generic arguments are those of each, in their order. -/
theorem argsParts_eq_flatMap (args : List GenericArg) :
    argsParts args = args.flatMap GenericArg.parts := by
  induction args with
  | nil => rfl
  | cons arg rest ih => rw [argsParts, ih, List.flatMap_cons]

/-! ## Properties of parts -/

/-- **All of some parts have a property.** -/
def AllParts (P : Part → Prop) (parts : List Part) : Prop := ∀ part ∈ parts, P part

section AllParts

variable {P : Part → Prop}

@[simp] theorem allParts_nil : AllParts P [] := List.forall_mem_nil _

@[simp] theorem allParts_cons {part : Part} {rest : List Part} :
    AllParts P (part :: rest) ↔ P part ∧ AllParts P rest := List.forall_mem_cons

@[simp] theorem allParts_append {front rest : List Part} :
    AllParts P (front ++ rest) ↔ AllParts P front ∧ AllParts P rest := List.forall_mem_append

/-- What holds of the parts of all members holds of those of each. -/
theorem allParts_flatMap {α : Type} {f : α → List Part} {xs : List α} :
    AllParts P (xs.flatMap f) ↔ ∀ x ∈ xs, AllParts P (f x) := by
  simp only [AllParts, List.mem_flatMap]
  exact ⟨fun h x hx part hpart => h part ⟨x, hx, hpart⟩,
    fun h part ⟨x, hx, hpart⟩ => h x hx part hpart⟩

/-- What holds of the parts of a result holds of those of its type, if there is one. -/
theorem allParts_outputParts {o : Option Ty} :
    AllParts P (outputParts o) ↔ ∀ ty ∈ o, AllParts P ty.parts := by
  cases o <;> simp [outputParts]

end AllParts

/-! ## Members of lists

What holds of all members of a list that a rule puts together holds of all that it is put together
from. -/

namespace Grammar

variable {α : Type} {P : α → Prop}

/-- A list that is read with a first member has one. -/
theorem listed_ne_nil (x : α) (more : Option (List α × Unit)) : listed x more ≠ [] :=
  List.cons_ne_nil _ _

/-- What holds of an optional value holds of it where it has been read. -/
theorem forall_mem_only {o : Option (α × Unit)} : (∀ x ∈ only o, P x) ↔ ∀ u ∈ o, P u.1 := by
  cases o <;> simp [only]

/-- What holds of the members of an optional list holds of them where it has been read. -/
theorem forall_mem_orNil {o : Option (List α × Unit)} :
    (∀ x ∈ orNil o, P x) ↔ ∀ u ∈ o, ∀ x ∈ u.1, P x := by
  cases o <;> simp [orNil, only]

/-- What holds of all members of a list holds of the first and of the further ones. -/
theorem forall_mem_listed {x : α} {more : Option (List α × Unit)} :
    (∀ y ∈ listed x more, P y) ↔ P x ∧ ∀ u ∈ more, ∀ y ∈ u.1, P y := by
  rw [listed, List.forall_mem_cons, forall_mem_orNil]

/-- The same of a list that may be missing altogether. -/
theorem forall_mem_orEmpty {o : Option (α × Option (List α × Unit) × Option Unit × Unit)} :
    (∀ x ∈ orEmpty o, P x) ↔ ∀ u ∈ o, P u.1 ∧ ∀ v ∈ u.2.1, ∀ x ∈ v.1, P x := by
  cases o with
  | none => exact iff_of_true (List.forall_mem_nil _) nofun
  | some u =>
    rw [orEmpty, forall_mem_listed]
    simp only [Option.mem_some_iff, forall_eq']

theorem forall_mem_map_only {β : Type} {f : β → α} {o : Option (β × Unit)} :
    (∀ x ∈ (only o).map f, P x) ↔ ∀ u ∈ o, P (f u.1) := by
  cases o <;> simp [only]

theorem forall_mem_bind {o : Option (Option α × Unit)} :
    (∀ x ∈ o.bind (·.1), P x) ↔ ∀ u ∈ o, ∀ x ∈ u.1, P x := by
  cases o <;> simp

/-- An option, with what stands in its place. -/
theorem getD_of_forall {o : Option (α × Unit)} {a : α} (h : ∀ u ∈ o, P u.1) (ha : P a) :
    P ((only o).getD a) := by
  cases o with
  | none => exact ha
  | some u => exact h u rfl

/-- The parts of what is declared in front of the members of an item or a method. -/
theorem allParts_declared {P : Part → Prop} {generics : Option (Generics × Unit)}
    {clause : Option (List Predicate × Unit)} (hgenerics : ∀ u ∈ generics, AllParts P u.1.parts)
    (hclause : ∀ u ∈ clause, AllParts P (u.1.flatMap Predicate.parts)) :
    AllParts P (((only generics).getD {}).withWhere (only clause)).parts := by
  have hbare : AllParts P ((only generics).getD {}).parts :=
    getD_of_forall (P := fun g : Generics => AllParts P g.parts) hgenerics allParts_nil
  cases clause with
  | none => exact hbare
  | some u => exact allParts_append.mpr ⟨(allParts_append.mp hbare).1, hclause u rfl⟩

/-- The parts of what an implementation is for, without and with a trait. -/
theorem allParts_target {P : Part → Prop} {path : Path} {s : Span} {target : Option (Ty × Unit)}
    (hpath : AllParts P path.parts) (hself : P (.type (.path path s)))
    (htarget : ∀ u ∈ target, AllParts P u.1.parts) :
    AllParts P ((target.map fun _ => path).elim [] Path.parts) ∧
      AllParts P ((only target).getD (.path path s)).parts := by
  refine ⟨?_, getD_of_forall (P := fun ty : Ty => AllParts P ty.parts) htarget
    (allParts_cons.mpr ⟨hself, hpath⟩)⟩
  cases target with
  | none => exact allParts_nil
  | some _ => exact hpath

end Grammar

/-! ## Rules taken together -/

namespace Grammar

/-- **The plain rules**: what is said of what they build is mostly seen from how they build it.  The
others are those of traits, implementations and methods, of segments and qualified paths, and of the
atomic types. -/
def plainRules : List Rule :=
  items ++ methods ++ moreParams ++ morePatterns ++ moreGenericParams ++ moreLifetimes ++
  morePredicates ++ moreBounds ++ moreTypes ++ moreSegments ++ moreGenericArgs ++ declFile ++
  typeOnly ++ item ++ params ++ param ++ receiver ++ pattern ++ visibility ++ visTarget ++
  generics ++ genericParam ++ lifetimeBounds ++ whereClause ++ predicate ++ bounds ++ bound ++
  type ++ typeNoBounds ++ groupedType ++ refTarget ++ arrayLength ++ path ++ pathIdent ++
  segmentArgs ++ genericArg

/-- **What is so of the plain rules and of the others** is so of all rules. -/
theorem forall_rules {D : Rule → Prop} (hplain : ∀ r ∈ plainRules, D r)
    (hatomic : ∀ r ∈ atomicType, D r) (htrait : ∀ r ∈ traitItem, D r) (himpl : ∀ r ∈ implItem, D r)
    (hmethod : ∀ r ∈ method, D r) (hqualified : ∀ r ∈ qualifiedType, D r)
    (hsegment : ∀ r ∈ segment, D r) : ∀ r ∈ rules, D r := by
  rw [← List.forall_iff_forall_mem] at *
  unfold plainRules at hplain
  unfold rules
  simp only [List.forall_append] at hplain ⊢
  simp only [hplain, hatomic, htrait, himpl, hmethod, hqualified, hsegment, and_self]

end Grammar

/-! ## Parts of a whole -/

/-- A type is a part of itself, the first. -/
theorem Ty.mem_parts (ty : Ty) : .type ty ∈ ty.parts := by
  cases ty <;> exact List.mem_cons_self

/-- So is a path. -/
theorem Path.mem_parts (path : Path) : .path path ∈ path.parts := by
  obtain ⟨segments, leadingColon⟩ := path
  exact List.mem_cons_self

/-- The parts of a method are parts of its item. -/
theorem Item.methodParts_subset {item : Item} {m : Method} (h : m ∈ item.methods) :
    m.parts ⊆ item.parts := by
  intro part hpart
  have hmem := List.mem_flatMap.mpr ⟨m, h, hpart⟩
  cases item with
  | traitDecl d => exact List.mem_append_right _ hmem
  | implDecl d => exact List.mem_append_right _ hmem

/-- The parts of an argument are parts of its method. -/
theorem Method.argParts_subset {m : Method} {pat : Pat} {ty : Ty} {s : Span}
    (h : .typed pat ty s ∈ m.params) : ty.parts ⊆ m.parts := by
  intro part hpart
  have hmem : part ∈ m.params.flatMap Param.parts := List.mem_flatMap.mpr ⟨_, h, hpart⟩
  exact List.mem_append_left _ (List.mem_append_right _ hmem)

/-- The parts of a result are parts of its method. -/
theorem Method.outputParts_subset {m : Method} {ty : Ty} (h : m.output = some ty) :
    ty.parts ⊆ m.parts := by
  rw [Method.parts, h]
  exact List.subset_append_right _ _

end TraitMock
