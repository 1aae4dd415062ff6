import Mathlib.Data.List.Basic
import Mathlib.Tactic.Tauto
import TraitMock.Proofs.Decl.ReadParts
import TraitMock.Proofs.Syntax.Induction

/-!
# Proofs/Decl/PartRules — the types and paths that rules build

What a rule builds has the parts of what it is built from, and it may have a type of its own, which
stands at the place of the rule, and paths (`Rule.KeepsParts`).  This is so of every rule but the
one that builds macros (`Grammar.forall_mem_rules`), whose text comes from its tokens.
-/

namespace TraitMock

/-- The text and the span of a part that is a macro type. -/
def Part.macro? : Part → Option (String × Span)
  | .type (.macroCall text s) => some (text, s)
  | _ => none

theorem Part.macro?_eq_some_iff {part : Part} {text : String} {s : Span} :
    part.macro? = some (text, s) ↔ part = .type (.macroCall text s) := by
  constructor
  · intro h
    unfold macro? at h
    split at h
    · obtain ⟨rfl, rfl⟩ := Prod.mk.inj (Option.some.inj h)
      rfl
    · cases h
  · rintro rfl
    rfl

/-- **A rule keeps a property of parts**, if it builds no macro: the property holds of all parts of
what it builds if it holds of those of what this is built from, of all paths, and of the types at
its place that are no macros. -/
def Rule.KeepsParts (P : Part → Prop) (r : Rule) : Prop :=
  ∀ (place : Place) (vals : r.parts.Val), (∀ path, P (.path path)) →
    (∀ ty : Ty, ty.span = place.span → (Part.type ty).macro? = none → P (.type ty)) →
    r.parts.All (fun _ _ => True) (fun n v => AllParts P (n.parts v)) vals →
    AllParts P (r.lhs.parts (r.action place vals))

variable {P : Part → Prop}

namespace Grammar

/-- The rules for types without other types in them, but for the last one, which builds macros. -/
def plainAtomicType : List Rule := atomicType.take 3

/-- **The rule that builds macros.** -/
def macroType : Rule :=
  ⟨.typeNoBounds, .token .name <| .mark .bang <| .token .macroArgs .done,
    fun place (name, args, _) => .macroCall (name.text ++ "!" ++ args.text) place.span⟩

theorem atomicType_eq : atomicType = plainAtomicType ++ [macroType] := rfl

-- It is enough to see what the parts are of what a plain rule builds, and so with the atomic types.
theorem plain_keepParts : ∀ r ∈ plainRules ++ plainAtomicType, r.KeepsParts P := by
  rw [← List.forall_iff_forall_mem]
  repeat' apply And.intro
  all_goals
    intro place vals hpath hty
    simp only [Parts.Val, Parts.All, Nonterminal.Val, Nonterminal.parts,
      Ty.parts, Path.parts, Segment.parts, SegmentArgs.parts, GenericArg.parts, Bound.parts,
      Param.parts, Visibility.parts, Generics.parts, GenericParam.parts, Predicate.parts, hpath,
      Path.ofIdents, typesParts_eq_flatMap, boundsParts_eq_flatMap, segmentsParts_eq_flatMap,
      argsParts_eq_flatMap,
      allParts_nil, allParts_cons, allParts_append, allParts_flatMap, allParts_outputParts,
      forall_mem_only, forall_mem_orNil, forall_mem_listed, forall_mem_orEmpty, forall_mem_bind,
      List.append_nil, List.map_cons, List.map_nil, List.flatMap_cons, List.flatMap_nil,
      List.forall_mem_cons, List.forall_mem_append, List.not_mem_nil, Option.getD_none, forall₂_and,
      imp_self, and_self, and_true, true_and, implies_true, IsEmpty.forall_iff]
    try tauto

theorem segment_keepsParts : ∀ r ∈ segment, r.KeepsParts P := by
  refine List.forall_mem_singleton.mpr ?_
  rintro place ⟨ident, args, ⟨⟩⟩ - - ⟨-, hargs, -⟩
  exact getD_of_forall (P := fun args => AllParts P (Segment.parts ⟨ident, args⟩))
    (fun u hu => (hargs u hu).1) allParts_nil

theorem qualifiedType_keepsParts : ∀ r ∈ qualifiedType, r.KeepsParts P := by
  refine List.forall_mem_singleton.mpr ?_
  rintro place ⟨ty, path, first, more, ⟨⟩⟩ hnew hbuilt ⟨hty, hpath, hfirst, hmore, -⟩
  obtain ⟨segments, leadingColon⟩ := path
  have hsegments : AllParts P (segmentsParts segments) := (allParts_cons.mp hpath).2
  have hlisted : AllParts P (segmentsParts (listed first more)) := by
    rw [segmentsParts_eq_flatMap, allParts_flatMap, forall_mem_listed]
    refine ⟨hfirst, fun u hu => ?_⟩
    have hu : AllParts P (segmentsParts u.1) := (hmore u hu).1
    rwa [segmentsParts_eq_flatMap, allParts_flatMap] at hu
  refine allParts_cons.mpr ⟨hbuilt _ rfl rfl,
    allParts_append.mpr ⟨hty, allParts_cons.mpr ⟨hnew _, ?_⟩⟩⟩
  rw [segmentsParts_append]
  exact allParts_append.mpr ⟨hsegments, hlisted⟩

/-- The parts of the members of an item. -/
theorem allParts_members {methods : Option (List Method × Unit)}
    (h : ∀ u ∈ methods, AllParts P (u.1.flatMap Method.parts)) :
    AllParts P ((orNil methods).flatMap Method.parts) := by
  rw [allParts_flatMap, forall_mem_orNil]
  exact fun u hu => allParts_flatMap.mp (h u hu)

theorem method_keepsParts : ∀ r ∈ method, r.KeepsParts P := by
  refine List.forall_mem_singleton.mpr ?_
  rintro place ⟨vis, name, generics, params, output, clause, ⟨⟩⟩ - - h
  simp only [Parts.All, Nonterminal.parts, and_true, true_and] at h
  obtain ⟨hvis, hgenerics, hparams, houtput, hclause⟩ := h
  simp only [Nonterminal.parts, Method.parts, allParts_append, allParts_flatMap, forall_mem_orNil,
    allParts_outputParts, forall_mem_only]
  exact ⟨⟨⟨getD_of_forall (P := fun v : Visibility => AllParts P v.parts) hvis allParts_nil,
    allParts_declared hgenerics hclause⟩, fun u hu => allParts_flatMap.mp (hparams u hu)⟩, houtput⟩

theorem traitItem_keepsParts : ∀ r ∈ traitItem, r.KeepsParts P := by
  refine List.forall_mem_singleton.mpr ?_
  rintro place ⟨vis, name, generics, supers, clause, methods, ⟨⟩⟩ - - h
  simp only [Parts.All, Nonterminal.parts, and_true, true_and] at h
  obtain ⟨hvis, hgenerics, -, hclause, hmethods⟩ := h
  exact allParts_append.mpr ⟨allParts_append.mpr
    ⟨getD_of_forall (P := fun v : Visibility => AllParts P v.parts) hvis allParts_nil,
      allParts_declared hgenerics hclause⟩, allParts_members hmethods⟩

theorem implItem_keepsParts : ∀ r ∈ implItem, r.KeepsParts P := by
  refine List.forall_mem_singleton.mpr ?_
  rintro place ⟨generics, path, target, clause, methods, ⟨⟩⟩ - hbuilt h
  simp only [Parts.All, Nonterminal.parts, and_true] at h
  obtain ⟨hgenerics, hpath, htarget, hclause, hmethods⟩ := h
  have hself : P (.type (.path path place.span)) := hbuilt _ rfl rfl
  exact allParts_append.mpr ⟨allParts_append.mpr ⟨allParts_declared hgenerics hclause,
    allParts_append.mpr (allParts_target hpath hself htarget)⟩, allParts_members hmethods⟩

/-- **Every rule but the one for macros** keeps what holds of parts. -/
theorem forall_mem_rules {D : Rule → Prop} (hkeep : ∀ r : Rule, r.KeepsParts P → D r)
    (hlast : D macroType) : ∀ r ∈ rules, D r := by
  obtain ⟨hplain, hatomic⟩ := List.forall_mem_append.mp plain_keepParts
  refine forall_rules (fun r hr => hkeep r (hplain r hr)) ?_
    (fun r hr => hkeep r (traitItem_keepsParts r hr))
    (fun r hr => hkeep r (implItem_keepsParts r hr)) (fun r hr => hkeep r (method_keepsParts r hr))
    (fun r hr => hkeep r (qualifiedType_keepsParts r hr)) fun r hr =>
      hkeep r (segment_keepsParts r hr)
  rw [atomicType_eq]
  exact List.forall_mem_append.mpr
    ⟨fun r hr => hkeep r (hatomic r hr), List.forall_mem_singleton.mpr hlast⟩

end Grammar

end TraitMock
