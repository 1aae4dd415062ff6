import Mathlib.Logic.Basic
import Mathlib.Tactic.Tauto
import TraitMock.Proofs.Decl.ListRules
import TraitMock.Proofs.Decl.ReadParts
import TraitMock.Proofs.Syntax.Induction
import TraitMock.Syntax.Parse

/-!
# Proofs/Decl/ReadForms — what has been read is well formed

Every tree that is read is well formed throughout (`Machine.wellFormed_of_parse`): its paths have
segments, its trait objects have bounds, its qualified paths have a trait and something behind it,
its references point to what can be pointed to without brackets, and its names are identifiers.

`Part.Solid` and `Part.Formed` say this of a single type or path, and the `Formed` of declarations
of what stands in them beside types and paths.  A rule builds at most a few parts of its own, so
beside the parts of a phrase not much has to be known of its value (`Nonterminal.Formed`).
-/

namespace TraitMock

open Machine

/-! ## Well-formed parts -/

/-- **Whether a text is an identifier**: a letter or an underscore, and then letters, digits and
underscores. -/
def isIdentifier (text : String) : Bool :=
  match text.toList with
  | [] => false
  | c :: cs => Terminal.isNameStart c && cs.all Terminal.isNameChar

/-- Whether a type has no bounds of its own, which would run into what is behind it. -/
def Ty.isBare : Ty → Bool
  | .traitObject _ _ | .implTrait _ _ => false
  | _ => true

/-- Whether a reference can point to a type without brackets: it has no bounds of its own, or it is
a trait object with one trait for its bound. -/
def Ty.isTarget : Ty → Bool
  | .traitObject [.trait _ false] _ => true
  | ty => ty.isBare

/-- What needs no brackets anywhere needs none to be referred to. -/
theorem Ty.isTarget_of_isBare {ty : Ty} (h : ty.isBare) : ty.isTarget := by
  cases ty <;> first | rfl | cases h

/-- An object by one trait needs no brackets to be referred to. -/
theorem Ty.isTarget_traitObject (path : Path) (s : Span) :
    (Ty.traitObject [.trait path false] s).isTarget := rfl

/-- The lifetime of a bound is an identifier. -/
def Bound.Formed : Bound → Prop
  | .trait _ _ => True
  | .outlives lifetime => isIdentifier lifetime

/-- The names in a generic argument are identifiers. -/
def GenericArg.Formed : GenericArg → Prop
  | .lifetime name => isIdentifier name
  | .binding ident _ => isIdentifier ident.name
  | .type _ | .const _ => True

/-- What is applied to a segment is well formed, the types in it not looked at. -/
def SegmentArgs.Formed : SegmentArgs → Prop
  | .none => True
  | .angle args => ∀ arg ∈ args, arg.Formed
  | .call _ output => ∀ ty ∈ output, ty.isBare

/-- A segment is well formed, the types in it not looked at. -/
def Segment.Formed (segment : Segment) : Prop :=
  isIdentifier segment.ident.name ∧ segment.args.Formed

/-- **Paths, bounds and positions are in order** at a part: a path has segments and no colons in
front, a trait object and an unnamed type have bounds, and in a qualified path some segments are
those of the trait, but not all. -/
def Part.Solid : Part → Prop
  | .path p => p.segments ≠ [] ∧ p.leadingColon = false
  | .type (.traitObject bounds _) | .type (.implTrait bounds _) => bounds ≠ []
  | .type (.qualified _ position p _) => 1 ≤ position ∧ position < p.segments.length
  | .type _ => True

/-- **A part is of a form that can be written**: it is no grouping that is not written and not of
unknown shape, its names are identifiers, and no type with bounds of its own stands where it would
need brackets. -/
def Part.Formed : Part → Prop
  | .path p => ∀ segment ∈ p.segments, segment.Formed
  | .type (.pointer elem _ _) => elem.isBare
  | .type (.reference elem lifetime _ _) => elem.isTarget ∧ ∀ name ∈ lifetime, isIdentifier name
  | .type (.function _ output _) => ∀ ty ∈ output, ty.isBare
  | .type (.traitObject bounds _) | .type (.implTrait bounds _) => ∀ bound ∈ bounds, bound.Formed
  | .type (.group _ _) | .type (.verbatim _ _) | .type (.unknown _) => False
  | .type _ => True

/-- **A part is well formed**, the parts inside it not looked at. -/
def Part.WellFormed (part : Part) : Prop := part.Solid ∧ part.Formed

/-! ## Well-formed declarations -/

mutual

/-- The names that a pattern binds are identifiers. -/
def Pat.Formed : Pat → Prop
  | .ident ident _ _ sub _ => isIdentifier ident.name ∧ SubFormed sub
  | .wild _ => True
  | .tuple elems _ => PatsFormed elems
  | .unknown _ => False

/-- The names that patterns bind are identifiers. -/
def PatsFormed : List Pat → Prop
  | [] => True
  | pat :: rest => pat.Formed ∧ PatsFormed rest

/-- The names that a pattern behind a name binds are identifiers. -/
def SubFormed : Option Pat → Prop
  | none => True
  | some pat => pat.Formed

end

/-- Patterns are formed one by one. -/
theorem patsFormed_iff {pats : List Pat} : PatsFormed pats ↔ ∀ pat ∈ pats, pat.Formed := by
  induction pats with
  | nil => simp [PatsFormed]
  | cons pat rest ih => rw [PatsFormed, ih, List.forall_mem_cons]

/-- A subpattern is formed if there is one. -/
theorem subFormed_iff {sub : Option Pat} : SubFormed sub ↔ ∀ pat ∈ sub, pat.Formed := by
  cases sub <;> simp [SubFormed]

/-- A visibility is well formed: without `in` it names one module. -/
def Visibility.Formed : Visibility → Prop
  | .restricted path false => ∃ segment : Segment, path.segments = [segment] ∧ segment.args = .none
  | .unknown _ => False
  | _ => True

/-- The names in a declared parameter are identifiers. -/
def GenericParam.Formed : GenericParam → Prop
  | .type ident bounds _ => isIdentifier ident.name ∧ ∀ bound ∈ bounds, bound.Formed
  | .lifetime ident bounds => isIdentifier ident.name ∧ ∀ bound ∈ bounds, isIdentifier bound
  | .const ident _ => isIdentifier ident.name

/-- The lifetimes in a condition are identifiers. -/
def Predicate.Formed : Predicate → Prop
  | .bounded _ bounds => ∀ bound ∈ bounds, bound.Formed
  | .outlives lifetime bounds => isIdentifier lifetime ∧ ∀ bound ∈ bounds, isIdentifier bound
  | .equal _ _ => True

/-- The names in generics are identifiers. -/
def Generics.Formed (g : Generics) : Prop :=
  (∀ param ∈ g.params, param.Formed) ∧ ∀ clause ∈ g.whereClause, ∀ predicate ∈ clause,
    predicate.Formed

/-- The names in a parameter are identifiers. -/
def Param.Formed : Param → Prop
  | .receiver _ _ lifetime _ => ∀ name ∈ lifetime, isIdentifier name
  | .typed pat _ _ => pat.Formed

/-- A method is well formed, its types and paths not looked at. -/
def Method.Formed (m : Method) : Prop :=
  isIdentifier m.ident.name ∧ m.vis.Formed ∧ m.generics.Formed ∧ ∀ param ∈ m.params, param.Formed

/-- An item is well formed, its types and paths not looked at. -/
def Item.Formed : Item → Prop
  | .traitDecl d => isIdentifier d.ident.name ∧ d.vis.Formed ∧ d.generics.Formed ∧
    ∀ m ∈ d.methods, m.Formed
  | .implDecl d => d.generics.Formed ∧ ∀ m ∈ d.methods, m.Formed

/-- **What is known of a phrase that has been read**, beside its parts. -/
def Nonterminal.Formed : (n : Nonterminal) → n.Val → Prop
  | .items, xs | .declFile, xs => ∀ x ∈ xs, Item.Formed x
  | .item, x | .traitItem, x | .implItem, x => Item.Formed x
  | .methods, xs => ∀ x ∈ xs, Method.Formed x
  | .method, x => Method.Formed x
  | .moreParams, xs | .params, xs => ∀ x ∈ xs, Param.Formed x
  | .param, x | .receiver, x => Param.Formed x
  | .morePatterns, xs => ∀ x ∈ xs, Pat.Formed x
  | .pattern, x => Pat.Formed x
  | .visTarget, x | .pathIdent, x => isIdentifier (Ident.name x)
  | .moreLifetimes, xs | .lifetimeBounds, xs => ∀ x ∈ xs, isIdentifier x
  | .visibility, x => Visibility.Formed x
  | .generics, x => Generics.Formed x
  | .moreGenericParams, xs => ∀ x ∈ xs, GenericParam.Formed x
  | .genericParam, x => GenericParam.Formed x
  | .morePredicates, xs | .whereClause, xs => ∀ x ∈ xs, Predicate.Formed x
  | .predicate, x => Predicate.Formed x
  | .moreBounds, xs => ∀ x ∈ xs, Bound.Formed x
  | .bounds, xs => xs ≠ [] ∧ ∀ x ∈ xs, Bound.Formed x
  | .bound, x => Bound.Formed x
  | .typeNoBounds, x | .qualifiedType, x => Ty.isBare x
  | .refTarget, x => Ty.isTarget x
  | .path, x => Path.segments x ≠ []
  | .moreSegments, xs => ∀ x ∈ xs, Segment.Formed x
  | .segment, x => Segment.Formed x
  | .segmentArgs, x => SegmentArgs.Formed x
  | .moreGenericArgs, xs => ∀ x ∈ xs, GenericArg.Formed x
  | .genericArg, x => GenericArg.Formed x
  | .moreTypes, _ | .typeOnly, _ | .type, _ | .arrayLength, _ => True

/-! ## Tokens that are names -/

/-- **What a token names** is an identifier: a name, the two keywords that stand among names, and a
lifetime without its quote. -/
def Terminal.Names : Terminal → Token → Prop
  | .name, t | .selfKw, t | .crateKw, t => isIdentifier t.text
  | .lifetime, t => isIdentifier t.lifetime
  | _, _ => True

/-- What is scanned as a name, to its end, is an identifier. -/
theorem isIdentifier_of_scanName {word : List Char} (h : Terminal.scanName word = some (word, [])) :
    isIdentifier (String.ofList word) := by
  rw [isIdentifier, String.toList_ofList]
  cases word with
  | nil => cases h
  | cons c cs =>
    simp only [Terminal.scanName] at h
    split at h
    · next hstart =>
      simp only [Option.some.injEq, Prod.mk.injEq, List.cons.injEq, true_and] at h
      have hrest : cs.all Terminal.isNameChar = true :=
        List.all_eq_true.mpr (List.takeWhile_eq_self_iff.mp h.1)
      exact Bool.and_eq_true_iff.mpr ⟨hstart, hrest⟩
    · cases h

/-- What a token names is an identifier if it is spelled as its terminal is. -/
theorem Terminal.Spells.names {t : Terminal} {token : Token} (h : t.Spells token.text) :
    t.Names token := by
  cases t with
  | name =>
    have hname := isIdentifier_of_scanName h
    rwa [String.ofList_toList] at hname
  | selfKw | crateKw =>
    have htext := spelling_of_spells rfl h
    simp only [spelling?, Option.some.injEq] at htext
    rw [Names, ← htext]
    decide
  | lifetime =>
    rw [Names, Token.lifetime]
    cases htext : token.text.toList with
    | nil => simp [Spells, htext, scan, scanLifetime] at h
    | cons c cs =>
      rw [Spells, htext] at h
      simp only [scan, scanLifetime] at h
      split at h
      · obtain ⟨⟨found, rest⟩, hname, heq⟩ := Option.map_eq_some_iff.mp h
        simp only [Prod.mk.injEq, List.cons.injEq, true_and] at heq
        obtain ⟨rfl, rfl⟩ := heq
        exact isIdentifier_of_scanName hname
      · cases h
  | _ => trivial

/-! ## Forms of sequences -/

/-- **Parts that are all well formed.** -/
abbrev AllFormed (parts : List Part) : Prop := AllParts Part.WellFormed parts

/-- The judgement that a phrase is well formed throughout. -/
def wellFormed : Judgement := fun _ n v _ _ => AllFormed (n.parts v) ∧ n.Formed v

/-- What the parts of a rule mean is well formed throughout. -/
abbrev Parts.Formed : (p : Parts) → p.Val → Prop :=
  Parts.All Terminal.Names fun n v => AllFormed (n.parts v) ∧ n.Formed v

/-- What is read by a rule is well formed part by part. -/
theorem Parts.Holds.formed {p : Parts} {s stop : Nat} {vals : p.Val} {first next : Terminal}
    (h : p.Holds wellFormed s vals first stop next) : p.Formed vals :=
  Parts.Holds.all (P := wellFormed) (T := Terminal.Names)
    (Q := fun n v => AllFormed (n.parts v) ∧ n.Formed v)
    (fun hstands => Terminal.Spells.names hstands.1) (fun hv => hv) h

/-- **A rule makes well-formed values** of well-formed ones. -/
def Rule.MakesFormed (r : Rule) : Prop :=
  ∀ (place : Place) (vals : r.parts.Val), r.parts.Formed vals →
    AllFormed (r.lhs.parts (r.action place vals)) ∧ r.lhs.Formed (r.action place vals)

/-- All of some rules make well-formed values of well-formed ones. -/
def RulesMakeFormed (rules : List Rule) : Prop := ∀ r ∈ rules, r.MakesFormed

namespace Grammar

-- It is enough to see what the parts are of what a plain rule builds, and so with the atomic types.
-- The obligation of each comes apart into what is known of its parts and what is to be shown of its
-- value, and these are then the same.

/-- The plain rules build what is well formed, out of what is. -/
theorem plain_makeFormed : RulesMakeFormed (plainRules ++ atomicType) := by
  refine List.forall_iff_forall_mem.mp ?_
  have htarget := @Ty.isTarget_of_isBare
  repeat' apply And.intro
  all_goals
    intro place vals
    simp only [Parts.Val, Parts.Formed, Parts.All, Nonterminal.Val, Nonterminal.parts,
      Nonterminal.Formed, Terminal.Names,
      Ty.parts, Path.parts, Segment.parts, SegmentArgs.parts, GenericArg.parts, Bound.parts,
      Param.parts, Visibility.parts, Generics.parts, GenericParam.parts, Predicate.parts,
      Part.WellFormed, Part.Solid, Part.Formed, Segment.Formed, SegmentArgs.Formed,
      GenericArg.Formed, Bound.Formed, Pat.Formed, patsFormed_iff, subFormed_iff, Param.Formed,
      Visibility.Formed, Generics.Formed, GenericParam.Formed, Predicate.Formed, Ty.isBare,
      Ty.isTarget_traitObject, Path.ofIdents, Place.ident, Place.lifetimeIdent,
      typesParts_eq_flatMap, boundsParts_eq_flatMap, segmentsParts_eq_flatMap, argsParts_eq_flatMap,
      allParts_nil, allParts_cons, allParts_append, allParts_flatMap, allParts_outputParts,
      forall_mem_only, forall_mem_orNil, forall_mem_listed, forall_mem_orEmpty, forall_mem_map_only,
      forall_mem_bind, listed_ne_nil,
      List.append_nil, List.map_cons, List.map_nil, List.flatMap_cons, List.flatMap_nil,
      List.forall_mem_cons, List.forall_mem_append, List.not_mem_nil, List.cons_ne_self,
      List.cons.injEq, Option.not_mem_none, Option.getD_none, forall₂_and, exists_eq_left',
      imp_self, and_self, and_true, true_and, implies_true, IsEmpty.forall_iff, ne_eq,
      not_false_eq_true]
    try tauto

/-- A segment is well formed if its arguments are, which may be missing. -/
theorem segment_makesFormed : RulesMakeFormed segment := by
  refine List.forall_mem_singleton.mpr ?_
  rintro place ⟨ident, args, ⟨⟩⟩ ⟨⟨-, hident⟩, hargs, -⟩
  exact getD_of_forall (P := fun args => AllFormed (Segment.parts ⟨ident, args⟩) ∧
      Segment.Formed ⟨ident, args⟩) (fun u hu => ⟨(hargs u hu).1.1, hident, (hargs u hu).1.2⟩)
    ⟨allParts_nil, hident, trivial⟩

/-- The position of a qualified path divides the segments of the trait from those behind them. -/
theorem qualifiedType_makesFormed : RulesMakeFormed qualifiedType := by
  refine List.forall_mem_singleton.mpr ?_
  rintro place ⟨ty, path, first, more, ⟨⟩⟩ h
  obtain ⟨⟨hty, -⟩, ⟨hpath, hne⟩, ⟨hfirst, hformed⟩, hmore, -⟩ := h
  obtain ⟨segments, leadingColon⟩ := path
  obtain ⟨⟨-, hsegments⟩, hparts⟩ := allParts_cons.mp hpath
  have hpos : 0 < segments.length := List.length_pos_iff.mpr hne
  simp only [Ty.parts, Path.parts, allParts_cons, allParts_append, segmentsParts_eq_flatMap,
    List.flatMap_append, allParts_flatMap, forall_mem_listed, Nonterminal.parts, Nonterminal.Formed,
    Parts.All] at *
  refine ⟨⟨⟨⟨by omega, ?_⟩, trivial⟩, hty, ⟨⟨?_, rfl⟩, ?_⟩, hparts, hfirst, fun u hu => ?_⟩, rfl⟩
  · rw [List.length_append, listed, List.length_cons]
    omega
  · exact List.append_ne_nil_of_left_ne_nil hne _
  · exact List.forall_mem_append.mpr
      ⟨hsegments, forall_mem_listed.mpr ⟨hformed, fun u hu => (hmore u hu).1.2⟩⟩
  · exact (hmore u hu).1.1

/-- What is declared in front of the members of an item or a method. -/
theorem generics_declared {generics : Option (Generics × Unit)}
    {clause : Option (List Predicate × Unit)}
    (hgenerics : ∀ u ∈ generics, AllFormed u.1.parts ∧ u.1.Formed)
    (hclause : ∀ u ∈ clause, AllFormed (u.1.flatMap Predicate.parts) ∧ ∀ p ∈ u.1, p.Formed) :
    AllFormed (((only generics).getD {}).withWhere (only clause)).parts ∧
      (((only generics).getD {}).withWhere (only clause)).Formed := by
  refine ⟨allParts_declared (fun u hu => (hgenerics u hu).1) fun u hu => (hclause u hu).1, ?_⟩
  have hbare : ((only generics).getD {}).Formed :=
    getD_of_forall (P := Generics.Formed) (fun u hu => (hgenerics u hu).2)
      ⟨List.forall_mem_nil _, nofun⟩
  cases clause with
  | none => exact hbare
  | some u =>
    refine ⟨hbare.1, ?_⟩
    rintro _ ⟨⟩
    exact (hclause u rfl).2

/-- A visibility that is missing is well formed. -/
theorem visibility_declared {vis : Option (Visibility × Unit)}
    (h : ∀ u ∈ vis, AllFormed u.1.parts ∧ u.1.Formed) :
    AllFormed ((only vis).getD .inherited).parts ∧ ((only vis).getD .inherited).Formed :=
  getD_of_forall (P := fun v : Visibility => AllFormed v.parts ∧ v.Formed) h ⟨allParts_nil, trivial⟩

/-- A method is well formed if all that it declares is. -/
theorem method_makesFormed : RulesMakeFormed method := by
  refine List.forall_mem_singleton.mpr ?_
  rintro place ⟨vis, name, generics, params, output, clause, ⟨⟩⟩ h
  simp only [Parts.Formed, Parts.All, Nonterminal.parts, Nonterminal.Formed, and_true,
    Terminal.Names] at h ⊢
  obtain ⟨hvis, hname, hgenerics, hparams, houtput, hclause⟩ := h
  obtain ⟨hvisParts, hvis⟩ := visibility_declared hvis
  obtain ⟨hgenericsParts, hgenerics⟩ := generics_declared hgenerics hclause
  simp only [Method.parts, allParts_append, allParts_flatMap, forall_mem_orNil,
    allParts_outputParts, forall_mem_only, Method.Formed] at *
  exact ⟨⟨⟨⟨hvisParts, hgenericsParts⟩, fun u hu => (hparams u hu).1⟩, houtput⟩, hname, hvis,
    hgenerics, fun u hu => (hparams u hu).2⟩

/-- So is a trait, method by method. -/
theorem traitItem_makesFormed : RulesMakeFormed traitItem := by
  refine List.forall_mem_singleton.mpr ?_
  rintro place ⟨vis, name, generics, supers, clause, methods, ⟨⟩⟩ h
  simp only [Parts.Formed, Parts.All, Nonterminal.parts, Nonterminal.Formed, and_true,
    Terminal.Names] at h ⊢
  obtain ⟨hvis, hname, hgenerics, -, hclause, hmethods⟩ := h
  obtain ⟨hvisParts, hvis⟩ := visibility_declared hvis
  obtain ⟨hgenericsParts, hgenerics⟩ := generics_declared hgenerics hclause
  simp only [Item.parts, allParts_append, allParts_flatMap, forall_mem_orNil, Item.Formed] at *
  exact ⟨⟨⟨hvisParts, hgenericsParts⟩, fun u hu => (hmethods u hu).1⟩, hname, hvis, hgenerics,
    fun u hu => (hmethods u hu).2⟩

/-- And an implementation, with its trait and its target. -/
theorem implItem_makesFormed : RulesMakeFormed implItem := by
  refine List.forall_mem_singleton.mpr ?_
  rintro place ⟨generics, path, target, clause, methods, ⟨⟩⟩ h
  simp only [Parts.Formed, Parts.All, Nonterminal.parts, Nonterminal.Formed, and_true] at h ⊢
  obtain ⟨hgenerics, ⟨hpath, -⟩, htarget, hclause, hmethods⟩ := h
  obtain ⟨hgenericsParts, hgenerics⟩ := generics_declared hgenerics hclause
  obtain ⟨htrait, hself⟩ := allParts_target (s := place.span) hpath ⟨trivial, trivial⟩ htarget
  simp only [Item.parts, allParts_append, allParts_flatMap, forall_mem_orNil, Item.Formed] at *
  exact ⟨⟨⟨hgenericsParts, htrait, hself⟩, fun u hu => (hmethods u hu).1⟩, hgenerics,
    fun u hu => (hmethods u hu).2⟩

/-- **Every rule makes well-formed values of well-formed ones.** -/
theorem rules_makeFormed : RulesMakeFormed rules := by
  obtain ⟨hplain, hatomic⟩ := List.forall_mem_append.mp plain_makeFormed
  exact forall_rules hplain hatomic traitItem_makesFormed implItem_makesFormed method_makesFormed
    qualifiedType_makesFormed segment_makesFormed

end Grammar

/-! ## What has been read -/

/-- **What has been read is well formed throughout.** -/
theorem Machine.wellFormed_of_parse (entry : Entry) {file : Option String} {text : List Char}
    {v : entry.phrase.Val} (h : parse file entry text = .ok v) :
    AllFormed (entry.phrase.parts v) ∧ entry.phrase.Formed v :=
  all_of_parse (Q := fun n v => AllFormed (n.parts v) ∧ n.Formed v)
    (fun hstands => Terminal.Spells.names hstands.1) Grammar.rules_makeFormed h

/-- **A declaration file that has been read** is well formed throughout. -/
theorem DeclFile.wellFormed_of_parse {file : Option String} {text : String} {decls : DeclFile}
    (h : DeclFile.parse file text = .ok decls) :
    ∀ item ∈ decls.items, AllFormed item.parts ∧ item.Formed := by
  obtain ⟨hparts, hformed⟩ :=
    Machine.wellFormed_of_parse .declFile (DeclFile.parse_eq_ok_iff.mp h).1
  exact fun item hitem => ⟨allParts_flatMap.mp hparts item hitem, hformed item hitem⟩

/-! ## Written forms

What has been read is of a written form; this is less than being well formed, and the passes keep to
it. -/

/-- **Whether a part is of a written form**, the parts inside it not looked at. -/
def Part.isRead : Part → Bool
  | .type (.group _ _) | .type (.verbatim _ _) | .type (.unknown _) => false
  | .type _ => true
  | .path p => !p.segments.isEmpty && !p.leadingColon

/-- **Parts that are all of a written form.** -/
abbrev AllRead (parts : List Part) : Prop := AllParts (·.isRead) parts

/-- A well-formed part has a shape that can be read. -/
theorem Part.WellFormed.isRead {part : Part} (h : part.WellFormed) : part.isRead := by
  obtain ⟨hsolid, hformed⟩ := h
  cases part with
  | type ty => cases ty <;> first | rfl | exact hformed.elim
  | path p =>
    obtain ⟨hne, hcolon⟩ := hsolid
    simp [Part.isRead, hne, hcolon]

/-- What is well formed throughout can be read throughout. -/
theorem AllFormed.allRead {parts : List Part} (h : AllFormed parts) : AllRead parts :=
  fun part hpart => (h part hpart).isRead

/-- **All parts of a declaration file that has been read** are of a written form. -/
theorem DeclFile.allRead_of_parse {file : Option String} {text : String} {decls : DeclFile}
    (h : DeclFile.parse file text = .ok decls) : ∀ item ∈ decls.items, AllRead item.parts :=
  fun item hitem => (DeclFile.wellFormed_of_parse h item hitem).1.allRead

end TraitMock
