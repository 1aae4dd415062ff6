import Mathlib.Logic.Basic
import Mathlib.Tactic.Tauto
import TraitMock.Proofs.Decl.PartRules
import TraitMock.Proofs.Syntax.Nesting
import TraitMock.Syntax.Parse

/-!
# Proofs/Decl/ReadSpans — where the types and patterns of an item stand

Problems are reported at types and at the patterns of parameters.  In an item that has been read,
all of these stand inside the item (`DeclFile.standsIn_of_parse`), in the file that the item stands
in.

Each rule that builds a type or a pattern puts it at its own place, and the places of a phrase hold
those of its parts.  So where all types and patterns in the parts of a rule stand inside its place,
those of what it builds do too (`Rule.Frames`): its types, as rules keep what holds of parts, and
its patterns (`Rule.FramesBeside`).
-/

namespace TraitMock

variable {W : Span → Prop} {Q : Item → Prop}

/-! ## The spans at which problems are reported -/

/-- The span of a part has a property, if it is a type. -/
def Part.SpanIn (W : Span → Prop) : Part → Prop
  | .type ty => W ty.span
  | .path _ => True

/-- The span of the pattern of a parameter has a property. -/
def Param.PatIn (W : Span → Prop) : Param → Prop
  | .receiver _ _ _ _ => True
  | .typed pat _ _ => W pat.span

/-- The spans of the patterns of a method have a property. -/
def Method.PatsIn (W : Span → Prop) (m : Method) : Prop := ∀ param ∈ m.params, param.PatIn W

/-- **The spans of all types and patterns of an item** have a property. -/
structure Item.SpansIn (W : Span → Prop) (item : Item) : Prop where
  parts : AllParts (Part.SpanIn W) item.parts
  pats : ∀ m ∈ item.methods, m.PatsIn W

/-- What is said of a phrase beside its types: of its patterns, and of whole items. -/
def Nonterminal.Beside (W : Span → Prop) (Q : Item → Prop) : (n : Nonterminal) → n.Val → Prop
  | .items, xs | .declFile, xs => ∀ x ∈ xs, Q x
  | .item, x | .traitItem, x | .implItem, x => Q x
  | .methods, xs => ∀ x ∈ xs, Method.PatsIn W x
  | .method, x => Method.PatsIn W x
  | .moreParams, xs | .params, xs => ∀ x ∈ xs, Param.PatIn W x
  | .param, x | .receiver, x => Param.PatIn W x
  | .pattern, x => W (Pat.span x)
  | _, _ => True

/-- **The spans of a phrase** have a property, and its items another. -/
def Nonterminal.SpansIn (W : Span → Prop) (Q : Item → Prop) (n : Nonterminal) (v : n.Val) : Prop :=
  AllParts (Part.SpanIn W) (n.parts v) ∧ n.Beside W Q v

/-! ## What the rules build -/

/-- **A rule frames what it is built from**: where its own span and those of its phrases have a
property, those of what it builds do. -/
def Rule.Frames (W : Span → Prop) (Q : Item → Prop) (r : Rule) : Prop :=
  ∀ (place : Place) (vals : r.parts.Val), W place.span →
    (∀ item : Item, item.span = place.span → item.SpansIn W → Q item) →
    r.parts.All (fun _ _ => True) (Nonterminal.SpansIn W Q) vals →
    r.lhs.SpansIn W Q (r.action place vals)

/-- All of some rules frame what they are built from. -/
def RulesFrame (W : Span → Prop) (Q : Item → Prop) (rules : List Rule) : Prop :=
  ∀ r ∈ rules, r.Frames W Q

/-- **A rule frames what is beside the types** of what it is built from. -/
def Rule.FramesBeside (W : Span → Prop) (Q : Item → Prop) (r : Rule) : Prop :=
  ∀ (place : Place) (vals : r.parts.Val), W place.span →
    (∀ item : Item, item.span = place.span → item.SpansIn W → Q item) →
    r.parts.All (fun _ _ => True) (Nonterminal.SpansIn W Q) vals →
    AllParts (Part.SpanIn W) (r.lhs.parts (r.action place vals)) →
      r.lhs.Beside W Q (r.action place vals)

namespace Grammar

-- It is enough to see what is said beside the types of what a plain rule builds, and so with the
-- atomic types, qualified paths and segments.
theorem plain_frameBeside :
    ∀ r ∈ plainRules ++ (atomicType ++ (qualifiedType ++ segment)), r.FramesBeside W Q := by
  rw [← List.forall_iff_forall_mem]
  repeat' apply And.intro
  all_goals
    intro place vals hplace _ h _
    revert hplace h
    simp only [Parts.Val, Parts.All, Nonterminal.Val, Nonterminal.SpansIn, Nonterminal.Beside,
      Param.PatIn, Pat.span, forall_mem_orNil, forall_mem_listed,
      List.forall_mem_cons, List.forall_mem_append, List.not_mem_nil, forall₂_and,
      imp_self, and_self, and_true, true_and, implies_true, IsEmpty.forall_iff]
    try tauto

theorem method_framesBeside : ∀ r ∈ method, r.FramesBeside W Q := by
  refine List.forall_mem_singleton.mpr ?_
  rintro place ⟨vis, name, generics, params, output, clause, ⟨⟩⟩ - - ⟨-, -, -, hparams, -⟩ -
  exact forall_mem_orNil.mpr fun u hu => (hparams u hu).1.2

theorem traitItem_framesBeside : ∀ r ∈ traitItem, r.FramesBeside W Q := by
  refine List.forall_mem_singleton.mpr ?_
  rintro place ⟨vis, name, generics, supers, clause, methods, ⟨⟩⟩ - hitem
    ⟨-, -, -, -, -, hmethods, -⟩ hparts
  exact hitem _ rfl ⟨hparts, forall_mem_orNil.mpr fun u hu => (hmethods u hu).1.2⟩

theorem implItem_framesBeside : ∀ r ∈ implItem, r.FramesBeside W Q := by
  refine List.forall_mem_singleton.mpr ?_
  rintro place ⟨generics, path, target, clause, methods, ⟨⟩⟩ - hitem
    ⟨-, -, -, -, hmethods, -⟩ hparts
  exact hitem _ rfl ⟨hparts, forall_mem_orNil.mpr fun u hu => (hmethods u hu).1.2⟩

theorem rules_frameBeside : ∀ r ∈ rules, r.FramesBeside W Q := by
  obtain ⟨hplain, hall⟩ := List.forall_mem_append.mp (plain_frameBeside (W := W) (Q := Q))
  obtain ⟨hatomic, hall⟩ := List.forall_mem_append.mp hall
  obtain ⟨hqualified, hsegment⟩ := List.forall_mem_append.mp hall
  exact forall_rules hplain hatomic traitItem_framesBeside implItem_framesBeside method_framesBeside
    hqualified hsegment

/-- **Every rule puts the type that it builds** at its own place. -/
theorem rules_spanIn : ∀ r ∈ rules, ∀ (place : Place) (vals : r.parts.Val), W place.span →
    r.parts.All (fun _ _ => True) (fun n v => AllParts (Part.SpanIn W) (n.parts v)) vals →
    AllParts (Part.SpanIn W) (r.lhs.parts (r.action place vals)) := by
  refine forall_mem_rules (P := Part.SpanIn W) (fun r hkeep place vals hplace hvals => ?_) ?_
  · exact hkeep place vals (fun _ => trivial) (fun ty hspan _ => by rwa [Part.SpanIn, hspan]) hvals
  · exact fun place vals hplace _ => allParts_cons.mpr ⟨hplace, allParts_nil⟩

/-- **Every rule frames what it is built from.** -/
theorem rules_frame : RulesFrame W Q rules := by
  intro r hr place vals hplace hitem hvals
  have hparts :=
    rules_spanIn r hr place vals hplace (hvals.mono (fun _ _ h => h) fun _ _ hv => hv.1)
  exact ⟨hparts, rules_frameBeside r hr place vals hplace hitem hvals hparts⟩

end Grammar

/-! ## What has been read -/

/-- **A span lies inside an extent** of a file. -/
def Span.StandsIn (file : Option String) (e : Extent) (s : Span) : Prop :=
  ∃ e' : Extent, e'.Inside e ∧ s = e'.toSpan file

/-- **An item stands in a file** with all its types and patterns. -/
def Item.StandsIn (file : Option String) (item : Item) : Prop :=
  ∃ e : Extent, item.span = e.toSpan file ∧ item.SpansIn (Span.StandsIn file e)

theorem Part.SpanIn.mono {W' : Span → Prop} (hW : ∀ s, W s → W' s) {part : Part}
    (h : part.SpanIn W) : part.SpanIn W' := by
  cases part with
  | type ty => exact hW _ h
  | path path => trivial

theorem Param.PatIn.mono {W' : Span → Prop} (hW : ∀ s, W s → W' s) {param : Param}
    (h : param.PatIn W) : param.PatIn W' := by
  cases param with
  | receiver => trivial
  | typed pat ty span => exact hW _ h

theorem Nonterminal.SpansIn.mono {W' : Span → Prop} (hW : ∀ s, W s → W' s) {n : Nonterminal}
    {v : n.Val} (h : n.SpansIn W Q v) : n.SpansIn W' Q v := by
  obtain ⟨hparts, hbeside⟩ := h
  refine ⟨fun part hpart => (hparts part hpart).mono hW, ?_⟩
  cases n with
  | methods => exact fun m hm p hp => (hbeside m hm p hp).mono hW
  | method | moreParams | params => exact fun p hp => (hbeside p hp).mono hW
  | param | receiver => exact Param.PatIn.mono hW hbeside
  | pattern => exact hW _ hbeside
  | _ => exact hbeside

/-- That all types and patterns of a phrase stand inside its extent. -/
def framed (file : Option String) : Placing where
  Reads _ := True
  Holds n v e := n.SpansIn (Span.StandsIn file e) (Item.StandsIn file) v
  mono hinside h := h.mono fun _ ⟨e, he, hs⟩ => ⟨e, he.trans hinside, hs⟩

/-- **An item of a file that has been read** stands in it with all its types and patterns.  An empty
name of a file is none. -/
theorem DeclFile.standsIn_of_parse {file : Option String} {text : String} {decls : DeclFile}
    (h : DeclFile.parse file text = .ok decls) :
    ∀ item ∈ decls.items, item.StandsIn (file.filter fun name => !name.isEmpty) := by
  have hrules :
      ∀ r ∈ Grammar.rules, r.Places (framed (file.filter fun name => !name.isEmpty)) file := by
    intro r hr e vals he hvals
    refine Grammar.rules_frame r hr _ vals ⟨e, .refl he, rfl⟩ (fun item hspan hitem => ?_)
      (hvals.mono (fun _ _ _ => trivial) fun _ _ hv => hv)
    exact ⟨e, hspan, hitem⟩
  obtain ⟨e, -, hbeside⟩ :=
    Machine.placed_of_parse hrules (fun _ _ => trivial) (DeclFile.parse_eq_ok_iff.mp h).1
  exact hbeside

end TraitMock
