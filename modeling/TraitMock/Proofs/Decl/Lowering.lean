import TraitMock.Proofs.Decl.ReadForms
import TraitMock.Proofs.Syntax.Change
import TraitMock.Proofs.Walk.Commute
import TraitMock.Proofs.Walk.Forms

/-!
# Proofs/Decl/Lowering — the passes over a result, phrase by phrase

The result of a planned method is what the replacement of `Self` and then the lifting of climbing
paths make of the declared one.  `lowering` does the same to what any phrase inside a type stands
for.  Most rules carry it over from their parts (`Rule.Lowers`); not those by which a path that
climbs or a trait object is read, and a name may change.
-/

namespace TraitMock

open Parts

/-! ## Passes as changes -/

/-- **What a pass makes of what a phrase stands for**; only phrases inside types are changed. -/
def Pass.change (p : Pass) : Change
  | .moreTypes, xs => typesAfter p xs
  | .moreBounds, xs | .bounds, xs => boundsAfter p xs
  | .moreSegments, xs => segmentsAfter p xs
  | .moreGenericArgs, xs => argsAfter p xs
  | .type, x | .typeNoBounds, x | .refTarget, x | .qualifiedType, x => Ty.after p x
  | .bound, x => Bound.after p x
  | .path, x => Path.after p x
  | .segment, x => Segment.after p x
  | .pathIdent, x => Ident.after p x
  | .segmentArgs, x => SegmentArgs.after p x
  | .genericArg, x => GenericArg.after p x
  | _, v => v

/-- The phrases inside types. -/
def typePhrases : List Nonterminal :=
  [.moreBounds, .moreTypes, .moreSegments, .moreGenericArgs, .bounds, .bound, .type, .typeNoBounds,
    .refTarget, .qualifiedType, .arrayLength, .path, .segment, .pathIdent, .segmentArgs,
    .genericArg]

/-- A type among some parts is of a form that a mock can be written for. -/
def Part.Supported : Part → Prop
  | .type ty => ty.isSupported
  | .path _ => True

section Lowering

variable (actual : Ident) (interface : Option String)

/-- **What the planning of a result makes of what a phrase stands for**: `Self` is replaced, and
then climbing paths are lifted. -/
def lowering : Change := fun n v =>
  Pass.superPath.change n ((Pass.selfType actual interface).change n v)

/-- **Whether a phrase inside a type is lowered**: all that is left of it once `Self` is replaced is
of supported forms. -/
def Lowers (n : Nonterminal) (v : n.Val) : Prop :=
  n ∈ typePhrases ∧ AllParts Part.Supported (n.parts ((Pass.selfType actual interface).change n v))

/-- **A rule carries the lowering over** wherever what it builds is lowered. -/
def Rule.Lowers (r : Rule) : Prop :=
  ∀ (place : Place) (vals : r.parts.Val),
    TraitMock.Lowers actual interface r.lhs (r.action place vals) →
    r.Carries (lowering actual interface) (TraitMock.Lowers actual interface) place vals

/-- All of some rules carry the lowering over. -/
def RulesLower (rules : List Rule) : Prop := ∀ r ∈ rules, r.Lowers actual interface

end Lowering

variable {actual : Ident} {interface : Option String}

/-- Of phrases that stand outside types nothing is said. -/
theorem Rule.lowers_of_not_mem {r : Rule} (h : r.lhs ∉ typePhrases) : r.Lowers actual interface :=
  fun _ _ hlowers => absurd hlowers.1 h

namespace Grammar

-- The rules of which it is enough to see what their parts are: the obligation of each comes apart
-- into what is known of the whole and what is to be shown of its parts.  Where what the rule builds
-- is not supported, there is nothing to show.
theorem plain_lower : RulesLower actual interface (moreBounds ++ moreTypes ++ moreSegments ++
    moreGenericArgs ++ bound ++ typeNoBounds ++ groupedType ++ atomicType ++ qualifiedType ++
    arrayLength ++ genericArg) := by
  refine List.forall_iff_forall_mem.mp ?_
  repeat' apply And.intro
  all_goals
    rintro place vals ⟨-, h⟩
    simp only [Parts.Val, Nonterminal.Val, Pass.change, Nonterminal.parts, Ty.after,
      GenericArg.after, Bound.after, Ty.parts, GenericArg.parts, Bound.parts, typesAfter_eq_map,
      segmentsAfter_eq_map, argsAfter_eq_map, boundsAfter_eq_map, typesParts_eq_flatMap,
      segmentsParts_eq_flatMap, argsParts_eq_flatMap, boundsParts_eq_flatMap, allParts_nil,
      allParts_cons, allParts_append, allParts_flatMap, Part.Supported, Ty.isSupported,
      Bool.false_eq_true, List.forall_mem_map, List.forall_mem_append, List.forall_mem_cons,
      List.not_mem_nil, IsEmpty.forall_iff, implies_true, and_true, true_and, false_and] at h
  all_goals
    constructor
    · simp only [lowering, Pass.change, Parts.change, Ty.after, GenericArg.after, Bound.after,
        typesAfter_eq_map, segmentsAfter_eq_map, argsAfter_eq_map, boundsAfter_eq_map,
        List.map_append, List.map_cons, List.map_nil, only, Option.map_map, Function.comp_def,
        Option.isSome_map]
    · simp only [Parts.AllPhrases, Parts.All, Lowers, typePhrases, Pass.change, Nonterminal.parts,
        typesParts_eq_flatMap, segmentsParts_eq_flatMap, argsParts_eq_flatMap,
        boundsParts_eq_flatMap, typesAfter_eq_map, segmentsAfter_eq_map, argsAfter_eq_map,
        boundsAfter_eq_map, allParts_nil, allParts_flatMap, List.forall_mem_map, List.mem_cons,
        true_or, or_true, true_and, and_true, implies_true, h]
      try tauto

attribute [local simp] lowering Lowers typePhrases Pass.change Nonterminal.parts Parts.AllPhrases

theorem bounds_lower : RulesLower actual interface bounds := by
  refine List.forall_mem_singleton.mpr ?_
  rintro place ⟨bound, _ | ⟨more, ⟨⟩⟩, ⟨⟩⟩ ⟨-, h⟩
  all_goals exact ⟨by simp [boundsAfter], by simpa [boundsAfter, boundsParts, Parts.All] using h⟩

theorem segment_lower : RulesLower actual interface segment := by
  refine List.forall_mem_singleton.mpr ?_
  rintro place ⟨ident, _ | ⟨args, ⟨⟩⟩, ⟨⟩⟩ ⟨-, h⟩
  · exact ⟨rfl, by simp [Parts.All]⟩
  · exact ⟨rfl, by simpa [Segment.after, Segment.parts, Parts.All] using h⟩

theorem segmentArgs_lower : RulesLower actual interface segmentArgs := by
  refine List.forall_iff_forall_mem.mp ⟨?_, ?_⟩
  · rintro place ⟨args, ⟨⟩⟩ ⟨-, h⟩
    rcases args with _ | ⟨arg, _ | ⟨more, ⟨⟩⟩, comma, ⟨⟩⟩ <;>
      exact ⟨rfl, by simp_all [SegmentArgs.after, SegmentArgs.parts, argsAfter, argsParts,
        Parts.All]⟩
  · rintro place ⟨inputs, output, ⟨⟩⟩ ⟨-, h⟩
    rcases inputs with _ | ⟨ty, _ | ⟨more, ⟨⟩⟩, comma, ⟨⟩⟩ <;>
      rcases output with _ | ⟨output, ⟨⟩⟩ <;>
      exact ⟨rfl, by simp_all [SegmentArgs.after, SegmentArgs.parts, typesAfter, typesParts,
        outputAfter, outputParts, Parts.All]⟩

/-- A type without bounds is a type. -/
theorem bareType_lowers :
    Rule.Lowers actual interface ⟨.type, phrase .typeNoBounds done, fun _ (ty, _) => ty⟩ :=
  fun _ _ h => ⟨rfl, ⟨by decide, h.2⟩, trivial⟩

/-- A type without bounds is what a reference can point to. -/
theorem bareTarget_lowers :
    Rule.Lowers actual interface ⟨.refTarget, phrase .typeNoBounds done, fun _ (ty, _) => ty⟩ :=
  fun _ _ h => ⟨rfl, ⟨by decide, h.2⟩, trivial⟩

/-- The rules of a phrase are rules of the grammar. -/
theorem mem_rules {n : Nonterminal} {r : Rule} (h : r ∈ rules.filter (·.lhs == n)) : r ∈ rules :=
  List.mem_of_mem_filter h

theorem lhs_of_mem {n : Nonterminal} {r : Rule} (h : r ∈ rules.filter (·.lhs == n)) : r.lhs = n :=
  beq_iff_eq.mp (List.mem_filter.mp h).2

theorem mem_of_lhs {n : Nonterminal} {r : Rule} (hr : r ∈ rules) (h : r.lhs = n) :
    r ∈ rules.filter (·.lhs == n) := List.mem_filter.mpr ⟨hr, beq_iff_eq.mpr h⟩

/-- The phrases of the rules of which it is enough to see what their parts are. -/
def plainPhrases : List Nonterminal :=
  [.moreBounds, .moreTypes, .moreSegments, .moreGenericArgs, .bound, .typeNoBounds, .qualifiedType,
    .arrayLength, .genericArg]

theorem lowers_of_plain {r : Rule} (hr : r ∈ rules) (h : r.lhs ∈ plainPhrases) :
    r.Lowers actual interface := plain_lower r (mem_of_lhs_mem rfl hr h)

end Grammar

/-- The phrases that a rule may build from others than the lowering makes of its parts. -/
def rebuiltPhrases : List Nonterminal := [.type, .refTarget, .path, .pathIdent]

/-- **Most rules carry the lowering over.** -/
theorem Rule.lowers {r : Rule} (hr : r ∈ Grammar.rules) (h : r.lhs ∉ rebuiltPhrases) :
    r.Lowers actual interface := by
  by_cases hplain : r.lhs ∈ Grammar.plainPhrases
  · exact Grammar.lowers_of_plain hr hplain
  by_cases hbounds : r.lhs = .bounds
  · exact Grammar.bounds_lower r (Grammar.mem_of_lhs hr hbounds)
  by_cases hsegment : r.lhs = .segment
  · exact Grammar.segment_lower r (Grammar.mem_of_lhs hr hsegment)
  by_cases hargs : r.lhs = .segmentArgs
  · exact Grammar.segmentArgs_lower r (Grammar.mem_of_lhs hr hargs)
  refine Rule.lowers_of_not_mem fun hmem => ?_
  simp only [typePhrases, Grammar.plainPhrases, rebuiltPhrases, List.mem_cons, List.not_mem_nil,
    or_false] at *
  tauto

/-! ## Paths that climb -/

theorem Path.climb_superPath (segments : List Segment) (leadingColon : Bool) :
    Path.climb ⟨segmentsAfter .superPath segments, leadingColon⟩ =
      Path.climb ⟨segments, leadingColon⟩ := by
  rcases segments with _ | ⟨⟨ident, args⟩, rest⟩ <;> cases leadingColon <;> rfl

/-- **How a path is lowered**: it gets the steps in front that it climbs by, if the mock is not
called `super`. -/
theorem lowering_path (hactual : actual.name ≠ superName) (segments : List Segment) :
    lowering actual interface .path ⟨segments, false⟩ =
      ⟨Path.climb ⟨segments, false⟩ ++ lowering actual interface .moreSegments segments,
        false⟩ := by
  have hself : Path.climb ⟨segmentsAfter (.selfType actual interface) segments, false⟩ =
      Path.climb ⟨segments, false⟩ := Path.climb_selfType hactual segments false
  rw [← hself, ← Path.climb_superPath]
  rfl

/-- What a path is read from is lowered with it. -/
theorem Lowers.segments_of_path {segment : Segment} {more : Option (List Segment × Unit)}
    (h : Lowers actual interface .path ⟨Grammar.listed segment more, false⟩) :
    Lowers actual interface .segment segment ∧
      ∀ u ∈ more, Lowers actual interface .moreSegments u.1 := by
  have hparts := h.2
  simp only [Pass.change, Path.after_selfType, segmentsAfter_eq_map, Nonterminal.parts, Path.parts,
    segmentsParts_eq_flatMap, allParts_cons, allParts_flatMap, List.forall_mem_map,
    Grammar.forall_mem_listed] at hparts
  refine ⟨⟨by decide, hparts.2.1⟩, fun u hu => ⟨by decide, ?_⟩⟩
  simp only [Pass.change, segmentsAfter_eq_map, Nonterminal.parts, segmentsParts_eq_flatMap,
    allParts_flatMap, List.forall_mem_map]
  exact hparts.2.2 u hu

/-! ## Trait objects that give way -/

/-- The last of some segments, what is applied to it walked over. -/
theorem lastAfter_eq_map (p : Pass) (segments : List Segment) :
    lastAfter p segments = segments.getLast?.map fun segment =>
      ⟨segment.ident, segment.args.after p⟩ := by
  induction segments with
  | nil => rfl
  | cons segment rest ih =>
    cases rest with
    | nil => cases segment; rfl
    | cons next rest => rw [lastAfter, ih, List.getLast?_cons_cons]

/-- **What gives way** to the mock: a trait object with one bound, which is a path and not
relaxed. -/
theorem Pass.sole_of_collapse {bounds : List Bound} {name : String}
    (hc : (selfType actual interface).collapse bounds = some name) :
    ∃ path segment, bounds = [.trait path false] ∧ path.segments.getLast? = some segment := by
  obtain ⟨path, relaxed, rfl, hne⟩ := (orderly_selfType actual interface).collapse_sole hc
  cases relaxed with
  | false => exact ⟨path, _, rfl, List.getLast?_eq_some_getLast hne⟩
  | true => simp [selfType, Bound.namesMock] at hc

section Object

variable {path : Path} {name : String} {segment : Segment}

/-- What the replacement of `Self` makes of a trait object that gives way. -/
theorem Ty.after_selfType_object
    (hc : (Pass.selfType actual interface).collapse [.trait path false] = some name)
    (hlast : path.segments.getLast? = some segment) (s : Span) :
    Ty.after (.selfType actual interface) (.traitObject [.trait path false] s) =
      .path (Pass.sole actual.name segment.ident.span
        (segment.args.after (.selfType actual interface))) s := by
  obtain ⟨segments, leadingColon⟩ := path
  have hname := Pass.name_of_collapses ⟨_, hc⟩
  simp only [Ty.after, hc, soleAfter, lastAfter_eq_map, hname]
  rw [show segments.getLast? = some segment from hlast]
  rfl

/-- **A trait object that gives way is lowered to the name of the mock**, applied to what the last
segment of its bound is applied to. -/
theorem lowering_object (hactual : actual.name ≠ superName)
    (hc : (Pass.selfType actual interface).collapse [.trait path false] = some name)
    (hlast : path.segments.getLast? = some segment) (s : Span) :
    lowering actual interface .type (.traitObject [.trait path false] s) =
      .path (Pass.sole actual.name segment.ident.span
        (lowering actual interface .segmentArgs segment.args)) s := by
  have hname := Pass.name_of_collapses ⟨_, hc⟩
  refine (congrArg (Ty.after .superPath) (Ty.after_selfType_object hc hlast s)).trans ?_
  rw [Ty.after, ← hname, (Pass.commutes_selfType_superPath hactual).sole ⟨_, hc⟩]
  rfl

/-- What the last segment of its bound is applied to is lowered with it. -/
theorem Lowers.args_of_object {s : Span}
    (hc : (Pass.selfType actual interface).collapse [.trait path false] = some name)
    (hlast : path.segments.getLast? = some segment)
    (h : Lowers actual interface .type (.traitObject [.trait path false] s)) :
    Lowers actual interface .segmentArgs segment.args := by
  have hparts : AllParts Part.Supported
      (Ty.after (.selfType actual interface) (.traitObject [.trait path false] s)).parts := h.2
  rw [Ty.after_selfType_object hc hlast] at hparts
  simp only [Pass.sole, Ty.parts, Path.parts, segmentsParts, Segment.parts, List.append_nil,
    allParts_cons] at hparts
  exact ⟨by decide, hparts.2.2⟩

end Object

section Bounds

variable {bounds : List Bound}

/-- A trait object that does not give way is lowered with its bounds. -/
theorem lowering_bounds (hc : (Pass.selfType actual interface).collapse bounds = none) (s : Span) :
    lowering actual interface .type (.traitObject bounds s) =
      .traitObject (lowering actual interface .bounds bounds) s := by
  simp only [lowering, Pass.change, Ty.after, hc, Pass.superPath]

theorem Lowers.bounds_of_object {s : Span}
    (hc : (Pass.selfType actual interface).collapse bounds = none)
    (h : Lowers actual interface .type (.traitObject bounds s)) :
    Lowers actual interface .bounds bounds := by
  refine ⟨by decide, ?_⟩
  have hparts := h.2
  simp only [Pass.change, Ty.after, hc, Nonterminal.parts, Ty.parts, allParts_cons] at hparts
  exact hparts.2

end Bounds

/-! ## Unnamed types -/

/-- The type that an unnamed type is erased to, and any other type as it is. -/
def Ty.erased (ty : Ty) : Ty := ty.eraseImpl.apply ty

theorem Ty.erased_of_isBare {ty : Ty} (h : ty.isBare) : ty.erased = ty := by
  cases ty <;> first | rfl | cases h

/-- **An unnamed type is lowered to a box** of what the trait object with its bounds is lowered
to. -/
theorem lowering_box (bounds : List Bound) (s : Span) :
    lowering actual interface .type (Ty.implTrait bounds s).erased =
      .path ⟨[⟨⟨"Box", s⟩,
        .angle [.type (lowering actual interface .type (.traitObject bounds s))]⟩], false⟩ s := by
  rfl

theorem Lowers.object_of_box {bounds : List Bound} {s : Span}
    (h : Lowers actual interface .type (Ty.implTrait bounds s).erased) :
    Lowers actual interface .type (.traitObject bounds s) := by
  refine ⟨by decide, ?_⟩
  have hparts := h.2
  simp only [Pass.change, Ty.erased, Ty.eraseImpl, Edit.apply_replace, Ty.after,
    Path.after_selfType, segmentsAfter, Segment.after, SegmentArgs.after, argsAfter,
    GenericArg.after, Nonterminal.parts, Ty.parts, Path.parts, segmentsParts, Segment.parts,
    SegmentArgs.parts, argsParts, GenericArg.parts, List.append_nil, allParts_cons] at hparts ⊢
  exact hparts.2.2

end TraitMock
