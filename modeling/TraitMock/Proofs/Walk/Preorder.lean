import TraitMock.Proofs.Decl.RoundTrip
import TraitMock.Proofs.Walk.Faults
import TraitMock.Proofs.Walk.SelfType

/-!
# Proofs/Walk/Preorder — walks report in the order in which types are written

The types inside a type form a tree, and `Ty.preorder` lists them from the root on, each before
those inside it and these from left to right.  The type of a qualified path is no part of the tree,
and where a trait object stands for a name only what is applied to its last segment is.

* `Ty.types_places` — a walk comes to the types of this list, in their order.
* `Ty.walks_report` — so each shape that a walk cannot look into is reported once, and in its turn.
-/

namespace TraitMock

/-! ## The types right inside a type -/

/-- The types that an argument in angle brackets has. -/
def GenericArg.types : GenericArg → List Ty
  | .type ty | .binding _ ty => [ty]
  | .lifetime _ | .const _ => []

/-- The types that are applied to a segment. -/
def SegmentArgs.types : SegmentArgs → List Ty
  | .none => []
  | .angle args => args.flatMap GenericArg.types
  | .call inputs output => inputs ++ output.toList

/-- The types that are applied along a path. -/
def Path.types (path : Path) : List Ty := path.segments.flatMap (·.args.types)

/-- The types that are applied along the path of a bound. -/
def Bound.types : Bound → List Ty
  | .trait path _ => path.types
  | .outlives _ => []

/-- The types that are applied to the last segment of a bound. -/
def Bound.lastTypes : Bound → List Ty
  | .trait path _ => path.segments.getLast?.toList.flatMap (·.args.types)
  | .outlives _ => []

/-- What is applied to the last segment of a bound is inside the bound. -/
theorem Bound.lastTypes_subset (bound : Bound) : bound.lastTypes ⊆ bound.types := by
  cases bound with
  | outlives => exact List.Subset.refl _
  | trait path relaxed =>
    intro ty hty
    obtain ⟨s, hs, hty⟩ := List.mem_flatMap.mp hty
    exact List.mem_flatMap.mpr ⟨s, List.mem_of_getLast? (Option.mem_toList.mp hs), hty⟩

/-- **The types right inside a type**, from left to right, but for the type of a qualified path.  Of
a trait object whose bounds stand for a name, these are the ones that are applied to its last
segment. -/
def Ty.children (stands : List Bound → Prop) [DecidablePred stands] : Ty → List Ty
  | .slice elem _ | .array elem _ _ | .pointer elem _ _ | .reference elem _ _ _ | .paren elem _
  | .group elem _ => [elem]
  | .tuple elems _ => elems
  | .function inputs output _ => inputs ++ output.toList
  | .traitObject bounds _ =>
    if stands bounds then bounds.flatMap Bound.lastTypes else bounds.flatMap Bound.types
  | .implTrait bounds _ => bounds.flatMap Bound.types
  | .path inner _ | .qualified _ _ inner _ => inner.types
  | .infer _ | .never _ | .macroCall _ _ | .verbatim _ _ | .unknown _ => []

/-! ### What is inside is smaller -/

section Size

variable {ty : Ty}

/-- What is smaller than a member of a list is smaller than the list. -/
theorem sizeOf_lt_of_mem_flatMap {α : Type} [SizeOf α] {f : α → List Ty} {xs : List α}
    (hf : ∀ x, ty ∈ f x → sizeOf ty < sizeOf x) (h : ty ∈ xs.flatMap f) :
    sizeOf ty < sizeOf xs := by
  obtain ⟨x, hx, hty⟩ := List.mem_flatMap.mp h
  exact Nat.lt_trans (hf x hty) (List.sizeOf_lt_of_mem hx)

/-- An input or the result of a call is smaller than both together. -/
theorem sizeOf_lt_of_mem_call {inputs : List Ty} {output : Option Ty}
    (h : ty ∈ inputs ++ output.toList) : sizeOf ty < sizeOf inputs + sizeOf output := by
  rcases List.mem_append.mp h with hty | hty
  · exact Nat.lt_add_right _ (List.sizeOf_lt_of_mem hty)
  · obtain rfl := Option.mem_toList.mp hty
    simp +arith

/-- A type right inside a generic argument is smaller than it. -/
theorem GenericArg.sizeOf_lt {arg : GenericArg} (h : ty ∈ arg.types) : sizeOf ty < sizeOf arg := by
  cases arg with
  | type | binding =>
    obtain rfl := List.mem_singleton.mp h
    simp +arith
  | lifetime | const => cases h

/-- A type right inside what is applied to a segment is smaller than that. -/
theorem SegmentArgs.sizeOf_lt {args : SegmentArgs} (h : ty ∈ args.types) :
    sizeOf ty < sizeOf args := by
  cases args with
  | none => cases h
  | angle args =>
    have hless := sizeOf_lt_of_mem_flatMap (fun _ => GenericArg.sizeOf_lt) h
    simp only [angle.sizeOf_spec]
    omega
  | call inputs output =>
    have hless := sizeOf_lt_of_mem_call h
    simp only [call.sizeOf_spec]
    omega

/-- A type applied to a segment of a path is smaller than the path. -/
theorem Path.sizeOf_lt {path : Path} (h : ty ∈ path.types) : sizeOf ty < sizeOf path := by
  obtain ⟨segments, leadingColon⟩ := path
  have hless : sizeOf ty < sizeOf segments := by
    refine sizeOf_lt_of_mem_flatMap ?_ h
    rintro ⟨ident, args⟩ hty
    have hargs : sizeOf ty < sizeOf args := SegmentArgs.sizeOf_lt hty
    simp only [Segment.mk.sizeOf_spec]
    omega
  simp only [mk.sizeOf_spec]
  omega

/-- A type inside a bound is smaller than the bound. -/
theorem Bound.sizeOf_lt {bound : Bound} (h : ty ∈ bound.types) : sizeOf ty < sizeOf bound := by
  cases bound with
  | trait path relaxed =>
    have hless := Path.sizeOf_lt h
    simp only [trait.sizeOf_spec]
    omega
  | outlives => cases h

/-- **A child of a type is smaller than the type**, so its pre-order ends. -/
theorem Ty.sizeOf_lt_of_mem_children {stands : List Bound → Prop} [DecidablePred stands]
    {outer : Ty} (h : ty ∈ outer.children stands) : sizeOf ty < sizeOf outer := by
  cases outer with
  | slice | array | pointer | reference | paren | group =>
    obtain rfl := List.mem_singleton.mp h
    simp +arith
  | tuple elems =>
    have hless : sizeOf ty < sizeOf elems := List.sizeOf_lt_of_mem h
    simp only [tuple.sizeOf_spec]
    omega
  | function inputs output =>
    have hless := sizeOf_lt_of_mem_call h
    simp only [function.sizeOf_spec]
    omega
  | traitObject bounds =>
    have hless : sizeOf ty < sizeOf bounds := by
      simp only [children] at h
      split at h
      · exact sizeOf_lt_of_mem_flatMap (fun b hb => Bound.sizeOf_lt (b.lastTypes_subset hb)) h
      · exact sizeOf_lt_of_mem_flatMap (fun _ => Bound.sizeOf_lt) h
    simp only [traitObject.sizeOf_spec]
    omega
  | implTrait bounds =>
    have hless := sizeOf_lt_of_mem_flatMap (fun _ => Bound.sizeOf_lt) h
    simp only [implTrait.sizeOf_spec]
    omega
  | path | qualified =>
    have hless := Path.sizeOf_lt h
    simp only [path.sizeOf_spec, qualified.sizeOf_spec]
    omega
  | infer | never | macroCall | verbatim | unknown => cases h

end Size

/-! ## Pre-order -/

/-- **The types of a type in pre-order**: the type itself, and then those of each type right inside
it. -/
def Ty.preorder (stands : List Bound → Prop) [DecidablePred stands] (ty : Ty) : List Ty :=
  ty :: (ty.children stands).attach.flatMap fun inner => inner.1.preorder stands
termination_by sizeOf ty
decreasing_by exact Ty.sizeOf_lt_of_mem_children inner.2

variable {stands : List Bound → Prop} [DecidablePred stands]

/-- The pre-order of a type is the type and behind it the pre-orders of its children. -/
theorem Ty.preorder_eq (ty : Ty) :
    ty.preorder stands = ty :: (ty.children stands).flatMap (Ty.preorder stands) := by
  rw [preorder]
  simp

/-! ## The types that a walk comes to -/

/-- The type of a part that is one. -/
def Part.type? : Part → Option Ty
  | .type ty => some ty
  | .path _ => none

/-- The types among some parts. -/
def typesAmong (places : List Part) : List Ty := places.filterMap Part.type?

theorem typesAmong_type (ty : Ty) (places : List Part) :
    typesAmong (.type ty :: places) = ty :: typesAmong places := rfl

theorem typesAmong_path (path : Path) (places : List Part) :
    typesAmong (.path path :: places) = typesAmong places := rfl

/-- The types among parts are found in the order of the parts. -/
theorem typesAmong_append (places places' : List Part) :
    typesAmong (places ++ places') = typesAmong places ++ typesAmong places' :=
  List.filterMap_append

/-- **A pass by which trait objects give way** exactly if their bounds stand for a name. -/
structure Pass.CollapsesWhere (p : Pass) (stands : List Bound → Prop) : Prop extends p.Orderly where
  collapse_eq_none_iff : ∀ bounds, p.collapse bounds = none ↔ ¬ stands bounds

section Places

variable {p : Pass}

mutual

/-- **A walk comes to the types of a type in pre-order.** -/
theorem Ty.types_places (hp : p.CollapsesWhere stands) : (ty : Ty) →
    typesAmong (ty.places p) = ty.preorder stands
  | .slice elem _ | .array elem _ _ | .pointer elem _ _ | .reference elem _ _ _ | .paren elem _
  | .group elem _ => by
    rw [Ty.preorder_eq, Ty.children, List.flatMap_singleton, Ty.places, typesAmong_type,
      Ty.types_places hp elem]
  | .tuple elems _ => by
    rw [Ty.preorder_eq, Ty.children, Ty.places, typesAmong_type, types_typesPlaces hp elems]
  | .function inputs output _ => by
    rw [Ty.preorder_eq, Ty.children, List.flatMap_append, Ty.places, typesAmong_type,
      typesAmong_append, types_typesPlaces hp inputs, types_outputPlaces hp output]
  | .traitObject bounds _ => by
    rw [Ty.preorder_eq, Ty.children, Ty.places, typesAmong_type]
    cases hc : p.collapse bounds with
    | none =>
      rw [if_neg ((hp.collapse_eq_none_iff bounds).mp hc)]
      exact congrArg _ (types_boundsPlaces hp bounds)
    | some name =>
      have hstands : stands bounds := by
        by_contra hnot
        rw [(hp.collapse_eq_none_iff bounds).mpr hnot] at hc
        cases hc
      obtain ⟨⟨segments, leadingColon⟩, relaxed, rfl, -⟩ := hp.collapse_sole hc
      rw [if_pos hstands, List.flatMap_singleton]
      exact congrArg _ (types_lastPlaces hp name segments)
  | .implTrait bounds _ => by
    rw [Ty.preorder_eq, Ty.children, Ty.places, typesAmong_type, types_boundsPlaces hp bounds]
  | .path inner _ | .qualified _ _ inner _ => by
    rw [Ty.preorder_eq, Ty.children, Ty.places, typesAmong_type, Path.types_places hp inner]
  | .infer _ | .never _ | .macroCall _ _ | .verbatim _ _ | .unknown _ => by
    rw [Ty.preorder_eq, Ty.children, Ty.places]
    rfl

/-- A walk over types comes to their pre-orders one behind the other. -/
theorem types_typesPlaces (hp : p.CollapsesWhere stands) : (tys : List Ty) →
    typesAmong (typesPlaces p tys) = tys.flatMap (Ty.preorder stands)
  | [] => rfl
  | ty :: rest => by
    rw [typesPlaces, typesAmong_append, Ty.types_places hp ty, types_typesPlaces hp rest,
      List.flatMap_cons]

/-- A walk over a result comes to its pre-order, if there is one. -/
theorem types_outputPlaces (hp : p.CollapsesWhere stands) : (output : Option Ty) →
    typesAmong (outputPlaces p output) = output.toList.flatMap (Ty.preorder stands)
  | none => rfl
  | some ty => by
    rw [outputPlaces, Ty.types_places hp ty, Option.toList_some, List.flatMap_singleton]

/-- A walk over a path comes to the types applied to its segments. -/
theorem Path.types_places (hp : p.CollapsesWhere stands) : (path : Path) →
    typesAmong (path.places p) = path.types.flatMap (Ty.preorder stands)
  | ⟨segments, _⟩ => by
    rw [Path.places, typesAmong_path, types_segmentsPlaces hp segments, Path.types]

/-- A walk over segments comes to the types applied to them, from left to right. -/
theorem types_segmentsPlaces (hp : p.CollapsesWhere stands) : (segments : List Segment) →
    typesAmong (segmentsPlaces p segments) =
      (segments.flatMap (·.args.types)).flatMap (Ty.preorder stands)
  | [] => rfl
  | segment :: rest => by
    rw [segmentsPlaces, typesAmong_append, Segment.types_places hp segment,
      types_segmentsPlaces hp rest, List.flatMap_cons, List.flatMap_append]

/-- A walk over a segment comes to the types applied to it. -/
theorem Segment.types_places (hp : p.CollapsesWhere stands) : (segment : Segment) →
    typesAmong (segment.places p) = segment.args.types.flatMap (Ty.preorder stands)
  | ⟨_, args⟩ => by
    rw [Segment.places, SegmentArgs.types_places hp args]

/-- A walk over arguments comes to the inputs of a call before its result. -/
theorem SegmentArgs.types_places (hp : p.CollapsesWhere stands) : (args : SegmentArgs) →
    typesAmong (args.places p) = args.types.flatMap (Ty.preorder stands)
  | .none => rfl
  | .angle args => by
    rw [SegmentArgs.places, types_argsPlaces hp args, SegmentArgs.types]
  | .call inputs output => by
    rw [SegmentArgs.places, typesAmong_append, types_typesPlaces hp inputs,
      types_outputPlaces hp output, SegmentArgs.types, List.flatMap_append]

/-- A walk over generic arguments comes to the types among them, from left to right. -/
theorem types_argsPlaces (hp : p.CollapsesWhere stands) : (args : List GenericArg) →
    typesAmong (argsPlaces p args) = (args.flatMap GenericArg.types).flatMap (Ty.preorder stands)
  | [] => rfl
  | arg :: rest => by
    rw [argsPlaces, typesAmong_append, GenericArg.types_places hp arg, types_argsPlaces hp rest,
      List.flatMap_cons, List.flatMap_append]

/-- A walk over a generic argument comes to its type, if it has one. -/
theorem GenericArg.types_places (hp : p.CollapsesWhere stands) : (arg : GenericArg) →
    typesAmong (arg.places p) = arg.types.flatMap (Ty.preorder stands)
  | .type ty | .binding _ ty => by
    rw [GenericArg.places, Ty.types_places hp ty, GenericArg.types, List.flatMap_singleton]
  | .lifetime _ | .const _ => rfl

/-- A walk over a bound comes to the types applied along its path. -/
theorem Bound.types_places (hp : p.CollapsesWhere stands) : (bound : Bound) →
    typesAmong (bound.places p) = bound.types.flatMap (Ty.preorder stands)
  | .trait path _ => by
    rw [Bound.places, Path.types_places hp path, Bound.types]
  | .outlives _ => rfl

/-- A walk over bounds comes to the types inside them, bound by bound. -/
theorem types_boundsPlaces (hp : p.CollapsesWhere stands) : (bounds : List Bound) →
    typesAmong (boundsPlaces p bounds) = (bounds.flatMap Bound.types).flatMap (Ty.preorder stands)
  | [] => rfl
  | bound :: rest => by
    rw [boundsPlaces, typesAmong_append, Bound.types_places hp bound, types_boundsPlaces hp rest,
      List.flatMap_cons, List.flatMap_append]

/-- Of segments that give way, the walk comes to what is applied to the last one. -/
theorem types_lastPlaces (hp : p.CollapsesWhere stands) (name : String) :
    (segments : List Segment) →
    typesAmong (lastPlaces p name segments) =
      (segments.getLast?.toList.flatMap (·.args.types)).flatMap (Ty.preorder stands)
  | [] => rfl
  | [⟨_, args⟩] => by
    rw [lastPlaces, typesAmong_path, SegmentArgs.types_places hp args, List.getLast?_singleton,
      Option.toList_some, List.flatMap_singleton]
  | _ :: segment :: rest => by
    rw [lastPlaces, List.getLast?_cons_cons]
    exact types_lastPlaces hp name (segment :: rest)

end

end Places

/-! ## Reports -/

/-- A report of a walk. -/
def walkReport (message : String) (span : Span) : Diagnostic :=
  { message, phase := some "rewrite", span }

/-- **What every walk reports of a type**, the types inside it aside; an opaque type is worded by
its text. -/
def Ty.report? (wording : String → String) : Ty → Option Diagnostic
  | .qualified _ _ _ s => some (walkReport "qualified-self paths are not supported" s)
  | .macroCall text s | .verbatim text s => some (walkReport (wording text) s)
  | _ => none

/-- The wording for an opaque type wherever it stands. -/
def opaqueWording (text : String) : String :=
  "type `" ++ text ++ "` is not supported in this position"

/-- The wording for an opaque type in a result. -/
def returnWording (text : String) : String :=
  "type `" ++ text ++ "` is not supported as a return type"

/-- The names along the path of a bound. -/
def Bound.names : Bound → List String
  | .trait path _ => path.names
  | .outlives _ => []

/-- **What the replacement of `Self` reports of a type**: beside what every walk reports, a trait
object of several bounds that speak of `Self`. -/
def Ty.selfReport? : Ty → Option Diagnostic
  | .traitObject bounds s =>
    if 2 ≤ bounds.length ∧ selfName ∈ bounds.flatMap Bound.names then
      some (walkReport "trait objects with multiple bounds cannot refer to `Self`" s)
    else none
  | ty => ty.report? returnWording

instance (interface : Option String) : DecidablePred (StandForMock interface) := fun bounds =>
  decidable_of_iff (((Pass.selfType ⟨"", {}⟩ interface).collapse bounds).isSome = true) <| by
    rw [Option.isSome_iff_ne_none, ne_eq, Pass.collapse_selfType_eq_none_iff, not_not]

namespace Pass

variable {p : Pass} {actual : Ident} {interface : Option String}

/-- The plain walk lets no trait object give way to a name. -/
theorem collapsesWhere_plain : plain.CollapsesWhere fun _ => False where
  toOrderly := orderly_plain
  collapse_eq_none_iff _ := iff_of_true rfl not_false

/-- Nor does the walk that lifts paths. -/
theorem collapsesWhere_superPath : superPath.CollapsesWhere fun _ => False where
  toOrderly := orderly_superPath
  collapse_eq_none_iff _ := iff_of_true rfl not_false

/-- The walk that puts in the mock lets those give way that stand for it. -/
theorem collapsesWhere_selfType (actual : Ident) (interface : Option String) :
    (selfType actual interface).CollapsesWhere (StandForMock interface) where
  toOrderly := orderly_selfType actual interface
  collapse_eq_none_iff _ := collapse_selfType_eq_none_iff

/-- Where no trait object gives way and none is objected to, a walk complains of what all walks
do. -/
theorem complaint?_type (hcollapse : ∀ bounds, p.collapse bounds = none)
    (hobjection : ∀ bounds, p.objection bounds = none) (hunseen : p.unseen = .opaqueType)
    (ty : Ty) : p.complaint? (.type ty) = ty.report? opaqueWording := by
  cases ty with
  | traitObject bounds => rw [complaint?, hcollapse, hobjection]; rfl
  | macroCall | verbatim => rw [complaint?, hunseen]; rfl
  | _ => rfl

/-- The replacement of `Self` objects to several bounds that speak of it. -/
theorem objection_selfType (bounds : List Bound) : (selfType actual interface).objection bounds =
    if 2 ≤ bounds.length ∧ selfName ∈ bounds.flatMap Bound.names then some .selfAmongBounds
    else none := by
  have hbound (bound : Bound) : bound.mentionsSelf = true ↔ selfName ∈ bound.names := by
    cases bound with
    | trait path => exact path.mentionsSelf_iff
    | outlives => exact iff_of_false Bool.false_ne_true List.not_mem_nil
  refine if_congr ?_ rfl rfl
  simp only [Bool.and_eq_true, decide_eq_true_eq, List.any_eq_true, List.mem_flatMap, hbound]
  rfl

/-- What the replacement of `Self` complains of: bounds that stand for the mock are not several. -/
theorem complaint?_selfType (ty : Ty) :
    (selfType actual interface).complaint? (.type ty) = ty.selfReport? := by
  cases ty with
  | traitObject bounds s =>
    rw [complaint?, Ty.selfReport?]
    cases hc : (selfType actual interface).collapse bounds with
    | some name =>
      obtain ⟨path, relaxed, rfl, -⟩ := (orderly_selfType actual interface).collapse_sole hc
      rw [if_neg fun h => absurd h.1 (by simp)]
    | none =>
      dsimp only
      rw [objection_selfType, apply_ite (Option.map _)]
      rfl
  | _ => rfl

/-- All that a walk has to complain of is said of types. -/
theorem complaints_eq (places : List Part) :
    p.complaints places = (typesAmong places).filterMap fun ty => p.complaint? (.type ty) := by
  rw [complaints, typesAmong, List.filterMap_filterMap]
  refine List.filterMap_congr fun place _ => ?_
  cases place <;> rfl

end Pass

/-- **A walk over a type in which nothing ends it** reports, type by type in pre-order, what there
is to report of each. -/
theorem Ty.run_walk_preorder {p : Pass} (hp : p.CollapsesWhere stands)
    {report? : Ty → Option Diagnostic} (hreport : ∀ ty, p.complaint? (.type ty) = report? ty)
    {ty : Ty} (h : Walkable ty.parts) :
    ∃ e, (ty.walk p).run .collect = ⟨.ok e, (ty.preorder stands).filterMap report?⟩ := by
  have hwalkable : Walkable (ty.places p) := by
    rintro (inner | path) hplace
    · exact h _ (Ty.places_within p ty inner hplace)
    · rfl
  obtain ⟨e, hrun, -⟩ := Ty.run_walk hp.toOrderly hwalkable
  refine ⟨e, ?_⟩
  rw [hrun, Pass.complaints_eq, Ty.types_places hp, funext hreport]

/-- **Walks report each unsupported shape exactly once, in the order in which it is written.**  In a
type without function pointers, unnamed types and nodes of no known shape, where problems are
collected,

* the plain walk and the lift of climbing paths report, in pre-order over the type, every qualified
  path and every opaque type;
* the replacement of `Self` reports the same with its own wording for opaque types, and every trait
  object of several bounds that speak of `Self`; of a trait object that stands for the mock, it only
  comes to what is applied to the last segment. -/
theorem Ty.walks_report {ty : Ty} (h : Walkable ty.parts) (actual : Ident)
    (interface : Option String) :
    (∃ e, (ty.walk .plain).run .collect =
      ⟨.ok e, (ty.preorder fun _ => False).filterMap (Ty.report? opaqueWording)⟩) ∧
    (∃ e, ty.liftSuper.run .collect =
      ⟨.ok e, (ty.preorder fun _ => False).filterMap (Ty.report? opaqueWording)⟩) ∧
    ∃ e, (ty.substSelf actual interface).run .collect =
      ⟨.ok e, (ty.preorder (StandForMock interface)).filterMap Ty.selfReport?⟩ :=
  ⟨run_walk_preorder Pass.collapsesWhere_plain
    (Pass.complaint?_type (fun _ => rfl) (fun _ => rfl) rfl) h,
    run_walk_preorder Pass.collapsesWhere_superPath
      (Pass.complaint?_type (fun _ => rfl) (fun _ => rfl) rfl) h,
    run_walk_preorder (Pass.collapsesWhere_selfType actual interface) Pass.complaint?_selfType h⟩

/-- In pre-order: a qualified path before what is applied along it, the leading segment of an object
that stands for the mock passed over, and bounds that speak of `Self` before what is applied to
them. -/
theorem qualifiedAndSelf_reported :
    ∃ ty,
      Ty.parse "(<A<m!()> as T>::X<n!()>, dyn a<o!()>::Self<q!()>, dyn Self<r!()> + B)" = .ok ty ∧
      Walkable ty.parts ∧
      ((ty.preorder fun _ => False).filterMap (Ty.report? opaqueWording)).map (·.message) =
        ["qualified-self paths are not supported", opaqueWording "n!()", opaqueWording "o!()",
          opaqueWording "q!()", opaqueWording "r!()"] ∧
      ((ty.preorder (StandForMock none)).filterMap Ty.selfReport?).map (·.message) =
        ["qualified-self paths are not supported", returnWording "n!()", returnWording "q!()",
          "trait objects with multiple bounds cannot refer to `Self`", returnWording "r!()"] := by
  obtain ⟨ty, hty, hread⟩ := exists_of_toOption
    (e := Ty.parse "(<A<m!()> as T>::X<n!()>, dyn a<o!()>::Self<q!()>, dyn Self<r!()> + B)")
    (f := fun ty => (ty.parts.all (·.fault?.isNone),
      (ty.liftSuper.run .collect).reports.map (·.message),
      ((ty.substSelf ⟨"MockT", {}⟩ none).run .collect).reports.map (·.message)))
    (b := (true,
      ["qualified-self paths are not supported", opaqueWording "n!()", opaqueWording "o!()",
        opaqueWording "q!()", opaqueWording "r!()"],
      ["qualified-self paths are not supported", returnWording "n!()", returnWording "q!()",
        "trait objects with multiple bounds cannot refer to `Self`", returnWording "r!()"]))
    (by decide +kernel)
  obtain ⟨hwalkable, hread⟩ := Prod.mk.inj hread
  obtain ⟨hlift, hself⟩ := Prod.mk.inj hread
  have hwalkable : Walkable ty.parts := fun part hpart =>
    Option.isNone_iff_eq_none.mp (List.all_eq_true.mp hwalkable part hpart)
  obtain ⟨-, ⟨e, hrun⟩, e', hrun'⟩ := Ty.walks_report hwalkable ⟨"MockT", {}⟩ none
  rw [hrun] at hlift
  rw [hrun'] at hself
  exact ⟨ty, hty, hwalkable, hlift, hself⟩

end TraitMock
