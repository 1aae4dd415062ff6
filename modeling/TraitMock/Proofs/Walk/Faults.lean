import TraitMock.Proofs.Report.Ending
import TraitMock.Proofs.Walk.Equation
import TraitMock.Proofs.Walk.Passes
import TraitMock.Walk.ImplTrait

/-!
# Proofs/Walk/Faults — where walks end, and what the search for unnamed types finds

A walk ends by the fault of the first of its places that has one (`Ty.endsBy_walk`).  The search for
unnamed types looks at the places of the plain walk: in a type without nodes of no known shape it
finds one exactly if there is one at such a place (`Ty.finds_hasImplTrait`).
-/

namespace TraitMock

open Checked

/-- **What ends a walk** at some places, in their order. -/
def faultsAt (places : List Part) : List Fault := places.filterMap Part.fault?

/-! ## Walks -/

/-- The places that a walk comes to are looked at in turn, up to the first with a fault. -/
theorem Pass.endsBy_inspect (p : Pass) (places : List Part) :
    (p.inspect places).EndsBy (faultsAt places) := by
  induction places with
  | nil => exact endsBy_of_gives (gives_pure ())
  | cons place rest ih =>
    rw [inspect, check, faultsAt]
    cases hfault : place.fault? with
    | some fault =>
      rw [List.filterMap_cons_some hfault]
      exact endsBy_fail fault _
    | none =>
      rw [List.filterMap_cons_none hfault]
      cases p.complaint? place with
      | some complaint => exact (endsBy_of_gives ⟨_, rfl⟩).bind fun _ _ => ih
      | none => exact ih

/-- **A walk ends by the first fault at its places.** -/
theorem Ty.endsBy_walk {p : Pass} (hp : p.Orderly) (ty : Ty) :
    (ty.walk p).EndsBy (faultsAt (ty.places p)) := by
  obtain ⟨e, hwalk, -, -⟩ := Ty.walks hp ty
  rw [hwalk]
  exact (p.endsBy_inspect _).map fun _ => e

/-- Where nothing gives way, a walk comes to the places of the plain one. -/
theorem Ty.places_superPath (ty : Ty) : ty.places .superPath = ty.places .plain := by
  -- Of a pass, `places` asks only what gives way; the recursion itself has to be opened to see it.
  delta Ty.places
  rfl

/-! ## Unnamed types -/

/-- Whether a part is an unnamed type. -/
def Part.isUnnamed : Part → Bool
  | .type (.implTrait _ _) => true
  | _ => false

/-- The fault of an unnamed type is an unnamed type's alone. -/
theorem Part.isUnnamed_of_fault? {part : Part} (h : part.fault? = some .implTrait) :
    part.isUnnamed := by
  unfold fault? at h
  split at h
  next => cases h
  next => rfl
  next => cases h
  next => cases h

/-- **Parts that are all of a known shape.** -/
def Known (parts : List Part) : Prop := ∀ kind, Part.type (.unknown kind) ∉ parts

/-- All shapes among two lists of parts are known exactly if those of each are. -/
@[simp] theorem known_append {front rest : List Part} :
    Known (front ++ rest) ↔ Known front ∧ Known rest := by
  simp only [Known, List.mem_append, not_or, forall_and]

/-- The parts behind a part of a known shape are of known shapes if all are. -/
theorem Known.tail {part : Part} {rest : List Part} (h : Known (part :: rest)) : Known rest :=
  fun kind hmem => h kind (List.mem_cons_of_mem _ hmem)

/-- **A search finds what is at some places**, if these are all of a known shape. -/
def Finds (result : Except Fault Bool) (places : List Part) : Prop :=
  Known places → result = .ok (places.any Part.isUnnamed)

namespace Finds

variable {result result' : Except Fault Bool} {places places' : List Part}

theorem nothing : Finds (.ok false) [] := fun _ => rfl

/-- A place in front that is not an unnamed type is passed by. -/
theorem behind (place : Part) (h : Finds result places) (hplace : place.isUnnamed = false) :
    Finds result (place :: places) := by
  intro hknown
  rw [h hknown.tail, List.any_cons, hplace, Bool.false_or]

/-- Two searches, one behind the other. -/
theorem either (h : Finds result places) (h' : Finds result' places') :
    Finds (eitherFound result result') (places ++ places') := by
  intro hknown
  obtain ⟨hfront, hrest⟩ := known_append.mp hknown
  rw [h hfront, h' hrest, List.any_append]
  rfl

end Finds

mutual

/-- **The search over a type** finds what is at the places of a plain walk. -/
theorem Ty.finds_hasImplTrait : (ty : Ty) → Finds ty.hasImplTrait (ty.places .plain)
  | .slice elem _ | .array elem _ _ | .pointer elem _ _ | .reference elem _ _ _ | .paren elem _
  | .group elem _ => by
    rw [Ty.hasImplTrait, Ty.places]
    exact (Ty.finds_hasImplTrait elem).behind _ rfl
  | .tuple elems _ => by
    rw [Ty.hasImplTrait, Ty.places]
    exact (finds_anyImplTrait elems).behind _ rfl
  | .function inputs output _ => by
    rw [Ty.hasImplTrait, Ty.places]
    exact ((finds_anyImplTrait inputs).either (finds_outputHasImplTrait output)).behind _ rfl
  | .traitObject bounds _ => by
    rw [Ty.hasImplTrait, Ty.places]
    exact (finds_anyBoundHasImplTrait bounds).behind _ rfl
  | .implTrait bounds _ => fun _ => by
    rw [Ty.hasImplTrait, Ty.places, List.any_cons]
    rfl
  | .infer _ | .never _ | .macroCall _ _ | .verbatim _ _ => by
    rw [Ty.hasImplTrait, Ty.places]
    exact Finds.nothing.behind _ rfl
  | .path path _ | .qualified _ _ path _ => by
    rw [Ty.hasImplTrait, Ty.places]
    exact (Path.finds_hasImplTrait path).behind _ rfl
  | .unknown kind => fun hknown => by
    rw [Ty.places] at hknown
    exact absurd (List.mem_singleton_self _) (hknown kind)

/-- The search over types. -/
theorem finds_anyImplTrait : (tys : List Ty) → Finds (anyImplTrait tys) (typesPlaces .plain tys)
  | [] => .nothing
  | ty :: rest => by
    rw [anyImplTrait, typesPlaces]
    exact (Ty.finds_hasImplTrait ty).either (finds_anyImplTrait rest)

/-- The search over a result. -/
theorem finds_outputHasImplTrait : (output : Option Ty) →
    Finds (outputHasImplTrait output) (outputPlaces .plain output)
  | none => .nothing
  | some ty => by
    rw [outputHasImplTrait, outputPlaces]
    exact Ty.finds_hasImplTrait ty

/-- The search over a path. -/
theorem Path.finds_hasImplTrait : (path : Path) → Finds path.hasImplTrait (path.places .plain)
  | ⟨segments, _⟩ => by
    rw [Path.hasImplTrait, Path.places]
    exact (finds_anySegmentHasImplTrait segments).behind _ rfl

/-- The search over segments. -/
theorem finds_anySegmentHasImplTrait : (segments : List Segment) →
    Finds (anySegmentHasImplTrait segments) (segmentsPlaces .plain segments)
  | [] => .nothing
  | segment :: rest => by
    rw [anySegmentHasImplTrait, segmentsPlaces]
    exact (Segment.finds_hasImplTrait segment).either (finds_anySegmentHasImplTrait rest)

/-- The search over a segment. -/
theorem Segment.finds_hasImplTrait : (segment : Segment) →
    Finds segment.hasImplTrait (segment.places .plain)
  | ⟨_, args⟩ => by
    rw [Segment.hasImplTrait, Segment.places]
    exact SegmentArgs.finds_hasImplTrait args

/-- The search over what is applied to a segment. -/
theorem SegmentArgs.finds_hasImplTrait : (args : SegmentArgs) →
    Finds args.hasImplTrait (args.places .plain)
  | .none => .nothing
  | .angle args => by
    rw [SegmentArgs.hasImplTrait, SegmentArgs.places]
    exact finds_anyArgHasImplTrait args
  | .call inputs output => by
    rw [SegmentArgs.hasImplTrait, SegmentArgs.places]
    exact (finds_anyImplTrait inputs).either (finds_outputHasImplTrait output)

/-- The search over generic arguments. -/
theorem finds_anyArgHasImplTrait : (args : List GenericArg) →
    Finds (anyArgHasImplTrait args) (argsPlaces .plain args)
  | [] => .nothing
  | arg :: rest => by
    rw [anyArgHasImplTrait, argsPlaces]
    exact (GenericArg.finds_hasImplTrait arg).either (finds_anyArgHasImplTrait rest)

/-- The search over a generic argument. -/
theorem GenericArg.finds_hasImplTrait : (arg : GenericArg) →
    Finds arg.hasImplTrait (arg.places .plain)
  | .type ty | .binding _ ty => by
    rw [GenericArg.hasImplTrait, GenericArg.places]
    exact Ty.finds_hasImplTrait ty
  | .lifetime _ | .const _ => .nothing

/-- The search over a bound. -/
theorem Bound.finds_hasImplTrait : (bound : Bound) → Finds bound.hasImplTrait (bound.places .plain)
  | .trait path _ => by
    rw [Bound.hasImplTrait, Bound.places]
    exact Path.finds_hasImplTrait path
  | .outlives _ => .nothing

/-- The search over bounds. -/
theorem finds_anyBoundHasImplTrait : (bounds : List Bound) →
    Finds (anyBoundHasImplTrait bounds) (boundsPlaces .plain bounds)
  | [] => .nothing
  | bound :: rest => by
    rw [anyBoundHasImplTrait, boundsPlaces]
    exact (Bound.finds_hasImplTrait bound).either (finds_anyBoundHasImplTrait rest)

end

/-! ## Types at places are types inside -/

/-- **The types among some parts are among others**; paths may be new. -/
def TypesWithin (places parts : List Part) : Prop :=
  ∀ ty, Part.type ty ∈ places → Part.type ty ∈ parts

namespace TypesWithin

variable {places places' parts parts' : List Part}

theorem nil (parts : List Part) : TypesWithin [] parts := fun _ h => absurd h List.not_mem_nil

/-- One part in front of both. -/
theorem behind (part : Part) (h : TypesWithin places parts) :
    TypesWithin (part :: places) (part :: parts) := by
  intro ty hty
  rcases List.mem_cons.mp hty with rfl | hty
  · exact List.mem_cons_self
  · exact List.mem_cons_of_mem _ (h ty hty)

/-- A path in front of the first. -/
theorem path (new : Path) (h : TypesWithin places parts) :
    TypesWithin (.path new :: places) parts :=
  fun ty hty => h ty ((List.mem_cons.mp hty).resolve_left Part.noConfusion)

/-- Lists that are joined are within joined lists. -/
theorem append (h : TypesWithin places parts) (h' : TypesWithin places' parts') :
    TypesWithin (places ++ places') (parts ++ parts') := by
  intro ty hty
  rcases List.mem_append.mp hty with hty | hty
  · exact List.mem_append_left _ (h ty hty)
  · exact List.mem_append_right _ (h' ty hty)

/-- Further parts in front of the second. -/
theorem right (front : List Part) (h : TypesWithin places parts) :
    TypesWithin places (front ++ parts) :=
  fun ty hty => List.mem_append_right _ (h ty hty)

/-- Further parts behind the second. -/
theorem left (h : TypesWithin places parts) (rest : List Part) :
    TypesWithin places (parts ++ rest) :=
  fun ty hty => List.mem_append_left _ (h ty hty)

end TypesWithin

section Places

variable (p : Pass)

mutual

/-- **The types that a walk comes to** are inside the type. -/
theorem Ty.places_within : (ty : Ty) → TypesWithin (ty.places p) ty.parts
  | .slice elem _ | .array elem _ _ | .pointer elem _ _ | .reference elem _ _ _ | .paren elem _
  | .group elem _ => by
    rw [Ty.places, Ty.parts]
    exact (Ty.places_within elem).behind _
  | .tuple elems _ => by
    rw [Ty.places, Ty.parts]
    exact (typesPlaces_within elems).behind _
  | .function inputs output _ => by
    rw [Ty.places, Ty.parts]
    exact ((typesPlaces_within inputs).append (outputPlaces_within output)).behind _
  | .traitObject bounds _ => by
    rw [Ty.places, Ty.parts]
    split
    · exact (solePlaces_within _ bounds).behind _
    · exact (boundsPlaces_within bounds).behind _
  | .implTrait bounds _ => by
    rw [Ty.places, Ty.parts]
    exact (boundsPlaces_within bounds).behind _
  | .infer _ | .never _ | .macroCall _ _ | .verbatim _ _ | .unknown _ => by
    rw [Ty.places, Ty.parts]
    exact (TypesWithin.nil _).behind _
  | .path path _ => by
    rw [Ty.places, Ty.parts]
    exact (Path.places_within path).behind _
  | .qualified self _ path _ => by
    rw [Ty.places, Ty.parts]
    exact ((Path.places_within path).right self.parts).behind _

/-- A walk over types stays within them. -/
theorem typesPlaces_within : (tys : List Ty) → TypesWithin (typesPlaces p tys) (typesParts tys)
  | [] => .nil _
  | ty :: rest => by
    rw [typesPlaces, typesParts]
    exact (Ty.places_within ty).append (typesPlaces_within rest)

/-- A walk over a result stays within it. -/
theorem outputPlaces_within : (output : Option Ty) →
    TypesWithin (outputPlaces p output) (outputParts output)
  | none => .nil _
  | some ty => by
    rw [outputPlaces, outputParts]
    exact Ty.places_within ty

/-- A walk over a path stays within what is applied to its segments. -/
theorem Path.places_within : (path : Path) → TypesWithin (path.places p) path.parts
  | ⟨segments, _⟩ => by
    rw [Path.places, Path.parts]
    exact (segmentsPlaces_within segments).behind _

/-- A walk over segments stays within what is applied to them. -/
theorem segmentsPlaces_within : (segments : List Segment) →
    TypesWithin (segmentsPlaces p segments) (segmentsParts segments)
  | [] => .nil _
  | segment :: rest => by
    rw [segmentsPlaces, segmentsParts]
    exact (Segment.places_within segment).append (segmentsPlaces_within rest)

theorem Segment.places_within : (segment : Segment) →
    TypesWithin (segment.places p) segment.parts
  | ⟨_, args⟩ => by
    rw [Segment.places, Segment.parts]
    exact SegmentArgs.places_within args

/-- A walk over arguments stays within them. -/
theorem SegmentArgs.places_within : (args : SegmentArgs) → TypesWithin (args.places p) args.parts
  | .none => .nil _
  | .angle args => by
    rw [SegmentArgs.places, SegmentArgs.parts]
    exact argsPlaces_within args
  | .call inputs output => by
    rw [SegmentArgs.places, SegmentArgs.parts]
    exact (typesPlaces_within inputs).append (outputPlaces_within output)

/-- A walk over generic arguments stays within them. -/
theorem argsPlaces_within : (args : List GenericArg) →
    TypesWithin (argsPlaces p args) (argsParts args)
  | [] => .nil _
  | arg :: rest => by
    rw [argsPlaces, argsParts]
    exact (GenericArg.places_within arg).append (argsPlaces_within rest)

/-- A walk over a generic argument stays within its type. -/
theorem GenericArg.places_within : (arg : GenericArg) → TypesWithin (arg.places p) arg.parts
  | .type ty | .binding _ ty => by
    rw [GenericArg.places, GenericArg.parts]
    exact Ty.places_within ty
  | .lifetime _ | .const _ => .nil _

/-- A walk over a bound stays within what is applied along its path. -/
theorem Bound.places_within : (bound : Bound) → TypesWithin (bound.places p) bound.parts
  | .trait path _ => by
    rw [Bound.places, Bound.parts]
    exact Path.places_within path
  | .outlives _ => .nil _

/-- A walk over bounds stays within them. -/
theorem boundsPlaces_within : (bounds : List Bound) →
    TypesWithin (boundsPlaces p bounds) (boundsParts bounds)
  | [] => .nil _
  | bound :: rest => by
    rw [boundsPlaces, boundsParts]
    exact (Bound.places_within bound).append (boundsPlaces_within rest)

/-- Where a trait object gives way, only what is applied to the last segment is left. -/
theorem solePlaces_within (name : String) : (bounds : List Bound) →
    TypesWithin (solePlaces p name bounds) (boundsParts bounds)
  | [] => .nil _
  | [.outlives _] => .nil _
  | [.trait ⟨segments, _⟩ _] => by
    rw [solePlaces, boundsParts, Bound.parts, Path.parts]
    exact ((lastPlaces_within name segments).right [_]).left _
  | .trait ⟨_, _⟩ _ :: _ :: _ | .outlives _ :: _ :: _ => .nil _

/-- A walk over the last of some segments stays within them all. -/
theorem lastPlaces_within (name : String) : (segments : List Segment) →
    TypesWithin (lastPlaces p name segments) (segmentsParts segments)
  | [] => .nil _
  | [⟨_, args⟩] => by
    rw [lastPlaces, segmentsParts, Segment.parts]
    exact ((SegmentArgs.places_within args).left _).path _
  | _ :: segment :: rest => by
    rw [lastPlaces, segmentsParts]
    exact (lastPlaces_within name (segment :: rest)).right _

end

end Places

/-- Where all parts are of a known shape, all places are. -/
theorem Known.places {ty : Ty} (h : Known ty.parts) (p : Pass) : Known (ty.places p) :=
  fun kind hmem => h kind (Ty.places_within p ty _ hmem)

/-- What is of a known shape ends a walk only as a function pointer or an unnamed type. -/
theorem Known.fault {parts : List Part} (h : Known parts) {fault : Fault}
    (hfault : fault ∈ faultsAt parts) : fault = .functionPointer ∨ fault = .implTrait := by
  obtain ⟨part, hpart, hfault⟩ := List.mem_filterMap.mp hfault
  unfold Part.fault? at hfault
  split at hfault
  next => exact .inl (Option.some.inj hfault).symm
  next => exact .inr (Option.some.inj hfault).symm
  next kind => exact absurd hpart (h kind)
  next => cases hfault

end TraitMock
