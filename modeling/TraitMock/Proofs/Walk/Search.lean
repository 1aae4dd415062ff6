import TraitMock.Proofs.Decl.RoundTrip
import TraitMock.Proofs.Walk.Faults

/-!
# Proofs/Walk/Search — what the search for unnamed types finds, and what it misses

The search looks at the places of the plain walk, which are all parts of a type but those inside the
types of qualified paths (`Ty.places_reveal`).  So an unnamed type anywhere in a type is found,
unless the only ones are concealed there (`Ty.hasImplTrait_exact`): in `<impl A as T>::X` the search
finds none.
-/

namespace TraitMock

/-! ## Places and parts -/

/-- A type inside the type of a qualified path among some places. -/
def Conceals (places : List Part) (ty : Ty) : Prop :=
  ∃ self position path s, .type (.qualified self position path s) ∈ places ∧ .type ty ∈ self.parts

/-- **Some places reveal the types among some parts**: each of these is a place, or is concealed at
one. -/
def Reveals (places parts : List Part) : Prop :=
  ∀ ty, .type ty ∈ parts → .type ty ∈ places ∨ Conceals places ty

namespace Reveals

variable {places places' parts parts' : List Part}

theorem nil : Reveals [] [] := fun _ h => .inl h

theorem mono (h : Reveals places parts) (hsub : places ⊆ places') : Reveals places' parts := by
  intro ty hty
  rcases h ty hty with hplace | ⟨self, position, path, s, hplace, hself⟩
  · exact .inl (hsub hplace)
  · exact .inr ⟨self, position, path, s, hsub hplace, hself⟩

/-- One part in front of both. -/
theorem behind (part : Part) (h : Reveals places parts) :
    Reveals (part :: places) (part :: parts) := by
  intro ty hty
  rcases List.mem_cons.mp hty with rfl | hty
  · exact .inl List.mem_cons_self
  · exact h.mono (List.subset_cons_self _ _) ty hty

theorem append (h : Reveals places parts) (h' : Reveals places' parts') :
    Reveals (places ++ places') (parts ++ parts') := by
  intro ty hty
  rcases List.mem_append.mp hty with hty | hty
  · exact h.mono (List.subset_append_left _ _) ty hty
  · exact h'.mono (List.subset_append_right _ _) ty hty

/-- A qualified path in front, whose type is not among the places. -/
theorem qualified (h : Reveals places parts) (self : Ty) (position : Int) (path : Path) (s : Span) :
    Reveals (.type (.qualified self position path s) :: places)
      (.type (.qualified self position path s) :: (self.parts ++ parts)) := by
  intro ty hty
  rcases List.mem_cons.mp hty with htype | hty
  · exact .inl (htype ▸ List.mem_cons_self)
  rcases List.mem_append.mp hty with hself | hty
  · exact .inr ⟨self, position, path, s, List.mem_cons_self, hself⟩
  · exact h.mono (List.subset_cons_self _ _) ty hty

end Reveals

mutual

/-- **The places of the plain walk reveal the types inside a type.** -/
theorem Ty.places_reveal : (ty : Ty) → Reveals (ty.places .plain) ty.parts
  | .slice elem _ | .array elem _ _ | .pointer elem _ _ | .reference elem _ _ _ | .paren elem _
  | .group elem _ => by
    rw [Ty.places, Ty.parts]
    exact (Ty.places_reveal elem).behind _
  | .tuple elems _ => by
    rw [Ty.places, Ty.parts]
    exact (typesPlaces_reveal elems).behind _
  | .function inputs output _ => by
    rw [Ty.places, Ty.parts]
    exact ((typesPlaces_reveal inputs).append (outputPlaces_reveal output)).behind _
  | .traitObject bounds _ | .implTrait bounds _ => by
    rw [Ty.places, Ty.parts]
    exact (boundsPlaces_reveal bounds).behind _
  | .infer _ | .never _ | .macroCall _ _ | .verbatim _ _ | .unknown _ => by
    rw [Ty.places, Ty.parts]
    exact Reveals.nil.behind _
  | .path path _ => by
    rw [Ty.places, Ty.parts]
    exact (Path.places_reveal path).behind _
  | .qualified self position path s => by
    rw [Ty.places, Ty.parts]
    exact (Path.places_reveal path).qualified self position path s

theorem typesPlaces_reveal : (tys : List Ty) → Reveals (typesPlaces .plain tys) (typesParts tys)
  | [] => .nil
  | ty :: rest => by
    rw [typesPlaces, typesParts]
    exact (Ty.places_reveal ty).append (typesPlaces_reveal rest)

theorem outputPlaces_reveal : (output : Option Ty) →
    Reveals (outputPlaces .plain output) (outputParts output)
  | none => .nil
  | some ty => by
    rw [outputPlaces, outputParts]
    exact Ty.places_reveal ty

theorem Path.places_reveal : (path : Path) → Reveals (path.places .plain) path.parts
  | ⟨segments, _⟩ => by
    rw [Path.places, Path.parts]
    exact (segmentsPlaces_reveal segments).behind _

theorem segmentsPlaces_reveal : (segments : List Segment) →
    Reveals (segmentsPlaces .plain segments) (segmentsParts segments)
  | [] => .nil
  | segment :: rest => by
    rw [segmentsPlaces, segmentsParts]
    exact (Segment.places_reveal segment).append (segmentsPlaces_reveal rest)

theorem Segment.places_reveal : (segment : Segment) →
    Reveals (segment.places .plain) segment.parts
  | ⟨_, args⟩ => by
    rw [Segment.places, Segment.parts]
    exact SegmentArgs.places_reveal args

theorem SegmentArgs.places_reveal : (args : SegmentArgs) → Reveals (args.places .plain) args.parts
  | .none => .nil
  | .angle args => by
    rw [SegmentArgs.places, SegmentArgs.parts]
    exact argsPlaces_reveal args
  | .call inputs output => by
    rw [SegmentArgs.places, SegmentArgs.parts]
    exact (typesPlaces_reveal inputs).append (outputPlaces_reveal output)

theorem argsPlaces_reveal : (args : List GenericArg) →
    Reveals (argsPlaces .plain args) (argsParts args)
  | [] => .nil
  | arg :: rest => by
    rw [argsPlaces, argsParts]
    exact (GenericArg.places_reveal arg).append (argsPlaces_reveal rest)

theorem GenericArg.places_reveal : (arg : GenericArg) → Reveals (arg.places .plain) arg.parts
  | .type ty | .binding _ ty => by
    rw [GenericArg.places, GenericArg.parts]
    exact Ty.places_reveal ty
  | .lifetime _ | .const _ => .nil

theorem Bound.places_reveal : (bound : Bound) → Reveals (bound.places .plain) bound.parts
  | .trait path _ => by
    rw [Bound.places, Bound.parts]
    exact Path.places_reveal path
  | .outlives _ => .nil

theorem boundsPlaces_reveal : (bounds : List Bound) →
    Reveals (boundsPlaces .plain bounds) (boundsParts bounds)
  | [] => .nil
  | bound :: rest => by
    rw [boundsPlaces, boundsParts]
    exact (Bound.places_reveal bound).append (boundsPlaces_reveal rest)

end

/-! ## What is found -/

theorem Part.any_isUnnamed {parts : List Part} :
    parts.any Part.isUnnamed = true ↔ ∃ bounds s, .type (.implTrait bounds s) ∈ parts := by
  rw [List.any_eq_true]
  constructor
  · rintro ⟨part, hpart, hunnamed⟩
    unfold Part.isUnnamed at hunnamed
    split at hunnamed
    next bounds s => exact ⟨bounds, s, hpart⟩
    next => cases hunnamed
  · rintro ⟨bounds, s, hpart⟩
    exact ⟨_, hpart, rfl⟩

/-- **The search for unnamed types is exact outside the types of qualified paths.**  In a type of
known shapes it comes to an end.  It finds an unnamed type exactly if there is one where the plain
walk comes to, be it inside a function pointer; where the types of qualified paths conceal none,
that is exactly if there is one anywhere in the type. -/
theorem Ty.hasImplTrait_exact {ty : Ty} (h : Known ty.parts) :
    ∃ found, ty.hasImplTrait = .ok found ∧
      (found = true ↔ ∃ bounds s, .type (.implTrait bounds s) ∈ ty.places .plain) ∧
      ((∀ bounds s, ¬ Conceals (ty.places .plain) (.implTrait bounds s)) →
        (found = true ↔ ∃ bounds s, .type (.implTrait bounds s) ∈ ty.parts)) := by
  refine ⟨_, Ty.finds_hasImplTrait ty (h.places .plain), Part.any_isUnnamed, fun hopen => ?_⟩
  rw [Part.any_isUnnamed]
  constructor
  · rintro ⟨bounds, s, hplace⟩
    exact ⟨bounds, s, Ty.places_within .plain ty _ hplace⟩
  · rintro ⟨bounds, s, hpart⟩
    exact ⟨bounds, s, (Ty.places_reveal ty _ hpart).resolve_right (hopen bounds s)⟩

/-- `fn(&[impl Debug]) -> u8` -/
def debugCallback : Ty :=
  let debug : Path := .ofIdents [⟨"Debug", {}⟩]
  .function [.reference (.slice (.implTrait [.trait debug false] {}) {}) none false {}]
    (some (.path (.ofIdents [⟨"u8", {}⟩]) {})) {}

/-- The unnamed type among the arguments of the function pointer is found. -/
theorem debugCallback_searched :
    Known debugCallback.parts ∧ debugCallback.hasImplTrait = .ok true ∧
      ∃ bounds s, .type (.implTrait bounds s) ∈ debugCallback.parts := by
  have hknown : Known debugCallback.parts := by
    intro kind hmem
    simp [debugCallback, Ty.parts, typesParts, outputParts, boundsParts, Bound.parts, Path.parts,
      Path.ofIdents, segmentsParts, Segment.parts, SegmentArgs.parts] at hmem
  have hopen : ∀ bounds s, ¬ Conceals (debugCallback.places .plain) (.implTrait bounds s) := by
    rintro bounds s ⟨self, position, path, s', hplace, -⟩
    simp [debugCallback, Ty.places, typesPlaces, outputPlaces, boundsPlaces, Bound.places,
      Path.places, Path.ofIdents, segmentsPlaces, Segment.places, SegmentArgs.places] at hplace
  obtain ⟨found, hfound, -, hexact⟩ := Ty.hasImplTrait_exact hknown
  have htrue : found = true := Except.ok.inj (hfound.symm.trans rfl)
  exact ⟨hknown, htrue ▸ hfound, (hexact hopen).mp htrue⟩

/-- In `<impl A as T>::X` the unnamed type is the type of the qualified path, and is missed. -/
theorem concealedUnnamed_missed :
    ∃ ty, Ty.parse "<impl A as T>::X" = .ok ty ∧ ty.hasImplTrait = .ok false ∧
      ∃ bounds s, .type (.implTrait bounds s) ∈ ty.parts := by
  obtain ⟨ty, hty, hsearch⟩ := exists_of_toOption (e := Ty.parse "<impl A as T>::X")
    (f := fun ty => (ty.hasImplTrait.toOption, ty.parts.any Part.isUnnamed))
    (b := (some false, true)) (by decide +kernel)
  obtain ⟨hmissed, hthere⟩ := Prod.mk.inj hsearch
  refine ⟨ty, hty, ?_, Part.any_isUnnamed.mp hthere⟩
  cases hrun : ty.hasImplTrait with
  | ok found =>
    rw [hrun] at hmissed
    exact congrArg _ (Option.some.inj hmissed)
  | error fault =>
    rw [hrun] at hmissed
    cases hmissed

end TraitMock
