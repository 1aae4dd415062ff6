import Mathlib.Data.List.Forall2
import TraitMock.Proofs.Walk.Equation

/-!
# Proofs/Walk/Image — the places of a type after a walk

The places of what a walk makes of a type are what it makes of the places of the type, one by one
and in the same order (`Ty.places_become`), as long as nothing that it leaves gives way the next
time.  So what is true of each place after the walk is true of all places of the new type.

The one place to take care of is the name that a trait object gives way to: a walk does not rename
it, nor put anything in front of it, even where it would do so with another path of this name.
-/

namespace TraitMock

variable {p q : Pass}

theorem segmentsPlaces_append (p : Pass) (front rest : List Segment) :
    segmentsPlaces p (front ++ rest) = segmentsPlaces p front ++ segmentsPlaces p rest := by
  induction front with
  | nil => rfl
  | cons segment front ih => rw [List.cons_append, segmentsPlaces, segmentsPlaces, ih,
      List.append_assoc]

/-- Segments to which nothing is applied have no places. -/
theorem segmentsPlaces_of_bare {segments : List Segment} (h : ∀ s ∈ segments, s.args = .none) :
    segmentsPlaces p segments = [] := by
  induction segments with
  | nil => rfl
  | cons segment segments ih =>
    obtain ⟨ident, args⟩ := segment
    obtain rfl : args = .none := h _ List.mem_cons_self
    rw [segmentsPlaces, Segment.places, SegmentArgs.places, List.nil_append]
    exact ih fun s hs => h s (List.mem_cons_of_mem _ hs)

namespace Pass

/-- The path of one segment by a name. -/
def sole (name : String) (span : Span) (args : SegmentArgs) : Path :=
  ⟨[⟨⟨name, span⟩, args⟩], false⟩

/-- **What becomes of a place**: what the walk makes of it, but a name that a trait object gives way
to stays as it is. -/
def Becomes (p : Pass) (old new : Part) : Prop :=
  new = old.after p ∨ ∃ name span args, p.Collapses name ∧ old = .path (sole name span args) ∧
    new = .path (sole name span (args.after p))

/-- **A pass that clears the way for another**: where none of its trait objects gives way, none of
the other does afterwards. -/
structure Clears (p q : Pass) : Prop extends p.Orderly where
  collapse_after : ∀ {bounds}, p.collapse bounds = none → q.collapse (boundsAfter p bounds) = none

/-- The way is clear for a walk in which nothing gives way. -/
theorem Orderly.clears {p q : Pass} (hp : p.Orderly) (hq : ∀ bounds, q.collapse bounds = none) :
    p.Clears q :=
  { hp with collapse_after := fun _ => hq _ }

end Pass

mutual

/-- **The places of the new type** are what becomes of the places of the old one. -/
theorem Ty.places_become (hpq : p.Clears q) : (ty : Ty) → Walkable (ty.places p) →
    List.Forall₂ p.Becomes (ty.places p) ((ty.after p).places q)
  | .slice elem _, h | .array elem _ _, h | .pointer elem _ _, h | .reference elem _ _ _, h
  | .paren elem _, h | .group elem _, h => by
    rw [Ty.places, walkable_cons] at h
    rw [Ty.places, Ty.after, Ty.places]
    exact .cons (.inl rfl) (Ty.places_become hpq elem h.2)
  | .tuple elems _, h => by
    rw [Ty.places, walkable_cons] at h
    rw [Ty.places, Ty.after, Ty.places]
    exact .cons (.inl rfl) (typesPlaces_become hpq elems h.2)
  | .function _ _ _, h | .implTrait _ _, h | .unknown _, h => by
    rw [Ty.places] at h
    exact nomatch (walkable_cons.mp h).1
  | .infer _, _ | .never _, _ | .macroCall _ _, _ | .verbatim _ _, _ => by
    rw [Ty.places, Ty.after, Ty.places]
    exact .cons (.inl rfl) .nil
  | .path path _, h | .qualified _ _ path _, h => by
    rw [Ty.places, walkable_cons] at h
    rw [Ty.places, Ty.after, Ty.places]
    exact .cons (.inl rfl) (Path.places_become hpq path h.2)
  | .traitObject bounds s, h => by
    cases hc : p.collapse bounds with
    | none =>
      have hobject : (Ty.traitObject bounds s).after p = .traitObject (boundsAfter p bounds) s := by
        simp only [Ty.after, hc]
      rw [hobject]
      simp only [Ty.places, hc, hpq.collapse_after hc, walkable_cons] at h ⊢
      exact .cons (.inl (congrArg Part.type hobject.symm)) (boundsPlaces_become hpq bounds h.2)
    | some name =>
      obtain ⟨⟨segments, leadingColon⟩, relaxed, rfl, hne⟩ := hpq.collapse_sole hc
      simp only [Ty.places, hc, solePlaces, walkable_cons] at h
      obtain ⟨ident, args, hafter, hplaces, hargs⟩ := lastPlaces_become hpq name segments hne h.2
      have hobject : (Ty.traitObject [.trait ⟨segments, leadingColon⟩ relaxed] s).after p =
          .path (Pass.sole name ident.span (args.after p)) s := by
        simp only [Ty.after, hc, soleAfter, hafter, Pass.sole]
      rw [hobject]
      simp only [Ty.places, hc, solePlaces, hplaces, Pass.sole, Path.places, segmentsPlaces,
        Segment.places, List.append_nil]
      exact .cons (.inl (congrArg Part.type hobject.symm))
        (.cons (.inr ⟨name, ident.span, args, ⟨_, hc⟩, rfl, rfl⟩) hargs)

/-- What becomes of the places of types. -/
theorem typesPlaces_become (hpq : p.Clears q) : (tys : List Ty) → Walkable (typesPlaces p tys) →
    List.Forall₂ p.Becomes (typesPlaces p tys) (typesPlaces q (typesAfter p tys))
  | [], _ => .nil
  | ty :: rest, h => by
    rw [typesPlaces, walkable_append] at h
    rw [typesPlaces, typesAfter, typesPlaces]
    exact List.rel_append (Ty.places_become hpq ty h.1) (typesPlaces_become hpq rest h.2)

/-- What becomes of the places of a result. -/
theorem outputPlaces_become (hpq : p.Clears q) : (output : Option Ty) →
    Walkable (outputPlaces p output) →
    List.Forall₂ p.Becomes (outputPlaces p output) (outputPlaces q (outputAfter p output))
  | none, _ => .nil
  | some ty, h => Ty.places_become hpq ty h

/-- What becomes of the places of a path; what is put in front of it has none. -/
theorem Path.places_become (hpq : p.Clears q) : (path : Path) → Walkable (path.places p) →
    List.Forall₂ p.Becomes (path.places p) ((path.after p).places q)
  | ⟨segments, leadingColon⟩, h => by
    rw [Path.places, walkable_cons] at h
    rw [Path.places, Path.after, Path.led, Path.places, segmentsPlaces_append,
      segmentsPlaces_of_bare (hpq.lead_bare _), List.nil_append]
    exact .cons (.inl rfl) (segmentsPlaces_become hpq segments h.2)

/-- What becomes of the places of segments. -/
theorem segmentsPlaces_become (hpq : p.Clears q) : (segments : List Segment) →
    Walkable (segmentsPlaces p segments) →
    List.Forall₂ p.Becomes (segmentsPlaces p segments) (segmentsPlaces q (segmentsAfter p segments))
  | [], _ => .nil
  | segment :: rest, h => by
    rw [segmentsPlaces, walkable_append] at h
    rw [segmentsPlaces, segmentsAfter, segmentsPlaces]
    exact List.rel_append (Segment.places_become hpq segment h.1)
      (segmentsPlaces_become hpq rest h.2)

/-- What becomes of the places of a segment. -/
theorem Segment.places_become (hpq : p.Clears q) : (segment : Segment) →
    Walkable (segment.places p) →
    List.Forall₂ p.Becomes (segment.places p) ((segment.after p).places q)
  | ⟨_, args⟩, h => SegmentArgs.places_become hpq args h

/-- What becomes of the places of what is applied to a segment. -/
theorem SegmentArgs.places_become (hpq : p.Clears q) : (args : SegmentArgs) →
    Walkable (args.places p) →
    List.Forall₂ p.Becomes (args.places p) ((args.after p).places q)
  | .none, _ => .nil
  | .angle args, h => argsPlaces_become hpq args h
  | .call inputs output, h => by
    rw [SegmentArgs.places, walkable_append] at h
    rw [SegmentArgs.places, SegmentArgs.after, SegmentArgs.places]
    exact List.rel_append (typesPlaces_become hpq inputs h.1) (outputPlaces_become hpq output h.2)

/-- What becomes of the places of generic arguments. -/
theorem argsPlaces_become (hpq : p.Clears q) : (args : List GenericArg) →
    Walkable (argsPlaces p args) →
    List.Forall₂ p.Becomes (argsPlaces p args) (argsPlaces q (argsAfter p args))
  | [], _ => .nil
  | arg :: rest, h => by
    rw [argsPlaces, walkable_append] at h
    rw [argsPlaces, argsAfter, argsPlaces]
    exact List.rel_append (GenericArg.places_become hpq arg h.1) (argsPlaces_become hpq rest h.2)

/-- What becomes of the places of a generic argument. -/
theorem GenericArg.places_become (hpq : p.Clears q) : (arg : GenericArg) →
    Walkable (arg.places p) → List.Forall₂ p.Becomes (arg.places p) ((arg.after p).places q)
  | .type ty, h | .binding _ ty, h => Ty.places_become hpq ty h
  | .lifetime _, _ | .const _, _ => .nil

/-- What becomes of the places of a bound. -/
theorem Bound.places_become (hpq : p.Clears q) : (bound : Bound) → Walkable (bound.places p) →
    List.Forall₂ p.Becomes (bound.places p) ((bound.after p).places q)
  | .trait path _, h => Path.places_become hpq path h
  | .outlives _, _ => .nil

/-- What becomes of the places of bounds. -/
theorem boundsPlaces_become (hpq : p.Clears q) : (bounds : List Bound) →
    Walkable (boundsPlaces p bounds) →
    List.Forall₂ p.Becomes (boundsPlaces p bounds) (boundsPlaces q (boundsAfter p bounds))
  | [], _ => .nil
  | bound :: rest, h => by
    rw [boundsPlaces, walkable_append] at h
    rw [boundsPlaces, boundsAfter, boundsPlaces]
    exact List.rel_append (Bound.places_become hpq bound h.1) (boundsPlaces_become hpq rest h.2)

/-- Of segments that give way, what becomes of the places of what is applied to the last one. -/
theorem lastPlaces_become (hpq : p.Clears q) (name : String) : (segments : List Segment) →
    segments ≠ [] → Walkable (lastPlaces p name segments) →
    ∃ ident args, lastAfter p segments = some ⟨ident, args.after p⟩ ∧
      lastPlaces p name segments = .path (Pass.sole name ident.span args) :: args.places p ∧
      List.Forall₂ p.Becomes (args.places p) ((args.after p).places q)
  | [], hne, _ => absurd rfl hne
  | [⟨ident, args⟩], _, h =>
    ⟨ident, args, rfl, rfl, SegmentArgs.places_become hpq args (walkable_cons.mp h).2⟩
  | _ :: segment :: rest, _, h => by
    rw [lastPlaces] at h
    rw [lastAfter, lastPlaces]
    exact lastPlaces_become hpq name (segment :: rest) (List.cons_ne_nil _ _) h

end

/-- **The places of the new type** are what the walk makes of those of the old one, if the names
that trait objects give way to are not renamed, and nothing is put in front of them. -/
theorem Ty.places_after (hpq : p.Clears q)
    (hname : ∀ {name}, p.Collapses name →
      p.rename name = none ∧ ∀ span args, p.lead (Pass.sole name span args) = [])
    {ty : Ty} (h : Walkable (ty.places p)) :
    (ty.after p).places q = (ty.places p).map (Part.after p) := by
  refine Eq.symm (List.forall₂_eq_eq_eq ▸ List.forall₂_map_left_iff.mpr
    ((Ty.places_become hpq ty h).imp ?_))
  rintro _ _ (rfl | ⟨name, span, args, hcollapses, rfl, rfl⟩)
  · rfl
  · obtain ⟨hrename, hlead⟩ := hname hcollapses
    have hlead := hlead span (args.after p)
    simp only [Pass.sole, Part.after, Path.after, Path.led, segmentsAfter, Segment.after,
      Ident.after, hrename] at hlead ⊢
    rw [hlead, List.nil_append]

/-- A place that does not end a walk does not end one afterwards. -/
theorem Pass.Becomes.fault? {old new : Part} (h : p.Becomes old new) (hold : old.fault? = none) :
    new.fault? = none := by
  rcases h with rfl | ⟨name, span, args, -, rfl, rfl⟩
  · rcases old with ty | path
    · cases ty with
      | function | implTrait | unknown => cases hold
      | traitObject bounds s =>
        simp only [Part.after, Ty.after]
        split
        · split <;> rfl
        · rfl
      | _ => simp only [Part.after, Ty.after, Part.fault?]
    · rfl
  · rfl

/-- **A walk leaves no place that would end one.** -/
theorem Walkable.after (hpq : p.Clears q) {ty : Ty} (h : Walkable (ty.places p)) :
    Walkable ((ty.after p).places q) := by
  have hplaces := Ty.places_become hpq ty h
  generalize ty.places p = olds at h hplaces
  generalize (ty.after p).places q = news at hplaces ⊢
  induction hplaces with
  | nil => exact walkable_nil
  | cons hbecomes _ ih =>
    obtain ⟨hold, holds⟩ := walkable_cons.mp h
    exact walkable_cons.mpr ⟨hbecomes.fault? hold, ih holds⟩

/-! ## Walks that come to less -/

mutual

/-- **What no place ends for the plain walk**, none ends for another: it comes to the same types, or
to fewer. -/
theorem Ty.walkable_places (q : Pass) : (ty : Ty) → Walkable (ty.places .plain) →
    Walkable (ty.places q)
  | .slice elem _, h | .array elem _ _, h | .pointer elem _ _, h | .reference elem _ _ _, h
  | .paren elem _, h | .group elem _, h => by
    rw [Ty.places, walkable_cons] at h ⊢
    exact ⟨rfl, Ty.walkable_places q elem h.2⟩
  | .tuple elems _, h => by
    rw [Ty.places, walkable_cons] at h ⊢
    exact ⟨rfl, walkable_typesPlaces q elems h.2⟩
  | .function _ _ _, h | .implTrait _ _, h | .unknown _, h => by
    rw [Ty.places] at h
    exact nomatch (walkable_cons.mp h).1
  | .infer _, _ | .never _, _ | .macroCall _ _, _ | .verbatim _ _, _ => by
    rw [Ty.places, walkable_cons]
    exact ⟨rfl, walkable_nil⟩
  | .path path _, h | .qualified _ _ path _, h => by
    rw [Ty.places, walkable_cons] at h ⊢
    exact ⟨rfl, Path.walkable_places q path h.2⟩
  | .traitObject bounds s, h => by
    rw [Ty.places, walkable_cons] at h ⊢
    have hbounds : Walkable (boundsPlaces .plain bounds) := h.2
    refine ⟨rfl, ?_⟩
    split
    next name _ => exact walkable_solePlaces q name bounds hbounds
    next => exact walkable_boundsPlaces q bounds hbounds

/-- The places of types. -/
theorem walkable_typesPlaces (q : Pass) : (tys : List Ty) → Walkable (typesPlaces .plain tys) →
    Walkable (typesPlaces q tys)
  | [], _ => walkable_nil
  | ty :: rest, h => by
    rw [typesPlaces, walkable_append] at h ⊢
    exact ⟨Ty.walkable_places q ty h.1, walkable_typesPlaces q rest h.2⟩

/-- The places of a result. -/
theorem walkable_outputPlaces (q : Pass) : (output : Option Ty) →
    Walkable (outputPlaces .plain output) → Walkable (outputPlaces q output)
  | none, _ => walkable_nil
  | some ty, h => Ty.walkable_places q ty h

/-- The places of a path. -/
theorem Path.walkable_places (q : Pass) : (path : Path) → Walkable (path.places .plain) →
    Walkable (path.places q)
  | ⟨segments, _⟩, h => by
    rw [Path.places, walkable_cons] at h ⊢
    exact ⟨rfl, walkable_segmentsPlaces q segments h.2⟩

/-- The places of segments. -/
theorem walkable_segmentsPlaces (q : Pass) : (segments : List Segment) →
    Walkable (segmentsPlaces .plain segments) → Walkable (segmentsPlaces q segments)
  | [], _ => walkable_nil
  | segment :: rest, h => by
    rw [segmentsPlaces, walkable_append] at h ⊢
    exact ⟨Segment.walkable_places q segment h.1, walkable_segmentsPlaces q rest h.2⟩

/-- The places of a segment. -/
theorem Segment.walkable_places (q : Pass) : (segment : Segment) →
    Walkable (segment.places .plain) → Walkable (segment.places q)
  | ⟨_, args⟩, h => SegmentArgs.walkable_places q args h

/-- The places of what is applied to a segment. -/
theorem SegmentArgs.walkable_places (q : Pass) : (args : SegmentArgs) →
    Walkable (args.places .plain) → Walkable (args.places q)
  | .none, _ => walkable_nil
  | .angle args, h => walkable_argsPlaces q args h
  | .call inputs output, h => by
    rw [SegmentArgs.places, walkable_append] at h ⊢
    exact ⟨walkable_typesPlaces q inputs h.1, walkable_outputPlaces q output h.2⟩

/-- The places of generic arguments. -/
theorem walkable_argsPlaces (q : Pass) : (args : List GenericArg) →
    Walkable (argsPlaces .plain args) → Walkable (argsPlaces q args)
  | [], _ => walkable_nil
  | arg :: rest, h => by
    rw [argsPlaces, walkable_append] at h ⊢
    exact ⟨GenericArg.walkable_places q arg h.1, walkable_argsPlaces q rest h.2⟩

/-- The places of a generic argument. -/
theorem GenericArg.walkable_places (q : Pass) : (arg : GenericArg) →
    Walkable (arg.places .plain) → Walkable (arg.places q)
  | .type ty, h | .binding _ ty, h => Ty.walkable_places q ty h
  | .lifetime _, _ | .const _, _ => walkable_nil

/-- The places of a bound. -/
theorem Bound.walkable_places (q : Pass) : (bound : Bound) → Walkable (bound.places .plain) →
    Walkable (bound.places q)
  | .trait path _, h => Path.walkable_places q path h
  | .outlives _, _ => walkable_nil

/-- The places of bounds. -/
theorem walkable_boundsPlaces (q : Pass) : (bounds : List Bound) →
    Walkable (boundsPlaces .plain bounds) → Walkable (boundsPlaces q bounds)
  | [], _ => walkable_nil
  | bound :: rest, h => by
    rw [boundsPlaces, walkable_append] at h ⊢
    exact ⟨Bound.walkable_places q bound h.1, walkable_boundsPlaces q rest h.2⟩

/-- The places of a sole bound. -/
theorem walkable_solePlaces (q : Pass) (name : String) : (bounds : List Bound) →
    Walkable (boundsPlaces .plain bounds) → Walkable (solePlaces q name bounds)
  | [.trait ⟨segments, _⟩ _], h => by
    rw [boundsPlaces, walkable_append, Bound.places, Path.places, walkable_cons] at h
    exact walkable_lastPlaces q name segments h.1.2
  | [], _ | [.outlives _], _ => walkable_nil
  | .trait ⟨_, _⟩ _ :: _ :: _, _ | .outlives _ :: _ :: _, _ => walkable_nil

/-- The places of the last segment. -/
theorem walkable_lastPlaces (q : Pass) (name : String) : (segments : List Segment) →
    Walkable (segmentsPlaces .plain segments) → Walkable (lastPlaces q name segments)
  | [], _ => walkable_nil
  | [⟨_, args⟩], h => by
    rw [segmentsPlaces, walkable_append] at h
    rw [lastPlaces, walkable_cons]
    exact ⟨rfl, SegmentArgs.walkable_places q args h.1⟩
  | _ :: segment :: rest, h => by
    rw [segmentsPlaces, walkable_append] at h
    rw [lastPlaces]
    exact walkable_lastPlaces q name (segment :: rest) h.2

end

/-! ## Walks that come to everything -/

/-- Parts all types of which are of supported forms. -/
def SupportedParts (parts : List Part) : Prop := ∀ t, .type t ∈ parts → t.isSupported

@[simp] theorem supportedParts_type_cons {ty : Ty} {rest : List Part} :
    SupportedParts (.type ty :: rest) ↔ ty.isSupported ∧ SupportedParts rest := by
  simp [SupportedParts]

@[simp] theorem supportedParts_path_cons {path : Path} {rest : List Part} :
    SupportedParts (.path path :: rest) ↔ SupportedParts rest := by
  simp [SupportedParts]

@[simp] theorem supportedParts_append {front rest : List Part} :
    SupportedParts (front ++ rest) ↔ SupportedParts front ∧ SupportedParts rest := by
  simp [SupportedParts, or_imp, forall_and]

mutual

/-- **A walk comes to every part** of a type of supported forms, if no trait object gives way. -/
theorem Ty.places_eq_parts (hq : ∀ bounds, q.collapse bounds = none) : (ty : Ty) →
    SupportedParts ty.parts → ty.places q = ty.parts
  | .slice elem _, h | .array elem _ _, h | .pointer elem _ _, h | .reference elem _ _ _, h
  | .paren elem _, h | .group elem _, h => by
    rw [Ty.parts, supportedParts_type_cons] at h
    rw [Ty.places, Ty.parts, Ty.places_eq_parts hq elem h.2]
  | .tuple elems _, h => by
    rw [Ty.parts, supportedParts_type_cons] at h
    rw [Ty.places, Ty.parts, typesPlaces_eq_parts hq elems h.2]
  | .path path _, h => by
    rw [Ty.parts, supportedParts_type_cons] at h
    rw [Ty.places, Ty.parts, Path.places_eq_parts hq path h.2]
  | .traitObject bounds _, h => by
    rw [Ty.parts, supportedParts_type_cons] at h
    simp only [Ty.places, Ty.parts, hq]
    rw [boundsPlaces_eq_parts hq bounds h.2]
  | .infer _, _ | .never _, _ => by
    rw [Ty.places, Ty.parts]
  | .function _ _ _, h | .implTrait _ _, h | .macroCall _ _, h | .verbatim _ _, h
  | .qualified _ _ _ _, h | .unknown _, h => by
    rw [Ty.parts, supportedParts_type_cons] at h
    exact nomatch h.1

/-- The parts of types. -/
theorem typesPlaces_eq_parts (hq : ∀ bounds, q.collapse bounds = none) : (tys : List Ty) →
    SupportedParts (typesParts tys) → typesPlaces q tys = typesParts tys
  | [], _ => rfl
  | ty :: rest, h => by
    rw [typesParts, supportedParts_append] at h
    rw [typesPlaces, typesParts, Ty.places_eq_parts hq ty h.1, typesPlaces_eq_parts hq rest h.2]

/-- The parts of a result. -/
theorem outputPlaces_eq_parts (hq : ∀ bounds, q.collapse bounds = none) : (output : Option Ty) →
    SupportedParts (outputParts output) → outputPlaces q output = outputParts output
  | none, _ => rfl
  | some ty, h => Ty.places_eq_parts hq ty h

/-- The parts of a path. -/
theorem Path.places_eq_parts (hq : ∀ bounds, q.collapse bounds = none) : (path : Path) →
    SupportedParts path.parts → path.places q = path.parts
  | ⟨segments, _⟩, h => by
    rw [Path.parts, supportedParts_path_cons] at h
    rw [Path.places, Path.parts, segmentsPlaces_eq_parts hq segments h]

/-- The parts of segments. -/
theorem segmentsPlaces_eq_parts (hq : ∀ bounds, q.collapse bounds = none) :
    (segments : List Segment) → SupportedParts (segmentsParts segments) →
    segmentsPlaces q segments = segmentsParts segments
  | [], _ => rfl
  | segment :: rest, h => by
    rw [segmentsParts, supportedParts_append] at h
    rw [segmentsPlaces, segmentsParts, Segment.places_eq_parts hq segment h.1,
      segmentsPlaces_eq_parts hq rest h.2]

/-- The parts of a segment. -/
theorem Segment.places_eq_parts (hq : ∀ bounds, q.collapse bounds = none) : (segment : Segment) →
    SupportedParts segment.parts → segment.places q = segment.parts
  | ⟨_, args⟩, h => SegmentArgs.places_eq_parts hq args h

/-- The parts of what is applied to a segment. -/
theorem SegmentArgs.places_eq_parts (hq : ∀ bounds, q.collapse bounds = none) :
    (args : SegmentArgs) → SupportedParts args.parts → args.places q = args.parts
  | .none, _ => rfl
  | .angle args, h => argsPlaces_eq_parts hq args h
  | .call inputs output, h => by
    rw [SegmentArgs.parts, supportedParts_append] at h
    rw [SegmentArgs.places, SegmentArgs.parts, typesPlaces_eq_parts hq inputs h.1,
      outputPlaces_eq_parts hq output h.2]

/-- The parts of generic arguments. -/
theorem argsPlaces_eq_parts (hq : ∀ bounds, q.collapse bounds = none) : (args : List GenericArg) →
    SupportedParts (argsParts args) → argsPlaces q args = argsParts args
  | [], _ => rfl
  | arg :: rest, h => by
    rw [argsParts, supportedParts_append] at h
    rw [argsPlaces, argsParts, GenericArg.places_eq_parts hq arg h.1,
      argsPlaces_eq_parts hq rest h.2]

/-- The parts of a generic argument. -/
theorem GenericArg.places_eq_parts (hq : ∀ bounds, q.collapse bounds = none) : (arg : GenericArg) →
    SupportedParts arg.parts → arg.places q = arg.parts
  | .type ty, h | .binding _ ty, h => Ty.places_eq_parts hq ty h
  | .lifetime _, _ | .const _, _ => rfl

/-- The parts of a bound. -/
theorem Bound.places_eq_parts (hq : ∀ bounds, q.collapse bounds = none) : (bound : Bound) →
    SupportedParts bound.parts → bound.places q = bound.parts
  | .trait path _, h => Path.places_eq_parts hq path h
  | .outlives _, _ => rfl

/-- The parts of bounds. -/
theorem boundsPlaces_eq_parts (hq : ∀ bounds, q.collapse bounds = none) : (bounds : List Bound) →
    SupportedParts (boundsParts bounds) → boundsPlaces q bounds = boundsParts bounds
  | [], _ => rfl
  | bound :: rest, h => by
    rw [boundsParts, supportedParts_append] at h
    rw [boundsPlaces, boundsParts, Bound.places_eq_parts hq bound h.1,
      boundsPlaces_eq_parts hq rest h.2]

end

/-! ## Names after a walk -/

theorem Ident.name_after (p : Pass) (ident : Ident) :
    (ident.after p).name = p.called ident.name := by
  rw [Ident.after, Pass.called]
  cases p.rename ident.name <;> rfl

theorem map_name_segmentsAfter (p : Pass) (segments : List Segment) :
    (segmentsAfter p segments).map (·.ident.name) = segments.map (p.called ·.ident.name) := by
  induction segments with
  | nil => rfl
  | cons segment segments ih =>
    obtain ⟨ident, args⟩ := segment
    rw [segmentsAfter, List.map_cons, List.map_cons, ih, Segment.after, Ident.name_after]

/-- **The names of a path after a walk**: the new names of its segments, behind what is put in front
of them. -/
theorem Path.names_after (p : Pass) (path : Path) :
    (path.after p).names =
      (p.lead ⟨segmentsAfter p path.segments, path.leadingColon⟩).map (·.ident.name) ++
        path.names.map p.called := by
  obtain ⟨segments, leadingColon⟩ := path
  rw [Path.after, led, names, List.map_append, map_name_segmentsAfter, names, List.map_map]
  rfl

theorem Path.leadingColon_after (p : Pass) (path : Path) :
    (path.after p).leadingColon = path.leadingColon := by
  obtain ⟨segments, leadingColon⟩ := path
  rfl

/-- A path comes out of a walk as it is carried. -/
theorem Path.carries_after (p : Pass) (path : Path) : p.Carries path (path.after p) := by
  refine ⟨⟨segmentsAfter p path.segments, path.leadingColon⟩, rfl, ?_,
    path.leadingColon_after p, ?_⟩
  · rw [names, map_name_segmentsAfter, names, List.map_map]
    rfl
  · obtain ⟨segments, leadingColon⟩ := path
    rw [Path.after, led, names, List.map_append, names]

theorem Path.getLast?_names (path : Path) : path.names.getLast? = path.lastName? := by
  rw [names, lastName?, List.getLast?_map]

end TraitMock
