import TraitMock.Proofs.Decl.Moved
import TraitMock.Proofs.Report.Moved
import TraitMock.Walk.ImplTrait
import TraitMock.Walk.SelfType
import TraitMock.Walk.SuperPath

/-!
# Proofs/Walk/Moved — a walk over a tree that stands elsewhere

A pass that does not look at places makes the same of a tree wherever it stands: the walk over the
moved tree reports the same at the moved places and gives the moved edit (`Ty.walk_moved`).
-/

namespace TraitMock

open Checked

variable {f : Span → Span} {p : Pass}

/-! ## Edits -/

namespace Edit

variable {α β γ : Type}

/-- What is kept is kept, whatever is made of values. -/
theorem map_keep (g : α → β) : (keep : Edit α).map g = keep := rfl

/-- What is put in place is changed with the values. -/
theorem map_replace (g : α → β) (new : α) : (replace new).map g = replace (g new) := rfl

/-- Changing an edit twice is changing it once, by both. -/
theorem map_map (g : α → β) (h : β → γ) (e : Edit α) :
    (e.map g).map h = e.map fun a => h (g a) := by
  cases e <;> rfl

/-- The edit of a list, once moved, is that of the moved head and the moved rest. -/
theorem cons_map (g : α → β) (gs : List α → List β) (hgs : ∀ a as, gs (a :: as) = g a :: gs as)
    (head : α) (tail : List α) (e : Edit α) (es : Edit (List α)) :
    cons (g head) (gs tail) (e.map g) (es.map gs) = (cons head tail e es).map gs := by
  cases e <;> cases es <;> simp only [cons, map, apply, hgs]

end Edit

/-- **A pass that looks at no place**: what it puts in front of a moved path is moved with it, and
what it says of bounds is the same wherever they stand. -/
structure Pass.Blind (f : Span → Span) (p : Pass) : Prop where
  lead : ∀ path : Path, p.lead (path.moved f) = (p.lead path).map (Segment.moved f)
  collapse : ∀ bounds : List Bound, p.collapse (movedBounds f bounds) = p.collapse bounds
  objection : ∀ bounds : List Bound, p.objection (movedBounds f bounds) = p.objection bounds

/-- Putting steps in front of a path and moving it is moving it and putting them in front. -/
theorem Path.withLead_moved (hp : p.Blind f) (segments : List Segment) (leadingColon : Bool)
    (e : Edit (List Segment)) :
    Path.withLead p.lead ⟨movedSegments f segments, leadingColon⟩ (e.map (movedSegments f)) =
      (Path.withLead p.lead ⟨segments, leadingColon⟩ e).map (Path.moved f) := by
  have hsegments : (e.map (movedSegments f)).apply (movedSegments f segments) =
      movedSegments f (e.apply segments) := Edit.apply_map _ _ _
  have hlead := hp.lead ⟨e.apply segments, leadingColon⟩
  simp only [Path.moved] at hlead
  simp only [Path.withLead, hsegments, hlead]
  cases p.lead ⟨e.apply segments, leadingColon⟩ with
  | nil => simp only [List.map_nil, Edit.map_map, Path.moved]
  | cons first rest =>
    simp only [List.map_cons, Edit.map_replace, Path.moved]
    rw [movedSegments_eq_map, movedSegments_eq_map, List.map_append, List.map_cons]

/-- A segment is renamed by its name alone, so alike at another place. -/
theorem Segment.edit_moved (rename : String → Option String) (ident : Ident) (args : SegmentArgs)
    (e : Edit SegmentArgs) :
    Segment.edit rename (ident.moved f) (args.moved f) (e.map (SegmentArgs.moved f)) =
      (Segment.edit rename ident args e).map (Segment.moved f) := by
  simp only [Segment.edit, Ident.moved]
  cases rename ident.name with
  | some name => simp only [Edit.map_replace, Edit.apply_map, Segment.moved, Ident.moved]
  | none => simp only [Edit.map_map, Segment.moved, Ident.moved]

/-- The edits of the inputs and of the result of a call are joined alike elsewhere. -/
theorem SegmentArgs.editCall_moved (inputs : List Ty) (output : Option Ty) (e : Edit (List Ty))
    (o : Edit (Option Ty)) :
    SegmentArgs.editCall (movedTypes f inputs) (movedOutput f output) (e.map (movedTypes f))
        (o.map (movedOutput f)) =
      (SegmentArgs.editCall inputs output e o).map (SegmentArgs.moved f) := by
  cases e <;> cases o <;> rfl

/-- A problem at a place is reported at the moved place. -/
theorem moved_reportSome (problem : Option Problem) (s : Span) :
    (reportSome problem s).moved f = reportSome problem (f s) := by
  cases problem with
  | none => rfl
  | some problem => exact moved_report problem s

/-! ## Walks -/

section Walks

-- With these, both sides of each equation become a sequence of the walks over the parts.
attribute [local simp] moved_bind moved_pure moved_fail moved_report moved_reportSome
  Checked.bind_assoc Checked.pure_bind Edit.map_map

mutual

/-- **The walk over a type that stands elsewhere** reports the same there and gives the moved
edit. -/
theorem Ty.walk_moved (hp : p.Blind f) : ∀ ty : Ty,
    (ty.moved f).walk p = do return (← (ty.walk p).moved f).map (Ty.moved f)
  | .slice elem _ | .array elem _ _ | .pointer elem _ _ | .reference elem _ _ _ | .paren elem _
  | .group elem _ => by simp [Ty.moved, Ty.walk, elem.walk_moved hp]
  | .tuple elems _ => by simp [Ty.moved, Ty.walk, walkTypes_moved hp elems]
  | .function _ _ _ | .implTrait _ _ | .unknown _ => by simp [Ty.moved, Ty.walk]
  | .traitObject bounds s => by
    simp only [Ty.moved, Ty.walk, hp.collapse, hp.objection]
    cases p.collapse bounds with
    | some name =>
      simp only [walkSole_moved hp bounds, moved_bind, Checked.bind_assoc, Checked.pure_bind]
      congr 1
      funext o
      rcases o with _ | ⟨ident, args⟩ <;> rfl
    | none => simp [Ty.moved, walkBounds_moved hp bounds]
  | .infer _ | .never _ => by
    simp [Ty.moved, Ty.walk, Edit.map_keep]
  | .macroCall text _ | .verbatim text _ => by
    simp [Ty.moved, Ty.walk, Edit.map_keep]
  | .path path _ => by simp [Ty.moved, Ty.walk, path.walk_moved hp]
  | .qualified self position ⟨segments, leadingColon⟩ s => by
    have hlength : ∀ path : Path, (path.moved f).segments.length = path.segments.length := by
      rintro ⟨segments, leadingColon⟩
      rw [Path.moved, movedSegments_eq_map, List.length_map]
    simp [Ty.moved, Ty.walk, Path.walk_moved hp ⟨segments, leadingColon⟩, hlength]

/-- A walk over types moves with them, one by one. -/
theorem walkTypes_moved (hp : p.Blind f) : ∀ tys : List Ty,
    walkTypes p (movedTypes f tys) = do return (← (walkTypes p tys).moved f).map (movedTypes f)
  | [] => rfl
  | ty :: rest => by
    simp [movedTypes, walkTypes, ty.walk_moved hp, walkTypes_moved hp rest,
      Edit.cons_map (Ty.moved f) (movedTypes f) fun _ _ => rfl]

/-- A walk over a result moves with it; where there is none there is nothing to walk. -/
theorem walkOutput_moved (hp : p.Blind f) : ∀ output : Option Ty,
    walkOutput p (movedOutput f output) =
      do return (← (walkOutput p output).moved f).map (movedOutput f)
  | none => rfl
  | some ty => by simp [movedOutput, walkOutput, ty.walk_moved hp]

/-- A walk over a path moves with it: neither the segments nor the steps in front look at places. -/
theorem Path.walk_moved (hp : p.Blind f) : ∀ path : Path,
    (path.moved f).walk p = do return (← (path.walk p).moved f).map (Path.moved f)
  | ⟨segments, leadingColon⟩ => by
    simp [Path.moved, Path.walk, walkSegments_moved hp segments, Path.withLead_moved hp]

/-- A walk over segments moves with them, one by one. -/
theorem walkSegments_moved (hp : p.Blind f) : ∀ segments : List Segment,
    walkSegments p (movedSegments f segments) =
      do return (← (walkSegments p segments).moved f).map (movedSegments f)
  | [] => rfl
  | segment :: rest => by
    simp [movedSegments, walkSegments, segment.walk_moved hp, walkSegments_moved hp rest,
      Edit.cons_map (Segment.moved f) (movedSegments f) fun _ _ => rfl]

/-- A walk over a segment moves with it. -/
theorem Segment.walk_moved (hp : p.Blind f) : ∀ segment : Segment,
    (segment.moved f).walk p = do return (← (segment.walk p).moved f).map (Segment.moved f)
  | ⟨ident, args⟩ => by
    simp [Segment.moved, Segment.walk, args.walk_moved hp, Segment.edit_moved]

/-- A walk over arguments moves with them, in whichever brackets. -/
theorem SegmentArgs.walk_moved (hp : p.Blind f) : ∀ args : SegmentArgs,
    (args.moved f).walk p = do return (← (args.walk p).moved f).map (SegmentArgs.moved f)
  | .none => rfl
  | .angle args => by simp [SegmentArgs.moved, SegmentArgs.walk, walkGenericArgs_moved hp args]
  | .call inputs output => by
    simp [SegmentArgs.moved, SegmentArgs.walk, walkTypes_moved hp inputs,
      walkOutput_moved hp output, SegmentArgs.editCall_moved]

/-- A walk over generic arguments moves with them, one by one. -/
theorem walkGenericArgs_moved (hp : p.Blind f) : ∀ args : List GenericArg,
    walkGenericArgs p (movedArgs f args) =
      do return (← (walkGenericArgs p args).moved f).map (movedArgs f)
  | [] => rfl
  | arg :: rest => by
    simp [movedArgs, walkGenericArgs, arg.walk_moved hp, walkGenericArgs_moved hp rest,
      Edit.cons_map (GenericArg.moved f) (movedArgs f) fun _ _ => rfl]

/-- A walk over a generic argument moves with it; in a lifetime or a constant there is no walk. -/
theorem GenericArg.walk_moved (hp : p.Blind f) : ∀ arg : GenericArg,
    (arg.moved f).walk p = do return (← (arg.walk p).moved f).map (GenericArg.moved f)
  | .type ty | .binding _ ty => by simp [GenericArg.moved, GenericArg.walk, ty.walk_moved hp]
  | .lifetime _ | .const _ => rfl

/-- A walk over a bound moves with it. -/
theorem Bound.walk_moved (hp : p.Blind f) : ∀ bound : Bound,
    (bound.moved f).walk p = do return (← (bound.walk p).moved f).map (Bound.moved f)
  | .trait path _ => by simp [Bound.moved, Bound.walk, path.walk_moved hp]
  | .outlives _ => rfl

/-- A walk over bounds moves with them, one by one. -/
theorem walkBounds_moved (hp : p.Blind f) : ∀ bounds : List Bound,
    walkBounds p (movedBounds f bounds) =
      do return (← (walkBounds p bounds).moved f).map (movedBounds f)
  | [] => rfl
  | bound :: rest => by
    simp [movedBounds, walkBounds, bound.walk_moved hp, walkBounds_moved hp rest,
      Edit.cons_map (Bound.moved f) (movedBounds f) fun _ _ => rfl]

/-- The last segment of a sole bound, walked over, moves with the bound. -/
theorem walkSole_moved (hp : p.Blind f) : ∀ bounds : List Bound,
    walkSole p (movedBounds f bounds) =
      do return (← (walkSole p bounds).moved f).map (Segment.moved f)
  | [] | [.outlives _] => rfl
  | [.trait ⟨segments, _⟩ _] => walkLast_moved hp segments
  | .trait ⟨_, _⟩ _ :: _ :: _ | .outlives _ :: _ :: _ => rfl

/-- The last of some segments, walked over, moves with them. -/
theorem walkLast_moved (hp : p.Blind f) : ∀ segments : List Segment,
    walkLast p (movedSegments f segments) =
      do return (← (walkLast p segments).moved f).map (Segment.moved f)
  | [] => rfl
  | [⟨ident, args⟩] => by
    simp [movedSegments, Segment.moved, walkLast, args.walk_moved hp, Edit.apply_map]
  | _ :: segment :: rest => by
    simpa only [movedSegments, walkLast] using walkLast_moved hp (segment :: rest)

end

end Walks

/-! ## The passes of a plan -/

/-- Steps out of modules stand where the path does that they are put in front of. -/
theorem supers_moved (levels : Nat) (span : Span) :
    supers levels (f span) = (supers levels span).map (Segment.moved f) := by
  rw [supers, supers, List.map_replicate]
  rfl

/-- A path that is moved climbs as before, its steps at the moved place. -/
theorem Path.climb_moved (path : Path) :
    (path.moved f).climb = path.climb.map (Segment.moved f) := by
  rcases path with ⟨_ | ⟨⟨ident, args⟩, rest⟩, _ | _⟩
  · rfl
  · rfl
  · simp only [Path.moved, movedSegments, Segment.moved, Ident.moved, Path.climb]
    split
    · rw [supers_moved]
    · rfl
  · rfl

/-- **The pass that lifts paths does not look at places.** -/
theorem Pass.blind_superPath : Pass.superPath.Blind f :=
  ⟨Path.climb_moved, fun _ => rfl, fun _ => rfl⟩

/-- Moving a segment leaves its name. -/
theorem Segment.name_moved : ∀ segment : Segment, (segment.moved f).ident.name = segment.ident.name
  | ⟨_, _⟩ => rfl

/-- Moving a path leaves its names. -/
theorem Path.names_moved (path : Path) :
    (path.moved f).segments.map (·.ident.name) = path.segments.map (·.ident.name) := by
  obtain ⟨segments, leadingColon⟩ := path
  simp only [Path.moved, movedSegments_eq_map, List.map_map, Function.comp_def, Segment.name_moved]

/-- A bound mentions `Self` wherever it stands. -/
theorem Bound.mentionsSelf_moved (bound : Bound) :
    (bound.moved f).mentionsSelf = bound.mentionsSelf := by
  cases bound with
  | outlives lifetime => rfl
  | trait path relaxed =>
    obtain ⟨segments, leadingColon⟩ := path
    simp only [Bound.moved, Path.moved, Bound.mentionsSelf, Path.mentionsSelf, movedSegments_eq_map,
      List.any_map, Function.comp_def, Segment.name_moved]

/-- A bound names the mock wherever it stands. -/
theorem Bound.namesMock_moved (interface : Option String) (bound : Bound) :
    (bound.moved f).namesMock interface = bound.namesMock interface := by
  cases bound with
  | outlives lifetime => rfl
  | trait path relaxed =>
    have hlast : (path.moved f).lastName? = path.lastName? := by
      rw [Path.lastName?, Path.lastName?, ← List.getLast?_map, ← List.getLast?_map,
        path.names_moved]
    cases relaxed with
    | true => rfl
    | false => rw [Bound.moved, Bound.namesMock, Bound.namesMock, hlast]

/-- **The pass that puts the mock in the place of `Self` does not look at places.** -/
theorem Pass.blind_selfType (actual : Ident) (interface : Option String) :
    (Pass.selfType actual interface).Blind f where
  lead _ := rfl
  collapse bounds := by
    rcases bounds with _ | ⟨bound, _ | ⟨_, _⟩⟩
    · rfl
    · simp only [Pass.selfType, movedBounds, Bound.namesMock_moved]
    · rfl
  objection bounds := by
    simp only [Pass.selfType, movedBounds_eq_map, List.length_map, List.any_map, Function.comp_def,
      Bound.mentionsSelf_moved]

/-- Putting the mock in the place of `Self`, wherever the type stands. -/
theorem Ty.substSelf_moved (actual : Ident) (interface : Option String) (ty : Ty) :
    (ty.moved f).substSelf (actual.moved f) interface =
      do return (← (ty.substSelf actual interface).moved f).map (Ty.moved f) :=
  ty.walk_moved (Pass.blind_selfType actual interface)

/-- Lifting climbing paths, wherever the type stands. -/
theorem Ty.liftSuper_moved (ty : Ty) :
    (ty.moved f).liftSuper = do return (← ty.liftSuper.moved f).map (Ty.moved f) :=
  ty.walk_moved Pass.blind_superPath

/-! ## Unnamed types -/

/-- An unnamed type is boxed at the place at which it stands. -/
theorem Ty.eraseImpl_moved (ty : Ty) : (ty.moved f).eraseImpl = ty.eraseImpl.map (Ty.moved f) := by
  cases ty <;> rfl

mutual

/-- **Whether there is an unnamed type inside a type** is not a matter of where it stands. -/
theorem Ty.hasImplTrait_moved : ∀ ty : Ty, (ty.moved f).hasImplTrait = ty.hasImplTrait
  | .slice elem _ | .array elem _ _ | .pointer elem _ _ | .reference elem _ _ _ | .paren elem _
  | .group elem _ => by simp only [Ty.moved, Ty.hasImplTrait, elem.hasImplTrait_moved]
  | .tuple elems _ => by simp only [Ty.moved, Ty.hasImplTrait, anyImplTrait_moved elems]
  | .function inputs output _ => by
    simp only [Ty.moved, Ty.hasImplTrait, anyImplTrait_moved inputs,
      outputHasImplTrait_moved output]
  | .traitObject bounds _ => by
    simp only [Ty.moved, Ty.hasImplTrait, anyBoundHasImplTrait_moved bounds]
  | .implTrait _ _ | .infer _ | .never _ | .macroCall _ _ | .verbatim _ _ | .unknown _ => by
    simp only [Ty.moved, Ty.hasImplTrait]
  | .path path _ | .qualified _ _ path _ => by
    simp only [Ty.moved, Ty.hasImplTrait, path.hasImplTrait_moved]

/-- Types are searched one by one, wherever they stand. -/
theorem anyImplTrait_moved : ∀ tys : List Ty, anyImplTrait (movedTypes f tys) = anyImplTrait tys
  | [] => rfl
  | ty :: rest => by
    simp only [movedTypes, anyImplTrait, ty.hasImplTrait_moved, anyImplTrait_moved rest]

/-- A result is searched if there is one, wherever it stands. -/
theorem outputHasImplTrait_moved : ∀ output : Option Ty,
    outputHasImplTrait (movedOutput f output) = outputHasImplTrait output
  | none => rfl
  | some ty => by simp only [movedOutput, outputHasImplTrait, ty.hasImplTrait_moved]

/-- A path is searched in the arguments of its segments, wherever they stand. -/
theorem Path.hasImplTrait_moved : ∀ path : Path, (path.moved f).hasImplTrait = path.hasImplTrait
  | ⟨segments, _⟩ => by
    simp only [Path.moved, Path.hasImplTrait, anySegmentHasImplTrait_moved segments]

/-- Segments are searched one by one. -/
theorem anySegmentHasImplTrait_moved : ∀ segments : List Segment,
    anySegmentHasImplTrait (movedSegments f segments) = anySegmentHasImplTrait segments
  | [] => rfl
  | segment :: rest => by
    simp only [movedSegments, anySegmentHasImplTrait, segment.hasImplTrait_moved,
      anySegmentHasImplTrait_moved rest]

theorem Segment.hasImplTrait_moved : ∀ segment : Segment,
    (segment.moved f).hasImplTrait = segment.hasImplTrait
  | ⟨_, args⟩ => by simp only [Segment.moved, Segment.hasImplTrait, args.hasImplTrait_moved]

/-- Arguments are searched in whichever brackets they stand. -/
theorem SegmentArgs.hasImplTrait_moved : ∀ args : SegmentArgs,
    (args.moved f).hasImplTrait = args.hasImplTrait
  | .none => rfl
  | .angle args => by
    simp only [SegmentArgs.moved, SegmentArgs.hasImplTrait, anyArgHasImplTrait_moved args]
  | .call inputs output => by
    simp only [SegmentArgs.moved, SegmentArgs.hasImplTrait, anyImplTrait_moved inputs,
      outputHasImplTrait_moved output]

theorem anyArgHasImplTrait_moved : ∀ args : List GenericArg,
    anyArgHasImplTrait (movedArgs f args) = anyArgHasImplTrait args
  | [] => rfl
  | arg :: rest => by
    simp only [movedArgs, anyArgHasImplTrait, arg.hasImplTrait_moved, anyArgHasImplTrait_moved rest]

/-- A generic argument is searched if it is a type or a binding of one. -/
theorem GenericArg.hasImplTrait_moved : ∀ arg : GenericArg,
    (arg.moved f).hasImplTrait = arg.hasImplTrait
  | .type ty | .binding _ ty => by
    simp only [GenericArg.moved, GenericArg.hasImplTrait, ty.hasImplTrait_moved]
  | .lifetime _ | .const _ => rfl

/-- A bound is searched if it is by a path. -/
theorem Bound.hasImplTrait_moved :
    ∀ bound : Bound, (bound.moved f).hasImplTrait = bound.hasImplTrait
  | .trait path _ => by simp only [Bound.moved, Bound.hasImplTrait, path.hasImplTrait_moved]
  | .outlives _ => rfl

theorem anyBoundHasImplTrait_moved : ∀ bounds : List Bound,
    anyBoundHasImplTrait (movedBounds f bounds) = anyBoundHasImplTrait bounds
  | [] => rfl
  | bound :: rest => by
    simp only [movedBounds, anyBoundHasImplTrait, bound.hasImplTrait_moved,
      anyBoundHasImplTrait_moved rest]

end

end TraitMock
