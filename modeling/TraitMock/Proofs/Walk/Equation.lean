import TraitMock.Proofs.Walk.Places
import TraitMock.Proofs.Walk.Traces

/-!
# Proofs/Walk/Equation — a walk is an inspection of its places, and then an edit

All that a walk reports, and all that can end it, is found at its places; what it makes of a type
does not depend on that.  So the walk over a type is the inspection of its places followed by the
plain return of an edit (`Ty.walks`), and every fact about its run is one about `Ty.places` and
`Ty.after`:

* `Ty.run_walk_edit` — what is known of a walk that gives an edit, under whatever policy.
* `Ty.run_walk` — where no place ends it, the walk gives an edit and all complaints.
-/

namespace TraitMock

variable {α β : Type} {p : Pass}

/-- **Inspecting places and then editing**: the computation reports what is to be said of the
places, and makes the new value of the old one; this is left alone where all places are spared, and
nothing of its own is in the way. -/
def Pass.Walks (p : Pass) (c : Checked (Edit α)) (old new : α) (own : Bool) (places : List Part) :
    Prop :=
  ∃ e : Edit α, c = (do p.inspect places; return e) ∧ e.apply old = new ∧
    e.isKeep = (own && places.all p.spares)

namespace Pass

theorem check_quiet {place : Part} (hfault : place.fault? = none)
    (hcomplaint : p.complaint? place = none) : p.check place = pure () := by
  rw [check, hfault, hcomplaint]

namespace Walks

variable {c : Checked (Edit α)} {old new : α} {own : Bool} {place : Part}
  {places places' : List Part}

theorem keep (a : α) : p.Walks (pure .keep) a a true [] := ⟨.keep, rfl, rfl, rfl⟩

/-- A walk over what holds the walked one. -/
theorem map (f : α → β) (h : p.Walks c old new own places) :
    p.Walks (do return (← c).map f) (f old) (f new) own places := by
  obtain ⟨e, rfl, happly, hkeep⟩ := h
  refine ⟨e.map f, ?_, ?_, ?_⟩
  · rw [Checked.bind_assoc]
    rfl
  · rw [Edit.apply_map, happly]
  · rw [Edit.isKeep_map, hkeep]

/-- A place in front is inspected first. -/
theorem behind (place : Part) (h : p.Walks c old new own places) (hspares : p.spares place = own) :
    p.Walks (do p.check place; c) old new true (place :: places) := by
  obtain ⟨e, rfl, happly, hkeep⟩ := h
  refine ⟨e, ?_, happly, ?_⟩
  · rw [inspect, Checked.bind_assoc]
  · rw [hkeep, List.all_cons, hspares, Bool.true_and]

/-- A place in front of which nothing is to be said. -/
theorem quiet (h : p.Walks c old new own places) (hfault : place.fault? = none)
    (hcomplaint : p.complaint? place = none) (hspares : p.spares place = own) :
    p.Walks c old new true (place :: places) := by
  have hwalks := h.behind place hspares
  rwa [check_quiet hfault hcomplaint, Checked.pure_bind] at hwalks

/-- Behind a place that ends the walk, it does not matter what is edited. -/
theorem fails {fault : Fault} (h : place.fault? = some fault) (a : α) (places : List Part) :
    p.Walks (.fail fault) a a true (place :: places) := by
  refine ⟨if (place :: places).all p.spares then .keep else .replace a, ?_, ?_, ?_⟩
  · rw [inspect, check, h]
    rfl
  · split <;> rfl
  · rw [Bool.true_and]
    split
    next hall => rw [hall]; rfl
    next hall => rw [Bool.not_eq_true] at hall; rw [hall]; rfl

/-- A walk over the first member of a list, and one over the others. -/
theorem cons {cs : Checked (Edit (List α))} {olds news : List α} {owns : Bool}
    (h : p.Walks c old new own places) (hs : p.Walks cs olds news owns places') :
    p.Walks (do return .cons old olds (← c) (← cs)) (old :: olds) (new :: news) (own && owns)
      (places ++ places') := by
  obtain ⟨e, rfl, happly, hkeep⟩ := h
  obtain ⟨es, rfl, happlys, hkeeps⟩ := hs
  refine ⟨.cons old olds e es, ?_, ?_, ?_⟩
  · simp only [inspect_append, Checked.bind_assoc, Checked.pure_bind]
  · rw [Edit.apply_cons, happly, happlys]
  · rw [Edit.isKeep_cons, hkeep, hkeeps, List.all_append]
    simp only [Bool.and_assoc, Bool.and_left_comm]

/-- A walk over the arguments of a call signature, and one over its result. -/
theorem call {is : Checked (Edit (List Ty))} {o : Checked (Edit (Option Ty))}
    {inputs inputs' : List Ty} {output output' : Option Ty}
    (hi : p.Walks is inputs inputs' true places) (ho : p.Walks o output output' true places') :
    p.Walks (do return SegmentArgs.editCall inputs output (← is) (← o)) (.call inputs output)
      (.call inputs' output') true (places ++ places') := by
  obtain ⟨ei, rfl, happlyi, hkeepi⟩ := hi
  obtain ⟨eo, rfl, happlyo, hkeepo⟩ := ho
  refine ⟨SegmentArgs.editCall inputs output ei eo, ?_, ?_, ?_⟩
  · simp only [inspect_append, Checked.bind_assoc, Checked.pure_bind]
  · rw [SegmentArgs.apply_editCall, happlyi, happlyo]
  · have hcall : (SegmentArgs.editCall inputs output ei eo).isKeep = (ei.isKeep && eo.isKeep) := by
      cases ei <;> cases eo <;> rfl
    rw [hcall, hkeepi, hkeepo, List.all_append]
    simp only [Bool.true_and]

/-- A walk over a segment is one over what is applied to it. -/
theorem segment {c : Checked (Edit SegmentArgs)} {args args' : SegmentArgs} (ident : Ident)
    (h : p.Walks c args args' true places) :
    p.Walks (do return Segment.edit p.rename ident args (← c)) ⟨ident, args⟩
      ⟨ident.after p, args'⟩ (p.rename ident.name).isNone places := by
  obtain ⟨e, rfl, happly, hkeep⟩ := h
  refine ⟨Segment.edit p.rename ident args e, ?_, ?_, ?_⟩
  · rw [Checked.bind_assoc]
    rfl
  · rw [Segment.apply_edit, happly, Ident.after]
    cases p.rename ident.name <;> rfl
  · rw [Segment.edit]
    cases p.rename ident.name with
    | none => rw [Edit.isKeep_map, hkeep, Option.isNone_none]
    | some name => rfl

/-- A walk over a path is one over its segments; what is put in front does not spare it. -/
theorem led {c : Checked (Edit (List Segment))} {segments new : List Segment} (leadingColon : Bool)
    (h : p.Walks c segments new own places) :
    p.Walks (do return Path.withLead p.lead ⟨segments, leadingColon⟩ (← c)) ⟨segments, leadingColon⟩
      (Path.led p ⟨new, leadingColon⟩) (own && (p.lead ⟨new, leadingColon⟩).isEmpty) places := by
  obtain ⟨e, rfl, rfl, hkeep⟩ := h
  refine ⟨Path.withLead p.lead ⟨segments, leadingColon⟩ e, ?_, ?_, ?_⟩
  · rw [Checked.bind_assoc]
    rfl
  · rw [Path.apply_withLead, Path.led]
  · rw [Path.withLead]
    dsimp only
    cases hlead : p.lead ⟨e.apply segments, leadingColon⟩ with
    | nil => rw [Edit.isKeep_map, hkeep, List.isEmpty_nil, Bool.and_true]
    | cons first front => rw [List.isEmpty_cons, Bool.and_false, Bool.false_and]; rfl

end Walks

/-- What is said of the bounds of a trait object that stays one. -/
theorem check_traitObject {bounds : List Bound} (hc : p.collapse bounds = none) (s : Span) :
    p.check (.type (.traitObject bounds s)) = .reportSome (p.objection bounds) s := by
  simp only [check, Part.fault?, complaint?, hc]
  cases p.objection bounds <;> rfl

end Pass

/-! ## The walk over a type -/

mutual

/-- **A walk inspects the places of a type**, and then makes of it what it makes. -/
theorem Ty.walks (hp : p.Orderly) : (ty : Ty) →
    p.Walks (ty.walk p) ty (ty.after p) true (ty.places p)
  | .slice elem s => by
    rw [Ty.walk, Ty.after, Ty.places]
    exact ((Ty.walks hp elem).map (Ty.slice · s)).quiet rfl rfl rfl
  | .array elem length s => by
    rw [Ty.walk, Ty.after, Ty.places]
    exact ((Ty.walks hp elem).map (Ty.array · length s)).quiet rfl rfl rfl
  | .pointer elem isMut s => by
    rw [Ty.walk, Ty.after, Ty.places]
    exact ((Ty.walks hp elem).map (Ty.pointer · isMut s)).quiet rfl rfl rfl
  | .reference elem lifetime isMut s => by
    rw [Ty.walk, Ty.after, Ty.places]
    exact ((Ty.walks hp elem).map (Ty.reference · lifetime isMut s)).quiet rfl rfl rfl
  | .tuple elems s => by
    rw [Ty.walk, Ty.after, Ty.places]
    exact ((walks_types hp elems).map (Ty.tuple · s)).quiet rfl rfl rfl
  | .paren elem s => by
    rw [Ty.walk, Ty.after, Ty.places]
    exact ((Ty.walks hp elem).map (Ty.paren · s)).quiet rfl rfl rfl
  | .group elem s => by
    rw [Ty.walk, Ty.after, Ty.places]
    exact ((Ty.walks hp elem).map (Ty.group · s)).quiet rfl rfl rfl
  | .function _ _ _ | .implTrait _ _ | .unknown _ => by
    rw [Ty.walk, Ty.after, Ty.places]
    exact .fails rfl _ _
  | .infer _ | .never _ => by
    rw [Ty.walk, Ty.after, Ty.places]
    exact (Pass.Walks.keep _).quiet rfl rfl rfl
  | .macroCall text s => by
    rw [Ty.walk, Ty.after, Ty.places]
    exact (Pass.Walks.keep _).behind (.type (.macroCall text s)) rfl
  | .verbatim text s => by
    rw [Ty.walk, Ty.after, Ty.places]
    exact (Pass.Walks.keep _).behind (.type (.verbatim text s)) rfl
  | .path path s => by
    rw [Ty.walk, Ty.after, Ty.places]
    exact ((Path.walks hp path).map (Ty.path · s)).quiet rfl rfl rfl
  | .qualified self position path s => by
    rw [Ty.walk, Ty.after, Ty.places]
    have hwalks := (Path.walks hp path).map fun new =>
      Ty.qualified self (position + new.segments.length - path.segments.length) new s
    rw [Int.add_sub_cancel] at hwalks
    exact hwalks.behind (.type (.qualified self position path s)) rfl
  | .traitObject bounds s => by
    cases hc : p.collapse bounds with
    | none =>
      simp only [Ty.walk, Ty.after, Ty.places, hc]
      rw [← Pass.check_traitObject hc]
      have hspares : p.spares (.type (.traitObject bounds s)) = true := by
        rw [Pass.spares, hc]
        rfl
      exact ((walks_bounds hp bounds).map (Ty.traitObject · s)).behind _ hspares
    | some name =>
      obtain ⟨⟨segments, leadingColon⟩, relaxed, rfl, hne⟩ := hp.collapse_sole hc
      obtain ⟨ident, args, hwalk, hafter, hplaces⟩ := walks_last hp name segments hne
      simp only [Ty.walk, Ty.after, Ty.places, hc, walkSole, soleAfter, solePlaces, hwalk, hafter,
        hplaces]
      refine ⟨_, ?_, Edit.apply_replace _ _, ?_⟩
      · have hquiet : p.complaint?
            (.type (.traitObject [.trait ⟨segments, leadingColon⟩ relaxed] s)) = none := by
          rw [Pass.complaint?, hc]
        rw [Checked.bind_assoc, Pass.inspect, Pass.inspect, Pass.check_quiet rfl hquiet,
          Pass.check_quiet rfl rfl]
        rfl
      · rw [List.all_cons, Pass.spares, hc]
        rfl

/-- The walk over types. -/
theorem walks_types (hp : p.Orderly) : (tys : List Ty) →
    p.Walks (walkTypes p tys) tys (typesAfter p tys) true (typesPlaces p tys)
  | [] => .keep _
  | ty :: rest => by
    rw [walkTypes, typesAfter, typesPlaces]
    exact (Ty.walks hp ty).cons (walks_types hp rest)

/-- The walk over a result. -/
theorem walks_output (hp : p.Orderly) : (output : Option Ty) →
    p.Walks (walkOutput p output) output (outputAfter p output) true (outputPlaces p output)
  | none => .keep _
  | some ty => by
    rw [walkOutput, outputAfter, outputPlaces]
    exact (Ty.walks hp ty).map some

/-- The walk over a path. -/
theorem Path.walks (hp : p.Orderly) : (path : Path) →
    p.Walks (path.walk p) path (path.after p) true (path.places p)
  | ⟨segments, leadingColon⟩ => by
    rw [Path.walk, Path.after, Path.places]
    exact ((walks_segments hp segments).led leadingColon).quiet rfl rfl rfl

/-- The walk over segments, which are left alone only if none of them gets a new name. -/
theorem walks_segments (hp : p.Orderly) : (segments : List Segment) →
    p.Walks (walkSegments p segments) segments (segmentsAfter p segments)
      (segments.all fun s => (p.rename s.ident.name).isNone) (segmentsPlaces p segments)
  | [] => .keep _
  | segment :: rest => by
    rw [walkSegments, segmentsAfter, segmentsPlaces, List.all_cons]
    exact (Segment.walks hp segment).cons (walks_segments hp rest)

/-- The walk over a segment, which is left alone only if it gets no new name. -/
theorem Segment.walks (hp : p.Orderly) : (segment : Segment) →
    p.Walks (segment.walk p) segment (segment.after p) (p.rename segment.ident.name).isNone
      (segment.places p)
  | ⟨ident, args⟩ => by
    rw [Segment.walk, Segment.after, Segment.places]
    exact .segment ident (SegmentArgs.walks hp args)

/-- The walk over what is applied to a segment. -/
theorem SegmentArgs.walks (hp : p.Orderly) : (args : SegmentArgs) →
    p.Walks (args.walk p) args (args.after p) true (args.places p)
  | .none => .keep _
  | .angle args => by
    rw [SegmentArgs.walk, SegmentArgs.after, SegmentArgs.places]
    exact (walks_args hp args).map SegmentArgs.angle
  | .call inputs output => by
    rw [SegmentArgs.walk, SegmentArgs.after, SegmentArgs.places]
    exact .call (walks_types hp inputs) (walks_output hp output)

/-- The walk over generic arguments. -/
theorem walks_args (hp : p.Orderly) : (args : List GenericArg) →
    p.Walks (walkGenericArgs p args) args (argsAfter p args) true (argsPlaces p args)
  | [] => .keep _
  | arg :: rest => by
    rw [walkGenericArgs, argsAfter, argsPlaces]
    exact (GenericArg.walks hp arg).cons (walks_args hp rest)

/-- The walk over a generic argument. -/
theorem GenericArg.walks (hp : p.Orderly) : (arg : GenericArg) →
    p.Walks (arg.walk p) arg (arg.after p) true (arg.places p)
  | .type ty => by
    rw [GenericArg.walk, GenericArg.after, GenericArg.places]
    exact (Ty.walks hp ty).map GenericArg.type
  | .lifetime _ => .keep _
  | .binding ident ty => by
    rw [GenericArg.walk, GenericArg.after, GenericArg.places]
    exact (Ty.walks hp ty).map (GenericArg.binding ident)
  | .const _ => .keep _

/-- The walk over a bound. -/
theorem Bound.walks (hp : p.Orderly) : (bound : Bound) →
    p.Walks (bound.walk p) bound (bound.after p) true (bound.places p)
  | .trait path relaxed => by
    rw [Bound.walk, Bound.after, Bound.places]
    exact (Path.walks hp path).map (Bound.trait · relaxed)
  | .outlives _ => .keep _

/-- The walk over bounds. -/
theorem walks_bounds (hp : p.Orderly) : (bounds : List Bound) →
    p.Walks (walkBounds p bounds) bounds (boundsAfter p bounds) true (boundsPlaces p bounds)
  | [] => .keep _
  | bound :: rest => by
    rw [walkBounds, boundsAfter, boundsPlaces]
    exact (Bound.walks hp bound).cons (walks_bounds hp rest)

/-- Of segments that give way, the walk goes over what is applied to the last one. -/
theorem walks_last (hp : p.Orderly) (name : String) : (segments : List Segment) → segments ≠ [] →
    ∃ ident args,
      walkLast p segments = (do p.inspect (args.places p); return some ⟨ident, args.after p⟩) ∧
      lastAfter p segments = some ⟨ident, args.after p⟩ ∧
      lastPlaces p name segments =
        .path ⟨[⟨⟨name, ident.span⟩, args⟩], false⟩ :: args.places p
  | [], hne => absurd rfl hne
  | [⟨ident, args⟩], _ => by
    obtain ⟨e, hwalk, happly, -⟩ := SegmentArgs.walks hp args
    refine ⟨ident, args, ?_, rfl, rfl⟩
    rw [walkLast, hwalk, Checked.bind_assoc, ← happly]
    rfl
  | _ :: segment :: rest, _ => by
    rw [walkLast, lastAfter, lastPlaces]
    exact walks_last hp name (segment :: rest) (List.cons_ne_nil _ _)

end

/-! ## Runs of a walk -/

variable {policy : Policy} {reports : List Diagnostic} {places : List Part}

/-- An inspection that comes to its end has found no place that ends it. -/
theorem Pass.walkable_of_run (h : (p.inspect places).run policy = ⟨.ok (), reports⟩) :
    Walkable places := by
  induction places generalizing reports with
  | nil => exact walkable_nil
  | cons place rest ih =>
    rw [inspect, check] at h
    cases hfault : place.fault? with
    | some fault => simp [hfault] at h
    | none =>
      rw [hfault, Checked.run_bind] at h
      dsimp only at h
      split at h
      next => cases h
      next _ reports' hcheck =>
        obtain ⟨hresult, -⟩ := Outcome.mk.inj h
        have hrun :
            (p.inspect rest).run policy = ⟨.ok (), ((p.inspect rest).run policy).reports⟩ := by
          rw [← hresult]
        exact walkable_cons.mpr ⟨hfault, ih hrun⟩

/-- Where no place ends it, an inspection gathers all complaints. -/
theorem Pass.run_inspect (h : Walkable places) :
    (p.inspect places).run .collect = ⟨.ok (), p.complaints places⟩ := by
  induction places with
  | nil => rfl
  | cons place rest ih =>
    obtain ⟨hfault, hrest⟩ := walkable_cons.mp h
    rw [inspect, check, hfault, complaints]
    cases hcomplaint : p.complaint? place with
    | none =>
      rw [List.filterMap_cons_none hcomplaint]
      exact ih hrest
    | some complaint =>
      rw [List.filterMap_cons_some hcomplaint, Checked.run_bind, ih hrest]
      rfl

/-- **A walk that no place ends** gathers all complaints and makes of the type what it makes; it is
left alone exactly if all places are spared. -/
theorem Ty.run_walk (hp : p.Orderly) {ty : Ty} (h : Walkable (ty.places p)) :
    ∃ e, (ty.walk p).run .collect = ⟨.ok e, p.complaints (ty.places p)⟩ ∧ e.apply ty = ty.after p ∧
      e.isKeep = (ty.places p).all p.spares := by
  obtain ⟨e, hwalk, happly, hkeep⟩ := Ty.walks hp ty
  refine ⟨e, ?_, happly, by rw [hkeep, Bool.true_and]⟩
  rw [hwalk, Checked.run_bind, Pass.run_inspect h]
  simp only [Checked.run_pure, List.append_nil]

/-- **A walk that gives an edit**, under whatever policy, has come to no place that ends it; it
makes of the type what it makes, and leaves it alone exactly if all places are spared. -/
theorem Ty.run_walk_edit (hp : p.Orderly) {ty : Ty} {e : Edit Ty}
    (h : (ty.walk p).run policy = ⟨.ok e, reports⟩) :
    Walkable (ty.places p) ∧ e.apply ty = ty.after p ∧ e.isKeep = (ty.places p).all p.spares := by
  obtain ⟨e', hwalk, happly, hkeep⟩ := Ty.walks hp ty
  rw [hwalk, Checked.run_bind] at h
  split at h
  next => cases h
  next _ _ hinspect =>
    obtain ⟨he, -⟩ := Outcome.mk.inj h
    obtain rfl := Except.ok.inj he
    exact ⟨Pass.walkable_of_run hinspect, happly, by rw [hkeep, Bool.true_and]⟩

theorem Ty.run_walk_inv (hp : p.Orderly) {ty : Ty} {e : Edit Ty}
    (h : (ty.walk p).run policy = ⟨.ok e, reports⟩) :
    Walkable (ty.places p) ∧ e.apply ty = ty.after p :=
  ⟨(Ty.run_walk_edit hp h).1, (Ty.run_walk_edit hp h).2.1⟩

end TraitMock
