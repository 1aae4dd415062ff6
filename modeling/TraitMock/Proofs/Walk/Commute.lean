import TraitMock.Proofs.Walk.SelfType
import TraitMock.Walk.TypePass

/-!
# Proofs/Walk/Commute — two walks in either order

`Self` can be replaced before climbing paths are lifted or after it, the type that comes of it is
the same (`Ty.substSelf_liftSuper_comm`).

`Pass.Commutes` says what two passes have to agree on at a single identifier, path or trait object,
and `Ty.after_comm` carries it to whole types.  The two passes meet in two places: where a path
begins, as long as the mock is not called `super`; and where a trait object gives way, which the
steps up in front of its bound do not prevent, since only the end of the bound counts.
-/

namespace TraitMock

variable {p q : Pass}

theorem Ident.span_after (p : Pass) (ident : Ident) : (ident.after p).span = ident.span := by
  rw [Ident.after]
  cases p.rename ident.name <;> rfl

theorem segmentsAfter_append (p : Pass) (front rest : List Segment) :
    segmentsAfter p (front ++ rest) = segmentsAfter p front ++ segmentsAfter p rest := by
  induction front with
  | nil => rfl
  | cons segment front ih =>
    rw [List.cons_append, segmentsAfter, segmentsAfter, ih, List.cons_append]

/-- What stands in front of the last segment does not matter. -/
theorem lastAfter_append (p : Pass) {segments : List Segment} (hne : segments ≠ [])
    (front : List Segment) : lastAfter p (front ++ segments) = lastAfter p segments := by
  induction front with
  | nil => rfl
  | cons segment front ih =>
    have hrest : front ++ segments ≠ [] := List.append_ne_nil_of_right_ne_nil front hne
    obtain ⟨next, rest, hnext⟩ := List.exists_cons_of_ne_nil hrest
    rw [List.cons_append, hnext, lastAfter, ← hnext, ih]

/-- **What two passes have to agree on** for their walks to commute; trait objects give way in the
first one alone. -/
structure Pass.Commutes (p q : Pass) : Prop where
  orderly : p.Orderly
  ident : ∀ ident : Ident, (ident.after p).after q = (ident.after q).after p
  path : ∀ path : Path,
    segmentsAfter q (segmentsAfter p path.segments) =
      segmentsAfter p (segmentsAfter q path.segments) →
      (path.after p).after q = (path.after q).after p
  collapse_right : ∀ bounds, q.collapse bounds = none
  collapse_left : ∀ bounds, p.collapse (boundsAfter q bounds) = p.collapse bounds
  sole : ∀ {name}, p.Collapses name → ∀ span args,
    (Pass.sole name span args).after q = Pass.sole name span (args.after q)

/-- Where a trait object gives way, two passes that agree commute, if they do so on what is applied
to the last segment of its bound. -/
theorem Ty.after_comm_sole (h : p.Commutes q) {name : String} {segments : List Segment}
    {leadingColon relaxed : Bool} {s : Span} {ident : Ident} {args : SegmentArgs}
    (hc : p.collapse [.trait ⟨segments, leadingColon⟩ relaxed] = some name) (hne : segments ≠ [])
    (hlast : lastAfter p segments = some ⟨ident, args.after p⟩)
    (hlast' : lastAfter p (segmentsAfter q segments) = some ⟨ident.after q, (args.after q).after p⟩)
    (hargs : (args.after p).after q = (args.after q).after p) :
    ((Ty.traitObject [.trait ⟨segments, leadingColon⟩ relaxed] s).after p).after q =
      ((Ty.traitObject [.trait ⟨segments, leadingColon⟩ relaxed] s).after q).after p := by
  have hsole := h.sole ⟨_, hc⟩ ident.span (args.after p)
  have hleft : (Ty.traitObject [.trait ⟨segments, leadingColon⟩ relaxed] s).after p =
      .path (Pass.sole name ident.span (args.after p)) s := by
    simp only [Ty.after, hc, soleAfter, hlast, Pass.sole]
  have hlift : (Ty.traitObject [.trait ⟨segments, leadingColon⟩ relaxed] s).after q =
      .traitObject (boundsAfter q [.trait ⟨segments, leadingColon⟩ relaxed]) s := by
    simp only [Ty.after, h.collapse_right]
  have hne' : segmentsAfter q segments ≠ [] := by
    obtain ⟨first, rest, rfl⟩ := List.exists_cons_of_ne_nil hne
    exact List.cons_ne_nil _ _
  have hright :
      (Ty.traitObject (boundsAfter q [.trait ⟨segments, leadingColon⟩ relaxed]) s).after p =
        .path (Pass.sole name ident.span ((args.after q).after p)) s := by
    have hc' := (h.collapse_left _).trans hc
    simp only [boundsAfter, Bound.after, Path.after, Path.led] at hc' ⊢
    simp only [Ty.after, hc', soleAfter, lastAfter_append p hne', hlast', Ident.span_after,
      Pass.sole]
  rw [hleft, hlift, hright, Ty.after, hsole, hargs]

mutual

/-- **Two passes that agree commute** on every type. -/
theorem Ty.after_comm (h : p.Commutes q) : (ty : Ty) → (ty.after p).after q = (ty.after q).after p
  | .slice elem _ | .array elem _ _ | .pointer elem _ _ | .reference elem _ _ _ | .paren elem _
  | .group elem _ => by
    simp only [Ty.after]
    rw [Ty.after_comm h elem]
  | .tuple elems _ => by
    simp only [Ty.after]
    rw [typesAfter_comm h elems]
  | .function _ _ _ | .implTrait _ _ | .infer _ | .never _ | .macroCall _ _ | .verbatim _ _
  | .unknown _ => by
    simp only [Ty.after]
  | .path path _ => by
    simp only [Ty.after]
    rw [Path.after_comm h path]
  | .qualified self position path s => by
    simp only [Ty.after]
    rw [Path.after_comm h path]
    congr 1
    omega
  | .traitObject bounds s => by
    cases hc : p.collapse bounds with
    | none =>
      simp only [Ty.after, hc, h.collapse_right, h.collapse_left]
      rw [boundsAfter_comm h bounds]
    | some name =>
      obtain ⟨⟨segments, leadingColon⟩, relaxed, rfl, hne⟩ := h.orderly.collapse_sole hc
      obtain ⟨ident, args, hlast, hlast', hargs⟩ := lastAfter_comm h segments hne
      exact Ty.after_comm_sole h hc hne hlast hlast' hargs

theorem typesAfter_comm (h : p.Commutes q) : (tys : List Ty) →
    typesAfter q (typesAfter p tys) = typesAfter p (typesAfter q tys)
  | [] => rfl
  | ty :: rest => by
    simp only [typesAfter]
    rw [Ty.after_comm h ty, typesAfter_comm h rest]

theorem outputAfter_comm (h : p.Commutes q) : (output : Option Ty) →
    outputAfter q (outputAfter p output) = outputAfter p (outputAfter q output)
  | none => rfl
  | some ty => congrArg some (Ty.after_comm h ty)

theorem Path.after_comm (h : p.Commutes q) : (path : Path) →
    (path.after p).after q = (path.after q).after p
  | ⟨segments, leadingColon⟩ => h.path ⟨segments, leadingColon⟩ (segmentsAfter_comm h segments)

theorem segmentsAfter_comm (h : p.Commutes q) : (segments : List Segment) →
    segmentsAfter q (segmentsAfter p segments) = segmentsAfter p (segmentsAfter q segments)
  | [] => rfl
  | segment :: rest => by
    simp only [segmentsAfter]
    rw [Segment.after_comm h segment, segmentsAfter_comm h rest]

theorem Segment.after_comm (h : p.Commutes q) : (segment : Segment) →
    (segment.after p).after q = (segment.after q).after p
  | ⟨ident, args⟩ => by
    simp only [Segment.after]
    rw [h.ident ident, SegmentArgs.after_comm h args]

theorem SegmentArgs.after_comm (h : p.Commutes q) : (args : SegmentArgs) →
    (args.after p).after q = (args.after q).after p
  | .none => rfl
  | .angle args => congrArg SegmentArgs.angle (argsAfter_comm h args)
  | .call inputs output => by
    simp only [SegmentArgs.after]
    rw [typesAfter_comm h inputs, outputAfter_comm h output]

theorem argsAfter_comm (h : p.Commutes q) : (args : List GenericArg) →
    argsAfter q (argsAfter p args) = argsAfter p (argsAfter q args)
  | [] => rfl
  | arg :: rest => by
    simp only [argsAfter]
    rw [GenericArg.after_comm h arg, argsAfter_comm h rest]

theorem GenericArg.after_comm (h : p.Commutes q) : (arg : GenericArg) →
    (arg.after p).after q = (arg.after q).after p
  | .type ty => congrArg GenericArg.type (Ty.after_comm h ty)
  | .binding ident ty => congrArg (GenericArg.binding ident) (Ty.after_comm h ty)
  | .lifetime _ | .const _ => rfl

theorem Bound.after_comm (h : p.Commutes q) : (bound : Bound) →
    (bound.after p).after q = (bound.after q).after p
  | .trait path relaxed => congrArg (Bound.trait · relaxed) (Path.after_comm h path)
  | .outlives _ => rfl

theorem boundsAfter_comm (h : p.Commutes q) : (bounds : List Bound) →
    boundsAfter q (boundsAfter p bounds) = boundsAfter p (boundsAfter q bounds)
  | [] => rfl
  | bound :: rest => by
    simp only [boundsAfter]
    rw [Bound.after_comm h bound, boundsAfter_comm h rest]

/-- The last segment comes out of both walks alike. -/
theorem lastAfter_comm (h : p.Commutes q) : (segments : List Segment) → segments ≠ [] →
    ∃ (ident : Ident) (args : SegmentArgs), lastAfter p segments = some ⟨ident, args.after p⟩ ∧
      lastAfter p (segmentsAfter q segments) = some ⟨ident.after q, (args.after q).after p⟩ ∧
      (args.after p).after q = (args.after q).after p
  | [], hne => absurd rfl hne
  | [⟨ident, args⟩], _ => ⟨ident, args, rfl, rfl, SegmentArgs.after_comm h args⟩
  | _ :: segment :: rest, _ => by
    simp only [lastAfter, segmentsAfter]
    exact lastAfter_comm h (segment :: rest) (List.cons_ne_nil _ _)

end

/-! ## Replacing `Self` and lifting climbing paths -/

variable {actual : Ident} {interface : Option String}

/-- Steps up stay what they are, unless they are renamed. -/
theorem segmentsAfter_supers (h : p.rename superName = none) (levels : Nat) (span : Span) :
    segmentsAfter p (supers levels span) = supers levels span := by
  induction levels with
  | zero => rfl
  | succ levels ih =>
    have hstep : Segment.after p ⟨⟨superName, span⟩, .none⟩ = ⟨⟨superName, span⟩, .none⟩ := by
      rw [Segment.after, Ident.after, h, SegmentArgs.after]
    rw [supers, List.replicate_succ, segmentsAfter, hstep]
    exact congrArg _ ih

/-- A path climbs as before when `Self` is replaced, if the mock is not called `super`. -/
theorem Path.climb_selfType (hactual : actual.name ≠ superName) (segments : List Segment)
    (leadingColon : Bool) :
    Path.climb ⟨segmentsAfter (.selfType actual interface) segments, leadingColon⟩ =
      Path.climb ⟨segments, leadingColon⟩ := by
  have hself : selfName ≠ superName := by decide
  rcases leadingColon with _ | _
  · rcases segments with _ | ⟨⟨ident, args⟩, rest⟩
    · rfl
    · by_cases hident : ident.name = selfName
      · simp [climb, segmentsAfter, Segment.after, Ident.after, Pass.selfType, hident,
          hactual, hself]
      · simp [climb, segmentsAfter, Segment.after, Ident.after, Pass.selfType, hident]
  · rfl

/-- What a path gets in front has no `Self` in it. -/
theorem Path.segmentsAfter_climb (path : Path) :
    segmentsAfter (.selfType actual interface) path.climb = path.climb := by
  unfold climb
  split
  · split
    · exact segmentsAfter_supers rfl ..
    · rfl
  · rfl

/-- A path ends as before when it is lifted. -/
theorem Path.lastName?_after_superPath (path : Path) :
    (path.after .superPath).lastName? = path.lastName? := by
  rw [← getLast?_names, ← getLast?_names, (carries_after .superPath path).names_superPath]
  split
  next hclimbs =>
    have hne : path.names ≠ [] := by
      intro hnil
      simp [climbs, hnil] at hclimbs
    exact List.getLast?_append_of_ne_nil _ hne
  next => rw [List.nil_append]

/-- Nothing is put in front of a path when `Self` is replaced. -/
theorem Path.after_selfType (segments : List Segment) (leadingColon : Bool) :
    Path.after (.selfType actual interface) ⟨segments, leadingColon⟩ =
      ⟨segmentsAfter (.selfType actual interface) segments, leadingColon⟩ := rfl

theorem Path.after_superPath (segments : List Segment) (leadingColon : Bool) :
    Path.after .superPath ⟨segments, leadingColon⟩ =
      ⟨climb ⟨segmentsAfter .superPath segments, leadingColon⟩ ++ segmentsAfter .superPath segments,
        leadingColon⟩ := rfl

namespace Pass

/-- Bounds stand for the mock as before when paths are lifted. -/
theorem collapse_selfType_superPath (bounds : List Bound) :
    (selfType actual interface).collapse (boundsAfter superPath bounds) =
      (selfType actual interface).collapse bounds := by
  match bounds with
  | [.trait path false] =>
    have hnames : (Bound.trait (path.after superPath) false).namesMock interface =
        (Bound.trait path false).namesMock interface := by
      simp only [Bound.namesMock, Path.lastName?_after_superPath]
    simp only [boundsAfter, Bound.after, selfType, hnames]
  | [] | [.trait _ true] | [.outlives _] | _ :: _ :: _ => rfl

/-- **The replacement of `Self` and the lifting of climbing paths agree**, if the mock is not called
`super`. -/
theorem commutes_selfType_superPath (hactual : actual.name ≠ superName) :
    (selfType actual interface).Commutes superPath where
  orderly := orderly_selfType actual interface
  ident _ := rfl
  path path h := by
    obtain ⟨segments, leadingColon⟩ := path
    rw [Path.after_selfType, Path.after_superPath, Path.after_superPath, Path.after_selfType,
      segmentsAfter_append, Path.segmentsAfter_climb, h, Path.climb_selfType hactual]
  collapse_right _ := rfl
  collapse_left := collapse_selfType_superPath
  sole h span args := by
    rw [name_of_collapses h]
    have hclimb : Path.climb ⟨[⟨⟨actual.name, span⟩, args.after superPath⟩], false⟩ = [] :=
      if_neg hactual
    have hled := congrArg (· ++ [(⟨⟨actual.name, span⟩, args.after superPath⟩ : Segment)]) hclimb
    exact congrArg (Path.mk · false) hled

end Pass

/-- **What a pass makes of a type**, whatever it reports. -/
def TypePass.Makes (pass : TypePass) (old new : Ty) : Prop :=
  ∃ e reports, (pass.run old).run .collect = ⟨.ok e, reports⟩ ∧ e.apply old = new

/-- A pass that meets no end makes of a type what its walk makes, and can be followed by another. -/
theorem Ty.makes_after (pass : TypePass) {p : Pass} (hpass : ∀ ty, pass.run ty = ty.walk p)
    (hp : p.Orderly) {ty : Ty} (h : Walkable (ty.places .plain)) :
    pass.Makes ty (ty.after p) ∧ Walkable ((ty.after p).places .plain) := by
  have hwalkable := Ty.walkable_places p ty h
  obtain ⟨e, hrun, happly, -⟩ := Ty.run_walk hp hwalkable
  exact ⟨⟨e, _, hpass ty ▸ hrun, happly⟩, hwalkable.after (hp.clears fun _ => rfl)⟩

/-- **Replacing `Self` and lifting climbing paths commute**, if the mock is not called `super`: on a
type without function pointers and unnamed types outside the types of its qualified paths, each pass
gives a type after the other one, and it is the same in both orders. -/
theorem Ty.substSelf_liftSuper_comm (hactual : actual.name ≠ superName) {ty : Ty}
    (hty : Walkable (ty.places .plain)) :
    ∃ lifted selfless both,
      TypePass.superPath.Makes ty lifted ∧
      (TypePass.selfType actual interface).Makes lifted both ∧
      (TypePass.selfType actual interface).Makes ty selfless ∧
      TypePass.superPath.Makes selfless both := by
  have hself := Pass.orderly_selfType actual interface
  have hsuper := Pass.orderly_superPath
  obtain ⟨hlifted, hwalkable⟩ := Ty.makes_after .superPath (fun _ => rfl) hsuper hty
  obtain ⟨hboth, -⟩ :=
    Ty.makes_after (.selfType actual interface) (fun _ => rfl) hself hwalkable
  obtain ⟨hselfless, hwalkable'⟩ :=
    Ty.makes_after (.selfType actual interface) (fun _ => rfl) hself hty
  obtain ⟨hboth', -⟩ := Ty.makes_after .superPath (fun _ => rfl) hsuper hwalkable'
  rw [Ty.after_comm (Pass.commutes_selfType_superPath hactual) ty] at hboth'
  exact ⟨_, _, _, hlifted, hboth, hselfless, hboth'⟩

/-- `dyn super::Foo<super::Self>` -/
def climbingFoo : Ty :=
  let arg : Path := .ofIdents [⟨superName, {}⟩, ⟨selfName, {}⟩]
  let foo : Path :=
    ⟨[⟨⟨superName, {}⟩, .none⟩, ⟨⟨"Foo", {}⟩, .angle [.type (.path arg {})]⟩], false⟩
  .traitObject [.trait foo false] {}

/-- In the trait `Foo` both orders give `MockFoo<super::super::super::MockFoo>`. -/
theorem climbingFoo_comm :
    Walkable (climbingFoo.places .plain) ∧
    ∃ lifted selfless both,
      TypePass.superPath.Makes climbingFoo lifted ∧
      (TypePass.selfType ⟨"MockFoo", {}⟩ (some "Foo")).Makes lifted both ∧
      (TypePass.selfType ⟨"MockFoo", {}⟩ (some "Foo")).Makes climbingFoo selfless ∧
      TypePass.superPath.Makes selfless both := by
  have hwalkable : Walkable (climbingFoo.places .plain) := by
    simp [climbingFoo, Ty.places, boundsPlaces, Bound.places, Path.places, segmentsPlaces,
      Segment.places, SegmentArgs.places, argsPlaces, GenericArg.places, Path.ofIdents, Pass.plain,
      Part.fault?]
  exact ⟨hwalkable, Ty.substSelf_liftSuper_comm (by decide) hwalkable⟩

end TraitMock
