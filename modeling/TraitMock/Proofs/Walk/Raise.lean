import TraitMock.Decl.Render
import TraitMock.Proofs.Walk.Commute

/-!
# Proofs/Walk/Raise — lifting a type any number of times

`Ty.raise k` puts `k` steps up in front of every path of a type that climbs, outside the types of
qualified paths, moves the positions of qualified paths accordingly, and leaves all else as it is.
Lifting a type `n` times raises it by `2 * n` (`Ty.run_liftTimes`), since a lift after any number of
steps adds two to them (`Ty.after_raise`): a path that climbs still climbs, and from the same place.
-/

namespace TraitMock

/-! ## Raising -/

/-- A number of steps in front of a path that climbs, at the place of its first one. -/
def Path.steps (k : Nat) (path : Path) : List Segment :=
  match path.segments with
  | [] => []
  | first :: _ => if path.climbs then supers k first.ident.span else []

mutual

/-- **A type with steps in front of its climbing paths.** -/
def Ty.raise (k : Nat) : Ty → Ty
  | .slice elem s => .slice (elem.raise k) s
  | .array elem length s => .array (elem.raise k) length s
  | .pointer elem isMut s => .pointer (elem.raise k) isMut s
  | .reference elem lifetime isMut s => .reference (elem.raise k) lifetime isMut s
  | .tuple elems s => .tuple (raiseTypes k elems) s
  | .paren elem s => .paren (elem.raise k) s
  | .group elem s => .group (elem.raise k) s
  | .function inputs output s => .function inputs output s
  | .traitObject bounds s => .traitObject (raiseBounds k bounds) s
  | .implTrait bounds s => .implTrait bounds s
  | .infer s => .infer s
  | .never s => .never s
  | .macroCall text s => .macroCall text s
  | .verbatim text s => .verbatim text s
  | .path path s => .path (path.raise k) s
  | .qualified self position path s =>
    .qualified self (position + if path.climbs then (k : Int) else 0) (path.raise k) s
  | .unknown kind => .unknown kind

/-- Types with steps in front of their climbing paths. -/
def raiseTypes (k : Nat) : List Ty → List Ty
  | [] => []
  | ty :: rest => ty.raise k :: raiseTypes k rest

/-- A result with steps in front of its climbing paths. -/
def raiseOutput (k : Nat) : Option Ty → Option Ty
  | none => none
  | some ty => some (ty.raise k)

/-- **A path with steps in front**, of itself if it climbs, and of what is applied along it. -/
def Path.raise (k : Nat) : Path → Path
  | ⟨segments, leadingColon⟩ =>
    ⟨Path.steps k ⟨segments, leadingColon⟩ ++ raiseSegments k segments, leadingColon⟩

/-- Segments with steps in front of the climbing paths that are applied to them. -/
def raiseSegments (k : Nat) : List Segment → List Segment
  | [] => []
  | segment :: rest => segment.raise k :: raiseSegments k rest

/-- A segment with steps in front of the climbing paths that are applied to it. -/
def Segment.raise (k : Nat) : Segment → Segment
  | ⟨ident, args⟩ => ⟨ident, args.raise k⟩

/-- What is applied to a segment, with steps in front of its climbing paths. -/
def SegmentArgs.raise (k : Nat) : SegmentArgs → SegmentArgs
  | .none => .none
  | .angle args => .angle (raiseArgs k args)
  | .call inputs output => .call (raiseTypes k inputs) (raiseOutput k output)

/-- Generic arguments with steps in front of their climbing paths. -/
def raiseArgs (k : Nat) : List GenericArg → List GenericArg
  | [] => []
  | arg :: rest => arg.raise k :: raiseArgs k rest

/-- A generic argument with steps in front of its climbing paths. -/
def GenericArg.raise (k : Nat) : GenericArg → GenericArg
  | .type ty => .type (ty.raise k)
  | .lifetime name => .lifetime name
  | .binding ident ty => .binding ident (ty.raise k)
  | .const text => .const text

/-- A bound with steps in front of its climbing paths. -/
def Bound.raise (k : Nat) : Bound → Bound
  | .trait path relaxed => .trait (path.raise k) relaxed
  | .outlives lifetime => .outlives lifetime

/-- Bounds with steps in front of their climbing paths. -/
def raiseBounds (k : Nat) : List Bound → List Bound
  | [] => []
  | bound :: rest => bound.raise k :: raiseBounds k rest

end

/-! ## A lift after any number of steps -/

/-- No steps are none, whether or not the path climbs. -/
theorem Path.steps_zero (path : Path) : path.steps 0 = [] := by
  obtain ⟨segments, leadingColon⟩ := path
  rcases segments with _ | ⟨first, rest⟩
  · rfl
  · exact ite_self _

/-- Steps stand in front of a path that climbs, and of no other. -/
theorem Path.length_steps (k : Nat) (path : Path) :
    (path.steps k).length = if path.climbs then k else 0 := by
  obtain ⟨segments, leadingColon⟩ := path
  rcases segments with _ | ⟨first, rest⟩
  · cases leadingColon <;> rfl
  · simp only [steps]
    split
    · exact List.length_replicate
    · rfl

/-- What is applied to segments is raised, which leaves their number. -/
theorem length_raiseSegments (k : Nat) (segments : List Segment) :
    (raiseSegments k segments).length = segments.length := by
  induction segments with
  | nil => rfl
  | cons segment rest ih => rw [raiseSegments, List.length_cons, ih, List.length_cons]

/-- A path that climbs is longer by the steps in front. -/
theorem Path.length_raise (k : Nat) (path : Path) :
    (path.raise k).segments.length = (if path.climbs then k else 0) + path.segments.length := by
  obtain ⟨segments, leadingColon⟩ := path
  rw [raise, List.length_append, length_steps, length_raiseSegments]

/-- Steps up stay what they are when they are lifted. -/
theorem Path.segmentsAfter_steps (k : Nat) (path : Path) :
    segmentsAfter .superPath (path.steps k) = path.steps k := by
  unfold steps
  split
  · rfl
  · split
    · exact segmentsAfter_supers rfl ..
    · rfl

/-- **A path climbs from the same place** whatever steps are in front, and a lift adds two to
them. -/
theorem Path.climb_steps (k j : Nat) (segments : List Segment) (leadingColon : Bool) :
    climb ⟨steps k ⟨segments, leadingColon⟩ ++ raiseSegments j segments, leadingColon⟩ ++
      steps k ⟨segments, leadingColon⟩ = steps (k + 2) ⟨segments, leadingColon⟩ := by
  rcases leadingColon with _ | _
  · rcases segments with _ | ⟨⟨ident, args⟩, rest⟩
    · rfl
    · by_cases hident : ident.name = superName
      · have hclimbs : Path.climbs ⟨⟨ident, args⟩ :: rest, false⟩ = true := by
          simp [climbs, names, hident]
        simp only [steps, hclimbs, if_true]
        cases k with
        | zero => simp [climb, supers, raiseSegments, Segment.raise, hident]
        | succ k =>
          simp only [climb, supers, List.replicate_succ (n := k), List.cons_append, if_true]
          rw [← List.replicate_succ, List.replicate_append_replicate, Nat.add_comm]
      · have hclimbs : Path.climbs ⟨⟨ident, args⟩ :: rest, false⟩ = false := by
          simp [climbs, names, hident]
        simp [steps, hclimbs, climb, raiseSegments, Segment.raise, hident]
  · rcases segments with _ | ⟨first, rest⟩ <;> rfl

mutual

/-- **A lift raises by two steps more.** -/
theorem Ty.after_raise (k : Nat) : (ty : Ty) → (ty.raise k).after .superPath = ty.raise (k + 2)
  | .slice elem _ | .array elem _ _ | .pointer elem _ _ | .reference elem _ _ _ | .paren elem _
  | .group elem _ => by
    rw [Ty.raise, Ty.after, Ty.after_raise k elem, Ty.raise]
  | .tuple elems _ => by
    rw [Ty.raise, Ty.after, after_raiseTypes k elems, Ty.raise]
  | .function _ _ _ | .implTrait _ _ | .infer _ | .never _ | .macroCall _ _ | .verbatim _ _
  | .unknown _ => rfl
  | .traitObject bounds s => by
    rw [Ty.raise, Ty.raise, ← after_raiseBounds k bounds]
    rfl
  | .path path _ => by
    rw [Ty.raise, Ty.after, Path.after_raise k path, Ty.raise]
  | .qualified self position path s => by
    rw [Ty.raise, Ty.after, Path.after_raise k path, Ty.raise, Path.length_raise, Path.length_raise]
    congr 1
    split <;> omega

/-- A lift adds two steps in each of some types. -/
theorem after_raiseTypes (k : Nat) : (tys : List Ty) →
    typesAfter .superPath (raiseTypes k tys) = raiseTypes (k + 2) tys
  | [] => rfl
  | ty :: rest => by
    rw [raiseTypes, typesAfter, Ty.after_raise k ty, after_raiseTypes k rest, raiseTypes]

/-- A lift adds two steps in a result, if there is one. -/
theorem after_raiseOutput (k : Nat) : (output : Option Ty) →
    outputAfter .superPath (raiseOutput k output) = raiseOutput (k + 2) output
  | none => rfl
  | some ty => by
    rw [raiseOutput, outputAfter, Ty.after_raise k ty, raiseOutput]

/-- **A lift adds two steps to a path** that climbs after any number of them. -/
theorem Path.after_raise (k : Nat) : (path : Path) →
    (path.raise k).after .superPath = path.raise (k + 2)
  | ⟨segments, leadingColon⟩ => by
    rw [Path.raise, Path.after_superPath, segmentsAfter_append, Path.segmentsAfter_steps,
      after_raiseSegments k segments, ← List.append_assoc, Path.climb_steps, Path.raise]

/-- A lift adds two steps in what is applied to each of some segments. -/
theorem after_raiseSegments (k : Nat) : (segments : List Segment) →
    segmentsAfter .superPath (raiseSegments k segments) = raiseSegments (k + 2) segments
  | [] => rfl
  | segment :: rest => by
    rw [raiseSegments, segmentsAfter, Segment.after_raise k segment, after_raiseSegments k rest,
      raiseSegments]

/-- A lift leaves the name of a segment and adds two steps in what is applied to it. -/
theorem Segment.after_raise (k : Nat) : (segment : Segment) →
    (segment.raise k).after .superPath = segment.raise (k + 2)
  | ⟨_, args⟩ => by
    rw [Segment.raise, Segment.after, SegmentArgs.after_raise k args, Segment.raise]
    rfl

/-- A lift adds two steps in arguments, in whichever brackets. -/
theorem SegmentArgs.after_raise (k : Nat) : (args : SegmentArgs) →
    (args.raise k).after .superPath = args.raise (k + 2)
  | .none => rfl
  | .angle args => by
    rw [SegmentArgs.raise, SegmentArgs.after, after_raiseArgs k args, SegmentArgs.raise]
  | .call inputs output => by
    rw [SegmentArgs.raise, SegmentArgs.after, after_raiseTypes k inputs, after_raiseOutput k output,
      SegmentArgs.raise]

/-- A lift adds two steps in each of some generic arguments. -/
theorem after_raiseArgs (k : Nat) : (args : List GenericArg) →
    argsAfter .superPath (raiseArgs k args) = raiseArgs (k + 2) args
  | [] => rfl
  | arg :: rest => by
    rw [raiseArgs, argsAfter, GenericArg.after_raise k arg, after_raiseArgs k rest, raiseArgs]

/-- A lift adds two steps in a generic argument that has a type. -/
theorem GenericArg.after_raise (k : Nat) : (arg : GenericArg) →
    (arg.raise k).after .superPath = arg.raise (k + 2)
  | .type ty | .binding _ ty => by
    rw [GenericArg.raise, GenericArg.after, Ty.after_raise k ty, GenericArg.raise]
  | .lifetime _ | .const _ => rfl

/-- A lift adds two steps to the path of a bound. -/
theorem Bound.after_raise (k : Nat) : (bound : Bound) →
    (bound.raise k).after .superPath = bound.raise (k + 2)
  | .trait path _ => by
    rw [Bound.raise, Bound.after, Path.after_raise k path, Bound.raise]
  | .outlives _ => rfl

/-- A lift adds two steps to each of some bounds. -/
theorem after_raiseBounds (k : Nat) : (bounds : List Bound) →
    boundsAfter .superPath (raiseBounds k bounds) = raiseBounds (k + 2) bounds
  | [] => rfl
  | bound :: rest => by
    rw [raiseBounds, boundsAfter, Bound.after_raise k bound, after_raiseBounds k rest, raiseBounds]

end

/-! ## No steps at all -/

mutual

/-- **No steps in front leave a type as it is.** -/
theorem Ty.raise_zero : (ty : Ty) → ty.raise 0 = ty
  | .slice elem _ | .array elem _ _ | .pointer elem _ _ | .reference elem _ _ _ | .paren elem _
  | .group elem _ => by
    rw [Ty.raise, Ty.raise_zero elem]
  | .tuple elems _ => by
    rw [Ty.raise, raiseTypes_zero elems]
  | .function _ _ _ | .implTrait _ _ | .infer _ | .never _ | .macroCall _ _ | .verbatim _ _
  | .unknown _ => rfl
  | .traitObject bounds _ => by
    rw [Ty.raise, raiseBounds_zero bounds]
  | .path path _ => by
    rw [Ty.raise, Path.raise_zero path]
  | .qualified self position path _ => by
    rw [Ty.raise, Path.raise_zero path, Int.ofNat_zero, ite_self, Int.add_zero]

/-- Types that no steps are put in stay as they are. -/
theorem raiseTypes_zero : (tys : List Ty) → raiseTypes 0 tys = tys
  | [] => rfl
  | ty :: rest => by rw [raiseTypes, Ty.raise_zero ty, raiseTypes_zero rest]

theorem raiseOutput_zero : (output : Option Ty) → raiseOutput 0 output = output
  | none => rfl
  | some ty => by rw [raiseOutput, Ty.raise_zero ty]

/-- A path that no steps are put in front of stays as it is. -/
theorem Path.raise_zero : (path : Path) → path.raise 0 = path
  | ⟨segments, leadingColon⟩ => by
    rw [Path.raise, Path.steps_zero, raiseSegments_zero segments, List.nil_append]

theorem raiseSegments_zero : (segments : List Segment) → raiseSegments 0 segments = segments
  | [] => rfl
  | segment :: rest => by rw [raiseSegments, Segment.raise_zero segment, raiseSegments_zero rest]

theorem Segment.raise_zero : (segment : Segment) → segment.raise 0 = segment
  | ⟨_, args⟩ => by rw [Segment.raise, SegmentArgs.raise_zero args]

/-- Arguments that no steps are put in stay as they are. -/
theorem SegmentArgs.raise_zero : (args : SegmentArgs) → args.raise 0 = args
  | .none => rfl
  | .angle args => by rw [SegmentArgs.raise, raiseArgs_zero args]
  | .call inputs output => by
    rw [SegmentArgs.raise, raiseTypes_zero inputs, raiseOutput_zero output]

theorem raiseArgs_zero : (args : List GenericArg) → raiseArgs 0 args = args
  | [] => rfl
  | arg :: rest => by rw [raiseArgs, GenericArg.raise_zero arg, raiseArgs_zero rest]

theorem GenericArg.raise_zero : (arg : GenericArg) → arg.raise 0 = arg
  | .type ty | .binding _ ty => by rw [GenericArg.raise, Ty.raise_zero ty]
  | .lifetime _ | .const _ => rfl

/-- A bound that no steps are put in front of stays as it is. -/
theorem Bound.raise_zero : (bound : Bound) → bound.raise 0 = bound
  | .trait path _ => by rw [Bound.raise, Path.raise_zero path]
  | .outlives _ => rfl

theorem raiseBounds_zero : (bounds : List Bound) → raiseBounds 0 bounds = bounds
  | [] => rfl
  | bound :: rest => by rw [raiseBounds, Bound.raise_zero bound, raiseBounds_zero rest]

end

/-! ## Lifting again and again -/

/-- **Lifting a type a number of times**, each time what came of the last. -/
def Ty.liftTimes (ty : Ty) : Nat → Checked Ty
  | 0 => pure ty
  | n + 1 => do
    let lifted ← ty.liftTimes n
    return (← lifted.liftSuper).apply lifted

/-- Where one lift comes to its end, all further ones do, each of which raises by two steps. -/
theorem Ty.run_liftTimes_of_walkable {ty : Ty} (h : Walkable (ty.places .superPath)) (n : Nat) :
    (∃ reports, (ty.liftTimes n).run .collect = ⟨.ok (ty.raise (2 * n)), reports⟩) ∧
      Walkable ((ty.raise (2 * n)).places .superPath) := by
  induction n with
  | zero =>
    rw [Nat.mul_zero, Ty.raise_zero]
    exact ⟨⟨[], rfl⟩, h⟩
  | succ n ih =>
    obtain ⟨⟨reports, hrun⟩, hwalkable⟩ := ih
    obtain ⟨e, hlift, happly, -⟩ := Ty.run_walk Pass.orderly_superPath hwalkable
    rw [Ty.after_raise] at happly
    constructor
    · refine ⟨reports ++ Pass.superPath.complaints ((ty.raise (2 * n)).places .superPath), ?_⟩
      have hlift : (ty.raise (2 * n)).liftSuper.run .collect = ⟨.ok e, _⟩ := hlift
      rw [Ty.liftTimes, Checked.run_bind, hrun]
      simp only [Checked.run_bind, hlift, Checked.run_pure, List.append_nil, happly, Nat.mul_succ]
    · rw [Nat.mul_succ, ← Ty.after_raise]
      exact hwalkable.after (Pass.orderly_superPath.clears fun _ => rfl)

/-- **Lifting is raising.**  Where a lift comes to its end, so do any number of them: `n` lifts put
`2 * n` steps in front of each path that climbs, outside the types of qualified paths, move the
positions of qualified paths by as much, and leave everything else as it is. -/
theorem Ty.run_liftTimes {ty : Ty} {e : Edit Ty} {reports : List Diagnostic}
    (h : ty.liftSuper.run .collect = ⟨.ok e, reports⟩) (n : Nat) :
    ∃ reports', (ty.liftTimes n).run .collect = ⟨.ok (ty.raise (2 * n)), reports'⟩ :=
  (Ty.run_liftTimes_of_walkable (Ty.run_walk_inv Pass.orderly_superPath h).1 n).1

/-- `<super::S as super::T<super::A>>::X` -/
def climbingQualified : Ty :=
  let arg : Ty := .path (.ofIdents [⟨superName, {}⟩, ⟨"A", {}⟩]) {}
  .qualified (.path (.ofIdents [⟨superName, {}⟩, ⟨"S", {}⟩]) {}) 2
    ⟨[⟨⟨superName, {}⟩, .none⟩, ⟨⟨"T", {}⟩, .angle [.type arg]⟩, ⟨⟨"X", {}⟩, .none⟩], false⟩ {}

/-- Two lifts put four steps in front of the trait and of its argument, and none in front of `S`. -/
theorem climbingQualified_raised :
    ∃ e reports reports', climbingQualified.liftSuper.run .collect = ⟨.ok e, reports⟩ ∧
      (climbingQualified.liftTimes 2).run .collect = ⟨.ok (climbingQualified.raise 4), reports'⟩ ∧
      (climbingQualified.raise 4).render =
        "<super::S as super::super::super::super::super::T" ++
          "<super::super::super::super::super::A>>::X" := by
  have hlift : climbingQualified.liftSuper.run .collect = ⟨.ok _, _⟩ := rfl
  obtain ⟨reports', hrun⟩ := Ty.run_liftTimes hlift 2
  exact ⟨_, _, reports', hlift, hrun, by decide +kernel⟩

end TraitMock
