import TraitMock.Decl.Alike
import TraitMock.Proofs.Decl.Alike
import TraitMock.Proofs.Walk.Moved
import TraitMock.Proofs.Walk.Raise

/-!
# Proofs/Walk/Unraise — lowering a lifted type back

A lift loses nothing.  `Ty.unraise k` takes `k` steps off the front of every path that climbs and
moves the positions of qualified paths back: it undoes `Ty.raise k` on every type
(`Ty.unraise_raise`), so what a lift made can be lowered to what it was.  A lift also looks at no
place (`Pass.blind_superPath`), so that two lifted types are alike if and only if the types were
(`Ty.liftSuper_alike`).
-/

namespace TraitMock

/-! ## Lowering -/

mutual

/-- **A type with steps taken off its climbing paths.** -/
def Ty.unraise (k : Nat) : Ty → Ty
  | .slice elem s => .slice (elem.unraise k) s
  | .array elem length s => .array (elem.unraise k) length s
  | .pointer elem isMut s => .pointer (elem.unraise k) isMut s
  | .reference elem lifetime isMut s => .reference (elem.unraise k) lifetime isMut s
  | .tuple elems s => .tuple (unraiseTypes k elems) s
  | .paren elem s => .paren (elem.unraise k) s
  | .group elem s => .group (elem.unraise k) s
  | .function inputs output s => .function inputs output s
  | .traitObject bounds s => .traitObject (unraiseBounds k bounds) s
  | .implTrait bounds s => .implTrait bounds s
  | .infer s => .infer s
  | .never s => .never s
  | .macroCall text s => .macroCall text s
  | .verbatim text s => .verbatim text s
  | .path path s => .path (path.unraise k) s
  | .qualified self position path s =>
    .qualified self (position - if path.climbs then (k : Int) else 0) (path.unraise k) s
  | .unknown kind => .unknown kind

/-- Types with steps taken off their climbing paths. -/
def unraiseTypes (k : Nat) : List Ty → List Ty
  | [] => []
  | ty :: rest => ty.unraise k :: unraiseTypes k rest

/-- A result with steps taken off its climbing paths. -/
def unraiseOutput (k : Nat) : Option Ty → Option Ty
  | none => none
  | some ty => some (ty.unraise k)

/-- **A path with steps taken off**, its own if it climbs, and those of what is applied along it. -/
def Path.unraise (k : Nat) : Path → Path
  | ⟨segments, leadingColon⟩ =>
    ⟨(unraiseSegments k segments).drop (if Path.climbs ⟨segments, leadingColon⟩ then k else 0),
      leadingColon⟩

/-- Segments with steps taken off the climbing paths that are applied to them. -/
def unraiseSegments (k : Nat) : List Segment → List Segment
  | [] => []
  | segment :: rest => segment.unraise k :: unraiseSegments k rest

/-- A segment with steps taken off the climbing paths that are applied to it. -/
def Segment.unraise (k : Nat) : Segment → Segment
  | ⟨ident, args⟩ => ⟨ident, args.unraise k⟩

/-- What is applied to a segment, with steps taken off its climbing paths. -/
def SegmentArgs.unraise (k : Nat) : SegmentArgs → SegmentArgs
  | .none => .none
  | .angle args => .angle (unraiseArgs k args)
  | .call inputs output => .call (unraiseTypes k inputs) (unraiseOutput k output)

/-- Generic arguments with steps taken off their climbing paths. -/
def unraiseArgs (k : Nat) : List GenericArg → List GenericArg
  | [] => []
  | arg :: rest => arg.unraise k :: unraiseArgs k rest

/-- A generic argument with steps taken off its climbing paths. -/
def GenericArg.unraise (k : Nat) : GenericArg → GenericArg
  | .type ty => .type (ty.unraise k)
  | .lifetime name => .lifetime name
  | .binding ident ty => .binding ident (ty.unraise k)
  | .const text => .const text

/-- A bound with steps taken off its climbing paths. -/
def Bound.unraise (k : Nat) : Bound → Bound
  | .trait path relaxed => .trait (path.unraise k) relaxed
  | .outlives lifetime => .outlives lifetime

/-- Bounds with steps taken off their climbing paths. -/
def unraiseBounds (k : Nat) : List Bound → List Bound
  | [] => []
  | bound :: rest => bound.unraise k :: unraiseBounds k rest

end

/-! ## What was raised is lowered to what it was -/

/-- **Steps in front are seen in the path**: it climbs with them if and only if it does without. -/
theorem Path.climbs_raise (k : Nat) (path : Path) : (path.raise k).climbs = path.climbs := by
  obtain ⟨segments, leadingColon⟩ := path
  rcases segments with _ | ⟨⟨ident, args⟩, rest⟩
  · rfl
  · cases hclimbs : Path.climbs ⟨⟨ident, args⟩ :: rest, leadingColon⟩ with
    | false =>
      rw [raise, steps, hclimbs]
      exact hclimbs
    | true =>
      obtain ⟨hcolon, -⟩ := Bool.and_eq_true_iff.mp hclimbs
      rw [raise, steps, hclimbs]
      cases k with
      | zero => exact hclimbs
      | succ k => exact Bool.and_eq_true_iff.mpr ⟨hcolon, beq_self_eq_true _⟩

theorem drop_unraiseSegments (k : Nat) (front rest : List Segment) :
    (unraiseSegments k (front ++ rest)).drop front.length = unraiseSegments k rest := by
  induction front with
  | nil => rfl
  | cons segment front ih =>
    rw [List.cons_append, unraiseSegments, List.length_cons, List.drop_succ_cons, ih]

mutual

/-- **Lowering undoes raising**, on every type. -/
theorem Ty.unraise_raise (k : Nat) : (ty : Ty) → (ty.raise k).unraise k = ty
  | .slice elem _ | .array elem _ _ | .pointer elem _ _ | .reference elem _ _ _ | .paren elem _
  | .group elem _ => by
    rw [Ty.raise, Ty.unraise, Ty.unraise_raise k elem]
  | .tuple elems _ => by
    rw [Ty.raise, Ty.unraise, unraiseTypes_raise k elems]
  | .function _ _ _ | .implTrait _ _ | .infer _ | .never _ | .macroCall _ _ | .verbatim _ _
  | .unknown _ => rfl
  | .traitObject bounds _ => by
    rw [Ty.raise, Ty.unraise, unraiseBounds_raise k bounds]
  | .path path _ => by
    rw [Ty.raise, Ty.unraise, Path.unraise_raise k path]
  | .qualified _ position path _ => by
    rw [Ty.raise, Ty.unraise, Path.unraise_raise k path, Path.climbs_raise, Int.add_sub_cancel]

theorem unraiseTypes_raise (k : Nat) : (tys : List Ty) → unraiseTypes k (raiseTypes k tys) = tys
  | [] => rfl
  | ty :: rest => by
    rw [raiseTypes, unraiseTypes, Ty.unraise_raise k ty, unraiseTypes_raise k rest]

theorem unraiseOutput_raise (k : Nat) : (output : Option Ty) →
    unraiseOutput k (raiseOutput k output) = output
  | none => rfl
  | some ty => by
    rw [raiseOutput, unraiseOutput, Ty.unraise_raise k ty]

theorem Path.unraise_raise (k : Nat) : (path : Path) → (path.raise k).unraise k = path
  | ⟨segments, leadingColon⟩ => by
    -- As many segments are taken off as steps were put in front.
    have hclimbs := Path.climbs_raise k ⟨segments, leadingColon⟩
    rw [Path.raise] at hclimbs
    rw [Path.raise, Path.unraise, hclimbs, ← Path.length_steps, drop_unraiseSegments,
      unraiseSegments_raise k segments]

theorem unraiseSegments_raise (k : Nat) : (segments : List Segment) →
    unraiseSegments k (raiseSegments k segments) = segments
  | [] => rfl
  | segment :: rest => by
    rw [raiseSegments, unraiseSegments, Segment.unraise_raise k segment,
      unraiseSegments_raise k rest]

theorem Segment.unraise_raise (k : Nat) :
    (segment : Segment) → (segment.raise k).unraise k = segment
  | ⟨_, args⟩ => by
    rw [Segment.raise, Segment.unraise, SegmentArgs.unraise_raise k args]

theorem SegmentArgs.unraise_raise (k : Nat) : (args : SegmentArgs) → (args.raise k).unraise k = args
  | .none => rfl
  | .angle args => by
    rw [SegmentArgs.raise, SegmentArgs.unraise, unraiseArgs_raise k args]
  | .call inputs output => by
    rw [SegmentArgs.raise, SegmentArgs.unraise, unraiseTypes_raise k inputs,
      unraiseOutput_raise k output]

theorem unraiseArgs_raise (k : Nat) :
    (args : List GenericArg) → unraiseArgs k (raiseArgs k args) = args
  | [] => rfl
  | arg :: rest => by
    rw [raiseArgs, unraiseArgs, GenericArg.unraise_raise k arg, unraiseArgs_raise k rest]

theorem GenericArg.unraise_raise (k : Nat) : (arg : GenericArg) → (arg.raise k).unraise k = arg
  | .type ty | .binding _ ty => by
    rw [GenericArg.raise, GenericArg.unraise, Ty.unraise_raise k ty]
  | .lifetime _ | .const _ => rfl

theorem Bound.unraise_raise (k : Nat) : (bound : Bound) → (bound.raise k).unraise k = bound
  | .trait path _ => by
    rw [Bound.raise, Bound.unraise, Path.unraise_raise k path]
  | .outlives _ => rfl

theorem unraiseBounds_raise (k : Nat) : (bounds : List Bound) →
    unraiseBounds k (raiseBounds k bounds) = bounds
  | [] => rfl
  | bound :: rest => by
    rw [raiseBounds, unraiseBounds, Bound.unraise_raise k bound, unraiseBounds_raise k rest]

end

/-! ## What was lifted -/

/-- **A lift that comes to its end** raises by two steps. -/
theorem Ty.apply_liftSuper {ty : Ty} {e : Edit Ty} {policy : Policy} {reports : List Diagnostic}
    (h : ty.liftSuper.run policy = ⟨.ok e, reports⟩) : e.apply ty = ty.raise 2 := by
  have hafter := (Ty.run_walk_inv Pass.orderly_superPath h).2
  rw [hafter, ← Ty.after_raise 0 ty, Ty.raise_zero]

/-- Without its places, a lifted type is the type without its places, raised. -/
theorem Ty.moved_apply_liftSuper {ty : Ty} {e : Edit Ty} {policy : Policy}
    {reports : List Diagnostic} {f : Span → Span} (h : ty.liftSuper.run policy = ⟨.ok e, reports⟩) :
    (e.apply ty).moved f = (ty.moved f).raise 2 := by
  have hmoved : (ty.moved f).liftSuper.run policy =
      ⟨.ok (e.map (Ty.moved f)), reports.map (Diagnostic.moved f)⟩ := by
    rw [Ty.liftSuper_moved, Checked.run_bind, Checked.run_moved, h]
    simp only [Checked.run_pure, List.append_nil]
  rw [← Ty.apply_liftSuper hmoved, Edit.apply_map]

/-- **A lift conflates no two types.**  What two lifts made of two types can be lowered to the very
types that were lifted, and is alike, whatever the places, if and only if those are. -/
theorem Ty.liftSuper_alike {s t : Ty} {d e : Edit Ty} {policy policy' : Policy}
    {reports reports' : List Diagnostic} (hs : s.liftSuper.run policy = ⟨.ok d, reports⟩)
    (ht : t.liftSuper.run policy' = ⟨.ok e, reports'⟩) :
    (d.apply s).unraise 2 = s ∧ (e.apply t).unraise 2 = t ∧
      ((d.apply s).alike (e.apply t) = true ↔ s.alike t = true) := by
  refine ⟨?_, ?_, ?_⟩
  · rw [Ty.apply_liftSuper hs, Ty.unraise_raise]
  · rw [Ty.apply_liftSuper ht, Ty.unraise_raise]
  · rw [Ty.alike_iff, Ty.alike_iff, Ty.moved_apply_liftSuper hs, Ty.moved_apply_liftSuper ht]
    constructor
    · intro h
      rw [← Ty.unraise_raise 2 (s.moved .forget), h, Ty.unraise_raise]
    · intro h
      rw [h]

/-- A type and what a lift makes of it are lifted apart, and the second is lowered to the first. -/
theorem climbingQualified_unraised :
    ∃ d e reports reports', climbingQualified.liftSuper.run .collect = ⟨.ok d, reports⟩ ∧
      (climbingQualified.raise 2).liftSuper.run .collect = ⟨.ok e, reports'⟩ ∧
      (d.apply climbingQualified).unraise 2 = climbingQualified ∧
      (d.apply climbingQualified).alike (climbingQualified.raise 2) = true ∧
      (d.apply climbingQualified).alike (e.apply (climbingQualified.raise 2)) = false := by
  have hs : climbingQualified.liftSuper.run .collect = ⟨.ok _, _⟩ := rfl
  have ht : (climbingQualified.raise 2).liftSuper.run .collect = ⟨.ok _, _⟩ := rfl
  obtain ⟨hback, -, halike⟩ := Ty.liftSuper_alike hs ht
  refine ⟨_, _, _, _, hs, ht, hback, by decide +kernel, ?_⟩
  rw [Bool.eq_false_iff, Ne, halike]
  decide +kernel

end TraitMock
