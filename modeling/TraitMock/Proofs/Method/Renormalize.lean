import TraitMock.Proofs.Decl.Nodes
import TraitMock.Proofs.Method.Normalize

/-!
# Proofs/Method/Renormalize — normalizing says what it changes, and changes nothing twice

Where problems are collected, every list of parameters can be normalized.  An argument that is bound
by a name alone loses its `mut`, and so does `self`; anything else is left alone, and is reported if
it is no receiver.  What comes out is normalized to itself, with the same reports.
-/

namespace TraitMock

/-- **Whether a parameter is bound by a name alone**: `self`, or a name that is neither taken by
reference nor stands for a pattern.  It may be `mut`. -/
def Param.isBoundByName : Param → Bool
  | .receiver .value _ _ _ => true
  | .typed (.ident _ false _ none _) _ _ => true
  | _ => false

/-- A problem of an argument, as it is shown. -/
def argumentProblem (message : String) (span : Span) : Diagnostic :=
  { message, phase := some "normalize", span }

/-- **What there is to report of a parameter.** -/
def Param.problems : Param → List Diagnostic
  | .receiver _ _ _ _ => []
  | .typed (.wild s) _ _ => [argumentProblem "mocked methods must have named arguments" s]
  | .typed (.ident _ byRef _ sub s) _ _ =>
    (if byRef then
        [argumentProblem "by-reference argument bindings are not supported" s] else []) ++
      if sub.isSome then [argumentProblem "subpattern bindings are not supported" s] else []
  | .typed pat _ _ => [argumentProblem "unsupported argument pattern" pat.span]

/-- **What becomes of a parameter**: it loses its `mut` if it is bound by a name alone, and is left
as it is otherwise. -/
structure Param.Normalized (p : Param) (e : Edit Param) : Prop where
  ty : (e.apply p).ty? = p.ty?
  span : (e.apply p).span = p.span
  bound : p.isBoundByName → e.apply p = p.withoutMut
  other : ¬ p.isBoundByName → e = .keep

namespace Param

theorem span_withoutMut (p : Param) : p.withoutMut.span = p.span := by
  unfold withoutMut
  split <;> rfl

/-- A parameter that is left alone is normalized if there is no `mut` to drop. -/
theorem normalized_keep {p : Param} (h : p.isBoundByName → p.withoutMut = p) :
    p.Normalized .keep where
  ty := rfl
  span := rfl
  bound hp := (h hp).symm
  other _ := rfl

/-- A parameter that is bound by a name alone is normalized without its `mut`. -/
theorem normalized_withoutMut {p : Param} (h : p.isBoundByName) :
    p.Normalized (.replace p.withoutMut) where
  ty := p.ty?_withoutMut
  span := p.span_withoutMut
  bound _ := rfl
  other hp := absurd h hp

/-- **Normalizing a parameter**, and normalizing what comes of it. -/
theorem run_normalize (p : Param) :
    ∃ e, p.normalize.run .collect = ⟨.ok e, p.problems⟩ ∧ p.Normalized e ∧
      (e.apply p).normalize.run .collect = ⟨.ok .keep, p.problems⟩ := by
  match p with
  | .receiver .value true _ _ => exact ⟨_, rfl, normalized_withoutMut rfl, rfl⟩
  | .receiver .value false _ _ | .receiver .ref _ _ _ | .receiver .refMut _ _ _ =>
    exact ⟨_, rfl, normalized_keep fun _ => rfl, rfl⟩
  | .typed (.wild _) _ _ | .typed (.tuple _ _) _ _ | .typed (.unknown _) _ _ =>
    exact ⟨_, rfl, normalized_keep fun _ => rfl, rfl⟩
  | .typed (.ident _ false true none _) _ _ => exact ⟨_, rfl, normalized_withoutMut rfl, rfl⟩
  | .typed (.ident _ false false none _) _ _ => exact ⟨_, rfl, normalized_keep fun _ => rfl, rfl⟩
  -- Such a binding is reported, and keeps its `mut`.
  | .typed (.ident _ true _ none _) _ _ | .typed (.ident _ true _ (some _) _) _ _
  | .typed (.ident _ false _ (some _) _) _ _ =>
    exact ⟨_, rfl, normalized_keep (absurd · Bool.false_ne_true), rfl⟩

end Param

/-- **Normalizing a list of parameters is exact and idempotent.**  Where problems are collected,
every list can be normalized, and

* what is reported is, parameter by parameter, what there is to report of each;
* there are as many parameters as before, each with its type and its place: those that are bound by
  a name alone without their `mut`, and all others as they were;
* normalizing these again leaves every one as it is, and reports the same. -/
theorem normalizeParams_exact (params : List Param) :
    ∃ edits, (normalizeParams params).run .collect = ⟨.ok edits, params.flatMap Param.problems⟩ ∧
      List.Forall₂ Param.Normalized params edits ∧
      (applyEdits params edits).length = params.length ∧
      (normalizeParams (applyEdits params edits)).run .collect =
        ⟨.ok (params.map fun _ => .keep), params.flatMap Param.problems⟩ := by
  induction params with
  | nil => exact ⟨[], rfl, .nil, rfl, rfl⟩
  | cons p rest ih =>
    obtain ⟨e, hrun, hp, hagain⟩ := p.run_normalize
    obtain ⟨es, hruns, hrest, hlength, hagains⟩ := ih
    refine ⟨e :: es, ?_, .cons hp hrest, ?_, ?_⟩
    · rw [normalizeParams, Checked.run_bind_ok hrun, Checked.run_bind_ok hruns]
      simp
    · rw [List.length_cons, ← hlength]
      rfl
    · have hcons : applyEdits (p :: rest) (e :: es) = e.apply p :: applyEdits rest es := rfl
      rw [hcons, normalizeParams, Checked.run_bind_ok hagain, Checked.run_bind_ok hagains]
      simp

end TraitMock
